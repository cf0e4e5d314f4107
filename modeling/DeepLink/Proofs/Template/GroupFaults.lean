import DeepLink.Proofs.Template.Nesting

/-!
# Culprits of refused parentheses

The check of groups walks over the tokens with a stack of the places where groups were opened. What
it has seen is balanced runs with the parentheses of the stack between them (`Pending`), so a
parenthesis that it refuses has no partner, and one that nests too deeply is the first to do so
(`culprit_of_checkGroups`).
-/

namespace DeepLink

/-! ## Open groups -/

/-- The number of groups that are still open after the tokens. -/
def openGroups (tokens : List Token) : Nat := tokens.foldl Token.depthAfter 0

theorem foldl_depthAfter {a : List Token} (ha : Balanced a) (d : Nat) :
    a.foldl Token.depthAfter d = d := foldl_of_depthThrough? (depthThrough?_balanced ha d)

theorem openGroups_append {a : List Token} (ha : Balanced a) (seen : List Token) :
    openGroups (seen ++ a) = openGroups seen := by
  rw [openGroups, List.foldl_append, foldl_depthAfter ha, openGroups]

theorem openGroups_open {a : List Token} (ha : Balanced a) (seen : List Token) :
    openGroups (seen ++ .mark .openParen :: a) = openGroups seen + 1 := by
  rw [openGroups, List.foldl_append, List.foldl_cons, foldl_depthAfter ha]
  rfl

/-- Every group was opened with fewer of them open than may be. -/
def Shallow (tokens : List Token) : Prop :=
  ∀ front rest, tokens = front ++ .mark .openParen :: rest → openGroups front < nestingLimit

theorem shallow_nil : Shallow [] := by
  intro front rest he
  simp at he

theorem Shallow.concat {seen : List Token} (hs : Shallow seen) {t : Token}
    (ht : t = .mark .openParen → openGroups seen < nestingLimit) : Shallow (seen ++ [t]) := by
  intro front rest he
  rcases List.eq_nil_or_concat rest with rfl | ⟨most, u, rfl⟩
  · obtain ⟨rfl, hopen⟩ := List.append_inj' he rfl
    exact ht (List.cons.inj hopen).1
  · rw [List.concat_eq_append, ← List.cons_append, ← List.append_assoc] at he
    obtain ⟨rfl, -⟩ := List.append_inj' he rfl
    exact hs front most rfl

/-! ## What the check has seen -/

/-- The tokens, of which the first starts at `start`, open groups at the given places and do not
close them; the innermost comes first. -/
inductive Pending (start : Nat) : List Token → List Nat → Prop
  | none {seen : List Token} (h : Balanced seen) : Pending start seen []
  | opened {seen inner : List Token} {outer : List Nat} (h : Pending start seen outer)
    (hi : Balanced inner) :
    Pending start (seen ++ .mark .openParen :: inner) ((start + Token.totalSize seen) :: outer)

section Pending

variable {start : Nat} {seen : List Token} {opened : List Nat}

theorem Pending.append (h : Pending start seen opened) {a : List Token} (ha : Balanced a) :
    Pending start (seen ++ a) opened := by
  cases h with
  | none hb => exact .none (hb.append ha)
  | opened h hi =>
    rw [List.append_assoc, List.cons_append]
    exact .opened h (hi.append ha)

/-- A parenthesis closes the innermost group. -/
theorem Pending.close {place : Nat} (h : Pending start seen (place :: opened)) :
    Pending start (seen ++ [.mark .closeParen]) opened := by
  cases h with
  | opened h hi =>
    rw [List.append_assoc, List.cons_append]
    exact h.append (.group hi .nil)

theorem Pending.openGroups_eq (h : Pending start seen opened) :
    openGroups seen = opened.length := by
  induction h with
  | none hb => exact openGroups_append hb []
  | opened _ hi ih => rw [openGroups_open hi, ih, List.length_cons]

theorem Pending.length_le (h : Pending start seen opened) (hs : Shallow seen) :
    opened.length ≤ nestingLimit := by
  cases h with
  | none _ => exact Nat.zero_le _
  | opened h _ =>
    have hlt := hs _ _ rfl
    rw [h.openGroups_eq] at hlt
    exact hlt

end Pending

/-! ## Culprits -/

/-- Between `before` and `after` the parenthesis has no partner: no balanced run leads from it to
one. -/
inductive Lonely (before after : List Token) : Token → Prop
  | opening (h : ∀ inner rest, after = inner ++ .mark .closeParen :: rest → ¬ Balanced inner) :
    Lonely before after (.mark .openParen)
  | closing (h : ∀ rest inner, before = rest ++ .mark .openParen :: inner → ¬ Balanced inner) :
    Lonely before after (.mark .closeParen)

/-- Of tokens of which the first starts at `start`, the fault names the place of a parenthesis
without a partner, or of the first that is opened with as many groups open as may be. -/
inductive IsCulprit (start : Nat) (tokens : List Token) : GroupFault → Prop
  | unbalanced {before after : List Token} {t : Token} (he : tokens = before ++ t :: after)
    (ht : Lonely before after t) :
    IsCulprit start tokens (.unbalanced (start + Token.totalSize before))
  | tooDeep {before after : List Token} (he : tokens = before ++ .mark .openParen :: after)
    (hs : Shallow before) (hd : openGroups before = nestingLimit) :
    IsCulprit start tokens (.tooDeep (start + Token.totalSize before))

theorem IsCulprit.ne_nil {start : Nat} {tokens : List Token} {fault : GroupFault}
    (h : IsCulprit start tokens fault) : tokens ≠ [] := by
  cases h with
  | unbalanced he _ => simp [he]
  | tooDeep he _ _ => simp [he]

theorem lonely_opening {inner : List Token} (hi : Balanced inner) (before : List Token) :
    Lonely before inner (.mark .openParen) :=
  .opening fun _ rest he ha => ha.not_append_close rest (he ▸ hi)

theorem lonely_closing {before : List Token} (hb : Balanced before) (after : List Token) :
    Lonely before after (.mark .closeParen) := by
  refine .closing fun rest inner he hi => ?_
  have hopen := openGroups_open hi rest
  rw [← he, openGroups, foldl_depthAfter hb] at hopen
  omega

theorem add_totalSize_concat (start : Nat) (seen : List Token) (t : Token) :
    start + Token.totalSize seen + t.size = start + Token.totalSize (seen ++ [t]) := by
  rw [totalSize_append, Token.totalSize, Token.totalSize, Nat.add_zero, Nat.add_assoc]

/-- What the check refuses after what it has seen is a culprit of all the tokens. -/
theorem culprit_of_checkGroupsFrom {start : Nat} {seen tokens : List Token} {opened : List Nat}
    {fault : GroupFault} (hp : Pending start seen opened) (hs : Shallow seen)
    (h : checkGroupsFrom (start + Token.totalSize seen) opened tokens = .error fault) :
    IsCulprit start (seen ++ tokens) fault := by
  induction tokens generalizing seen opened with
  | nil =>
    cases hp with
    | none _ => cases h
    | opened hp hi =>
      cases h
      rw [List.append_nil]
      exact .unbalanced rfl (lonely_opening hi _)
  | cons t rest ih =>
    have happend : seen ++ t :: rest = (seen ++ [t]) ++ rest := by simp
    by_cases ho : t = .mark .openParen
    · subst ho
      rw [checkGroupsFrom] at h
      split at h
      · next hlt =>
        rw [happend]
        rw [add_totalSize_concat] at h
        exact ih (.opened hp .nil) (hs.concat fun _ => hp.openGroups_eq ▸ hlt) h
      · next hge =>
        cases h
        have hle := hp.length_le hs
        exact .tooDeep rfl hs (by rw [hp.openGroups_eq]; omega)
    by_cases hc : t = .mark .closeParen
    · subst hc
      cases opened with
      | nil =>
        cases h
        cases hp with
        | none hb => exact .unbalanced rfl (lonely_closing hb rest)
      | cons place outer =>
        rw [checkGroupsFrom, add_totalSize_concat] at h
        rw [happend]
        exact ih hp.close (hs.concat fun he => absurd he (by simp)) h
    have ht := isParen_of_ne ho hc
    rw [checkGroupsFrom_cons ht, add_totalSize_concat] at h
    rw [happend]
    exact ih (hp.append (.cons ht .nil)) (hs.concat fun he => absurd he ho) h

/-- **Culprits of refused parentheses.** The check names a parenthesis without a partner, or the
first one that nests too deeply. -/
theorem culprit_of_checkGroups {start : Nat} {tokens : List Token} {fault : GroupFault}
    (h : checkGroups start tokens = .error fault) : IsCulprit start tokens fault :=
  culprit_of_checkGroupsFrom (.none .nil) shallow_nil h

end DeepLink
