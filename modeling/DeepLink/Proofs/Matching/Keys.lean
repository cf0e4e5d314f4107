import DeepLink.Proofs.Matching.Query

/-!
# Queries are matched key by key

An item looks at the pairs of one key, or of two, and at nothing else: it takes the first value that
its parameter accepts and leaves the others as they are. So a query binds the same wherever the keys
of its items have the same values in the same order (`bindQuery_eq_of_alike`). How pairs of
different keys stand among each other does not count, nor do pairs of other keys.
-/

namespace DeepLink

/-- The values of the pairs with a key, in their order. -/
def valuesOf (key : String) (pairs : List (String × String)) : List String :=
  (pairs.filter (·.1 = key)).map (·.2)

theorem valuesOf_append (key : String) (a b : List (String × String)) :
    valuesOf key (a ++ b) = valuesOf key a ++ valuesOf key b := by
  rw [valuesOf, List.filter_append, List.map_append]
  rfl

theorem valuesOf_cons_self (key value : String) (rest : List (String × String)) :
    valuesOf key ((key, value) :: rest) = value :: valuesOf key rest := by
  simp [valuesOf]

theorem valuesOf_cons_of_ne {key other : String} (h : other ≠ key) (value : String)
    (rest : List (String × String)) :
    valuesOf key ((other, value) :: rest) = valuesOf key rest := by
  simp [valuesOf, h]

theorem mem_valuesOf {key value : String} {pairs : List (String × String)} :
    value ∈ valuesOf key pairs ↔ (key, value) ∈ pairs := by
  simp [valuesOf]

/-! ## Keys that stand once -/

theorem valuesOf_eq_nil {key : String} {pairs : List (String × String)}
    (h : ∀ pair ∈ pairs, pair.1 ≠ key) : valuesOf key pairs = [] := by
  rw [valuesOf, List.filter_eq_nil_iff.mpr fun pair hm => by simpa using h pair hm]
  rfl

/-- If no key stands twice, there is at most one value of each. -/
theorem valuesOf_of_nodup {pairs : List (String × String)} (h : (pairs.map (·.1)).Nodup)
    (key : String) : valuesOf key pairs = [] ∨ ∃ value, valuesOf key pairs = [value] := by
  induction pairs with
  | nil => exact .inl rfl
  | cons pair pairs ih =>
    obtain ⟨other, value⟩ := pair
    obtain ⟨hother, hpairs⟩ := List.nodup_cons.mp h
    by_cases hk : other = key
    · subst hk
      have hnone : valuesOf other pairs = [] := valuesOf_eq_nil fun pair hm he =>
        hother (List.mem_map.mpr ⟨pair, hm, he⟩)
      exact .inr ⟨value, by rw [valuesOf_cons_self, hnone]⟩
    · rw [valuesOf_cons_of_ne hk]
      exact ih hpairs

/-- Where a key stands at most once, pairs may be put in any order, and pairs of other keys among
them. -/
theorem valuesOf_eq_of_perm {pairs others extra : List (String × String)}
    (h : (pairs.map (·.1)).Nodup) (hp : others.Perm (pairs ++ extra)) {key : String}
    (he : ∀ pair ∈ extra, pair.1 ≠ key) : valuesOf key others = valuesOf key pairs := by
  have hperm : (valuesOf key others).Perm (valuesOf key pairs) := by
    have hvalues : (valuesOf key others).Perm (valuesOf key (pairs ++ extra)) :=
      (hp.filter _).map _
    rwa [valuesOf_append, valuesOf_eq_nil he, List.append_nil] at hvalues
  rcases valuesOf_of_nodup h key with hnil | ⟨value, hone⟩
  · rw [hnil] at hperm ⊢
    exact hperm.eq_nil
  · rw [hone] at hperm ⊢
    exact List.perm_singleton.mp hperm

/-! ## One pair -/

section Picks

variable {p : Parameter} {pairs others : List (String × String)} {value : String}

/-- What no pair fits, no value of its key fits. -/
theorem Parameter.FindsNone.not_accepts (h : p.FindsNone pairs) :
    ∀ v ∈ valuesOf p.name pairs, p.accepts v = false := by
  intro v hv
  have hfit := h _ (mem_valuesOf.mp hv)
  rw [Parameter.fits, beq_self_eq_true, Bool.true_and] at hfit
  exact hfit

theorem Parameter.FindsNone.find? (h : p.FindsNone pairs) :
    (valuesOf p.name pairs).find? p.accepts = none := by
  rw [List.find?_eq_none]
  intro v hv ha
  rw [h.not_accepts v hv] at ha
  cases ha

/-- A parameter picks a value of its own key, and those before it are not accepted. -/
theorem Parameter.Picks.exists_valuesOf (h : p.Picks pairs value others) :
    ∃ before after, valuesOf p.name pairs = before ++ value :: after ∧
      valuesOf p.name others = before ++ after ∧ p.accepts value = true ∧
      ∀ v ∈ before, p.accepts v = false := by
  obtain ⟨before, after, rfl, rfl, ha, hno⟩ := h
  refine ⟨valuesOf p.name before, valuesOf p.name after, ?_, valuesOf_append _ _ _, ha,
    Parameter.FindsNone.not_accepts hno⟩
  rw [valuesOf_append, valuesOf_cons_self]

theorem Parameter.Picks.find? (h : p.Picks pairs value others) :
    (valuesOf p.name pairs).find? p.accepts = some value := by
  obtain ⟨before, after, hv, -, ha, hno⟩ := h.exists_valuesOf
  rw [hv, List.find?_eq_some_iff_append]
  exact ⟨ha, before, after, rfl, fun v hm => by rw [hno v hm]; rfl⟩

theorem Parameter.Picks.valuesOf_self (h : p.Picks pairs value others) :
    valuesOf p.name others = (valuesOf p.name pairs).eraseP p.accepts := by
  obtain ⟨before, after, hv, ho, ha, hno⟩ := h.exists_valuesOf
  have hrejected : ∀ v ∈ before, ¬ p.accepts v = true := by
    intro v hm hacc
    rw [hno v hm] at hacc
    cases hacc
  rw [hv, ho, List.eraseP_append_right _ hrejected, List.eraseP_cons_of_pos ha]

theorem Parameter.Picks.valuesOf_of_ne (h : p.Picks pairs value others) {key : String}
    (hk : p.name ≠ key) : valuesOf key others = valuesOf key pairs := by
  obtain ⟨before, after, rfl, rfl, -, -⟩ := h
  rw [valuesOf_append, valuesOf_append, valuesOf_cons_of_ne hk]

theorem Parameter.findsNone_of_valuesOf (h : valuesOf p.name pairs = []) : p.FindsNone pairs := by
  intro pair hm
  have hne : pair.1 ≠ p.name := by
    intro he
    have hv : pair.2 ∈ valuesOf p.name pairs := mem_valuesOf.mpr (he ▸ hm)
    rw [h] at hv
    cases hv
  rw [Parameter.fits, beq_eq_false_iff_ne.mpr hne, Bool.false_and]

/-- Of pairs with one value of its key a parameter picks this one if it accepts it. -/
theorem Parameter.exists_picks_of_alike (ha : p.accepts value = true)
    (h : valuesOf p.name pairs = valuesOf p.name [(p.name, value)]) :
    ∃ others, p.Picks pairs value others := by
  rw [valuesOf_cons_self] at h
  have hm : (p.name, value) ∈ pairs := by
    rw [← mem_valuesOf, h]
    exact List.mem_cons_self
  cases ht : takePair p pairs with
  | none =>
    have hfit := takePair_eq_none_iff.mp ht _ hm
    rw [Parameter.fits, beq_self_eq_true, ha] at hfit
    cases hfit
  | some taken =>
    have hpick := takePair_eq_some_iff.mp ht
    have hfound := hpick.find?
    rw [h, List.find?_cons_of_pos ha] at hfound
    exact ⟨taken.2, Option.some.inj hfound ▸ hpick⟩

theorem QueryItem.Picks.valuesOf_of_not_mem {item : QueryItem} {picked : List (Parameter × String)}
    (h : item.Picks pairs picked others) {key : String}
    (hk : key ∉ item.parameters.map Parameter.name) : valuesOf key others = valuesOf key pairs := by
  cases h with
  | required h => exact h.valuesOf_of_ne fun he => hk (he ▸ List.mem_cons_self)
  | optional h => exact h.valuesOf_of_ne fun he => hk (he ▸ List.mem_cons_self)
  | omitted h => rfl
  | first h => exact h.valuesOf_of_ne fun he => hk (he ▸ List.mem_cons_self)
  | second hf h =>
    exact h.valuesOf_of_ne fun he => hk (he ▸ List.mem_cons_of_mem _ List.mem_cons_self)

end Picks

/-! ## Pairs that are alike -/

/-- The keys have the same values in the same order. -/
def Alike (keys : List String) (a b : List (String × String)) : Prop :=
  ∀ key ∈ keys, valuesOf key a = valuesOf key b

/-- The same was taken, and what was left is alike. -/
def TakenAlike {α : Type} (keys : List String) (a b : α × List (String × String)) : Prop :=
  a.1 = b.1 ∧ Alike keys a.2 b.2

section Alike

variable {keys : List String} {a b : List (String × String)} (h : Alike keys a b)

include h

/-- From pairs that are alike a parameter takes the same value, and leaves them alike. -/
theorem takePair_alike {p : Parameter} (hp : p.name ∈ keys) :
    Option.Rel (TakenAlike keys) (takePair p a) (takePair p b) := by
  have hvalues := h p.name hp
  cases ha : takePair p a with
  | none =>
    cases hb : takePair p b with
    | none => exact .none
    | some taken =>
      have hfind := (takePair_eq_some_iff.mp hb).find?
      rw [← hvalues, (takePair_eq_none_iff.mp ha).find?] at hfind
      cases hfind
  | some taken =>
    have hpick := takePair_eq_some_iff.mp ha
    have hfind := hpick.find?
    cases hb : takePair p b with
    | none =>
      rw [hvalues, (takePair_eq_none_iff.mp hb).find?] at hfind
      cases hfind
    | some taken' =>
      have hpick' := takePair_eq_some_iff.mp hb
      rw [hvalues, hpick'.find?] at hfind
      refine .some ⟨(Option.some.inj hfind).symm, fun key hk => ?_⟩
      by_cases hname : p.name = key
      · subst hname
        rw [hpick.valuesOf_self, hpick'.valuesOf_self, hvalues]
      · rw [hpick.valuesOf_of_ne hname, hpick'.valuesOf_of_ne hname, h key hk]

theorem takeItem_alike {item : QueryItem} (hi : ∀ p ∈ item.parameters, p.name ∈ keys) :
    Option.Rel (TakenAlike keys) (takeItem a item) (takeItem b item) := by
  cases item with
  | required p =>
    have hp := takePair_alike h (hi p List.mem_cons_self)
    rw [takeItem, takeItem]
    generalize takePair p a = first, takePair p b = second at hp
    cases hp with
    | none => exact .none
    | some ht => exact .some ⟨congrArg (Bindings.bind p) ht.1, ht.2⟩
  | optional p =>
    have hp := takePair_alike h (hi p List.mem_cons_self)
    rw [takeItem, takeItem]
    generalize takePair p a = first, takePair p b = second at hp
    cases hp with
    | none => exact .some ⟨rfl, h⟩
    | some ht => exact .some ⟨congrArg (Bindings.bind p) ht.1, ht.2⟩
  | alternation p q =>
    have hp := takePair_alike h (hi p List.mem_cons_self)
    have hq := takePair_alike h (hi q (List.mem_cons_of_mem _ List.mem_cons_self))
    rw [takeItem, takeItem]
    generalize takePair p a = first, takePair p b = second at hp
    cases hp with
    | some ht => exact .some ⟨congrArg (Bindings.bind p) ht.1, ht.2⟩
    | none =>
      generalize takePair q a = first, takePair q b = second at hq
      cases hq with
      | none => exact .none
      | some ht => exact .some ⟨congrArg (Bindings.bind q) ht.1, ht.2⟩

theorem Alike.mono {fewer : List String} (hk : ∀ key ∈ fewer, key ∈ keys) : Alike fewer a b :=
  fun key hkey => h key (hk key hkey)

end Alike

theorem Alike.of_append_left {keys : List String} {pairs a b : List (String × String)}
    (h : Alike keys pairs (a ++ b)) (hb : ∀ pair ∈ b, pair.1 ∉ keys) : Alike keys pairs a := by
  intro key hkey
  have hnone : valuesOf key b = [] := valuesOf_eq_nil fun pair hm he => hb pair hm (he ▸ hkey)
  rw [h key hkey, valuesOf_append, hnone, List.append_nil]

theorem Alike.of_append_right {keys : List String} {pairs a b : List (String × String)}
    (h : Alike keys pairs (a ++ b)) (ha : ∀ pair ∈ a, pair.1 ∉ keys) : Alike keys pairs b := by
  intro key hkey
  have hnone : valuesOf key a = [] := valuesOf_eq_nil fun pair hm he => ha pair hm (he ▸ hkey)
  rw [h key hkey, valuesOf_append, hnone, List.nil_append]

/-! ## Queries -/

/-- The keys for which items look. -/
def keysOf (items : List QueryItem) : List String :=
  items.flatMap fun item => item.parameters.map Parameter.name

theorem keysOf_cons (item : QueryItem) (items : List QueryItem) :
    keysOf (item :: items) = item.parameters.map Parameter.name ++ keysOf items :=
  List.flatMap_cons

/-- **Matching a query goes by keys.** If every key for which the items look has the same values in
the same order, they bind the same from both, or nothing from both. -/
theorem bindQuery_eq_of_alike {items : List QueryItem} {a b : List (String × String)}
    (h : Alike (keysOf items) a b) : bindQuery items a = bindQuery items b := by
  induction items generalizing a b with
  | nil => rfl
  | cons item items ih =>
    rw [keysOf_cons] at h
    have hnames : ∀ p ∈ item.parameters,
        p.name ∈ item.parameters.map Parameter.name ++ keysOf items :=
      fun p hp => List.mem_append_left _ (List.mem_map_of_mem hp)
    have ht := takeItem_alike h hnames
    rw [bindQuery, bindQuery]
    generalize takeItem a item = first, takeItem b item = second at ht
    cases ht with
    | none => rfl
    | @some taken taken' ht =>
      obtain ⟨hbound, hleft⟩ := ht
      have hrest := ih (hleft.mono fun key hk => List.mem_append_right _ hk)
      show (bindQuery items taken.2).map _ = (bindQuery items taken'.2).map _
      rw [hrest, hbound]

/-- Pairs of `q` stand between those of `id`, and nothing looks for `ref`. -/
theorem bindQuery_eq_of_alike_interleaved :
    Alike (keysOf [.required (.untyped "id"), .optional (.untyped "q"),
        .required (.typed .int "id")])
      [("id", "x"), ("q", "1"), ("id", "2"), ("q", "3")]
      [("q", "1"), ("ref", "9"), ("id", "x"), ("q", "3"), ("id", "2")] ∧
    bindQuery [.required (.untyped "id"), .optional (.untyped "q"), .required (.typed .int "id")]
      [("id", "x"), ("q", "1"), ("id", "2"), ("q", "3")] =
    bindQuery [.required (.untyped "id"), .optional (.untyped "q"), .required (.typed .int "id")]
      [("q", "1"), ("ref", "9"), ("id", "x"), ("q", "3"), ("id", "2")] ∧
    bindQuery [.required (.untyped "id"), .optional (.untyped "q"), .required (.typed .int "id")]
      [("q", "1"), ("ref", "9"), ("id", "x"), ("q", "3"), ("id", "2")] =
    some ⟨[(.untyped "id", "x"), (.untyped "q", "1"), (.typed .int "id", "2")]⟩ := by
  have h : Alike (keysOf [.required (.untyped "id"), .optional (.untyped "q"),
        .required (.typed .int "id")])
      [("id", "x"), ("q", "1"), ("id", "2"), ("q", "3")]
      [("q", "1"), ("ref", "9"), ("id", "x"), ("q", "3"), ("id", "2")] := by
    unfold Alike
    decide
  exact ⟨h, bindQuery_eq_of_alike h, by decide +kernel⟩

end DeepLink
