import DeepLink.Matching

/-!
# The pairs that a query takes

An item picks the first pair left that fits one of its parameters. `PicksAll` says which values the
items of a query pick, one item after the other, and a query binds just these
(`bindQuery_eq_some_iff`).
-/

namespace DeepLink

/-- Of the pairs the first that fits the parameter has the value; `others` are the other pairs. -/
def Parameter.Picks (p : Parameter) (pairs : List (String × String)) (value : String)
    (others : List (String × String)) : Prop :=
  ∃ before after, pairs = before ++ (p.name, value) :: after ∧ others = before ++ after ∧
    p.accepts value = true ∧ ∀ pair ∈ before, p.fits pair = false

/-- No pair fits the parameter. -/
def Parameter.FindsNone (p : Parameter) (pairs : List (String × String)) : Prop :=
  ∀ pair ∈ pairs, p.fits pair = false

/-- The item picks the values from the pairs, and leaves other pairs. -/
inductive QueryItem.Picks : QueryItem → List (String × String) → List (Parameter × String) →
    List (String × String) → Prop
  | required {p : Parameter} {pairs others : List (String × String)} {value : String}
    (h : p.Picks pairs value others) : QueryItem.Picks (.required p) pairs [(p, value)] others
  | optional {p : Parameter} {pairs others : List (String × String)} {value : String}
    (h : p.Picks pairs value others) : QueryItem.Picks (.optional p) pairs [(p, value)] others
  | omitted {p : Parameter} {pairs : List (String × String)} (h : p.FindsNone pairs) :
    QueryItem.Picks (.optional p) pairs [] pairs
  | first {first second : Parameter} {pairs others : List (String × String)} {value : String}
    (h : first.Picks pairs value others) :
    QueryItem.Picks (.alternation first second) pairs [(first, value)] others
  | second {first second : Parameter} {pairs others : List (String × String)} {value : String}
    (hf : first.FindsNone pairs) (h : second.Picks pairs value others) :
    QueryItem.Picks (.alternation first second) pairs [(second, value)] others

/-- The items pick the values from the pairs; pairs may be left over. -/
inductive PicksAll : List QueryItem → List (String × String) → List (Parameter × String) → Prop
  | nil (pairs : List (String × String)) : PicksAll [] pairs []
  | cons {item : QueryItem} {items : List QueryItem} {pairs others : List (String × String)}
    {picked more : List (Parameter × String)} (h : item.Picks pairs picked others)
    (hs : PicksAll items others more) : PicksAll (item :: items) pairs (picked ++ more)

/-- The bindings of parameters to values, one after the other. -/
def bindAll : List (Parameter × String) → Bindings
  | [] => .empty
  | (p, value) :: rest => .bind p value ++ bindAll rest

theorem bindAll_append (a b : List (Parameter × String)) :
    bindAll (a ++ b) = bindAll a ++ bindAll b := by
  induction a with
  | nil => exact (Bindings.empty_append _).symm
  | cons entry a ih => rw [List.cons_append, bindAll, bindAll, ih, Bindings.append_assoc]

theorem bindAll_singleton (p : Parameter) (value : String) :
    bindAll [(p, value)] = .bind p value := Bindings.append_empty _

theorem entries_bind_of_name {p : Parameter} (h : p.name ≠ "") (value : String) :
    (Bindings.bind p value).entries = [(p, value)] := by
  have hnamed : ¬ p.isNameless = true := by simpa [Parameter.isNameless] using h
  rw [Bindings.bind, if_neg hnamed]

theorem entries_bind_of_nameless {p : Parameter} (h : p.name = "") (value : String) :
    (Bindings.bind p value).entries = [] := by
  have hnameless : p.isNameless = true := by simp [Parameter.isNameless, h]
  rw [Bindings.bind, if_pos hnameless]
  rfl

/-- Of the values given those of named parameters are bound. -/
theorem entries_bindAll (values : List (Parameter × String)) :
    (bindAll values).entries = values.filter (·.1.name ≠ "") := by
  induction values with
  | nil => rfl
  | cons first rest ih =>
    obtain ⟨p, value⟩ := first
    show (Bindings.bind p value).entries ++ (bindAll rest).entries = _
    rw [ih]
    by_cases h : p.name = ""
    · rw [entries_bind_of_nameless h, List.filter_cons_of_neg (by simpa using h)]
      rfl
    · rw [entries_bind_of_name h, List.filter_cons_of_pos (by simpa using h)]
      rfl

theorem mem_entries_bindAll {entry : Parameter × String} {values : List (Parameter × String)} :
    entry ∈ (bindAll values).entries ↔ entry ∈ values ∧ entry.1.name ≠ "" := by
  rw [entries_bindAll, List.mem_filter, decide_eq_true_iff]

/-! ## One pair -/

theorem takePair_eq_some_iff {p : Parameter} {pairs others : List (String × String)}
    {value : String} : takePair p pairs = some (value, others) ↔ p.Picks pairs value others := by
  induction pairs generalizing others with
  | nil =>
    refine ⟨fun h => ?_, fun ⟨before, after, he, _⟩ => ?_⟩
    · cases h
    · simp at he
  | cons pair pairs ih =>
    rw [takePair]
    by_cases hf : p.fits pair = true
    · rw [if_pos hf]
      constructor
      · intro h
        cases h
        have hfit := hf
        rw [Parameter.fits, Bool.and_eq_true, beq_iff_eq] at hfit
        refine ⟨[], pairs, ?_, rfl, hfit.2, by simp⟩
        rw [← hfit.1]
        rfl
      · rintro ⟨before, after, he, rfl, -, hno⟩
        cases before with
        | nil =>
          obtain ⟨rfl, rfl⟩ := List.cons.inj he
          rfl
        | cons first before =>
          obtain ⟨rfl, -⟩ := List.cons.inj he
          rw [hno pair List.mem_cons_self] at hf
          cases hf
    · rw [if_neg hf, Option.map_eq_some_iff]
      constructor
      · rintro ⟨⟨v, rest⟩, hs, he⟩
        cases he
        obtain ⟨before, after, rfl, rfl, ha, hno⟩ := ih.mp hs
        exact ⟨pair :: before, after, rfl, rfl, ha,
          List.forall_mem_cons.mpr ⟨Bool.eq_false_iff.mpr hf, hno⟩⟩
      · rintro ⟨before, after, he, rfl, ha, hno⟩
        cases before with
        | nil =>
          obtain ⟨rfl, rfl⟩ := List.cons.inj he
          exact absurd (by simp [Parameter.fits, ha]) hf
        | cons first before =>
          obtain ⟨rfl, rfl⟩ := List.cons.inj he
          exact ⟨(value, before ++ after), ih.mpr ⟨before, after, rfl, rfl, ha,
            (List.forall_mem_cons.mp hno).2⟩, rfl⟩

theorem takePair_eq_none_iff {p : Parameter} {pairs : List (String × String)} :
    takePair p pairs = none ↔ p.FindsNone pairs := by
  induction pairs with
  | nil => exact ⟨fun _ _ hm => absurd hm List.not_mem_nil, fun _ => rfl⟩
  | cons pair pairs ih =>
    rw [takePair, Parameter.FindsNone, List.forall_mem_cons]
    by_cases hf : p.fits pair = true
    · rw [if_pos hf]
      refine ⟨fun h => ?_, fun h => ?_⟩
      · cases h
      · rw [h.1] at hf
        cases hf
    · rw [if_neg hf, Option.map_eq_none_iff, ih]
      exact ⟨fun h => ⟨Bool.eq_false_iff.mpr hf, h⟩, fun h => h.2⟩

/-- What a parameter picks and what it leaves are the pairs. -/
theorem Parameter.Picks.perm {p : Parameter} {pairs others : List (String × String)}
    {value : String} (h : p.Picks pairs value others) : pairs.Perm ((p.name, value) :: others) := by
  obtain ⟨before, after, rfl, rfl, -, -⟩ := h
  exact List.perm_middle

theorem Parameter.Picks.accepts {p : Parameter} {pairs others : List (String × String)}
    {value : String} (h : p.Picks pairs value others) : p.accepts value = true := by
  obtain ⟨before, after, -, -, ha, -⟩ := h
  exact ha

/-! ## Items -/

theorem takeItem_eq_some_iff {item : QueryItem} {pairs others : List (String × String)}
    {b : Bindings} : takeItem pairs item = some (b, others) ↔
      ∃ picked, item.Picks pairs picked others ∧ bindAll picked = b := by
  constructor
  · intro h
    cases item with
    | required p =>
      obtain ⟨⟨value, rest⟩, ht, he⟩ := Option.map_eq_some_iff.mp h
      cases he
      exact ⟨[(p, value)], .required (takePair_eq_some_iff.mp ht), bindAll_singleton p value⟩
    | optional p =>
      rw [takeItem] at h
      split at h
      · next value rest ht =>
        cases h
        exact ⟨[(p, value)], .optional (takePair_eq_some_iff.mp ht), bindAll_singleton p value⟩
      · next ht =>
        cases h
        exact ⟨[], .omitted (takePair_eq_none_iff.mp ht), rfl⟩
    | alternation first second =>
      rw [takeItem] at h
      split at h
      · next value rest ht =>
        cases h
        exact ⟨[(first, value)], .first (takePair_eq_some_iff.mp ht), bindAll_singleton _ _⟩
      · next hf =>
        obtain ⟨⟨value, rest⟩, ht, he⟩ := Option.map_eq_some_iff.mp h
        cases he
        exact ⟨[(second, value)], .second (takePair_eq_none_iff.mp hf)
          (takePair_eq_some_iff.mp ht), bindAll_singleton _ _⟩
  · rintro ⟨picked, h, rfl⟩
    cases h with
    | required h =>
      rw [takeItem, takePair_eq_some_iff.mpr h, bindAll_singleton]
      rfl
    | optional h => rw [takeItem, takePair_eq_some_iff.mpr h, bindAll_singleton]
    | omitted h =>
      rw [takeItem, takePair_eq_none_iff.mpr h]
      rfl
    | first h => rw [takeItem, takePair_eq_some_iff.mpr h, bindAll_singleton]
    | second hf h =>
      rw [takeItem, takePair_eq_none_iff.mpr hf, takePair_eq_some_iff.mpr h, bindAll_singleton]
      rfl

/-- A query binds the values that its items pick. -/
theorem bindQuery_eq_some_iff {items : List QueryItem} {pairs : List (String × String)}
    {b : Bindings} : bindQuery items pairs = some b ↔
      ∃ picked, PicksAll items pairs picked ∧ bindAll picked = b := by
  induction items generalizing pairs b with
  | nil =>
    refine ⟨fun h => ⟨[], .nil pairs, Option.some.inj h⟩, fun ⟨picked, h, hb⟩ => ?_⟩
    cases h
    exact congrArg some hb
  | cons item items ih =>
    rw [bindQuery]
    constructor
    · intro h
      split at h
      · next first others ht =>
        obtain ⟨more, hm, rfl⟩ := Option.map_eq_some_iff.mp h
        obtain ⟨picked, hp, rfl⟩ := takeItem_eq_some_iff.mp ht
        obtain ⟨rest, hr, rfl⟩ := ih.mp hm
        exact ⟨picked ++ rest, .cons hp hr, bindAll_append picked rest⟩
      · cases h
    · rintro ⟨_, h, rfl⟩
      cases h with
      | @cons _ _ _ others picked more hp hs =>
        rw [takeItem_eq_some_iff.mpr ⟨picked, hp, rfl⟩, bindAll_append]
        exact Option.map_eq_some_iff.mpr ⟨bindAll more, ih.mpr ⟨more, hs, rfl⟩, rfl⟩

end DeepLink
