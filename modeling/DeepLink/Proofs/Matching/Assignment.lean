import Mathlib.Data.List.FinRange
import Mathlib.Data.List.Forall2
import Mathlib.Data.List.ReduceOption
import DeepLink.Proofs.Matching.Keys
import DeepLink.Proofs.Matching.Soundness

/-!
# The places of the pairs that a query takes

A pair that an item takes is not offered to the items after it. Followed by their places, the pairs
that the items of a query take are therefore different ones: each step takes its place out of those
that are left (`QueryItem.Picks.exists_takes`), and so a run takes no place twice
(`PicksAll.exists_takes`).

Items compete only for pairs of names that they share. Where no two items share a name, what one
item takes is nothing that another one could take, and a query fails exactly if one of its items
finds nothing among all the pairs (`bindQuery_eq_none_iff`).
-/

namespace DeepLink

/-! ## Taking pairs by their places -/

section Places

variable {α : Type}

/-- What an item may take of the pairs at some places: one of its parameters takes a pair with its
name and a value that it accepts. Only an optional item may take none. -/
inductive QueryItem.Takes (source : α → String × String) :
    QueryItem → Option (Parameter × α) → Prop
  | one {item : QueryItem} {p : Parameter} {place : α} (hp : p ∈ item.parameters)
    (hk : (source place).1 = p.name) (ha : p.accepts (source place).2 = true) :
    QueryItem.Takes source item (some (p, place))
  | omitted (p : Parameter) : QueryItem.Takes source (.optional p) none

/-- The places of the pairs that items take. -/
def takenPlaces (taken : List (Option (Parameter × α))) : List α := taken.reduceOption.map (·.2)

/-- The parameters that take a pair, with the values of their pairs. -/
def takenValues (source : α → String × String) (taken : List (Option (Parameter × α))) :
    List (Parameter × String) :=
  taken.reduceOption.map fun entry => (entry.1, (source entry.2).2)

variable {source : α → String × String} {places : List α}

/-- A parameter takes one of the places, and leaves the others. -/
theorem Parameter.Picks.exists_place {p : Parameter} {value : String}
    {others : List (String × String)} (h : p.Picks (places.map source) value others) :
    ∃ place rest, source place = (p.name, value) ∧ places.Perm (place :: rest) ∧
      others = rest.map source := by
  obtain ⟨before, after, he, rfl, -, -⟩ := h
  obtain ⟨first, second, rfl, rfl, hsecond⟩ := List.map_eq_append_iff.mp he
  obtain ⟨place, last, rfl, hplace, rfl⟩ := List.map_eq_cons_iff.mp hsecond
  exact ⟨place, first ++ last, hplace, List.perm_middle, List.map_append.symm⟩

/-- A step: an item takes at most one of the places, and leaves the others. -/
theorem QueryItem.Picks.exists_takes {item : QueryItem} {picked : List (Parameter × String)}
    {others : List (String × String)} (h : item.Picks (places.map source) picked others) :
    ∃ entry rest, item.Takes source entry ∧ takenValues source [entry] = picked ∧
      places.Perm (takenPlaces [entry] ++ rest) ∧ others = rest.map source := by
  have hone : ∀ {p : Parameter} {value : String}, p.Picks (places.map source) value others →
      p ∈ item.parameters →
      ∃ entry rest, item.Takes source entry ∧ takenValues source [entry] = [(p, value)] ∧
        places.Perm (takenPlaces [entry] ++ rest) ∧ others = rest.map source := by
    intro p value hp hm
    obtain ⟨place, rest, hplace, hperm, ho⟩ := hp.exists_place
    refine ⟨some (p, place), rest, .one hm ?_ ?_, ?_, hperm, ho⟩
    · rw [hplace]
    · rw [hplace]
      exact hp.accepts
    · show [(p, (source place).2)] = _
      rw [hplace]
  cases h with
  | required h => exact hone h (List.mem_singleton_self _)
  | optional h => exact hone h (List.mem_singleton_self _)
  | omitted h => exact ⟨none, places, .omitted _, rfl, .refl _, rfl⟩
  | first h => exact hone h List.mem_cons_self
  | second hf h => exact hone h (List.mem_cons_of_mem _ List.mem_cons_self)

theorem takenPlaces_cons (entry : Option (Parameter × α))
    (taken : List (Option (Parameter × α))) :
    takenPlaces (entry :: taken) = takenPlaces [entry] ++ takenPlaces taken := by
  cases entry <;> rfl

theorem takenValues_cons (entry : Option (Parameter × α))
    (taken : List (Option (Parameter × α))) :
    takenValues source (entry :: taken) =
      takenValues source [entry] ++ takenValues source taken := by
  cases entry <;> rfl

/-- A run: the items take the values that they pick, all of them from places of their own. -/
theorem PicksAll.exists_takes {items : List QueryItem} {picked : List (Parameter × String)}
    (h : PicksAll items (places.map source) picked) :
    ∃ taken rest, List.Forall₂ (QueryItem.Takes source) items taken ∧
      takenValues source taken = picked ∧ places.Perm (takenPlaces taken ++ rest) := by
  generalize hpairs : places.map source = pairs at h
  induction h generalizing places with
  | nil _ => exact ⟨[], places, .nil, rfl, .refl _⟩
  | cons hi _ ih =>
    subst hpairs
    obtain ⟨entry, left, htakes, rfl, hperm, rfl⟩ := hi.exists_takes
    obtain ⟨taken, rest, hall, rfl, hperm'⟩ := ih rfl
    refine ⟨entry :: taken, rest, .cons htakes hall, takenValues_cons entry taken, ?_⟩
    rw [takenPlaces_cons, List.append_assoc]
    exact hperm.trans (hperm'.append_left _)

end Places

/-- Each item is assigned what it may take, and no pair is assigned twice. -/
structure Assigned (items : List QueryItem) (pairs : List (String × String))
    (taken : List (Option (Parameter × Fin pairs.length))) : Prop where
  each : List.Forall₂ (QueryItem.Takes pairs.get) items taken
  once : (takenPlaces taken).Nodup

theorem PicksAll.exists_assigned {items : List QueryItem} {pairs : List (String × String)}
    {picked : List (Parameter × String)} (h : PicksAll items pairs picked) :
    ∃ taken, Assigned items pairs taken ∧ takenValues pairs.get taken = picked := by
  rw [← List.map_get_finRange pairs] at h
  obtain ⟨taken, rest, hall, hvalues, hperm⟩ := h.exists_takes
  have hnodup := hperm.nodup_iff.mp (List.nodup_finRange _)
  exact ⟨taken, ⟨hall, hnodup.of_append_left⟩, hvalues⟩

/-! ## The values that count -/

/-- A parameter with a name has the last of its values. -/
theorem get?_bindAll_eq_some_iff {values : List (Parameter × String)} {p : Parameter}
    {value : String} : (bindAll values).get? p = some value ↔
      p.name ≠ "" ∧ ∃ before after, values = before ++ (p, value) :: after ∧
        ∀ entry ∈ after, entry.1 ≠ p := by
  rw [Bindings.get?_eq_some_iff, entries_bindAll]
  constructor
  · rintro ⟨before, after, he, ha⟩
    obtain ⟨first, second, rfl, rfl, hsecond⟩ := List.filter_eq_append_iff.mp he
    obtain ⟨skipped, last, rfl, -, hname, rfl⟩ := List.filter_eq_cons_iff.mp hsecond
    refine ⟨of_decide_eq_true hname, first ++ skipped, last, by simp, fun entry hm hp => ?_⟩
    exact ha entry (List.mem_filter.mpr ⟨hm, hp ▸ hname⟩) hp
  · rintro ⟨hname, before, after, rfl, ha⟩
    have hkept : (before ++ (p, value) :: after).filter (·.1.name ≠ "") =
        before.filter (·.1.name ≠ "") ++ (p, value) :: after.filter (·.1.name ≠ "") := by
      rw [List.filter_append, List.filter_cons_of_pos (by simpa using hname)]
    exact ⟨_, _, hkept, fun entry hm => ha entry (List.mem_filter.mp hm).1⟩

/-! ## Items without a name in common -/

/-- The item is not optional, and none of its parameters finds a pair. -/
def QueryItem.Lacks (pairs : List (String × String)) : QueryItem → Prop
  | .required p => p.FindsNone pairs
  | .optional _ => False
  | .alternation first second => first.FindsNone pairs ∧ second.FindsNone pairs

/-- No name is looked for by both items. -/
def QueryItem.Apart (a b : QueryItem) : Prop :=
  ∀ p ∈ a.parameters, ∀ q ∈ b.parameters, p.name ≠ q.name

theorem takeItem_eq_none_iff {item : QueryItem} {pairs : List (String × String)} :
    takeItem pairs item = none ↔ item.Lacks pairs := by
  cases item with
  | required p => rw [takeItem, Option.map_eq_none_iff, takePair_eq_none_iff, QueryItem.Lacks]
  | optional p =>
    rw [takeItem]
    split
    · simp [QueryItem.Lacks]
    · simp [QueryItem.Lacks]
  | alternation first second =>
    rw [takeItem, QueryItem.Lacks, ← takePair_eq_none_iff, ← takePair_eq_none_iff]
    split
    · next h => simp [h]
    · next h => simp [h]

/-- Whether a parameter finds a pair is a matter of the values of its name. -/
theorem Parameter.findsNone_iff {p : Parameter} {pairs : List (String × String)} :
    p.FindsNone pairs ↔ ∀ value ∈ valuesOf p.name pairs, p.accepts value = false := by
  refine ⟨fun h => h.not_accepts, fun h pair hm => ?_⟩
  by_cases hk : pair.1 = p.name
  · have hv : pair.2 ∈ valuesOf p.name pairs := mem_valuesOf.mpr (hk ▸ hm)
    rw [Parameter.fits, h pair.2 hv, Bool.and_false]
  · rw [Parameter.fits, beq_eq_false_iff_ne.mpr hk, Bool.false_and]

/-- What an item takes does not count for an item that looks for other names. -/
theorem QueryItem.Picks.lacks_iff {item other : QueryItem} {pairs others : List (String × String)}
    {picked : List (Parameter × String)} (h : item.Picks pairs picked others)
    (ha : item.Apart other) : other.Lacks others ↔ other.Lacks pairs := by
  have hfinds : ∀ q ∈ other.parameters, q.FindsNone others ↔ q.FindsNone pairs := by
    intro q hq
    have hname : q.name ∉ item.parameters.map Parameter.name := by
      intro hm
      obtain ⟨p, hp, he⟩ := List.mem_map.mp hm
      exact ha p hp q hq he
    rw [Parameter.findsNone_iff, Parameter.findsNone_iff, h.valuesOf_of_not_mem hname]
  cases other with
  | required p => exact hfinds p List.mem_cons_self
  | optional p => exact Iff.rfl
  | alternation first second =>
    exact and_congr (hfinds first List.mem_cons_self)
      (hfinds second (List.mem_cons_of_mem _ List.mem_cons_self))

/-- Where no two items look for the same name, a query fails exactly if an item that is not optional
finds nothing among all the pairs. -/
theorem bindQuery_eq_none_iff {items : List QueryItem} {pairs : List (String × String)}
    (ha : items.Pairwise QueryItem.Apart) :
    bindQuery items pairs = none ↔ ∃ item ∈ items, item.Lacks pairs := by
  induction items generalizing pairs with
  | nil => simp [bindQuery]
  | cons item items ih =>
    obtain ⟨hitem, hitems⟩ := List.pairwise_cons.mp ha
    rw [bindQuery, List.exists_mem_cons_iff, ← takeItem_eq_none_iff]
    cases ht : takeItem pairs item with
    | none => simp
    | some made =>
      obtain ⟨b, others⟩ := made
      obtain ⟨picked, hpicks, -⟩ := takeItem_eq_some_iff.mp ht
      show (bindQuery items others).map _ = none ↔ _
      rw [Option.map_eq_none_iff, ih hitems]
      have hleft : (∃ other ∈ items, other.Lacks others) ↔ ∃ other ∈ items, other.Lacks pairs :=
        exists_congr fun other => and_congr_right fun hm => hpicks.lacks_iff (hitem other hm)
      rw [hleft]
      simp

/-- **Pairs of a query.** If a query binds, its items can be assigned pairs that they may take, no
pair twice, where only optional items may go without one. A parameter with a name is then bound to
the value of the last pair assigned to it, and nothing else is bound. Where no two items look for
the same name, a query fails exactly if an item that is not optional finds nothing. -/
theorem assigned_of_bindQuery (items : List QueryItem) (pairs : List (String × String)) :
    (∀ b, bindQuery items pairs = some b → ∃ taken, Assigned items pairs taken ∧
      ∀ p value, b.get? p = some value ↔ p.name ≠ "" ∧ ∃ before after,
        takenValues pairs.get taken = before ++ (p, value) :: after ∧
          ∀ entry ∈ after, entry.1 ≠ p) ∧
    (items.Pairwise QueryItem.Apart →
      (bindQuery items pairs = none ↔ ∃ item ∈ items, item.Lacks pairs)) := by
  refine ⟨fun b h => ?_, bindQuery_eq_none_iff⟩
  obtain ⟨picked, hpicks, rfl⟩ := bindQuery_eq_some_iff.mp h
  obtain ⟨taken, hassigned, rfl⟩ := hpicks.exists_assigned
  exact ⟨taken, hassigned, fun p value => get?_bindAll_eq_some_iff⟩

/-- Two items look for `id`, and take a pair each. An alternation whose parameters have one name
shares it with no other item; it finds nothing, so the query fails. -/
theorem assigned_of_bindQuery_id :
    bindQuery [.required (.untyped "id"), .optional (.untyped "q"), .required (.typed .int "id")]
      [("id", "a"), ("ref", "r"), ("id", "2")] =
        some ⟨[(.untyped "id", "a"), (.typed .int "id", "2")]⟩ ∧
    (∃ taken, Assigned
      [.required (.untyped "id"), .optional (.untyped "q"), .required (.typed .int "id")]
      [("id", "a"), ("ref", "r"), ("id", "2")] taken) ∧
    bindQuery [.optional (.untyped "id"), .alternation (.typed .int "ref") (.typed .bool "ref")]
      [("id", "a"), ("ref", "r"), ("id", "2")] = none := by
  have h : bindQuery
      [.required (.untyped "id"), .optional (.untyped "q"), .required (.typed .int "id")]
      [("id", "a"), ("ref", "r"), ("id", "2")] =
        some ⟨[(.untyped "id", "a"), (.typed .int "id", "2")]⟩ := by decide +kernel
  obtain ⟨taken, hassigned, -⟩ := (assigned_of_bindQuery _ _).1 _ h
  have hapart : [QueryItem.optional (.untyped "id"),
      .alternation (.typed .int "ref") (.typed .bool "ref")].Pairwise QueryItem.Apart := by
    simp [QueryItem.Apart, QueryItem.parameters, Parameter.untyped, Parameter.typed]
  refine ⟨h, ⟨taken, hassigned⟩, ((assigned_of_bindQuery _ _).2 hapart).mpr ?_⟩
  refine ⟨_, List.mem_cons_of_mem _ List.mem_cons_self, ?_⟩
  simp only [QueryItem.Lacks, Parameter.FindsNone]
  decide +kernel

end DeepLink
