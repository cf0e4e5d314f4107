import DeepLink.Proofs.Matching.Soundness

/-!
# What a match guarantees

Whoever uses the bindings of a match looks up the parameters of the route in them. What may be found
there is said of the readings that matching settles on and of the values that the items pick: all
their bindings are `Vouched` for by the nodes and by the items (`ReadsPath.vouched`,
`PicksAll.vouched`). What must be found there are the parameters that stand outside groups
(`ReadsPath.exists_of_mem`, `PicksAll.exists_of_mem`).
-/

namespace DeepLink

/-! ## Bindings that are vouched for -/

/-- Every binding is of a parameter with a name, one of `ps`, to a value that it accepts and that
comes from the source. -/
def Bindings.Vouched (ps : List Parameter) (source : Parameter → String → Prop)
    (b : Bindings) : Prop :=
  ∀ entry ∈ b.entries, entry.1.name ≠ "" ∧ entry.1 ∈ ps ∧ entry.1.accepts entry.2 = true ∧
    source entry.1 entry.2

section Vouched

variable {ps qs : List Parameter} {source source' : Parameter → String → Prop} {a b : Bindings}

theorem vouched_empty : Bindings.empty.Vouched ps source :=
  fun _ hm => absurd hm List.not_mem_nil

theorem Bindings.Vouched.append (ha : a.Vouched ps source) (hb : b.Vouched ps source) :
    (a ++ b).Vouched ps source := by
  intro entry hm
  rcases List.mem_append.mp hm with hm | hm
  · exact ha entry hm
  · exact hb entry hm

theorem Bindings.Vouched.mono (h : b.Vouched ps source) (hp : ∀ p ∈ ps, p ∈ qs)
    (hs : ∀ p value, source p value → source' p value) : b.Vouched qs source' := by
  intro entry hm
  obtain ⟨hname, hmem, haccepts, hsource⟩ := h entry hm
  exact ⟨hname, hp _ hmem, haccepts, hs _ _ hsource⟩

end Vouched

/-! ## Paths -/

theorem pathParameters_append (a b : List PathNode) :
    pathParameters (a ++ b) = pathParameters a ++ pathParameters b := by
  induction a with
  | nil => rfl
  | cons node a ih => rw [List.cons_append, pathParameters, pathParameters, ih, List.append_assoc]

theorem pathParameters_take (k : Nat) (nodes : List PathNode) :
    ∀ p ∈ pathParameters (nodes.take k), p ∈ pathParameters nodes := by
  intro p hm
  rw [← List.take_append_drop k nodes, pathParameters_append]
  exact List.mem_append_left _ hm

theorem vouched_value {p : Parameter} {text : String} (h : p.accepts text = true) :
    (Reading.value p text).bindings.Vouched (PathNode.parameter p).parameters
      (fun _ value => value ∈ [text]) := by
  by_cases hname : p.name = ""
  · intro entry hm
    rw [Reading.bindings, entries_bind_of_nameless hname] at hm
    exact absurd hm List.not_mem_nil
  · have hnamed : ¬ p.isNameless = true := by simpa [Parameter.isNameless] using hname
    intro entry hm
    rw [Reading.bindings, entries_bind_of_name hname, List.mem_singleton] at hm
    subst hm
    rw [PathNode.parameters, if_neg hnamed]
    exact ⟨hname, List.mem_singleton_self p, h, List.mem_singleton_self text⟩

mutual

/-- A reading binds parameters of the node to texts that it takes. -/
theorem PathNode.Reads.vouched : {node : PathNode} → {reading : Reading} →
    {rest : List String} → node.Reads reading rest →
    reading.bindings.Vouched node.parameters (fun _ value => value ∈ reading.texts)
  | _, _, _, .literal _ _ => vouched_empty
  | _, _, _, .parameter ha _ => vouched_value ha
  | _, _, _, .left h => h.vouched.mono (fun _ hp => List.mem_append_left _ hp) fun _ _ hs => hs
  | _, _, _, .right h => h.vouched.mono (fun _ hp => List.mem_append_right _ hp) fun _ _ hs => hs
  | _, _, _, .absent _ _ => vouched_empty
  | _, _, _, .whole h => h.vouched
  | .optional group, _, _, @PathNode.Reads.initial _ k _ _ h =>
    h.vouched.mono (pathParameters_take k group) fun _ _ hs => hs
  | _, _, _, .wildcard _ _ => vouched_empty

theorem ReadsPath.vouched : {nodes : List PathNode} → {readings : List Reading} →
    {rest : List String} → ReadsPath nodes readings rest →
    (bindingsOf readings).Vouched (pathParameters nodes) (fun _ value => value ∈ textsOf readings)
  | _, _, _, .nil _ => vouched_empty
  | _, _, _, .cons hn hr =>
    (hn.vouched.mono (fun _ hp => List.mem_append_left _ hp)
      fun _ _ hs => List.mem_append_left _ hs).append
    (hr.vouched.mono (fun _ hp => List.mem_append_right _ hp)
      fun _ _ hs => List.mem_append_right _ hs)

end

/-- A parameter with a name that stands in a path outside groups takes a text. -/
theorem ReadsPath.exists_of_mem {nodes : List PathNode} {readings : List Reading}
    {rest : List String} (h : ReadsPath nodes readings rest) {p : Parameter}
    (hm : .parameter p ∈ nodes) (hname : p.name ≠ "") :
    ∃ text, (p, text) ∈ (bindingsOf readings).entries := by
  induction nodes generalizing readings with
  | nil => exact absurd hm List.not_mem_nil
  | cons node nodes ih =>
    cases h with
    | @cons _ _ reading readings _ hn hr =>
      rcases List.mem_cons.mp hm with rfl | hm
      · cases hn with
        | @parameter _ text ha =>
          refine ⟨text, List.mem_append_left _ ?_⟩
          rw [Reading.bindings, entries_bind_of_name hname]
          exact List.mem_singleton_self _
      · obtain ⟨text, ht⟩ := ih hr hm
        exact ⟨text, List.mem_append_right _ ht⟩

/-! ## Queries -/

/-- An item picks values of its parameters from the pairs, and leaves nothing but pairs. -/
theorem QueryItem.Picks.mem {item : QueryItem} {pairs others : List (String × String)}
    {picked : List (Parameter × String)} (h : item.Picks pairs picked others) :
    (∀ entry ∈ picked, entry.1 ∈ item.parameters ∧ entry.1.accepts entry.2 = true ∧
      (entry.1.name, entry.2) ∈ pairs) ∧ ∀ pair ∈ others, pair ∈ pairs := by
  have hone : ∀ {p : Parameter} {value : String}, p.Picks pairs value others →
      p ∈ item.parameters →
      (∀ entry ∈ [(p, value)], entry.1 ∈ item.parameters ∧ entry.1.accepts entry.2 = true ∧
        (entry.1.name, entry.2) ∈ pairs) ∧ ∀ pair ∈ others, pair ∈ pairs := by
    intro p value hp hm
    refine ⟨List.forall_mem_singleton.mpr ⟨hm, hp.accepts, ?_⟩, fun pair ho => ?_⟩
    · exact hp.perm.mem_iff.mpr List.mem_cons_self
    · exact hp.perm.mem_iff.mpr (List.mem_cons_of_mem _ ho)
  cases h with
  | required h => exact hone h (List.mem_singleton_self _)
  | optional h => exact hone h (List.mem_singleton_self _)
  | omitted _ => exact ⟨fun _ hm => absurd hm List.not_mem_nil, fun _ hm => hm⟩
  | first h => exact hone h List.mem_cons_self
  | second _ h => exact hone h (List.mem_cons_of_mem _ List.mem_cons_self)

/-- The items pick values of their parameters from the pairs. -/
theorem PicksAll.mem {items : List QueryItem} {pairs : List (String × String)}
    {picked : List (Parameter × String)} (h : PicksAll items pairs picked) :
    ∀ entry ∈ picked, entry.1 ∈ items.flatMap QueryItem.parameters ∧
      entry.1.accepts entry.2 = true ∧ (entry.1.name, entry.2) ∈ pairs := by
  induction h with
  | nil _ => exact fun _ hm => absurd hm List.not_mem_nil
  | cons hi _ ih =>
    obtain ⟨hpicked, hothers⟩ := hi.mem
    intro entry hm
    rw [List.flatMap_cons]
    rcases List.mem_append.mp hm with hm | hm
    · obtain ⟨hp, ha, hpair⟩ := hpicked entry hm
      exact ⟨List.mem_append_left _ hp, ha, hpair⟩
    · obtain ⟨hp, ha, hpair⟩ := ih entry hm
      exact ⟨List.mem_append_right _ hp, ha, hothers _ hpair⟩

theorem PicksAll.vouched {items : List QueryItem} {pairs : List (String × String)}
    {picked : List (Parameter × String)} (h : PicksAll items pairs picked) :
    (bindAll picked).Vouched (items.flatMap QueryItem.parameters)
      (fun p value => (p.name, value) ∈ pairs) := by
  intro entry hm
  obtain ⟨hpicked, hname⟩ := mem_entries_bindAll.mp hm
  exact ⟨hname, h.mem entry hpicked⟩

/-- A required parameter picks a value. -/
theorem PicksAll.exists_of_mem {items : List QueryItem} {pairs : List (String × String)}
    {picked : List (Parameter × String)} (h : PicksAll items pairs picked) {p : Parameter}
    (hm : .required p ∈ items) : ∃ value, (p, value) ∈ picked := by
  induction h with
  | nil _ => exact absurd hm List.not_mem_nil
  | cons hi _ ih =>
    rcases List.mem_cons.mp hm with rfl | hm
    · cases hi with
      | @required _ _ _ value _ => exact ⟨value, List.mem_append_left _ List.mem_cons_self⟩
    · obtain ⟨value, hv⟩ := ih hm
      exact ⟨value, List.mem_append_right _ hv⟩

/-! ## Matches -/

/-- What holds of the bindings of a match. -/
structure Route.Guarantees (r : Route) (c : Components) (b : Bindings) : Prop where
  /-- A binding is of a parameter of the route that has a name, to a value that the parameter
  accepts. The value is a text of the path that counts, or that of a pair with the name as key. -/
  bound : ∀ p value, b.get? p = some value →
    p.name ≠ "" ∧ p ∈ r.parameters ∧ p.accepts value = true ∧
      ((value ∈ c.path ∧ value ≠ "" ∧ value ≠ "/") ∨ (p.name, value) ∈ c.query)
  /-- Parameters that stand in the path outside groups are bound. -/
  path : ∀ p, .parameter p ∈ r.path → p.name ≠ "" → (b.get? p).isSome = true
  /-- Required parameters of the query are bound. -/
  required : ∀ p, .required p ∈ r.query → p.name ≠ "" → (b.get? p).isSome = true
  /-- A parameter has the value that the query binds, and that of the path only if it binds none. -/
  merged : ∃ path query, bindPath r.path c.effectivePath = some path ∧
    bindQuery r.query c.query = some query ∧ ∀ p, b.get? p = (query.get? p).or (path.get? p)

theorem Components.mem_effectivePath {c : Components} {text : String} :
    text ∈ c.effectivePath ↔ text ∈ c.path ∧ text ≠ "" ∧ text ≠ "/" := by
  simp [Components.effectivePath]

/-- **What a match guarantees.** -/
theorem guarantees_of_match? {r : Route} {c : Components} {b : Bindings}
    (h : r.match? c = some b) : r.Guarantees c b := by
  obtain ⟨readings, picked, ⟨hpath, htexts, hquery⟩, rfl⟩ := Route.match?_eq_some_iff.mp h
  have hreads := (readsWithin_of_prefersPath r.path hpath).all
  refine ⟨fun p value hv => ?_, fun p hm hname => ?_, fun p hm hname => ?_, ?_⟩
  · rcases List.mem_append.mp (Bindings.mem_of_get? hv) with hm | hm
    · obtain ⟨hname, hp, ha, hsource⟩ := hreads.vouched _ hm
      rw [htexts, Components.mem_effectivePath] at hsource
      exact ⟨hname, List.mem_append_left _ hp, ha, .inl hsource⟩
    · obtain ⟨hname, hp, ha, hsource⟩ := hquery.vouched _ hm
      exact ⟨hname, List.mem_append_right _ hp, ha, .inr hsource⟩
  · obtain ⟨text, ht⟩ := hreads.exists_of_mem hm hname
    exact Bindings.isSome_get? (List.mem_append_left _ ht)
  · obtain ⟨value, hv⟩ := hquery.exists_of_mem hm
    exact Bindings.isSome_get?
      (List.mem_append_right _ (mem_entries_bindAll.mpr ⟨hv, hname⟩))
  · exact ⟨_, _, bindPath_eq_some_iff.mpr ⟨readings, hpath, htexts, rfl⟩,
      bindQuery_eq_some_iff.mpr ⟨picked, hquery, rfl⟩, Bindings.get?_append _ _⟩

/-- The route of `recipe/*/:int(id)/(tab/:name)?id=:int&(:q|:ref)`. -/
def recipeTab : Route :=
  Route.of
    [.literal "recipe", .wildcard, .parameter (.typed .int "id"),
      .optional [.literal "tab", .parameter (.untyped "name")]]
    [.required (.typed .int "id"), .alternation (.untyped "q") (.untyped "ref")]

/-- The path and the query bind the number, the group is read in part, and the pair that is no
number is passed over. -/
theorem guarantees_of_match?_recipeTab :
    recipeTab.match? ⟨["recipe", "", "a", "b", "/", "7", "tab"],
        [("ref", "r"), ("id", "x"), ("id", "9")]⟩ =
      some ⟨[(.typed .int "id", "7"), (.typed .int "id", "9"), (.untyped "ref", "r")]⟩ ∧
    recipeTab.Guarantees
      ⟨["recipe", "", "a", "b", "/", "7", "tab"], [("ref", "r"), ("id", "x"), ("id", "9")]⟩
      ⟨[(.typed .int "id", "7"), (.typed .int "id", "9"), (.untyped "ref", "r")]⟩ := by
  have h : recipeTab.match? ⟨["recipe", "", "a", "b", "/", "7", "tab"],
        [("ref", "r"), ("id", "x"), ("id", "9")]⟩ =
      some ⟨[(.typed .int "id", "7"), (.typed .int "id", "9"), (.untyped "ref", "r")]⟩ := by
    decide +kernel
  exact ⟨h, guarantees_of_match? h⟩

end DeepLink
