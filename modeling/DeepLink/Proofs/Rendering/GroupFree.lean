import Mathlib.Data.List.Forall2
import DeepLink.Proofs.Matching.Branches
import DeepLink.Proofs.Matching.Keys
import DeepLink.Proofs.Rendering.RoundTrip

/-!
# Matching what was rendered without groups

Where no node nests, a payload gives one text to each node, an asterisk to a wildcard. Wildcards
that do not meet then cover no more than this one text, so matching settles on the readings that the
payload chose (`prefersPath_of_takesOne`). Where no two parameters of a query have the same name,
no item can take the pair of another one, and the items pick what the payload gave them
(`picksAll_of_nodup`). The pairs may then stand in any order, among others of other keys.
-/

namespace DeepLink

/-! ## Paths -/

/-- No node nests, and no wildcard follows a wildcard. -/
structure IsFlat (nodes : List PathNode) : Prop where
  groupFree : ∀ node ∈ nodes, ¬ node.IsGroup
  apart : nodes.IsChain fun node next => node = .wildcard → next ≠ .wildcard

/-- The reading takes one text, and binds what the node binds to it. -/
def PathNode.TakesOne (node : PathNode) (reading : Reading) : Prop :=
  ∃ text, reading.texts = [text] ∧ reading.bindings = node.bound text

theorem IsFlat.tail {node : PathNode} {nodes : List PathNode} (h : IsFlat (node :: nodes)) :
    IsFlat nodes :=
  ⟨(List.forall_mem_cons.mp h.groupFree).2, h.apart.of_cons⟩

theorem takesOne_chosen {node : PathNode} (hg : ¬ node.IsGroup) {values : List Value}
    {rest : List String} (h : node.Reads (node.chosen values).1 rest) :
    node.TakesOne (node.chosen values).1 := by
  cases node with
  | literal text => exact ⟨text, rfl, rfl⟩
  | wildcard => exact ⟨"*", rfl, rfl⟩
  | alternation left right => exact absurd trivial hg
  | optional group => exact absurd trivial hg
  | parameter p =>
    generalize ((PathNode.parameter p).chosen values).1 = reading at h
    cases h with
    | parameter ha => exact ⟨_, rfl, rfl⟩

/-- A payload gives one text to each node. -/
theorem takesOne_chosenPath {nodes : List PathNode} (hg : ∀ node ∈ nodes, ¬ node.IsGroup)
    {values : List Value} {rest : List String}
    (h : ReadsPath nodes (chosenPath nodes values).1 rest) :
    List.Forall₂ PathNode.TakesOne nodes (chosenPath nodes values).1 := by
  induction nodes generalizing values with
  | nil => exact .nil
  | cons node nodes ih =>
    obtain ⟨hnode, hnodes⟩ := List.forall_mem_cons.mp hg
    cases h with
    | cons hr hrs => exact .cons (takesOne_chosen hnode hr) (ih hnodes hrs)

section TakesOne

variable {nodes : List PathNode} {readings : List Reading}
  (h : List.Forall₂ PathNode.TakesOne nodes readings)

include h

theorem length_textsOf_of_takesOne : (textsOf readings).length = nodes.length := by
  induction h with
  | nil => rfl
  | cons hone _ ih =>
    obtain ⟨text, ht, -⟩ := hone
    rw [textsOf, ht, List.length_append, ih, List.length_singleton, List.length_cons, Nat.add_comm]

theorem bindingsOf_of_takesOne : bindingsOf readings = boundFront nodes (textsOf readings) := by
  induction h with
  | nil => rfl
  | cons hone _ ih =>
    obtain ⟨text, ht, hb⟩ := hone
    rw [bindingsOf, textsOf, ht, hb, ih]
    rfl

end TakesOne

/-- Readings with one text each are preferred: no wildcard has a text that it could leave to the
node after it. -/
theorem prefersPath_of_takesOne {nodes : List PathNode} {readings : List Reading}
    (hf : IsFlat nodes) (ho : List.Forall₂ PathNode.TakesOne nodes readings)
    (h : ReadsPath nodes readings []) : PrefersPath .all nodes readings [] := by
  induction nodes generalizing readings with
  | nil =>
    cases h
    rw [PrefersPath]
  | cons node nodes ih =>
    cases h with
    | @cons _ _ reading readings _ hr hrs =>
      obtain ⟨hone, hones⟩ := List.forall₂_cons.mp ho
      have hrest := ih hf.tail hones hrs
      by_cases hw : node = .wildcard
      · subst hw
        obtain ⟨text, ht, -⟩ := hone
        cases hr with
        | @wildcard texts hne =>
          obtain rfl : texts = [text] := ht
          cases nodes with
          | nil =>
            cases hrs
            rw [PrefersPath]
            exact ⟨[text], rfl, hne, rfl, rfl⟩
          | cons next more =>
            have hnext : next ≠ .wildcard := (List.isChain_cons_cons.mp hf.apart).1 rfl
            have hlength := length_textsOf_of_takesOne hones
            rw [List.length_cons] at hlength
            have hsome : textsOf readings ++ [] ≠ [] := by
              rw [List.append_nil]
              exact List.ne_nil_of_length_pos (by omega)
            rw [PrefersPath]
            refine ⟨[text], rfl, hne, hnext, hsome, ?_, fun n hpos hlt => ?_, hrest⟩
            · rw [List.append_nil, List.length_append, List.length_singleton]
              omega
            · rw [List.length_singleton] at hlt
              omega
      · have hplain := PathNode.isPlain_of_not_isGroup (hf.groupFree node List.mem_cons_self) hw
        refine (prefersPath_cons_cons hw _ _ _).mpr ⟨fun he => ?_, ?_, hrest⟩
        · cases he
        · exact PathNode.prefers_of_isPlain hplain hr

/-! ## Queries -/

/-- An item picks what a payload gave it if its names differ, and if the pairs have just the value
that was written for each of them. -/
theorem QueryItem.Fits.exists_picks {item : QueryItem} {value : Value}
    {pairs written : List (String × String)} (h : item.Fits value written)
    (hd : (item.parameters.map Parameter.name).Nodup)
    (ha : Alike (item.parameters.map Parameter.name) pairs written) :
    ∃ others, item.Picks pairs (item.chosen value) others := by
  cases h with
  | required hs =>
    obtain ⟨others, hp⟩ := Parameter.exists_picks_of_alike hs (ha _ List.mem_cons_self)
    exact ⟨others, .required hp⟩
  | absent p =>
    exact ⟨pairs, .omitted (Parameter.findsNone_of_valuesOf (ha _ List.mem_cons_self))⟩
  | present hs =>
    obtain ⟨others, hp⟩ := Parameter.exists_picks_of_alike hs (ha _ List.mem_cons_self)
    exact ⟨others, .optional hp⟩
  | first hs =>
    obtain ⟨others, hp⟩ := Parameter.exists_picks_of_alike hs (ha _ List.mem_cons_self)
    exact ⟨others, .first hp⟩
  | @second first second s hs =>
    -- The pair has the name of the second parameter, and the first one has another name.
    have hne : second.name ≠ first.name := fun he =>
      (List.nodup_cons.mp hd).1 (he ▸ List.mem_cons_self)
    have hnone : valuesOf first.name pairs = [] :=
      (ha _ List.mem_cons_self).trans (valuesOf_cons_of_ne hne _ [])
    obtain ⟨others, hp⟩ := Parameter.exists_picks_of_alike hs
      (ha _ (List.mem_cons_of_mem _ List.mem_cons_self))
    exact ⟨others, .second (Parameter.findsNone_of_valuesOf hnone) hp⟩

theorem keysOf_eq_map (items : List QueryItem) :
    keysOf items = (items.flatMap QueryItem.parameters).map Parameter.name :=
  List.map_flatMap.symm

/-- A payload gives texts to parameters of an item, at most one to each. -/
theorem QueryItem.chosen_sublist (item : QueryItem) (value : Value) :
    ((item.chosen value).map (·.1)).Sublist item.parameters := by
  unfold QueryItem.chosen
  split
  · exact .refl _
  · exact .refl _
  · exact List.sublist_append_left [_] [_]
  · exact List.sublist_append_right [_] [_]
  · exact List.nil_sublist _

theorem chosenQuery_sublist (items : List QueryItem) (values : List Value) :
    ((chosenQuery items values).map (·.1)).Sublist (items.flatMap QueryItem.parameters) := by
  induction items generalizing values with
  | nil => exact .refl _
  | cons item items ih =>
    cases values with
    | nil => exact List.nil_sublist _
    | cons value values =>
      show (((item.chosen value) ++ chosenQuery items values).map _).Sublist _
      rw [List.map_append, List.flatMap_cons]
      exact (item.chosen_sublist value).append (ih values)

/-- The keys that a payload writes are keys of the items, in their order. -/
theorem map_pairOf_sublist (items : List QueryItem) (values : List Value) :
    (((chosenQuery items values).map pairOf).map (·.1)).Sublist (keysOf items) := by
  have hnames := (chosenQuery_sublist items values).map Parameter.name
  rw [List.map_map] at hnames ⊢
  rw [keysOf_eq_map]
  exact hnames

theorem QueryItem.Fits.mem_names {item : QueryItem} {value : Value}
    {written : List (String × String)} (h : item.Fits value written) :
    ∀ pair ∈ written, pair.1 ∈ item.parameters.map Parameter.name := by
  rw [h.pairs_eq]
  intro pair hm
  obtain ⟨entry, he, rfl⟩ := List.mem_map.mp hm
  exact List.mem_map_of_mem ((item.chosen_sublist value).mem (List.mem_map_of_mem he))

theorem FitsQuery.mem_keysOf {items : List QueryItem} {values : List Value}
    {written : List (String × String)} (h : FitsQuery items values written) :
    ∀ pair ∈ written, pair.1 ∈ keysOf items := by
  rw [h.pairs_eq]
  exact fun pair hm => (map_pairOf_sublist items values).mem (List.mem_map_of_mem hm)

/-- Where names differ, no item takes the pair of another one: from pairs with the values that were
written the items pick what the payload gave them. -/
theorem picksAll_of_nodup {items : List QueryItem} {values : List Value}
    {pairs written : List (String × String)} (hk : (keysOf items).Nodup)
    (h : FitsQuery items values written) (ha : Alike (keysOf items) pairs written) :
    PicksAll items pairs (chosenQuery items values) := by
  induction h generalizing pairs with
  | nil => exact .nil pairs
  | @cons item items value values first more hi hs ih =>
    rw [keysOf_cons] at hk ha
    obtain ⟨hown, hlater, hapart⟩ := List.nodup_append.mp hk
    have hfirst : Alike (item.parameters.map Parameter.name) pairs first :=
      (ha.mono fun key => List.mem_append_left _).of_append_left fun pair hm hkey =>
        hapart _ hkey _ (hs.mem_keysOf pair hm) rfl
    have hmore : Alike (keysOf items) pairs more :=
      (ha.mono fun key => List.mem_append_right _).of_append_right fun pair hm hkey =>
        hapart _ (hi.mem_names pair hm) _ hkey rfl
    obtain ⟨others, hp⟩ := hi.exists_picks hown hfirst
    -- The item leaves the values of all keys but its own.
    refine .cons hp (ih hlater fun key hkey => ?_)
    have hother : key ∉ item.parameters.map Parameter.name := fun hname =>
      hapart key hname key hkey rfl
    rw [hp.valuesOf_of_not_mem hother, hmore key hkey]

/-- What the parameters of items bind to the pairs of their names. -/
def boundPairs (items : List QueryItem) (pairs : List (String × String)) : Bindings :=
  bindAll (pairs.filterMap fun pair =>
    ((items.flatMap QueryItem.parameters).find? (·.name = pair.1)).map (·, pair.2))

theorem find?_name_of_nodup {parameters : List Parameter}
    (h : (parameters.map Parameter.name).Nodup) {p : Parameter} (hp : p ∈ parameters) :
    parameters.find? (·.name = p.name) = some p := by
  induction parameters with
  | nil => cases hp
  | cons first parameters ih =>
    obtain ⟨hfirst, hrest⟩ := List.nodup_cons.mp h
    rcases List.mem_cons.mp hp with rfl | hp
    · exact List.find?_cons_of_pos (by simp)
    · have hne : first.name ≠ p.name := fun he => hfirst (he ▸ List.mem_map_of_mem hp)
      rw [List.find?_cons_of_neg (by simpa using hne), ih hrest hp]

theorem boundPairs_chosenQuery {items : List QueryItem} (hk : (keysOf items).Nodup)
    (values : List Value) :
    boundPairs items ((chosenQuery items values).map pairOf) =
      bindAll (chosenQuery items values) := by
  rw [keysOf_eq_map] at hk
  have hfound : ∀ entry ∈ chosenQuery items values,
      ((items.flatMap QueryItem.parameters).find? (·.name = entry.1.name)).map (·, entry.2) =
        some entry := by
    intro entry hm
    have hp : entry.1 ∈ items.flatMap QueryItem.parameters :=
      (chosenQuery_sublist items values).mem (List.mem_map_of_mem hm)
    rw [find?_name_of_nodup hk hp]
    rfl
  rw [boundPairs, List.filterMap_map]
  exact congrArg bindAll ((List.filterMap_congr hfound).trans (List.filterMap_some))

/-! ## Routes -/

section Rendered

variable {r : Route} {values : List Value} {c : Components} (h : r.render values = .ok c)

include h

/-- On the path and on pairs with the values that were written, matching settles on the choices of
the payload. -/
theorem Route.settles_of_isFlat (hf : IsFlat r.path) (hk : (keysOf r.query).Nodup)
    (hs : "/" ∉ c.path) {pairs : List (String × String)}
    (ha : Alike (keysOf r.query) pairs c.query) :
    r.Settles (Components.mk c.path pairs).effectivePath pairs (r.chosenReadings values)
      (r.chosenValues values) := by
  have hread := Route.readsPath_chosen h []
  refine ⟨?_, ?_, picksAll_of_nodup hk (Route.fitsQuery_of_render h) ha⟩
  · exact prefersPath_of_takesOne hf (takesOne_chosenPath hf.groupFree hread) hread
  · show _ = c.effectivePath
    rw [effectivePath_of_render h, filter_textsOf_chosenReadings h hs]

/-- Each node without nodes of its own binds its text, and each parameter of an item its pair. -/
theorem Route.rendered_eq (hg : ∀ node ∈ r.path, ¬ node.IsGroup) (hk : (keysOf r.query).Nodup) :
    r.rendered values = boundFront r.path c.path ++ boundPairs r.query c.query := by
  have hones : List.Forall₂ PathNode.TakesOne r.path (r.chosenReadings values) :=
    takesOne_chosenPath hg (Route.readsPath_chosen h [])
  obtain ⟨hpath, -, hquery⟩ := Route.render_eq h
  rw [hpath, hquery, ← bindingsOf_of_takesOne hones]
  exact congrArg _ (boundPairs_chosenQuery hk _).symm

theorem nodup_keys_of_render (hk : (keysOf r.query).Nodup) : (c.query.map (·.1)).Nodup := by
  rw [(Route.render_eq h).2.2]
  exact hk.sublist (map_pairOf_sublist r.query _)

/-- **Rendering and matching without groups.** Let no node of a route nest, no two wildcards meet,
and no two parameters of its query have the same name. If a payload renders it without a lone slash
in the path, then the path matches again, and so do the pairs, in any order and among others whose
keys the query does not name. The match binds the named parameters to the rendered texts in their
places, and nothing else; a later one of the path counts before an earlier one, and the query before
the path. -/
theorem match?_of_render_flat (hf : IsFlat r.path) (hk : (keysOf r.query).Nodup)
    (hs : "/" ∉ c.path) {pairs extra : List (String × String)}
    (hp : pairs.Perm (c.query ++ extra)) (he : ∀ pair ∈ extra, pair.1 ∉ keysOf r.query) :
    r.match? ⟨c.path, pairs⟩ = some (boundFront r.path c.path ++ boundPairs r.query c.query) ∧
      boundFront r.path c.path ++ boundPairs r.query c.query = r.rendered values ∧
      ∀ p, (r.rendered values).get? p =
        ((boundPairs r.query c.query).get? p).or ((boundFront r.path c.path).get? p) := by
  have hrendered := Route.rendered_eq h hf.groupFree hk
  have halike : Alike (keysOf r.query) pairs c.query := fun key hkey =>
    valuesOf_eq_of_perm (nodup_keys_of_render h hk) hp fun pair hm heq => he pair hm (heq ▸ hkey)
  refine ⟨?_, hrendered.symm, fun p => ?_⟩
  · rw [← hrendered]
    exact Route.match?_eq_some_iff.mpr ⟨_, _, Route.settles_of_isFlat h hf hk hs halike, rfl⟩
  · rw [hrendered, Bindings.get?_append]

end Rendered

/-- The route of `*/users/:int(id)/*/:int(id)?q=:string&(:utm)&(:a|id=:int)`. -/
def usersBetween : Route :=
  Route.of
    [.wildcard, .literal "users", .parameter (.typed .int "id"), .wildcard,
      .parameter (.typed .int "id")]
    [.required (.typed .string "q"), .optional (.untyped "utm"),
      .alternation (.untyped "a") (.typed .int "id")]

theorem usersBetween_path : usersBetween.path =
    [.wildcard, .literal "users", .parameter (.typed .int "id"), .wildcard,
      .parameter (.typed .int "id")] := by
  simp [usersBetween, Route.of, normalizePath, PathNode.normalize?]

/-- Three texts are bound to `id`, of which that of the query counts. -/
theorem match?_of_render_flat_usersBetween :
    usersBetween.render [.scalar (.int 7), .scalar (.int 8), .scalar (.text ""), .absent,
        .branch .right [.scalar (.int 9)]] =
      .ok ⟨["*", "users", "7", "*", "8"], [("q", ""), ("id", "9")]⟩ ∧
    usersBetween.match? ⟨["*", "users", "7", "*", "8"], [("id", "9"), ("ref", "x"), ("q", "")]⟩ =
      some ⟨[(.typed .int "id", "7"), (.typed .int "id", "8"), (.typed .string "q", ""),
        (.typed .int "id", "9")]⟩ := by
  have hrender : usersBetween.render [.scalar (.int 7), .scalar (.int 8), .scalar (.text ""),
      .absent, .branch .right [.scalar (.int 9)]] =
        .ok ⟨["*", "users", "7", "*", "8"], [("q", ""), ("id", "9")]⟩ := rfl
  have hf : IsFlat usersBetween.path := by
    rw [usersBetween_path]
    exact ⟨by simp [PathNode.IsGroup], by simp⟩
  have hp : [("id", "9"), ("ref", "x"), ("q", "")].Perm
      ([("q", ""), ("id", "9")] ++ [("ref", "x")]) := by decide
  refine ⟨hrender, ?_⟩
  rw [(match?_of_render_flat hrender hf (by decide) (by decide) hp (by decide)).1]
  decide +kernel

end DeepLink
