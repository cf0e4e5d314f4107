import DeepLink.Proofs.Matching.Preference
import DeepLink.Proofs.Matching.Query

/-!
# Matching is sound

What a path binds comes from a reading of all the components: preferred readings are readings that
the nodes allow (`readsWithin_of_prefersPath`), and matching takes what a preferred reading takes.

Of a route, the path settles on readings and the items pick values, each for itself
(`Route.Settles`). A match binds what these bind (`Route.match?_eq_some_iff`).
-/

namespace DeepLink

/-! ## The binding that counts -/

/-- The value of a parameter is that of its last binding. -/
theorem Bindings.get?_eq_some_iff {b : Bindings} {p : Parameter} {text : String} :
    b.get? p = some text ↔
      ∃ before after, b.entries = before ++ (p, text) :: after ∧ ∀ entry ∈ after, entry.1 ≠ p := by
  rw [get?, Option.map_eq_some_iff]
  constructor
  · rintro ⟨⟨q, value⟩, hf, rfl⟩
    obtain ⟨hq, later, earlier, he, hl⟩ := List.find?_eq_some_iff_append.mp hf
    obtain rfl : q = p := by simpa using hq
    refine ⟨earlier.reverse, later.reverse, ?_, fun entry hm => ?_⟩
    · rw [← List.reverse_reverse b.entries, he, List.reverse_append, List.reverse_cons,
        List.append_assoc]
      rfl
    · simpa using hl entry (List.mem_reverse.mp hm)
  · rintro ⟨before, after, he, ha⟩
    refine ⟨(p, text), List.find?_eq_some_iff_append.mpr ⟨by simp, after.reverse, before.reverse,
      ?_, fun entry hm => ?_⟩, rfl⟩
    · rw [he, List.reverse_append, List.reverse_cons, List.append_assoc]
      rfl
    · simpa using ha entry (List.mem_reverse.mp hm)

theorem Bindings.mem_of_get? {b : Bindings} {p : Parameter} {text : String}
    (h : b.get? p = some text) : (p, text) ∈ b.entries := by
  obtain ⟨before, after, he, -⟩ := get?_eq_some_iff.mp h
  rw [he]
  exact List.mem_append_right _ List.mem_cons_self

theorem Bindings.isSome_get? {b : Bindings} {p : Parameter} {text : String}
    (h : (p, text) ∈ b.entries) : (b.get? p).isSome = true := by
  rw [get?, Option.isSome_map, List.find?_isSome]
  exact ⟨(p, text), List.mem_reverse.mpr h, decide_eq_true rfl⟩

theorem Bindings.get?_eq_none {b : Bindings} {p : Parameter}
    (h : ∀ entry ∈ b.entries, entry.1 ≠ p) : b.get? p = none := by
  rw [Option.eq_none_iff_forall_ne_some]
  intro text hget
  exact h _ (Bindings.mem_of_get? hget) rfl

/-- Where both bind a parameter, the later bindings count. -/
theorem Bindings.get?_append (a b : Bindings) (p : Parameter) :
    (a ++ b).get? p = (b.get? p).or (a.get? p) := by
  show ((a.entries ++ b.entries).reverse.find? _).map _ = _
  rw [List.reverse_append, List.find?_append, Option.map_or]
  rfl

/-! ## Preferred readings are readings -/

/-- The nodes allow the readings, or the first of them do where the texts are over. -/
def ReadsWithin (extent : Extent) (nodes : List PathNode) (readings : List Reading)
    (rest : List String) : Prop :=
  ∃ k, ReadsPath (nodes.take k) readings rest ∧
    (k < nodes.length → extent = .whileAny ∧ rest = [])

section Within

variable {extent : Extent} {node : PathNode} {nodes : List PathNode} {reading : Reading}
  {readings : List Reading} {rest : List String}

theorem ReadsWithin.nil (nodes : List PathNode) (h : nodes ≠ [] → extent = .whileAny ∧ rest = []) :
    ReadsWithin extent nodes [] rest :=
  ⟨0, .nil rest, fun hk => h (List.length_pos_iff.mp hk)⟩

theorem ReadsWithin.cons (hn : node.Reads reading (textsOf readings ++ rest))
    (h : ReadsWithin extent nodes readings rest) :
    ReadsWithin extent (node :: nodes) (reading :: readings) rest := by
  obtain ⟨k, hr, hk⟩ := h
  exact ⟨k + 1, .cons hn hr, fun hlt => hk (Nat.lt_of_succ_lt_succ hlt)⟩

theorem ReadsWithin.all (h : ReadsWithin .all nodes readings rest) :
    ReadsPath nodes readings rest := by
  obtain ⟨k, hr, hk⟩ := h
  by_cases hlt : k < nodes.length
  · cases (hk hlt).1
  · rwa [List.take_of_length_le (Nat.not_lt.mp hlt)] at hr

/-- A group may be read as far as there are texts. -/
theorem ReadsWithin.group (h : ReadsWithin .whileAny nodes readings rest) :
    (PathNode.optional nodes).Reads (.group readings) rest := by
  obtain ⟨k, hr, hk⟩ := h
  by_cases hlt : k < nodes.length
  · obtain ⟨-, rfl⟩ := hk hlt
    exact .initial hlt hr
  · rw [List.take_of_length_le (Nat.not_lt.mp hlt)] at hr
    exact .whole hr

end Within

mutual

theorem PathNode.reads_of_prefers : (node : PathNode) → {reading : Reading} →
    {rest : List String} → node.Prefers reading rest → node.Reads reading rest
  | .literal text, reading, rest, h => by
    rw [PathNode.Prefers] at h
    subst h
    exact .literal text rest
  | .parameter p, reading, rest, h => by
    rw [PathNode.Prefers] at h
    obtain ⟨text, rfl, ha⟩ := h
    exact .parameter ha rest
  | .alternation left right, reading, rest, h => by
    rw [PathNode.Prefers] at h
    rcases h with ⟨inner, rfl, hp, -⟩ | ⟨inner, rfl, hp, -⟩
    · exact .left (readsWithin_of_prefersPath left hp).all
    · exact .right (readsWithin_of_prefersPath right hp).all
  | .optional group, reading, rest, h => by
    rw [PathNode.Prefers] at h
    rcases h with ⟨inner, rfl, hp⟩ | ⟨rfl, -⟩
    · exact (readsWithin_of_prefersPath group hp).group
    · exact .absent group rest
  | .wildcard, reading, rest, h => by
    rw [PathNode.Prefers] at h
    exact h.elim

theorem readsWithin_of_prefersPath {extent : Extent} : (nodes : List PathNode) →
    {readings : List Reading} → {rest : List String} → PrefersPath extent nodes readings rest →
    ReadsWithin extent nodes readings rest
  | [], readings, rest, h => by
    rw [PrefersPath] at h
    subst h
    exact .nil [] fun hne => absurd rfl hne
  | node :: nodes, [], rest, h => by
    rw [PrefersPath] at h
    exact .nil _ fun _ => h
  | node :: nodes, reading :: readings, rest, h => by
    by_cases hw : node = .wildcard
    · subst hw
      cases nodes with
      | nil =>
        rw [PrefersPath] at h
        obtain ⟨texts, rfl, hne, rfl, rfl⟩ := h
        exact .cons (.wildcard hne _) (.nil [] fun hnil => absurd rfl hnil)
      | cons next more =>
        rw [PrefersPath] at h
        obtain ⟨texts, rfl, hne, -, -, -, -, hps⟩ := h
        exact .cons (.wildcard hne _) (readsWithin_of_prefersPath (next :: more) hps)
    · obtain ⟨-, hp, hps⟩ := (prefersPath_cons_cons hw _ _ _).mp h
      exact .cons (node.reads_of_prefers hp) (readsWithin_of_prefersPath nodes hps)

end

/-! ## Matching a path -/

/-- Nodes bind what their preferred reading of all the texts binds. -/
theorem bindPath_eq_some_iff {nodes : List PathNode} {texts : List String} {b : Bindings} :
    bindPath nodes texts = some b ↔
      ∃ readings, PrefersPath .all nodes readings [] ∧ textsOf readings = texts ∧
        bindingsOf readings = b := by
  unfold bindPath
  constructor
  · intro h
    split at h
    · next taken ht =>
      split at h
      · next hc =>
        obtain ⟨readings, rest, hp, rfl, rfl⟩ := (settlesPath nodes _ _ _).mp ht
        rw [List.length_append] at hc
        have hnil : rest = [] := by
          rw [← List.length_eq_zero_iff]
          have hcount : (takenOf readings).count = (textsOf readings).length := rfl
          omega
        subst hnil
        exact ⟨readings, hp, (List.append_nil _).symm, Option.some.inj h⟩
      · cases h
    · cases h
  · rintro ⟨readings, hp, rfl, rfl⟩
    have ht := (settlesPath nodes .all (textsOf readings) (takenOf readings)).mpr
      ⟨readings, [], hp, List.append_nil _, rfl⟩
    rw [ht]
    exact if_pos rfl

/-- **Matching a path is sound.** A match reads all the components, each node taking its piece as
the nodes allow it. It binds the named parameters of that reading and no others, and of several
bindings of a parameter the last one counts. -/
theorem exists_readings_of_bindPath {nodes : List PathNode} {components : List String}
    {b : Bindings} (h : bindPath nodes components = some b) :
    ∃ readings, ReadsPath nodes readings [] ∧ textsOf readings = components ∧
      bindingsOf readings = b ∧
      ∀ p text, b.get? p = some text ↔
        ∃ before after, (bindingsOf readings).entries = before ++ (p, text) :: after ∧
          ∀ entry ∈ after, entry.1 ≠ p := by
  obtain ⟨readings, hp, ht, rfl⟩ := bindPath_eq_some_iff.mp h
  exact ⟨readings, (readsWithin_of_prefersPath nodes hp).all, ht, rfl, fun p text =>
    Bindings.get?_eq_some_iff⟩

/-- A wildcard covers two components, and the group is read as far as there are components. -/
theorem exists_readings_of_partial_group :
    ∃ readings,
      ReadsPath [.wildcard, .parameter (.typed .int "id"),
        .optional [.literal "tab", .parameter (.untyped "name")]] readings [] ∧
      textsOf readings = ["a", "b", "7", "tab"] ∧
      bindingsOf readings = ⟨[(.typed .int "id", "7")]⟩ ∧
      ∀ p text, Bindings.get? ⟨[(.typed .int "id", "7")]⟩ p = some text ↔
        ∃ before after, (bindingsOf readings).entries = before ++ (p, text) :: after ∧
          ∀ entry ∈ after, entry.1 ≠ p :=
  exists_readings_of_bindPath (by decide +kernel)

/-! ## Routes -/

/-- On texts and pairs, matching settles on the readings and on the values. -/
structure Route.Settles (r : Route) (texts : List String) (pairs : List (String × String))
    (readings : List Reading) (picked : List (Parameter × String)) : Prop where
  path : PrefersPath .all r.path readings []
  texts : textsOf readings = texts
  query : PicksAll r.query pairs picked

/-- A route binds what its path binds, and then what its query binds. -/
theorem Route.match?_eq_some_iff_bind {r : Route} {c : Components} {b : Bindings} :
    r.match? c = some b ↔
      ∃ path query, bindPath r.path c.effectivePath = some path ∧
        bindQuery r.query c.query = some query ∧ path ++ query = b := by
  unfold Route.match?
  constructor
  · intro h
    split at h
    · next path query hp hq => exact ⟨path, query, hp, hq, Option.some.inj h⟩
    · cases h
  · rintro ⟨path, query, hp, hq, rfl⟩
    rw [hp, hq]

/-- A route binds what the choices bind that matching settles on. -/
theorem Route.match?_eq_some_iff {r : Route} {c : Components} {b : Bindings} :
    r.match? c = some b ↔
      ∃ readings picked, r.Settles c.effectivePath c.query readings picked ∧
        bindingsOf readings ++ bindAll picked = b := by
  rw [Route.match?_eq_some_iff_bind]
  constructor
  · rintro ⟨path, query, hp, hq, rfl⟩
    obtain ⟨readings, hr, ht, rfl⟩ := bindPath_eq_some_iff.mp hp
    obtain ⟨picked, hk, rfl⟩ := bindQuery_eq_some_iff.mp hq
    exact ⟨readings, picked, ⟨hr, ht, hk⟩, rfl⟩
  · rintro ⟨readings, picked, ⟨hr, ht, hk⟩, rfl⟩
    exact ⟨_, _, bindPath_eq_some_iff.mpr ⟨readings, hr, ht, rfl⟩,
      bindQuery_eq_some_iff.mpr ⟨picked, hk, rfl⟩, rfl⟩

end DeepLink
