import DeepLink.Proofs.Matching.Soundness
import DeepLink.Proofs.Route.NormalForm

/-!
# Optional parts at the end

A path without wildcards of its own, but maybe inside groups, goes on where it ends: the readings of
its nodes are followed by the readings of further nodes (`PrefersPath.append`). At the end of the
texts a group is read as far as there are texts, so not at all, whatever it contains. An optional
item at the end of a query picks one of the pairs that the others leave, or none
(`PicksAll.append_optional`). So what matches still matches if optional parts are added at the end,
and is bound as before.
-/

namespace DeepLink

/-! ## Paths -/

/-- Nodes of which none is a wildcard are read before further nodes as they are read alone. -/
theorem PrefersPath.append {nodes more : List PathNode} {readings others : List Reading}
    {rest : List String} (hw : .wildcard ∉ nodes)
    (h : PrefersPath .all nodes readings (textsOf others ++ rest))
    (hm : PrefersPath .all more others rest) :
    PrefersPath .all (nodes ++ more) (readings ++ others) rest := by
  induction nodes generalizing readings with
  | nil =>
    rw [PrefersPath] at h
    subst h
    exact hm
  | cons node nodes ih =>
    have hnode : node ≠ .wildcard := fun he => hw (he ▸ List.mem_cons_self)
    cases readings with
    | nil =>
      rw [PrefersPath] at h
      cases h.1
    | cons reading readings =>
      obtain ⟨-, hp, hps⟩ := (prefersPath_cons_cons hnode _ _ _).mp h
      rw [List.cons_append, List.cons_append, prefersPath_cons_cons hnode, textsOf_append,
        List.append_assoc]
      exact ⟨nofun, hp, ih (fun hmem => hw (List.mem_cons_of_mem _ hmem)) hps⟩

/-- Where the texts are over, a group is read without any of its nodes. -/
theorem prefersPath_optional_nil (group : List PathNode) :
    PrefersPath .all [.optional group] [.group []] [] := by
  have hgroup : PrefersPath .whileAny group [] [] := by
    cases group with
    | nil => rw [PrefersPath]
    | cons node group =>
      rw [PrefersPath]
      exact ⟨rfl, rfl⟩
  rw [prefersPath_cons_cons (by simp), PathNode.Prefers, PrefersPath]
  exact ⟨nofun, .inl ⟨[], rfl, hgroup⟩, rfl⟩

/-- A group at the end takes nothing and binds nothing. -/
theorem bindPath_append_optional {nodes : List PathNode} (hw : .wildcard ∉ nodes)
    {texts : List String} {b : Bindings} (h : bindPath nodes texts = some b)
    (group : List PathNode) : bindPath (nodes ++ [.optional group]) texts = some b := by
  obtain ⟨readings, hp, rfl, rfl⟩ := bindPath_eq_some_iff.mp h
  rw [bindPath_eq_some_iff]
  refine ⟨readings ++ [.group []], ?_, ?_, ?_⟩
  · exact PrefersPath.append hw hp (prefersPath_optional_nil group)
  · rw [textsOf_append]
    exact List.append_nil _
  · rw [bindingsOf_append]
    exact Bindings.append_empty _

/-! ## Queries -/

theorem PicksAll.append_optional {items : List QueryItem} {pairs : List (String × String)}
    {picked : List (Parameter × String)} (h : PicksAll items pairs picked) (q : Parameter) :
    ∃ last, PicksAll (items ++ [.optional q]) pairs (picked ++ last) ∧
      ∀ entry ∈ last, entry.1 = q := by
  induction h with
  | nil pairs =>
    cases ht : takePair q pairs with
    | none =>
      exact ⟨[], .cons (.omitted (takePair_eq_none_iff.mp ht)) (.nil pairs), by simp⟩
    | some taken =>
      obtain ⟨value, others⟩ := taken
      have hpicks := QueryItem.Picks.optional (takePair_eq_some_iff.mp ht)
      have hlast : PicksAll [.optional q] pairs ([(q, value)] ++ []) := .cons hpicks (.nil others)
      exact ⟨[(q, value)], hlast, by simp⟩
  | cons hi _ ih =>
    obtain ⟨last, hlast, hq⟩ := ih
    rw [List.cons_append]
    refine ⟨last, ?_, hq⟩
    rw [List.append_assoc]
    exact .cons hi hlast

/-- An optional item at the end binds its own parameter, if anything. -/
theorem bindQuery_append_optional {items : List QueryItem} {pairs : List (String × String)}
    {b : Bindings} (h : bindQuery items pairs = some b) (q : Parameter) :
    ∃ last : Bindings, bindQuery (items ++ [.optional q]) pairs = some (b ++ last) ∧
      ∀ entry ∈ last.entries, entry.1 = q := by
  obtain ⟨picked, hp, rfl⟩ := bindQuery_eq_some_iff.mp h
  obtain ⟨last, hlast, hq⟩ := hp.append_optional q
  refine ⟨bindAll last, ?_, fun entry hm => hq entry (mem_entries_bindAll.mp hm).1⟩
  rw [← bindAll_append, bindQuery_eq_some_iff]
  exact ⟨picked ++ last, hlast, rfl⟩

/-! ## Routes -/

/-- A group that is added to the path of a route is in it, in normal form, unless nothing is left of
the group. -/
theorem Route.normalizePath_append_optional (r : Route) (group : List PathNode) :
    normalizePath (r.path ++ [.optional group]) =
      if normalizePath group = [] then r.path
      else r.path ++ [.optional (normalizePath group)] := by
  rw [normalizePath_append, normalizePath_of_normal r.path r.normal, normalizePath,
    PathNode.normalize?]
  by_cases hgroup : normalizePath group = []
  · rw [if_pos hgroup, hgroup]
    exact List.append_nil _
  · rw [if_neg hgroup, PathNode.ofGroup?_eq hgroup]
    rfl

theorem Route.bindPath_of_append_optional {r : Route} (hw : .wildcard ∉ r.path)
    {texts : List String} {b : Bindings} (h : bindPath r.path texts = some b)
    (group : List PathNode) :
    bindPath (normalizePath (r.path ++ [.optional group])) texts = some b := by
  rw [r.normalizePath_append_optional group]
  by_cases hgroup : normalizePath group = []
  · rwa [if_pos hgroup]
  · rw [if_neg hgroup]
    exact bindPath_append_optional hw h (normalizePath group)

/-- **Optional parts are backward compatible.** If a route without wildcards in its path, but maybe
with some in groups, matches components, so does the route with any optional group added at the end
of its path and any optional parameter added at the end of its query. All parameters but this one
have the values that they had. -/
theorem Route.match?_append_optional {r : Route} {c : Components} {b : Bindings}
    (hw : .wildcard ∉ r.path) (h : r.match? c = some b) (group : List PathNode) (q : Parameter) :
    (group ≠ [] → NormalPath group →
      (Route.of (r.path ++ [.optional group]) (r.query ++ [.optional q])).path =
        r.path ++ [.optional group]) ∧
      ∃ extended,
        (Route.of (r.path ++ [.optional group]) (r.query ++ [.optional q])).match? c =
          some extended ∧ ∀ p, p ≠ q → extended.get? p = b.get? p := by
  refine ⟨fun hne hn => ?_, ?_⟩
  · exact normalizePath_of_normal _ (normalPath_append r.normal ⟨⟨hne, hn⟩, trivial⟩)
  · obtain ⟨path, query, hp, hq, rfl⟩ := Route.match?_eq_some_iff_bind.mp h
    obtain ⟨last, hlast, hbound⟩ := bindQuery_append_optional hq q
    refine ⟨path ++ (query ++ last), ?_, fun p hne => ?_⟩
    · have hpath := Route.bindPath_of_append_optional hw hp group
      exact Route.match?_eq_some_iff_bind.mpr ⟨path, query ++ last, hpath, hlast, rfl⟩
    -- Whatever is bound last is bound to `q`, so another parameter is looked up before it.
    · have hnone : last.get? p = none :=
        Bindings.get?_eq_none fun entry hm he => hne (he.symm.trans (hbound entry hm))
      rw [← Bindings.append_assoc, Bindings.get?_append, hnone, Option.none_or]

/-- The route of `recipe/:id/(*/last)?:page`. -/
def recipePage : Route :=
  Route.of [.literal "recipe", .parameter (.untyped "id"), .optional [.wildcard, .literal "last"]]
    [.required (.untyped "page")]

/-- A group that starts with a wildcard is added, and `page` once more: it gets the second value. -/
theorem match?_append_optional_recipePage :
    .wildcard ∉ recipePage.path ∧
      recipePage.match? ⟨["recipe", "7"], [("page", "1"), ("page", "2")]⟩ =
        some ⟨[(.untyped "id", "7"), (.untyped "page", "1")]⟩ ∧
      ∃ extended,
        (Route.of (recipePage.path ++ [.optional [.wildcard, .parameter (.untyped "tab")]])
          (recipePage.query ++ [.optional (.untyped "page")])).match?
            ⟨["recipe", "7"], [("page", "1"), ("page", "2")]⟩ = some extended ∧
        extended.get? (.untyped "id") = some "7" ∧
        extended.get? (.untyped "page") = some "2" := by
  have hw : .wildcard ∉ recipePage.path := by decide
  have h : recipePage.match? ⟨["recipe", "7"], [("page", "1"), ("page", "2")]⟩ =
      some ⟨[(.untyped "id", "7"), (.untyped "page", "1")]⟩ := by decide +kernel
  obtain ⟨-, extended, hextended, hkept⟩ := Route.match?_append_optional hw h
    [.wildcard, .parameter (.untyped "tab")] (.untyped "page")
  refine ⟨hw, h, extended, hextended, ?_, ?_⟩
  · rw [hkept (.untyped "id") (by decide)]
    decide +kernel
  · have hvalue : extended = ⟨[(.untyped "id", "7"), (.untyped "page", "1"),
        (.untyped "page", "2")]⟩ := by
      refine Option.some.inj (hextended.symm.trans ?_)
      decide +kernel
    rw [hvalue]
    decide +kernel

end DeepLink
