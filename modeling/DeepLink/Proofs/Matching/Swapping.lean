import Mathlib.Data.List.Forall2
import DeepLink.Matching
import DeepLink.Proofs.Matching.Preference
import DeepLink.Proofs.Route.NormalForm

/-!
# Swapped branches

Of a node, matching knows what it takes and whether it is a wildcard. So a node may stand for
another one that is alike in this, in any sequence of nodes (`takeNodes_congr`), and hence in any
branch or group (`interchangeable_alternation`, `interchangeable_optional`). An alternation with
branches of different lengths takes the same if they are swapped (`interchangeable_swapped`), so it
may be swapped wherever it stands (`SwapsPath.forall₂`).
-/

namespace DeepLink

/-! ## Nodes that take the same -/

/-- The nodes take the same, and both of them are wildcards or neither is. -/
structure PathNode.Interchangeable (a b : PathNode) : Prop where
  take : takeNode a = takeNode b
  wildcard : a = .wildcard ↔ b = .wildcard

theorem PathNode.Interchangeable.refl (node : PathNode) : node.Interchangeable node :=
  ⟨rfl, Iff.rfl⟩

theorem forall₂_interchangeable_refl (nodes : List PathNode) :
    List.Forall₂ PathNode.Interchangeable nodes nodes :=
  List.forall₂_same.mpr fun node _ => .refl node

/-- Matching a sequence goes by what its nodes take. -/
theorem takeNodes_congr {extent : Extent} : {nodes others : List PathNode} →
    List.Forall₂ PathNode.Interchangeable nodes others →
    takeNodes extent nodes = takeNodes extent others
  | _, _, .nil => rfl
  | node :: _, other :: _, .cons hnode hrest => by
    funext texts
    by_cases hw : node = .wildcard
    · have hw' : other = .wildcard := hnode.wildcard.mp hw
      subst hw hw'
      -- A wildcard is matched together with the node after it.
      cases hrest with
      | nil => rfl
      | cons hnext hmore =>
        rw [takeNodes_wildcard, takeNodes_wildcard, firstMatch, firstMatch, hnext.take,
          hmore.length_eq, takeNodes_congr hmore]
    · have hw' : other ≠ .wildcard := fun h => hw (hnode.wildcard.mpr h)
      rw [takeNodes_cons hw, takeNodes_cons hw', hnode.take, takeNodes_congr hrest]

theorem interchangeable_alternation {left right left' right' : List PathNode}
    (hl : List.Forall₂ PathNode.Interchangeable left left')
    (hr : List.Forall₂ PathNode.Interchangeable right right') :
    (PathNode.alternation left right).Interchangeable (.alternation left' right') := by
  refine ⟨funext fun texts => ?_, by simp⟩
  rw [takeNode, takeNode, hl.length_eq, hr.length_eq, takeNodes_congr hl, takeNodes_congr hr]

theorem interchangeable_optional {group group' : List PathNode}
    (hg : List.Forall₂ PathNode.Interchangeable group group') :
    (PathNode.optional group).Interchangeable (.optional group') := by
  refine ⟨funext fun texts => ?_, by simp⟩
  rw [takeNode, takeNode, takeNodes_congr hg]

/-- The branch with more nodes is tried first, wherever it is written. -/
theorem interchangeable_swapped {left right : List PathNode} (h : left.length ≠ right.length) :
    (PathNode.alternation left right).Interchangeable (.alternation right left) := by
  refine ⟨funext fun texts => ?_, by simp⟩
  rw [takeNode, takeNode]
  by_cases hlt : left.length < right.length
  · rw [if_pos hlt, if_neg (Nat.lt_asymm hlt)]
  · have hgt : right.length < left.length := by omega
    rw [if_neg hlt, if_pos hgt]

/-! ## One alternation at any depth -/

mutual

/-- The nodes are the same but for one alternation, the node itself or one inside it: its branches
have different numbers of nodes, and the other node has them swapped. -/
inductive PathNode.Swaps : PathNode → PathNode → Prop
  | here {left right : List PathNode} (h : left.length ≠ right.length) :
    PathNode.Swaps (.alternation left right) (.alternation right left)
  | left {left left' : List PathNode} (right : List PathNode) (h : SwapsPath left left') :
    PathNode.Swaps (.alternation left right) (.alternation left' right)
  | right {right right' : List PathNode} (left : List PathNode) (h : SwapsPath right right') :
    PathNode.Swaps (.alternation left right) (.alternation left right')
  | group {group group' : List PathNode} (h : SwapsPath group group') :
    PathNode.Swaps (.optional group) (.optional group')

/-- The nodes are the same but for one that swaps an alternation. -/
inductive SwapsPath : List PathNode → List PathNode → Prop
  | head {node node' : PathNode} (h : node.Swaps node') (rest : List PathNode) :
    SwapsPath (node :: rest) (node' :: rest)
  | tail {rest rest' : List PathNode} (node : PathNode) (h : SwapsPath rest rest') :
    SwapsPath (node :: rest) (node :: rest')

end

mutual

theorem PathNode.Swaps.interchangeable : {node node' : PathNode} → node.Swaps node' →
    node.Interchangeable node'
  | _, _, .here h => interchangeable_swapped h
  | _, _, .left right h =>
    interchangeable_alternation h.forall₂ (forall₂_interchangeable_refl right)
  | _, _, .right left h =>
    interchangeable_alternation (forall₂_interchangeable_refl left) h.forall₂
  | _, _, .group h => interchangeable_optional h.forall₂

theorem SwapsPath.forall₂ : {nodes nodes' : List PathNode} → SwapsPath nodes nodes' →
    List.Forall₂ PathNode.Interchangeable nodes nodes'
  | _, _, .head h rest => .cons h.interchangeable (forall₂_interchangeable_refl rest)
  | _, _, .tail node h => .cons (.refl node) h.forall₂

end

theorem SwapsPath.ne_nil {nodes nodes' : List PathNode} (h : SwapsPath nodes nodes') :
    nodes' ≠ [] := by
  cases h with
  | head _ _ => exact List.cons_ne_nil _ _
  | tail _ _ => exact List.cons_ne_nil _ _

mutual

theorem PathNode.Swaps.normal : {node node' : PathNode} → node.Swaps node' → node.Normal →
    node'.Normal
  | _, _, .here _, ⟨hl, hr, hln, hrn⟩ => ⟨hr, hl, hrn, hln⟩
  | _, _, .left _ h, ⟨_, hr, hln, hrn⟩ => ⟨h.ne_nil, hr, h.normalPath hln, hrn⟩
  | _, _, .right _ h, ⟨hl, _, hln, hrn⟩ => ⟨hl, h.ne_nil, hln, h.normalPath hrn⟩
  | _, _, .group h, ⟨_, hg⟩ => ⟨h.ne_nil, h.normalPath hg⟩

theorem SwapsPath.normalPath : {nodes nodes' : List PathNode} → SwapsPath nodes nodes' →
    NormalPath nodes → NormalPath nodes'
  | _, _, .head h _, ⟨hn, hr⟩ => ⟨h.normal hn, hr⟩
  | _, _, .tail _ h, ⟨hn, hr⟩ => ⟨hn, h.normalPath hr⟩

end

/-! ## Routes -/

/-- **Swapped branches match the same.** If an alternation of a route, at any depth, has branches
with different numbers of nodes, the route with these branches swapped matches the same components
and binds the same. -/
theorem Route.match?_of_swapsPath {r : Route} {path : List PathNode} (h : SwapsPath r.path path)
    (c : Components) :
    (Route.of path r.query).path = path ∧ (Route.of path r.query).match? c = r.match? c := by
  have hpath : (Route.of path r.query).path = path :=
    normalizePath_of_normal path (h.normalPath r.normal)
  refine ⟨hpath, ?_⟩
  rw [Route.match?, Route.match?, hpath, bindPath, bindPath, takeNodes_congr h.forall₂]
  rfl

/-- The path of `recipe/*/(x|in/(a|a/:id))`, and the same with the inner branches swapped. -/
def shortFirstPath : List PathNode :=
  [.literal "recipe", .wildcard, .alternation [.literal "x"]
    [.literal "in", .alternation [.literal "a"] [.literal "a", .parameter (.untyped "id")]]]

def longFirstPath : List PathNode :=
  [.literal "recipe", .wildcard, .alternation [.literal "x"]
    [.literal "in", .alternation [.literal "a", .parameter (.untyped "id")] [.literal "a"]]]

/-- The swapped alternation stands in a branch that ends a wildcard. -/
theorem match?_of_swapsPath_lookahead :
    SwapsPath (Route.of shortFirstPath []).path longFirstPath ∧
      (Route.of shortFirstPath []).match? ⟨["recipe", "u", "in", "a", "7"], []⟩ =
        some ⟨[(.untyped "id", "7")]⟩ ∧
      (Route.of longFirstPath []).match? ⟨["recipe", "u", "in", "a", "7"], []⟩ =
        (Route.of shortFirstPath []).match? ⟨["recipe", "u", "in", "a", "7"], []⟩ := by
  have hswap : SwapsPath (Route.of shortFirstPath []).path longFirstPath :=
    .tail _ (.tail _ (.head (.right _ (.tail _ (.head (.here (by decide)) _))) _))
  refine ⟨hswap, by decide +kernel, (Route.match?_of_swapsPath hswap _).2⟩

end DeepLink
