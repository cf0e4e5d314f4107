import DeepLink.Proofs.Template.RoundTrip

/-!
# The depth of routes

The canonical text of a route nests as deeply as its nodes and items do, where every group and every
alternation counts, and so does a parameter of a path that asks for a kind
(`nesting_text_eq_depth`).
-/

namespace DeepLink

/-- A kind stands before parentheses around the name. -/
def Parameter.pathDepth (p : Parameter) : Nat := if p.kind?.isSome then 1 else 0

mutual

/-- How many parentheses of the canonical text are open at once. -/
def PathNode.depth : PathNode → Nat
  | .literal _ => 0
  | .parameter p => p.pathDepth
  | .alternation left right => max (pathDepth left) (pathDepth right) + 1
  | .optional group => pathDepth group + 1
  | .wildcard => 0

def pathDepth : List PathNode → Nat
  | [] => 0
  | node :: rest => max node.depth (pathDepth rest)

end

def QueryItem.depth : QueryItem → Nat
  | .required _ => 0
  | .optional _ => 1
  | .alternation _ _ => 1

def queryDepth : List QueryItem → Nat
  | [] => 0
  | item :: rest => max item.depth (queryDepth rest)

def Route.depth (r : Route) : Nat := max (pathDepth r.path) (queryDepth r.query)

/-! ## Runs of tokens -/

theorem nestingTokens_spell (d : Nat) (text : String) : nestingTokens d (spell text) = d :=
  nestingTokens_of_isParen (fun _ ht => isParen_of_isText (isText_of_mem_spell ht)) d

/-- A mark between two runs adds nothing. -/
theorem nestingTokens_between {m : Mark} (hm : (Token.mark m).isParen = false) {a : List Token}
    (ha : Balanced a) (d : Nat) (b : List Token) :
    nestingTokens d (a ++ .mark m :: b) = max (nestingTokens d a) (nestingTokens d b) := by
  rw [nestingTokens_balanced ha, nestingTokens_cons hm]

theorem nestingTokens_parens {inner : List Token} (hi : Balanced inner) (d : Nat) :
    nestingTokens d (.mark .openParen :: (inner ++ [.mark .closeParen])) =
      nestingTokens (d + 1) inner := by
  have hle := le_nestingTokens (d + 1) inner
  rw [nestingTokens_group hi]
  show max _ (max (d + 1) d) = _
  omega

/-! ## Nodes and items -/

theorem nestingTokens_pathTokens_parameter (p : Parameter) (d : Nat) :
    nestingTokens d p.pathTokens = d + p.pathDepth := by
  unfold Parameter.pathTokens Parameter.pathDepth
  cases p.kind? with
  | none => exact (nestingTokens_cons rfl d _).trans (nestingTokens_spell d p.name)
  | some kind =>
    simp only
    rw [nestingTokens_cons rfl, nestingTokens_cons rfl,
      nestingTokens_parens (balanced_spell p.name), nestingTokens_spell]
    rfl

theorem nestingTokens_queryTokens (p : Parameter) (d : Nat) :
    nestingTokens d p.queryTokens = d := by
  unfold Parameter.queryTokens
  cases p.kind? with
  | none => exact (nestingTokens_cons rfl d _).trans (nestingTokens_spell d p.name)
  | some kind =>
    simp only
    rw [nestingTokens_balanced (balanced_spell p.name), nestingTokens_spell, nestingTokens_cons rfl,
      nestingTokens_cons rfl, nestingTokens_cons rfl]
    exact Nat.max_self d

mutual

theorem PathNode.nestingTokens_tokens : (node : PathNode) → (d : Nat) →
    nestingTokens d node.tokens = d + node.depth
  | .literal t, d => nestingTokens_spell d t
  | .parameter p, d => nestingTokens_pathTokens_parameter p d
  | .alternation left right, d => by
    have hb : Balanced (pathTokens left ++ .mark .pipe :: pathTokens right) :=
      .between rfl (balanced_pathTokens left) (balanced_pathTokens right)
    rw [PathNode.tokens, nestingTokens_parens hb,
      nestingTokens_between rfl (balanced_pathTokens left), nestingTokens_pathTokens left,
      nestingTokens_pathTokens right, PathNode.depth]
    omega
  | .optional group, d => by
    rw [PathNode.tokens, nestingTokens_parens (balanced_pathTokens group),
      nestingTokens_pathTokens group, PathNode.depth]
    omega
  | .wildcard, d => nestingTokens_cons rfl d []

theorem nestingTokens_pathTokens : (nodes : List PathNode) → (d : Nat) →
    nestingTokens d (pathTokens nodes) = d + pathDepth nodes
  | [], d => rfl
  | [node], d => by
    rw [pathTokens, node.nestingTokens_tokens, pathDepth, pathDepth, Nat.max_zero]
  | node :: next :: rest, d => by
    rw [pathTokens, nestingTokens_between rfl node.balanced_tokens, node.nestingTokens_tokens,
      nestingTokens_pathTokens (next :: rest)]
    show _ = d + max node.depth (pathDepth (next :: rest))
    omega

end

theorem QueryItem.nestingTokens_tokens (item : QueryItem) (d : Nat) :
    nestingTokens d item.tokens = d + item.depth := by
  cases item with
  | required p => exact nestingTokens_queryTokens p d
  | optional p =>
    rw [QueryItem.tokens, nestingTokens_parens (balanced_queryTokens p), nestingTokens_queryTokens]
    rfl
  | alternation first second =>
    have hf := balanced_queryTokens first
    rw [QueryItem.tokens, nestingTokens_parens (.between rfl hf (balanced_queryTokens second)),
      nestingTokens_between rfl hf, nestingTokens_queryTokens, nestingTokens_queryTokens,
      Nat.max_self]
    rfl

theorem nestingTokens_itemsTokens (items : List QueryItem) (d : Nat) :
    nestingTokens d (itemsTokens items) = d + queryDepth items := by
  induction items with
  | nil => rfl
  | cons item rest ih =>
    cases rest with
    | nil => rw [itemsTokens, item.nestingTokens_tokens, queryDepth, queryDepth, Nat.max_zero]
    | cons next rest =>
      rw [itemsTokens, nestingTokens_between rfl item.sealed_tokens.balanced,
        item.nestingTokens_tokens, ih]
      show _ = d + max item.depth (queryDepth (next :: rest))
      omega

theorem Route.nestingTokens_eq_depth (r : Route) : nestingTokens 0 r.tokens = r.depth := by
  rw [Template.nestingTokens_tokens, nestingTokens_pathTokens, nestingTokens_itemsTokens,
    Nat.zero_add, Nat.zero_add, Route.depth]

/-- The canonical text of a route nests as deeply as the route. -/
theorem nesting_text_eq_depth (r : Route) : nesting r.text = r.depth := by
  rw [nesting_text, r.nestingTokens_eq_depth]

end DeepLink
