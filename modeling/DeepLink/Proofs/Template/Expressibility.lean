import DeepLink.Proofs.Template.Acceptance
import DeepLink.Proofs.Template.Expressions
import DeepLink.Proofs.Template.Names

/-!
# Templates as expressions

What a template is read as has nothing empty in it (`normalPath_of_isPath`): no token stands for the
empty text, and every branch and every group has a node. So bringing it into normal form changes
nothing, and building does not refuse it (`build_of_normal`). Nodes with nothing empty in them are
what their own expression stands for (`nodes_expressionOf`), which composes literals, parameters and
wildcards, and a path without nodes is built from the empty literal.
-/

namespace DeepLink

/-! ## What templates are read as -/

namespace Template

mutual

theorem normalPath_of_isPath : {tokens : List Token} → {nodes : List PathNode} →
    IsPath tokens nodes → Solid tokens → NormalPath nodes
  | _, _, .last _ hv, hs => normalPath_of_isComponent hv hs
  | _, _, .slash _ hv hr, hs =>
    normalPath_append (normalPath_of_isComponent hv hs.before) (normalPath_of_isPath hr hs.after)

theorem normalPath_of_isComponent : {tokens : List Token} → {value : List PathNode} →
    IsComponent tokens value → Solid tokens → NormalPath value
  | _, _, .empty, _ => trivial
  | _, _, .wildcard, _ => ⟨trivial, trivial⟩
  | _, _, .parameter _, _ => ⟨trivial, trivial⟩
  | _, _, .bare _ h, hs => ⟨normal_of_isAlternation h hs, trivial⟩
  | _, _, .wrapped _ h, hs => ⟨normal_of_isAlternation h hs.inside, trivial⟩
  | _, _, .optional _ h hg, hs => ⟨⟨hg, normalPath_of_isPath h hs.inside⟩, trivial⟩
  | _, _, .literal hne _ _ _ _, hs => ⟨joinLiterals_ne_empty hs hne, trivial⟩

theorem normal_of_isAlternation : {tokens : List Token} → {node : PathNode} →
    IsAlternation tokens node → Solid tokens → node.Normal
  | _, _, .branches _ hl hln hr hrn, hs =>
    ⟨hln, hrn, normalPath_of_isPath hl hs.before, normalPath_of_isBranch hr hs.after⟩

theorem normalPath_of_isBranch : {tokens : List Token} → {nodes : List PathNode} →
    IsBranch tokens nodes → Solid tokens → NormalPath nodes
  | _, _, .path _ h, hs => normalPath_of_isPath h hs
  | _, _, .alternation h, hs => ⟨normal_of_isAlternation h hs, trivial⟩

end

end Template

/-- The nodes of a template are already in normal form, and its parameters have names. -/
theorem exists_readPath_of_ofTemplate? {template : String} {r : Route}
    (h : Route.ofTemplate? template = .ok r) :
    ∃ tokens, Token.ofTemplate? template = .ok tokens ∧
      Template.readPath (Template.cutQuery tokens).1 = .ok r.path ∧
      Template.readQuery (Template.queryOffset (Template.cutQuery tokens).1)
        ((Template.cutQuery tokens).2.getD []) = .ok r.query := by
  obtain ⟨tokens, ht, hr⟩ := exists_of_ofTemplate? h
  obtain ⟨nodes, items, hb, hn, hi, rfl⟩ := Template.exists_of_readTokens hr
  have hs : Solid (Template.cutQuery tokens).1 :=
    (solid_of_ofTemplate? ht).of_subset (Template.mem_of_mem_cutQuery tokens).1
  have hnormal := Template.normalPath_of_isPath (Template.isPath_of_readPath hb hn) hs
  refine ⟨tokens, ht, ?_, hi⟩
  show _ = Except.ok (normalizePath nodes)
  rw [normalizePath_of_normal nodes hnormal]
  exact hn

/-! ## Building the same route -/

/-- Building does not refuse a route whose query parameters have names. -/
theorem Route.build_of_normal (r : Route)
    (hq : ∀ item ∈ r.query, ∀ p ∈ item.parameters, p.name ≠ "") :
    Route.build r.path r.query = .ok r := by
  rw [Route.build_eq_ok_iff]
  exact ⟨hasContent_of_normal r.normal, hq, r.of_path_query⟩

/-! ## Expressions of nodes -/

/-- The expression is put together of literals, parameters and wildcards. -/
def Expression.IsComposed : Expression → Prop
  | empty => False
  | literal _ => True
  | parameter _ => True
  | wildcard => True
  | node _ => False
  | optional inner => inner.IsComposed
  | sequence first second => first.IsComposed ∧ second.IsComposed
  | alternation left right => left.IsComposed ∧ right.IsComposed

mutual

/-- The expression that stands for the node. -/
def PathNode.expression : PathNode → Expression
  | .literal text => .literal text
  | .parameter p => .parameter p
  | .alternation left right => .alternation (expressionOf left) (expressionOf right)
  | .optional group => .optional (expressionOf group)
  | .wildcard => .wildcard

/-- The expression that stands for the nodes; the empty literal shows none. -/
def expressionOf : List PathNode → Expression
  | [] => .literal ""
  | [node] => node.expression
  | node :: next :: rest => .sequence node.expression (expressionOf (next :: rest))

end

mutual

theorem PathNode.isComposed_expression : (node : PathNode) → node.expression.IsComposed
  | .literal _ => trivial
  | .parameter _ => trivial
  | .alternation left right => ⟨isComposed_expressionOf left, isComposed_expressionOf right⟩
  | .optional group => isComposed_expressionOf group
  | .wildcard => trivial

theorem isComposed_expressionOf : (nodes : List PathNode) → (expressionOf nodes).IsComposed
  | [] => trivial
  | [node] => node.isComposed_expression
  | node :: next :: rest => ⟨node.isComposed_expression, isComposed_expressionOf (next :: rest)⟩

end

mutual

theorem PathNode.nodes_expression : (node : PathNode) → node.Normal →
    node.expression.nodes = [node]
  | .literal _, _ => rfl
  | .parameter _, _ => rfl
  | .alternation left right, ⟨hl, hr, hln, hrn⟩ => by
    rw [PathNode.expression, Expression.nodes, nodes_expressionOf left hln hl,
      nodes_expressionOf right hrn hr]
  | .optional group, ⟨hg, hgn⟩ => by
    rw [PathNode.expression, Expression.nodes, nodes_expressionOf group hgn hg]
  | .wildcard, _ => rfl

theorem nodes_expressionOf : (nodes : List PathNode) → NormalPath nodes → nodes ≠ [] →
    (expressionOf nodes).nodes = nodes
  | [], _, hne => absurd rfl hne
  | [node], hn, _ => node.nodes_expression hn.1
  | node :: next :: rest, ⟨hn, hr⟩, _ => by
    rw [expressionOf, Expression.nodes, node.nodes_expression hn,
      nodes_expressionOf (next :: rest) hr (List.cons_ne_nil _ _)]
    rfl

end

/-- A route without empty names is what is built from its expression. -/
theorem Route.build_expressionOf (r : Route)
    (hq : ∀ item ∈ r.query, ∀ p ∈ item.parameters, p.name ≠ "") :
    (expressionOf r.path).build r.query = .ok r := by
  by_cases hne : r.path = []
  · obtain ⟨path, query, hn⟩ := r
    obtain rfl : path = [] := hne
    show Route.build [.literal ""] query = _
    rw [Route.build, checkNamed_eq_ok_iff.mpr hq]
    rfl
  · rw [Expression.build, nodes_expressionOf r.path r.normal hne, r.build_of_normal hq]

/-! ## Items of a query -/

/-- Query items put together: required, optional and alternative parameters, some before others. -/
inductive ItemExpression
  | required (p : Parameter)
  | optional (p : Parameter)
  | alternation (first second : Parameter)
  | both (first second : ItemExpression)

def ItemExpression.items : ItemExpression → List QueryItem
  | required p => [.required p]
  | optional p => [.optional p]
  | alternation first second => [.alternation first second]
  | both first second => first.items ++ second.items

theorem QueryItem.exists_expression (item : QueryItem) :
    ∃ e : ItemExpression, e.items = [item] := by
  cases item with
  | required p => exact ⟨.required p, rfl⟩
  | optional p => exact ⟨.optional p, rfl⟩
  | alternation first second => exact ⟨.alternation first second, rfl⟩

/-- Items are put together, unless there are none. -/
theorem exists_itemExpression {items : List QueryItem} (hne : items ≠ []) :
    ∃ e : ItemExpression, e.items = items := by
  induction items with
  | nil => exact absurd rfl hne
  | cons item items ih =>
    obtain ⟨first, hf⟩ := item.exists_expression
    by_cases hmore : items = []
    · exact ⟨first, by rw [hf, hmore]⟩
    · obtain ⟨second, hs⟩ := ih hmore
      exact ⟨.both first second, by rw [ItemExpression.items, hf, hs]; rfl⟩

/-! ## Templates -/

/-- **Templates as expressions.** The route of a template is built from an expression that is put
together of literals, parameters and wildcards, with items put together of parameters if it has any.
Building does not refuse its own nodes and items either. They are the nodes and items that were
read: nothing had to be taken out of them. -/
theorem exists_expression_of_ofTemplate? {template : String} {r : Route}
    (h : Route.ofTemplate? template = .ok r) :
    (∃ e : Expression, e.IsComposed ∧ e.build r.query = .ok r) ∧
      (r.query ≠ [] → ∃ e : ItemExpression, e.items = r.query) ∧
      Route.build r.path r.query = .ok r ∧
      ∃ tokens, Token.ofTemplate? template = .ok tokens ∧
        Template.readPath (Template.cutQuery tokens).1 = .ok r.path ∧
        Template.readQuery (Template.queryOffset (Template.cutQuery tokens).1)
          ((Template.cutQuery tokens).2.getD []) = .ok r.query := by
  have hq := name_ne_empty_of_ofTemplate? h
  exact ⟨⟨expressionOf r.path, isComposed_expressionOf r.path, r.build_expressionOf hq⟩,
    exists_itemExpression, r.build_of_normal hq, exists_readPath_of_ofTemplate? h⟩

/-- The path of `/a//(b|:id/(\*))?q=:int&(:r|:s)`, and its tokens. -/
def starInBranchPath : List PathNode :=
  [.literal "a", .alternation [.literal "b"] [.parameter (.untyped "id"), .optional [.literal "*"]]]

def starInBranchTokens : List Token :=
  [.mark .slash, .text "a", .mark .slash, .mark .slash, .mark .openParen, .text "b", .mark .pipe,
    .mark .colon, .text "id", .mark .slash, .mark .openParen, .escaped '*', .mark .closeParen,
    .mark .closeParen]

def starInBranch : Route :=
  Route.of starInBranchPath
    [.required (.typed .int "q"), .alternation (.untyped "r") (.untyped "s")]

theorem readPath_starInBranchTokens :
    Template.readPath starInBranchTokens = .ok starInBranchPath := by cbv

/-- An empty component is dropped, and a group with an escaped star stands in a branch. -/
theorem exists_expression_of_ofTemplate?_starInBranch :
    Route.ofTemplate? "/a//(b|:id/(\\*))?q=:int&(:r|:s)" = .ok starInBranch ∧
      ∃ e : Expression, e.IsComposed ∧ e.build starInBranch.query = .ok starInBranch := by
  have ht : Token.ofTemplate? "/a//(b|:id/(\\*))?q=:int&(:r|:s)" =
      .ok (starInBranchTokens ++ [.mark .question, .text "q", .mark .equals, .mark .colon,
        .text "int", .mark .ampersand, .mark .openParen, .mark .colon, .text "r", .mark .pipe,
        .mark .colon, .text "s", .mark .closeParen]) := by decide +kernel
  have h : Route.ofTemplate? "/a//(b|:id/(\\*))?q=:int&(:r|:s)" = .ok starInBranch := by
    rw [Route.ofTemplate?, ht]
    show (Template.readPath starInBranchTokens >>= _) = _
    rw [readPath_starInBranchTokens]
    rfl
  exact ⟨h, (exists_expression_of_ofTemplate? h).1⟩

end DeepLink
