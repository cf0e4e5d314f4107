import DeepLink.Proofs.Template.Nesting
import DeepLink.Template

/-!
# The tokens of a canonical text

A route has tokens as it has a text: `Route.tokens`. Lexing the canonical text gives these tokens
(`ofTemplate?_text`); they hold no question mark before the query, pair up their parentheses, and
every node of the path is sealed against slashes and pipes.
-/

namespace DeepLink

/-! ## Tokens of parameters, nodes and items -/

/-- A parameter of a path. -/
def Parameter.pathTokens (p : Parameter) : List Token :=
  match p.kind? with
  | some kind =>
    .mark .colon :: .text kind.keyword :: .mark .openParen ::
      (spell p.name ++ [.mark .closeParen])
  | none => .mark .colon :: spell p.name

/-- A parameter of a query. -/
def Parameter.queryTokens (p : Parameter) : List Token :=
  match p.kind? with
  | some kind => spell p.name ++ [.mark .equals, .mark .colon, .text kind.keyword]
  | none => .mark .colon :: spell p.name

namespace Parameter

theorem pathTokens_typed (kind : Kind) (name : String) : (typed kind name).pathTokens =
    .mark .colon :: .text kind.keyword :: .mark .openParen ::
      (spell name ++ [.mark .closeParen]) := rfl

theorem pathTokens_untyped (name : String) :
    (untyped name).pathTokens = .mark .colon :: spell name := rfl

theorem queryTokens_typed (kind : Kind) (name : String) : (typed kind name).queryTokens =
    spell name ++ [.mark .equals, .mark .colon, .text kind.keyword] := rfl

theorem queryTokens_untyped (name : String) :
    (untyped name).queryTokens = .mark .colon :: spell name := rfl

end Parameter

mutual

def PathNode.tokens : PathNode → List Token
  | .literal t => spell t
  | .parameter p => p.pathTokens
  | .alternation left right =>
    .mark .openParen ::
      ((pathTokens left ++ .mark .pipe :: pathTokens right) ++ [.mark .closeParen])
  | .optional group => .mark .openParen :: (pathTokens group ++ [.mark .closeParen])
  | .wildcard => [.mark .star]

/-- The tokens of the nodes with slashes between them. -/
def pathTokens : List PathNode → List Token
  | [] => []
  | [node] => node.tokens
  | node :: next :: rest => node.tokens ++ .mark .slash :: pathTokens (next :: rest)

end

def QueryItem.tokens : QueryItem → List Token
  | .required p => p.queryTokens
  | .optional p => .mark .openParen :: (p.queryTokens ++ [.mark .closeParen])
  | .alternation first second =>
    .mark .openParen ::
      ((first.queryTokens ++ .mark .pipe :: second.queryTokens) ++ [.mark .closeParen])

/-- The tokens of the items with ampersands between them. -/
def itemsTokens : List QueryItem → List Token
  | [] => []
  | [item] => item.tokens
  | item :: next :: rest => item.tokens ++ .mark .ampersand :: itemsTokens (next :: rest)

def Route.tokens (r : Route) : List Token :=
  match r.query with
  | [] => pathTokens r.path
  | items => pathTokens r.path ++ .mark .question :: itemsTokens items

/-! ## Lexing the text -/

theorem lexes_pathText_parameter (p : Parameter) : Lexes p.pathText p.pathTokens := by
  unfold Parameter.pathText Parameter.pathTokens
  cases p.kind? with
  | none => exact .mark_append rfl (.escape p.name)
  | some kind =>
    exact .append_mark rfl (.between rfl (.mark_append rfl (.keyword kind)) (.escape p.name))

theorem lexes_queryText (p : Parameter) : Lexes p.queryText p.queryTokens := by
  unfold Parameter.queryText Parameter.queryTokens
  cases p.kind? with
  | none => exact .mark_append rfl (.escape p.name)
  | some kind =>
    have hs : escape p.name ++ "=:" = escape p.name ++ "=" ++ ":" := by
      rw [String.append_assoc, show "=" ++ ":" = "=:" from rfl]
    have ht : spell p.name ++ [.mark .equals, .mark .colon, .text kind.keyword] =
        (spell p.name ++ [.mark .equals]) ++ .mark .colon :: [.text kind.keyword] := by
      rw [List.append_assoc]
      rfl
    simp only
    rw [hs, ht]
    exact .between rfl (.append_mark rfl (.escape p.name)) (.keyword kind)

mutual

theorem PathNode.lexes_text : (node : PathNode) → Lexes node.text node.tokens
  | .literal t => .escape t
  | .parameter p => lexes_pathText_parameter p
  | .alternation left right => by
    have h := Lexes.parens
      (.between (s := "|") (m := .pipe) rfl (lexes_pathText left) (lexes_pathText right))
    rwa [← String.append_assoc, ← String.append_assoc] at h
  | .optional group => .parens (lexes_pathText group)
  | .wildcard => .mark (m := .star) rfl

theorem lexes_pathText : (nodes : List PathNode) → Lexes (pathText nodes) (pathTokens nodes)
  | [] => .empty
  | [node] => node.lexes_text
  | node :: next :: rest => .between rfl node.lexes_text (lexes_pathText (next :: rest))

end

theorem QueryItem.lexes_text (item : QueryItem) : Lexes item.text item.tokens := by
  cases item with
  | required p => exact lexes_queryText p
  | optional p => exact .parens (lexes_queryText p)
  | alternation first second =>
    have h := Lexes.parens
      (.between (s := "|") (m := .pipe) rfl (lexes_queryText first) (lexes_queryText second))
    rwa [← String.append_assoc, ← String.append_assoc] at h

theorem lexes_itemsText (items : List QueryItem) :
    Lexes ("&".intercalate (items.map QueryItem.text)) (itemsTokens items) := by
  induction items with
  | nil => exact .empty
  | cons item rest ih =>
    cases rest with
    | nil => simpa [itemsTokens] using item.lexes_text
    | cons next rest =>
      rw [List.map_cons, List.map_cons, String.intercalate_cons_cons, ← List.map_cons]
      exact .between rfl item.lexes_text ih

theorem Route.lexes_text (r : Route) : Lexes r.text r.tokens := by
  unfold Route.text Route.tokens
  cases r.query with
  | nil => exact lexes_pathText r.path
  | cons item rest => exact .between rfl (lexes_pathText r.path) (lexes_itemsText (item :: rest))

/-- **Lexing the canonical text** of a route yields the tokens of the route. -/
theorem ofTemplate?_text (r : Route) : Token.ofTemplate? r.text = .ok r.tokens :=
  r.lexes_text.ofTemplate?_eq

theorem nesting_text (r : Route) : nesting r.text = nestingTokens 0 r.tokens :=
  nesting_eq r.lexes_text.lexemes_eq

/-! ## Parentheses pair up -/

theorem balanced_spell (text : String) : Balanced (spell text) :=
  balanced_of_isParen fun _ ht => isParen_of_isText (isText_of_mem_spell ht)

theorem sealed_spell (m : Mark) (text : String) : Sealed m (spell text) :=
  sealed_of_isText m fun _ ht => isText_of_mem_spell ht

theorem sealed_parameter_pathTokens {m : Mark} (hc : m ≠ .colon) (ho : m ≠ .openParen)
    (p : Parameter) : Sealed m p.pathTokens := by
  have hcolon : Token.mark .colon ≠ .mark m := fun h => hc (Token.mark.inj h).symm
  unfold Parameter.pathTokens
  cases p.kind? with
  | none => exact .cons rfl hcolon (sealed_spell m p.name)
  | some kind =>
    exact .cons rfl hcolon (.cons rfl (by simp) (sealed_group ho (balanced_spell p.name)))

theorem sealed_queryTokens {m : Mark} (hc : m ≠ .colon) (he : m ≠ .equals) (p : Parameter) :
    Sealed m p.queryTokens := by
  have hcolon : Token.mark .colon ≠ .mark m := fun h => hc (Token.mark.inj h).symm
  have hequals : Token.mark .equals ≠ .mark m := fun h => he (Token.mark.inj h).symm
  unfold Parameter.queryTokens
  cases p.kind? with
  | none => exact .cons rfl hcolon (sealed_spell m p.name)
  | some kind =>
    exact .append (sealed_spell m p.name)
      (.cons rfl hequals (.cons rfl hcolon (.cons rfl (by simp) (.nil m))))

theorem sealed_pipe_queryTokens (p : Parameter) : Sealed .pipe p.queryTokens :=
  sealed_queryTokens (by decide) (by decide) p

theorem balanced_queryTokens (p : Parameter) : Balanced p.queryTokens :=
  (sealed_pipe_queryTokens p).balanced

/-- A mark between balanced tokens leaves them balanced. -/
theorem Balanced.between {m : Mark} (hm : (Token.mark m).isParen = false) {a b : List Token}
    (ha : Balanced a) (hb : Balanced b) : Balanced (a ++ .mark m :: b) := ha.append (.cons hm hb)

mutual

theorem PathNode.balanced_tokens : (node : PathNode) → Balanced node.tokens
  | .literal t => balanced_spell t
  | .parameter p =>
    (sealed_parameter_pathTokens (m := .slash) (by decide) (by decide) p).balanced
  | .alternation left right =>
    .group (.between rfl (balanced_pathTokens left) (balanced_pathTokens right)) .nil
  | .optional group => .group (balanced_pathTokens group) .nil
  | .wildcard => .cons rfl .nil

theorem balanced_pathTokens : (nodes : List PathNode) → Balanced (pathTokens nodes)
  | [] => .nil
  | [node] => node.balanced_tokens
  | node :: next :: rest => .between rfl node.balanced_tokens (balanced_pathTokens (next :: rest))

end

/-- A node holds slashes and pipes only inside its groups. -/
theorem PathNode.sealed_tokens {m : Mark} (hm : m = .slash ∨ m = .pipe) (node : PathNode) :
    Sealed m node.tokens := by
  have hc : m ≠ .colon := by rcases hm with rfl | rfl <;> decide
  have ho : m ≠ .openParen := by rcases hm with rfl | rfl <;> decide
  have hs : Token.mark .star ≠ .mark m := by rcases hm with rfl | rfl <;> decide
  cases node with
  | literal t => exact sealed_spell m t
  | parameter p => exact sealed_parameter_pathTokens hc ho p
  | alternation left right =>
    exact sealed_group ho (.between rfl (balanced_pathTokens left) (balanced_pathTokens right))
  | optional group => exact sealed_group ho (balanced_pathTokens group)
  | wildcard => exact .cons rfl hs (.nil m)

theorem sealed_pathTokens (nodes : List PathNode) : Sealed .pipe (pathTokens nodes) := by
  induction nodes with
  | nil => exact .nil _
  | cons node rest ih =>
    cases rest with
    | nil => exact node.sealed_tokens (.inr rfl)
    | cons next rest =>
      exact (node.sealed_tokens (.inr rfl)).append (.cons rfl (by decide) ih)

theorem QueryItem.sealed_tokens (item : QueryItem) : Sealed .ampersand item.tokens := by
  have hq := fun p : Parameter => sealed_queryTokens (m := .ampersand) (by decide) (by decide) p
  cases item with
  | required p => exact hq p
  | optional p => exact sealed_group (by decide) (hq p).balanced
  | alternation first second =>
    exact sealed_group (by decide) (.between rfl (hq first).balanced (hq second).balanced)

theorem balanced_itemsTokens (items : List QueryItem) : Balanced (itemsTokens items) := by
  induction items with
  | nil => exact .nil
  | cons item rest ih =>
    cases rest with
    | nil => exact item.sealed_tokens.balanced
    | cons next rest => exact .between rfl item.sealed_tokens.balanced ih

/-- The ampersands outside groups are those between the items. -/
theorem splitOutside_itemsTokens (item : QueryItem) (rest : List QueryItem) :
    splitOutside (.mark .ampersand) (itemsTokens (item :: rest)) =
      (item :: rest).map QueryItem.tokens := by
  induction rest generalizing item with
  | nil => exact splitOutside_sealed item.sealed_tokens
  | cons next rest ih =>
    rw [itemsTokens, splitOutside_append_mark item.sealed_tokens, ih, ← List.map_cons]

theorem queryTokens_ne_nil (p : Parameter) : p.queryTokens ≠ [] := by
  unfold Parameter.queryTokens
  cases p.kind? with
  | none => simp
  | some kind => simp

theorem QueryItem.tokens_ne_nil (item : QueryItem) : item.tokens ≠ [] := by
  cases item with
  | required p => exact queryTokens_ne_nil p
  | optional p => exact List.cons_ne_nil _ _
  | alternation first second => exact List.cons_ne_nil _ _

theorem itemsTokens_ne_nil (item : QueryItem) (rest : List QueryItem) :
    itemsTokens (item :: rest) ≠ [] := by
  intro he
  have hs := splitOutside_itemsTokens item rest
  -- Splitting nothing leaves one empty part, and an item is never empty.
  rw [he, List.map_cons] at hs
  exact item.tokens_ne_nil (List.cons.inj hs).1.symm

/-! ## No question mark in a path -/

theorem question_notMem_spell (text : String) : .mark .question ∉ spell text :=
  fun h => Bool.false_ne_true (isText_of_mem_spell h)

theorem question_notMem_parameter (p : Parameter) : .mark .question ∉ p.pathTokens := by
  have hn := question_notMem_spell p.name
  unfold Parameter.pathTokens
  cases p.kind? with
  | none => simp [hn]
  | some kind => simp [hn]

mutual

theorem PathNode.question_notMem : (node : PathNode) → .mark .question ∉ node.tokens
  | .literal t => question_notMem_spell t
  | .parameter p => question_notMem_parameter p
  | .alternation left right => by
    have hl := question_notMem_pathTokens left
    have hr := question_notMem_pathTokens right
    simp [PathNode.tokens, hl, hr]
  | .optional group => by
    have hg := question_notMem_pathTokens group
    simp [PathNode.tokens, hg]
  | .wildcard => by simp [PathNode.tokens]

theorem question_notMem_pathTokens : (nodes : List PathNode) → .mark .question ∉ pathTokens nodes
  | [] => by simp [pathTokens]
  | [node] => node.question_notMem
  | node :: next :: rest => by
    have hn := node.question_notMem
    have hr := question_notMem_pathTokens (next :: rest)
    simp [pathTokens, hn, hr]

end

end DeepLink
