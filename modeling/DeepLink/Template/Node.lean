import DeepLink.Template.Item

/-!
# Reading the path of a template

Slashes outside groups separate the components of a path; empty components are dropped. A component
is, in this order of precedence:

1. a lone star, the wildcard;
2. whatever starts with a colon, a parameter;
3. an alternation, if a pipe stands outside groups, in the component or inside parentheses around
   it; the pipe binds looser than the slash, and the branches nest to the right;
4. an optional group, if parentheses stand around it;
5. a literal, if it holds no parenthesis.

    parameter  ::=  `:` kind `(` name `)`  |  `:` name

Here a name may be empty, a name in parentheses is all that stands before the next parenthesis, and
one without them is all that is left of the component. As in the items of a query the first
alternative that succeeds is taken.
-/

namespace DeepLink.Template

/-! ## Parameters -/

/-- As many tokens as there are up to a parenthesis. -/
def readGroupName (tokens : List Token) : Attempt String :=
  let rest := tokens.dropWhile fun t => !t.isParen
  .read (joinLiterals (tokens.takeWhile fun t => !t.isParen)) rest (some (.atHead rest))

def readTypedToEnd (tokens : List Token) : Attempt Parameter :=
  (readKind tokens).andThen fun kind rest =>
    (readParens readGroupName rest).andThen fun name rest =>
      (readEnd rest).map fun _ => .typed kind name

/-- All the tokens there are. -/
def readAll (tokens : List Token) : Attempt String :=
  .read (joinLiterals tokens) [] (some (.atHead []))

def readUntypedToEnd (tokens : List Token) : Attempt Parameter :=
  (readAll tokens).andThen fun name rest => (readEnd rest).map fun _ => .untyped name

def readPathParameter (tokens : List Token) : Attempt Parameter :=
  (readMark .colon tokens).andThen fun _ rest =>
    (readTypedToEnd rest).orElse (readUntypedToEnd rest)

/-- The parameter that a component stands for. -/
def parameterOf (component : List Token) : Except TemplateError PathNode :=
  match readPathParameter component with
  | .read p _ _ => .ok (.parameter p)
  | .refused r => .error (.invalidParameter (joinSources component) r.fault)

/-! ## Components -/

/-- The alternation that a component stands for, unless one of its branches is empty. -/
def alternationOf (component : List Token) (left right : List PathNode) :
    Except TemplateError PathNode :=
  if left = [] ∨ right = [] then .error (.emptyAlternative (joinSources component))
  else .ok (.alternation left right)

/-- The optional group that a component stands for, unless it is empty. -/
def groupOf (component : List Token) (group : List PathNode) : Except TemplateError PathNode :=
  if group = [] then .error (.emptyGroup (joinSources component)) else .ok (.optional group)

/-- The literal that a component stands for, unless it holds a parenthesis. -/
def literalOf (component : List Token) : Except TemplateError PathNode :=
  if component.any Token.isParen then .error (.misplacedGroup (joinSources component))
  else .ok (.literal (joinLiterals component))

/-- The tokens without the pair of parentheses around them, if there is one. -/
def withoutParens (tokens : List Token) : List Token := (insideParens? tokens).getD tokens

theorem length_withoutParens_le (tokens : List Token) :
    (withoutParens tokens).length ≤ tokens.length := by
  unfold withoutParens
  cases hu : insideParens? tokens with
  | none => simp
  | some g => have := length_of_insideParens? hu; simp; omega

mutual

def readPath (tokens : List Token) : Except TemplateError (List PathNode) :=
  match _h : cutOutside (.mark .slash) tokens with
  | none => do
    let node ← readComponent tokens
    return node.toList
  | some (before, after) => do
    let node ← readComponent before
    let rest ← readPath after
    return node.toList ++ rest
termination_by (tokens.length, 1)
decreasing_by
  · exact Prod.Lex.right _ (by omega)
  · have := length_of_cutOutside _h; exact Prod.Lex.left _ _ (by omega)
  · have := length_of_cutOutside _h; exact Prod.Lex.left _ _ (by omega)

/-- A component stands for one node, or for none if it is empty. -/
def readComponent (tokens : List Token) : Except TemplateError (Option PathNode) :=
  match tokens with
  | [] => .ok none
  | [.mark .star] => .ok (some .wildcard)
  | .mark .colon :: rest => do
    let node ← parameterOf (.mark .colon :: rest)
    return some node
  | first :: others =>
    match _h : cutOutside (.mark .pipe) (withoutParens (first :: others)) with
    | some (before, after) => do
      let left ← readPath before
      let right ← readBranch after
      let node ← alternationOf (withoutParens (first :: others)) left right
      return some node
    | none =>
      match _hg : insideParens? (first :: others) with
      | some inner => do
        let group ← readPath inner
        let node ← groupOf (first :: others) group
        return some node
      | none => do
        let node ← literalOf (first :: others)
        return some node
termination_by (tokens.length, 0)
decreasing_by
  · have := length_of_cutOutside _h
    have := length_withoutParens_le (first :: others)
    exact Prod.Lex.left _ _ (by omega)
  · have := length_of_cutOutside _h
    have := length_withoutParens_le (first :: others)
    exact Prod.Lex.left _ _ (by omega)
  · have := length_of_insideParens? _hg
    exact Prod.Lex.left _ _ (by omega)

/-- What follows a pipe: a path, or another alternation if there is another pipe. -/
def readBranch (tokens : List Token) : Except TemplateError (List PathNode) :=
  match _h : cutOutside (.mark .pipe) tokens with
  | none => readPath tokens
  | some (before, after) => do
    let left ← readPath before
    let right ← readBranch after
    let node ← alternationOf tokens left right
    return [node]
termination_by (tokens.length, 2)
decreasing_by
  · exact Prod.Lex.right _ (by omega)
  · have := length_of_cutOutside _h; exact Prod.Lex.left _ _ (by omega)
  · have := length_of_cutOutside _h; exact Prod.Lex.left _ _ (by omega)

end

end DeepLink.Template
