import DeepLink.Components
import DeepLink.Payload
import DeepLink.Route

/-!
# Rendering a route

A route and a payload make components. Literals and wildcards need no value; a parameter takes a
scalar whose text it accepts, which may not be empty in a path; an alternation takes a branch, an
optional group a present or an absent one. Values are taken in order, the path before the query, and
all have to be used, also inside branches and groups.
-/

namespace DeepLink

open Decimal (natText)

/-- Why a payload does not fit a route. Nodes, items and routes appear with their canonical text. -/
inductive RenderError
  | missingValue (expected : String)
  | unexpectedValue (expected : String) (found : Value)
  | invalidValue (p : Parameter) (kind : Kind) (value : String)
  | emptyValue (p : Parameter)
  | unusedValues (route : String) (count : Nat)

def RenderError.message : RenderError → String
  | missingValue expected => "missing value for `" ++ expected ++ "`"
  | unexpectedValue expected found =>
    "expected a value for `" ++ expected ++ "`, found " ++ found.describe
  | invalidValue p kind value =>
    "value `" ++ value ++ "` is not a valid " ++ kind.keyword ++ " for parameter `" ++ p.text ++ "`"
  | emptyValue p => "empty value for path parameter `" ++ p.text ++ "`"
  | unusedValues route count =>
    natText count ++ " unused value(s) after rendering `" ++ route ++ "`"

/-- The text of a value for a parameter. -/
def Parameter.render (p : Parameter) (expected : String) : Value → Except RenderError String
  | .scalar s =>
    match p.kind? with
    | some kind =>
      if kind.accepts s.render then .ok s.render else .error (.invalidValue p kind s.render)
    | none => .ok s.render
  | other => .error (.unexpectedValue expected other)

/-- The text of a value for a parameter of a path. -/
def Parameter.renderInPath (p : Parameter) (value : Value) : Except RenderError String := do
  let text ← p.render p.pathText value
  if text = "" then throw (.emptyValue p)
  return text

/-- What was made, if no values are left. -/
def allUsed {α : Type} (route : String) (made : α × List Value) : Except RenderError α :=
  match made with
  | (result, []) => .ok result
  | (_, rest) => .error (.unusedValues route rest.length)

mutual

/-- The texts of a node, and the values it leaves. -/
def PathNode.render : PathNode → List Value → Except RenderError (List String × List Value)
  | .literal text, values => .ok ([text], values)
  | .wildcard, values => .ok (["*"], values)
  | .parameter p, values =>
    match values with
    | [] => .error (.missingValue p.pathText)
    | value :: rest => (p.renderInPath value).map fun text => ([text], rest)
  | .alternation left right, values =>
    match values with
    | [] => .error (.missingValue (PathNode.alternation left right).text)
    | .branch .left inner :: rest =>
      ((renderPath left inner).bind (allUsed (pathText left))).map fun texts => (texts, rest)
    | .branch .right inner :: rest =>
      ((renderPath right inner).bind (allUsed (pathText right))).map fun texts => (texts, rest)
    | other :: _ => .error (.unexpectedValue (PathNode.alternation left right).text other)
  | .optional group, values =>
    match values with
    | [] => .error (.missingValue (PathNode.optional group).text)
    | .absent :: rest => .ok ([], rest)
    | .present inner :: rest =>
      ((renderPath group inner).bind (allUsed (pathText group))).map fun texts => (texts, rest)
    | other :: _ => .error (.unexpectedValue (PathNode.optional group).text other)

def renderPath : List PathNode → List Value → Except RenderError (List String × List Value)
  | [], values => .ok ([], values)
  | node :: nodes, values => do
    let (first, rest) ← node.render values
    let (others, unused) ← renderPath nodes rest
    return (first ++ others, unused)

end

/-- The pair of a parameter with the one value given for it. -/
def Parameter.renderPair (p : Parameter) (item : QueryItem) :
    List Value → Except RenderError (String × String)
  | [] => .error (.missingValue item.text)
  | value :: rest => do
    let text ← p.render item.text value
    allUsed item.text ((p.name, text), rest)

/-- The pair an item makes of its value, or none if it is left out. -/
def QueryItem.render (item : QueryItem) (value : Value) :
    Except RenderError (List (String × String)) :=
  match item, value with
  | .required p, value => (p.render item.text value).map fun text => [(p.name, text)]
  | .optional _, .absent => .ok []
  | .optional p, .present inner => (p.renderPair item inner).map ([·])
  | .alternation first _, .branch .left inner => (first.renderPair item inner).map ([·])
  | .alternation _ second, .branch .right inner => (second.renderPair item inner).map ([·])
  | _, other => .error (.unexpectedValue item.text other)

def renderQuery :
    List QueryItem → List Value → Except RenderError (List (String × String) × List Value)
  | [], values => .ok ([], values)
  | item :: _, [] => .error (.missingValue item.text)
  | item :: items, value :: values => do
    let first ← item.render value
    let (others, unused) ← renderQuery items values
    return (first ++ others, unused)

/-- The components that a route makes of a payload. -/
def Route.render (r : Route) (values : List Value) : Except RenderError Components := do
  let (path, rest) ← renderPath r.path values
  let (query, unused) ← renderQuery r.query rest
  allUsed r.text (⟨path, query⟩, unused)

end DeepLink
