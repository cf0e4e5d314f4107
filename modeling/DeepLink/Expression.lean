import DeepLink.Route

/-!
# Building routes

Expressions put routes together without a template. An expression stands for path nodes; building a
route from them refuses what no template could express: groups and branches with nothing in them,
and query parameters without a name.
-/

namespace DeepLink

inductive Expression
  | empty
  | literal (text : String)
  | parameter (p : Parameter)
  | wildcard
  | node (n : PathNode)
  | optional (inner : Expression)
  | sequence (first second : Expression)
  | alternation (left right : Expression)

/-- The path nodes an expression stands for. -/
def Expression.nodes : Expression → List PathNode
  | empty => []
  | literal text => [.literal text]
  | parameter p => [.parameter p]
  | wildcard => [.wildcard]
  | node n => [n]
  | optional inner => [.optional inner.nodes]
  | sequence first second => first.nodes ++ second.nodes
  | alternation left right => [.alternation left.nodes right.nodes]

/-- Why no route is built, with the canonical text of the culprit. -/
inductive BuildError
  | emptyAlternative (route : String)
  | emptyOptional (route : String)
  | anonymousQueryParameter (item : String)
  deriving DecidableEq

def BuildError.message : BuildError → String
  | emptyAlternative route => "alternation `" ++ route ++ "` has an empty branch"
  | emptyOptional route => "optional group `" ++ route ++ "` is empty"
  | anonymousQueryParameter item => "query parameters need a name (in `" ++ item ++ "`)"

/-- Whether nothing but empty literals is there. -/
def showsNothing (nodes : List PathNode) : Bool := nodes.all (· = .literal "")

mutual

/-- Refuses the first group or branch with nothing in it, the outer before the inner ones. -/
def PathNode.checkFilled : PathNode → Except BuildError Unit
  | .literal _ => .ok ()
  | .parameter _ => .ok ()
  | .alternation left right =>
    if showsNothing left ∨ showsNothing right then
      .error (.emptyAlternative (PathNode.alternation left right).text)
    else do
      checkFilledPath left
      checkFilledPath right
  | .optional group =>
    if showsNothing group then .error (.emptyOptional (PathNode.optional group).text)
    else checkFilledPath group
  | .wildcard => .ok ()

def checkFilledPath : List PathNode → Except BuildError Unit
  | [] => .ok ()
  | node :: rest => do
    node.checkFilled
    checkFilledPath rest

end

/-- Refuses the first item with a parameter that has no name. -/
def checkNamed : List QueryItem → Except BuildError Unit
  | [] => .ok ()
  | item :: rest =>
    if item.parameters.any Parameter.isNameless then
      .error (.anonymousQueryParameter item.text)
    else checkNamed rest

/-- The route of nodes and items. -/
def Route.build (path : List PathNode) (query : List QueryItem) : Except BuildError Route := do
  checkFilledPath path
  checkNamed query
  return Route.of path query

def Expression.build (e : Expression) (query : List QueryItem) : Except BuildError Route :=
  Route.build e.nodes query

end DeepLink
