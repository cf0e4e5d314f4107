import DeepLink.Template.Item
import DeepLink.Template.Node

/-!
# Route templates

The first question mark divides a template into a path and a query. Faults are looked for in this
order: stray backslashes, the parentheses of the path, those of the query, the path, the query items
from left to right.
-/

namespace DeepLink

namespace Template

/-- The tokens before the first question mark, and those after it if there is one. -/
def cutQuery : List Token → List Token × Option (List Token)
  | [] => ([], none)
  | t :: rest =>
    if t = .mark .question then ([], some rest)
    else
      let (path, query) := cutQuery rest
      (t :: path, query)

/-- The items of a query that starts at `offset`. -/
def readItems (offset : Nat) : List (List Token) → Except TemplateError (List QueryItem)
  | [] => .ok []
  | part :: parts =>
    if part = [] then .error (.emptyQueryItem offset)
    else
      match readItem part with
      | .error fault => .error (.invalidQueryItem (joinSources part) fault)
      | .ok item => (readItems (offset + Token.totalSize part + 1) parts).map (item :: ·)

/-- The items between the ampersands; a query without tokens has none. -/
def readQuery (offset : Nat) : List Token → Except TemplateError (List QueryItem)
  | [] => .ok []
  | tokens => readItems offset (splitOutside (.mark .ampersand) tokens)

/-- The byte offset after the path and the question mark. -/
def queryOffset (path : List Token) : Nat := Token.totalSize path + 1

def checkParens (offset : Nat) (tokens : List Token) : Except TemplateError Unit :=
  (checkGroups offset tokens).mapError .group

/-- The route of a template's tokens. -/
def readTokens (tokens : List Token) : Except TemplateError Route := do
  let (path, rest) := cutQuery tokens
  let query := rest.getD []
  checkParens 0 path
  checkParens (queryOffset path) query
  let nodes ← readPath path
  let items ← readQuery (queryOffset path) query
  return Route.of nodes items

end Template

/-- Reads a template. -/
def Route.ofTemplate? (template : String) : Except TemplateError Route :=
  match Token.ofTemplate? template with
  | .error span => .error (.unexpectedAt template span)
  | .ok tokens => Template.readTokens tokens

end DeepLink
