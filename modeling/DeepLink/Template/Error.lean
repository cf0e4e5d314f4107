import DeepLink.Decimal.Numeral
import DeepLink.Token.Groups
import DeepLink.Token.Lexer

/-!
# Why a template is refused

Offsets count the bytes of the template. The text of a component or of a query item is its source,
and a snippet is a piece of the template.
-/

namespace DeepLink

/-- Why a parameter or a query item is refused: a token that cannot stand where it does, if any
token is left there, or a word that names no kind. -/
inductive ItemFault
  | unexpected (found : Option Token)
  | unknownKind (keyword : String)
  deriving DecidableEq

def ItemFault.message : ItemFault → String
  | unexpected (some t) => "unexpected `" ++ t.source ++ "`"
  | unexpected none => "unexpected end of input"
  | unknownKind keyword => "unknown parameter type `" ++ keyword ++ "`"

inductive TemplateError
  | unexpectedCharacter (offset : Nat) (snippet : String)
  | group (fault : GroupFault)
  | emptyAlternative (component : String)
  | emptyGroup (component : String)
  | misplacedGroup (component : String)
  | invalidParameter (component : String) (fault : ItemFault)
  | emptyQueryItem (offset : Nat)
  | invalidQueryItem (item : String) (fault : ItemFault)
  deriving DecidableEq

open Decimal (natText) in
def TemplateError.message : TemplateError → String
  | unexpectedCharacter offset snippet =>
    "unexpected character at offset " ++ natText offset ++ ": `" ++ snippet ++ "`"
  | group (.unbalanced offset) => "unbalanced parenthesis at offset " ++ natText offset
  | group (.tooDeep offset) => "parentheses nested too deeply at offset " ++ natText offset
  | emptyAlternative component => "empty alternation branch in `" ++ component ++ "`"
  | emptyGroup component => "empty group in `" ++ component ++ "`"
  | misplacedGroup component =>
    "misplaced parenthesis in path component `" ++ component ++ "`"
  | invalidParameter component fault =>
    "invalid parameter `" ++ component ++ "`: " ++ fault.message
  | emptyQueryItem offset => "empty query item at offset " ++ natText offset
  | invalidQueryItem item fault => "invalid query item `" ++ item ++ "`: " ++ fault.message

/-- The error at a place of a template where no token stands. -/
def TemplateError.unexpectedAt (template : String) (s : Span) : TemplateError :=
  .unexpectedCharacter s.start (s.slice template)

end DeepLink
