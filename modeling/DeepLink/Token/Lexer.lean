import DeepLink.Token

/-!
# From text to tokens

`lexemes` cuts a text into tokens and stray backslashes: those before a line feed or at the end,
which escape nothing. The sources of the tokens, put together, are the text without the stray
backslashes (`joinSources_lossy`), so in a text without any the place of a token is the size of what
stands before it.

`Token.ofTemplate?` refuses a text with a stray backslash; `Token.ofTemplateLossy` leaves the stray
backslashes out.
-/

namespace DeepLink

inductive Lexeme
  | token (t : Token)
  | stray
  deriving DecidableEq

namespace Lexeme

def source : Lexeme → String
  | token t => t.source
  | stray => "\\"

def token? : Lexeme → Option Token
  | token t => some t
  | stray => none

/-- Puts a plain character in front: it joins the run of plain characters that follows it. -/
def pushPlain (c : Char) : List Lexeme → List Lexeme
  | token (.text s) :: rest => token (.text (String.singleton c ++ s)) :: rest
  | rest => token (.text (String.singleton c)) :: rest

end Lexeme

def lexemes : List Char → List Lexeme
  | [] => []
  | ['\\'] => [.stray]
  | '\\' :: c :: rest =>
    if c = '\n' then .stray :: Lexeme.pushPlain c (lexemes rest)
    else .token (.escaped c) :: lexemes rest
  | c :: rest =>
    match Mark.ofChar? c with
    | some m => .token (.mark m) :: lexemes rest
    | none => Lexeme.pushPlain c (lexemes rest)

/-- A range of bytes. -/
structure Span where
  start : Nat
  stop : Nat
  deriving DecidableEq

/-- What stands in a text there. -/
def Span.slice (s : Span) (text : String) : String :=
  String.Pos.Raw.extract text ⟨s.start⟩ ⟨s.stop⟩

namespace Token

/-- The tokens, or the place of the first stray backslash; `offset` is where the lexemes start. -/
def ofLexemes? (offset : Nat) : List Lexeme → Except Span (List Token)
  | [] => .ok []
  | .stray :: _ => .error ⟨offset, offset + 1⟩
  | .token t :: rest => (ofLexemes? (offset + t.size) rest).map (t :: ·)

/-- The tokens of a template, or the place of its first stray backslash. -/
def ofTemplate? (template : String) : Except Span (List Token) :=
  ofLexemes? 0 (lexemes template.toList)

/-- The tokens of a template without its stray backslashes. -/
def ofTemplateLossy (template : String) : List Token :=
  (lexemes template.toList).filterMap Lexeme.token?

/-- The tokens with the bytes they take up, the first one starting at `offset`. -/
def withSpans (offset : Nat) : List Token → List (Token × Span)
  | [] => []
  | t :: rest => (t, ⟨offset, offset + t.size⟩) :: withSpans (offset + t.size) rest

/-- The number of bytes that consecutive tokens take up. -/
def totalSize : List Token → Nat
  | [] => 0
  | t :: rest => t.size + totalSize rest

end Token

end DeepLink
