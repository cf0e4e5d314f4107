/-!
# Template tokens

Ten characters structure a route template: nine marks, and the backslash, which takes the meaning
away from the character after it. A token is a mark, an escaped character or a run of plain
characters.

A token has two texts: its source, as it stands in a template, and its literal text, what it stands
for inside a literal or a name. `escape` turns a text into a source with that literal text.
-/

namespace DeepLink

/-- The characters that structure a template. -/
inductive Mark
  | slash | pipe | openParen | closeParen | question | ampersand | colon | equals | star
  deriving DecidableEq

namespace Mark

def char : Mark → Char
  | slash => '/'
  | pipe => '|'
  | openParen => '('
  | closeParen => ')'
  | question => '?'
  | ampersand => '&'
  | colon => ':'
  | equals => '='
  | star => '*'

def ofChar? : Char → Option Mark
  | '/' => some slash
  | '|' => some pipe
  | '(' => some openParen
  | ')' => some closeParen
  | '?' => some question
  | '&' => some ampersand
  | ':' => some colon
  | '=' => some equals
  | '*' => some star
  | _ => none

@[simp] theorem ofChar?_char (m : Mark) : ofChar? m.char = some m := by cases m <;> rfl

theorem char_eq_of_ofChar? {c : Char} {m : Mark} (h : ofChar? c = some m) : m.char = c := by
  unfold ofChar? at h
  split at h
  case h_1 | h_2 | h_3 | h_4 | h_5 | h_6 | h_7 | h_8 | h_9 =>
    obtain rfl := Option.some.inj h
    rfl
  case h_10 => cases h

theorem ofChar?_eq_some_iff {c : Char} {m : Mark} : ofChar? c = some m ↔ c = m.char :=
  ⟨fun h => (char_eq_of_ofChar? h).symm, fun h => h ▸ ofChar?_char m⟩

end Mark

/-- Whether a character has a meaning of its own in a template. -/
def isReserved (c : Char) : Bool := c == '\\' || (Mark.ofChar? c).isSome

/-- A character as a template spells it. -/
def escapeChar (c : Char) : List Char := if isReserved c then ['\\', c] else [c]

/-- A text as a template spells it: every reserved character gets a backslash. -/
def escape (text : String) : String := String.ofList (text.toList.flatMap escapeChar)

@[simp] theorem toList_escape (text : String) :
    (escape text).toList = text.toList.flatMap escapeChar := by simp [escape]

inductive Token
  | mark (m : Mark)
  | escaped (c : Char)
  | text (s : String)
  deriving DecidableEq

namespace Token

/-- The token as it stands in a template. -/
def source : Token → String
  | mark m => String.singleton m.char
  | escaped c => String.ofList ['\\', c]
  | text s => s

/-- The text a token stands for in a literal or a name. -/
def literal : Token → String
  | mark m => String.singleton m.char
  | escaped c => String.singleton c
  | text s => s

/-- Whether the token stands for text rather than for structure. -/
def isText : Token → Bool
  | mark _ => false
  | escaped _ => true
  | text _ => true

def isParen : Token → Bool
  | mark .openParen => true
  | mark .closeParen => true
  | _ => false

/-- The number of bytes of the source. -/
def size (t : Token) : Nat := t.source.utf8ByteSize

end Token

/-- The source of consecutive tokens. -/
def joinSources : List Token → String
  | [] => ""
  | t :: rest => t.source ++ joinSources rest

/-- The literal text of consecutive tokens. -/
def joinLiterals : List Token → String
  | [] => ""
  | t :: rest => t.literal ++ joinLiterals rest

@[simp] theorem joinSources_append (a b : List Token) :
    joinSources (a ++ b) = joinSources a ++ joinSources b := by
  induction a with
  | nil => simp [joinSources]
  | cons t a ih => simp [joinSources, ih, String.append_assoc]

@[simp] theorem joinLiterals_append (a b : List Token) :
    joinLiterals (a ++ b) = joinLiterals a ++ joinLiterals b := by
  induction a with
  | nil => simp [joinLiterals]
  | cons t a ih => simp [joinLiterals, ih, String.append_assoc]

end DeepLink
