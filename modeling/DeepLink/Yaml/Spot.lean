/-!
# Places in a YAML text

The characters of a text with the line and column where they stand. A carriage return, alone or with
a line feed, and a next line are line ends like a line feed. Line and paragraph separators end lines
too, but they keep what they are.
-/

namespace DeepLink.Yaml

/-- A character with its place. -/
structure Spot where
  char : Char
  line : Nat
  column : Nat

def isBreak (c : Char) : Bool := c == '\n' || c == '\u2028' || c == '\u2029'

def isBlank (c : Char) : Bool := c == ' ' || c == '\t'

def isSpace (c : Char) : Bool := isBlank c || isBreak c

/-- The character that a line end counts as. -/
def lineEnd (c : Char) : Char := if c = '\r' ∨ c = '\u0085' then '\n' else c

/-- The characters of a text with their places. -/
def spotsFrom (line column : Nat) : List Char → List Spot
  | [] => []
  | ['\r'] => [⟨'\n', line, column⟩]
  | '\r' :: '\n' :: rest => ⟨'\n', line, column⟩ :: spotsFrom (line + 1) 0 rest
  | c :: rest =>
    ⟨lineEnd c, line, column⟩ ::
      if isBreak (lineEnd c) then spotsFrom (line + 1) 0 rest else spotsFrom line (column + 1) rest

/-- The characters that may stand in a YAML text. -/
def isAllowed (c : Char) : Bool :=
  let n := c.toNat
  n == 0x09 || n == 0x0A || n == 0x0D || (0x20 ≤ n && n ≤ 0x7E) || n == 0x85 ||
    (0xA0 ≤ n && n ≤ 0xFFFD) || 0x10000 ≤ n

def spots? (text : String) : Option (List Spot) :=
  if text.toList.all isAllowed then some (spotsFrom 0 0 text.toList) else none

/-- Whether a space, a line end or the end of the text comes next. -/
def spaceNext : List Spot → Bool
  | [] => true
  | s :: _ => isSpace s.char

/-- Whether a line end or the end of the text comes next. -/
def breakNext : List Spot → Bool
  | [] => true
  | s :: _ => isBreak s.char

/-- The text from the end of the line on, if nothing but blanks and a comment comes before it. -/
def toLineEnd? (text : List Spot) : Option (List Spot) :=
  let text := text.dropWhile (isBlank ·.char)
  let text := if text.head?.any (·.char == '#') then text.dropWhile (!isBreak ·.char) else text
  if breakNext text then some text else none

/-- Whether three equal characters at the start of a line are all that stands there. -/
def isBoundary (c : Char) : List Spot → Bool
  | a :: b :: d :: rest =>
    a.column == 0 && a.char == c && b.char == c && d.char == c && spaceNext rest
  | _ => false

/-- Whether a document starts or ends here. -/
def endsDocument (text : List Spot) : Bool := isBoundary '-' text || isBoundary '.' text

end DeepLink.Yaml
