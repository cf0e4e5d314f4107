import DeepLink.Json
import DeepLink.Yaml.Plain
import DeepLink.Yaml.Spot

/-!
# Values written as YAML

Lists and records are written as blocks, two spaces deeper at each level; a list as a member of a
record is not indented. A text stands as it is if it then reads as the same text. Otherwise it is
quoted, with double quotes only where single ones cannot be; a text of several lines is a block of
its own where that is possible. In single quotes and in blocks the lines after a line or paragraph
separator are indented too.
-/

namespace DeepLink.Yaml

/-! ## Which texts stand as they are -/

/-- The characters that are shown as they are. -/
def isShown (c : Char) : Bool :=
  let n := c.toNat
  n == 0x0A || (0x20 ≤ n && n ≤ 0x7E) || (0xA0 ≤ n && n ≤ 0xFFFD && n != 0xFEFF) || 0x10000 ≤ n

/-- Whether a space, a line end or the end of the text comes next. -/
def endsWord : List Char → Bool
  | [] => true
  | c :: _ => isSpace c

/-- Whether the first character makes something else of a text than a scalar. -/
def startsOtherwise : List Char → Bool
  | [] => false
  | c :: rest =>
    "#,[]&*!|>%@\x7b\x7d\x22\x27\x60".contains c ||
      (c == '?' || c == ':' || c == '-') && endsWord rest ||
      "---".toList.isPrefixOf (c :: rest) || "...".toList.isPrefixOf (c :: rest)

/-- Whether a colon before a space or a hash after one breaks a text; `before` tells of a space. -/
def breaksUp (before : Bool) : List Char → Bool
  | [] => false
  | c :: rest =>
    c == ':' && endsWord rest || c == '#' && before || breaksUp (isSpace c) rest

/-- Whether a character of one kind stands right before one of another kind. -/
def hasPair (p q : Char → Bool) : List Char → Bool
  | c :: d :: rest => p c && q d || hasPair p q (d :: rest)
  | _ => false

def isGap (c : Char) : Bool := c == ' '

/-- Whether a text is shown as a scalar of its own without quotes. -/
def standsAlone (text : List Char) : Bool :=
  !startsOtherwise text && !breaksUp true text && !text.head?.any isGap &&
    !text.getLast?.any isGap && text.all isShown && !text.any isBreak

/-- Whether a text can stand in single quotes: all of it is shown, and there is no space beside a
line end. -/
def fitsQuotes (text : List Char) : Bool :=
  text.all isShown && !hasPair isGap isBreak text && !hasPair isBreak isGap text

/-- Whether a text can be a block: all of it is shown, and no line ends with a space. -/
def fitsBlock (text : List Char) : Bool :=
  text.all isShown && !hasPair isGap isBreak text && !text.getLast?.any isGap

/-! ## Scalars -/

/-- A line and the line end after it. -/
structure Line where
  text : String
  lineEnd : Char

def Line.plain (text : String) : Line := ⟨text, '\n'⟩

/-- The lines of a text, each with its line end; the last one has none. -/
def linesOf : List Char → List (List Char × Option Char)
  | [] => [([], none)]
  | c :: rest =>
    if isBreak c then ([], some c) :: linesOf rest
    else
      match linesOf rest with
      | [] => [([c], none)]
      | (line, lineEnd) :: lines => (c :: line, lineEnd) :: lines

def toLine (line : List Char × Option Char) : Line :=
  ⟨String.ofList line.1, line.2.getD '\n'⟩

/-- The lines of a text in single quotes, which are written twice in it. -/
def quoteSingle (text : List Char) : List Line :=
  let doubled := text.flatMap fun c => if c = '\x27' then [c, c] else [c]
  (linesOf ('\x27' :: (doubled ++ ['\x27']))).map toLine

def upperHex (width n : Nat) : List Char :=
  let digits := (Nat.toDigits 16 n).map Char.toUpper
  List.replicate (width - digits.length) '0' ++ digits

/-- A character between double quotes. -/
def escapeDouble (c : Char) : List Char :=
  if isShown c ∧ !isBreak c ∧ c ≠ '\x22' ∧ c ≠ '\\' then [c]
  else
    match c with
    | '\x00' => ['\\', '0']
    | '\x07' => ['\\', 'a']
    | '\x08' => ['\\', 'b']
    | '\t' => ['\\', 't']
    | '\n' => ['\\', 'n']
    | '\x0b' => ['\\', 'v']
    | '\x0c' => ['\\', 'f']
    | '\r' => ['\\', 'r']
    | '\x1b' => ['\\', 'e']
    | '\x22' => ['\\', '\x22']
    | '\\' => ['\\', '\\']
    | '\u0085' => ['\\', 'N']
    | '\u2028' => ['\\', 'L']
    | '\u2029' => ['\\', 'P']
    | other =>
      if other.toNat ≤ 0xFF then '\\' :: 'x' :: upperHex 2 other.toNat
      else '\\' :: 'u' :: upperHex 4 other.toNat

def quoteDouble (text : List Char) : String :=
  String.ofList ('\x22' :: text.flatMap escapeDouble ++ ['\x22'])

/-- How a block starts: a two if its first line looks indented, a sign for its line ends. -/
def blockHeader (text : List Char) : String :=
  let hint := if text.head? = some ' ' ∨ text.head?.any isBreak then "2" else ""
  let ending :=
    match text.reverse with
    | last :: before =>
      if !isBreak last then "-" else if before.head?.all isBreak then "+" else ""
    | [] => "-"
  "|" ++ hint ++ ending

/-- The lines of a text that is a block: its header, and all lines but an empty one at its end. -/
def blockLines (text : List Char) : List Line :=
  .plain (blockHeader text) :: ((linesOf text).filter (· ≠ ([], none))).map toLine

/-- The lines of a text as a scalar. -/
def scalarLines (text : String) : List Line :=
  let chars := text.toList
  let isTaken := text == "" || isNullWord text || isTruthWord text || isNumeric text
  if chars.contains '\n' ∧ fitsBlock chars then blockLines chars
  else if standsAlone chars ∧ !isTaken then [.plain text]
  else if !chars.contains '\n' ∧ fitsQuotes chars then quoteSingle chars
  else [.plain (quoteDouble chars)]

/-! ## Lists and records -/

def indentLine (line : Line) : Line :=
  if line.text = "" then line else { line with text := "  " ++ line.text }

/-- Puts something in front of the first line and indents the others. -/
def hang (lead : String) : List Line → List Line
  | [] => [.plain lead]
  | first :: rest => { first with text := lead ++ first.text } :: rest.map indentLine

/-- A member of a record whose value has these lines. -/
def memberLines (key : String) (value : Json) (lines : List Line) : List Line :=
  match value with
  | .list (_ :: _) => .plain (key ++ ":") :: lines
  | .record (_ :: _) => .plain (key ++ ":") :: lines.map indentLine
  | _ => hang (key ++ ": ") lines

mutual

def valueLines : Json → List Line
  | .text s => scalarLines s
  | .list (first :: rest) => itemsLines (first :: rest)
  | .record (first :: rest) => membersLines (first :: rest)
  | other => [.plain other.compact]

def itemsLines : List Json → List Line
  | [] => []
  | item :: rest => hang "- " (valueLines item) ++ itemsLines rest

def membersLines : List (String × Json) → List Line
  | [] => []
  | (key, value) :: rest => memberLines key value (valueLines value) ++ membersLines rest

end

/-- The value as a YAML text, each line with its end. -/
def print (value : Json) : String :=
  String.join ((valueLines value).map fun line => line.text.push line.lineEnd)

end DeepLink.Yaml
