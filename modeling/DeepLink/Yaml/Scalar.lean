import DeepLink.Text
import DeepLink.Yaml.Spot

/-!
# Scalars of YAML in one flow

Plain scalars and scalars between quotes. Inside them a single line end counts as a space, several
as one less; spaces around line ends do not count. A line or paragraph separator counts itself.
-/

namespace DeepLink.Yaml

/-- Spaces and line ends that have been read, and do not count before something follows them: the
spaces if there is no line end, else the first line end and those after it; all lists have the last
character first. After an escaped line end there is no first one. -/
structure Gap where
  spaces : List Char
  first? : Option Char
  more : List Char
  escaped : Bool

namespace Gap

def none : Gap := ⟨[], .none, [], false⟩

def hasBreak (g : Gap) : Bool := g.first?.isSome || g.escaped

def isNone (g : Gap) : Bool := g.spaces.isEmpty && !g.hasBreak

/-- The gap with one more space or line end. -/
def push (g : Gap) (c : Char) : Gap :=
  if isBreak c then
    if g.hasBreak then { g with more := c :: g.more }
    else { g with spaces := [], first? := some c }
  else if g.hasBreak then g
  else { g with spaces := c :: g.spaces }

/-- What a gap counts for, last character first. -/
def chars (g : Gap) : List Char :=
  match g.first? with
  | .none => if g.escaped then g.more else g.spaces
  | some '\n' => if g.more = [] then [' '] else g.more
  | some c => g.more ++ [c]

end Gap

/-- A scalar that has been read: its text, whether it has line ends after it, and the rest. -/
structure ScalarRead where
  text : List Char
  lineEnd : Bool
  rest : List Spot

def isFlowMark (c : Char) : Bool :=
  c == ',' || c == '[' || c == ']' || c == '\x7b' || c == '\x7d'

/-- Reads a plain scalar. It ends at a colon with a space after it, at a comment, at a line that is
indented too little, and between brackets also at a bracket or a comma. A tab may not stand for
indentation. `read` has the last character first. -/
def readPlain? (inFlow : Bool) (indent : Nat) (read : List Char) (gap : Gap) :
    List Spot → Option ScalarRead
  | [] => some ⟨read.reverse, gap.hasBreak, []⟩
  | s :: rest =>
    if s.char = '\t' ∧ gap.hasBreak ∧ s.column < indent then none
    else if isSpace s.char then readPlain? inFlow indent read (gap.push s.char) rest
    else if gap.hasBreak ∧ !inFlow ∧ s.column < indent ∨ endsDocument (s :: rest) ∨
        s.char = '#' ∧ !gap.isNone ∨ s.char = ':' ∧ spaceNext rest ∨ inFlow ∧ isFlowMark s.char then
      some ⟨read.reverse, gap.hasBreak, s :: rest⟩
    else if inFlow ∧ s.char = ':' ∧
        rest.head?.any (fun n => isFlowMark n.char || n.char == '?') then none
    else readPlain? inFlow indent (s.char :: (gap.chars ++ read)) .none rest

/-- Reads a scalar in single quotes after the first one. Two quotes stand for one. -/
def readSingle? (read : List Char) (gap : Gap) : List Spot → Option ScalarRead
  | [] => none
  | [s] => if s.char = '\x27' then some ⟨(gap.chars ++ read).reverse, false, []⟩ else none
  | s :: next :: rest =>
    if endsDocument (s :: next :: rest) then none
    else if isSpace s.char then readSingle? read (gap.push s.char) (next :: rest)
    else if s.char = '\x27' then
      if next.char = '\x27' then readSingle? ('\x27' :: (gap.chars ++ read)) .none rest
      else some ⟨(gap.chars ++ read).reverse, false, next :: rest⟩
    else readSingle? (s.char :: (gap.chars ++ read)) .none (next :: rest)

/-- What the letter after a backslash stands for. -/
def escaped? : Char → Option Char
  | '0' => some '\x00'
  | 'a' => some '\x07'
  | 'b' => some '\x08'
  | 't' => some '\t'
  | '\t' => some '\t'
  | 'n' => some '\n'
  | 'v' => some '\x0b'
  | 'f' => some '\x0c'
  | 'r' => some '\r'
  | 'e' => some '\x1b'
  | ' ' => some ' '
  | '\x22' => some '\x22'
  | '/' => some '/'
  | '\\' => some '\\'
  | 'N' => some '\u0085'
  | '_' => some '\u00a0'
  | 'L' => some '\u2028'
  | 'P' => some '\u2029'
  | _ => none

/-- How many hexadecimal digits follow a letter after a backslash. -/
def hexLength? : Char → Option Nat
  | 'x' => some 2
  | 'u' => some 4
  | 'U' => some 8
  | _ => none

def charOf? (code : Nat) : Option Char :=
  if code.isValidChar then some (Char.ofNat code) else none

/-- Where the reading of double quotes stands: in the text, after a backslash, or in the digits of a
character. -/
inductive DoubleMode
  | text (gap : Gap)
  | escape
  | hex (missing code : Nat)

/-- Reads a scalar in double quotes after the first one. -/
def readDouble? (read : List Char) (mode : DoubleMode) : List Spot → Option ScalarRead
  | [] => none
  | s :: rest =>
    match mode with
    | .text gap =>
      if endsDocument (s :: rest) then none
      else if isSpace s.char then readDouble? read (.text (gap.push s.char)) rest
      else if s.char = '\x22' then some ⟨(gap.chars ++ read).reverse, false, rest⟩
      else if s.char = '\\' then readDouble? (gap.chars ++ read) .escape rest
      else readDouble? (s.char :: (gap.chars ++ read)) (.text .none) rest
    | .escape =>
      if isBreak s.char then readDouble? read (.text ⟨[], none, [], true⟩) rest
      else
        match hexLength? s.char, escaped? s.char with
        | some n, _ => readDouble? read (.hex n 0) rest
        | none, some c => readDouble? (c :: read) (.text .none) rest
        | none, none => none
    | .hex missing code =>
      match Hex.ofChar? s.char with
      | none => none
      | some digit =>
        if missing ≤ 1 then
          match charOf? (16 * code + digit) with
          | some c => readDouble? (c :: read) (.text .none) rest
          | none => none
        else readDouble? read (.hex (missing - 1) (16 * code + digit)) rest

end DeepLink.Yaml
