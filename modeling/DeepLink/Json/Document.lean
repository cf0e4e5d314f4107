import DeepLink.Decimal.Numeral
import DeepLink.Text

/-!
# JSON texts

A document is a JSON text taken apart but not yet understood: numerals and quoted texts stay spelled
out, and a record keeps all its members, repeated keys included. Parts that nobody looks at are
therefore only checked for their form.

Reading has two steps. `pieces?` cuts a text into brackets, commas, colons and atoms, character by
character. `ofPieces?` puts these together; it keeps the containers that are still open on a stack.
-/

namespace DeepLink.Json

open Decimal

/-- A character of a quoted text, or a sixteen bit unit given by its number. -/
inductive Glyph
  | char (c : Char)
  | unit (code : Nat)
  deriving DecidableEq

/-- A number as it is written. No digits after the point means that there is no point. -/
structure Spelling where
  negative : Bool
  whole : List Char
  fraction : List Char
  exponent? : Option Int
  deriving DecidableEq

inductive Document
  | null
  | bool (b : Bool)
  | number (n : Spelling)
  | text (glyphs : List Glyph)
  | list (items : List Document)
  | record (members : List (List Glyph × Document))

namespace Spelling

def readExponent? : List Char → Option Int
  | c :: rest =>
    if c = 'e' ∨ c = 'E' then
      let (negative, digits) := unsigned rest
      (natural? digits).map (applySign negative)
    else none
  | [] => none

/-- The digits before a point: no zero stands in front of others. -/
def isWhole : List Char → Bool
  | [] => false
  | ['0'] => true
  | c :: _ => c ≠ '0'

/-- A number: a minus sign or none, digits, a point with digits or none, an exponent or none. -/
def ofChars? (text : List Char) : Option Spelling :=
  let (negative, text) := match text with
    | '-' :: rest => (true, rest)
    | text => (false, text)
  let whole := text.takeWhile Char.isDigit
  let rest := text.dropWhile Char.isDigit
  let (pointed, fraction, rest) := match rest with
    | '.' :: rest => (true, rest.takeWhile Char.isDigit, rest.dropWhile Char.isDigit)
    | rest => (false, [], rest)
  if !isWhole whole || pointed && fraction.isEmpty then none
  else if rest = [] then some ⟨negative, whole, fraction, none⟩
  else (readExponent? rest).map fun e => ⟨negative, whole, fraction, some e⟩

end Spelling

/-- What a JSON text consists of, apart from spaces. -/
inductive Piece
  | openList | closeList | openRecord | closeRecord | comma | colon
  | atom (d : Document)

/-- What a word that is not quoted stands for. -/
def wordPiece? (word : List Char) : Option Piece :=
  match String.ofList word with
  | "null" => some (.atom .null)
  | "true" => some (.atom (.bool true))
  | "false" => some (.atom (.bool false))
  | _ => (Spelling.ofChars? word).map fun n => .atom (.number n)

def punctuation? : Char → Option Piece
  | '[' => some .openList
  | ']' => some .closeList
  | '\x7b' => some .openRecord
  | '\x7d' => some .closeRecord
  | ',' => some .comma
  | ':' => some .colon
  | _ => none

def isBlank (c : Char) : Bool := c == ' ' || c == '\n' || c == '\t' || c == '\r'

/-- Where the cutting of a text stands; what has been read of a word or a quoted text is kept last
first. -/
inductive Mode
  | between
  | word (read : List Char)
  | quoted (read : List Glyph)
  | escape (read : List Glyph)
  | hex (read : List Glyph) (missing code : Nat)

/-- What the letter after a backslash stands for. -/
def escaped? : Char → Option Char
  | '\x22' => some '\x22'
  | '\\' => some '\\'
  | '/' => some '/'
  | 'b' => some '\x08'
  | 'f' => some '\x0c'
  | 'n' => some '\n'
  | 'r' => some '\r'
  | 't' => some '\t'
  | _ => none

namespace Mode

/-- What a character outside words and quoted texts makes. -/
def start (c : Char) : List Piece × Mode :=
  if isBlank c then ([], between)
  else if c = '\x22' then ([], quoted [])
  else
    match punctuation? c with
    | some p => ([p], between)
    | none => ([], word [c])

/-- Whether a character ends a word. -/
def endsWord (c : Char) : Bool := isBlank c || c == '\x22' || (punctuation? c).isSome

/-- The pieces that one more character completes, and where the cutting stands then. -/
def step : Mode → Char → Option (List Piece × Mode)
  | between, c => some (start c)
  | word read, c =>
    if endsWord c then do
      let piece ← wordPiece? read.reverse
      let (pieces, next) := start c
      return (piece :: pieces, next)
    else some ([], word (c :: read))
  | quoted read, c =>
    if c = '\x22' then some ([.atom (.text read.reverse)], between)
    else if c = '\\' then some ([], escape read)
    else if c.toNat < 0x20 then none
    else some ([], quoted (.char c :: read))
  | escape read, c =>
    if c = 'u' then some ([], hex read 3 0)
    else (escaped? c).map fun d => ([], quoted (.char d :: read))
  | hex read missing code, c =>
    (Hex.ofChar? c).map fun digit =>
      match missing with
      | 0 => ([], quoted (.unit (16 * code + digit) :: read))
      | missing + 1 => ([], hex read missing (16 * code + digit))

/-- The pieces that the end of the text completes. -/
def finish : Mode → Option (List Piece)
  | between => some []
  | word read => (wordPiece? read.reverse).map ([·])
  | _ => none

end Mode

def piecesFrom (mode : Mode) : List Char → Option (List Piece)
  | [] => mode.finish
  | c :: rest => do
    let (pieces, next) ← mode.step c
    let more ← piecesFrom next rest
    return pieces ++ more

def pieces? (text : String) : Option (List Piece) := piecesFrom .between text.toList

/-- A container that is still open, with what it holds so far, the last first. A member whose value
is missing has its key apart. -/
inductive Frame
  | list (items : List Document)
  | record (members : List (List Glyph × Document))
  | member (members : List (List Glyph × Document)) (key : List Glyph)

/-- What may follow: anything a fresh container may start with or its end; a value or a key; a
colon; or, after a value, a comma or an end. -/
inductive Expected
  | first | next | colon | more
  deriving DecidableEq

/-- A JSON text read in part: the open containers from the innermost to the outermost, what may
follow, and the value if it is complete. -/
structure Reading where
  frames : List Frame
  expected : Expected
  value? : Option Document

namespace Reading

def start : Reading := ⟨[], .next, none⟩

/-- Puts a complete value or a key where one is expected. -/
def put (d : Document) : List Frame → Option Reading
  | [] => some ⟨[], .more, some d⟩
  | .list items :: outer => some ⟨.list (d :: items) :: outer, .more, none⟩
  | .member members key :: outer => some ⟨.record ((key, d) :: members) :: outer, .more, none⟩
  | .record members :: outer =>
    match d with
    | .text key => some ⟨.member members key :: outer, .colon, none⟩
    | _ => none

/-- Opens a container where a value is expected. -/
def openFrame (frame : Frame) : List Frame → Option Reading
  | .record _ :: _ => none
  | frames => some ⟨frame :: frames, .first, none⟩

def step (r : Reading) (p : Piece) : Option Reading :=
  match r.expected, p, r.frames with
  | .first, .atom d, frames => put d frames
  | .next, .atom d, frames => put d frames
  | .first, .openList, frames => openFrame (.list []) frames
  | .next, .openList, frames => openFrame (.list []) frames
  | .first, .openRecord, frames => openFrame (.record []) frames
  | .next, .openRecord, frames => openFrame (.record []) frames
  | .colon, .colon, frames => some ⟨frames, .next, none⟩
  | .more, .comma, .list items :: outer => some ⟨.list items :: outer, .next, none⟩
  | .more, .comma, .record members :: outer => some ⟨.record members :: outer, .next, none⟩
  | .first, .closeList, .list items :: outer => put (.list items.reverse) outer
  | .more, .closeList, .list items :: outer => put (.list items.reverse) outer
  | .first, .closeRecord, .record members :: outer => put (.record members.reverse) outer
  | .more, .closeRecord, .record members :: outer => put (.record members.reverse) outer
  | _, _, _ => none

end Reading

def readPieces (r : Reading) : List Piece → Option Document
  | [] => r.value?
  | p :: rest =>
    match r.step p with
    | some next => readPieces next rest
    | none => none

/-- Reads a JSON text. -/
def Document.ofText? (text : String) : Option Document :=
  (pieces? text).bind (readPieces .start)

mutual

/-- How deeply lists and records nest. -/
def Document.depth : Document → Nat
  | .list items => depthOfItems items + 1
  | .record members => depthOfMembers members + 1
  | _ => 0

def depthOfItems : List Document → Nat
  | [] => 0
  | item :: rest => max item.depth (depthOfItems rest)

def depthOfMembers : List (List Glyph × Document) → Nat
  | [] => 0
  | (_, value) :: rest => max value.depth (depthOfMembers rest)

end

end DeepLink.Json
