import DeepLink.Yaml.Block
import DeepLink.Yaml.Property
import DeepLink.Yaml.Scalar

/-!
# Pieces of a YAML text

A YAML text is cut into scalars, properties and the marks around them. Lists and records come as
blocks, told by indentation, or between brackets; for a block, pieces that open and close it are put
in.

What stands before a colon is a key, and only the colon tells: where a key may start, the place is
kept in mind, and the piece that announces the key is put in there later. Such a key has to stay on
its line and within 1024 characters. In a block that has the indentation of what starts there, it
cannot be anything but a key.
-/

namespace DeepLink.Yaml

inductive Piece
  | openRecord | openList | close
  | entry | key | colon
  | openFlowRecord | openFlowList | closeFlowRecord | closeFlowList | comma
  | anchor (name : String)
  | reference (name : String)
  | tag (tag : Tag)
  | scalar (plain : Bool) (text : String)
  | directive (directive : Directive)
  | document
  | documentEnd

/-- A place where a key may have started: line and column, how many pieces come before it, and
whether it has to be a key. -/
structure KeyStart where
  line : Nat
  column : Nat
  before : Nat
  required : Bool

/-- Whether what started as a key can no longer be one at a place. -/
def KeyStart.isOver (k : KeyStart) (s : Spot) : Bool :=
  k.line < s.line || k.column + 1024 < s.column

/-- How far a text has been cut: the rest; the pieces, the last first, and their number; the columns
of the open blocks from the innermost to the outermost; whether a key may start here; and where one
may have started, between the innermost brackets and outside of them. -/
structure Cursor where
  rest : List Spot
  made : List Piece
  count : Nat
  blocks : List Nat
  keyAllowed : Bool
  key? : Option KeyStart
  outer : List (Option KeyStart)

namespace Cursor

def inFlow (c : Cursor) : Bool := !c.outer.isEmpty

def emit (c : Cursor) (piece : Piece) : Cursor :=
  { c with made := piece :: c.made, count := c.count + 1 }

/-! ## Spaces and indentation -/

/-- Passes over spaces, comments and line ends, and over a byte order mark at the start of a line.
After a line end outside brackets a key may start; where one may, there is no tab. -/
def skipFrom (inFlow keyAllowed comment : Bool) : List Spot → Bool × List Spot
  | [] => (keyAllowed, [])
  | s :: rest =>
    if isBreak s.char then skipFrom inFlow (keyAllowed || !inFlow) false rest
    else if comment ∨ s.char = ' ' ∨ s.char = '\t' ∧ (inFlow ∨ !keyAllowed) ∨
        s.char = '\ufeff' ∧ s.column = 0 then
      skipFrom inFlow keyAllowed comment rest
    else if s.char = '#' then skipFrom inFlow keyAllowed true rest
    else (keyAllowed, s :: rest)

def skip (c : Cursor) : Cursor :=
  let (keyAllowed, rest) := skipFrom c.inFlow c.keyAllowed false c.rest
  { c with rest, keyAllowed }

/-- Closes the blocks that are indented more than a column. -/
def closeDeeper (column : Nat) (c : Cursor) : Cursor :=
  if c.inFlow then c
  else
    let inner := c.blocks.takeWhile (column < ·)
    { inner.foldl (fun c _ => c.emit .close) c with blocks := c.blocks.drop inner.length }

def closeAll (c : Cursor) : Cursor :=
  if c.inFlow then c else { c.blocks.foldl (fun c _ => c.emit .close) c with blocks := [] }

/-- Whether a block that starts at a column is inside the open ones. -/
def isDeeper (c : Cursor) (column : Nat) : Bool := !c.inFlow && c.blocks.head?.all (· < column)

/-- Opens a block at a column, unless one is open there. -/
def openBlock (c : Cursor) (column : Nat) (piece : Piece) : Cursor :=
  if c.isDeeper column then { c.emit piece with blocks := column :: c.blocks } else c

/-- The indentation that a continued scalar needs. -/
def indent (c : Cursor) : Nat :=
  match c.blocks with
  | [] => 0
  | column :: _ => column + 1

/-! ## Keys -/

/-- Gives up the key that may have started, unless there has to be one. -/
def dropKey? (c : Cursor) : Option Cursor :=
  if c.key?.any (·.required) then none else some { c with key? := none }

/-- Keeps in mind that a key may start here. -/
def startKey? (c : Cursor) (s : Spot) : Option Cursor :=
  if c.keyAllowed then
    c.dropKey?.map fun c =>
      let required := !c.inFlow && c.blocks.head? == some s.column
      { c with key? := some ⟨s.line, s.column, c.count, required⟩ }
  else some c

/-- Gives up all keys that can no longer be one. -/
def expireKeys? (c : Cursor) (s : Spot) : Option Cursor :=
  let isGone (key? : Option KeyStart) : Bool := key?.any (KeyStart.isOver · s)
  if (c.key? :: c.outer).any fun key? => isGone key? && key?.any (·.required) then none
  else
    some { c with
      key? := if isGone c.key? then none else c.key?
      outer := c.outer.map fun key? => if isGone key? then none else key? }

/-- Puts in the piece that announces a key where it started, in a new block if need be. -/
def announceKey (c : Cursor) (k : KeyStart) : Cursor :=
  let deeper := c.isDeeper k.column
  let put := if deeper then [Piece.key, .openRecord] else [Piece.key]
  let since := c.count - k.before
  { c with
    made := c.made.take since ++ (put ++ c.made.drop since)
    count := c.count + put.length
    blocks := if deeper then k.column :: c.blocks else c.blocks
    key? := none }

/-! ## What starts at a place -/

/-- What a plain scalar cannot start with. -/
def isIndicator (c : Char) : Bool := "-?:,[]\x7b\x7d#&*!|>\x27\x22%@\x60".contains c

/-- Whether a plain scalar starts here: some indicators may, with no space after them. -/
def startsPlain (inFlow : Bool) (s : Spot) (rest : List Spot) : Bool :=
  !isIndicator s.char && !isSpace s.char || s.char == '-' && !spaceNext rest ||
    !inFlow && (s.char == '?' || s.char == ':') && !spaceNext rest

/-- The start or the end of a document. -/
def boundary? (c : Cursor) (piece : Piece) (rest : List Spot) : Option Cursor :=
  c.closeAll.dropKey?.map fun c => { c.emit piece with rest := rest.drop 2, keyAllowed := false }

def directive? (c : Cursor) (rest : List Spot) : Option Cursor := do
  let c ← c.closeAll.dropKey?
  let (directive, rest) ← readDirective? rest
  return { c.emit (.directive directive) with rest, keyAllowed := false }

def openBracket? (c : Cursor) (piece : Piece) (s : Spot) (rest : List Spot) : Option Cursor :=
  (c.startKey? s).map fun c =>
    { c.emit piece with rest, keyAllowed := true, key? := none, outer := c.key? :: c.outer }

def closeBracket? (c : Cursor) (piece : Piece) (rest : List Spot) : Option Cursor :=
  c.dropKey?.map fun c =>
    let c := { c.emit piece with rest, keyAllowed := false }
    match c.outer with
    | [] => c
    | key? :: outer => { c with key?, outer }

def comma? (c : Cursor) (rest : List Spot) : Option Cursor :=
  c.dropKey?.map fun c => { c.emit .comma with rest, keyAllowed := true }

/-- A dash. Between brackets it is none of what may stand there. -/
def entry? (c : Cursor) (s : Spot) (rest : List Spot) : Option Cursor :=
  if c.inFlow ∨ !c.keyAllowed then none
  else
    (c.openBlock s.column .openList).dropKey?.map fun c =>
      { c.emit .entry with rest, keyAllowed := true }

/-- A question mark. -/
def explicitKey? (c : Cursor) (s : Spot) (rest : List Spot) : Option Cursor :=
  if !c.inFlow ∧ !c.keyAllowed then none
  else
    (c.openBlock s.column .openRecord).dropKey?.map fun c =>
      { c.emit .key with rest, keyAllowed := !c.inFlow }

def colon? (c : Cursor) (s : Spot) (rest : List Spot) : Option Cursor :=
  match c.key? with
  | some k => some { (c.announceKey k).emit .colon with rest, keyAllowed := false }
  | none =>
    if !c.inFlow ∧ !c.keyAllowed then none
    else
      some { (c.openBlock s.column .openRecord).emit .colon with rest, keyAllowed := !c.inFlow }

/-- A piece that may be a key or the start of one. -/
def keyPiece? (c : Cursor) (s : Spot) (piece : Piece) (rest : List Spot) : Option Cursor :=
  (c.startKey? s).map fun c => { c.emit piece with rest, keyAllowed := false }

/-- A scalar. After a plain one that ended with its line a key may start. -/
def scalar? (c : Cursor) (s : Spot) (plain : Bool) (read : ScalarRead) : Option Cursor :=
  (c.keyPiece? s (.scalar plain (String.ofList read.text)) read.rest).map fun c =>
    { c with keyAllowed := read.lineEnd }

def block? (c : Cursor) (folded : Bool) (rest : List Spot) : Option Cursor := do
  let c ← c.dropKey?
  let (text, rest) ← readBlock? folded c.blocks.head? rest
  return { c.emit (.scalar false (String.ofList text)) with rest, keyAllowed := true }

/-- Cuts off what starts here, after spaces have been passed over and blocks closed. -/
def next? (c : Cursor) (s : Spot) (rest : List Spot) : Option Cursor :=
  if s.column = 0 ∧ s.char = '%' then c.directive? rest
  else if isBoundary '-' (s :: rest) then c.boundary? .document rest
  else if isBoundary '.' (s :: rest) then c.boundary? .documentEnd rest
  else if s.char = '[' then c.openBracket? .openFlowList s rest
  else if s.char = '\x7b' then c.openBracket? .openFlowRecord s rest
  else if s.char = ']' then c.closeBracket? .closeFlowList rest
  else if s.char = '\x7d' then c.closeBracket? .closeFlowRecord rest
  else if s.char = ',' then c.comma? rest
  else if s.char = '-' ∧ spaceNext rest then c.entry? s rest
  else if s.char = '?' ∧ (c.inFlow ∨ spaceNext rest) then c.explicitKey? s rest
  else if s.char = ':' ∧ (c.inFlow ∨ spaceNext rest) then c.colon? s rest
  else if s.char = '*' then
    (readName? rest).bind fun (name, rest) => c.keyPiece? s (.reference name) rest
  else if s.char = '&' then
    (readName? rest).bind fun (name, rest) => c.keyPiece? s (.anchor name) rest
  else if s.char = '!' then
    (readTag? c.inFlow rest).bind fun (tag, rest) => c.keyPiece? s (.tag tag) rest
  else if s.char = '|' ∧ !c.inFlow then c.block? false rest
  else if s.char = '>' ∧ !c.inFlow then c.block? true rest
  else if s.char = '\x27' then (readSingle? [] .none rest).bind (c.scalar? s false)
  else if s.char = '\x22' then (readDouble? [] (.text .none) rest).bind (c.scalar? s false)
  else if startsPlain c.inFlow s rest then
    (readPlain? c.inFlow c.indent [] .none (s :: rest)).bind (c.scalar? s true)
  else none

/-- What has been cut once the text is at its end: brackets have to be closed. -/
def finish? (c : Cursor) : Option (List Piece) :=
  if c.inFlow then none else c.closeAll.dropKey?.map (·.made.reverse)

/-- Cuts the rest of the text. -/
def pieces? (c : Cursor) : Option (List Piece) :=
  let skipped := c.skip
  match skipped.rest with
  | [] => skipped.finish?
  | s :: rest =>
    match (skipped.expireKeys? s).bind fun c => (c.closeDeeper s.column).next? s rest with
    | none => none
    | some after =>
      -- Every piece takes up some of the text, so this always holds.
      if _h : after.rest.length < c.rest.length then pieces? after else none
termination_by c.rest.length

end Cursor

/-- The pieces of a YAML text. -/
def pieces? (text : String) : Option (List Piece) :=
  (spots? text).bind fun spots => Cursor.pieces? ⟨spots, [], 0, [], true, none, []⟩

end DeepLink.Yaml
