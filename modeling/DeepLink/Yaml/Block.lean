import DeepLink.Yaml.Spot

/-!
# Block scalars of YAML

A block scalar is an indented block of lines. In a literal one all line ends count; in a folded one
a single line end between lines that do not start with a blank counts as a space. A sign in the
header tells whether the line ends after the block count, and a digit how far the block is indented;
otherwise its first line does.
-/

namespace DeepLink.Yaml

/-- Which line ends after a block count: none, the first, or all. -/
inductive Chomping
  | strip | clip | keep
  deriving DecidableEq

structure BlockHeader where
  chomping : Chomping
  indent? : Option Nat

def takeChomping : List Spot → Chomping × List Spot
  | [] => (.clip, [])
  | s :: rest =>
    if s.char = '+' then (.keep, rest)
    else if s.char = '-' then (.strip, rest)
    else (.clip, s :: rest)

/-- A digit, which is not zero. -/
def takeIndent? : List Spot → Option (Option Nat × List Spot)
  | [] => some (none, [])
  | s :: rest =>
    if s.char = '0' then none
    else if s.char.isDigit then some (some (s.char.toNat - '0'.toNat), rest)
    else some (none, s :: rest)

/-- The header of a block, which takes the rest of its line: sign and digit in any order. -/
def readBlockHeader? (text : List Spot) : Option (BlockHeader × List Spot) := do
  let (before, text) := takeChomping text
  let (indent?, text) ← takeIndent? text
  let (after, text) := if before = .clip then takeChomping text else (before, text)
  let text ← toLineEnd? text
  return (⟨after, indent?⟩, text.drop 1)

/-- Passes over empty lines and indentation in front of a block, up to its indentation if that is
known: the deepest column, the line ends, and the rest. -/
def skipEmptyLines? (indent? : Option Nat) (deepest : Nat) (breaks : List Char) :
    List Spot → Option (Nat × List Char × List Spot)
  | [] => some (deepest, breaks, [])
  | s :: rest =>
    let before := indent?.all (s.column < ·)
    if s.char = ' ' ∧ before then skipEmptyLines? indent? (max deepest s.column) breaks rest
    else if s.char = '\t' ∧ before then none
    else if isBreak s.char then
      skipEmptyLines? indent? (max deepest s.column) (s.char :: breaks) rest
    else some (max deepest s.column, breaks, s :: rest)

/-- A block read in part: its text, the line end of the last line, the line ends after that, all
with the last character first; and whether the last line started with a blank. -/
structure BlockRead where
  text : List Char
  lineEnd? : Option Char
  breaks : List Char
  blankStart : Bool

namespace BlockRead

/-- The line ends that count before a line that starts with a character. -/
def joint (b : BlockRead) (folded : Bool) (c : Char) : List Char :=
  if folded ∧ b.lineEnd? = some '\n' ∧ !b.blankStart ∧ !isBlank c then
    if b.breaks = [] then [' '] else b.breaks
  else b.breaks ++ b.lineEnd?.toList

/-- Starts a line. -/
def startLine (b : BlockRead) (folded : Bool) (c : Char) : BlockRead :=
  ⟨c :: (b.joint folded c ++ b.text), none, [], isBlank c⟩

/-- The text of a whole block. -/
def finish (b : BlockRead) (chomping : Chomping) : List Char :=
  match chomping with
  | .strip => b.text.reverse
  | .clip => (b.lineEnd?.toList ++ b.text).reverse
  | .keep => (b.breaks ++ (b.lineEnd?.toList ++ b.text)).reverse

end BlockRead

/-- Reads the lines of a block with an indentation. -/
def readBlockLines? (folded : Bool) (indent : Nat) (b : BlockRead) (inLine : Bool) :
    List Spot → Option (BlockRead × List Spot)
  | [] => some (b, [])
  | s :: rest =>
    if inLine then
      if isBreak s.char then
        readBlockLines? folded indent { b with lineEnd? := some s.char } false rest
      else readBlockLines? folded indent { b with text := s.char :: b.text } true rest
    else if s.char = ' ' ∧ s.column < indent then readBlockLines? folded indent b false rest
    else if s.char = '\t' ∧ s.column < indent then none
    else if isBreak s.char then
      readBlockLines? folded indent { b with breaks := s.char :: b.breaks } false rest
    else if s.column = indent then
      readBlockLines? folded indent (b.startLine folded s.char) true rest
    else some (b, s :: rest)

/-- Reads a block scalar after its first character, inside a block at a column if there is one. -/
def readBlock? (folded : Bool) (parent? : Option Nat) (text : List Spot) :
    Option (List Char × List Spot) := do
  let (header, text) ← readBlockHeader? text
  let given? := header.indent?.map (parent?.getD 0 + ·)
  let (deepest, breaks, text) ← skipEmptyLines? given? 0 [] text
  let least := match parent? with
    | some column => column + 1
    | none => 1
  let indent := given?.getD (max deepest least)
  let (b, rest) ← readBlockLines? folded indent ⟨[], none, breaks, false⟩ false text
  return (b.finish header.chomping, rest)

end DeepLink.Yaml
