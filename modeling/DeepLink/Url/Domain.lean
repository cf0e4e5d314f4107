import DeepLink.Url.Domain.Characters
import DeepLink.Url.Domain.Composition
import DeepLink.Url.Encoding

/-!
# Domain names

The labels of a domain name stand between dots. A label that starts with `xn--` is Punycode for a
text with characters outside ASCII: the ASCII characters come first, with a hyphen after them; then,
from the lowest code to the highest, one number for each other character, which tells its code and
its place. The numbers have digits of a base of 36, the lowest first; a digit below a threshold is
the last one, and the thresholds adapt to the numbers so far.

All characters of such a text have to be allowed in domain names, and the text has to be composed,
not to start with a mark, and to have joiners only where they count. Two characters without width
tell how the letters around them join. They may stand after a mark that takes away the vowel of a
letter; the one that keeps letters apart may also stand between two letters that would join
otherwise.

The labels may not mix directions: where one has characters that run to the left, each starts with a
letter of its direction, and it ends with a letter or a digit that fits.
-/

namespace DeepLink.Url

/-! ## Punycode -/

namespace Punycode

def digit? (c : Char) : Option Nat :=
  if 'a' ≤ c ∧ c ≤ 'z' then some (c.toNat - 'a'.toNat)
  else if 'A' ≤ c ∧ c ≤ 'Z' then some (c.toNat - 'A'.toNat)
  else if '0' ≤ c ∧ c ≤ '9' then some (c.toNat - '0'.toNat + 26)
  else none

/-- The threshold of the digit at a position, counted from 36 in steps of 36. -/
def threshold (position bias : Nat) : Nat := max 1 (min 26 (position - bias))

def adaptFrom (bias delta : Nat) : Nat :=
  if 455 < delta then adaptFrom (bias + 36) (delta / 35) else bias + 36 * delta / (delta + 38)
termination_by delta
decreasing_by exact Nat.div_lt_self (by omega) (by omega)

/-- The bias after a number, with how many characters there are then. -/
def adapt (number count : Nat) (isFirst : Bool) : Nat :=
  let delta := if isFirst then number / 700 else number / 2
  adaptFrom 0 (delta + delta / count)

/-- A text decoded in part: what it is so far, the code of the last character that was put in, the
place after it, and the bias. -/
structure Decoding where
  text : List Char
  code : Nat
  place : Nat
  bias : Nat

namespace Decoding

/-- Puts in the character that a number tells of. -/
def insert? (d : Decoding) (number : Nat) : Option Decoding :=
  let count := d.text.length + 1
  let code := d.code + (d.place + number) / count
  let place := (d.place + number) % count
  if code.isValidChar then
    some ⟨d.text.insertIdx place (Char.ofNat code), code, place + 1,
      adapt number count (d.code == 0x80 && d.place == 0)⟩
  else none

end Decoding

/-- Decodes numbers. `number` is what the digits of the next one add up to so far; its next digit
has a weight and a position. -/
def readNumbers? (d : Decoding) (number weight position : Nat) : List Char → Option (List Char)
  | [] => if position = 36 then some d.text else none
  | c :: rest =>
    match digit? c with
    | none => none
    | some digit =>
      let t := threshold position d.bias
      if digit < t then
        match d.insert? (number + digit * weight) with
        | some next => readNumbers? next 0 1 36 rest
        | none => none
      else readNumbers? d (number + digit * weight) (weight * (36 - t)) (position + 36) rest

/-- The text that a text of letters, digits and hyphens stands for. -/
def decode? (text : List Char) : Option (List Char) :=
  let numbers := (text.reverse.takeWhile (· ≠ '-')).reverse
  match text.take (text.length - numbers.length) with
  | [] => readNumbers? ⟨[], 0x80, 0, 72⟩ 0 1 36 numbers
  | ['-'] => none
  | basic => readNumbers? ⟨basic.dropLast, 0x80, 0, 72⟩ 0 1 36 numbers

end Punycode

namespace Domain

/-! ## Joiners -/

/-- Ranges of letters that join the next one. -/
def joinsNextRanges : List (Nat × Nat) :=
  [(0x620, 0x620), (0x626, 0x626), (0x628, 0x628), (0x62A, 0x62E), (0x633, 0x63F), (0x641, 0x647),
    (0x649, 0x64A), (0x66E, 0x66F), (0x679, 0x687), (0x69A, 0x6BF), (0x6C1, 0x6C2), (0x6CC, 0x6CC),
    (0x6CE, 0x6CE), (0x6D0, 0x6D1), (0x6FA, 0x6FC), (0x6FF, 0x6FF), (0x712, 0x714), (0x71A, 0x71D),
    (0x71F, 0x727), (0x729, 0x729), (0x72B, 0x72B), (0x72D, 0x72E), (0x74E, 0x758), (0x75C, 0x766),
    (0x850, 0x853), (0x855, 0x855), (0x8A0, 0x8A0), (0x8A2, 0x8A9), (0x1807, 0x1807),
    (0x1820, 0x1877), (0x1887, 0x18A8), (0x18AA, 0x18AA), (0xA840, 0xA872)]

/-- Ranges of letters that join the one before. -/
def joinsBeforeRanges : List (Nat × Nat) :=
  [(0x620, 0x620), (0x622, 0x63F), (0x641, 0x64A), (0x66E, 0x66F), (0x671, 0x673), (0x679, 0x6D3),
    (0x6D5, 0x6D5), (0x6EE, 0x6EF), (0x6FA, 0x6FC), (0x6FF, 0x6FF), (0x710, 0x710), (0x712, 0x72F),
    (0x74D, 0x766), (0x850, 0x855), (0x8A0, 0x8A0), (0x8A2, 0x8AC), (0x1807, 0x1807),
    (0x1820, 0x1877), (0x1887, 0x18A8), (0x18AA, 0x18AA), (0xA840, 0xA871)]

def isJoiner (c : Char) : Bool := c == '\u200c' || c == '\u200d'

/-- Whether a character takes away the vowel of the one before. -/
def isVowelKiller (c : Char) : Bool := combiningClass c == 9

/-- Whether letters would join across a place; `before` has the last character first. -/
def wouldJoin (before after : List Char) : Bool :=
  let near (ranges : List (Nat × Nat)) (text : List Char) : Bool :=
    (text.dropWhile isOverlay).head?.any (inRanges ·.toNat ranges)
  near joinsNextRanges before && near joinsBeforeRanges after

/-- Whether all joiners stand where they may. `before` has the last character first. -/
def placesJoiners (before : List Char) : List Char → Bool
  | [] => true
  | c :: rest =>
    (!isJoiner c || before.head?.any isVowelKiller || c == '\u200c' && wouldJoin before rest) &&
      placesJoiners (c :: before) rest

/-! ## Directions -/

inductive Direction
  | rightwards | leftwards | digit | arabicDigit | overlay | neutral
  deriving DecidableEq

/-- Ranges of letters that run to the left. -/
def leftwardsRanges : List (Nat × Nat) :=
  [(0x5BE, 0x5BE), (0x5C0, 0x5C0), (0x5C3, 0x5C3), (0x5C6, 0x5C6), (0x5D0, 0x5F4), (0x608, 0x608),
    (0x60B, 0x60B), (0x60D, 0x60D), (0x61B, 0x64A), (0x66D, 0x66F), (0x671, 0x6D5), (0x6E5, 0x6E6),
    (0x6EE, 0x6EF), (0x6FA, 0x710), (0x712, 0x72F), (0x74D, 0x7A5), (0x7B1, 0x7EA), (0x7F4, 0x7F5),
    (0x7FA, 0x7FA), (0x7FE, 0x815), (0x81A, 0x81A), (0x824, 0x824), (0x828, 0x828), (0x830, 0x858),
    (0x85E, 0x88E), (0x8A0, 0x8C9), (0xFBB2, 0xFBC2), (0xFE73, 0xFE73), (0x10800, 0x1091B),
    (0x10920, 0x10A00), (0x10A10, 0x10A35), (0x10A40, 0x10AE4), (0x10AEB, 0x10B35),
    (0x10B40, 0x10D23), (0x10E80, 0x10EA9), (0x10EAD, 0x10EB1), (0x10F00, 0x10F45),
    (0x10F51, 0x10F81), (0x10F86, 0x10FF6), (0x1E800, 0x1E8CF), (0x1E922, 0x1E943),
    (0x1E94B, 0x1ED3D)]

/-- Ranges of digits that go with Arabic letters. -/
def arabicDigitRanges : List (Nat × Nat) :=
  [(0x660, 0x669), (0x66B, 0x66C), (0x10D30, 0x10E7E)]

/-- Ranges of other digits outside ASCII. -/
def digitRanges : List (Nat × Nat) :=
  [(0x6F0, 0x6F9), (0x102E1, 0x102FB)]

/-- Ranges of signs that run with what is around them. -/
def neutralRanges : List (Nat × Nat) :=
  [(0xA1, 0xD7), (0xF7, 0xF7), (0x2B9, 0x2BA), (0x2C2, 0x2CF), (0x2D2, 0x2ED), (0x2EF, 0x2FF),
    (0x375, 0x375), (0x3F6, 0x3F6), (0x58A, 0x58F), (0x606, 0x607), (0x609, 0x60A), (0x60C, 0x60C),
    (0x60E, 0x60F), (0x66A, 0x66A), (0x6DE, 0x6DE), (0x6E9, 0x6E9), (0x7F6, 0x7F9), (0x9F2, 0x9F3),
    (0x9FB, 0x9FB), (0xAF1, 0xAF1), (0xBF3, 0xBFA), (0xC78, 0xC7E), (0xE3F, 0xE3F), (0xF3A, 0xF3D),
    (0x1390, 0x1399), (0x1400, 0x1400), (0x169B, 0x169C), (0x17DB, 0x17DB), (0x17F0, 0x180A),
    (0x1940, 0x1945), (0x19DE, 0x19FF), (0x2010, 0x20C0), (0x2104, 0x214D), (0x218A, 0x2335),
    (0x237B, 0x2394), (0x2396, 0x26AB), (0x26AD, 0x27FF), (0x2900, 0x2BFF), (0x2CE5, 0x2CEA),
    (0x2CF9, 0x2CFF), (0x2E00, 0x3004), (0x3008, 0x3020), (0x3030, 0x3030), (0x3037, 0x3037),
    (0x303D, 0x303F), (0x30A0, 0x30A0), (0x30FB, 0x30FB), (0x31C0, 0x31E3), (0x4DC0, 0x4DFF),
    (0xA490, 0xA4C6), (0xA60D, 0xA60F), (0xA673, 0xA673), (0xA67E, 0xA67F), (0xA700, 0xA721),
    (0xA788, 0xA788), (0xA828, 0xA82B), (0xA838, 0xA839), (0xA874, 0xA877), (0xAB6A, 0xAB6B),
    (0xFD3E, 0xFDFF), (0xFE45, 0xFE46), (0x10101, 0x10101), (0x10140, 0x1018C), (0x10190, 0x101A0),
    (0x1091F, 0x1091F), (0x10B39, 0x10B3F), (0x11052, 0x11065), (0x11660, 0x1166C),
    (0x11FD5, 0x11FF1), (0x16FE2, 0x16FE2), (0x1D1E9, 0x1D241), (0x1D245, 0x1D245),
    (0x1D300, 0x1D356), (0x1E2FF, 0x1E2FF), (0x1EEF0, 0x1F12F), (0x1F16D, 0x1F16F),
    (0x1F1AD, 0x1F1AD), (0x1F260, 0x1F6D7), (0x1F6DD, 0x1F773), (0x1F780, 0x1F7D8),
    (0x1F7E0, 0x1FA74), (0x1FA78, 0x1FA86), (0x1FA90, 0x1FAAC), (0x1FAB0, 0x1FABA),
    (0x1FAC0, 0x1FAC5), (0x1FAD0, 0x1FAD9), (0x1FAE0, 0x1FAE7), (0x1FAF0, 0x1FAF6),
    (0x1FB00, 0x1FBCA)]

def direction (c : Char) : Direction :=
  let n := c.toNat
  if n < 0x80 then if c.isAlpha then .rightwards else if c.isDigit then .digit else .neutral
  else if inRanges n leftwardsRanges then .leftwards
  else if inRanges n arabicDigitRanges then .arabicDigit
  else if inRanges n digitRanges then .digit
  else if isOverlay c then .overlay
  else if inRanges n neutralRanges then .neutral
  else .rightwards

/-- Whether a label has characters that run to the left. -/
def hasLeftwards (label : List Char) : Bool :=
  label.any fun c => direction c = .leftwards || direction c = .arabicDigit

/-- Whether a label has one direction. -/
def hasOneDirection (label : List Char) : Bool :=
  let directions := label.map direction
  let last? := (directions.reverse.dropWhile (· = .overlay)).head?
  match directions.head? with
  | none => true
  | some .rightwards =>
    !hasLeftwards label && (last? = some .rightwards || last? = some .digit)
  | some .leftwards =>
    !directions.contains .rightwards &&
      !(directions.contains .digit && directions.contains .arabicDigit) &&
      (last? = some .leftwards || last? = some .digit || last? = some .arabicDigit)
  | some _ => false

/-! ## Labels -/

/-- Whether a text is one that a label may stand for. -/
def isValidText (text : List Char) : Bool :=
  text.any (0x80 ≤ ·.toNat) && text.all (fun c => c.toNat < 0x80 || isAllowed c || isJoiner c) &&
    !text.head?.any isMark && isComposed text && placesJoiners [] text

/-- The text that a label in lower case stands for. -/
def labelText? : List Char → Option (List Char)
  | 'x' :: 'n' :: '-' :: '-' :: rest => (Punycode.decode? rest).filter isValidText
  | label => some label

/-- Whether a domain name in lower case is valid. -/
def isValid (domain : List Char) : Bool :=
  match (Form.splitOn '.' domain).mapM labelText? with
  | none => false
  | some labels => !labels.any hasLeftwards || labels.all hasOneDirection

/-- Brings the domain names into lower case that are written in ASCII, and knows no others. -/
def asciiName? (name : List Char) : Option (List Char) :=
  let domain := name.map Char.toLower
  if name.all (·.toNat < 0x80) && isValid domain then some domain else none

end Domain

end DeepLink.Url
