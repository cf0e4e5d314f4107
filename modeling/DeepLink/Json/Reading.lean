import DeepLink.Json
import DeepLink.Json.Document

/-!
# The value of a JSON text

Numbers become whole numbers or doubles, quoted texts become texts, and of members with one key the
last counts; members are ordered by key. A text is refused if it holds half of a surrogate pair, a
number beyond the doubles, or containers nested more than 127 deep.

A double is rounded twice. Its digits are cut off where they no longer fit 64 bits, the rest is
rounded to a double, and this is multiplied or divided by a power of ten.
-/

namespace DeepLink.Json

open Decimal

/-- The text that glyphs spell: two units may form one character. -/
def textOf? : List Glyph → Option (List Char)
  | [] => some []
  | .char c :: rest => (textOf? rest).map (c :: ·)
  | [.unit code] => if 0xD800 ≤ code ∧ code < 0xE000 then none else some [Char.ofNat code]
  | .unit code :: next :: rest =>
    if 0xD800 ≤ code ∧ code < 0xDC00 then
      match next with
      | .unit low =>
        if 0xDC00 ≤ low ∧ low < 0xE000 then
          (textOf? rest).map
            (Char.ofNat (0x10000 + (code - 0xD800) * 0x400 + (low - 0xDC00)) :: ·)
        else none
      | .char _ => none
    else if 0xDC00 ≤ code ∧ code < 0xE000 then none
    else (textOf? (next :: rest)).map (Char.ofNat code :: ·)

def text? (glyphs : List Glyph) : Option String := (textOf? glyphs).map String.ofList

namespace Spelling

/-- Appends digits to a number as long as it fits 64 bits; also how many digits were left over. -/
def absorb (n : Nat) : List Char → Nat × Nat
  | [] => (n, 0)
  | c :: rest =>
    let m := 10 * n + (c.toNat - '0'.toNat)
    if m < Nat.pow 2 64 then absorb m rest else (n, rest.length + 1)

/-- `f / 10 ^ e`, in steps that are themselves doubles. -/
def scaleDown (f : Binary64) (e : Nat) : Binary64 :=
  if f.isZero then f
  else if e ≤ 308 then f.div (.powerOfTen e)
  else scaleDown (f.div (.powerOfTen 308)) (e - 308)
termination_by e

/-- The double near `n · 10 ^ e`, unless that is too large. -/
def scale? (n : Nat) (e : Int) : Option Binary64 :=
  if n = 0 then some (.zero false)
  else if e < 0 then some (scaleDown (.ofNat n) e.natAbs)
  else if 308 < e then none
  else
    let product := (Binary64.ofNat n).mul (.powerOfTen e.toNat)
    if product.isFinite then some product else none

def double? (s : Spelling) : Option Binary64 :=
  let (n, extra) := absorb 0 s.whole
  let (n, unread) := absorb n s.fraction
  let e := (extra : Int) - (s.fraction.length - unread : Nat) + s.exponent?.getD 0
  (scale? n e).map fun d => if s.negative then d.neg else d

/-- The whole number that is spelled, if it is written as one and fits 64 bits. The negative zero is
no whole number. -/
def integer? (s : Spelling) : Option Int :=
  if s.fraction = [] ∧ s.exponent? = none then
    let n := digitsValue s.whole
    if s.negative then if 0 < n ∧ n ≤ Nat.pow 2 63 then some (-n) else none
    else if n < Nat.pow 2 64 then some n else none
  else none

def value? (s : Spelling) : Option Json :=
  match s.integer? with
  | some i => some (.integer i)
  | none => s.double?.map .double

end Spelling

/-- Puts a member in its place among others ordered by key, or in place of one with its key. -/
def placeMember (key : String) (value : Json) : List (String × Json) → List (String × Json)
  | [] => [(key, value)]
  | (other, old) :: rest =>
    if key = other then (key, value) :: rest
    else if key < other then (key, value) :: (other, old) :: rest
    else (other, old) :: placeMember key value rest

mutual

def ofDocument? : Document → Option Json
  | .null => some .null
  | .bool b => some (.bool b)
  | .number n => n.value?
  | .text glyphs => (text? glyphs).map .text
  | .list items => (ofItems? items).map .list
  | .record members => (ofMembers? [] members).map .record

def ofItems? : List Document → Option (List Json)
  | [] => some []
  | item :: rest => do
    let value ← ofDocument? item
    let values ← ofItems? rest
    return value :: values

/-- The members after those that are placed already. -/
def ofMembers? (placed : List (String × Json)) :
    List (List Glyph × Document) → Option (List (String × Json))
  | [] => some placed
  | (key, value) :: rest => do
    let key ← text? key
    let value ← ofDocument? value
    ofMembers? (placeMember key value placed) rest

end

def maxDepth : Nat := 127

/-- The value of a JSON text. -/
def ofText? (text : String) : Option Json :=
  match Document.ofText? text with
  | some d => if d.depth ≤ maxDepth then ofDocument? d else none
  | none => none

end DeepLink.Json
