import DeepLink.Decimal.Numeral

/-!
# Double precision numbers

A finite double is a multiple of `2 ^ -1074`, namely `significand · 2 ^ scale` of them. The numbers
made here have a significand below `2 ^ 53`, and at least `2 ^ 52` unless the scale is zero.

`Binary64.ofRatio` rounds an exact ratio to the nearest double, a tie to the even significand;
reading a numeral, multiplying and dividing are exact operations followed by that rounding.
-/

namespace DeepLink.Decimal

inductive Binary64
  | finite (negative : Bool) (significand scale : Nat)
  | infinite (negative : Bool)
  | undefined
  deriving DecidableEq

/-- The quotient rounded to the nearest whole number, a half to the even one. -/
def roundQuotient (n d : Nat) : Nat :=
  let q := n / d
  let r := n % d
  if 2 * r < d then q else if d < 2 * r then q + 1 else q + q % 2

namespace Binary64

def zero (negative : Bool) : Binary64 := finite negative 0 0

def isZero : Binary64 → Bool
  | finite _ s _ => s == 0
  | _ => false

def isFinite : Binary64 → Bool
  | finite _ _ _ => true
  | _ => false

/-- The double with this significand and scale, infinite if the scale is too large. -/
def bounded (negative : Bool) (significand scale : Nat) : Binary64 :=
  if scale ≤ 2045 then finite negative significand scale else infinite negative

/-- The double nearest to `n / d`. -/
def ofRatio (negative : Bool) (n d : Nat) : Binary64 :=
  let units := n * Nat.pow 2 1074
  let scale := Nat.log2 (units / d) + 1 - 53
  let s := roundQuotient units (d * Nat.pow 2 scale)
  if s < Nat.pow 2 53 then bounded negative s scale
  else bounded negative (Nat.pow 2 52) (scale + 1)

/-- The double nearest to a numeral. Powers of ten far outside the range of doubles are not
computed. -/
def ofNumeral (n : Numeral) : Binary64 :=
  let magnitude := (digitsOf n.digits).length + n.exponent
  if n.digits = 0 ∨ magnitude < -330 then zero n.negative
  else if 310 < magnitude then infinite n.negative
  else ofRatio n.negative (n.digits * Nat.pow 10 n.exponent.toNat)
    (Nat.pow 10 (-n.exponent).toNat)

def ofReal : Real → Binary64
  | .number n => ofNumeral n
  | .infinite negative => infinite negative
  | .undefined => undefined

def ofText? (text : String) : Option Binary64 := (Real.ofText? text).map ofReal

def ofNat (n : Nat) : Binary64 := ofRatio false n 1

def powerOfTen (k : Nat) : Binary64 := ofNumeral ⟨false, 1, k⟩

def neg : Binary64 → Binary64
  | finite negative s p => finite (!negative) s p
  | infinite negative => infinite (!negative)
  | undefined => undefined

/-- The product of two finite doubles. -/
def mul : Binary64 → Binary64 → Binary64
  | finite n s p, finite m t q => ofRatio (n != m) (s * t * Nat.pow 2 (p + q)) (Nat.pow 2 2148)
  | _, _ => undefined

/-- The quotient of two finite doubles. -/
def div : Binary64 → Binary64 → Binary64
  | finite n s p, finite m t q =>
    if t = 0 then undefined else ofRatio (n != m) (s * Nat.pow 2 p) (t * Nat.pow 2 q)
  | _, _ => undefined

end Binary64

end DeepLink.Decimal
