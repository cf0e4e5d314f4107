import DeepLink.Decimal.Binary64

/-!
# The shortest decimal of a double, and how it is written

Every real number between the midpoints to its two neighbours rounds to a double; the midpoints
themselves do so exactly if its significand is even. The shortest decimal is the one with the fewest
digits among these reals, and of several the nearest to the double.

On a grid of powers of ten the nearest candidates are the two grid points around the double, so it
is enough to try these on finer and finer grids. Seventeen digits always suffice.

There are two layouts of it. The plain one never uses an exponent, writes whole numbers without a
point, and has names for the special values. The layout of JSON always shows a point or an exponent.
-/

namespace DeepLink.Decimal

/-- Which of two equally near decimals is taken. -/
inductive Tie
  | up
  | even
  deriving DecidableEq

/-- Decimal digits, the last one not zero, and the power of ten they are multiplied with. -/
structure Digits where
  digits : List Char
  exponent : Int
  deriving DecidableEq

/-- Moves the zeros at the end of the digits into the exponent. -/
def Digits.trim (digits : List Char) (exponent : Int) : Digits :=
  let zeros := (digits.reverse.takeWhile (· == '0')).length
  ⟨digits.take (digits.length - zeros), exponent + zeros⟩

/-- The power of ten of the first digit. -/
def Digits.leading (d : Digits) : Int := d.exponent + d.digits.length - 1

/-- The reals that round to a double, in units of `2 ^ -1076`. -/
structure Rounding where
  value : Nat
  below : Nat
  above : Nat
  closed : Bool

namespace Rounding

def ofFinite (significand scale : Nat) : Rounding :=
  let unit := Nat.pow 2 scale
  let gap := 2 * unit
  { value := 4 * significand * unit
    below := if significand = Nat.pow 2 52 ∧ 0 < scale then unit else gap
    above := gap
    closed := significand % 2 = 0 }

/-- Whether a distance to the value stays inside. -/
def admits (r : Rounding) (distance bound : Nat) : Bool :=
  if r.closed then distance ≤ bound else distance < bound

/-- The multiple of `10 ^ k` that is nearest to the value, if one lies inside. -/
def onGrid? (r : Rounding) (tie : Tie) (k : Int) : Option Nat :=
  let fine := Nat.pow 10 (-k).toNat
  let unit := Nat.pow 2 1076 * Nat.pow 10 k.toNat
  let q := r.value * fine / unit
  let down := r.value * fine % unit
  let up := unit - down
  match r.admits down (r.below * fine), r.admits up (r.above * fine) with
  | true, true =>
    if down < up then some q
    else if up < down then some (q + 1)
    else match tie with
      | .up => some (q + 1)
      | .even => some (q + q % 2)
  | true, false => some q
  | false, true => some (q + 1)
  | false, false => none

/-- The power of ten of the first digit of the value. -/
def leading (r : Rounding) : Int :=
  (digitsOf (r.value * Nat.pow 10 400 / Nat.pow 2 1076)).length - 401

/-- The shortest decimal inside. -/
def shortest (r : Rounding) (tie : Tie) : Digits :=
  let attempt (i : Nat) : Option Digits :=
    let k := r.leading - i
    (r.onGrid? tie k).map fun n => .trim (digitsOf n) k
  ((List.range 17).findSome? attempt).getD ⟨['0'], 0⟩

end Rounding

/-- The shortest decimal of the double with this significand and scale. -/
def shortest (tie : Tie) (significand scale : Nat) : Digits :=
  (Rounding.ofFinite significand scale).shortest tie

/-! ## Layouts -/

def zeros (n : Nat) : List Char := List.replicate n '0'

namespace Digits

/-- Whole digits, then a point and the digits after it if there are any. -/
def positional (d : Digits) : List Char :=
  if 0 ≤ d.exponent then d.digits ++ zeros d.exponent.toNat
  else
    let places := (-d.exponent).toNat
    if places < d.digits.length then
      d.digits.take (d.digits.length - places) ++ '.' :: d.digits.drop (d.digits.length - places)
    else '0' :: '.' :: (zeros (places - d.digits.length) ++ d.digits)

/-- An exponent with its sign, also where it is a plus. -/
def exponentText (e : Int) : List Char := (if e < 0 then '-' else '+') :: digitsOf e.natAbs

/-- One digit, a point and the others if there are any, and the exponent. -/
def scientific (d : Digits) : List Char :=
  let mantissa := match d.digits with
    | first :: second :: rest => first :: '.' :: second :: rest
    | digits => digits
  mantissa ++ 'e' :: exponentText d.leading

end Digits

def signText (negative : Bool) : String := if negative then "-" else ""

namespace Binary64

/-- The plain layout: ties go up. -/
def plainText : Binary64 → String
  | undefined => "NaN"
  | infinite negative => signText negative ++ "inf"
  | finite negative s p =>
    if s = 0 then signText negative ++ "0"
    else signText negative ++ String.ofList (shortest .up s p).positional

/-- The layout of JSON: positional from `10 ^ -5` to below `10 ^ 16`, ties to the even digit. -/
def jsonText : Binary64 → String
  | finite negative s p =>
    if s = 0 then signText negative ++ "0.0"
    else
      let d := shortest .even s p
      let body :=
        if d.leading < -5 ∨ 16 ≤ d.leading then d.scientific
        else if 0 ≤ d.exponent then d.positional ++ ['.', '0']
        else d.positional
      signText negative ++ String.ofList body
  | _ => "null"

end Binary64

end DeepLink.Decimal
