/-!
# Decimal numerals

What a decimal numeral looks like and which number it stands for. Whole numbers are read into 64
bits with a sign; reals are read exactly, as digits and a power of ten, and may also be infinite or
no number at all.

Only the ten digits of ASCII count.
-/

namespace DeepLink.Decimal

/-- The number that digits spell, after a number already read. -/
def digitsValueFrom (n : Nat) : List Char → Nat
  | [] => n
  | c :: rest => digitsValueFrom (10 * n + (c.toNat - '0'.toNat)) rest

def digitsValue (digits : List Char) : Nat := digitsValueFrom 0 digits

/-- The digits of a natural number. -/
def digitsOf (n : Nat) : List Char := Nat.toDigits 10 n

def natText (n : Nat) : String := String.ofList (digitsOf n)

/-- A whole number with a minus sign where it is negative. -/
def intText (i : Int) : String :=
  match i with
  | .ofNat n => natText n
  | .negSucc n => "-" ++ natText (n + 1)

/-- Takes a sign off: whether it was a minus, and what follows. -/
def unsigned : List Char → Bool × List Char
  | '-' :: rest => (true, rest)
  | '+' :: rest => (false, rest)
  | rest => (false, rest)

/-- The value of a text that consists of digits, at least one. -/
def natural? (digits : List Char) : Option Nat :=
  if digits ≠ [] ∧ digits.all Char.isDigit then some (digitsValue digits) else none

def applySign (negative : Bool) (n : Nat) : Int := if negative then -n else n

/-- A whole number: digits, after a sign or none. -/
def integer? (text : String) : Option Int :=
  let (negative, digits) := unsigned text.toList
  (natural? digits).map (applySign negative)

/-- The numbers that 64 bits with a sign hold. -/
def InInt64 (i : Int) : Prop := Int64.minValue.toInt ≤ i ∧ i ≤ Int64.maxValue.toInt

instance : DecidablePred InInt64 := fun i => by unfold InInt64; infer_instance

/-- A whole number of 64 bits with a sign. -/
def int64? (text : String) : Option Int64 :=
  match integer? text with
  | some i => if InInt64 i then some (Int64.ofInt i) else none
  | none => none

/-- The number `digits · 10 ^ exponent`, up to its sign. -/
structure Numeral where
  negative : Bool
  digits : Nat
  exponent : Int
  deriving DecidableEq

/-- What a text for a real number stands for. -/
inductive Real
  | number (n : Numeral)
  | infinite (negative : Bool)
  | undefined
  deriving DecidableEq

namespace Real

/-- The power of ten after the digits: none, or `e` and a whole number. -/
def exponent? : List Char → Option Int
  | [] => some 0
  | c :: rest =>
    if c = 'e' ∨ c = 'E' then
      let (negative, digits) := unsigned rest
      (natural? digits).map (applySign negative)
    else none

/-- The digits after the point, if there is one, and what follows them. -/
def fraction : List Char → List Char × List Char
  | '.' :: rest => (rest.takeWhile Char.isDigit, rest.dropWhile Char.isDigit)
  | rest => ([], rest)

/-- Digits with a point anywhere or nowhere, then a power of ten or none. -/
def number? (negative : Bool) (text : List Char) : Option Numeral :=
  let whole := text.takeWhile Char.isDigit
  let (fractional, rest) := fraction (text.dropWhile Char.isDigit)
  if whole = [] ∧ fractional = [] then none
  else (exponent? rest).map fun e =>
    ⟨negative, digitsValue (whole ++ fractional), e - fractional.length⟩

/-- The named reals, in any case. -/
def named? (negative : Bool) (text : List Char) : Option Real :=
  match String.ofList (text.map Char.toLower) with
  | "inf" => some (.infinite negative)
  | "infinity" => some (.infinite negative)
  | "nan" => some .undefined
  | _ => none

/-- Reads a real number: a sign or none, then a numeral or the name of a special value. -/
def ofText? (text : String) : Option Real :=
  let (negative, rest) := unsigned text.toList
  match number? negative rest with
  | some n => some (.number n)
  | none => named? negative rest

end Real

end DeepLink.Decimal
