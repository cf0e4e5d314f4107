import DeepLink.Decimal.Binary64
import DeepLink.Text

/-!
# What plain scalars are taken for

Some words stand for null or a truth value where there are no quotes around them, and others look
like numbers.
-/

namespace DeepLink.Yaml

open Decimal

def isNullWord (text : String) : Bool :=
  text == "~" || text == "null" || text == "Null" || text == "NULL"

def isTruthWord (text : String) : Bool :=
  text == "true" || text == "True" || text == "TRUE" || text == "false" || text == "False" ||
    text == "FALSE"

/-- The value of a number in another base than ten. -/
def basedNumber? (text : List Char) : Option Nat :=
  let number? (base : Nat) (isDigit : Char → Bool) (digits : List Char) : Option Nat :=
    if digits ≠ [] ∧ digits.all isDigit then some (Hex.valueInBase base digits) else none
  match text with
  | '0' :: 'x' :: digits => number? 16 Hex.isDigit digits
  | '0' :: 'o' :: digits => number? 8 (fun c => '0' ≤ c && c ≤ '7') digits
  | '0' :: 'b' :: digits => number? 2 (fun c => c == '0' || c == '1') digits
  | _ => none

/-- Whether a text is a number in another base than ten, which has 128 bits; a negative one has half
the range. -/
def isBasedNumber (text : List Char) : Bool :=
  let (negative, number) := unsigned text
  (basedNumber? number).any fun n => if negative then n ≤ Nat.pow 2 127 else n < Nat.pow 2 128

/-- Digits after a zero, which are no number but look like one. -/
def isPadded (text : List Char) : Bool :=
  match (unsigned text).2 with
  | '0' :: digits => digits ≠ [] && digits.all Char.isDigit
  | _ => false

def isSpecialReal (text : String) : Bool :=
  text == ".inf" || text == ".Inf" || text == ".INF" || text == "-.inf" || text == "-.Inf" ||
    text == "-.INF" || text == "+.inf" || text == "+.Inf" || text == "+.INF" || text == ".nan" ||
    text == ".NaN" || text == ".NAN"

/-- Whether a text looks like a number. -/
def isNumeric (text : String) : Bool :=
  let finite := match Binary64.ofText? text with
    | some d => d.isFinite
    | none => false
  finite || isPadded text.toList || isBasedNumber text.toList || isSpecialReal text

end DeepLink.Yaml
