import DeepLink.Json

/-!
# Payloads

The values from which a route writes components: one for each parameter, alternation and optional
group, in the order in which these stand. The values of a branch or a group are nested in its own.

A payload can be read from JSON. There an array is a present group, null an absent one, and an
object with the single key `left` or `right` chooses a branch; a branch with one value needs no
array.
-/

namespace DeepLink

open Decimal

inductive Scalar
  | int (i : Int64)
  | double (d : Binary64)
  | bool (b : Bool)
  | text (s : String)
  deriving DecidableEq

namespace Scalar

def render : Scalar → String
  | int i => intText i.toInt
  | double d => d.plainText
  | bool true => "true"
  | bool false => "false"
  | text s => s

def typeName : Scalar → String
  | int _ => "int"
  | double _ => "double"
  | bool _ => "bool"
  | text _ => "text"

end Scalar

inductive Side
  | left | right
  deriving DecidableEq

inductive Value
  | scalar (s : Scalar)
  | branch (side : Side) (values : List Value)
  | absent
  | present (values : List Value)

/-- What a message calls a value. -/
def Value.describe : Value → String
  | scalar s => s.typeName ++ " value `" ++ s.render ++ "`"
  | branch .left _ => "left branch"
  | branch .right _ => "right branch"
  | absent => "absent group"
  | present _ => "present group"

/-- Why a JSON value is no payload. -/
inductive PayloadFault
  | notList (found : Json)
  | notOneKey
  | unknownSide (key : String)

def PayloadFault.reason : PayloadFault → String
  | notList found => "expected an array of values, found `" ++ found.compact ++ "`"
  | notOneKey => "a branch object needs exactly one key"
  | unknownSide key => "unknown branch `" ++ key ++ "`"

def PayloadFault.message (f : PayloadFault) : String := "invalid value payload: " ++ f.reason

def Side.ofKey? : String → Option Side
  | "left" => some .left
  | "right" => some .right
  | _ => none

/-- A whole number that does not fit 64 bits with a sign is taken as the nearest double. -/
def Scalar.ofInteger (i : Int) : Scalar :=
  if InInt64 i then int (Int64.ofInt i) else double (Binary64.ofRatio (decide (i < 0)) i.natAbs 1)

mutual

def Value.ofJson? : Json → Except PayloadFault Value
  | .null => .ok .absent
  | .bool b => .ok (.scalar (.bool b))
  | .integer i => .ok (.scalar (.ofInteger i))
  | .double d => .ok (.scalar (.double d))
  | .text s => .ok (.scalar (.text s))
  | .list items => (valuesOfItems? items).map .present
  | .record [(key, inner)] =>
    match Side.ofKey? key with
    | none => .error (.unknownSide key)
    | some side =>
      match inner with
      | .list items => (valuesOfItems? items).map (.branch side)
      | single => (Value.ofJson? single).map fun value => .branch side [value]
  | .record _ => .error .notOneKey

def valuesOfItems? : List Json → Except PayloadFault (List Value)
  | [] => .ok []
  | item :: rest => do
    let value ← Value.ofJson? item
    let values ← valuesOfItems? rest
    return value :: values

end

/-- The payload that a JSON array stands for. -/
def payloadOfJson? : Json → Except PayloadFault (List Value)
  | .list items => valuesOfItems? items
  | other => .error (.notList other)

end DeepLink
