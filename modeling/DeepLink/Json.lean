import DeepLink.Decimal.Shortest
import DeepLink.Text

/-!
# JSON values

A number is a whole number if it is written as one and fits 64 bits, with a sign or without; every
other number is a double. The members of a record have an order, in which they are printed.
-/

namespace DeepLink

open Decimal

inductive Json
  | null
  | bool (b : Bool)
  | integer (i : Int)
  | double (d : Binary64)
  | text (s : String)
  | list (items : List Json)
  | record (members : List (String × Json))

namespace Json

/-- A character inside a quoted text. Only quotes, backslashes and control characters are escaped.
-/
def quoteChar (c : Char) : List Char :=
  if c = '\x22' then ['\\', '\x22']
  else if c = '\\' then ['\\', '\\']
  else if c = '\n' then ['\\', 'n']
  else if c = '\r' then ['\\', 'r']
  else if c = '\t' then ['\\', 't']
  else if c = '\x08' then ['\\', 'b']
  else if c = '\x0c' then ['\\', 'f']
  else if c.toNat < 0x20 then
    ['\\', 'u', '0', '0', Hex.lower (c.toNat / 16), Hex.lower (c.toNat % 16)]
  else [c]

def quote (s : String) : String :=
  String.ofList ('\x22' :: (s.toList.flatMap quoteChar ++ ['\x22']))

mutual

/-- The value without any spaces. -/
def compact : Json → String
  | null => "null"
  | bool true => "true"
  | bool false => "false"
  | integer i => intText i
  | double d => d.jsonText
  | text s => quote s
  | list items => "[" ++ compactItems items ++ "]"
  | record members => "\x7b" ++ compactMembers members ++ "\x7d"

def compactItems : List Json → String
  | [] => ""
  | [item] => item.compact
  | item :: next :: rest => item.compact ++ "," ++ compactItems (next :: rest)

def compactMembers : List (String × Json) → String
  | [] => ""
  | [(key, value)] => quote key ++ ":" ++ value.compact
  | (key, value) :: next :: rest =>
    quote key ++ ":" ++ value.compact ++ "," ++ compactMembers (next :: rest)

end

/-- A new line at a depth of indentation. -/
def lineBreak (depth : Nat) : String := String.ofList ('\n' :: List.replicate (2 * depth) ' ')

mutual

/-- The value with every item and member on a line of its own, two spaces deeper at each level. -/
def pretty (depth : Nat) : Json → String
  | list (first :: rest) =>
    "[" ++ lineBreak (depth + 1) ++ first.pretty (depth + 1) ++ prettyItems (depth + 1) rest ++
      lineBreak depth ++ "]"
  | record ((key, value) :: rest) =>
    "\x7b" ++ lineBreak (depth + 1) ++ quote key ++ ": " ++ value.pretty (depth + 1) ++
      prettyMembers (depth + 1) rest ++ lineBreak depth ++ "\x7d"
  | other => other.compact

def prettyItems (depth : Nat) : List Json → String
  | [] => ""
  | item :: rest => "," ++ lineBreak depth ++ item.pretty depth ++ prettyItems depth rest

def prettyMembers (depth : Nat) : List (String × Json) → String
  | [] => ""
  | (key, value) :: rest =>
    "," ++ lineBreak depth ++ quote key ++ ": " ++ value.pretty depth ++ prettyMembers depth rest

end

end Json

end DeepLink
