import DeepLink.Text

/-!
# Encodings in URLs

In percent coding a byte is written as a percent sign and two hexadecimal digits. Encoding keeps
some characters and writes the bytes of the others; decoding leaves percent signs alone that no two
digits follow.

A query is a form: pairs joined by ampersands, name and value by an equals sign. A plus sign stands
for a space.
-/

namespace DeepLink

/-! ## Percent coding -/

namespace Percent

def encodeByte (b : UInt8) : List Char := ['%', Hex.upper (b.toNat / 16), Hex.upper (b.toNat % 16)]

def encodeChar (keeps : Char → Bool) (c : Char) : List Char :=
  if keeps c then [c] else (String.utf8EncodeChar c).flatMap encodeByte

/-- The text with all characters percent-encoded but those that are kept. -/
def encode (keeps : Char → Bool) (text : List Char) : List Char := text.flatMap (encodeChar keeps)

def decode : List UInt8 → List UInt8
  | [] => []
  | [b] => [b]
  | [b, c] => [b, c]
  | b :: c :: d :: rest =>
    if b = 0x25 then
      match Hex.ofCode? c.toNat, Hex.ofCode? d.toNat with
      | some high, some low => UInt8.ofNat (16 * high + low) :: decode rest
      | _, _ => b :: decode (c :: d :: rest)
    else b :: decode (c :: d :: rest)

/-- The decoded text, or the text as it is if its bytes do not decode to characters. -/
def decodeText (text : List Char) : String :=
  (Utf8.decode? (decode (Utf8.encode text))).getD (String.ofList text)

/-- The characters that stand for themselves in any part of a URL. -/
def isUnreserved (c : Char) : Bool :=
  c.isAlphanum || c == '-' || c == '.' || c == '_' || c == '~'

end Percent

/-! ## Forms -/

namespace Form

/-- The parts of a text between the occurrences of a character. -/
def splitOn (separator : Char) : List Char → List (List Char)
  | [] => [[]]
  | c :: rest =>
    if c = separator then [] :: splitOn separator rest
    else
      match splitOn separator rest with
      | [] => [[c]]
      | part :: parts => (c :: part) :: parts

/-- What stands before the first occurrence of a character, and after it. -/
def cut (separator : Char) : List Char → List Char × List Char
  | [] => ([], [])
  | c :: rest =>
    if c = separator then ([], rest)
    else
      let (before, after) := cut separator rest
      (c :: before, after)

def plusToSpace (b : UInt8) : UInt8 := if b = 0x2B then 0x20 else b

def decodeText (text : List Char) : String :=
  Utf8.decodeLenient (Percent.decode ((Utf8.encode text).map plusToSpace))

def decodePair (text : List Char) : String × String :=
  let (name, value) := cut '=' text
  (decodeText name, decodeText value)

/-- The pairs of a query; empty parts are none. -/
def decode (query : List Char) : List (String × String) :=
  ((splitOn '&' query).filter (· ≠ [])).map decodePair

/-- The characters that stand for themselves in a form. -/
def isKept (c : Char) : Bool := c.isAlphanum || c == '*' || c == '-' || c == '.' || c == '_'

def encodeChar (c : Char) : List Char := if c = ' ' then ['+'] else Percent.encodeChar isKept c

def encodeText (text : String) : List Char := text.toList.flatMap encodeChar

def encodePair (pair : String × String) : List Char :=
  encodeText pair.1 ++ '=' :: encodeText pair.2

/-- The query that has these pairs. -/
def encode : List (String × String) → List Char
  | [] => []
  | [pair] => encodePair pair
  | pair :: next :: rest => encodePair pair ++ '&' :: encode (next :: rest)

end Form

end DeepLink
