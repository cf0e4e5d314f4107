/-!
# Texts

What the readers and printers of texts share: white space, hexadecimal digits and bytes.

Hexadecimal letters count in both cases. A digit is told by its code, so that characters and bytes
share one rule.

Bytes are read character by character. Where no character starts, the bytes that could have begun
one are passed over together, at least one of them; a lenient reader puts a replacement character
there.
-/

namespace DeepLink

/-! ## White space -/

namespace Text

/-- The characters that Unicode counts as white space. -/
def isBlank (c : Char) : Bool :=
  let n := c.toNat
  (0x09 ≤ n && n ≤ 0x0D) || n == 0x20 || n == 0x85 || n == 0xA0 || n == 0x1680 ||
    (0x2000 ≤ n && n ≤ 0x200A) || n == 0x2028 || n == 0x2029 || n == 0x202F || n == 0x205F ||
    n == 0x3000

/-- The text without the white space at its end. -/
def trimEnd (text : String) : String :=
  String.ofList (text.toList.reverse.dropWhile isBlank).reverse

end Text

/-! ## Hexadecimal digits -/

namespace Hex

/-- The value of the digit with a code. -/
def ofCode? (n : Nat) : Option Nat :=
  if 0x30 ≤ n ∧ n ≤ 0x39 then some (n - 0x30)
  else if 0x41 ≤ n ∧ n ≤ 0x46 then some (n - 0x41 + 10)
  else if 0x61 ≤ n ∧ n ≤ 0x66 then some (n - 0x61 + 10)
  else none

/-- The value of a digit. -/
def ofChar? (c : Char) : Option Nat := ofCode? c.toNat

def isDigit (c : Char) : Bool := (ofChar? c).isSome

/-- The value of digits in a base up to sixteen. -/
def valueInBase (base : Nat) (digits : List Char) : Nat :=
  digits.foldl (fun n c => base * n + (ofChar? c).getD 0) 0

/-- The digit with a value, letters in upper case. -/
def upper (n : Nat) : Char :=
  if n < 10 then Char.ofNat (0x30 + n) else Char.ofNat (0x41 + (n - 10))

/-- The digit with a value, letters in lower case. -/
def lower (n : Nat) : Char :=
  if n < 10 then Char.ofNat (0x30 + n) else Char.ofNat (0x61 + (n - 10))

theorem ofCode?_toNat_upper {n : Nat} (h : n < 16) : ofCode? (upper n).toNat = some n := by
  have digit : ∀ m < 16, ofCode? (upper m).toNat = some m := by decide
  exact digit n h

end Hex

/-! ## Text as UTF-8 -/

namespace Utf8

def encode (text : List Char) : List UInt8 := text.flatMap String.utf8EncodeChar

/-- The character that starts here. -/
def first? (bytes : List UInt8) : Option Char := (bytes.take 4).toByteArray.utf8DecodeChar? 0

def isContinuation (b : UInt8) : Bool := 0x80 ≤ b && b ≤ 0xBF

/-- Whether a byte may follow the first byte of a character of three or four bytes. -/
def maySecond (first second : UInt8) : Bool :=
  if first = 0xE0 then 0xA0 ≤ second && second ≤ 0xBF
  else if first = 0xED then 0x80 ≤ second && second ≤ 0x9F
  else if first = 0xF0 then 0x90 ≤ second && second ≤ 0xBF
  else if first = 0xF4 then 0x80 ≤ second && second ≤ 0x8F
  else isContinuation second

/-- How many of the bytes after a first byte still belong to a character that is cut short. -/
def cutShort (first : UInt8) : List UInt8 → Nat
  | [] => 0
  | second :: rest =>
    if 0xE0 ≤ first ∧ first ≤ 0xF4 ∧ maySecond first second then
      match rest with
      | [] => 1
      | third :: _ => if 0xF0 ≤ first ∧ isContinuation third then 2 else 1
    else 0

/-- The characters of some bytes, with a gap where there is none. -/
def decode : List UInt8 → List (Option Char)
  | [] => []
  | b :: rest =>
    match first? (b :: rest) with
    | some c => some c :: decode (rest.drop (c.utf8Size - 1))
    | none => none :: decode (rest.drop (cutShort b rest))
termination_by bytes => bytes.length
decreasing_by all_goals (simp only [List.length_cons, List.length_drop]; omega)

/-- The text, if there are no gaps. -/
def decode? (bytes : List UInt8) : Option String :=
  let chars := decode bytes
  if chars.all Option.isSome then some (String.ofList (chars.filterMap id)) else none

/-- The text with a replacement character in every gap. -/
def decodeLenient (bytes : List UInt8) : String :=
  String.ofList ((decode bytes).map (·.getD '\ufffd'))

end Utf8

end DeepLink
