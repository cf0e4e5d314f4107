import DeepLink.Url.Encoding

/-!
# Decoding encoded texts

Bytes of a text are read as that text (`Utf8.decode_encode_append`), and a byte that was written
with a percent sign is read as that byte (`Percent.decode_encodeByte`), both whatever follows.
Together they undo percent coding for every choice of kept characters that leaves out the percent
sign (`Percent.decode_encode_append`).

An encoded text has few characters (`isCoded`). What holds of all of them is checked code by code
(`of_isCoded`).
-/

namespace DeepLink

/-! ## Bytes of texts -/

namespace Utf8

theorem first?_encodeChar (c : Char) (rest : List UInt8) :
    first? (String.utf8EncodeChar c ++ rest) = some c := by
  have hlength : (String.utf8EncodeChar c).length ≤ 4 := by
    rw [String.length_utf8EncodeChar]
    exact c.utf8Size_le_four
  unfold first?
  rw [List.take_append, List.take_of_length_le hlength, List.toByteArray_append,
    ByteArray.utf8DecodeChar?_utf8EncodeChar_append]

theorem decode_encodeChar (c : Char) (rest : List UInt8) :
    decode (String.utf8EncodeChar c ++ rest) = some c :: decode rest := by
  have hfirst := first?_encodeChar c rest
  have hlength := String.length_utf8EncodeChar c
  cases hbytes : String.utf8EncodeChar c with
  | nil =>
    rw [hbytes, List.length_nil] at hlength
    exact absurd hlength (Nat.ne_of_lt c.utf8Size_pos)
  | cons b more =>
    rw [hbytes, List.length_cons] at hlength
    rw [hbytes, List.cons_append] at hfirst
    rw [List.cons_append, decode, hfirst]
    simp only [← hlength, Nat.add_sub_cancel, List.drop_left]

theorem decode_encode_append (text : List Char) (rest : List UInt8) :
    decode (encode text ++ rest) = text.map some ++ decode rest := by
  induction text with
  | nil => rfl
  | cons c text ih =>
    unfold encode at ih ⊢
    rw [List.flatMap_cons, List.append_assoc, decode_encodeChar, ih]
    rfl

theorem decode_encode (text : List Char) : decode (encode text) = text.map some := by
  simpa [decode] using decode_encode_append text []

theorem decode?_encode (text : List Char) : decode? (encode text) = some (String.ofList text) := by
  simp [decode?, decode_encode]

theorem decodeLenient_encode (text : List Char) :
    decodeLenient (encode text) = String.ofList text := by
  rw [decodeLenient, decode_encode, List.map_map]
  exact congrArg String.ofList (List.map_id text)

theorem encode_append (left right : List Char) :
    encode (left ++ right) = encode left ++ encode right :=
  List.flatMap_append

/-- A character of ASCII is its code. -/
theorem encodeChar_of_ascii {c : Char} (hc : c.toNat < 0x80) :
    String.utf8EncodeChar c = [UInt8.ofNat c.toNat] := by
  have h : c.val.toNat ≤ 127 := Nat.le_of_lt_succ hc
  simp only [String.utf8EncodeChar, if_pos h]
  rfl

end Utf8

namespace Percent

/-! ## Characters of encoded texts -/

/-- The characters of encoded texts: those that some encoding keeps, percent and plus signs. -/
def isCoded (c : Char) : Bool :=
  c.isAlphanum || c == '-' || c == '.' || c == '_' || c == '~' || c == '*' || c == '%' || c == '+'

theorem toNat_lt_of_isCoded {c : Char} (hc : isCoded c = true) : c.toNat < 0x80 := by
  simp only [isCoded, Bool.or_eq_true, beq_iff_eq] at hc
  obtain ((((((h | rfl) | rfl) | rfl) | rfl) | rfl) | rfl) | rfl := hc
  · have hcode : (decide (65 ≤ c.val ∧ c.val ≤ 90) || 97 ≤ c.val && c.val ≤ 122 ||
        48 ≤ c.val && c.val ≤ 57) = true := h
    simp only [Bool.or_eq_true, Bool.and_eq_true, decide_eq_true_eq,
      UInt32.le_iff_toNat_le] at hcode
    change ((65 ≤ c.toNat ∧ c.toNat ≤ 90) ∨ 97 ≤ c.toNat ∧ c.toNat ≤ 122) ∨
      48 ≤ c.toNat ∧ c.toNat ≤ 57 at hcode
    omega
  all_goals decide

/-- What holds of the coded characters, checked code by code. -/
theorem of_isCoded {P : Char → Prop}
    (h : ∀ n < 0x80, isCoded (Char.ofNat n) = true → P (Char.ofNat n)) {c : Char}
    (hc : isCoded c = true) : P c := by
  have hofNat := h c.toNat (toNat_lt_of_isCoded hc)
  rw [Char.ofNat_toNat] at hofNat
  exact hofNat hc

theorem isCoded_upper {n : Nat} (hn : n < 16) : isCoded (Hex.upper n) = true := by
  have digit : ∀ m < 16, isCoded (Hex.upper m) = true := by decide
  exact digit n hn

theorem upper_ne_plus {n : Nat} (hn : n < 16) : Hex.upper n ≠ '+' := by
  have digit : ∀ m < 16, Hex.upper m ≠ '+' := by decide
  exact digit n hn

theorem mem_encodeByte {b : UInt8} {d : Char} (hd : d ∈ encodeByte b) :
    d = '%' ∨ ∃ n < 16, d = Hex.upper n := by
  have hb := b.toNat_lt
  simp only [encodeByte, List.mem_cons, List.not_mem_nil, or_false] at hd
  obtain rfl | rfl | rfl := hd
  · exact .inl rfl
  · exact .inr ⟨b.toNat / 16, by omega, rfl⟩
  · exact .inr ⟨b.toNat % 16, by omega, rfl⟩

theorem mem_encodeChar {keeps : Char → Bool} {c d : Char} (hd : d ∈ encodeChar keeps c) :
    keeps d = true ∨ d = '%' ∨ ∃ n < 16, d = Hex.upper n := by
  unfold encodeChar at hd
  split at hd
  case isTrue hc =>
    rw [List.mem_singleton] at hd
    exact .inl (hd ▸ hc)
  case isFalse =>
    obtain ⟨b, -, hb⟩ := List.mem_flatMap.mp hd
    exact .inr (mem_encodeByte hb)

theorem encode_eq_self {keeps : Char → Bool} {text : List Char}
    (h : ∀ c ∈ text, keeps c = true) : encode keeps text = text := by
  induction text with
  | nil => rfl
  | cons c text ih =>
    have hrest : encode keeps text = text := ih fun d hd => h d (List.mem_cons_of_mem c hd)
    unfold encode at hrest ⊢
    rw [List.flatMap_cons, hrest, encodeChar, if_pos (h c List.mem_cons_self)]
    rfl

/-! ## Decoding bytes -/

theorem decode_cons_of_ne {b : UInt8} (hb : b ≠ 0x25) (rest : List UInt8) :
    decode (b :: rest) = b :: decode rest := by
  match rest with
  | [] => rfl
  | [_] => rfl
  | _ :: _ :: _ => rw [decode, if_neg hb]

theorem encode_encodeByte (b : UInt8) :
    Utf8.encode (encodeByte b) = [0x25, UInt8.ofNat (Hex.upper (b.toNat / 16)).toNat,
      UInt8.ofNat (Hex.upper (b.toNat % 16)).toNat] := by
  have hb := b.toNat_lt
  have hhigh := toNat_lt_of_isCoded (isCoded_upper (n := b.toNat / 16) (by omega))
  have hlow := toNat_lt_of_isCoded (isCoded_upper (n := b.toNat % 16) (by omega))
  simp only [Utf8.encode, encodeByte, List.flatMap_cons, List.flatMap_nil,
    Utf8.encodeChar_of_ascii hhigh, Utf8.encodeChar_of_ascii hlow]
  rfl

theorem decode_encodeByte (b : UInt8) (rest : List UInt8) :
    decode (Utf8.encode (encodeByte b) ++ rest) = b :: decode rest := by
  have hb := b.toNat_lt
  have digit {n : Nat} (hn : n < 16) :
      Hex.ofCode? (UInt8.ofNat (Hex.upper n).toNat).toNat = some n := by
    have hcode := toNat_lt_of_isCoded (isCoded_upper hn)
    rw [UInt8.toNat_ofNat', Nat.mod_eq_of_lt (by omega), Hex.ofCode?_toNat_upper hn]
  have hvalue : 16 * (b.toNat / 16) + b.toNat % 16 = b.toNat := Nat.div_add_mod ..
  rw [encode_encodeByte]
  simp only [List.cons_append, List.nil_append]
  rw [decode, if_pos rfl, digit (by omega), digit (by omega)]
  simp only [hvalue, UInt8.ofNat_toNat]

theorem decode_encodeBytes (bytes rest : List UInt8) :
    decode (Utf8.encode (bytes.flatMap encodeByte) ++ rest) = bytes ++ decode rest := by
  induction bytes with
  | nil => rfl
  | cons b bytes ih =>
    rw [List.flatMap_cons, Utf8.encode_append, List.append_assoc, decode_encodeByte, ih]
    rfl

/-! ## Decoding texts -/

section Keeping

variable {keeps : Char → Bool} (hkeeps : ∀ c, keeps c = true → isCoded c = true ∧ c ≠ '%')

include hkeeps

theorem isCoded_of_mem_encodeChar {c d : Char} (hd : d ∈ encodeChar keeps c) :
    isCoded d = true := by
  obtain h | rfl | ⟨n, hn, rfl⟩ := mem_encodeChar hd
  · exact (hkeeps d h).1
  · decide
  · exact isCoded_upper hn

theorem isCoded_of_mem_encode {text : List Char} {d : Char} (hd : d ∈ encode keeps text) :
    isCoded d = true := by
  obtain ⟨c, -, hc⟩ := List.mem_flatMap.mp hd
  exact isCoded_of_mem_encodeChar hkeeps hc

theorem decode_encodeChar (c : Char) (rest : List UInt8) :
    decode (Utf8.encode (encodeChar keeps c) ++ rest) =
      String.utf8EncodeChar c ++ decode rest := by
  unfold encodeChar
  split
  case isTrue hc =>
    obtain ⟨hcoded, hpercent⟩ := hkeeps c hc
    have hbyte : c ≠ '%' → UInt8.ofNat c.toNat ≠ 0x25 :=
      of_isCoded (P := fun c => c ≠ '%' → UInt8.ofNat c.toNat ≠ 0x25) (by decide) hcoded
    rw [Utf8.encode, List.flatMap_singleton,
      Utf8.encodeChar_of_ascii (toNat_lt_of_isCoded hcoded)]
    exact decode_cons_of_ne (hbyte hpercent) rest
  case isFalse => exact decode_encodeBytes _ rest

theorem decode_encode_append (text : List Char) (rest : List UInt8) :
    decode (Utf8.encode (encode keeps text) ++ rest) = Utf8.encode text ++ decode rest := by
  induction text with
  | nil => rfl
  | cons c text ih =>
    calc decode (Utf8.encode (encodeChar keeps c ++ encode keeps text) ++ rest)
        = decode (Utf8.encode (encodeChar keeps c) ++
            (Utf8.encode (encode keeps text) ++ rest)) := by
          rw [Utf8.encode_append, List.append_assoc]
      _ = String.utf8EncodeChar c ++ (Utf8.encode text ++ decode rest) := by
          rw [decode_encodeChar hkeeps, ih]
      _ = Utf8.encode (c :: text) ++ decode rest := by
          rw [← List.append_assoc]
          rfl

theorem decodeText_encode (text : List Char) :
    decodeText (encode keeps text) = String.ofList text := by
  have h := decode_encode_append hkeeps text []
  simp only [List.append_nil, decode] at h
  rw [decodeText, h, Utf8.decode?_encode]
  rfl

end Keeping

/-! ## Unreserved characters -/

theorem isCoded_of_isUnreserved (c : Char) (hc : isUnreserved c = true) :
    isCoded c = true ∧ c ≠ '%' := by
  refine ⟨?_, ?_⟩
  · simp only [isUnreserved, isCoded, Bool.or_eq_true] at hc ⊢
    exact .inl (.inl (.inl hc))
  · rintro rfl
    exact absurd hc (by decide)

theorem decodeText_encode_toList (text : String) :
    decodeText (encode isUnreserved text.toList) = text := by
  rw [decodeText_encode isCoded_of_isUnreserved, String.ofList_toList]

end Percent

end DeepLink
