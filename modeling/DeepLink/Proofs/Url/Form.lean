import DeepLink.Proofs.Url.Percent
import DeepLink.Url.Encoding

/-!
# Reading forms back

An encoded form is read as the pairs that it was made of (`Form.decode_encode`). Names and values
hold no separator, so the form falls into its parts where it was put together. In a part the plus
signs turn into spaces before bytes are decoded, which harms no encoded text, since in it a plus
sign stands for nothing but a space.
-/

namespace DeepLink.Form

/-! ## Splitting -/

theorem splitOn_eq (separator : Char) (text : List Char) :
    splitOn separator text = text.splitOn separator := by
  induction text with
  | nil => rfl
  | cons c rest ih =>
    rw [splitOn, ih, List.splitOn_cons_eq_if_modifyHead]
    by_cases hc : c = separator
    · rw [if_pos hc, if_pos (beq_iff_eq.mpr hc)]
    · rw [if_neg hc, if_neg (mt beq_iff_eq.mp hc)]
      cases h : rest.splitOn separator with
      | nil => exact absurd h (List.splitOn_ne_nil separator rest)
      | cons part parts => rfl

theorem splitOn_intercalate (separator : Char) {parts : List (List Char)} (hne : parts ≠ [])
    (hparts : ∀ part ∈ parts, separator ∉ part) :
    splitOn separator ([separator].intercalate parts) = parts := by
  rw [splitOn_eq, List.splitOn_intercalate separator hparts hne]

theorem cut_append (separator : Char) {before : List Char} (hbefore : separator ∉ before)
    (after : List Char) : cut separator (before ++ separator :: after) = (before, after) := by
  induction before with
  | nil => simp [cut]
  | cons c before ih =>
    have hc : c ≠ separator := fun h => hbefore (h ▸ List.mem_cons_self)
    have hrest : separator ∉ before := fun h => hbefore (List.mem_cons_of_mem c h)
    rw [List.cons_append, cut, if_neg hc, ih hrest]

/-! ## Names and values -/

theorem isCoded_of_isKept (c : Char) (hc : isKept c = true) :
    Percent.isCoded c = true ∧ c ≠ '%' := by
  refine ⟨?_, ?_⟩
  · simp only [isKept, Percent.isCoded, Bool.or_eq_true] at hc ⊢
    obtain (((h | h) | h) | h) | h := hc <;> simp [h]
  · rintro rfl
    exact absurd hc (by decide)

theorem isCoded_of_mem_encodeText {text : String} {d : Char} (hd : d ∈ encodeText text) :
    Percent.isCoded d = true := by
  obtain ⟨c, -, hc⟩ := List.mem_flatMap.mp hd
  unfold encodeChar at hc
  split at hc
  · rw [List.mem_singleton.mp hc]
    decide
  · exact Percent.isCoded_of_mem_encodeChar isCoded_of_isKept hc

theorem ne_plus_of_mem_encodeChar {c d : Char} (hd : d ∈ Percent.encodeChar isKept c) :
    d ≠ '+' := by
  obtain h | rfl | ⟨n, hn, rfl⟩ := Percent.mem_encodeChar hd
  · rintro rfl
    exact absurd h (by decide)
  · decide
  · exact Percent.upper_ne_plus hn

/-- Where no plus sign stands, none turns into a space. -/
theorem map_plusToSpace_encode {text : List Char}
    (hcoded : ∀ c ∈ text, Percent.isCoded c = true) (hplus : ∀ c ∈ text, c ≠ '+') :
    (Utf8.encode text).map plusToSpace = Utf8.encode text := by
  have hbyte {c : Char} (hc : c ∈ text) :
      (String.utf8EncodeChar c).map plusToSpace = String.utf8EncodeChar c := by
    have hcode : c ≠ '+' → plusToSpace (UInt8.ofNat c.toNat) = UInt8.ofNat c.toNat :=
      Percent.of_isCoded
        (P := fun c => c ≠ '+' → plusToSpace (UInt8.ofNat c.toNat) = UInt8.ofNat c.toNat)
        (by decide) (hcoded c hc)
    rw [Utf8.encodeChar_of_ascii (Percent.toNat_lt_of_isCoded (hcoded c hc)), List.map_singleton,
      hcode (hplus c hc)]
  rw [Utf8.encode, List.map_flatMap]
  exact congrArg List.flatten (List.map_congr_left fun c hc => hbyte hc)

theorem decode_encodeChar (c : Char) (rest : List UInt8) :
    Percent.decode ((Utf8.encode (encodeChar c)).map plusToSpace ++ rest) =
      String.utf8EncodeChar c ++ Percent.decode rest := by
  unfold encodeChar
  split
  case isTrue hc =>
    subst hc
    exact Percent.decode_cons_of_ne (by decide) rest
  case isFalse =>
    rw [map_plusToSpace_encode (fun _ => Percent.isCoded_of_mem_encodeChar isCoded_of_isKept)
      (fun _ => ne_plus_of_mem_encodeChar), Percent.decode_encodeChar isCoded_of_isKept]

theorem decode_encodeText_append (text rest : List Char) :
    Percent.decode ((Utf8.encode (text.flatMap encodeChar ++ rest)).map plusToSpace) =
      Utf8.encode text ++ Percent.decode ((Utf8.encode rest).map plusToSpace) := by
  induction text with
  | nil => rfl
  | cons c text ih =>
    rw [List.flatMap_cons, List.append_assoc, Utf8.encode_append, List.map_append,
      decode_encodeChar, ih, ← List.append_assoc]
    rfl

theorem decodeText_encodeText (text : String) : decodeText (encodeText text) = text := by
  have h := decode_encodeText_append text.toList []
  rw [List.append_nil] at h
  rw [decodeText, encodeText, h]
  calc Utf8.decodeLenient (Utf8.encode text.toList ++ Percent.decode [])
      = Utf8.decodeLenient (Utf8.encode text.toList) := by rw [Percent.decode, List.append_nil]
    _ = text := by rw [Utf8.decodeLenient_encode, String.ofList_toList]

/-! ## Pairs -/

theorem decodePair_encodePair (pair : String × String) : decodePair (encodePair pair) = pair := by
  have hname : '=' ∉ encodeText pair.1 := fun h =>
    absurd (isCoded_of_mem_encodeText h) (by decide)
  simp only [decodePair, encodePair, cut_append '=' hname, decodeText_encodeText]

theorem isCoded_of_mem_encodePair {pair : String × String} {c : Char}
    (hc : c ∈ encodePair pair) : Percent.isCoded c = true ∨ c = '=' := by
  rw [encodePair, List.mem_append, List.mem_cons] at hc
  obtain h | h | h := hc
  · exact .inl (isCoded_of_mem_encodeText h)
  · exact .inr h
  · exact .inl (isCoded_of_mem_encodeText h)

theorem encode_eq_intercalate (pairs : List (String × String)) :
    encode pairs = ['&'].intercalate (pairs.map encodePair) := by
  induction pairs using encode.induct with
  | case1 => rfl
  | case2 pair => simp [encode]
  | case3 pair next rest ih => simp [encode, ih, List.intercalate_cons_cons]

theorem isCoded_of_mem_encode {pairs : List (String × String)} {c : Char}
    (hc : c ∈ encode pairs) : Percent.isCoded c = true ∨ c = '=' ∨ c = '&' := by
  have hpair {pair : String × String} (h : c ∈ encodePair pair) :
      Percent.isCoded c = true ∨ c = '=' ∨ c = '&' :=
    (isCoded_of_mem_encodePair h).imp_right .inl
  induction pairs using encode.induct with
  | case1 => exact absurd hc List.not_mem_nil
  | case2 pair => exact hpair hc
  | case3 pair next rest ih =>
    rw [encode, List.mem_append, List.mem_cons] at hc
    obtain h | h | h := hc
    · exact hpair h
    · exact .inr (.inr h)
    · exact ih h

/-- An encoded form is read as its pairs. -/
theorem decode_encode (pairs : List (String × String)) : decode (encode pairs) = pairs := by
  by_cases hpairs : pairs = []
  · rw [hpairs]
    rfl
  have hparts : pairs.map encodePair ≠ [] := mt List.map_eq_nil_iff.mp hpairs
  have hseparator : ∀ part ∈ pairs.map encodePair, '&' ∉ part := by
    intro part hpart hmem
    obtain ⟨pair, -, rfl⟩ := List.mem_map.mp hpart
    exact absurd (isCoded_of_mem_encodePair hmem) (by decide)
  have hfilter : (pairs.map encodePair).filter (· ≠ []) = pairs.map encodePair := by
    rw [List.filter_eq_self]
    intro part hpart
    obtain ⟨pair, -, rfl⟩ := List.mem_map.mp hpart
    simp [encodePair]
  rw [decode, encode_eq_intercalate, splitOn_intercalate '&' hparts hseparator, hfilter,
    List.map_map]
  calc pairs.map (decodePair ∘ encodePair)
      = pairs.map id := List.map_congr_left fun pair _ => decodePair_encodePair pair
    _ = pairs := List.map_id _

end DeepLink.Form
