import DeepLink.Components
import DeepLink.Proofs.Url.Reading
import DeepLink.Url.Domain

/-!
# Components through URLs

The URL of components has encoded parts only, so reading it gives those parts, and decoding them
gives the components back (`Components.ofText?_toUrl`). An empty text of the path would be passed
over as an empty segment, and a text of one or two dots after the first would be resolved. No other
text can look like a dot segment, since the percent sign is encoded as well
(`isCodedSegment_encode`).
-/

namespace DeepLink

open Percent (isUnreserved isCoded_of_isUnreserved)

namespace Url

/-! ## Dot segments -/

theorem decode_of_takeDot? {segment rest : List Char} (h : takeDot? segment = some rest) :
    Percent.decode (Utf8.encode segment) = 0x2E :: Percent.decode (Utf8.encode rest) := by
  unfold takeDot? at h
  split at h
  · obtain rfl := Option.some.inj h
    exact Percent.decode_cons_of_ne (by decide) _
  · obtain rfl := Option.some.inj h
    exact Percent.decode_encodeByte 0x2E _
  · obtain rfl := Option.some.inj h
    exact Percent.decode_encodeByte 0x2E _
  · cases h

/-- An encoded text stands for dots only if it is these dots. -/
theorem isCodedSegment_encode {text : String} (h : text ≠ "." ∧ text ≠ "..") :
    IsCodedSegment (Percent.encode isUnreserved text.toList) := by
  have htext := Percent.decodeText_encode_toList text
  rw [Percent.decodeText] at htext
  have hempty : Percent.decode (Utf8.encode []) = [] := rfl
  have hone : Utf8.decode? [0x2E] = some "." := Utf8.decode?_encode ['.']
  have htwo : Utf8.decode? [0x2E, 0x2E] = some ".." := Utf8.decode?_encode ['.', '.']
  refine ⟨fun c => Percent.isCoded_of_mem_encode isCoded_of_isUnreserved, ?_, ?_⟩
  · rw [Bool.eq_false_iff]
    intro hsingle
    have hdot := decode_of_takeDot? (beq_iff_eq.mp hsingle)
    rw [hdot, hempty, hone] at htext
    exact h.1 htext.symm
  · rw [Bool.eq_false_iff]
    intro hdouble
    obtain ⟨rest, hfirst, hsecond⟩ := (Option.any_eq_true ..).mp hdouble
    have hdots := decode_of_takeDot? hfirst
    rw [decode_of_takeDot? (beq_iff_eq.mp hsecond)] at hdots
    rw [hdots, hempty, htwo] at htext
    exact h.2 htext.symm

end Url

namespace Components

/-! ## Encoded components -/

/-- The texts of a path as parts of a URL. -/
def encodedTexts (texts : List String) : List (List Char) :=
  texts.map fun text => Percent.encode isUnreserved text.toList

theorem encodePath_cons (first : String) (rest : List String) :
    encodePath (first :: rest) =
      Percent.encode isUnreserved first.toList ++ (encodedTexts rest).flatMap ('/' :: ·) := by
  induction rest generalizing first with
  | nil => simp [encodePath, encodedTexts]
  | cons next rest ih =>
    rw [encodePath, ih]
    rfl

theorem encodePath_eq (texts : List String) :
    encodePath texts =
      (encodedTexts texts).headD [] ++ (encodedTexts texts).tail.flatMap ('/' :: ·) := by
  cases texts with
  | nil => rfl
  | cons first rest => exact encodePath_cons first rest

theorem queryText_encode (pairs : List (String × String)) :
    Url.queryText (Form.encode pairs) = if pairs = [] then [] else '?' :: Form.encode pairs := by
  unfold Url.queryText
  by_cases hpairs : pairs = []
  · rw [if_pos hpairs, hpairs]
    rfl
  · have hform : Form.encode pairs ≠ [] := by
      intro h
      have hdecode := Form.decode_encode pairs
      rw [h] at hdecode
      exact hpairs hdecode.symm
    rw [if_neg hpairs, if_neg hform]

theorem map_decodeText_encodedTexts (texts : List String) :
    (encodedTexts texts).map Percent.decodeText = texts := by
  unfold encodedTexts
  rw [List.map_map]
  calc texts.map (Percent.decodeText ∘ fun text => Percent.encode isUnreserved text.toList)
      = texts.map id := List.map_congr_left fun text _ => Percent.decodeText_encode_toList text
    _ = texts := List.map_id texts

theorem ne_nil_of_mem_encodedTexts {texts : List String} (h : ∀ text ∈ texts, text ≠ "")
    {part : List Char} (hpart : part ∈ encodedTexts texts) : part ≠ [] := by
  obtain ⟨text, hmem, rfl⟩ := List.mem_map.mp hpart
  intro hnil
  have hdecode := Percent.decodeText_encode_toList text
  have hempty : Percent.decodeText [] = "" := Percent.decodeText_encode_toList ""
  rw [hnil, hempty] at hdecode
  exact h text hmem hdecode.symm

/-- A URL without segments is read with one empty segment, which counts for nothing. -/
theorem filter_parts {parts : List (List Char)} (h : ∀ part ∈ parts, part ≠ []) :
    (parts.headD [] :: if parts.tail = [] then [[]] else parts.tail).filter (· ≠ []) = parts := by
  match parts with
  | [] => rfl
  | [first] => simp [h first List.mem_cons_self]
  | first :: next :: rest =>
    rw [List.tail_cons, if_neg (List.cons_ne_nil next rest), List.headD_cons, List.filter_eq_self]
    exact fun part hpart => decide_eq_true (h part hpart)

/-- **Components through URLs.** With a scheme that is not special, the URL of components is read
as these components: the same texts of the path, the first one through the host, and the same pairs,
all in their order, whatever names outside ASCII are mapped to. -/
theorem ofText?_toUrl (toAscii? : Url.ToAscii) (c : Components) {scheme : String}
    (hscheme : Url.IsPlainScheme scheme) (hpath : ∀ text ∈ c.path, text ≠ "")
    (hdots : ∀ text ∈ c.path.tail, text ≠ "." ∧ text ≠ "..") :
    ofText? toAscii? (c.toUrl scheme) = .ok c := by
  have hhost : ∀ d ∈ (encodedTexts c.path).headD [], Percent.isCoded d = true := by
    intro d hd
    cases htexts : c.path with
    | nil => simp [encodedTexts, htexts] at hd
    | cons first rest =>
      rw [htexts] at hd
      exact Percent.isCoded_of_mem_encode isCoded_of_isUnreserved hd
  have hsegments : ∀ s ∈ (encodedTexts c.path).tail, Url.IsCodedSegment s := by
    intro s hs
    unfold encodedTexts at hs
    rw [← List.map_tail] at hs
    obtain ⟨text, htext, rfl⟩ := List.mem_map.mp hs
    exact Url.isCodedSegment_encode (hdots text htext)
  have hquery : ∀ d ∈ Form.encode c.query, Percent.isCoded d = true ∨ d = '=' ∨ d = '&' :=
    fun _ => Form.isCoded_of_mem_encode
  have hread := Url.ofText?_spelled toAscii? hscheme hhost hsegments hquery
  rw [ofText?, toUrl]
  simp only [encodePath_eq, ← queryText_encode, List.append_assoc, hread]
  rw [Except.map, ofUrl]
  simp only [filter_parts fun part hpart => ne_nil_of_mem_encodedTexts hpath hpart,
    map_decodeText_encodedTexts, Form.decode_encode]

/-- Dots in the place of the host, a slash, a space, what looks like an encoded dot, an empty pair,
and all that stands for something in a query. -/
def delimiters : Components :=
  ⟨["..", "a/b c", "é%2e"], [("", ""), ("q", "x&y=z +")]⟩

theorem ofText?_toUrl_delimiters :
    Url.IsPlainScheme "App" ∧ (∀ text ∈ delimiters.path, text ≠ "") ∧
      (∀ text ∈ delimiters.path.tail, text ≠ "." ∧ text ≠ "..") ∧
      ofText? Url.Domain.asciiName? (delimiters.toUrl "App") = .ok delimiters := by
  have hscheme : Url.IsPlainScheme "App" := ⟨by decide, by decide, by decide⟩
  have hpath : ∀ text ∈ delimiters.path, text ≠ "" := by decide
  have hdots : ∀ text ∈ delimiters.path.tail, text ≠ "." ∧ text ≠ ".." := by decide
  exact ⟨hscheme, hpath, hdots, ofText?_toUrl _ delimiters hscheme hpath hdots⟩

example : delimiters.toUrl "App" = "App://../a%2Fb%20c/%C3%A9%252e?=&q=x%26y%3Dz+%2B" := by
  decide +kernel

end Components

end DeepLink
