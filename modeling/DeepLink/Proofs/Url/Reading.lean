import DeepLink.Proofs.Url.Form
import DeepLink.Url

/-!
# Reading URLs of encoded parts

A URL is read in stages: the spaces around it are dropped, the scheme is cut off at its colon, user,
port and fragment are looked for, dot segments are resolved. If host, segments and query consist of
the characters of encoded texts, none of this touches them, and each part is read as it stands
(`Url.ofText?_spelled`). The scheme has to be one that is not special (`IsPlainScheme`).
-/

namespace DeepLink.Url

open Percent (isCoded of_isCoded)

/-! ## Cutting -/

/-- A run of characters is cut off where the first one that does not belong to it stands. -/
theorem span_append {p : Char → Bool} {front rest : List Char} (hfront : ∀ c ∈ front, p c = true)
    (hrest : ∀ c ∈ rest.head?, p c = false) :
    (front ++ rest).takeWhile p = front ∧ (front ++ rest).dropWhile p = rest := by
  rw [List.takeWhile_append_of_pos hfront, List.dropWhile_append_of_pos hfront]
  cases rest with
  | nil => exact ⟨List.append_nil front, rfl⟩
  | cons c rest =>
    have hc : ¬ p c = true := by simp [hrest c rfl]
    rw [List.takeWhile_cons_of_neg hc, List.dropWhile_cons_of_neg hc, List.append_nil]
    exact ⟨rfl, rfl⟩

theorem takeWhile_of_forall {p : Char → Bool} {text : List Char} (h : ∀ c ∈ text, p c = true) :
    text.takeWhile p = text := by
  have hnil : ∀ c ∈ ([] : List Char).head?, p c = false := by simp
  have hspan := (span_append h hnil).1
  rwa [List.append_nil] at hspan

/-! ## Schemes -/

/-- A scheme that is valid and not special; case does not count. -/
structure IsPlainScheme (scheme : String) : Prop where
  starts : scheme.toList.head?.any Char.isAlpha = true
  marks : scheme.toList.all isSchemeChar = true
  notSpecial : String.ofList (scheme.toList.map Char.toLower) ∉
    ["http", "https", "ws", "wss", "ftp", "file"]

theorem isCoded_of_isSchemeChar {c : Char} (hc : isSchemeChar c = true) : isCoded c = true := by
  simp only [isSchemeChar, isCoded, Bool.or_eq_true] at hc ⊢
  obtain ((h | h) | h) | h := hc <;> simp [h]

theorem SchemeClass.of_eq_plain {scheme : String}
    (h : scheme ∉ ["http", "https", "ws", "wss", "ftp", "file"]) :
    SchemeClass.of scheme = .plain := by
  unfold SchemeClass.of
  split <;> first | rfl | exact absurd (by decide) h

/-- A letter and then characters of schemes, up to a colon, are cut off as the scheme. -/
theorem cutScheme?_of_marks {scheme : List Char} (hstarts : scheme.head?.any Char.isAlpha = true)
    (hmarks : ∀ c ∈ scheme, isSchemeChar c = true) (rest : List Char) :
    cutScheme? (scheme ++ ':' :: rest) = some (String.ofList (scheme.map Char.toLower), rest) := by
  cases scheme with
  | nil => simp at hstarts
  | cons first more =>
    have hfirst : first.isAlpha = true := by simpa using hstarts
    have hcolon : ∀ c ∈ (':' :: rest).head?, isSchemeChar c = false := by
      intro c hc
      obtain rfl := Option.mem_some.mp hc
      decide
    obtain ⟨htake, hdrop⟩ := span_append hmarks hcolon
    rw [List.cons_append] at htake hdrop ⊢
    rw [cutScheme?]
    simp only [hdrop, htake, if_pos hfirst]

theorem cutScheme?_append {scheme : String} (h : IsPlainScheme scheme) (rest : List Char) :
    cutScheme? (scheme.toList ++ ':' :: rest) =
      some (String.ofList (scheme.toList.map Char.toLower), rest) :=
  cutScheme?_of_marks h.starts (List.all_eq_true.mp h.marks) rest

/-! ## Spaces and line ends -/

theorem trim_of_visible {text : List Char} (h : ∀ c ∈ text, isEdge c = false) :
    trim text = text := by
  have hdrop {t : List Char} (ht : ∀ c ∈ t, isEdge c = false) : t.dropWhile isEdge = t := by
    cases t with
    | nil => rfl
    | cons c t => exact List.dropWhile_cons_of_neg (by simp [ht c List.mem_cons_self])
  unfold trim
  rw [hdrop h, hdrop fun c hc => h c (List.mem_reverse.mp hc), List.reverse_reverse]

theorem dropBreaks_of_visible {text : List Char} (h : ∀ c ∈ text, isEdge c = false) :
    dropBreaks text = text := by
  unfold dropBreaks
  rw [List.filter_eq_self]
  intro c hc
  have hedge := h c hc
  -- tabs and line ends are control characters
  cases hdropped : isDropped c with
  | false => rfl
  | true =>
    simp only [isDropped, Bool.or_eq_true, beq_iff_eq] at hdropped
    obtain (rfl | rfl) | rfl := hdropped <;> exact absurd hedge (by decide)

theorem isEdge_of_isCoded {c : Char} (hc : isCoded c = true) : isEdge c = false :=
  of_isCoded (P := fun c => isEdge c = false) (by decide) hc

/-! ## Hosts -/

theorem cutUser_of_not_mem {authority : List Char} (h : '@' ∉ authority) :
    cutUser authority = (none, authority) := by
  have htake : authority.reverse.takeWhile (· ≠ '@') = authority.reverse := by
    apply takeWhile_of_forall
    intro c hc
    have hne : c ≠ '@' := fun he => h (he ▸ List.mem_reverse.mp hc)
    exact decide_eq_true hne
  unfold cutUser
  simp only [htake, List.reverse_reverse, if_pos]

theorem cutHost_of_not_mem (inBrackets : Bool) {authority : List Char} (h : ':' ∉ authority) :
    cutHost inBrackets authority = (authority, []) := by
  induction authority generalizing inBrackets with
  | nil => rfl
  | cons c rest ih =>
    have hc : c ≠ ':' := fun he => h (he ▸ List.mem_cons_self)
    have hrest : ':' ∉ rest := fun hm => h (List.mem_cons_of_mem c hm)
    rw [cutHost, if_neg fun hcolon => hc hcolon.1]
    simp only [ih _ hrest]

theorem freeHost?_of_coded {host : List Char} (h : ∀ c ∈ host, isCoded c = true) :
    freeHost? host = .ok host := by
  have hbracket : host.head? ≠ some '[' := by
    intro he
    exact absurd (h _ (List.mem_of_mem_head? he)) (by decide)
  have hallowed : host.any isForbiddenInHost = false := by
    rw [List.any_eq_false]
    intro c hc
    exact of_isCoded (P := fun c => ¬ isForbiddenInHost c = true) (by decide) (h c hc)
  have hkept : ∀ c ∈ host, (0x20 ≤ c.toNat && c.toNat < 0x7f) = true := fun c hc =>
    of_isCoded (P := fun c => (0x20 ≤ c.toNat && c.toNat < 0x7f) = true) (by decide) (h c hc)
  rw [freeHost?, if_neg hbracket, hallowed, if_neg Bool.false_ne_true,
    Percent.encode_eq_self hkept]

theorem readAuthority?_of_coded (toAscii? : ToAscii) {host : List Char}
    (h : ∀ c ∈ host, isCoded c = true) (tail : List Char) :
    readAuthority? toAscii? .plain host tail = .ok (host, tail) := by
  have huser : '@' ∉ host := fun hm => absurd (h _ hm) (by decide)
  have hport : ':' ∉ host := fun hm => absurd (h _ hm) (by decide)
  unfold readAuthority?
  rw [cutUser_of_not_mem huser]
  simp only [cutHost_of_not_mem false hport, freeHost?_of_coded h]
  simp [SchemeClass.isSpecial, cutPort?, bind, Except.bind, pure, Except.pure]

/-! ## Paths -/

/-- The query of a URL with its question mark, if there is one. -/
def queryText (query : List Char) : List Char := if query = [] then [] else '?' :: query

theorem splitSegments_eq (text : List Char) :
    splitSegments .plain text = Form.splitOn '/' text := by
  induction text with
  | nil => rfl
  | cons c rest ih =>
    have hslash : isSlash .plain c = true ↔ c = '/' := by
      simp [isSlash, SchemeClass.isSpecial]
    cases hparts : Form.splitOn '/' rest with
    | nil => simp [splitSegments, Form.splitOn, ih, hparts, hslash]
    | cons part parts => simp [splitSegments, Form.splitOn, ih, hparts, hslash]

theorem encodeSegment_of_coded {segment : List Char} (h : ∀ c ∈ segment, isCoded c = true) :
    encodeSegment segment = segment :=
  Percent.encode_eq_self fun c hc =>
    of_isCoded (P := fun c => isKeptInPath c = true) (by decide) (h c hc)

/-- A segment in characters of encoded texts that stands for no dots. -/
structure IsCodedSegment (segment : List Char) : Prop where
  coded : ∀ c ∈ segment, isCoded c = true
  notSingle : isSingleDot segment = false
  notDouble : isDoubleDot segment = false

theorem follow_of_coded {segments : List (List Char)} (h : ∀ s ∈ segments, IsCodedSegment s)
    (p : Path) : (p.follow .plain segments).segments = segments.reverse ++ p.segments := by
  induction segments generalizing p with
  | nil => rfl
  | cons segment rest ih =>
    have hsegment := h segment List.mem_cons_self
    have hbreaks : dropBreaks segment = segment :=
      dropBreaks_of_visible fun c hc => isEdge_of_isCoded (hsegment.coded c hc)
    have hpush : (p.push .plain segment).segments = segment :: p.segments := by
      simp [Path.push, hbreaks, encodeSegment_of_coded hsegment.coded]
    rw [Path.follow, hbreaks, if_neg (by simp [hsegment.notDouble]),
      if_neg (by simp [hsegment.notSingle]),
      ih (fun s hs => h s (List.mem_cons_of_mem segment hs)), hpush, List.reverse_cons,
      List.append_assoc]
    rfl

theorem intercalate_cons (separator : Char) (first : List Char) (rest : List (List Char)) :
    [separator].intercalate (first :: rest) = first ++ rest.flatMap (separator :: ·) := by
  induction rest generalizing first with
  | nil => simp
  | cons next rest ih => simp [List.intercalate_cons_cons, ih]

section Parts

variable {segments : List (List Char)} {query : List Char}

theorem head?_queryText {c : Char} (hc : c ∈ (queryText query).head?) : c = '?' := by
  unfold queryText at hc
  split at hc
  · exact absurd hc (Option.not_mem_none c)
  · exact (Option.mem_some.mp hc).symm

theorem head?_path {c : Char}
    (hc : c ∈ (segments.flatMap ('/' :: ·) ++ queryText query).head?) : c = '/' ∨ c = '?' := by
  cases segments with
  | nil => exact .inr (head?_queryText hc)
  | cons segment rest => exact .inl (Option.mem_some.mp hc).symm

theorem segment_kept {segment : List Char} (h : IsCodedSegment segment) :
    ∀ c ∈ segment, (!isPathEnd c) = true := fun c hc =>
  of_isCoded (P := fun c => (!isPathEnd c) = true) (by decide) (h.coded c hc)

theorem segments_kept (h : ∀ s ∈ segments, IsCodedSegment s) :
    ∀ c ∈ segments.flatMap ('/' :: ·), (!isPathEnd c) = true := by
  intro c hc
  obtain ⟨segment, hsegment, hmem⟩ := List.mem_flatMap.mp hc
  obtain rfl | hmem := List.mem_cons.mp hmem
  · decide
  · exact segment_kept (h segment hsegment) c hmem

theorem queryText_ends : ∀ c ∈ (queryText query).head?, (!isPathEnd c) = false := by
  intro c hc
  rw [head?_queryText hc]
  decide

/-- The path ends where the query starts. -/
theorem queryOf_of_coded (h : ∀ s ∈ segments, IsCodedSegment s) (hquery : '#' ∉ query) :
    queryOf (segments.flatMap ('/' :: ·) ++ queryText query) = query := by
  have hfragment : query.takeWhile (· ≠ '#') = query := by
    apply takeWhile_of_forall
    intro c hc
    have hne : c ≠ '#' := fun he => hquery (he ▸ hc)
    exact decide_eq_true hne
  unfold queryOf
  rw [(span_append (segments_kept h) queryText_ends).2]
  unfold queryText
  by_cases hempty : query = []
  · rw [if_pos hempty, hempty]
  · rw [if_neg hempty]
    exact hfragment

theorem segmentsOf_of_coded (h : ∀ s ∈ segments, IsCodedSegment s) :
    segmentsOf .plain (segments.flatMap ('/' :: ·) ++ queryText query) =
      if segments = [] then [[]] else segments := by
  cases segments with
  | nil =>
    have hslash : dropSlash .plain (queryText query) = queryText query := by
      unfold queryText
      split <;> rfl
    have hnone : ∀ c ∈ ([] : List Char), (!isPathEnd c) = true := by simp
    have hpath : (queryText query).takeWhile (!isPathEnd ·) = [] :=
      (span_append hnone queryText_ends).1
    rw [List.flatMap_nil, List.nil_append, segmentsOf, Path.ofText, hslash, hpath]
    rfl
  | cons segment rest =>
    have hkept : ∀ c ∈ segment ++ rest.flatMap ('/' :: ·), (!isPathEnd c) = true := by
      intro c hc
      obtain hc | hc := List.mem_append.mp hc
      · exact segment_kept (h segment List.mem_cons_self) c hc
      · exact segments_kept (fun s hs => h s (List.mem_cons_of_mem segment hs)) c hc
    have hseparator : ∀ s ∈ segment :: rest, '/' ∉ s := fun s hs hmem =>
      absurd ((h s hs).coded _ hmem) (by decide)
    have hslash : dropSlash .plain ((segment :: rest).flatMap ('/' :: ·) ++ queryText query) =
        segment ++ rest.flatMap ('/' :: ·) ++ queryText query := rfl
    rw [segmentsOf, Path.ofText, hslash, (span_append hkept queryText_ends).1, splitSegments_eq,
      ← intercalate_cons, Form.splitOn_intercalate '/' (List.cons_ne_nil _ _) hseparator,
      follow_of_coded h, if_neg (List.cons_ne_nil _ _)]
    simp [Path.root]

end Parts

/-! ## Whole URLs -/

section Whole

variable {scheme : String} {host : List Char} {segments : List (List Char)} {query : List Char}

theorem visible_spelled (hscheme : IsPlainScheme scheme)
    (hhost : ∀ c ∈ host, isCoded c = true) (hsegments : ∀ s ∈ segments, IsCodedSegment s)
    (hquery : ∀ c ∈ query, isCoded c = true ∨ c = '=' ∨ c = '&') :
    ∀ c ∈ scheme.toList ++ ':' :: '/' :: '/' ::
      (host ++ (segments.flatMap ('/' :: ·) ++ queryText query)), isEdge c = false := by
  have hpath : ∀ c ∈ segments.flatMap ('/' :: ·), isEdge c = false := by
    intro c hc
    obtain ⟨segment, hsegment, hmem⟩ := List.mem_flatMap.mp hc
    obtain rfl | hmem := List.mem_cons.mp hmem
    · decide
    · exact isEdge_of_isCoded ((hsegments segment hsegment).coded c hmem)
  have hpairs : ∀ c ∈ queryText query, isEdge c = false := by
    intro c hc
    unfold queryText at hc
    split at hc
    · exact absurd hc List.not_mem_nil
    · obtain rfl | hc := List.mem_cons.mp hc
      · decide
      · obtain h | rfl | rfl := hquery c hc
        · exact isEdge_of_isCoded h
        · decide
        · decide
  intro c hc
  simp only [List.mem_append, List.mem_cons] at hc
  obtain h | rfl | rfl | rfl | h | h | h := hc
  · exact isEdge_of_isCoded (isCoded_of_isSchemeChar (List.all_eq_true.mp hscheme.marks c h))
  · decide
  · decide
  · decide
  · exact isEdge_of_isCoded (hhost c h)
  · exact hpath c h
  · exact hpairs c h

/-- A URL of encoded parts is read as these parts, its scheme in lower case. -/
theorem ofText?_spelled (toAscii? : ToAscii) (hscheme : IsPlainScheme scheme)
    (hhost : ∀ c ∈ host, isCoded c = true) (hsegments : ∀ s ∈ segments, IsCodedSegment s)
    (hquery : ∀ c ∈ query, isCoded c = true ∨ c = '=' ∨ c = '&') :
    ofText? toAscii? (scheme ++ "://" ++
        String.ofList (host ++ (segments.flatMap ('/' :: ·) ++ queryText query))) =
      .ok ⟨String.ofList (scheme.toList.map Char.toLower), host,
        if segments = [] then [[]] else segments, query⟩ := by
  have htext : (scheme ++ "://" ++
      String.ofList (host ++ (segments.flatMap ('/' :: ·) ++ queryText query))).toList =
      scheme.toList ++ ':' :: '/' :: '/' ::
        (host ++ (segments.flatMap ('/' :: ·) ++ queryText query)) := by
    simp [String.toList_append]
  have hvisible := visible_spelled hscheme hhost hsegments hquery
  have hkept : ∀ c ∈ host, (!endsAuthority .plain c) = true := fun c hc =>
    of_isCoded (P := fun c => (!endsAuthority .plain c) = true) (by decide) (hhost c hc)
  have hends : ∀ c ∈ (segments.flatMap ('/' :: ·) ++ queryText query).head?,
      (!endsAuthority .plain c) = false := by
    intro c hc
    obtain rfl | rfl := head?_path hc <;> decide
  have hfragment : '#' ∉ query := fun hm => absurd (hquery _ hm) (by decide)
  obtain ⟨hauthority, hpath⟩ := span_append hkept hends
  unfold ofText?
  simp only [htext, trim_of_visible hvisible, dropBreaks_of_visible hvisible,
    cutScheme?_append hscheme, SchemeClass.of_eq_plain hscheme.notSpecial]
  rw [readPlain?, readHosted?, hauthority, hpath, readAuthority?_of_coded toAscii? hhost]
  simp only [bind, Except.bind, pure, Except.pure, segmentsOf_of_coded hsegments,
    queryOf_of_coded hsegments hfragment]

end Whole

end DeepLink.Url
