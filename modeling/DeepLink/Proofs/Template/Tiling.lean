import Mathlib.Data.List.Chain
import Mathlib.Data.String.Basic
import DeepLink.Proofs.Template.Names

/-!
# Tokens tile their template

A backslash takes the character after it along, so whether it escapes anything is decided from the
left. A template has tokens if all its escapes are whole (`WellEscaped`), and then the tokens divide
it: each stands in its own bytes, these follow each other from the first to the last, and no run of
plain characters is cut in two (`Tiles`). Otherwise the first backslash that escapes nothing is
reported, and reading on without such backslashes loses nothing else (`joinSources_lossy`).

So tokens in a row can be quoted without looking at the template again: their sources are what
stands there from the first of them to the last (`quote_eq_joinSources`).
-/

namespace DeepLink

/-- Read from the left, every backslash escapes the character after it, which is not a line feed. -/
inductive WellEscaped : List Char → Prop
  | nil : WellEscaped []
  | plain {c : Char} {rest : List Char} (hc : c ≠ '\\') (h : WellEscaped rest) :
    WellEscaped (c :: rest)
  | escaped {c : Char} {rest : List Char} (hc : c ≠ '\n') (h : WellEscaped rest) :
    WellEscaped ('\\' :: c :: rest)

/-- A backslash in front escapes nothing: the characters are over, or a line feed is next. -/
def Unescapable : List Char → Prop
  | [] => True
  | c :: _ => c = '\n'

/-- The characters without the backslashes that escape nothing, read from the left. -/
def withoutStrays : List Char → List Char
  | [] => []
  | ['\\'] => []
  | '\\' :: c :: rest =>
    if c = '\n' then c :: withoutStrays rest else '\\' :: c :: withoutStrays rest
  | c :: rest => c :: withoutStrays rest

namespace Token

/-- Whether the token is a run of plain characters. -/
def isRun : Token → Bool
  | text _ => true
  | _ => false

/-- Not both are runs of plain characters. -/
def Apart (t u : Token) : Prop := ¬ (t.isRun = true ∧ u.isRun = true)

end Token

/-- The spans follow each other without a gap, from one byte to another. -/
def Contiguous : Nat → List Span → Nat → Prop
  | start, [], stop => start = stop
  | start, span :: rest, stop => span.start = start ∧ Contiguous span.stop rest stop

/-- The tokens with their spans divide the text. -/
structure Tiles (text : String) (spanned : List (Token × Span)) : Prop where
  nonempty : ∀ t ∈ spanned, t.2.start < t.2.stop
  contiguous : Contiguous 0 (spanned.map Prod.snd) text.utf8ByteSize
  boundaries : ∀ t ∈ spanned, (⟨t.2.start⟩ : String.Pos.Raw).IsValid text ∧
    (⟨t.2.stop⟩ : String.Pos.Raw).IsValid text
  slices : ∀ t ∈ spanned,
    text.toByteArray.extract t.2.start t.2.stop = t.1.source.toByteArray
  apart : (spanned.map Prod.fst).IsChain Token.Apart

/-! ## Escapes that are whole -/

theorem withoutStrays_cons {c : Char} (hc : c ≠ '\\') (rest : List Char) :
    withoutStrays (c :: rest) = c :: withoutStrays rest := by
  rw [withoutStrays]
  · intro he _
    exact hc he
  · intro d _ he _
    exact hc he

theorem withoutStrays_of_wellEscaped {cs : List Char} (h : WellEscaped cs) :
    withoutStrays cs = cs := by
  induction h with
  | nil => rfl
  | plain hc _ ih => rw [withoutStrays_cons hc, ih]
  | escaped hc _ ih => rw [withoutStrays, if_neg hc, ih]

/-- Escapes are whole throughout, or up to a first backslash that escapes nothing. -/
theorem wellEscaped_or_exists : (cs : List Char) → WellEscaped cs ∨
    ∃ before after, cs = before ++ '\\' :: after ∧ WellEscaped before ∧ Unescapable after
  | [] => .inl .nil
  | c :: rest => by
    by_cases hc : c = '\\'
    · subst hc
      match rest with
      | [] => exact .inr ⟨[], [], rfl, .nil, trivial⟩
      | d :: rest =>
        by_cases hd : d = '\n'
        · exact .inr ⟨[], d :: rest, rfl, .nil, hd⟩
        · rcases wellEscaped_or_exists rest with h | ⟨before, after, rfl, h, ha⟩
          · exact .inl (.escaped hd h)
          · exact .inr ⟨'\\' :: d :: before, after, rfl, .escaped hd h, ha⟩
    · rcases wellEscaped_or_exists rest with h | ⟨before, after, rfl, h, ha⟩
      · exact .inl (.plain hc h)
      · exact .inr ⟨c :: before, after, rfl, .plain hc h, ha⟩

/-- A character other than a backslash is a mark of its own or joins what follows it. -/
theorem lexemes_cons {c : Char} (hc : c ≠ '\\') (rest : List Char) :
    (∃ m : Mark, c = m.char ∧ lexemes (c :: rest) = .token (.mark m) :: lexemes rest) ∨
      lexemes (c :: rest) = Lexeme.pushPlain c (lexemes rest) := by
  cases hm : Mark.ofChar? c with
  | some m =>
    obtain rfl := Mark.ofChar?_eq_some_iff.mp hm
    exact .inl ⟨m, rfl, lexemes_mark m rest⟩
  | none => exact .inr (lexemes_plain (by simp [isReserved, hc, hm]) rest)

/-! ## Lexemes and their tokens -/

/-- A plain character in front moves the tokens on and joins the run that they start with. -/
theorem ofLexemes?_pushPlain (offset : Nat) (c : Char) (ls : List Lexeme) :
    Token.ofLexemes? offset (Lexeme.pushPlain c ls) =
      (Token.ofLexemes? (offset + c.utf8Size) ls).map (Token.pushPlain c) := by
  have hc : (Token.text (String.singleton c)).size = c.utf8Size := String.utf8ByteSize_singleton
  cases ls with
  | nil => rfl
  | cons l ls =>
    cases l with
    | stray =>
      show (Token.ofLexemes? (offset + _) (.stray :: ls)).map _ = _
      rw [hc]
      rfl
    | token t =>
      cases t
      case text s =>
        have hs : (Token.text (String.singleton c ++ s)).size =
            c.utf8Size + (Token.text s).size := by
          simp [Token.size, Token.source]
        show (Token.ofLexemes? (offset + _) ls).map _ = _
        rw [hs, ← Nat.add_assoc, Token.ofLexemes?]
        generalize Token.ofLexemes? _ ls = made
        cases made <;> rfl
      case mark u | escaped u =>
        show (Token.ofLexemes? (offset + _) (.token _ :: ls)).map _ = _
        rw [hc, Token.ofLexemes?]
        generalize Token.ofLexemes? _ ls = made
        cases made <;> rfl

/-- The number of bytes of the characters. -/
def byteCount (cs : List Char) : Nat := (String.ofList cs).utf8ByteSize

theorem byteCount_cons (c : Char) (cs : List Char) :
    byteCount (c :: cs) = c.utf8Size + byteCount cs := by
  simp [byteCount, String.ofList_cons]

theorem exists_ofLexemes?_of_wellEscaped {cs : List Char} (h : WellEscaped cs) (offset : Nat) :
    ∃ tokens, Token.ofLexemes? offset (lexemes cs) = .ok tokens := by
  induction h generalizing offset with
  | nil => exact ⟨[], rfl⟩
  | @plain c rest hc _ ih =>
    rcases lexemes_cons hc rest with ⟨m, rfl, hm⟩ | hp
    · obtain ⟨tokens, ht⟩ := ih (offset + (Token.mark m).size)
      rw [hm, Token.ofLexemes?, ht]
      exact ⟨_, rfl⟩
    · obtain ⟨tokens, ht⟩ := ih (offset + c.utf8Size)
      rw [hp, ofLexemes?_pushPlain, ht]
      exact ⟨_, rfl⟩
  | @escaped c rest hc _ ih =>
    obtain ⟨tokens, ht⟩ := ih (offset + (Token.escaped c).size)
    rw [lexemes_escaped hc, Token.ofLexemes?, ht]
    exact ⟨_, rfl⟩

/-- The first backslash that escapes nothing is reported at its place. -/
theorem ofLexemes?_of_unescapable {before after : List Char} (h : WellEscaped before)
    (ha : Unescapable after) (offset : Nat) :
    Token.ofLexemes? offset (lexemes (before ++ '\\' :: after)) =
      .error ⟨offset + byteCount before, offset + byteCount before + 1⟩ := by
  induction h generalizing offset with
  | nil =>
    cases after with
    | nil => rfl
    | cons c rest =>
      obtain rfl : c = '\n' := ha
      rw [List.nil_append, lexemes_newline]
      rfl
  | @plain c rest hc _ ih =>
    rw [List.cons_append, byteCount_cons, ← Nat.add_assoc]
    rcases lexemes_cons hc (rest ++ '\\' :: after) with ⟨m, rfl, hm⟩ | hp
    · have hs : (Token.mark m).size = m.char.utf8Size := String.utf8ByteSize_singleton
      rw [hm, Token.ofLexemes?, ih, hs]
      rfl
    · rw [hp, ofLexemes?_pushPlain, ih]
      rfl
  | @escaped c rest hc _ ih =>
    have hs : (Token.escaped c).size = '\\'.utf8Size + c.utf8Size := by
      show byteCount ['\\', c] = _
      rw [byteCount_cons, byteCount_cons]
      rfl
    rw [List.cons_append, List.cons_append, byteCount_cons, byteCount_cons, ← Nat.add_assoc,
      ← Nat.add_assoc, lexemes_escaped hc, Token.ofLexemes?, ih, hs, ← Nat.add_assoc]
    rfl

theorem lexemes_eq_of_ofLexemes? {offset : Nat} {ls : List Lexeme} {tokens : List Token}
    (h : Token.ofLexemes? offset ls = .ok tokens) : ls = tokens.map .token := by
  induction ls generalizing offset tokens with
  | nil =>
    cases h
    rfl
  | cons l ls ih =>
    cases l with
    | stray => cases h
    | token t =>
      rw [Token.ofLexemes?] at h
      obtain ⟨more, hmore, rfl⟩ := map_eq_ok.mp h
      rw [List.map_cons, ih hmore]

/-! ## Reading on without stray backslashes -/

theorem joinSources_filterMap_pushPlain (c : Char) (ls : List Lexeme) :
    joinSources ((Lexeme.pushPlain c ls).filterMap Lexeme.token?) =
      String.singleton c ++ joinSources (ls.filterMap Lexeme.token?) := by
  unfold Lexeme.pushPlain
  split
  · simp [Lexeme.token?, joinSources, Token.source, String.append_assoc]
  · simp [Lexeme.token?, joinSources, Token.source]

/-- The tokens of a template spell it again, without the backslashes that escape nothing. -/
theorem joinSources_lossy (cs : List Char) :
    joinSources ((lexemes cs).filterMap Lexeme.token?) = String.ofList (withoutStrays cs) := by
  induction cs using lexemes_induction with
  | nil => rfl
  | last => rfl
  | newline rest ih =>
    rw [lexemes_newline, withoutStrays, if_pos rfl, String.ofList_cons, ← ih]
    exact joinSources_filterMap_pushPlain '\n' _
  | escaped c rest hc ih =>
    rw [lexemes_escaped hc, withoutStrays, if_neg hc, String.ofList_cons, String.ofList_cons, ← ih]
    show String.ofList ['\\', c] ++ _ = _
    rw [String.ofList_cons, String.ofList_cons, String.append_assoc, String.append_assoc]
    simp
  | mark m rest ih =>
    rw [lexemes_mark, withoutStrays_cons (char_ne_backslash m), String.ofList_cons, ← ih]
    rfl
  | plain c rest hc ih =>
    rw [lexemes_plain hc, withoutStrays_cons (ne_backslash_of_not_reserved hc),
      String.ofList_cons, ← ih]
    exact joinSources_filterMap_pushPlain c _

/-! ## Runs of plain characters -/

namespace Lexeme

def isRun : Lexeme → Bool
  | token t => t.isRun
  | stray => false

/-- Not both are runs of plain characters. -/
def Apart (l k : Lexeme) : Prop := ¬ (l.isRun = true ∧ k.isRun = true)

theorem apart_left {l : Lexeme} (h : l.isRun = false) (k : Lexeme) : l.Apart k :=
  fun ⟨hl, _⟩ => Bool.false_ne_true (h.symm.trans hl)

theorem apart_right (l : Lexeme) {k : Lexeme} (h : k.isRun = false) : l.Apart k :=
  fun ⟨_, hk⟩ => Bool.false_ne_true (h.symm.trans hk)

end Lexeme

theorem isChain_cons_of_not_isRun {l : Lexeme} (hl : l.isRun = false) {ls : List Lexeme}
    (h : ls.IsChain Lexeme.Apart) : (l :: ls).IsChain Lexeme.Apart :=
  h.cons fun k _ => Lexeme.apart_left hl k

theorem isChain_pushPlain (c : Char) {ls : List Lexeme} (h : ls.IsChain Lexeme.Apart) :
    (Lexeme.pushPlain c ls).IsChain Lexeme.Apart := by
  cases ls with
  | nil => exact .singleton _
  | cons l ls =>
    cases l with
    | stray => exact .cons_cons (Lexeme.apart_right _ rfl) h
    | token t =>
      cases t with
      | mark m => exact .cons_cons (Lexeme.apart_right _ rfl) h
      | escaped d => exact .cons_cons (Lexeme.apart_right _ rfl) h
      | text s =>
        -- The run only grows to the left, so it stays apart from what follows it.
        cases ls with
        | nil => exact .singleton _
        | cons k ls =>
          obtain ⟨hk, hls⟩ := List.isChain_cons_cons.mp h
          exact .cons_cons hk hls

theorem isChain_lexemes (cs : List Char) : (lexemes cs).IsChain Lexeme.Apart := by
  induction cs using lexemes_induction with
  | nil => exact .nil
  | last => exact .singleton _
  | newline rest ih =>
    rw [lexemes_newline]
    exact isChain_cons_of_not_isRun rfl (isChain_pushPlain '\n' ih)
  | escaped c rest hc ih =>
    rw [lexemes_escaped hc]
    exact isChain_cons_of_not_isRun rfl ih
  | mark m rest ih =>
    rw [lexemes_mark]
    exact isChain_cons_of_not_isRun rfl ih
  | plain c rest hc ih =>
    rw [lexemes_plain hc]
    exact isChain_pushPlain c ih

/-! ## Places of tokens -/

theorem Token.size_pos {t : Token} (h : t.literal ≠ "") : 0 < t.size := by
  have hs : t.source ≠ "" := by
    cases t with
    | mark m => exact h
    | escaped c => simp [Token.source]
    | text s => exact h
  exact Nat.pos_of_ne_zero fun he => hs (String.utf8ByteSize_eq_zero_iff.mp he)

theorem map_fst_withSpans (tokens : List Token) (offset : Nat) :
    (Token.withSpans offset tokens).map Prod.fst = tokens := by
  induction tokens generalizing offset with
  | nil => rfl
  | cons t tokens ih => rw [Token.withSpans, List.map_cons, ih]

theorem contiguous_withSpans (tokens : List Token) (offset : Nat) :
    Contiguous offset ((Token.withSpans offset tokens).map Prod.snd)
      (offset + (joinSources tokens).utf8ByteSize) := by
  induction tokens generalizing offset with
  | nil => rfl
  | cons t tokens ih =>
    refine ⟨rfl, ?_⟩
    rw [joinSources, String.utf8ByteSize_append, ← Nat.add_assoc]
    exact ih (offset + t.size)

/-- Tokens are moved by the bytes of those before them. -/
theorem withSpans_append (a b : List Token) (offset : Nat) :
    Token.withSpans offset (a ++ b) = Token.withSpans offset a ++
      Token.withSpans (offset + (joinSources a).utf8ByteSize) b := by
  induction a generalizing offset with
  | nil => rfl
  | cons t a ih =>
    have hsize : (joinSources (t :: a)).utf8ByteSize = t.size + (joinSources a).utf8ByteSize :=
      String.utf8ByteSize_append
    rw [List.cons_append, Token.withSpans, Token.withSpans, ih, hsize, Nat.add_assoc]
    rfl

/-- A token stands behind the bytes of those before it. -/
theorem exists_of_mem_withSpans {tokens : List Token} {offset : Nat} {t : Token × Span}
    (h : t ∈ Token.withSpans offset tokens) :
    t.1 ∈ tokens ∧ ∃ before after, joinSources tokens = before ++ t.1.source ++ after ∧
      t.2 = ⟨offset + before.utf8ByteSize, offset + before.utf8ByteSize + t.1.size⟩ := by
  induction tokens generalizing offset with
  | nil => cases h
  | cons u tokens ih =>
    rcases List.mem_cons.mp h with rfl | h
    · exact ⟨List.mem_cons_self, "", joinSources tokens, by simp [joinSources], rfl⟩
    · obtain ⟨hm, before, after, he, hs⟩ := ih h
      refine ⟨List.mem_cons_of_mem _ hm, u.source ++ before, after, ?_, ?_⟩
      · rw [joinSources, he]
        simp only [String.append_assoc]
      · rw [hs, String.utf8ByteSize_append, ← Nat.add_assoc]
        rfl

/-- The bytes behind those of a first text are those of the text that follows it. -/
theorem extract_between (before part after : String) :
    (before ++ part ++ after).toByteArray.extract before.utf8ByteSize
      (before.utf8ByteSize + part.utf8ByteSize) = part.toByteArray := by
  rw [String.append_assoc, String.toByteArray_append, String.toByteArray_append]
  have hskip := ByteArray.extract_append_size_add (a := before.toByteArray)
    (b := part.toByteArray ++ after.toByteArray) (i := 0) (j := part.toByteArray.size)
  exact hskip.trans (ByteArray.extract_append_eq_left rfl)

theorem slice_between (before part after : String) :
    Span.slice ⟨before.utf8ByteSize, before.utf8ByteSize + part.utf8ByteSize⟩
      (before ++ part ++ after) = part := by
  have h := String.extract_of_valid before.toList part.toList after.toList
  simpa [Span.slice, String.append_assoc] using h

theorem isValid_between (before after : String) :
    (⟨before.utf8ByteSize⟩ : String.Pos.Raw).IsValid (before ++ after) :=
  String.Pos.Raw.isValid_rawEndPos.append_right after

/-! ## Templates -/

/-- Tokens that spell a text, none of them empty and no two runs adjacent, tile it. -/
theorem tiles_withSpans {tokens : List Token} {text : String} (hs : Solid tokens)
    (hc : tokens.IsChain Token.Apart) (ht : joinSources tokens = text) :
    Tiles text (Token.withSpans 0 tokens) := by
  subst ht
  refine ⟨fun t h => ?_, ?_, fun t h => ?_, fun t h => ?_, ?_⟩
  · obtain ⟨hm, before, after, -, hspan⟩ := exists_of_mem_withSpans h
    have hpos := Token.size_pos (hs t.1 hm)
    simp only [hspan]
    omega
  · have h := contiguous_withSpans tokens 0
    rwa [Nat.zero_add] at h
  · obtain ⟨-, before, after, he, hspan⟩ := exists_of_mem_withSpans h
    simp only [hspan, he, Nat.zero_add, Token.size, ← String.utf8ByteSize_append]
    refine ⟨?_, isValid_between _ after⟩
    rw [String.append_assoc]
    exact isValid_between before _
  · obtain ⟨-, before, after, he, hspan⟩ := exists_of_mem_withSpans h
    simp only [hspan, he, Nat.zero_add, Token.size]
    exact extract_between before t.1.source after
  · rwa [map_fst_withSpans]

/-- What lexing finds in a template with tokens. -/
theorem lexemes_of_ofTemplate? {text : String} {tokens : List Token}
    (h : Token.ofTemplate? text = .ok tokens) :
    lexemes text.toList = tokens.map .token ∧ Token.ofTemplateLossy text = tokens := by
  have hl := lexemes_eq_of_ofLexemes? h
  refine ⟨hl, ?_⟩
  rw [Token.ofTemplateLossy, hl, List.filterMap_map]
  exact List.filterMap_some

/-- A text has tokens if its escapes are whole, and only then. -/
theorem exists_ofTemplate?_iff (text : String) :
    (∃ tokens, Token.ofTemplate? text = .ok tokens) ↔ WellEscaped text.toList := by
  refine ⟨fun ⟨tokens, h⟩ => ?_, fun h => exists_ofLexemes?_of_wellEscaped h 0⟩
  rcases wellEscaped_or_exists text.toList with hw | ⟨before, after, he, hw, ha⟩
  · exact hw
  · rw [Token.ofTemplate?, he, ofLexemes?_of_unescapable hw ha] at h
    cases h

/-- The first backslash that escapes nothing is reported with its one byte. -/
theorem exists_of_not_wellEscaped {text : String} (h : ¬ WellEscaped text.toList) :
    ∃ before after, text = before ++ "\\" ++ after ∧ WellEscaped before.toList ∧
      Unescapable after.toList ∧
      Token.ofTemplate? text = .error ⟨before.utf8ByteSize, before.utf8ByteSize + 1⟩ := by
  obtain ⟨before, after, he, hb, ha⟩ := (wellEscaped_or_exists text.toList).resolve_left h
  refine ⟨String.ofList before, String.ofList after, ?_, ?_, ?_, ?_⟩
  · apply String.toList_inj.mp
    simp [he]
  · rwa [String.toList_ofList]
  · rwa [String.toList_ofList]
  · have hreported := ofLexemes?_of_unescapable hb ha 0
    rwa [← he, Nat.zero_add] at hreported

/-- The sources of the tokens are the template again. -/
theorem joinSources_of_ofTemplate? {text : String} {tokens : List Token}
    (h : Token.ofTemplate? text = .ok tokens) : joinSources tokens = text := by
  have hw := (exists_ofTemplate?_iff text).mp ⟨tokens, h⟩
  have hjoin := joinSources_lossy text.toList
  rw [withoutStrays_of_wellEscaped hw, String.ofList_toList] at hjoin
  exact (lexemes_of_ofTemplate? h).2 ▸ hjoin

/-! ## Quotes -/

/-- What stands in a text from the first of some tokens in a row to the last. -/
def quote (text : String) (run : List (Token × Span)) : String :=
  match run.head?, run.getLast? with
  | some first, some last => Span.slice ⟨first.2.start, last.2.stop⟩ text
  | _, _ => ""

theorem Contiguous.stop_getLast {start stop : Nat} {spans : List Span}
    (h : Contiguous start spans stop) (hne : spans ≠ []) : (spans.getLast hne).stop = stop := by
  induction spans generalizing start with
  | nil => exact absurd rfl hne
  | cons span rest ih =>
    obtain ⟨-, hrest⟩ := h
    cases rest with
    | nil => exact hrest
    | cons next rest => exact ih hrest (List.cons_ne_nil next rest)

/-- Tokens without a gap between them are quoted from where they start to where they stop. -/
theorem quote_eq_slice {start stop : Nat} {run : List (Token × Span)} (hne : run ≠ [])
    (h : Contiguous start (run.map Prod.snd) stop) (text : String) :
    quote text run = Span.slice ⟨start, stop⟩ text := by
  have hlast := h.stop_getLast (mt List.map_eq_nil_iff.mp hne)
  rw [List.getLast_map] at hlast
  obtain ⟨first, rest, rfl⟩ := List.exists_cons_of_ne_nil hne
  obtain ⟨hfirst, -⟩ := h
  rw [quote, List.head?_cons, List.getLast?_eq_some_getLast hne]
  show Span.slice ⟨first.2.start, _⟩ text = _
  rw [hfirst, hlast]

/-- Tokens in a row have the spans that they get behind the bytes of those before them. -/
theorem eq_withSpans_of_append {tokens : List Token} {offset : Nat} {a b : List (Token × Span)}
    (h : Token.withSpans offset tokens = a ++ b) :
    a = Token.withSpans offset (a.map Prod.fst) ∧
      b = Token.withSpans (offset + (joinSources (a.map Prod.fst)).utf8ByteSize)
        (b.map Prod.fst) := by
  have hlen (n : Nat) (l : List Token) : (Token.withSpans n l).length = l.length := by
    rw [← List.length_map Prod.fst, map_fst_withSpans]
  have ht := map_fst_withSpans tokens offset
  rw [h, List.map_append] at ht
  rw [← ht, withSpans_append] at h
  obtain ⟨ha, hb⟩ := List.append_inj h (by rw [hlen, List.length_map])
  exact ⟨ha.symm, hb.symm⟩

/-- **Sources of tokens quote their template.** What stands in a template from the first of some
tokens in a row to the last is their sources, put together. -/
theorem quote_eq_joinSources {text : String} {tokens : List Token}
    (h : Token.ofTemplate? text = .ok tokens) {run : List (Token × Span)}
    (hr : run <:+: Token.withSpans 0 tokens) :
    quote text run = joinSources (run.map Prod.fst) := by
  by_cases hne : run = []
  · rw [hne]
    rfl
  obtain ⟨before, after, he⟩ := hr
  have htext := joinSources_of_ofTemplate? h
  rw [← map_fst_withSpans tokens 0, ← he, List.map_append, List.map_append, joinSources_append,
    joinSources_append] at htext
  obtain ⟨hfront, -⟩ := eq_withSpans_of_append he.symm
  rw [List.map_append] at hfront
  obtain ⟨-, hrun⟩ := eq_withSpans_of_append hfront.symm
  rw [Nat.zero_add] at hrun
  have hspans := contiguous_withSpans (run.map Prod.fst)
    (joinSources (before.map Prod.fst)).utf8ByteSize
  rw [← hrun] at hspans
  rw [quote_eq_slice hne hspans, ← htext]
  exact slice_between _ _ _

example :
    quote "é/(b)?" [(.mark .openParen, ⟨3, 4⟩), (.text "b", ⟨4, 5⟩), (.mark .closeParen, ⟨5, 6⟩)] =
      "(b)" := rfl

/-! ## The law -/

/-- **Tokens tile their template.** A template has tokens exactly if, read from the left, every
escaping backslash is followed by a character other than a line feed. They tile it then, and are the
same if stray backslashes are left out. Otherwise the first backslash that escapes nothing is
reported with its one byte, and the tokens that are left spell the template without such
backslashes. -/
theorem tiles_of_ofTemplate? (text : String) :
    ((∃ tokens, Token.ofTemplate? text = .ok tokens) ↔ WellEscaped text.toList) ∧
      (∀ tokens, Token.ofTemplate? text = .ok tokens →
        Tiles text (Token.withSpans 0 tokens) ∧ Token.ofTemplateLossy text = tokens) ∧
      (¬ WellEscaped text.toList →
        (∃ before after, text = before ++ "\\" ++ after ∧ WellEscaped before.toList ∧
          Unescapable after.toList ∧
          Token.ofTemplate? text =
            .error ⟨before.utf8ByteSize, before.utf8ByteSize + 1⟩) ∧
        joinSources (Token.ofTemplateLossy text) =
          String.ofList (withoutStrays text.toList)) := by
  refine ⟨exists_ofTemplate?_iff text, fun tokens h => ?_,
    fun hw => ⟨exists_of_not_wellEscaped hw, joinSources_lossy text.toList⟩⟩
  obtain ⟨hl, hlossy⟩ := lexemes_of_ofTemplate? h
  have hchain := isChain_lexemes text.toList
  rw [hl, List.isChain_map] at hchain
  exact ⟨tiles_withSpans (solid_of_ofTemplate? h) hchain (joinSources_of_ofTemplate? h), hlossy⟩

/-- Spans count bytes, so the escape of a two-byte character has three. The two stray backslashes of
the second template are left out, and the line feed between them is not. -/
theorem tiles_of_ofTemplate?_accented :
    Tiles "é\\ü/" [(.text "é", ⟨0, 2⟩), (.escaped 'ü', ⟨2, 5⟩), (.mark .slash, ⟨5, 6⟩)] ∧
      joinSources (Token.ofTemplateLossy "a\\\nb\\") = "a\nb" := by
  have hok : Token.ofTemplate? "é\\ü/" = .ok [.text "é", .escaped 'ü', .mark .slash] := rfl
  have hstray : ¬ WellEscaped "a\\\nb\\".toList := by
    intro h
    cases h with
    | plain _ h =>
      cases h with
      | plain hc _ => exact hc rfl
      | escaped hc _ => exact hc rfl
  exact ⟨((tiles_of_ofTemplate? _).2.1 _ hok).1, ((tiles_of_ofTemplate? _).2.2 hstray).2⟩

end DeepLink
