import DeepLink.Route
import DeepLink.Token.Lexer

/-!
# Lexing a spelled text

`spell` gives the tokens of an escaped text: an escaped character for every reserved one, and a run
of text for the plain characters between two of them. They stand for the text again
(`joinLiterals_spell`), and lexing finds just these tokens wherever the escaped text is followed by
a mark or by nothing (`Lexes.escape`). Texts of this kind may be put together with marks between
them (`Lexes.between`).
-/

namespace DeepLink

/-! ## Lexing one character -/

/-- The characters are over, or the next one is a mark. -/
def AtMark : List Char → Prop
  | [] => True
  | c :: _ => ∃ m : Mark, c = m.char

theorem atMark_nil : AtMark [] := trivial

theorem atMark_cons (m : Mark) (rest : List Char) : AtMark (m.char :: rest) := ⟨m, rfl⟩

theorem char_ne_backslash (m : Mark) : m.char ≠ '\\' := by cases m <;> decide

theorem ne_newline_of_isReserved {c : Char} (h : isReserved c = true) : c ≠ '\n' := by
  rintro rfl
  exact absurd h (by decide)

theorem ne_backslash_of_not_reserved {c : Char} (h : isReserved c = false) : c ≠ '\\' := by
  rintro rfl
  cases h

theorem lexemes_mark (m : Mark) (rest : List Char) :
    lexemes (m.char :: rest) = .token (.mark m) :: lexemes rest := by
  have h := char_ne_backslash m
  rw [lexemes]
  · rw [Mark.ofChar?_char]
  · intro he _
    exact h he
  · intro c _ he _
    exact h he

theorem lexemes_escaped {c : Char} (hc : c ≠ '\n') (rest : List Char) :
    lexemes ('\\' :: c :: rest) = .token (.escaped c) :: lexemes rest := by
  rw [lexemes, if_neg hc]

theorem lexemes_plain {c : Char} (hc : isReserved c = false) (rest : List Char) :
    lexemes (c :: rest) = Lexeme.pushPlain c (lexemes rest) := by
  unfold isReserved at hc
  obtain ⟨hb, hm⟩ := Bool.or_eq_false_iff.mp hc
  have hne : c ≠ '\\' := by simpa using hb
  have hnone : Mark.ofChar? c = none := by simpa using hm
  rw [lexemes]
  · rw [hnone]
  · intro he _
    exact hne he
  · intro d _ he _
    exact hne he

theorem lexemes_newline (rest : List Char) :
    lexemes ('\\' :: '\n' :: rest) = .stray :: Lexeme.pushPlain '\n' (lexemes rest) := by
  rw [lexemes, if_pos rfl]

/-- Induction over characters as lexing cuts them. -/
theorem lexemes_induction {motive : List Char → Prop} (nil : motive []) (last : motive ['\\'])
    (newline : ∀ rest, motive rest → motive ('\\' :: '\n' :: rest))
    (escaped : ∀ c rest, c ≠ '\n' → motive rest → motive ('\\' :: c :: rest))
    (mark : ∀ (m : Mark) rest, motive rest → motive (m.char :: rest))
    (plain : ∀ c rest, isReserved c = false → motive rest → motive (c :: rest)) :
    ∀ cs, motive cs := by
  intro cs
  induction cs using lexemes.induct with
  | case1 => exact nil
  | case2 => exact last
  | case3 rest ih => exact newline rest ih
  | case4 c rest hc ih => exact escaped c rest hc ih
  | case5 c rest hlast hesc m hm ih =>
    obtain rfl := Mark.ofChar?_eq_some_iff.mp hm
    exact mark m rest ih
  | case6 c rest hlast hesc hm ih =>
    have hb : c ≠ '\\' := by
      rintro rfl
      cases rest with
      | nil => exact hlast rfl rfl
      | cons e rest => exact hesc e rest rfl rfl
    exact plain c rest (by simp [isReserved, hb, hm]) ih

/-! ## The tokens of an escaped text -/

/-- Puts a plain character in front: it joins the run of text that follows it. -/
def Token.pushPlain (c : Char) : List Token → List Token
  | .text s :: rest => .text (String.singleton c ++ s) :: rest
  | rest => .text (String.singleton c) :: rest

/-- The tokens of escaped characters. -/
def spellChars : List Char → List Token
  | [] => []
  | c :: rest =>
    if isReserved c then .escaped c :: spellChars rest else Token.pushPlain c (spellChars rest)

/-- The tokens of an escaped text. -/
def spell (text : String) : List Token := spellChars text.toList

/-- A plain character joins the run at its right, unless nothing but a mark follows. -/
theorem pushPlain_map_token (c : Char) (tokens : List Token) {rest : List Char}
    (h : AtMark rest) :
    Lexeme.pushPlain c (tokens.map .token ++ lexemes rest) =
      (Token.pushPlain c tokens).map .token ++ lexemes rest := by
  cases tokens with
  | nil =>
    cases rest with
    | nil => rfl
    | cons d rest =>
      obtain ⟨m, rfl⟩ := h
      rw [lexemes_mark]
      rfl
  | cons t tokens => cases t <;> rfl

theorem lexemes_escapeChars (cs : List Char) {rest : List Char} (h : AtMark rest) :
    lexemes (cs.flatMap escapeChar ++ rest) = (spellChars cs).map .token ++ lexemes rest := by
  induction cs with
  | nil => rfl
  | cons c cs ih =>
    rw [List.flatMap_cons, List.append_assoc, spellChars]
    by_cases hc : isReserved c = true
    · rw [escapeChar, if_pos hc, if_pos hc]
      show lexemes ('\\' :: c :: (cs.flatMap escapeChar ++ rest)) = _
      rw [lexemes_escaped (ne_newline_of_isReserved hc), ih]
      rfl
    · rw [escapeChar, if_neg hc, if_neg hc]
      show lexemes (c :: (cs.flatMap escapeChar ++ rest)) = _
      rw [lexemes_plain (by simpa using hc), ih, pushPlain_map_token c _ h]

/-! ## What the tokens stand for -/

theorem joinLiterals_pushPlain (c : Char) (tokens : List Token) :
    joinLiterals (Token.pushPlain c tokens) = String.singleton c ++ joinLiterals tokens := by
  cases tokens with
  | nil => rfl
  | cons t tokens =>
    cases t with
    | mark m => rfl
    | escaped d => rfl
    | text s => simp only [Token.pushPlain, joinLiterals, Token.literal, String.append_assoc]

theorem joinLiterals_spellChars (cs : List Char) :
    joinLiterals (spellChars cs) = String.ofList cs := by
  induction cs with
  | nil => rfl
  | cons c cs ih =>
    rw [spellChars]
    split
    · rw [joinLiterals, ih]
      simp [Token.literal]
    · rw [joinLiterals_pushPlain, ih]
      simp

@[simp] theorem joinLiterals_spell (text : String) : joinLiterals (spell text) = text := by
  rw [spell, joinLiterals_spellChars, String.ofList_toList]

theorem isText_of_mem_pushPlain {c : Char} {tokens : List Token}
    (h : ∀ t ∈ tokens, t.isText = true) : ∀ t ∈ Token.pushPlain c tokens, t.isText = true := by
  intro t ht
  cases tokens with
  | nil =>
    obtain rfl := List.mem_singleton.mp ht
    rfl
  | cons u tokens =>
    cases u with
    | mark m => exact absurd (h (.mark m) List.mem_cons_self) Bool.false_ne_true
    | escaped d =>
      rcases List.mem_cons.mp ht with rfl | ht
      · rfl
      · exact h t ht
    | text s =>
      rcases List.mem_cons.mp ht with rfl | ht
      · rfl
      · exact h t (List.mem_cons_of_mem _ ht)

theorem isText_of_mem_spellChars (cs : List Char) : ∀ t ∈ spellChars cs, t.isText = true := by
  induction cs with
  | nil => simp [spellChars]
  | cons c cs ih =>
    rw [spellChars]
    split
    · rintro t ht
      rcases List.mem_cons.mp ht with rfl | ht
      · rfl
      · exact ih t ht
    · exact isText_of_mem_pushPlain ih

theorem isText_of_mem_spell {text : String} {t : Token} (h : t ∈ spell text) :
    t.isText = true := isText_of_mem_spellChars text.toList t h

theorem spell_ne_nil {text : String} (h : text ≠ "") : spell text ≠ [] := by
  intro he
  apply h
  rw [← joinLiterals_spell text, he]
  rfl

/-! ## Texts with their tokens -/

/-- Before a mark or at the end, lexing cuts the text into the tokens. -/
def Lexes (text : String) (tokens : List Token) : Prop :=
  ∀ rest : List Char, AtMark rest →
    lexemes (text.toList ++ rest) = tokens.map .token ++ lexemes rest

theorem Lexes.empty : Lexes "" [] := fun _ _ => rfl

/-- **Lexing an escaped text.** It is cut into the tokens that spell it. -/
theorem Lexes.escape (text : String) : Lexes (escape text) (spell text) := by
  intro rest h
  rw [toList_escape]
  exact lexemes_escapeChars text.toList h

/-- A keyword is one run of text. -/
theorem Lexes.keyword (k : Kind) : Lexes k.keyword [.text k.keyword] := by
  have he : DeepLink.escape k.keyword = k.keyword := by cases k <;> decide +kernel
  have hs : spell k.keyword = [.text k.keyword] := by cases k <;> decide +kernel
  have h := Lexes.escape k.keyword
  rwa [he, hs] at h

section Marks

variable {m : Mark} {s first second : String} {a b : List Token}

/-- A mark between two texts is a mark between their tokens. -/
theorem Lexes.between (hm : s.toList = [m.char]) (hf : Lexes first a) (hs : Lexes second b) :
    Lexes (first ++ s ++ second) (a ++ .mark m :: b) := by
  intro rest h
  simp only [String.toList_append, hm, List.append_assoc]
  show lexemes (first.toList ++ m.char :: (second.toList ++ rest)) = _
  rw [hf _ (atMark_cons _ _), lexemes_mark, hs _ h]
  simp

theorem Lexes.mark_append (hm : s.toList = [m.char]) (hs : Lexes second b) :
    Lexes (s ++ second) (.mark m :: b) := by
  have h := Lexes.between hm .empty hs
  rwa [String.empty_append] at h

theorem Lexes.append_mark (hm : s.toList = [m.char]) (hf : Lexes first a) :
    Lexes (first ++ s) (a ++ [.mark m]) := by
  have h := Lexes.between hm hf .empty
  rwa [String.append_empty] at h

theorem Lexes.parens (h : Lexes first a) :
    Lexes ("(" ++ first ++ ")") (.mark .openParen :: (a ++ [.mark .closeParen])) :=
  .append_mark (m := .closeParen) rfl (.mark_append (m := .openParen) rfl h)

theorem Lexes.mark (hm : s.toList = [m.char]) : Lexes s [.mark m] := by
  have h := Lexes.append_mark hm .empty
  rwa [String.empty_append] at h

end Marks

/-- A text that lexes as a whole has its tokens, none of them stray. -/
theorem Lexes.lexemes_eq {text : String} {tokens : List Token} (h : Lexes text tokens) :
    lexemes text.toList = tokens.map .token := by
  have he := h [] atMark_nil
  rwa [List.append_nil, lexemes, List.append_nil] at he

theorem ofLexemes?_map_token (offset : Nat) (tokens : List Token) :
    Token.ofLexemes? offset (tokens.map .token) = .ok tokens := by
  induction tokens generalizing offset with
  | nil => rfl
  | cons t rest ih =>
    rw [List.map_cons, Token.ofLexemes?, ih]
    rfl

theorem Lexes.ofTemplate?_eq {text : String} {tokens : List Token} (h : Lexes text tokens) :
    Token.ofTemplate? text = .ok tokens := by
  rw [Token.ofTemplate?, h.lexemes_eq, ofLexemes?_map_token]

end DeepLink
