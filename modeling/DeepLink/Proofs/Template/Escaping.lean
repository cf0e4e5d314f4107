import DeepLink.Proofs.Template.Tiling

/-!
# Lexing undoes escaping

Escaping leaves no mark in a text and no backslash that escapes nothing, so all tokens of an escaped
text stand for text, and together they stand for the text that was escaped (`ofTemplate?_escape`,
`joinLiterals_spell`).

A mark ends the run of plain characters before it, and it is not taken along by an escape that is
whole. So escaped texts can be put together at marks: each keeps its tokens, and those behind are
only moved by the bytes before them (`ofTemplate?_escape_between`, `withSpans_append`). At a
backslash they cannot, since it takes along the first character of what follows.
-/

namespace DeepLink

/-! ## Escaped texts -/

theorem ofTemplate?_escape (text : String) :
    Token.ofTemplate? (escape text) = .ok (spell text) := (Lexes.escape text).ofTemplate?_eq

theorem joinSources_spell (text : String) : joinSources (spell text) = escape text :=
  joinSources_of_ofTemplate? (ofTemplate?_escape text)

/-! ## Marks between escaped texts -/

/-- The backslash is the only reserved character that is not a mark. -/
theorem exists_char_eq_of_isReserved {c : Char} (hc : isReserved c = true) (hb : c ≠ '\\') :
    ∃ m : Mark, m.char = c := by
  unfold isReserved at hc
  rcases Bool.or_eq_true_iff.mp hc with hc | hc
  · exact absurd (eq_of_beq hc) hb
  · obtain ⟨m, hm⟩ := Option.isSome_iff_exists.mp hc
    exact ⟨m, Mark.char_eq_of_ofChar? hm⟩

theorem ofTemplate?_mark (m : Mark) :
    Token.ofTemplate? (String.singleton m.char) = .ok [.mark m] :=
  (Lexes.mark (String.toList_singleton m.char)).ofTemplate?_eq

theorem ofTemplate?_escape_between (m : Mark) (first second : String) :
    Token.ofTemplate? (escape first ++ String.singleton m.char ++ escape second) =
      .ok (spell first ++ .mark m :: spell second) :=
  (Lexes.between (String.toList_singleton m.char) (.escape first) (.escape second)).ofTemplate?_eq

theorem withSpans_spell_between (m : Mark) (first second : String) :
    Token.withSpans 0 (spell first ++ .mark m :: spell second) =
      Token.withSpans 0 (spell first) ++
        (.mark m, ⟨(escape first).utf8ByteSize, (escape first).utf8ByteSize + 1⟩) ::
          Token.withSpans ((escape first).utf8ByteSize + 1) (spell second) := by
  have hsize : (Token.mark m).size = 1 := by cases m <;> rfl
  rw [withSpans_append, joinSources_spell, Nat.zero_add, Token.withSpans, hsize]

/-- **Lexing undoes escaping.** An escaped text always has tokens, all of them stand for text, and
together for the text that was escaped. With a reserved character other than the backslash between
two escaped texts, the tokens are those of the first, the mark of that character, and those of the
second, moved by the bytes before them. -/
theorem lexing_undoes_escaping :
    (∀ text, ∃ tokens, Token.ofTemplate? (escape text) = .ok tokens ∧
      (∀ t ∈ tokens, t.isText = true) ∧ joinLiterals tokens = text) ∧
    ∀ (first second : String) (c : Char), isReserved c = true → c ≠ '\\' →
      ∃ (m : Mark) (a b : List Token), m.char = c ∧
        Token.ofTemplate? (String.singleton c) = .ok [.mark m] ∧
        Token.ofTemplate? (escape first) = .ok a ∧ Token.ofTemplate? (escape second) = .ok b ∧
        Token.ofTemplate? (escape first ++ String.singleton c ++ escape second) =
          .ok (a ++ .mark m :: b) ∧
        Token.withSpans 0 (a ++ .mark m :: b) =
          Token.withSpans 0 a ++
            (.mark m, ⟨(escape first).utf8ByteSize, (escape first).utf8ByteSize + 1⟩) ::
              Token.withSpans ((escape first).utf8ByteSize + 1) b := by
  refine ⟨fun text => ?_, fun first second c hc hb => ?_⟩
  · exact ⟨spell text, ofTemplate?_escape text, fun t ht => isText_of_mem_spell ht,
      joinLiterals_spell text⟩
  · obtain ⟨m, rfl⟩ := exists_char_eq_of_isReserved hc hb
    exact ⟨m, spell first, spell second, rfl, ofTemplate?_mark m, ofTemplate?_escape first,
      ofTemplate?_escape second, ofTemplate?_escape_between m first second,
      withSpans_spell_between m first second⟩

/-- A line feed after an escape, reserved characters next to each other on both sides of the pipe,
and a character of two bytes at the end. -/
theorem lexing_undoes_escaping_at_pipe :
    Token.ofTemplate? (escape "a\\/\n" ++ "|" ++ escape "(é") =
      .ok [.text "a", .escaped '\\', .escaped '/', .text "\n", .mark .pipe, .escaped '(',
        .text "é"] := by
  obtain ⟨m, a, b, hm, hmark, ha, hb, hjoint, -⟩ :=
    lexing_undoes_escaping.2 "a\\/\n" "(é" '|' rfl (by decide)
  have hfirst : [.text "a", .escaped '\\', .escaped '/', .text "\n"] = a := Except.ok.inj ha
  have hsecond : [.escaped '(', .text "é"] = b := Except.ok.inj hb
  subst hfirst hsecond
  obtain rfl : Mark.pipe = m := Token.mark.inj (List.cons.inj (Except.ok.inj hmark)).1
  exact hjoint

end DeepLink
