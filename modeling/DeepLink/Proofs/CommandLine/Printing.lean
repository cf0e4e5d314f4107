import Mathlib.Data.List.DropRight
import DeepLink.CommandLine
import DeepLink.Proofs.Template.PlainCharacters
import DeepLink.Url.Domain

/-!
# What the command line prints of a template

The canonical text of a template is printed without the white space at its end. White space needs no
escape, so the text may end in it, and a text without it is never read as the same route: reading
neither adds nor loses a character that needs no escape. So what is printed is faithful exactly if
the canonical text does not end in white space.
-/

namespace DeepLink

namespace Text

/-- The last character is white space. -/
def EndsBlank (text : String) : Prop := ∃ c ∈ text.toList.getLast?, isBlank c = true

instance (text : String) : Decidable (EndsBlank text) :=
  decidable_of_iff (text.toList.getLast?.any isBlank = true)
    (by simp [EndsBlank, Option.any_eq_true])

theorem toList_trimEnd (text : String) :
    (trimEnd text).toList = text.toList.rdropWhile isBlank := String.toList_ofList

theorem trimEnd_of_not_endsBlank {text : String} (h : ¬ EndsBlank text) : trimEnd text = text := by
  apply String.toList_inj.mp
  rw [toList_trimEnd, List.rdropWhile_eq_self_iff]
  exact fun hne hb => h ⟨_, List.getLast?_eq_some_getLast hne, hb⟩

/-- Some white space stands less often in the text without its white space at the end. -/
theorem exists_count_trimEnd_lt {text : String} (h : EndsBlank text) :
    ∃ c, isBlank c = true ∧ (trimEnd text).toList.count c < text.toList.count c := by
  obtain ⟨c, hc, hb⟩ := h
  obtain ⟨front, he⟩ := List.getLast?_eq_some_iff.mp hc
  have hle := (List.rdropWhile_prefix isBlank (l := front)).sublist.count_le c
  refine ⟨c, hb, ?_⟩
  rw [toList_trimEnd, he, List.rdropWhile_concat_pos _ _ _ hb, List.count_append,
    List.count_singleton_self]
  omega

theorem trimEnd_eq_self_iff {text : String} : trimEnd text = text ↔ ¬ EndsBlank text := by
  refine ⟨fun he hb => ?_, trimEnd_of_not_endsBlank⟩
  obtain ⟨c, -, hlt⟩ := exists_count_trimEnd_lt hb
  rw [he] at hlt
  exact Nat.lt_irrefl _ hlt

theorem isReserved_of_isBlank {c : Char} (h : isBlank c = true) : isReserved c = false := by
  rw [isReserved, Bool.or_eq_false_iff]
  refine ⟨?_, ?_⟩
  · rw [beq_eq_false_iff_ne]
    rintro rfl
    exact absurd h (by decide)
  · cases hm : Mark.ofChar? c with
    | none => rfl
    | some m =>
      obtain rfl := Mark.ofChar?_eq_some_iff.mp hm
      cases m <;> exact absurd h (by decide)

end Text

/-- A canonical text without the white space at its end is never read as the same route. -/
theorem ofTemplate?_trimEnd_ne {r : Route} (h : Text.EndsBlank r.text) :
    Route.ofTemplate? (Text.trimEnd r.text) ≠ .ok r := by
  intro hr
  obtain ⟨c, hc, hlt⟩ := Text.exists_count_trimEnd_lt h
  rw [count_text_of_ofTemplate? hr (Text.isReserved_of_isBlank hc)] at hlt
  exact Nat.lt_irrefl _ hlt

namespace CommandLine

variable {template : String} {r : Route} (toAscii? : Url.ToAscii) (files : Files)

theorem run_parse (h : Route.ofTemplate? template = .ok r) :
    run toAscii? files ["parse", "--", template] = ⟨0, Text.trimEnd r.text ++ "\n", ""⟩ := by
  show runParse template .canonical = _
  rw [runParse, h]
  rfl

/-- **Printing the canonical text of a template.** It is printed without the white space at its end,
with a line feed after it. So the canonical text itself is printed exactly if it does not end in
white space, and what is printed is read as the same route exactly if the canonical text is and does
not end in white space. -/
theorem faithful_parse_iff (h : Route.ofTemplate? template = .ok r) :
    run toAscii? files ["parse", "--", template] = ⟨0, Text.trimEnd r.text ++ "\n", ""⟩ ∧
      (run toAscii? files ["parse", "--", template] = ⟨0, r.text ++ "\n", ""⟩ ↔
        ¬ Text.EndsBlank r.text) ∧
      (Route.ofTemplate? (Text.trimEnd r.text) = .ok r ↔
        Route.ofTemplate? r.text = .ok r ∧ ¬ Text.EndsBlank r.text) := by
  have hrun := run_parse toAscii? files h
  refine ⟨hrun, ?_, fun ht => ?_, fun ⟨ht, hb⟩ => ?_⟩
  · rw [hrun, Outcome.mk.injEq, String.append_left_inj, Text.trimEnd_eq_self_iff]
    simp
  · have hb : ¬ Text.EndsBlank r.text := fun hb => ofTemplate?_trimEnd_ne hb ht
    exact ⟨Text.trimEnd_of_not_endsBlank hb ▸ ht, hb⟩
  · rwa [Text.trimEnd_of_not_endsBlank hb]

/-- No file can be read. -/
def noFiles : Files := fun _ => .error "no such file"

/-- A literal may end in a space, which is not printed: the output stands for another route. -/
theorem faithful_parse_iff_space :
    Route.ofTemplate? "a " = .ok (Route.of [.literal "a "] []) ∧
      run Url.Domain.asciiName? noFiles ["parse", "--", "a "] = ⟨0, "a\n", ""⟩ ∧
      run Url.Domain.asciiName? noFiles ["parse", "--", "a "] ≠ ⟨0, "a \n", ""⟩ ∧
      Route.ofTemplate? "a" ≠ .ok (Route.of [.literal "a "] []) := by
  have hlex : Token.ofTemplate? "a " = .ok [.text "a "] := by decide +kernel
  have hpath : Template.readPath [.text "a "] = .ok [.literal "a "] := by cbv
  have hread : Route.ofTemplate? "a " = .ok (Route.of [.literal "a "] []) := by
    rw [Route.ofTemplate?, hlex]
    show (Template.readPath [.text "a "] >>= _) = _
    rw [hpath]
    rfl
  have htext : (Route.of [.literal "a "] []).text = "a " := by decide +kernel
  have htrim : Text.trimEnd "a " = "a" := by decide +kernel
  have hblank : Text.EndsBlank "a " := by decide +kernel
  obtain ⟨hrun, hprint, hback⟩ := faithful_parse_iff Url.Domain.asciiName? noFiles hread
  rw [htext] at hrun hprint hback
  rw [htrim] at hrun hback
  exact ⟨hread, hrun, fun he => hprint.mp he hblank, fun he => (hback.mp he).2 hblank⟩

end CommandLine

end DeepLink
