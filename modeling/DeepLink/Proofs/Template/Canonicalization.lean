import DeepLink.Proofs.Template.Depth
import DeepLink.Proofs.Template.Names

/-!
# Canonical texts of templates

The canonical text of a template may nest more deeply than the template does: alternatives need no
parentheses in a template, but every pipe opens a group in the canonical text
(`ofTemplate?_bareText`, `nesting_text_alternatives`). So a template is read back from its canonical
text exactly if that nests within the limit.
-/

namespace DeepLink

/-! ## Bare alternatives -/

/-- Literals with pipes between them, and no parentheses. -/
def bareText (first : String) : List String → String
  | [] => escape first
  | next :: rest => escape first ++ "|" ++ bareText next rest

def bareTokens (first : String) : List String → List Token
  | [] => spell first
  | next :: rest => spell first ++ .mark .pipe :: bareTokens next rest

/-- The node that bare alternatives stand for: the branches nest to the right. -/
def alternatives (first : String) : List String → PathNode
  | [] => .literal first
  | next :: rest => .alternation [.literal first] [alternatives next rest]

theorem lexes_bareText (first : String) (rest : List String) :
    Lexes (bareText first rest) (bareTokens first rest) := by
  induction rest generalizing first with
  | nil => exact .escape first
  | cons next rest ih => exact .between (s := "|") (m := .pipe) rfl (.escape first) (ih next)

theorem ofTemplate?_bareText_tokens (first : String) (rest : List String) :
    Token.ofTemplate? (bareText first rest) = .ok (bareTokens first rest) :=
  (lexes_bareText first rest).ofTemplate?_eq

/-- Bare alternatives hold neither parentheses nor any mark but the pipe. -/
theorem sealed_bareTokens {m : Mark} (hm : m ≠ .pipe) (first : String) (rest : List String) :
    Sealed m (bareTokens first rest) := by
  induction rest generalizing first with
  | nil => exact sealed_spell m first
  | cons next rest ih =>
    exact (sealed_spell m first).append (.cons rfl (fun h => hm (Token.mark.inj h).symm) (ih next))

theorem mem_bareTokens {t : Token} {first : String} {rest : List String}
    (h : t ∈ bareTokens first rest) : t.isText = true ∨ t = .mark .pipe := by
  induction rest generalizing first with
  | nil => exact .inl (isText_of_mem_spell h)
  | cons next rest ih =>
    rcases List.mem_append.mp h with h | h
    · exact .inl (isText_of_mem_spell h)
    · rcases List.mem_cons.mp h with h | h
      · exact .inr h
      · exact ih h

theorem question_notMem_bareTokens (first : String) (rest : List String) :
    .mark .question ∉ bareTokens first rest := by
  intro h
  rcases mem_bareTokens h with h | h
  · exact Bool.false_ne_true h
  · cases h

theorem isParen_bareTokens {first : String} {rest : List String} :
    ∀ t ∈ bareTokens first rest, t.isParen = false := by
  intro t ht
  rcases mem_bareTokens ht with h | rfl
  · exact isParen_of_isText h
  · rfl

/-! ## Reading bare alternatives -/

section Reading

open Template

variable {first : String} {rest : List String}

theorem readPath_spell (h : first ≠ "") : readPath (spell first) = .ok [.literal first] :=
  readPath_tokens [.literal first] ⟨h, trivial⟩

theorem readBranch_bareTokens (h : ∀ text ∈ first :: rest, text ≠ "") :
    readBranch (bareTokens first rest) = .ok [alternatives first rest] := by
  induction rest generalizing first with
  | nil =>
    rw [bareTokens, readBranch_eq, (sealed_spell .pipe first).notCut]
    exact readPath_spell (h first List.mem_cons_self)
  | cons next rest ih =>
    obtain ⟨hf, hr⟩ := List.forall_mem_cons.mp h
    rw [bareTokens, readBranch_eq, cutOutside_append_mark (sealed_spell .pipe first)]
    exact branches_eq (fun node => [node]) (readPath_spell hf) (List.cons_ne_nil _ _) (ih hr)
      (List.cons_ne_nil _ _)

theorem readComponent_bareTokens (h : ∀ text ∈ first :: rest, text ≠ "") :
    readComponent (bareTokens first rest) = .ok (some (alternatives first rest)) := by
  have hf := h first List.mem_cons_self
  cases rest with
  | nil => exact readComponent_literal hf
  | cons next rest =>
    obtain ⟨hs, hi⟩ := isCompound_spell_append hf (.mark .pipe :: bareTokens next rest)
    rw [bareTokens, readComponent_eq hs, withoutParens, hi, Option.getD_none,
      cutOutside_append_mark (sealed_spell .pipe first)]
    exact branches_eq some (readPath_spell hf) (List.cons_ne_nil _ _)
      (readBranch_bareTokens (List.forall_mem_cons.mp h).2) (List.cons_ne_nil _ _)

/-- Any number of bare alternatives is a template. -/
theorem ofTemplate?_bareText (h : ∀ text ∈ first :: rest, text ≠ "") :
    Route.ofTemplate? (bareText first rest) = .ok (Route.of [alternatives first rest] []) := by
  have hd : nestingTokens 0 (bareTokens first rest) ≤ nestingLimit := by
    rw [nestingTokens_of_isParen isParen_bareTokens]
    exact Nat.zero_le _
  rw [Route.ofTemplate?, ofTemplate?_bareText_tokens]
  show readTokens (bareTokens first rest) = _
  rw [readTokens, cutQuery_of_notMem (question_notMem_bareTokens first rest)]
  show (checkParens 0 (bareTokens first rest)).bind _ = _
  rw [checkParens_eq (balanced_of_isParen isParen_bareTokens) 0 hd]
  show (readPath (bareTokens first rest)).bind _ = _
  rw [readPath_eq, (sealed_bareTokens (m := .slash) (by decide) first rest).notCut]
  show ((readComponent (bareTokens first rest)).map _).bind _ = _
  rw [readComponent_bareTokens h]
  rfl

end Reading

/-! ## Their canonical text -/

theorem normal_alternatives {first : String} {rest : List String}
    (h : ∀ text ∈ first :: rest, text ≠ "") : (alternatives first rest).Normal := by
  induction rest generalizing first with
  | nil => exact h first List.mem_cons_self
  | cons next rest ih =>
    obtain ⟨hf, hr⟩ := List.forall_mem_cons.mp h
    exact ⟨List.cons_ne_nil _ _, List.cons_ne_nil _ _, ⟨hf, trivial⟩, ⟨ih hr, trivial⟩⟩

theorem depth_alternatives (first : String) (rest : List String) :
    (alternatives first rest).depth = rest.length := by
  induction rest generalizing first with
  | nil => rfl
  | cons next rest ih =>
    show max (pathDepth [.literal first]) (pathDepth [alternatives next rest]) + 1 = _
    simp [pathDepth, PathNode.depth, ih]

/-- Each alternative after the first opens one more group. -/
theorem nesting_text_alternatives {first : String} {rest : List String}
    (h : ∀ text ∈ first :: rest, text ≠ "") :
    nesting (Route.of [alternatives first rest] []).text = rest.length := by
  have hn : NormalPath [alternatives first rest] := ⟨normal_alternatives h, trivial⟩
  rw [nesting_text_eq_depth]
  show max (pathDepth (normalizePath [alternatives first rest])) 0 = _
  rw [normalizePath_of_normal _ hn]
  simp [pathDepth, depth_alternatives]

/-! ## Round trip -/

/-- **Round trip of templates.** The canonical text of a template that is read is itself read, as
the same route, exactly if it nests within the limit; otherwise it is refused for its nesting. -/
theorem ofTemplate?_text_of_ofTemplate? {template : String} {r : Route}
    (h : Route.ofTemplate? template = .ok r) :
    (Route.ofTemplate? r.text = .ok r ↔ nesting r.text ≤ nestingLimit) ∧
      (nestingLimit < nesting r.text →
        ∃ place, Route.ofTemplate? r.text = .error (.group (.tooDeep place))) := by
  have hn := name_ne_empty_of_ofTemplate? h
  rw [ofTemplate?_text_eq, nesting_text]
  refine ⟨⟨fun hok => ?_, Template.readTokens_tokens hn⟩, Template.readTokens_tooDeep⟩
  by_cases hd : nestingTokens 0 r.tokens ≤ nestingLimit
  · exact hd
  · obtain ⟨place, he⟩ := Template.readTokens_tooDeep (Nat.not_le.mp hd)
    rw [hok] at he
    cases he

/-- A hundred and thirty bare alternatives make a template whose canonical text is refused. -/
theorem ofTemplate?_text_of_130_alternatives :
    Route.ofTemplate? (bareText "a" (.replicate 129 "a")) =
        .ok (Route.of [alternatives "a" (.replicate 129 "a")] []) ∧
      Route.ofTemplate? (Route.of [alternatives "a" (.replicate 129 "a")] []).text ≠
        .ok (Route.of [alternatives "a" (.replicate 129 "a")] []) ∧
      ∃ place, Route.ofTemplate? (Route.of [alternatives "a" (.replicate 129 "a")] []).text =
        .error (.group (.tooDeep place)) := by
  have hne : ∀ text ∈ "a" :: List.replicate 129 "a", text ≠ "" := by
    rw [← List.replicate_succ]
    intro text ht
    rw [List.eq_of_mem_replicate ht]
    decide
  have hread := ofTemplate?_bareText hne
  have hnest := nesting_text_alternatives hne
  rw [List.length_replicate] at hnest
  obtain ⟨hiff, hdeep⟩ := ofTemplate?_text_of_ofTemplate? hread
  rw [hnest] at hiff hdeep
  exact ⟨hread, fun hok => absurd (hiff.mp hok) (by decide), hdeep (by decide)⟩

end DeepLink
