import DeepLink.Proofs.Template.Parentheses
import DeepLink.Proofs.Template.Spelling

/-!
# Nesting

The nesting of a text is the greatest number of unescaped parentheses open at once, `nesting`; it is
counted on the characters. Counted on the tokens of the text it is the same (`nesting_eq`), and this
is the number that the check of groups holds against its limit: a balanced run that nests within the
limit is passed over (`checkGroupsFrom_balanced`), one that nests beyond it is refused for that
(`checkGroupsFrom_tooDeep`). What the check lets pass is balanced (`balanced_of_checkGroups`), so it
can be said by counting the parentheses of each front (`checkGroups_eq_ok_iff`).
-/

namespace DeepLink

/-! ## Counting -/

/-- The number of open parentheses after a character that no backslash stands before. -/
def openAfter (d : Nat) (c : Char) : Nat := if c = '(' then d + 1 else if c = ')' then d - 1 else d

/-- The greatest number of unescaped parentheses open at once, `d` of them from the start. -/
def nestingChars (d : Nat) : List Char → Nat
  | [] => d
  | '\\' :: _ :: rest => nestingChars d rest
  | c :: rest => max d (nestingChars (openAfter d c) rest)

/-- How deeply the unescaped parentheses of a text nest. -/
def nesting (text : String) : Nat := nestingChars 0 text.toList

/-- The greatest number of groups open at once, `d` of them from the start. -/
def nestingTokens (d : Nat) : List Token → Nat
  | [] => d
  | t :: rest => max d (nestingTokens (t.depthAfter d) rest)

theorem le_nestingTokens (d : Nat) (tokens : List Token) : d ≤ nestingTokens d tokens := by
  cases tokens with
  | nil => exact Nat.le_refl d
  | cons t rest => exact Nat.le_max_left _ _

theorem nestingTokens_cons {t : Token} (ht : t.isParen = false) (d : Nat) (rest : List Token) :
    nestingTokens d (t :: rest) = nestingTokens d rest := by
  rw [nestingTokens, depthAfter_of_isParen ht, Nat.max_eq_right (le_nestingTokens d rest)]

theorem nestingTokens_of_isParen {tokens : List Token} (h : ∀ t ∈ tokens, t.isParen = false)
    (d : Nat) : nestingTokens d tokens = d := by
  induction tokens with
  | nil => rfl
  | cons t rest ih =>
    obtain ⟨ht, hr⟩ := List.forall_mem_cons.mp h
    rw [nestingTokens_cons ht, ih hr]

theorem nestingTokens_open (d : Nat) (rest : List Token) :
    nestingTokens d (.mark .openParen :: rest) = nestingTokens (d + 1) rest := by
  have h := le_nestingTokens (d + 1) rest
  show max d (nestingTokens (d + 1) rest) = _
  omega

theorem nestingTokens_close (d : Nat) (rest : List Token) :
    nestingTokens (d + 1) (.mark .closeParen :: rest) = max (d + 1) (nestingTokens d rest) := rfl

/-- A balanced run counts on its own: what follows it starts from the same depth. -/
theorem nestingTokens_balanced {a : List Token} (ha : Balanced a) (d : Nat) (rest : List Token) :
    nestingTokens d (a ++ rest) = max (nestingTokens d a) (nestingTokens d rest) := by
  induction ha generalizing d rest with
  | nil =>
    have h := le_nestingTokens d rest
    show nestingTokens d rest = max d _
    omega
  | @cons t a ht _ ih =>
    rw [List.cons_append, nestingTokens_cons ht, nestingTokens_cons ht, ih]
  | @group inner a _ _ ihi ihr =>
    rw [List.cons_append, List.append_assoc, List.cons_append, nestingTokens_open,
      nestingTokens_open, ihi, ihi, nestingTokens_close, nestingTokens_close, ihr]
    omega

/-! ## Characters and tokens -/

theorem openAfter_char (m : Mark) (d : Nat) : openAfter d m.char = (Token.mark m).depthAfter d := by
  cases m <;> rfl

theorem openAfter_of_not_reserved {c : Char} (hc : isReserved c = false) (d : Nat) :
    openAfter d c = d := by
  have ho : c ≠ '(' := by rintro rfl; exact absurd hc (by decide)
  have hcl : c ≠ ')' := by rintro rfl; exact absurd hc (by decide)
  rw [openAfter, if_neg ho, if_neg hcl]

theorem nestingChars_cons {c : Char} (hc : c ≠ '\\') (d : Nat) (rest : List Char) :
    nestingChars d (c :: rest) = max d (nestingChars (openAfter d c) rest) := by
  rw [nestingChars]
  intro _ _ he _
  exact hc he

/-- The tokens among lexemes. -/
def tokensOf (lexemes : List Lexeme) : List Token := lexemes.filterMap Lexeme.token?

theorem nestingTokens_pushPlain (c : Char) (d : Nat) (ls : List Lexeme) :
    nestingTokens d (tokensOf (Lexeme.pushPlain c ls)) = nestingTokens d (tokensOf ls) := by
  cases ls with
  | nil => exact nestingTokens_cons rfl d []
  | cons l ls =>
    cases l with
    | stray => exact nestingTokens_cons rfl d _
    | token t =>
      cases t with
      | mark m => exact nestingTokens_cons rfl d _
      | escaped e => exact nestingTokens_cons rfl d _
      | text s =>
        show nestingTokens d (.text _ :: tokensOf ls) = nestingTokens d (.text s :: tokensOf ls)
        rw [nestingTokens_cons rfl, nestingTokens_cons rfl]

theorem nestingChars_eq (d : Nat) (cs : List Char) :
    nestingChars d cs = nestingTokens d (tokensOf (lexemes cs)) := by
  induction cs using lexemes_induction generalizing d with
  | nil => rfl
  | last =>
    show max d d = d
    omega
  | newline rest ih =>
    rw [lexemes_newline, nestingChars, ih]
    exact (nestingTokens_pushPlain '\n' d (lexemes rest)).symm
  | escaped c rest hc ih =>
    rw [lexemes_escaped hc, nestingChars, ih]
    exact (nestingTokens_cons rfl d _).symm
  | mark m rest ih =>
    rw [lexemes_mark, nestingChars_cons (char_ne_backslash m), openAfter_char, ih]
    rfl
  | plain c rest hc ih =>
    have hle := le_nestingTokens d (tokensOf (lexemes rest))
    rw [lexemes_plain hc, nestingChars_cons (ne_backslash_of_not_reserved hc),
      openAfter_of_not_reserved hc, nestingTokens_pushPlain, ih, Nat.max_eq_right hle]

/-- The nesting of a text is that of its tokens. -/
theorem nesting_eq {text : String} {tokens : List Token}
    (h : lexemes text.toList = tokens.map .token) : nesting text = nestingTokens 0 tokens := by
  have hf : (Lexeme.token? ∘ Lexeme.token) = some := rfl
  rw [nesting, nestingChars_eq, h, tokensOf, List.filterMap_map, hf, List.filterMap_some]

/-! ## The check of groups -/

theorem totalSize_append (a b : List Token) :
    Token.totalSize (a ++ b) = Token.totalSize a + Token.totalSize b := by
  induction a with
  | nil => exact (Nat.zero_add _).symm
  | cons t a ih => rw [List.cons_append, Token.totalSize, Token.totalSize, ih, Nat.add_assoc]

theorem checkGroupsFrom_cons {t : Token} (ht : t.isParen = false) (offset : Nat)
    (opened : List Nat) (rest : List Token) :
    checkGroupsFrom offset opened (t :: rest) = checkGroupsFrom (offset + t.size) opened rest := by
  rw [checkGroupsFrom]
  · rintro rfl
    exact absurd ht (by decide)
  · rintro rfl
    exact absurd ht (by decide)

theorem checkGroupsFrom_open {opened : List Nat} (h : opened.length < nestingLimit)
    (offset : Nat) (rest : List Token) :
    checkGroupsFrom offset opened (.mark .openParen :: rest) =
      checkGroupsFrom (offset + (Token.mark .openParen).size) (offset :: opened) rest := by
  rw [checkGroupsFrom, if_pos h]

/-- The nesting of a group and of what follows it, in a run that starts with the group. -/
theorem nestingTokens_group {inner : List Token} (hi : Balanced inner) (d : Nat)
    (rest : List Token) :
    nestingTokens d (.mark .openParen :: (inner ++ .mark .closeParen :: rest)) =
      max (nestingTokens (d + 1) inner) (max (d + 1) (nestingTokens d rest)) := by
  rw [nestingTokens_open, nestingTokens_balanced hi, nestingTokens_close]

/-- The check passes over a balanced run that nests within the limit. -/
theorem checkGroupsFrom_balanced {a : List Token} (ha : Balanced a) (offset : Nat)
    (opened : List Nat) (rest : List Token)
    (h : nestingTokens opened.length a ≤ nestingLimit) :
    checkGroupsFrom offset opened (a ++ rest) =
      checkGroupsFrom (offset + Token.totalSize a) opened rest := by
  induction ha generalizing offset opened rest with
  | nil => rfl
  | @cons t a ht _ ih =>
    rw [nestingTokens_cons ht] at h
    rw [List.cons_append, checkGroupsFrom_cons ht, ih _ _ _ h, Token.totalSize, Nat.add_assoc]
  | @group inner a hi _ ihi ihr =>
    rw [nestingTokens_group hi] at h
    rw [List.cons_append, List.append_assoc, List.cons_append, checkGroupsFrom_open (by omega),
      ihi _ (offset :: opened) _ (by rw [List.length_cons]; omega), checkGroupsFrom,
      ihr _ _ _ (by omega)]
    congr 1
    simp only [Token.totalSize, totalSize_append]
    omega

/-- A balanced run that nests beyond the limit is refused for it. -/
theorem checkGroupsFrom_tooDeep {a : List Token} (ha : Balanced a) (offset : Nat)
    (opened : List Nat) (rest : List Token) (ho : opened.length ≤ nestingLimit)
    (h : nestingLimit < nestingTokens opened.length a) :
    ∃ place, checkGroupsFrom offset opened (a ++ rest) = .error (.tooDeep place) := by
  induction ha generalizing offset opened rest with
  | nil => exact absurd h (Nat.not_lt.mpr ho)
  | @cons t a ht _ ih =>
    rw [nestingTokens_cons ht] at h
    rw [List.cons_append, checkGroupsFrom_cons ht]
    exact ih _ _ _ ho h
  | @group inner a hi _ ihi ihr =>
    rw [nestingTokens_group hi] at h
    rw [List.cons_append, List.append_assoc, List.cons_append]
    by_cases hl : opened.length < nestingLimit
    · rw [checkGroupsFrom_open hl]
      by_cases hd : nestingLimit < nestingTokens (opened.length + 1) inner
      · exact ihi _ (offset :: opened) _ hl hd
      · rw [checkGroupsFrom_balanced hi _ (offset :: opened) _ (Nat.not_lt.mp hd), checkGroupsFrom]
        exact ihr _ _ _ ho (by omega)
    · rw [checkGroupsFrom, if_neg hl]
      exact ⟨offset, rfl⟩

/-! ## What passes the check -/

/-- The check keeps a depth through the tokens, the number of places on its stack. -/
theorem depthThrough?_of_checkGroupsFrom {offset : Nat} {opened : List Nat} {tokens : List Token}
    (h : checkGroupsFrom offset opened tokens = .ok ()) :
    depthThrough? opened.length tokens = some 0 := by
  induction tokens generalizing offset opened with
  | nil =>
    cases opened with
    | nil => rfl
    | cons innermost opened => cases h
  | cons t rest ih =>
    by_cases ho : t = .mark .openParen
    · subst ho
      rw [checkGroupsFrom] at h
      split at h
      · exact depthThrough?_open.trans (ih h)
      · cases h
    by_cases hc : t = .mark .closeParen
    · subst hc
      cases opened with
      | nil => cases h
      | cons innermost opened => exact depthThrough?_close.trans (ih h)
    have ht := isParen_of_ne ho hc
    rw [checkGroupsFrom_cons ht] at h
    rw [depthThrough?_plain ht]
    exact ih h

/-- The parentheses of tokens that pass the check pair up. -/
theorem balanced_of_checkGroups {offset : Nat} {tokens : List Token}
    (h : checkGroups offset tokens = .ok ()) : Balanced tokens :=
  balanced_iff_depthThrough?.mpr (depthThrough?_of_checkGroupsFrom h)

/-- The check lets balanced tokens pass that nest within the limit. -/
theorem checkGroups_eq_ok_iff_balanced {offset : Nat} {tokens : List Token} :
    checkGroups offset tokens = .ok () ↔
      Balanced tokens ∧ nestingTokens 0 tokens ≤ nestingLimit := by
  constructor
  · intro h
    have hb := balanced_of_checkGroups h
    refine ⟨hb, Nat.not_lt.mp fun hdeep => ?_⟩
    obtain ⟨place, hplace⟩ := checkGroupsFrom_tooDeep hb offset [] [] (Nat.zero_le _) hdeep
    rw [List.append_nil] at hplace
    cases hplace.symm.trans h
  · rintro ⟨hb, hn⟩
    have h := checkGroupsFrom_balanced hb offset [] [] hn
    rwa [List.append_nil] at h

/-- Tokens nest as deeply as the deepest of their fronts ends. -/
theorem nestingTokens_le_iff {d n : Nat} {tokens : List Token} :
    nestingTokens d tokens ≤ n ↔
      ∀ front, front <+: tokens → front.foldl Token.depthAfter d ≤ n := by
  induction tokens generalizing d with
  | nil =>
    refine ⟨fun h front hf => ?_, fun h => h [] List.nil_prefix⟩
    rw [List.prefix_nil.mp hf]
    exact h
  | cons t rest ih =>
    rw [forall_front_cons, nestingTokens, Nat.max_le, ih]
    rfl

/-- **The check of groups.** It lets tokens pass exactly if every front has at least as many
parentheses that open as that close, but not more of them than the limit allows, and all the tokens
have as many of the ones as of the others. -/
theorem checkGroups_eq_ok_iff {offset : Nat} {tokens : List Token} :
    checkGroups offset tokens = .ok () ↔
      (∀ front, front <+: tokens →
        closings front ≤ openings front ∧ openings front ≤ closings front + nestingLimit) ∧
        openings tokens = closings tokens := by
  rw [checkGroups_eq_ok_iff_balanced, nestingTokens_le_iff]
  constructor
  · rintro ⟨hb, hn⟩
    obtain ⟨hfronts, htotal⟩ := balanced_iff.mp hb
    refine ⟨fun front hf => ⟨hfronts front hf, ?_⟩, htotal⟩
    have hcount := hb.foldl_front hf
    have hdeep := hn front hf
    omega
  · rintro ⟨hfronts, htotal⟩
    have hb := balanced_iff.mpr ⟨fun front hf => (hfronts front hf).1, htotal⟩
    refine ⟨hb, fun front hf => ?_⟩
    have hcount := hb.foldl_front hf
    have hexcess := (hfronts front hf).2
    omega

end DeepLink
