import DeepLink.Proofs.Template.Balance

/-!
# Counting parentheses

Parentheses pair up exactly if no front of the tokens closes more groups than it opens and all the
tokens close as many as they open (`balanced_iff`).

Between the two stands a depth whose subtraction is checked. It can be kept through tokens as long
as no front closes too many groups, and what it comes to is the difference of the counts
(`depthThrough?_eq_some_iff`); and if it comes to zero, every group that is open is closed
(`closes_of_depthThrough?`).
-/

namespace DeepLink

/-- The number of parentheses that open a group. -/
def openings (tokens : List Token) : Nat := tokens.count (.mark .openParen)

/-- The number of parentheses that close a group. -/
def closings (tokens : List Token) : Nat := tokens.count (.mark .closeParen)

section Counts

variable (rest : List Token)

theorem openings_open : openings (.mark .openParen :: rest) = openings rest + 1 :=
  List.count_cons_self

theorem closings_open : closings (.mark .openParen :: rest) = closings rest :=
  List.count_cons_of_ne (by decide)

theorem openings_close : openings (.mark .closeParen :: rest) = openings rest :=
  List.count_cons_of_ne (by decide)

theorem closings_close : closings (.mark .closeParen :: rest) = closings rest + 1 :=
  List.count_cons_self

variable {t : Token} (ht : t.isParen = false)

include ht

theorem openings_cons : openings (t :: rest) = openings rest := by
  refine List.count_cons_of_ne ?_
  rintro rfl
  cases ht

theorem closings_cons : closings (t :: rest) = closings rest := by
  refine List.count_cons_of_ne ?_
  rintro rfl
  cases ht

end Counts

/-! ## Checked depths -/

/-- The number of open groups after a token, unless the token closes one where none is open. -/
def Token.depthAfter? (depth : Nat) : Token → Option Nat
  | .mark .openParen => some (depth + 1)
  | .mark .closeParen => if depth = 0 then none else some (depth - 1)
  | _ => some depth

/-- The number of open groups after consecutive tokens, `depth` of them from the start. -/
def depthThrough? (depth : Nat) (tokens : List Token) : Option Nat :=
  tokens.foldlM Token.depthAfter? depth

theorem depthAfter?_of_isParen {t : Token} (h : t.isParen = false) (d : Nat) :
    t.depthAfter? d = some d := by
  unfold Token.depthAfter?
  split
  · cases h
  · cases h
  · rfl

/-- Where the subtraction does not fail, it is the one that stops at zero. -/
theorem depthAfter_of_depthAfter? {t : Token} {d e : Nat} (h : t.depthAfter? d = some e) :
    t.depthAfter d = e := by
  by_cases ho : t = .mark .openParen
  · subst ho
    exact Option.some.inj h
  by_cases hc : t = .mark .closeParen
  · subst hc
    rw [Token.depthAfter?] at h
    split at h
    · cases h
    · exact Option.some.inj h
  have ht := isParen_of_ne ho hc
  rw [depthAfter?_of_isParen ht] at h
  rw [depthAfter_of_isParen ht]
  exact Option.some.inj h

section Through

variable {d : Nat} {rest : List Token}

theorem depthThrough?_cons (t : Token) (d : Nat) (rest : List Token) :
    depthThrough? d (t :: rest) = (t.depthAfter? d).bind (depthThrough? · rest) :=
  List.foldlM_cons

theorem depthThrough?_open :
    depthThrough? d (.mark .openParen :: rest) = depthThrough? (d + 1) rest :=
  depthThrough?_cons _ d rest

theorem depthThrough?_close :
    depthThrough? (d + 1) (.mark .closeParen :: rest) = depthThrough? d rest :=
  depthThrough?_cons _ (d + 1) rest

theorem depthThrough?_close_zero : depthThrough? 0 (.mark .closeParen :: rest) = none :=
  depthThrough?_cons _ 0 rest

theorem depthThrough?_plain {t : Token} (ht : t.isParen = false) :
    depthThrough? d (t :: rest) = depthThrough? d rest := by
  rw [depthThrough?_cons, depthAfter?_of_isParen ht]
  rfl

/-- What can be kept through tokens can be kept through their first, and then through the others. -/
theorem exists_of_depthThrough?_cons {t : Token} {e : Nat}
    (h : depthThrough? d (t :: rest) = some e) :
    ∃ next, t.depthAfter? d = some next ∧ depthThrough? next rest = some e := by
  rw [depthThrough?_cons] at h
  exact Option.bind_eq_some_iff.mp h

end Through

/-- A depth that can be kept through all tokens can be kept through a front of them. -/
theorem exists_depthThrough?_front {d e : Nat} {front tokens : List Token}
    (h : depthThrough? d tokens = some e) (hf : front <+: tokens) :
    ∃ between, depthThrough? d front = some between := by
  obtain ⟨rest, rfl⟩ := hf
  rw [depthThrough?, List.foldlM_append] at h
  obtain ⟨between, hfront, -⟩ := Option.bind_eq_some_iff.mp h
  exact ⟨between, hfront⟩

theorem foldl_of_depthThrough? {d e : Nat} {tokens : List Token}
    (h : depthThrough? d tokens = some e) : tokens.foldl Token.depthAfter d = e := by
  induction tokens generalizing d with
  | nil => exact Option.some.inj h
  | cons t rest ih =>
    obtain ⟨next, ht, hrest⟩ := exists_of_depthThrough?_cons h
    rw [List.foldl_cons, depthAfter_of_depthAfter? ht, ih hrest]

/-! ## Depths and counts -/

theorem forall_front_cons {p : List Token → Prop} {t : Token} {rest : List Token} :
    (∀ front, front <+: t :: rest → p front) ↔
      p [] ∧ ∀ front, front <+: rest → p (t :: front) := by
  refine ⟨fun h => ⟨h [] List.nil_prefix, fun front hf => ?_⟩, fun ⟨hnil, hcons⟩ front hf => ?_⟩
  · exact h _ (List.cons_prefix_cons.mpr ⟨rfl, hf⟩)
  rcases List.prefix_cons_iff.mp hf with rfl | ⟨rest', rfl, hrest⟩
  · exact hnil
  · exact hcons rest' hrest

/-- A depth can be kept through tokens if no front of them closes more groups than were opened, and
it comes to the difference of what was opened and closed. -/
theorem depthThrough?_eq_some_iff {d e : Nat} {tokens : List Token} :
    depthThrough? d tokens = some e ↔
      (∀ front, front <+: tokens → closings front ≤ d + openings front) ∧
        e + closings tokens = d + openings tokens := by
  induction tokens generalizing d with
  | nil =>
    have hfront : ∀ front : List Token, front <+: [] → closings front ≤ d + openings front := by
      intro front hf
      rw [List.prefix_nil.mp hf]
      exact Nat.zero_le _
    refine ⟨fun h => ⟨hfront, (Option.some.inj h).symm⟩, fun h => ?_⟩
    exact congrArg some h.2.symm
  | cons t rest ih =>
    have hnil : closings [] ≤ d + openings [] := Nat.zero_le _
    rw [forall_front_cons]
    by_cases ho : t = .mark .openParen
    · subst ho
      simp only [depthThrough?_open, ih, openings_open, closings_open, hnil, true_and]
      exact and_congr (forall₂_congr fun front _ => by omega) (by omega)
    by_cases hc : t = .mark .closeParen
    · subst hc
      simp only [openings_close, closings_close, hnil, true_and]
      cases d with
      | zero =>
        rw [depthThrough?_close_zero]
        refine ⟨fun h => absurd h (Option.some_ne_none e).symm, fun ⟨hf, _⟩ => ?_⟩
        have hone : closings [] + 1 ≤ 0 + openings [] := hf [] List.nil_prefix
        cases hone
      | succ d =>
        rw [depthThrough?_close, ih]
        exact and_congr (forall₂_congr fun front _ => by omega) (by omega)
    have ht := isParen_of_ne ho hc
    simp only [depthThrough?_plain ht, ih, openings_cons _ ht, closings_cons _ ht, hnil, true_and]

/-! ## Depths and groups -/

theorem depthThrough?_balanced_append {a : List Token} (ha : Balanced a) (d : Nat)
    (rest : List Token) : depthThrough? d (a ++ rest) = depthThrough? d rest := by
  induction ha generalizing d rest with
  | nil => rfl
  | @cons t a ht _ ih => rw [List.cons_append, depthThrough?_plain ht, ih]
  | @group inner a _ _ ihi ihr =>
    rw [List.cons_append, List.append_assoc, List.cons_append, depthThrough?_open, ihi,
      depthThrough?_close, ihr]

theorem depthThrough?_balanced {a : List Token} (ha : Balanced a) (d : Nat) :
    depthThrough? d a = some d := by
  have h := depthThrough?_balanced_append ha d []
  rwa [List.append_nil] at h

/-- The tokens close as many groups that were open before, and their own parentheses pair up. -/
def Closes : Nat → List Token → Prop
  | 0, tokens => Balanced tokens
  | d + 1, tokens => ∃ inner rest, tokens = inner ++ .mark .closeParen :: rest ∧
      Balanced inner ∧ Closes d rest

theorem Closes.cons {d : Nat} {t : Token} {rest : List Token} (ht : t.isParen = false)
    (h : Closes d rest) : Closes d (t :: rest) := by
  cases d with
  | zero => exact Balanced.cons ht h
  | succ d =>
    obtain ⟨inner, after, rfl, hi, ha⟩ := h
    exact ⟨t :: inner, after, rfl, .cons ht hi, ha⟩

/-- A parenthesis opens the first of the groups that are closed. -/
theorem Closes.openParen {d : Nat} {rest : List Token} (h : Closes (d + 1) rest) :
    Closes d (.mark .openParen :: rest) := by
  obtain ⟨inner, after, rfl, hi, ha⟩ := h
  cases d with
  | zero => exact Balanced.group hi ha
  | succ d =>
    obtain ⟨inner', after', rfl, hi', ha'⟩ := ha
    refine ⟨.mark .openParen :: (inner ++ .mark .closeParen :: inner'), after', ?_, .group hi hi',
      ha'⟩
    simp

theorem closes_of_depthThrough? {d : Nat} {tokens : List Token}
    (h : depthThrough? d tokens = some 0) : Closes d tokens := by
  induction tokens generalizing d with
  | nil =>
    obtain rfl := Option.some.inj h
    exact Balanced.nil
  | cons t rest ih =>
    by_cases ho : t = .mark .openParen
    · subst ho
      rw [depthThrough?_open] at h
      exact (ih h).openParen
    by_cases hc : t = .mark .closeParen
    · subst hc
      cases d with
      | zero =>
        rw [depthThrough?_close_zero] at h
        cases h
      | succ d =>
        rw [depthThrough?_close] at h
        exact ⟨[], rest, rfl, .nil, ih h⟩
    have ht := isParen_of_ne ho hc
    rw [depthThrough?_plain ht] at h
    exact (ih h).cons ht

/-- Tokens are balanced exactly if a depth can be kept through them that comes back to zero. -/
theorem balanced_iff_depthThrough? {tokens : List Token} :
    Balanced tokens ↔ depthThrough? 0 tokens = some 0 :=
  ⟨fun h => depthThrough?_balanced h 0, closes_of_depthThrough?⟩

/-- **Counting parentheses.** They pair up exactly if every front has at least as many that open as
that close, and all the tokens have as many of the ones as of the others. -/
theorem balanced_iff {tokens : List Token} :
    Balanced tokens ↔ (∀ front, front <+: tokens → closings front ≤ openings front) ∧
      openings tokens = closings tokens := by
  rw [balanced_iff_depthThrough?, depthThrough?_eq_some_iff]
  simp only [Nat.zero_add]
  exact and_congr_right fun _ => eq_comm

/-- In balanced tokens a front has opened as many groups as it has closed or left open. -/
theorem Balanced.foldl_front {tokens front : List Token} (h : Balanced tokens)
    (hf : front <+: tokens) :
    front.foldl Token.depthAfter 0 + closings front = openings front := by
  obtain ⟨between, hb⟩ := exists_depthThrough?_front (balanced_iff_depthThrough?.mp h) hf
  have hcount := (depthThrough?_eq_some_iff.mp hb).2
  rw [foldl_of_depthThrough? hb, hcount, Nat.zero_add]

end DeepLink
