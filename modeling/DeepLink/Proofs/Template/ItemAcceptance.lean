import DeepLink.Proofs.Template.Items

/-!
# Reading accepts the grammar of query items

Whatever an attempt `Yields`, the tokens in front of the rest stand for it. So an item that is read
is the item of all the tokens (`isItem_of_readItem`). Together with `readItem_of_isItem` this makes
the ordered choices of reading harmless: the tokens of an item are read as it, and they stand for no
other.
-/

namespace DeepLink.Template

open Attempt

/-! ## What attempts yield -/

section Yields

variable {α β : Type} {P : α → List Token → Prop} {Q : β → List Token → Prop}

/-- Whatever the attempt reads and leaves satisfies `P`. -/
def Attempt.Yields (P : α → List Token → Prop) : Attempt α → Prop
  | read v rest _ => P v rest
  | refused _ => True

theorem Attempt.Yields.mono {P' : α → List Token → Prop} {a : Attempt α} (ha : a.Yields P)
    (h : ∀ v rest, P v rest → P' v rest) : a.Yields P' := by
  cases a with
  | refused r => trivial
  | read v rest stopped => exact h v rest ha

theorem Attempt.Yields.andThen {a : Attempt α} {k : α → List Token → Attempt β}
    (ha : a.Yields P) (hk : ∀ v rest, P v rest → (k v rest).Yields Q) :
    (a.andThen k).Yields Q := by
  cases a with
  | refused r => trivial
  | read v rest stopped =>
    have h := hk v rest ha
    cases hn : k v rest with
    | refused r =>
      simp only [Attempt.andThen, hn]
      trivial
    | read w left stopped' =>
      rw [hn] at h
      simp only [Attempt.andThen, hn]
      exact h

theorem Attempt.Yields.map {a : Attempt α} {f : α → β} (ha : a.Yields P)
    (hf : ∀ v rest, P v rest → Q (f v) rest) : (a.map f).Yields Q := by
  cases a with
  | refused r => trivial
  | read v rest stopped => exact hf v rest ha

theorem Attempt.Yields.orElse {a b : Attempt α} (ha : a.Yields P) (hb : b.Yields P) :
    (a.orElse b).Yields P := by
  cases a with
  | read v rest stopped => exact ha
  | refused r =>
    cases b with
    | read v rest stopped => exact hb
    | refused s => trivial

end Yields

/-! ## What was read stands in front of the rest -/

/-- The tokens are some that stand for a value, and then the rest. -/
def Leads {α : Type} (Stands : List Token → α → Prop) (tokens : List Token) (v : α)
    (rest : List Token) : Prop :=
  ∃ front, tokens = front ++ rest ∧ Stands front v

/-- The tokens are some that stand for a value, in parentheses. -/
def Wraps {α : Type} (Stands : List Token → α → Prop) (tokens : List Token) (v : α) : Prop :=
  ∃ inner, tokens = .mark .openParen :: (inner ++ [.mark .closeParen]) ∧ Stands inner v

section Readers

variable (tokens : List Token)

theorem readMark_yields (m : Mark) :
    (readMark m tokens).Yields fun _ rest => tokens = .mark m :: rest := by
  cases tokens with
  | nil => trivial
  | cons t rest =>
    rw [readMark]
    split
    · next ht => exact congrArg (· :: rest) ht
    · trivial

theorem readKind_yields :
    (readKind tokens).Yields fun kind rest => tokens = .text kind.keyword :: rest := by
  unfold readKind
  split
  · next word rest =>
    split
    · next kind hk =>
      show Token.text word :: rest = _
      rw [Kind.keyword_of_ofKeyword? hk]
    · trivial
  · trivial

theorem readName_yields : (readName tokens).Yields (Leads IsName tokens) := by
  unfold readName
  cases hw : tokens.takeWhile Token.isText with
  | nil => trivial
  | cons t more =>
    refine ⟨tokens.takeWhile Token.isText, List.takeWhile_append_dropWhile.symm, ?_, ?_, ?_⟩
    · simp [hw]
    · exact fun u hu => List.all_eq_true.mp List.all_takeWhile u hu
    · rw [hw]

theorem readParens_yields {α : Type} {Stands : List Token → α → Prop}
    {inside : List Token → Attempt α}
    (hi : ∀ tokens, (inside tokens).Yields (Leads Stands tokens)) :
    (readParens inside tokens).Yields (Leads (Wraps Stands) tokens) := by
  refine (readMark_yields tokens _).andThen fun _ inner ho => (hi inner).andThen fun v rest hv =>
    (readMark_yields rest _).map fun _ left hc => ?_
  obtain ⟨front, rfl, hs⟩ := hv
  subst ho hc
  refine ⟨_, ?_, front, rfl, hs⟩
  rw [List.cons_append, List.append_assoc]
  rfl

theorem readKeyed_yields : (readKeyed tokens).Yields (Leads IsQueryParameter tokens) := by
  refine (readName_yields tokens).andThen fun name rest hn =>
    (readMark_yields rest _).andThen fun _ rest' he =>
      (readMark_yields rest' _).andThen fun _ rest'' hc =>
        (readKind_yields rest'').map fun kind left hk => ?_
  obtain ⟨front, rfl, h⟩ := hn
  subst he hc hk
  exact ⟨_, by rw [List.append_assoc]; rfl, .keyed h kind⟩

/-- After a colon stands a kind with a name. -/
theorem readTyped_yields : (readTyped tokens).Yields
    (Leads (fun front => IsQueryParameter (.mark .colon :: front)) tokens) := by
  refine (readKind_yields tokens).andThen fun kind rest hk =>
    (readParens_yields rest readName_yields).map fun name left hn => ?_
  obtain ⟨_, rfl, inner, rfl, h⟩ := hn
  subst hk
  exact ⟨_, rfl, .typed kind h⟩

/-- After a colon stands a name. -/
theorem readUntyped_yields : (readUntyped tokens).Yields
    (Leads (fun front => IsQueryParameter (.mark .colon :: front)) tokens) := by
  refine (readName_yields tokens).map fun name left hn => ?_
  obtain ⟨front, rfl, h⟩ := hn
  exact ⟨front, rfl, .untyped h⟩

theorem readParameter_yields : (readParameter tokens).Yields (Leads IsQueryParameter tokens) := by
  refine (readKeyed_yields tokens).orElse ((readMark_yields tokens _).andThen fun _ rest hm => ?_)
  refine ((readTyped_yields rest).orElse (readUntyped_yields rest)).mono fun p left h => ?_
  obtain ⟨front, rfl, hp⟩ := h
  exact ⟨_, hm, hp⟩

/-- Inside parentheses stand two parameters with a pipe between them. -/
theorem readAlternatives_yields : ((readParameter tokens).andThen fun first rest =>
      (readMark .pipe rest).andThen fun _ rest =>
        (readParameter rest).map fun second => QueryItem.alternation first second).Yields
    (Leads (fun front =>
      IsItem (.mark .openParen :: (front ++ [.mark .closeParen]))) tokens) := by
  refine (readParameter_yields tokens).andThen fun first rest hf =>
    (readMark_yields rest _).andThen fun _ rest' hm =>
      (readParameter_yields rest').map fun second left hs => ?_
  obtain ⟨before, rfl, hfirst⟩ := hf
  obtain ⟨after, rfl, hsecond⟩ := hs
  subst hm
  refine ⟨_, ?_, .alternation hfirst hsecond⟩
  rw [List.append_assoc]
  rfl

theorem readAlternation_yields : (readAlternation tokens).Yields (Leads IsItem tokens) := by
  refine (readParens_yields tokens readAlternatives_yields).mono fun item rest h => ?_
  obtain ⟨_, ht, inner, rfl, hi⟩ := h
  exact ⟨_, ht, hi⟩

theorem readOptional_yields : (readOptional tokens).Yields (Leads IsItem tokens) := by
  refine (readParens_yields tokens readParameter_yields).map fun p rest h => ?_
  obtain ⟨_, ht, inner, rfl, hp⟩ := h
  exact ⟨_, ht, .optional hp⟩

theorem readRequired_yields : (readRequired tokens).Yields (Leads IsItem tokens) := by
  refine (readParameter_yields tokens).map fun p rest h => ?_
  obtain ⟨front, ht, hp⟩ := h
  exact ⟨front, ht, .required hp⟩

end Readers

/-! ## Items -/

/-- Reading follows the grammar of items. -/
theorem isItem_of_readItem {tokens : List Token} {item : QueryItem}
    (h : readItem tokens = .ok item) : IsItem tokens item := by
  have hy := (((readAlternation_yields tokens).orElse (readOptional_yields tokens)).orElse
    (readRequired_yields tokens)).andThen (Q := fun item _ => IsItem tokens item)
    (k := fun value rest => (readEnd rest).map fun _ => value) fun item rest hi => by
      cases rest with
      | nil =>
        obtain ⟨front, rfl, hitem⟩ := hi
        rw [List.append_nil]
        exact hitem
      | cons t rest => trivial
  simp only [readItem] at h
  split at h
  · next value rest stopped he =>
    cases h
    rw [he] at hy
    exact hy
  · cases h

/-- **The grammar of query items.** Tokens are read as an item exactly if they stand for it, and
then they stand for no other. -/
theorem readItem_eq_ok_iff (tokens : List Token) (item : QueryItem) :
    (readItem tokens = .ok item ↔ IsItem tokens item) ∧
      (IsItem tokens item → ∀ other, IsItem tokens other → other = item) := by
  refine ⟨⟨isItem_of_readItem, readItem_of_isItem⟩, fun h other ho => ?_⟩
  have hitem := readItem_of_isItem h
  rw [readItem_of_isItem ho] at hitem
  exact Except.ok.inj hitem

end DeepLink.Template
