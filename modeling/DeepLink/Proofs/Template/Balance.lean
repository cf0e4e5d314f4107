import DeepLink.Token.Groups

/-!
# Balanced tokens

Tokens are `Balanced` if their parentheses pair up. What a scan over tokens does at the front of a
balanced run is said once for each scan:

* `cutFrom_balanced`: inside a group nothing of the run is cut, and `cutFrom_sealed`: outside groups
  nothing is cut either, if the run is `Sealed` against the mark;
* `closingLast_balanced`: the run closes no group that was open before.

`splitFrom_eq` reduces splitting to cutting.
-/

namespace DeepLink

/-- The parentheses pair up. -/
inductive Balanced : List Token → Prop
  | nil : Balanced []
  | cons {t : Token} {rest : List Token} (ht : t.isParen = false) (hr : Balanced rest) :
    Balanced (t :: rest)
  | group {inner rest : List Token} (hi : Balanced inner) (hr : Balanced rest) :
    Balanced (.mark .openParen :: (inner ++ .mark .closeParen :: rest))

theorem Balanced.append {a b : List Token} (ha : Balanced a) (hb : Balanced b) :
    Balanced (a ++ b) := by
  induction ha with
  | nil => exact hb
  | cons ht _ ih => exact .cons ht ih
  | group hi _ _ ih =>
    rw [List.cons_append, List.append_assoc, List.cons_append]
    exact .group hi ih

theorem Balanced.of_cons {t : Token} (ht : t.isParen = false) {rest : List Token}
    (h : Balanced (t :: rest)) : Balanced rest := by
  cases h with
  | cons _ hr => exact hr
  | group _ _ => cases ht

theorem balanced_of_isParen {tokens : List Token} (h : ∀ t ∈ tokens, t.isParen = false) :
    Balanced tokens := by
  induction tokens with
  | nil => exact .nil
  | cons t rest ih =>
    exact .cons (h t List.mem_cons_self) (ih fun u hu => h u (List.mem_cons_of_mem _ hu))

theorem isParen_of_isText {t : Token} (h : t.isText = true) : t.isParen = false := by
  cases t with
  | mark m => exact absurd h Bool.false_ne_true
  | escaped c => rfl
  | text s => rfl

theorem isParen_of_ne {t : Token} (ho : t ≠ .mark .openParen) (hc : t ≠ .mark .closeParen) :
    t.isParen = false := by
  unfold Token.isParen
  split
  · exact absurd rfl ho
  · exact absurd rfl hc
  · rfl

/-- A parenthesis aside, a token opens and closes nothing. -/
theorem depthAfter_of_isParen {t : Token} (h : t.isParen = false) (d : Nat) :
    t.depthAfter d = d := by
  cases t with
  | mark m => cases m <;> first | rfl | exact absurd h (by decide)
  | escaped c => rfl
  | text s => rfl

/-! ## Cutting -/

/-- Puts tokens in front of the first of two parts. -/
def prependFirst (a : List Token) (parts : List Token × List Token) : List Token × List Token :=
  (a ++ parts.1, parts.2)

theorem prependFirst_nil : prependFirst [] = id := rfl

theorem map_prependFirst (a b : List Token) (o : Option (List Token × List Token)) :
    (o.map (prependFirst b)).map (prependFirst a) = o.map (prependFirst (a ++ b)) := by
  cases o with
  | none => rfl
  | some parts => simp [prependFirst]

/-- A token that is not the delimiter, or stands inside a group, is not cut at. -/
theorem cutFrom_cons {delimiter : Token} {d : Nat} {t : Token} (h : ¬ (d = 0 ∧ t = delimiter))
    (rest : List Token) :
    cutFrom delimiter d (t :: rest) =
      (cutFrom delimiter (t.depthAfter d) rest).map (prependFirst [t]) := by
  rw [cutFrom, if_neg h]
  rfl

theorem cutFrom_balanced (delimiter : Token) {a : List Token} (ha : Balanced a) (d : Nat)
    (rest : List Token) :
    cutFrom delimiter (d + 1) (a ++ rest) =
      (cutFrom delimiter (d + 1) rest).map (prependFirst a) := by
  induction ha generalizing d rest with
  | nil => rw [prependFirst_nil, Option.map_id]; rfl
  | @cons t a ht _ ih =>
    rw [List.cons_append, cutFrom_cons (by simp), depthAfter_of_isParen ht, ih, map_prependFirst]
    rfl
  | @group inner a _ _ ihi ihr =>
    rw [List.cons_append, List.append_assoc, cutFrom_cons (by simp)]
    show (cutFrom delimiter (d + 1 + 1) _).map _ = _
    rw [ihi, List.cons_append, cutFrom_cons (by simp)]
    show (((cutFrom delimiter (d + 1) _).map _).map _).map _ = _
    rw [ihr, map_prependFirst, map_prependFirst, map_prependFirst]
    simp

/-- Outside groups, a group is passed over as a whole. -/
theorem cutFrom_group {delimiter : Token} (hd : .mark .openParen ≠ delimiter) {inner : List Token}
    (hi : Balanced inner) (rest : List Token) :
    cutFrom delimiter 0 (.mark .openParen :: (inner ++ .mark .closeParen :: rest)) =
      (cutFrom delimiter 0 rest).map
        (prependFirst (.mark .openParen :: (inner ++ [.mark .closeParen]))) := by
  rw [cutFrom_cons (fun h => hd h.2)]
  show (cutFrom delimiter (0 + 1) _).map _ = _
  rw [cutFrom_balanced delimiter hi, cutFrom_cons (by simp)]
  show (((cutFrom delimiter 0 _).map _).map _).map _ = _
  rw [map_prependFirst, map_prependFirst]
  rfl

/-- Balanced tokens with a mark at most inside their groups. -/
structure Sealed (m : Mark) (tokens : List Token) : Prop where
  balanced : Balanced tokens
  notCut : cutOutside (.mark m) tokens = none

theorem cutFrom_sealed {m : Mark} {a : List Token} (ha : Sealed m a) (rest : List Token) :
    cutFrom (.mark m) 0 (a ++ rest) = (cutFrom (.mark m) 0 rest).map (prependFirst a) := by
  obtain ⟨hb, hc⟩ := ha
  unfold cutOutside at hc
  induction hb generalizing rest with
  | nil => rw [prependFirst_nil, Option.map_id]; rfl
  | @cons t a ht _ ih =>
    have hm : ¬ (0 = 0 ∧ t = .mark m) := by
      intro h
      rw [cutFrom, if_pos h] at hc
      cases hc
    rw [cutFrom_cons hm, depthAfter_of_isParen ht, Option.map_eq_none_iff] at hc
    rw [List.cons_append, cutFrom_cons hm, depthAfter_of_isParen ht, ih rest hc, map_prependFirst]
    rfl
  | @group inner a hi hr _ ih =>
    have hm : Token.mark .openParen ≠ .mark m := by
      intro h
      rw [cutFrom, if_pos ⟨rfl, h⟩] at hc
      cases hc
    rw [cutFrom_group hm hi, Option.map_eq_none_iff] at hc
    rw [List.cons_append, List.append_assoc, List.cons_append, cutFrom_group hm hi, ih rest hc,
      map_prependFirst]
    simp

/-- A mark after a sealed run is the first outside groups. -/
theorem cutOutside_append_mark {m : Mark} {a : List Token} (ha : Sealed m a) (rest : List Token) :
    cutOutside (.mark m) (a ++ .mark m :: rest) = some (a, rest) := by
  unfold cutOutside
  rw [cutFrom_sealed ha, cutFrom, if_pos ⟨rfl, rfl⟩]
  simp [prependFirst]

theorem Sealed.nil (m : Mark) : Sealed m [] := ⟨.nil, rfl⟩

theorem Sealed.append {m : Mark} {a b : List Token} (ha : Sealed m a) (hb : Sealed m b) :
    Sealed m (a ++ b) := by
  refine ⟨ha.balanced.append hb.balanced, ?_⟩
  have hc := hb.notCut
  unfold cutOutside at hc ⊢
  rw [cutFrom_sealed ha, hc]
  rfl

theorem Sealed.cons {m : Mark} {t : Token} {a : List Token} (ht : t.isParen = false)
    (hm : t ≠ .mark m) (ha : Sealed m a) : Sealed m (t :: a) := by
  refine ⟨.cons ht ha.balanced, ?_⟩
  have hc := ha.notCut
  unfold cutOutside at hc ⊢
  rw [cutFrom_cons (fun h => hm h.2), depthAfter_of_isParen ht, hc]
  rfl

theorem sealed_of_isText (m : Mark) {tokens : List Token} (h : ∀ t ∈ tokens, t.isText = true) :
    Sealed m tokens := by
  induction tokens with
  | nil => exact .nil m
  | cons t rest ih =>
    have ht := h t List.mem_cons_self
    refine .cons (isParen_of_isText ht) ?_ (ih fun u hu => h u (List.mem_cons_of_mem _ hu))
    rintro rfl
    exact Bool.false_ne_true ht

/-- Parentheses seal what they hold. -/
theorem sealed_group {m : Mark} (hm : m ≠ .openParen) {inner : List Token} (hi : Balanced inner) :
    Sealed m (.mark .openParen :: (inner ++ [.mark .closeParen])) := by
  refine ⟨.group hi .nil, ?_⟩
  unfold cutOutside
  rw [cutFrom_group (by simpa using hm.symm) hi]
  rfl

/-! ## Splitting -/

/-- Splitting cuts at the first delimiter outside groups, and then splits what follows. -/
theorem splitFrom_eq (delimiter : Token) (d : Nat) (tokens : List Token) :
    splitFrom delimiter d tokens =
      match cutFrom delimiter d tokens with
      | none => [tokens]
      | some (before, after) => before :: splitFrom delimiter 0 after := by
  induction tokens generalizing d with
  | nil => rfl
  | cons t rest ih =>
    rw [splitFrom, cutFrom]
    by_cases h : d = 0 ∧ t = delimiter
    · rw [if_pos h, if_pos h]
    · rw [if_neg h, if_neg h, ih]
      cases cutFrom delimiter (t.depthAfter d) rest with
      | none => rfl
      | some parts => rfl

theorem splitOutside_sealed {m : Mark} {a : List Token} (ha : Sealed m a) :
    splitOutside (.mark m) a = [a] := by
  have hc := ha.notCut
  unfold cutOutside at hc
  unfold splitOutside
  rw [splitFrom_eq, hc]

theorem splitOutside_append_mark {m : Mark} {a : List Token} (ha : Sealed m a)
    (rest : List Token) :
    splitOutside (.mark m) (a ++ .mark m :: rest) = a :: splitOutside (.mark m) rest := by
  have hc := cutOutside_append_mark ha rest
  unfold cutOutside at hc
  unfold splitOutside
  rw [splitFrom_eq, hc]

/-! ## Taking parentheses off -/

theorem closingLast_cons {d : Nat} {t : Token} (h : t.depthAfter d ≠ 0) (rest : List Token) :
    closingLast d (t :: rest) = (closingLast (t.depthAfter d) rest).map (t :: ·) := by
  rw [closingLast, if_neg h]

theorem closingLast_balanced {a : List Token} (ha : Balanced a) (d : Nat) (rest : List Token) :
    closingLast (d + 1) (a ++ rest) = (closingLast (d + 1) rest).map (a ++ ·) := by
  induction ha generalizing d rest with
  | nil => simp
  | @cons t a ht _ ih =>
    have hd := depthAfter_of_isParen ht (d + 1)
    rw [List.cons_append, closingLast_cons (by omega), hd, ih, Option.map_map]
    rfl
  | @group inner a _ _ ihi ihr =>
    rw [List.cons_append, List.append_assoc, closingLast_cons (by simp [Token.depthAfter])]
    show (closingLast (d + 1 + 1) _).map _ = _
    rw [ihi, List.cons_append, closingLast_cons (by simp [Token.depthAfter])]
    show (((closingLast (d + 1) _).map _).map _).map _ = _
    rw [ihr]
    simp only [Option.map_map]
    congr 1
    funext inside
    simp

theorem insideParens?_group {inner : List Token} (hi : Balanced inner) :
    insideParens? (.mark .openParen :: (inner ++ [.mark .closeParen])) = some inner := by
  show closingLast (0 + 1) _ = _
  rw [closingLast_balanced hi]
  show (some []).map _ = _
  simp

theorem insideParens?_cons {t : Token} (ht : t.isParen = false) (rest : List Token) :
    insideParens? (t :: rest) = none := by
  rw [insideParens?]
  rintro rest' he
  obtain rfl := (List.cons.inj he).1
  exact absurd ht (by decide)

/-- A group with something after it is not all there is. -/
theorem insideParens?_group_append {inner rest : List Token} (hi : Balanced inner)
    (hr : rest ≠ []) :
    insideParens? (.mark .openParen :: (inner ++ .mark .closeParen :: rest)) = none := by
  have hclosed : (Token.mark .closeParen).depthAfter (0 + 1) = 0 := rfl
  show closingLast (0 + 1) _ = _
  rw [closingLast_balanced hi, closingLast, if_pos hclosed, if_neg hr]
  rfl

/-- Balanced tokens with a parenthesis that closes nothing after them are the start of no balanced
tokens. -/
theorem Balanced.not_append_close {a : List Token} (ha : Balanced a) (rest : List Token) :
    ¬ Balanced (a ++ .mark .closeParen :: rest) := by
  intro h
  have hsome := insideParens?_group h
  rw [List.append_assoc, List.cons_append, insideParens?_group_append ha (by simp)] at hsome
  cases hsome

/-- Nothing in front of the last parenthesis of a group is balanced. -/
theorem Balanced.not_cut {inner more : List Token} (h : Balanced (inner ++ more)) :
    ¬ Balanced (.mark .openParen :: inner) := by
  intro hg
  cases hg with
  | cons ht _ => cases ht
  | @group a rest ha _ =>
    rw [List.append_assoc, List.cons_append] at h
    exact ha.not_append_close _ h

/-- What starts like a group and is balanced is all of it. -/
theorem Balanced.eq_group {inner front more : List Token} (hi : Balanced inner)
    (he : front ++ more = inner ++ [.mark .closeParen])
    (hf : Balanced (.mark .openParen :: front)) : front = inner ++ [.mark .closeParen] := by
  rcases List.eq_nil_or_concat more with rfl | ⟨most, t, rfl⟩
  · rwa [List.append_nil] at he
  · rw [List.concat_eq_append, ← List.append_assoc] at he
    obtain ⟨rfl, -⟩ := List.append_inj' he rfl
    exact absurd hf hi.not_cut

theorem Balanced.insideParens?_eq_none_or {tokens : List Token} (h : Balanced tokens) :
    insideParens? tokens = none ∨
      ∃ inner, tokens = .mark .openParen :: (inner ++ [.mark .closeParen]) ∧ Balanced inner := by
  cases h with
  | nil => exact .inl rfl
  | cons ht _ => exact .inl (insideParens?_cons ht _)
  | @group inner rest hi _ =>
    cases rest with
    | nil => exact .inr ⟨inner, rfl, hi⟩
    | cons t rest => exact .inl (insideParens?_group_append hi (List.cons_ne_nil t rest))

end DeepLink
