import DeepLink.Proofs.Template.ItemGrammar

/-!
# Reading finds the items of the grammar

An attempt `Reads` a value and leaves some tokens, or it `Fails`; where it stopped and why does not
matter here. The rules for the combinators turn reading into a calculation over the tokens of an
item, and `readItem_of_isItem` says that they are read as the item they stand for. So the tokens of
an item whose parameters have names are read as that item (`readItem_tokens`).
-/

namespace DeepLink.Template

open Attempt

/-! ## Attempts that succeed or fail -/

section Attempts

variable {α β : Type} {a b : Attempt α} {v : α} {w : β} {rest left : List Token}

/-- The attempt succeeds with the value and leaves the tokens. -/
def Attempt.Reads (a : Attempt α) (v : α) (rest : List Token) : Prop :=
  ∃ stopped, a = read v rest stopped

/-- The attempt is refused. -/
def Attempt.Fails (a : Attempt α) : Prop := ∃ r, a = refused r

theorem Attempt.Reads.andThen {k : α → List Token → Attempt β} (h : a.Reads v rest)
    (hn : (k v rest).Reads w left) : (a.andThen k).Reads w left := by
  obtain ⟨s, rfl⟩ := h
  obtain ⟨s', hs⟩ := hn
  refine ⟨mergeStops s s', ?_⟩
  simp only [Attempt.andThen, hs]

theorem Attempt.Reads.andThen_fails {k : α → List Token → Attempt β} (h : a.Reads v rest)
    (hn : (k v rest).Fails) : (a.andThen k).Fails := by
  obtain ⟨s, rfl⟩ := h
  obtain ⟨r, hr⟩ := hn
  simp only [Attempt.andThen, hr]
  exact ⟨_, rfl⟩

theorem Attempt.Fails.andThen {k : α → List Token → Attempt β} (h : a.Fails) :
    (a.andThen k).Fails := by
  obtain ⟨r, rfl⟩ := h
  exact ⟨r, rfl⟩

theorem Attempt.Reads.map (f : α → β) (h : a.Reads v rest) : (a.map f).Reads (f v) rest := by
  obtain ⟨s, rfl⟩ := h
  exact ⟨s, rfl⟩

theorem Attempt.Fails.map (f : α → β) (h : a.Fails) : (a.map f).Fails := by
  obtain ⟨r, rfl⟩ := h
  exact ⟨r, rfl⟩

theorem Attempt.Reads.orElse (h : a.Reads v rest) : (a.orElse b).Reads v rest := by
  obtain ⟨s, rfl⟩ := h
  exact ⟨s, rfl⟩

theorem Attempt.Fails.orElse (h : a.Fails) (hb : b.Reads v rest) : (a.orElse b).Reads v rest := by
  obtain ⟨r, rfl⟩ := h
  obtain ⟨s, rfl⟩ := hb
  exact ⟨s, rfl⟩

theorem Attempt.Fails.orElse_fails (h : a.Fails) (hb : b.Fails) : (a.orElse b).Fails := by
  obtain ⟨r, rfl⟩ := h
  obtain ⟨s, rfl⟩ := hb
  exact ⟨_, rfl⟩

end Attempts

/-! ## Reading what the tokens spell -/

theorem readMark_cons (m : Mark) (rest : List Token) :
    (readMark m (.mark m :: rest)).Reads () rest := by
  rw [readMark, if_pos rfl]
  exact ⟨none, rfl⟩

theorem readMark_fails {m : Mark} {tokens : List Token} (h : tokens.head? ≠ some (.mark m)) :
    (readMark m tokens).Fails := by
  cases tokens with
  | nil => exact ⟨_, rfl⟩
  | cons t rest =>
    rw [readMark, if_neg (by simpa using h)]
    exact ⟨_, rfl⟩

theorem readKind_keyword (k : Kind) (rest : List Token) :
    (readKind (.text k.keyword :: rest)).Reads k rest := by
  simp only [readKind, Kind.ofKeyword?_keyword]
  exact ⟨none, rfl⟩

/-- The tokens are over, or the next one stands for structure. -/
def EndsName (tokens : List Token) : Prop := ∀ t ∈ tokens.head?, t.isText = false

theorem endsName_nil : EndsName [] := by
  intro t ht
  cases ht

theorem endsName_cons (m : Mark) (rest : List Token) : EndsName (.mark m :: rest) := by
  intro t ht
  obtain rfl := Option.mem_some.mp ht
  rfl

theorem takeWhile_of_endsName {tokens : List Token} (h : EndsName tokens) :
    tokens.takeWhile Token.isText = [] ∧ tokens.dropWhile Token.isText = tokens := by
  cases tokens with
  | nil => exact ⟨rfl, rfl⟩
  | cons t rest =>
    have ht : t.isText = false := h t rfl
    simp [ht]

theorem readName_of_isName {tokens rest : List Token} {name : String} (h : IsName tokens name)
    (hr : EndsName rest) : (readName (tokens ++ rest)).Reads name rest := by
  obtain ⟨hne, ht, rfl⟩ := h
  have htake : (tokens ++ rest).takeWhile Token.isText = tokens := by
    rw [List.takeWhile_append_of_pos ht, (takeWhile_of_endsName hr).1, List.append_nil]
  have hdrop : (tokens ++ rest).dropWhile Token.isText = rest := by
    rw [List.dropWhile_append_of_pos ht, (takeWhile_of_endsName hr).2]
  unfold readName
  rw [htake, hdrop]
  cases tokens with
  | nil => exact absurd rfl hne
  | cons t more => exact ⟨some (.atHead rest), rfl⟩

theorem readName_fails {tokens : List Token} (h : EndsName tokens) : (readName tokens).Fails := by
  unfold readName
  rw [(takeWhile_of_endsName h).1]
  exact ⟨_, rfl⟩

theorem readParens_reads {α : Type} {inside : List Token → Attempt α} {v : α}
    {tokens rest : List Token} (h : (inside tokens).Reads v (.mark .closeParen :: rest)) :
    (readParens inside (.mark .openParen :: tokens)).Reads v rest :=
  (readMark_cons _ _).andThen (h.andThen ((readMark_cons _ _).map _))

theorem readParens_fails {α : Type} (inside : List Token → Attempt α) {tokens : List Token}
    (h : tokens.head? ≠ some (.mark .openParen)) : (readParens inside tokens).Fails :=
  (readMark_fails h).andThen

/-! ## Reading a parameter -/

/-- The tokens are over, or what comes next may stand after a parameter of a query. -/
def EndsParameter (tokens : List Token) : Prop :=
  tokens = [] ∨ (∃ rest, tokens = .mark .pipe :: rest) ∨ ∃ rest, tokens = .mark .closeParen :: rest

theorem EndsParameter.endsName {tokens : List Token} (h : EndsParameter tokens) :
    EndsName tokens := by
  rcases h with rfl | ⟨rest, rfl⟩ | ⟨rest, rfl⟩
  · exact endsName_nil
  · exact endsName_cons _ _
  · exact endsName_cons _ _

/-- A name is never taken for a kind with a name: no parenthesis follows its first token. -/
theorem readTyped_fails {tokens rest : List Token} {name : String} (h : IsName tokens name)
    (hr : EndsParameter rest) : (readTyped (tokens ++ rest)).Fails := by
  obtain ⟨hne, ht, -⟩ := h
  have hopen : ∀ more : List Token, (∀ t ∈ more, t.isText = true) →
      (more ++ rest).head? ≠ some (.mark .openParen) := by
    intro more hm he
    cases more with
    | nil => rcases hr with rfl | ⟨rest, rfl⟩ | ⟨rest, rfl⟩ <;> cases he
    | cons t more =>
      obtain rfl := Option.some.inj he
      exact Bool.false_ne_true (hm _ List.mem_cons_self)
  unfold readTyped
  cases tokens with
  | nil => exact absurd rfl hne
  | cons t more =>
    cases t with
    | mark m => exact absurd (ht _ List.mem_cons_self) Bool.false_ne_true
    | escaped c => exact Attempt.Fails.andThen ⟨_, rfl⟩
    | text word =>
      cases hk : Kind.ofKeyword? word with
      | none =>
        refine Attempt.Fails.andThen ?_
        simp only [List.cons_append, readKind, hk]
        exact ⟨_, rfl⟩
      | some kind =>
        obtain rfl := Kind.keyword_of_ofKeyword? hk
        refine (readKind_keyword kind _).andThen_fails ((readParens_fails _ ?_).map _)
        exact hopen more fun u hu => ht u (List.mem_cons_of_mem _ hu)

theorem readParameter_of_isQueryParameter {tokens rest : List Token} {p : Parameter}
    (h : IsQueryParameter tokens p) (hr : EndsParameter rest) :
    (readParameter (tokens ++ rest)).Reads p rest := by
  have hkeyed : ∀ more, (readKeyed (.mark .colon :: more)).Fails := fun more =>
    (readName_fails (endsName_cons _ _)).andThen
  cases h with
  | keyed h kind =>
    refine Attempt.Reads.orElse ?_
    rw [List.append_assoc]
    exact (readName_of_isName h (endsName_cons _ _)).andThen ((readMark_cons _ _).andThen
      ((readMark_cons _ _).andThen ((readKind_keyword kind rest).map _)))
  | typed kind h =>
    rw [List.cons_append, List.cons_append, List.cons_append, List.append_assoc]
    refine (hkeyed _).orElse ((readMark_cons .colon _).andThen (Attempt.Reads.orElse ?_))
    exact (readKind_keyword kind _).andThen
      ((readParens_reads (readName_of_isName h (endsName_cons _ _))).map _)
  | untyped h =>
    exact (hkeyed _).orElse ((readMark_cons .colon _).andThen
      ((readTyped_fails h hr).orElse ((readName_of_isName h hr.endsName).map _)))

/-! ## Reading an item -/

/-- What is read to the end makes the item. -/
theorem readItem_of_reads {tokens : List Token} {item : QueryItem}
    (h : (((readAlternation tokens).orElse (readOptional tokens)).orElse
      (readRequired tokens)).Reads item []) : readItem tokens = .ok item := by
  have hend : (readEnd []).Reads () [] := ⟨none, rfl⟩
  obtain ⟨s, hs⟩ := h.andThen (k := fun value rest => (readEnd rest).map fun _ => value)
    (hend.map fun _ => item)
  simp only [readItem, hs]

/-- **Reading finds what the grammar of items allows.** -/
theorem readItem_of_isItem {tokens : List Token} {item : QueryItem} (h : IsItem tokens item) :
    readItem tokens = .ok item := by
  apply readItem_of_reads
  cases h with
  | required h =>
    have hhead := h.head_ne_openParen []
    have hread := readParameter_of_isQueryParameter h (.inl rfl)
    rw [List.append_nil] at hhead hread
    exact ((readParens_fails _ hhead).orElse_fails ((readParens_fails _ hhead).map _)).orElse
      (hread.map _)
  | @optional tokens p h =>
    have hread := readParameter_of_isQueryParameter h (.inr (.inr ⟨[], rfl⟩))
    have halt : (readAlternation
        (.mark .openParen :: (tokens ++ [.mark .closeParen]))).Fails := by
      unfold readAlternation readParens
      refine (readMark_cons .openParen _).andThen_fails (Attempt.Fails.andThen ?_)
      exact hread.andThen_fails (readMark_fails (by simp)).andThen
    exact (halt.orElse ((readParens_reads hread).map _)).orElse
  | alternation hf hs =>
    refine Attempt.Reads.orElse (Attempt.Reads.orElse (readParens_reads ?_))
    rw [List.append_assoc]
    refine (readParameter_of_isQueryParameter hf (.inr (.inl ⟨_, rfl⟩))).andThen ?_
    exact (readMark_cons _ _).andThen
      ((readParameter_of_isQueryParameter hs (.inr (.inr ⟨[], rfl⟩))).map _)

/-- The tokens of an item whose parameters have names are read as it. -/
theorem readItem_tokens {item : QueryItem} (hn : ∀ p ∈ item.parameters, p.name ≠ "") :
    readItem item.tokens = .ok item :=
  readItem_of_isItem (isItem_tokens hn)

end DeepLink.Template
