import DeepLink.Proofs.Template.ItemFaults

/-!
# Why items are refused

A refused item is said to end too early exactly if it is `CutShort`, to have an unknown kind exactly
if a word that names no kind stands where a parameter needs one (`NamesNoKind`), and else to have an
unexpected token, with which no item can go on.

That a refusal says nothing else is known from `Apt`. That it does say so in the first two cases is
a matter of how far reading gets (`FailsBy`): merging never loses a refusal that came further, and
no apt refusal comes further than a word that names no kind.
-/

namespace DeepLink.Template

open Attempt

/-! ## How far a failed attempt gets -/

section FailsBy

variable {α β : Type} {a b : Attempt α} {v : α} {rest : List Token} {n : Nat}

/-- The attempt is refused with at most `n` tokens left. -/
def Attempt.FailsBy (n : Nat) (a : Attempt α) : Prop := ∃ r, a = refused r ∧ r.left ≤ n

theorem left_furthest (r s : Refusal) : (r.furthest s).left = min r.left s.left := by
  unfold Refusal.furthest
  split <;> omega

theorem Attempt.FailsBy.fails (h : a.FailsBy n) : a.Fails := by
  obtain ⟨r, rfl, -⟩ := h
  exact ⟨r, rfl⟩

theorem Attempt.FailsBy.left_le {r : Refusal} (h : a.FailsBy n) (ha : a = refused r) :
    r.left ≤ n := by
  obtain ⟨s, hs, hle⟩ := h
  obtain rfl : r = s := Attempt.refused.inj (ha.symm.trans hs)
  exact hle

theorem Attempt.FailsBy.andThen {k : α → List Token → Attempt β} (h : a.FailsBy n) :
    (a.andThen k).FailsBy n := by
  obtain ⟨r, rfl, hr⟩ := h
  exact ⟨r, rfl, hr⟩

theorem Attempt.Reads.andThen_failsBy {k : α → List Token → Attempt β} (h : a.Reads v rest)
    (hn : (k v rest).FailsBy n) : (a.andThen k).FailsBy n := by
  obtain ⟨stopped, rfl⟩ := h
  obtain ⟨r, hr, hle⟩ := hn
  simp only [Attempt.andThen, hr]
  refine ⟨_, rfl, ?_⟩
  cases stopped with
  | none => exact hle
  | some earlier =>
    rw [left_furthest]
    omega

theorem Attempt.FailsBy.map (h : a.FailsBy n) (f : α → β) : (a.map f).FailsBy n := by
  obtain ⟨r, rfl, hr⟩ := h
  exact ⟨r, rfl, hr⟩

theorem Attempt.FailsBy.orElse (h : a.FailsBy n) (hb : b.Fails) : (a.orElse b).FailsBy n := by
  obtain ⟨r, rfl, hr⟩ := h
  obtain ⟨s, rfl⟩ := hb
  refine ⟨_, rfl, ?_⟩
  rw [left_furthest]
  omega

theorem Attempt.Fails.orElse_failsBy (h : a.Fails) (hb : b.FailsBy n) : (a.orElse b).FailsBy n := by
  obtain ⟨r, rfl⟩ := h
  obtain ⟨s, rfl, hs⟩ := hb
  refine ⟨_, rfl, ?_⟩
  rw [left_furthest]
  omega

end FailsBy

section Readers

variable {tokens rest : List Token} {name : List Token} {text word : String}

/-- The tokens of an item that is not in parentheses. -/
theorem readWholeItem_failsBy {n : Nat} (hhead : tokens.head? ≠ some (.mark .openParen))
    (h : (readParameter tokens).FailsBy n) : (readWholeItem tokens).FailsBy n := by
  have halt : (readAlternation tokens).Fails := readParens_fails _ hhead
  have hopt : (readOptional tokens).Fails := (readParens_fails _ hhead).map _
  exact ((halt.orElse_fails hopt).orElse_failsBy (h.map _)).andThen

theorem readParens_failsBy {α : Type} {inside : List Token → Attempt α} {n : Nat}
    (h : (inside tokens).FailsBy n) :
    (readParens inside (.mark .openParen :: tokens)).FailsBy n := by
  unfold readParens
  exact (readMark_cons _ _).andThen_failsBy h.andThen

/-- A parenthesis has to follow what was read. -/
theorem readParens_fails_unclosed {α : Type} {inside : List Token → Attempt α} {v : α}
    (h : (inside tokens).Reads v rest) (hr : rest.head? ≠ some (.mark .closeParen)) :
    (readParens inside (.mark .openParen :: tokens)).Fails := by
  unfold readParens
  exact (readMark_cons _ _).andThen_fails (h.andThen_fails ((readMark_fails hr).map _))

/-- The tokens of an item in parentheses. -/
theorem readWholeItem_parens_failsBy {n : Nat} {inner : List Token}
    (halt : (readAlternation (.mark .openParen :: inner)).FailsBy n)
    (hopt : (readOptional (.mark .openParen :: inner)).Fails) :
    (readWholeItem (.mark .openParen :: inner)).FailsBy n := by
  have hreq : (readRequired (.mark .openParen :: inner)).Fails :=
    ((readName_fails (endsName_cons _ _)).andThen.orElse_fails
      (readMark_fails (by simp)).andThen).map _
  exact ((halt.orElse hopt).orElse hreq).andThen

theorem readKind_failsBy (hw : ∀ kind : Kind, kind.keyword ≠ word) (rest : List Token) :
    (readKind (.text word :: rest)).FailsBy rest.length := by
  cases hk : Kind.ofKeyword? word with
  | some kind => exact absurd (Kind.keyword_of_ofKeyword? hk) (hw kind)
  | none =>
    simp only [readKind, hk]
    exact ⟨_, rfl, Nat.le_refl _⟩

/-- After `=:` a word that names no kind is read before it is refused. -/
theorem readParameter_failsBy (h : IsName name text) (hw : ∀ kind : Kind, kind.keyword ≠ word)
    (rest : List Token) :
    (readParameter (name ++ [.mark .equals, .mark .colon, .text word] ++ rest)).FailsBy
      rest.length := by
  have hcolon := h.head_ne_mark .colon (.mark .equals :: .mark .colon :: .text word :: rest)
  rw [List.append_assoc]
  refine Attempt.FailsBy.orElse ?_ (readMark_fails hcolon).andThen
  exact (readName_of_isName h (endsName_cons _ _)).andThen_failsBy
    ((readMark_cons _ _).andThen_failsBy ((readMark_cons _ _).andThen_failsBy
      ((readKind_failsBy hw rest).map _)))

/-- A word that names no kind is read before the item is refused. -/
theorem NamesNoKind.failsBy (h : NamesNoKind tokens word) (rest : List Token) :
    (readWholeItem (tokens ++ rest)).FailsBy rest.length := by
  obtain ⟨start, name, text, hs, hn, hw, rfl⟩ := h
  have hfails := readParameter_failsBy hn hw rest
  cases hs with
  | required =>
    refine readWholeItem_failsBy ?_ hfails
    rw [List.nil_append, List.append_assoc]
    exact hn.head_ne_mark .openParen _
  | inParens =>
    exact readWholeItem_parens_failsBy (readParens_failsBy hfails.andThen)
      ((readParens_failsBy hfails).map _).fails
  | @second before p hb =>
    have hassoc : .mark .openParen :: (before ++ [.mark .pipe]) ++
        (name ++ [.mark .equals, .mark .colon, .text word]) ++ rest =
        .mark .openParen :: (before ++ .mark .pipe ::
          (name ++ [.mark .equals, .mark .colon, .text word] ++ rest)) := by simp
    rw [hassoc]
    have hfirst := fun more => readParameter_of_isQueryParameter hb
      (.inr (.inl ⟨more, rfl⟩) : EndsParameter (.mark .pipe :: more))
    refine readWholeItem_parens_failsBy (readParens_failsBy ?_)
      ((readParens_fails_unclosed (hfirst _) (by simp)).map _)
    exact (hfirst _).andThen_failsBy ((readMark_cons _ _).andThen_failsBy (hfails.map _))

end Readers

theorem readItem_of_refused {tokens : List Token} {r : Refusal}
    (h : readWholeItem tokens = refused r) : readItem tokens = .error r.fault := by
  unfold readWholeItem at h
  simp only [readItem, h]

/-! ## A word that names no kind -/

theorem BeginsItem.of_append {front more : List Token} (h : BeginsItem (front ++ more)) :
    BeginsItem front := by
  obtain ⟨rest, item, hi⟩ := h
  rw [List.append_assoc] at hi
  exact ⟨_, item, hi⟩

/-- No item goes on after a word that names no kind. -/
theorem NamesNoKind.not_beginsItem {tokens : List Token} {word : String}
    (h : NamesNoKind tokens word) : ¬ BeginsItem tokens := by
  rintro ⟨more, item, hi⟩
  obtain ⟨r, hr, -⟩ := h.failsBy more
  have herror := readItem_of_refused hr
  rw [readItem_of_isItem hi] at herror
  cases herror

/-- Up to the word that names no kind the tokens may go on as an item, and it is the last of
them. -/
theorem NamesNoKind.exists_concat {tokens : List Token} {word : String}
    (h : NamesNoKind tokens word) : ∃ front, tokens = front ++ [.text word] ∧ BeginsItem front := by
  obtain ⟨start, name, text, hs, hn, -, rfl⟩ := h
  exact ⟨start ++ (name ++ [.mark .equals, .mark .colon]), by simp,
    hs.beginsItem (beginsParameter_keyed hn)⟩

/-- Of two ways to cut tokens, the later one cuts after the earlier. -/
theorem exists_append_of_length_le {a b c d : List Token} (h : a ++ b = c ++ d)
    (hl : d.length ≤ b.length) : ∃ m, c = a ++ m := by
  have hlen := congrArg List.length h
  rw [List.length_append, List.length_append] at hlen
  obtain ⟨m, rfl⟩ := List.prefix_of_prefix_length_le (List.prefix_append a b)
    (h ▸ List.prefix_append c d) (by omega)
  exact ⟨m, rfl⟩

/-- No apt refusal comes further than a word that names no kind. -/
theorem NamesNoKind.fault_eq {front rest : List Token} {word : String}
    (h : NamesNoKind front word) {r : Refusal} (hr : readWholeItem (front ++ rest) = refused r)
    (ha : Apt (front ++ rest) r) : r.fault = .unknownKind word := by
  have hle := (h.failsBy rest).left_le hr
  cases ha with
  | @unexpected front' rest' he hf =>
    obtain ⟨more, rfl⟩ := exists_append_of_length_le he hle
    exact absurd hf.of_append h.not_beginsItem
  | @unknownKind front' rest' word' he hf =>
    obtain ⟨more, rfl⟩ := exists_append_of_length_le he hle
    obtain ⟨before, heq, hbefore⟩ := hf.exists_concat
    rcases List.eq_nil_or_concat more with rfl | ⟨most, t, rfl⟩
    · obtain ⟨before', heq', -⟩ := h.exists_concat
      rw [List.append_nil, heq'] at heq
      have ht := (List.append_inj' heq rfl).2
      rw [Token.text.inj (List.cons.inj ht).1]
    · rw [List.concat_eq_append, ← List.append_assoc] at heq
      obtain ⟨rfl, -⟩ := List.append_inj' heq rfl
      exact absurd hbefore.of_append h.not_beginsItem

/-! ## Items that end too early -/

/-- A name, one with `=` or with `=:` after it, or a colon. -/
inductive CutShort : List Token → Prop
  | name {name : List Token} {text : String} (h : IsName name text) : CutShort name
  | equals {name : List Token} {text : String} (h : IsName name text) :
    CutShort (name ++ [.mark .equals])
  | keyed {name : List Token} {text : String} (h : IsName name text) :
    CutShort (name ++ [.mark .equals, .mark .colon])
  | colon : CutShort [.mark .colon]

theorem CutShort.failsBy {tokens : List Token} (h : CutShort tokens) :
    (readWholeItem tokens).FailsBy 0 := by
  have hmark : ∀ m, (readMark m []).FailsBy 0 := fun m => ⟨_, rfl, Nat.le_refl 0⟩
  cases h with
  | name h =>
    have hhead := fun m => h.head_ne_mark m []
    have hname := readName_of_isName h endsName_nil
    simp only [List.append_nil] at hhead hname
    refine readWholeItem_failsBy (hhead _) (.orElse ?_ (readMark_fails (hhead _)).andThen)
    exact hname.andThen_failsBy (hmark _).andThen
  | equals h =>
    refine readWholeItem_failsBy (h.head_ne_mark _ _)
      (.orElse ?_ (readMark_fails (h.head_ne_mark _ _)).andThen)
    exact (readName_of_isName h (endsName_cons _ _)).andThen_failsBy
      ((readMark_cons _ _).andThen_failsBy (hmark _).andThen)
  | keyed h =>
    refine readWholeItem_failsBy (h.head_ne_mark _ _)
      (.orElse ?_ (readMark_fails (h.head_ne_mark _ _)).andThen)
    have hkind : (readKind []).FailsBy 0 := ⟨_, rfl, Nat.le_refl 0⟩
    exact (readName_of_isName h (endsName_cons _ _)).andThen_failsBy
      ((readMark_cons _ _).andThen_failsBy ((readMark_cons _ _).andThen_failsBy (hkind.map _)))
  | colon => exact ⟨_, rfl, Nat.le_refl 0⟩

theorem CutShort.not_namesNoKind {tokens : List Token} (h : CutShort tokens) (word : String) :
    ¬ NamesNoKind tokens word := by
  intro hk
  obtain ⟨front, he, -⟩ := hk.exists_concat
  have hlast : tokens.getLast? = some (.text word) := by rw [he, List.getLast?_concat]
  cases h with
  | name h =>
    obtain ⟨start, name, text, -, -, -, rfl⟩ := hk
    have hequals := h.isText (.mark .equals) (by simp)
    exact Bool.false_ne_true hequals
  | equals h => simp at hlast
  | keyed h => simp at hlast
  | colon => simp at hlast

/-- Nothing is left for a refusal of tokens that end too early. -/
theorem CutShort.fault_eq {tokens : List Token} (h : CutShort tokens) {r : Refusal}
    (hr : readWholeItem tokens = refused r) (ha : Apt tokens r) : r.fault = .unexpected none := by
  have hle := h.failsBy.left_le hr
  cases ha with
  | @unexpected front rest he hf =>
    obtain rfl : rest = [] := List.eq_nil_of_length_eq_zero (Nat.le_zero.mp hle)
    rfl
  | @unknownKind front rest word he hf =>
    obtain rfl : rest = [] := List.eq_nil_of_length_eq_zero (Nat.le_zero.mp hle)
    rw [List.append_nil] at he
    exact absurd (he ▸ hf) (h.not_namesNoKind word)

/-! ## Balanced tokens that items start with -/

theorem balanced_of_isName {tokens : List Token} {text : String} (h : IsName tokens text) :
    Balanced tokens := balanced_of_isParen fun t ht => isParen_of_isText (h.isText t ht)

theorem IsQueryParameter.balanced {tokens : List Token} {p : Parameter}
    (h : IsQueryParameter tokens p) : Balanced tokens := by
  cases h with
  | keyed h kind =>
    exact (balanced_of_isName h).append (balanced_of_isParen (by simp [Token.isParen]))
  | typed kind h => exact .cons rfl (.cons rfl (.group (balanced_of_isName h) .nil))
  | untyped h => exact .cons rfl (balanced_of_isName h)

theorem isName_of_append {front more : List Token} {text : String}
    (h : IsName (front ++ more) text) (hne : front ≠ []) :
    IsName front (joinLiterals front) :=
  ⟨hne, fun t ht => h.isText t (List.mem_append_left _ ht), rfl⟩

/-- Balanced tokens that a parameter starts with stand for one, or end too early. -/
theorem isQueryParameter_or_cutShort {tokens more : List Token} {p : Parameter}
    (hb : Balanced tokens) (hne : tokens ≠ []) (h : IsQueryParameter (tokens ++ more) p) :
    (∃ q, IsQueryParameter tokens q) ∨ CutShort tokens := by
  generalize he : tokens ++ more = whole at h
  cases h with
  | @keyed name text h kind =>
    rcases List.append_eq_append_iff.mp he with ⟨rest, rfl, -⟩ | ⟨rest, rfl, hr⟩
    · exact .inr (.name (isName_of_append h hne))
    · rcases rest with _ | ⟨t, _ | ⟨u, _ | ⟨v, rest⟩⟩⟩
      · exact .inr (.name (by simpa using h))
      · simp only [List.cons_append, List.nil_append, List.cons.injEq] at hr
        obtain ⟨rfl, -⟩ := hr
        exact .inr (.equals h)
      · simp only [List.cons_append, List.nil_append, List.cons.injEq] at hr
        obtain ⟨rfl, rfl, -⟩ := hr
        exact .inr (.keyed h)
      · simp only [List.cons_append, List.cons.injEq, List.nil_eq, List.append_eq_nil_iff] at hr
        obtain ⟨rfl, rfl, rfl, rfl, -⟩ := hr
        exact .inl ⟨_, .keyed h kind⟩
  | @typed kind name text h =>
    rcases tokens with _ | ⟨t, _ | ⟨u, _ | ⟨v, rest⟩⟩⟩
    · exact absurd rfl hne
    · obtain ⟨rfl, -⟩ := List.cons.inj he
      exact .inr .colon
    · simp only [List.cons_append, List.cons.injEq] at he
      obtain ⟨rfl, rfl, -⟩ := he
      exact .inl ⟨_, .untyped ⟨by simp, by simp [Token.isText], rfl⟩⟩
    · simp only [List.cons_append, List.cons.injEq] at he
      obtain ⟨rfl, rfl, rfl, he⟩ := he
      obtain rfl := (balanced_of_isName h).eq_group he ((hb.of_cons rfl).of_cons rfl)
      exact .inl ⟨_, .typed kind h⟩
  | @untyped name text h =>
    rcases tokens with _ | ⟨t, _ | ⟨u, rest⟩⟩
    · exact absurd rfl hne
    · obtain ⟨rfl, -⟩ := List.cons.inj he
      exact .inr .colon
    · obtain ⟨rfl, rfl⟩ := List.cons.inj he
      exact .inl ⟨_, .untyped (isName_of_append h (List.cons_ne_nil u rest))⟩

/-- Balanced tokens that an item starts with stand for one, or end too early. -/
theorem isItem_or_cutShort {tokens : List Token} (hb : Balanced tokens) (hne : tokens ≠ [])
    (h : BeginsItem tokens) : (∃ item, IsItem tokens item) ∨ CutShort tokens := by
  obtain ⟨more, item, h⟩ := h
  generalize he : tokens ++ more = whole at h
  cases h with
  | required h =>
    subst he
    rcases isQueryParameter_or_cutShort hb hne h with ⟨q, hq⟩ | hc
    · exact .inl ⟨_, .required hq⟩
    · exact .inr hc
  | optional h =>
    obtain ⟨t, rest, rfl⟩ := List.exists_cons_of_ne_nil hne
    obtain ⟨rfl, hrest⟩ := List.cons.inj he
    obtain rfl := h.balanced.eq_group hrest hb
    exact .inl ⟨_, .optional h⟩
  | alternation hf hs =>
    obtain ⟨t, rest, rfl⟩ := List.exists_cons_of_ne_nil hne
    obtain ⟨rfl, hrest⟩ := List.cons.inj he
    obtain rfl := (Balanced.between (m := .pipe) rfl hf.balanced hs.balanced).eq_group hrest hb
    exact .inl ⟨_, .alternation hf hs⟩

/-- Refused tokens that an item starts with end too early. -/
theorem cutShort_of_readItem {tokens : List Token} (hb : Balanced tokens) (hne : tokens ≠ [])
    {fault : ItemFault} (h : readItem tokens = .error fault) (hf : BeginsItem tokens) :
    CutShort tokens := by
  refine (isItem_or_cutShort hb hne hf).resolve_left fun ⟨item, hi⟩ => ?_
  rw [readItem_of_isItem hi] at h
  cases h

/-! ## Messages -/

theorem unexpected_ne_end (s : String) :
    "unexpected `" ++ s ++ "`" ≠ "unexpected end of input" := by
  intro h
  have hchars := congrArg (fun text => text.toList.take 12) h
  simp at hchars

theorem unknown_ne_end (s : String) :
    "unknown parameter type `" ++ s ++ "`" ≠ "unexpected end of input" := by
  intro h
  have hchars := congrArg (fun text => text.toList.take 3) h
  simp at hchars

theorem unknown_ne_unexpected (s t : String) :
    "unknown parameter type `" ++ s ++ "`" ≠ "unexpected `" ++ t ++ "`" := by
  intro h
  have hchars := congrArg (fun text => text.toList.take 3) h
  simp at hchars

theorem message_eq_end_iff {fault : ItemFault} :
    fault.message = "unexpected end of input" ↔ fault = .unexpected none := by
  constructor
  · intro h
    rcases fault with (_ | t) | word
    · rfl
    · exact absurd h (unexpected_ne_end t.source)
    · exact absurd h (unknown_ne_end word)
  · rintro rfl
    rfl

theorem message_eq_unknown_iff {fault : ItemFault} {word : String} :
    fault.message = "unknown parameter type `" ++ word ++ "`" ↔ fault = .unknownKind word := by
  constructor
  · intro h
    rcases fault with (_ | t) | other
    · exact absurd h.symm (unknown_ne_end word)
    · exact absurd h.symm (unknown_ne_unexpected word t.source)
    · have hword := (String.append_left_inj _).mp h
      rw [(String.append_right_inj _).mp hword]
  · rintro rfl
    rfl

/-- **Reasons of refused items.** Of the tokens of a refused item, balanced and not empty, it is
said that they end too early exactly if they are `CutShort`, and that they have an unknown kind
exactly if they start with tokens that end in a word where a kind is needed. In all other cases one
of the tokens is said to be unexpected, and some item starts with what stands before it. -/
theorem message_of_readItem {tokens : List Token} {fault : ItemFault} (hb : Balanced tokens)
    (hne : tokens ≠ []) (h : readItem tokens = .error fault) :
    (fault.message = "unexpected end of input" ↔ CutShort tokens) ∧
      (∀ word, fault.message = "unknown parameter type `" ++ word ++ "`" ↔
        ∃ front rest, tokens = front ++ rest ∧ NamesNoKind front word) ∧
      (¬ CutShort tokens → (∀ word front rest, tokens = front ++ rest → ¬ NamesNoKind front word) →
        ∃ front t rest, tokens = front ++ t :: rest ∧ BeginsItem front ∧
          fault.message = "unexpected `" ++ t.source ++ "`") := by
  have hend := cutShort_of_readItem hb hne h
  obtain ⟨r, hr, hapt, rfl⟩ := exists_refusal_of_readItem h
  refine ⟨message_eq_end_iff.trans ⟨fun hnone => ?_, fun hshort => hshort.fault_eq hr hapt⟩,
    fun word => message_eq_unknown_iff.trans ⟨fun hunknown => ?_, fun ⟨front, rest, he, hf⟩ => ?_⟩,
    fun hshort hword => ?_⟩
  · cases hapt with
    | @unexpected front rest he hf =>
      obtain rfl : rest = [] := List.head?_eq_none_iff.mp (ItemFault.unexpected.inj hnone)
      rw [List.append_nil] at he
      exact hend (he ▸ hf)
    | unknownKind he hf => cases hnone
  · cases hapt with
    | unexpected he hf => cases hunknown
    | @unknownKind front rest other he hf =>
      obtain rfl := ItemFault.unknownKind.inj hunknown
      exact ⟨front, rest, he, hf⟩
  · subst he
    exact hf.fault_eq hr hapt
  · cases hapt with
    | @unexpected front rest he hf =>
      cases rest with
      | nil =>
        rw [List.append_nil] at he
        exact absurd (hend (he ▸ hf)) hshort
      | cons t rest => exact ⟨front, t, rest, he, hf, rfl⟩
    | unknownKind he hf => exact absurd hf (hword _ _ _ he)

/-- The word is reported although reading an item without parentheses would stop before it. -/
theorem message_of_readItem_optional_word :
    readItem [.mark .openParen, .text "a", .mark .equals, .mark .colon, .text "word",
        .mark .closeParen] = .error (.unknownKind "word") ∧
      ¬ CutShort [.mark .openParen, .text "a", .mark .equals, .mark .colon, .text "word",
        .mark .closeParen] ∧
      ∃ front rest, [.mark .openParen, .text "a", .mark .equals, .mark .colon, .text "word",
        .mark .closeParen] = front ++ rest ∧ NamesNoKind front "word" := by
  have hinner : Balanced [.text "a", .mark .equals, .mark .colon, .text "word"] :=
    balanced_of_isParen (by decide)
  have hread : readItem [.mark .openParen, .text "a", .mark .equals, .mark .colon, .text "word",
      .mark .closeParen] = .error (.unknownKind "word") := rfl
  obtain ⟨hshort, hword, -⟩ := message_of_readItem (.group hinner .nil) (List.cons_ne_nil _ _) hread
  exact ⟨hread, fun hc => absurd (hshort.mpr hc) (by decide), (hword "word").mp rfl⟩

end DeepLink.Template
