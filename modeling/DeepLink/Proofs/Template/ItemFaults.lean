import DeepLink.Proofs.Template.ItemAcceptance

/-!
# Where reading an item gives up

A refusal is `Apt` if it stands at a token that no item can have there, although some item starts
with what stands before it, or right after a word where a kind is needed. Reading merges refusals
and remembers where it could have gone on, but of two it always keeps one, so all that it blames is
apt if every reader blames nothing else (`readWholeItem_blames`).

The choice after a colon is the exception: a kind that is refused there may say anything. But it is
forgotten, since the name that is tried next is refused only if no text follows the colon, and then
both are refused at the same place.
-/

namespace DeepLink.Template

open Attempt

/-! ## What items start with -/

/-- Some item starts with the tokens. -/
def BeginsItem (tokens : List Token) : Prop := ∃ more item, IsItem (tokens ++ more) item

/-- Some parameter of a query starts with the tokens. -/
def BeginsParameter (tokens : List Token) : Prop := ∃ more p, IsQueryParameter (tokens ++ more) p

/-- A parameter of an item may stand after the tokens. -/
inductive StartsParameter : List Token → Prop
  | required : StartsParameter []
  | inParens : StartsParameter [.mark .openParen]
  | second {before : List Token} {p : Parameter} (h : IsQueryParameter before p) :
    StartsParameter (.mark .openParen :: (before ++ [.mark .pipe]))

theorem StartsParameter.beginsItem {start front : List Token} (hs : StartsParameter start)
    (h : BeginsParameter front) : BeginsItem (start ++ front) := by
  obtain ⟨more, p, hp⟩ := h
  cases hs with
  | required => exact ⟨more, _, .required hp⟩
  | inParens =>
    have hi := IsItem.optional hp
    exact ⟨more ++ [.mark .closeParen], _, by simpa using hi⟩
  | second hb =>
    have hi := IsItem.alternation hb hp
    exact ⟨more ++ [.mark .closeParen], _, by simpa using hi⟩

section Parameters

variable {name : List Token} {text : String} (h : IsName name text)

theorem beginsParameter_nil : BeginsParameter [] := by
  have h : IsName [.text "a"] "a" := ⟨by simp, by decide, rfl⟩
  exact ⟨_, _, .untyped h⟩

include h

theorem beginsParameter_name : BeginsParameter name := ⟨_, _, .keyed h .int⟩

theorem beginsParameter_equals : BeginsParameter (name ++ [.mark .equals]) :=
  ⟨[.mark .colon, .text Kind.int.keyword], _, by simpa using IsQueryParameter.keyed h .int⟩

theorem beginsParameter_keyed : BeginsParameter (name ++ [.mark .equals, .mark .colon]) :=
  ⟨[.text Kind.int.keyword], _, by simpa using IsQueryParameter.keyed h .int⟩

end Parameters

/-! ## Refusals -/

/-- The tokens end in a word that names no kind where a parameter needs one. -/
def NamesNoKind (tokens : List Token) (word : String) : Prop :=
  ∃ start name text, StartsParameter start ∧ IsName name text ∧
    (∀ kind : Kind, kind.keyword ≠ word) ∧
    tokens = start ++ (name ++ [.mark .equals, .mark .colon, .text word])

/-- A refusal of an item stands at the first token that makes it none, or after a word that names
no kind. -/
inductive Apt (tokens : List Token) : Refusal → Prop
  | unexpected {front rest : List Token} (he : tokens = front ++ rest) (hf : BeginsItem front) :
    Apt tokens (.atHead rest)
  | unknownKind {front rest : List Token} {word : String} (he : tokens = front ++ rest)
    (hf : NamesNoKind front word) : Apt tokens ⟨rest.length, .unknownKind word⟩

section Blames

variable {α β : Type} {good : Refusal → Prop} {P : α → List Token → Prop}

/-- Wherever the attempt remembers that it stopped, the refusal there is good. -/
def Attempt.Stops (good : Refusal → Prop) : Attempt α → Prop
  | read _ _ stopped => ∀ r ∈ stopped, good r
  | refused _ => True

/-- If the attempt is refused, the refusal is good. -/
def Attempt.Refuses (good : Refusal → Prop) : Attempt α → Prop
  | read _ _ _ => True
  | refused r => good r

/-- All that the attempt blames is good. -/
structure Attempt.Blames (good : Refusal → Prop) (a : Attempt α) : Prop where
  stops : a.Stops good
  refuses : a.Refuses good

theorem furthest_eq_or (r s : Refusal) : r.furthest s = r ∨ r.furthest s = s := by
  unfold Refusal.furthest
  split
  · exact .inr rfl
  · exact .inl rfl

theorem furthest_of {r s : Refusal} (hr : good r) (hs : good s) : good (r.furthest s) := by
  rcases furthest_eq_or r s with he | he <;> rwa [he]

theorem mergeStops_of {s s' : Option Refusal} (h : ∀ r ∈ s, good r) (h' : ∀ r ∈ s', good r) :
    ∀ r ∈ mergeStops s s', good r := by
  cases s with
  | none => exact h'
  | some earlier =>
    cases s' with
    | none => exact h
    | some later =>
      intro r hr
      obtain rfl := Option.mem_some.mp hr
      exact furthest_of (h' later rfl) (h earlier rfl)

theorem Attempt.blames_read (v : α) (rest : List Token) : (read v rest none).Blames good :=
  ⟨fun r hr => absurd hr (Option.not_mem_none r), trivial⟩

theorem Attempt.Stops.andThen {a : Attempt α} {k : α → List Token → Attempt β} (hy : a.Yields P)
    (ha : a.Stops good) (hk : ∀ v rest, P v rest → (k v rest).Stops good) :
    (a.andThen k).Stops good := by
  cases a with
  | refused r => trivial
  | read v rest stopped =>
    have h := hk v rest hy
    cases hn : k v rest with
    | refused r =>
      simp only [Attempt.andThen, hn]
      trivial
    | read w left stopped' =>
      rw [hn] at h
      simp only [Attempt.andThen, hn]
      exact mergeStops_of ha h

theorem Attempt.Refuses.andThen {a : Attempt α} {k : α → List Token → Attempt β}
    (hy : a.Yields P) (ha : a.Blames good) (hk : ∀ v rest, P v rest → (k v rest).Refuses good) :
    (a.andThen k).Refuses good := by
  obtain ⟨hs, hr⟩ := ha
  cases a with
  | refused r => exact hr
  | read v rest stopped =>
    have h := hk v rest hy
    cases hn : k v rest with
    | read w left stopped' =>
      simp only [Attempt.andThen, hn]
      trivial
    | refused r =>
      rw [hn] at h
      cases stopped with
      | none =>
        simp only [Attempt.andThen, hn]
        exact h
      | some earlier =>
        simp only [Attempt.andThen, hn]
        exact furthest_of h (hs earlier rfl)

theorem Attempt.Blames.andThen {a : Attempt α} {k : α → List Token → Attempt β} (hy : a.Yields P)
    (ha : a.Blames good) (hk : ∀ v rest, P v rest → (k v rest).Blames good) :
    (a.andThen k).Blames good :=
  ⟨.andThen hy ha.stops fun v rest hv => (hk v rest hv).stops,
    .andThen hy ha fun v rest hv => (hk v rest hv).refuses⟩

theorem Attempt.Stops.map {a : Attempt α} (ha : a.Stops good) (f : α → β) :
    (a.map f).Stops good := by
  cases a with
  | refused r => trivial
  | read v rest stopped => exact ha

theorem Attempt.Blames.map {a : Attempt α} (ha : a.Blames good) (f : α → β) :
    (a.map f).Blames good := by
  obtain ⟨hs, hr⟩ := ha
  refine ⟨hs.map f, ?_⟩
  cases a with
  | refused r => exact hr
  | read v rest stopped => trivial

theorem Attempt.Blames.orElse {a b : Attempt α} (ha : a.Blames good) (hb : b.Blames good) :
    (a.orElse b).Blames good := by
  cases a with
  | read v rest stopped => exact ha
  | refused r =>
    cases b with
    | read v rest stopped => exact ⟨hb.stops, trivial⟩
    | refused s => exact ⟨trivial, furthest_of ha.refuses hb.refuses⟩

/-- What the first attempt blames when it is refused is forgotten if the second succeeds. -/
theorem Attempt.Stops.orElse_reads {a b : Attempt α} {v : α} {rest : List Token}
    (ha : a.Stops good) (hb : b.Stops good) (hr : b.Reads v rest) : (a.orElse b).Blames good := by
  obtain ⟨stopped, rfl⟩ := hr
  cases a with
  | read v rest stopped => exact ⟨ha, trivial⟩
  | refused r => exact ⟨hb, trivial⟩

end Blames

/-! ## What the readers say -/

section Readers

variable {whole front rest : List Token}

theorem readMark_stops (m : Mark) (tokens : List Token) :
    (readMark m tokens).Stops (Apt whole) := by
  cases tokens with
  | nil => trivial
  | cons t rest =>
    rw [readMark]
    split
    · exact (blames_read _ _).stops
    · trivial

theorem readMark_blames (m : Mark) (he : whole = front ++ rest) (hf : BeginsItem front) :
    (readMark m rest).Blames (Apt whole) := by
  refine ⟨readMark_stops m rest, ?_⟩
  cases rest with
  | nil => exact .unexpected he hf
  | cons t rest =>
    rw [readMark]
    split
    · trivial
    · exact .unexpected he hf

theorem readKind_stops (tokens : List Token) : (readKind tokens).Stops (Apt whole) := by
  unfold readKind
  split
  · split
    · exact (blames_read _ _).stops
    · trivial
  · trivial

/-- A name may always go on, whatever else may follow it. -/
theorem readName_stops (he : whole = front ++ rest)
    (hn : ∀ name text, IsName name text → BeginsItem (front ++ name)) :
    (readName rest).Stops (Apt whole) := by
  have hy := readName_yields rest
  unfold readName at hy ⊢
  split at hy
  · trivial
  · intro r hr
    obtain rfl := Option.mem_some.mp hr
    obtain ⟨name, hrest, h⟩ := hy
    exact .unexpected (by rw [List.append_assoc, ← hrest, he]) (hn name _ h)

theorem readName_blames (he : whole = front ++ rest) (hf : BeginsItem front)
    (hn : ∀ name text, IsName name text → BeginsItem (front ++ name)) :
    (readName rest).Blames (Apt whole) := by
  refine ⟨readName_stops he hn, ?_⟩
  unfold readName
  split
  · exact .unexpected he hf
  · trivial

theorem readName_of_not_endsName (h : ¬ EndsName rest) :
    ∃ name left, (readName rest).Reads name left := by
  unfold readName
  split
  · next hnil =>
    refine absurd (fun t ht => ?_) h
    obtain ⟨more, rfl⟩ := List.head?_eq_some_iff.mp ht
    rw [List.takeWhile_cons] at hnil
    split at hnil
    · cases hnil
    · next hfalse => exact Bool.eq_false_iff.mpr hfalse
  · exact ⟨_, _, _, rfl⟩

theorem readUntyped_of_endsName (h : EndsName rest) :
    readUntyped rest = refused (.atHead rest) := by
  rw [readUntyped, readName, (takeWhile_of_endsName h).1]
  rfl

theorem readTyped_of_endsName (h : EndsName rest) : readTyped rest = refused (.atHead rest) := by
  cases rest with
  | nil => rfl
  | cons t rest =>
    cases t with
    | mark m => rfl
    | escaped c => exact absurd (h _ rfl).symm Bool.false_ne_true
    | text word => exact absurd (h _ rfl).symm Bool.false_ne_true

section Parameters

variable {start : List Token} (hs : StartsParameter start)

include hs

/-- After `=:` a kind is needed. -/
theorem readKind_blames {name : List Token} {text : String} (h : IsName name text)
    (he : whole = start ++ (name ++ [.mark .equals, .mark .colon]) ++ rest) :
    (readKind rest).Blames (Apt whole) := by
  refine ⟨readKind_stops rest, ?_⟩
  unfold readKind
  split
  · next word rest =>
    split
    · trivial
    · next hk =>
      have hword : ∀ kind : Kind, kind.keyword ≠ word := by
        rintro kind rfl
        rw [Kind.ofKeyword?_keyword] at hk
        cases hk
      have he' : whole = start ++ (name ++ [.mark .equals, .mark .colon, .text word]) ++ rest := by
        simpa using he
      exact .unknownKind he' ⟨start, name, text, hs, h, hword, rfl⟩
  · exact .unexpected he (hs.beginsItem (beginsParameter_keyed h))

theorem readKeyed_blames (he : whole = start ++ rest) : (readKeyed rest).Blames (Apt whole) := by
  have hstart : BeginsItem start := by simpa using hs.beginsItem beginsParameter_nil
  have hname := readName_blames he hstart fun name text h => hs.beginsItem (beginsParameter_name h)
  refine .andThen (readName_yields rest) hname fun _ rest' hn => ?_
  obtain ⟨name, rfl, h⟩ := hn
  rw [← List.append_assoc] at he
  refine .andThen (readMark_yields rest' _)
    (readMark_blames _ he (hs.beginsItem (beginsParameter_name h))) fun _ rest'' hm => ?_
  subst hm
  have he' : whole = start ++ (name ++ [.mark .equals]) ++ rest'' := by simpa using he
  refine .andThen (readMark_yields rest'' _)
    (readMark_blames _ he' (hs.beginsItem (beginsParameter_equals h))) fun _ left hm => ?_
  subst hm
  exact (readKind_blames hs h (by simpa using he)).map _

theorem beginsItem_colon : BeginsItem (start ++ [.mark .colon]) := by
  have h : IsName [.text "a"] "a" := ⟨by simp, by decide, rfl⟩
  exact hs.beginsItem ⟨_, _, .untyped h⟩

/-- In a parameter with its kind in front only the name may go on. -/
theorem readTyped_stops (he : whole = start ++ .mark .colon :: rest) :
    (readTyped rest).Stops (Apt whole) := by
  refine .andThen (readKind_yields rest) (readKind_stops rest) fun kind rest' hk => .map ?_ _
  refine .andThen (readMark_yields rest' _) (readMark_stops _ _) fun _ inner hm => ?_
  subst hk hm
  have he' : whole = start ++ [.mark .colon, .text kind.keyword, .mark .openParen] ++ inner := by
    simpa using he
  have hname := readName_stops he' fun name text h => by
    rw [List.append_assoc]
    exact hs.beginsItem ⟨_, _, .typed kind h⟩
  exact .andThen (readName_yields inner) hname fun _ left _ => (readMark_stops _ left).map _

/-- Where no text follows the colon, a kind and a name are refused alike. -/
theorem readAfterColon_blames (he : whole = start ++ .mark .colon :: rest) :
    ((readTyped rest).orElse (readUntyped rest)).Blames (Apt whole) := by
  have hcolon : whole = start ++ [.mark .colon] ++ rest := by simpa using he
  by_cases hr : EndsName rest
  · have hrefused : Apt whole (.atHead rest) := .unexpected hcolon (beginsItem_colon hs)
    rw [readTyped_of_endsName hr, readUntyped_of_endsName hr]
    exact ⟨trivial, furthest_of hrefused hrefused⟩
  · obtain ⟨name, left, hread⟩ := readName_of_not_endsName hr
    have hname := readName_stops hcolon fun name text h => by
      rw [List.append_assoc]
      exact hs.beginsItem ⟨[], _, by simpa using IsQueryParameter.untyped h⟩
    exact (readTyped_stops hs he).orElse_reads (hname.map _) (hread.map _)

theorem readParameter_blames (he : whole = start ++ rest) :
    (readParameter rest).Blames (Apt whole) := by
  have hstart : BeginsItem start := by simpa using hs.beginsItem beginsParameter_nil
  refine (readKeyed_blames hs he).orElse
    (.andThen (readMark_yields rest _) (readMark_blames _ he hstart) fun _ left hm => ?_)
  subst hm
  exact readAfterColon_blames hs he

end Parameters

/-- What is in parentheses may be the front of an item for as long as it is in them. -/
theorem readParens_blames {α : Type} {Stands : List Token → α → Prop}
    {inside : List Token → Attempt α}
    (hy : ∀ inner, (inside inner).Yields (Leads Stands inner))
    (hi : ∀ inner, whole = .mark .openParen :: inner → (inside inner).Blames (Apt whole))
    (hb : ∀ front v, Stands front v → BeginsItem (.mark .openParen :: front)) :
    (readParens inside whole).Blames (Apt whole) := by
  have hnil : BeginsItem [] := StartsParameter.required.beginsItem beginsParameter_nil
  refine .andThen (readMark_yields whole _) (readMark_blames _ rfl hnil) fun _ inner ho => ?_
  refine .andThen (hy inner) (hi inner ho) fun v rest hv => .map ?_ _
  obtain ⟨front, rfl, hs⟩ := hv
  exact readMark_blames _ ho (hb front v hs)

/-- Inside parentheses a pipe and a second parameter may follow the first. -/
theorem readAlternation_blames : (readAlternation whole).Blames (Apt whole) := by
  refine readParens_blames readAlternatives_yields (fun inner ho => ?_) fun front item hi => ?_
  · refine .andThen (readParameter_yields inner) (readParameter_blames .inParens ho)
      fun first rest hf => ?_
    obtain ⟨before, rfl, hfirst⟩ := hf
    have hbefore : BeginsItem (.mark .openParen :: before) :=
      ⟨_, _, .optional hfirst⟩
    refine .andThen (readMark_yields rest _) (readMark_blames _ ho hbefore) fun _ rest' hm => ?_
    subst hm
    exact (readParameter_blames (.second hfirst) (by simpa using ho)).map _
  · exact ⟨_, _, hi⟩

theorem readOptional_blames : (readOptional whole).Blames (Apt whole) := by
  refine (readParens_blames readParameter_yields (fun inner ho => ?_) fun front p hp => ?_).map _
  · exact readParameter_blames .inParens ho
  · exact ⟨_, _, .optional hp⟩

theorem readRequired_blames : (readRequired whole).Blames (Apt whole) :=
  (readParameter_blames .required rfl).map _

end Readers

/-! ## Items -/

/-- Reading an item and then nothing more. -/
def readWholeItem (tokens : List Token) : Attempt QueryItem :=
  (((readAlternation tokens).orElse (readOptional tokens)).orElse (readRequired tokens)).andThen
    fun value rest => (readEnd rest).map fun _ => value

/-- **Where reading an item gives up.** All that is said about it is apt. -/
theorem readWholeItem_blames (tokens : List Token) :
    (readWholeItem tokens).Blames (Apt tokens) := by
  have hy := ((readAlternation_yields tokens).orElse (readOptional_yields tokens)).orElse
    (readRequired_yields tokens)
  refine .andThen hy
    ((readAlternation_blames.orElse readOptional_blames).orElse readRequired_blames)
    fun item rest hi => .map ?_ _
  obtain ⟨front, he, hitem⟩ := hi
  cases rest with
  | nil => exact blames_read _ _
  | cons t rest => exact ⟨trivial, .unexpected he ⟨[], item, by simpa using hitem⟩⟩

/-- An item is refused for what its whole reading is refused for. -/
theorem exists_refusal_of_readItem {tokens : List Token} {fault : ItemFault}
    (h : readItem tokens = .error fault) :
    ∃ r, readWholeItem tokens = refused r ∧ Apt tokens r ∧ r.fault = fault := by
  have hblames := (readWholeItem_blames tokens).refuses
  simp only [readItem] at h
  split at h
  · cases h
  · next r hr =>
    have hwhole : readWholeItem tokens = refused r := hr
    rw [hwhole] at hblames
    exact ⟨r, hwhole, hblames, Except.error.inj h⟩

end DeepLink.Template
