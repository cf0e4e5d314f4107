import DeepLink.Proofs.Outcome
import DeepLink.Proofs.Template.ItemAcceptance
import DeepLink.Template

/-!
# Query parameters have names

A template gives no query parameter without a name (`name_ne_empty_of_ofTemplate?`): no token of a
template stands for the empty text (`Solid`), and a name in a query item stands for at least one of
them.
-/

namespace DeepLink

/-! ## Tokens that stand for something -/

/-- Every token stands for a text that is not empty. -/
def Solid (tokens : List Token) : Prop := ∀ t ∈ tokens, t.literal ≠ ""

theorem Solid.tail {t : Token} {rest : List Token} (h : Solid (t :: rest)) : Solid rest :=
  fun u hu => h u (List.mem_cons_of_mem _ hu)

theorem Solid.of_subset {a b : List Token} (hb : Solid b) (h : ∀ t ∈ a, t ∈ b) : Solid a :=
  fun t ht => hb t (h t ht)

theorem Solid.before {a b : List Token} {t : Token} (h : Solid (a ++ t :: b)) : Solid a :=
  h.of_subset fun _ hu => List.mem_append_left _ hu

theorem Solid.after {a b : List Token} {t : Token} (h : Solid (a ++ t :: b)) : Solid b :=
  h.of_subset fun _ hu => List.mem_append_right _ (List.mem_cons_of_mem _ hu)

theorem Solid.inside {inner : List Token} {t u : Token} (h : Solid (t :: (inner ++ [u]))) :
    Solid inner := h.tail.before

theorem singleton_append_ne_empty (c : Char) (s : String) : String.singleton c ++ s ≠ "" := by
  intro h
  have hl := congrArg String.toList h
  simp at hl

theorem singleton_ne_empty (c : Char) : String.singleton c ≠ "" := by
  intro h
  have hl := congrArg String.toList h
  simp at hl

/-- A token that lexing finds stands for something. -/
def Lexeme.IsSolid : Lexeme → Prop
  | .token t => t.literal ≠ ""
  | .stray => True

theorem isSolid_pushPlain (c : Char) {ls : List Lexeme} (h : ∀ l ∈ ls, l.IsSolid) :
    ∀ l ∈ Lexeme.pushPlain c ls, l.IsSolid := by
  unfold Lexeme.pushPlain
  split
  · exact List.forall_mem_cons.mpr
      ⟨singleton_append_ne_empty c _, (List.forall_mem_cons.mp h).2⟩
  · exact List.forall_mem_cons.mpr ⟨singleton_ne_empty c, h⟩

theorem isSolid_lexemes (cs : List Char) : ∀ l ∈ lexemes cs, l.IsSolid := by
  induction cs using lexemes_induction with
  | nil => simp [lexemes]
  | last => exact List.forall_mem_cons.mpr ⟨trivial, by simp⟩
  | newline rest ih =>
    rw [lexemes_newline]
    exact List.forall_mem_cons.mpr ⟨trivial, isSolid_pushPlain '\n' ih⟩
  | escaped c rest hc ih =>
    rw [lexemes_escaped hc]
    exact List.forall_mem_cons.mpr ⟨singleton_ne_empty c, ih⟩
  | mark m rest ih =>
    rw [lexemes_mark]
    exact List.forall_mem_cons.mpr ⟨singleton_ne_empty m.char, ih⟩
  | plain c rest hc ih =>
    rw [lexemes_plain hc]
    exact isSolid_pushPlain c ih

theorem solid_of_ofLexemes? {offset : Nat} {ls : List Lexeme} {tokens : List Token}
    (hl : ∀ l ∈ ls, l.IsSolid) (h : Token.ofLexemes? offset ls = .ok tokens) : Solid tokens := by
  induction ls generalizing offset tokens with
  | nil =>
    cases h
    exact fun _ ht => absurd ht List.not_mem_nil
  | cons l ls ih =>
    cases l with
    | stray => cases h
    | token t =>
      rw [Token.ofLexemes?] at h
      obtain ⟨more, hmore, rfl⟩ := map_eq_ok.mp h
      obtain ⟨ht, hls⟩ := List.forall_mem_cons.mp hl
      exact List.forall_mem_cons.mpr ⟨ht, ih hls hmore⟩

/-- The tokens of a template are solid. -/
theorem solid_of_ofTemplate? {template : String} {tokens : List Token}
    (h : Token.ofTemplate? template = .ok tokens) : Solid tokens :=
  solid_of_ofLexemes? (isSolid_lexemes template.toList) h

/-! ## Items of solid tokens -/

theorem joinLiterals_ne_empty {tokens : List Token} (hs : Solid tokens) (hne : tokens ≠ []) :
    joinLiterals tokens ≠ "" := by
  cases tokens with
  | nil => exact absurd rfl hne
  | cons t rest =>
    intro he
    exact hs t List.mem_cons_self (String.append_eq_empty_iff.mp he).1

namespace Template

theorem IsName.ne_empty {tokens : List Token} {name : String} (h : IsName tokens name)
    (hs : Solid tokens) : name ≠ "" := by
  obtain ⟨hne, -, rfl⟩ := h
  exact joinLiterals_ne_empty hs hne

theorem IsQueryParameter.name_ne_empty {tokens : List Token} {p : Parameter}
    (h : IsQueryParameter tokens p) (hs : Solid tokens) : p.name ≠ "" := by
  cases h with
  | keyed h kind => exact h.ne_empty hs.before
  | typed kind h => exact h.ne_empty hs.tail.tail.inside
  | untyped h => exact h.ne_empty hs.tail

theorem IsItem.name_ne_empty {tokens : List Token} {item : QueryItem} (h : IsItem tokens item)
    (hs : Solid tokens) : ∀ p ∈ item.parameters, p.name ≠ "" := by
  cases h with
  | required h => exact List.forall_mem_singleton.mpr (h.name_ne_empty hs)
  | optional h => exact List.forall_mem_singleton.mpr (h.name_ne_empty hs.inside)
  | alternation hf hsec =>
    exact List.forall_mem_cons.mpr ⟨hf.name_ne_empty hs.inside.before,
      List.forall_mem_singleton.mpr (hsec.name_ne_empty hs.inside.after)⟩

/-- The parameters of an item that is read have names. -/
theorem name_ne_empty_of_readItem {tokens : List Token} (h : Solid tokens) {item : QueryItem}
    (hi : readItem tokens = .ok item) : ∀ p ∈ item.parameters, p.name ≠ "" :=
  (isItem_of_readItem hi).name_ne_empty h

/-! ## From an item to the query -/

theorem mem_of_mem_pushToken {u : Token} {parts : List (List Token)} {tokens part : List Token}
    (h : ∀ q ∈ parts, ∀ t ∈ q, t ∈ tokens) (hp : part ∈ pushToken u parts) :
    ∀ t ∈ part, t ∈ u :: tokens := by
  cases parts with
  | nil =>
    obtain rfl := List.mem_singleton.mp hp
    intro t ht
    obtain rfl := List.mem_singleton.mp ht
    exact List.mem_cons_self
  | cons q parts =>
    rcases List.mem_cons.mp hp with rfl | hp
    · intro t ht
      rcases List.mem_cons.mp ht with rfl | ht
      · exact List.mem_cons_self
      · exact List.mem_cons_of_mem _ (h q List.mem_cons_self t ht)
    · exact fun t ht => List.mem_cons_of_mem _ (h part (List.mem_cons_of_mem _ hp) t ht)

theorem mem_of_mem_splitFrom {delimiter : Token} {d : Nat} {tokens part : List Token}
    (hp : part ∈ splitFrom delimiter d tokens) : ∀ t ∈ part, t ∈ tokens := by
  induction tokens generalizing d part with
  | nil =>
    obtain rfl := List.mem_singleton.mp hp
    exact fun t ht => ht
  | cons u rest ih =>
    rw [splitFrom] at hp
    split at hp
    · rcases List.mem_cons.mp hp with rfl | hp
      · exact fun t ht => absurd ht List.not_mem_nil
      · exact fun t ht => List.mem_cons_of_mem _ (ih hp t ht)
    · exact mem_of_mem_pushToken (fun q hq => ih hq) hp

theorem name_ne_empty_of_readItems {offset : Nat} {parts : List (List Token)}
    {items : List QueryItem} (hs : ∀ part ∈ parts, Solid part)
    (hr : readItems offset parts = .ok items) :
    ∀ item ∈ items, ∀ p ∈ item.parameters, p.name ≠ "" := by
  induction parts generalizing offset items with
  | nil =>
    cases hr
    exact fun _ hi => absurd hi List.not_mem_nil
  | cons part parts ih =>
    obtain ⟨hpart, hparts⟩ := List.forall_mem_cons.mp hs
    rw [readItems] at hr
    split at hr
    · cases hr
    · split at hr
      · cases hr
      · next item he =>
        obtain ⟨more, hmore, rfl⟩ := map_eq_ok.mp hr
        exact List.forall_mem_cons.mpr ⟨name_ne_empty_of_readItem hpart he, ih hparts hmore⟩

theorem name_ne_empty_of_readQuery {offset : Nat} {tokens : List Token} {items : List QueryItem}
    (hs : Solid tokens) (hr : readQuery offset tokens = .ok items) :
    ∀ item ∈ items, ∀ p ∈ item.parameters, p.name ≠ "" := by
  unfold readQuery at hr
  split at hr
  · cases hr
    exact fun _ hi => absurd hi List.not_mem_nil
  · exact name_ne_empty_of_readItems
      (fun part hp => hs.of_subset (mem_of_mem_splitFrom hp)) hr

/-- The tokens of the path and those of the query are tokens of the template. -/
theorem mem_of_mem_cutQuery (tokens : List Token) :
    (∀ t ∈ (cutQuery tokens).1, t ∈ tokens) ∧ ∀ t ∈ (cutQuery tokens).2.getD [], t ∈ tokens := by
  induction tokens with
  | nil => exact ⟨fun t ht => ht, fun t ht => ht⟩
  | cons u rest ih =>
    obtain ⟨hpath, hquery⟩ := ih
    rw [cutQuery]
    split
    · exact ⟨fun t ht => absurd ht List.not_mem_nil, fun t ht => List.mem_cons_of_mem _ ht⟩
    · refine ⟨fun t ht => ?_, fun t ht => List.mem_cons_of_mem _ (hquery t ht)⟩
      rcases List.mem_cons.mp ht with rfl | ht
      · exact List.mem_cons_self
      · exact List.mem_cons_of_mem _ (hpath t ht)

theorem balanced_of_checkParens {offset : Nat} {tokens : List Token}
    (h : checkParens offset tokens = .ok ()) : Balanced tokens := by
  unfold checkParens at h
  cases hc : checkGroups offset tokens with
  | error fault =>
    rw [hc] at h
    cases h
  | ok _ => exact balanced_of_checkGroups hc

/-- What a template is read as: the route of the nodes of its path, whose parentheses pair up, and
of the items of its query. -/
theorem exists_of_readTokens {tokens : List Token} {r : Route} (h : readTokens tokens = .ok r) :
    ∃ nodes items, Balanced (cutQuery tokens).1 ∧ readPath (cutQuery tokens).1 = .ok nodes ∧
      readQuery (queryOffset (cutQuery tokens).1) ((cutQuery tokens).2.getD []) = .ok items ∧
      r = Route.of nodes items := by
  unfold readTokens at h
  obtain ⟨_, hb, h⟩ := bind_eq_ok.mp h
  obtain ⟨_, _, h⟩ := bind_eq_ok.mp h
  obtain ⟨nodes, hn, h⟩ := bind_eq_ok.mp h
  obtain ⟨items, hi, h⟩ := bind_eq_ok.mp h
  exact ⟨nodes, items, balanced_of_checkParens hb, hn, hi, (Except.ok.inj h).symm⟩

end Template

theorem exists_of_ofTemplate? {template : String} {r : Route}
    (h : Route.ofTemplate? template = .ok r) :
    ∃ tokens, Token.ofTemplate? template = .ok tokens ∧ Template.readTokens tokens = .ok r := by
  unfold Route.ofTemplate? at h
  split at h
  · cases h
  · next tokens ht => exact ⟨tokens, ht, h⟩

/-- The parameters that a template puts into a query have names. -/
theorem name_ne_empty_of_ofTemplate? {template : String} {r : Route}
    (h : Route.ofTemplate? template = .ok r) :
    ∀ item ∈ r.query, ∀ p ∈ item.parameters, p.name ≠ "" := by
  obtain ⟨tokens, ht, hr⟩ := exists_of_ofTemplate? h
  obtain ⟨nodes, items, -, -, hi, rfl⟩ := Template.exists_of_readTokens hr
  have hs : Solid ((Template.cutQuery tokens).2.getD []) :=
    (solid_of_ofTemplate? ht).of_subset (Template.mem_of_mem_cutQuery tokens).2
  exact Template.name_ne_empty_of_readQuery hs hi

end DeepLink
