import DeepLink.Proofs.Template.Canonical

/-!
# The grammar of query items

`IsItem` says which item tokens stand for, and says nothing of choices that are tried in order. A
parameter is written in three ways, and an item has one parameter, one in parentheses, or two with a
pipe between them in parentheses.

The tokens of an item whose parameters have names stand for it (`isItem_tokens`).
-/

namespace DeepLink.Template

/-- One or more tokens that stand for text, and together for the name. -/
structure IsName (tokens : List Token) (name : String) : Prop where
  ne_nil : tokens ≠ []
  isText : ∀ t ∈ tokens, t.isText = true
  joined : joinLiterals tokens = name

/-- The tokens stand for the parameter: `name=:kind`, `:kind(name)` or `:name`. -/
inductive IsQueryParameter : List Token → Parameter → Prop
  | keyed {tokens : List Token} {name : String} (h : IsName tokens name) (kind : Kind) :
    IsQueryParameter (tokens ++ [.mark .equals, .mark .colon, .text kind.keyword])
      (.typed kind name)
  | typed (kind : Kind) {tokens : List Token} {name : String} (h : IsName tokens name) :
    IsQueryParameter
      (.mark .colon :: .text kind.keyword :: .mark .openParen :: (tokens ++ [.mark .closeParen]))
      (.typed kind name)
  | untyped {tokens : List Token} {name : String} (h : IsName tokens name) :
    IsQueryParameter (.mark .colon :: tokens) (.untyped name)

/-- The tokens stand for the item. -/
inductive IsItem : List Token → QueryItem → Prop
  | required {tokens : List Token} {p : Parameter} (h : IsQueryParameter tokens p) :
    IsItem tokens (.required p)
  | optional {tokens : List Token} {p : Parameter} (h : IsQueryParameter tokens p) :
    IsItem (.mark .openParen :: (tokens ++ [.mark .closeParen])) (.optional p)
  | alternation {before after : List Token} {first second : Parameter}
    (hf : IsQueryParameter before first) (hs : IsQueryParameter after second) :
    IsItem (.mark .openParen :: ((before ++ .mark .pipe :: after) ++ [.mark .closeParen]))
      (.alternation first second)

theorem isName_spell {name : String} (h : name ≠ "") : IsName (spell name) name :=
  ⟨spell_ne_nil h, fun _ ht => isText_of_mem_spell ht, joinLiterals_spell name⟩

theorem isQueryParameter_queryTokens {p : Parameter} (h : p.name ≠ "") :
    IsQueryParameter p.queryTokens p := by
  obtain ⟨name, kind?⟩ := p
  cases kind? with
  | none => exact .untyped (isName_spell h)
  | some kind => exact .keyed (isName_spell h) kind

theorem isItem_tokens {item : QueryItem} (h : ∀ p ∈ item.parameters, p.name ≠ "") :
    IsItem item.tokens item := by
  cases item with
  | required p => exact .required (isQueryParameter_queryTokens (h p List.mem_cons_self))
  | optional p => exact .optional (isQueryParameter_queryTokens (h p List.mem_cons_self))
  | alternation first second =>
    exact .alternation (isQueryParameter_queryTokens (h first List.mem_cons_self))
      (isQueryParameter_queryTokens (h second (List.mem_cons_of_mem _ List.mem_cons_self)))

/-- A name starts with text. -/
theorem IsName.head_ne_mark {tokens : List Token} {name : String} (h : IsName tokens name)
    (m : Mark) (rest : List Token) : (tokens ++ rest).head? ≠ some (.mark m) := by
  obtain ⟨hne, ht, -⟩ := h
  cases tokens with
  | nil => exact absurd rfl hne
  | cons t tokens =>
    rintro he
    obtain rfl := Option.some.inj he
    exact Bool.false_ne_true (ht _ List.mem_cons_self)

/-- No parameter starts with a parenthesis. -/
theorem IsQueryParameter.head_ne_openParen {tokens : List Token} {p : Parameter}
    (h : IsQueryParameter tokens p) (rest : List Token) :
    (tokens ++ rest).head? ≠ some (.mark .openParen) := by
  cases h with
  | keyed h kind =>
    rw [List.append_assoc]
    exact h.head_ne_mark .openParen _
  | typed kind h => simp
  | untyped h => simp

end DeepLink.Template
