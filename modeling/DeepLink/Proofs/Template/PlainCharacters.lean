import DeepLink.Proofs.Template.Expressibility
import DeepLink.Proofs.Template.Tiling

/-!
# Plain characters of a template

Reading a template and printing what was read moves names and kinds about, drops empty components
and adds parentheses, but it neither adds nor loses a character that needs no escape
(`count_text_of_ofTemplate?`). The count is taken on the literals of tokens, `plainCount`: a plain
character counts the same in the source of a token, and structure holds none.
-/

namespace DeepLink

/-- How often a character occurs in what the tokens stand for. -/
def plainCount (c : Char) (tokens : List Token) : Nat := (joinLiterals tokens).toList.count c

section PlainCharacters

variable {c : Char} (hc : isReserved c = false)

/-! ## Counting on tokens -/

theorem plainCount_nil (c : Char) : plainCount c [] = 0 := rfl

theorem plainCount_append (c : Char) (a b : List Token) :
    plainCount c (a ++ b) = plainCount c a + plainCount c b := by
  simp [plainCount]

theorem plainCount_cons (c : Char) (t : Token) (rest : List Token) :
    plainCount c (t :: rest) = t.literal.toList.count c + plainCount c rest := by
  simp [plainCount, joinLiterals]

theorem plainCount_spell (c : Char) (tokens : List Token) :
    plainCount c (spell (joinLiterals tokens)) = plainCount c tokens := by
  rw [plainCount, joinLiterals_spell, plainCount]

include hc

theorem char_ne_plain (m : Mark) : m.char ≠ c := by
  rintro rfl
  cases m <;> exact absurd hc (by decide)

theorem plainCount_mark (m : Mark) (rest : List Token) :
    plainCount c (.mark m :: rest) = plainCount c rest := by
  simp [plainCount_cons, Token.literal, char_ne_plain hc]

theorem plainCount_close (a : List Token) (m : Mark) :
    plainCount c (a ++ [.mark m]) = plainCount c a := by
  rw [plainCount_append, plainCount_mark hc, plainCount_nil, Nat.add_zero]

/-- Escaping adds backslashes only. -/
theorem count_source (t : Token) : t.source.toList.count c = t.literal.toList.count c := by
  have hb : '\\' ≠ c := (ne_backslash_of_not_reserved hc).symm
  cases t with
  | mark m => rfl
  | escaped d => simp [Token.source, Token.literal, hb]
  | text s => rfl

theorem count_joinSources (tokens : List Token) :
    (joinSources tokens).toList.count c = plainCount c tokens := by
  induction tokens with
  | nil => rfl
  | cons t rest ih =>
    rw [joinSources, String.toList_append, List.count_append, ih, count_source hc, plainCount_cons]

/-! ## Counting on what the tokens stand for -/

theorem plainCount_pathTokens_cons (node : PathNode) (rest : List PathNode) :
    plainCount c (pathTokens (node :: rest)) =
      plainCount c node.tokens + plainCount c (pathTokens rest) := by
  cases rest with
  | nil => rw [pathTokens, pathTokens, plainCount_nil, Nat.add_zero]
  | cons next rest => rw [pathTokens, plainCount_append, plainCount_mark hc]

theorem plainCount_pathTokens_append (a b : List PathNode) :
    plainCount c (pathTokens (a ++ b)) =
      plainCount c (pathTokens a) + plainCount c (pathTokens b) := by
  induction a with
  | nil => rw [List.nil_append, pathTokens, plainCount_nil, Nat.zero_add]
  | cons node a ih =>
    rw [List.cons_append, plainCount_pathTokens_cons hc, plainCount_pathTokens_cons hc, ih,
      Nat.add_assoc]

theorem plainCount_itemsTokens_cons (item : QueryItem) (rest : List QueryItem) :
    plainCount c (itemsTokens (item :: rest)) =
      plainCount c item.tokens + plainCount c (itemsTokens rest) := by
  cases rest with
  | nil => rw [itemsTokens, itemsTokens, plainCount_nil, Nat.add_zero]
  | cons next rest => rw [itemsTokens, plainCount_append, plainCount_mark hc]

theorem plainCount_parens (a : List Token) :
    plainCount c (.mark .openParen :: (a ++ [.mark .closeParen])) = plainCount c a := by
  rw [plainCount_mark hc, plainCount_close hc]

theorem plainCount_between (m : Mark) (a b : List Token) :
    plainCount c (a ++ .mark m :: b) = plainCount c a + plainCount c b := by
  rw [plainCount_append, plainCount_mark hc]

theorem plainCount_tokens (r : Route) :
    plainCount c r.tokens =
      plainCount c (pathTokens r.path) + plainCount c (itemsTokens r.query) := by
  unfold Route.tokens
  cases r.query with
  | nil => rw [itemsTokens, plainCount_nil, Nat.add_zero]
  | cons item rest => exact plainCount_between hc .question _ _

end PlainCharacters

variable {c : Char}

namespace Template

theorem plainCount_of_isParameter (hc : isReserved c = false) {tokens : List Token} {p : Parameter}
    (h : IsParameter tokens p) : plainCount c p.pathTokens = plainCount c tokens := by
  cases h with
  | @typed kind name hn =>
    rw [Parameter.pathTokens_typed, plainCount_mark hc, plainCount_cons,
      plainCount_cons c (.text kind.keyword), plainCount_parens hc, plainCount_parens hc,
      plainCount_spell]
  | untyped _ =>
    rw [Parameter.pathTokens_untyped, plainCount_mark hc, plainCount_spell]

mutual

theorem plainCount_of_isPath (hc : isReserved c = false) : {tokens : List Token} →
    {nodes : List PathNode} → IsPath tokens nodes →
      plainCount c (pathTokens nodes) = plainCount c tokens
  | _, _, .last _ hv => plainCount_of_isComponent hc hv
  | _, _, .slash _ hv hr => by
    rw [plainCount_pathTokens_append hc, plainCount_between hc, plainCount_of_isComponent hc hv,
      plainCount_of_isPath hc hr]

theorem plainCount_of_isComponent (hc : isReserved c = false) : {tokens : List Token} →
    {value : List PathNode} → IsComponent tokens value →
      plainCount c (pathTokens value) = plainCount c tokens
  | _, _, .empty => rfl
  | _, _, .wildcard => rfl
  | _, _, .parameter h => by
    rw [pathTokens, PathNode.tokens, plainCount_of_isParameter hc h, plainCount_mark hc]
  | _, _, .bare _ h => plainCount_of_isAlternation hc h
  | _, _, .wrapped _ h => by
    rw [plainCount_parens hc]
    exact plainCount_of_isAlternation hc h
  | _, _, .optional _ h _ => by
    rw [pathTokens, PathNode.tokens, plainCount_parens hc, plainCount_parens hc,
      plainCount_of_isPath hc h]
  | tokens, _, .literal _ _ _ _ _ => by
    rw [pathTokens, PathNode.tokens, plainCount_spell]

theorem plainCount_of_isAlternation (hc : isReserved c = false) : {tokens : List Token} →
    {node : PathNode} → IsAlternation tokens node →
      plainCount c node.tokens = plainCount c tokens
  | _, _, .branches _ hl _ hr _ => by
    rw [PathNode.tokens, plainCount_parens hc, plainCount_between hc, plainCount_between hc,
      plainCount_of_isPath hc hl, plainCount_of_isBranch hc hr]

theorem plainCount_of_isBranch (hc : isReserved c = false) : {tokens : List Token} →
    {nodes : List PathNode} → IsBranch tokens nodes →
      plainCount c (pathTokens nodes) = plainCount c tokens
  | _, _, .path _ h => plainCount_of_isPath hc h
  | _, _, .alternation h => plainCount_of_isAlternation hc h

end

theorem plainCount_of_isQueryParameter (hc : isReserved c = false) {tokens : List Token}
    {p : Parameter} (h : IsQueryParameter tokens p) :
    plainCount c p.queryTokens = plainCount c tokens := by
  cases h with
  | @keyed tokens name h kind =>
    obtain ⟨-, -, rfl⟩ := h
    rw [Parameter.queryTokens_typed, plainCount_append, plainCount_spell, ← plainCount_append]
  | @typed kind tokens name h =>
    obtain ⟨-, -, rfl⟩ := h
    rw [Parameter.queryTokens_typed, plainCount_append, plainCount_spell, plainCount_mark hc,
      plainCount_mark hc, plainCount_mark hc, plainCount_cons c _ (.mark .openParen :: _),
      plainCount_parens hc, plainCount_cons, plainCount_nil, Nat.add_zero, Nat.add_comm]
  | @untyped tokens name h =>
    obtain ⟨-, -, rfl⟩ := h
    rw [Parameter.queryTokens_untyped, plainCount_mark hc, plainCount_spell, plainCount_mark hc]

theorem plainCount_of_isItem (hc : isReserved c = false) {tokens : List Token} {item : QueryItem}
    (h : IsItem tokens item) :
    plainCount c item.tokens = plainCount c tokens := by
  cases h with
  | required h => exact plainCount_of_isQueryParameter hc h
  | optional h =>
    rw [QueryItem.tokens, plainCount_parens hc, plainCount_parens hc,
      plainCount_of_isQueryParameter hc h]
  | alternation hf hs =>
    rw [QueryItem.tokens, plainCount_parens hc, plainCount_parens hc, plainCount_between hc,
      plainCount_between hc, plainCount_of_isQueryParameter hc hf,
      plainCount_of_isQueryParameter hc hs]

/-! ## Counting on parts -/

theorem plainCount_flatten_pushToken (c : Char) (t : Token) (parts : List (List Token)) :
    plainCount c (pushToken t parts).flatten =
      t.literal.toList.count c + plainCount c parts.flatten := by
  cases parts with
  | nil => exact plainCount_cons c t []
  | cons part parts => exact plainCount_cons c t (part ++ parts.flatten)

/-- Splitting drops marks only. -/
theorem plainCount_flatten_splitFrom (hc : isReserved c = false) (m : Mark) (d : Nat)
    (tokens : List Token) :
    plainCount c (splitFrom (.mark m) d tokens).flatten = plainCount c tokens := by
  induction tokens generalizing d with
  | nil => rfl
  | cons t rest ih =>
    rw [splitFrom]
    split
    · next h => rw [List.flatten_cons, List.nil_append, ih, h.2, plainCount_mark hc]
    · rw [plainCount_flatten_pushToken, ih, plainCount_cons]

theorem plainCount_of_readItems (hc : isReserved c = false) {offset : Nat}
    {parts : List (List Token)} {items : List QueryItem} (h : readItems offset parts = .ok items) :
    plainCount c (itemsTokens items) = plainCount c parts.flatten := by
  induction parts generalizing offset items with
  | nil =>
    cases h
    rfl
  | cons part parts ih =>
    rw [readItems] at h
    split at h
    · cases h
    · split at h
      · cases h
      · next item he =>
        obtain ⟨more, hmore, rfl⟩ := map_eq_ok.mp h
        rw [plainCount_itemsTokens_cons hc, plainCount_of_isItem hc (isItem_of_readItem he),
          ih hmore, List.flatten_cons, plainCount_append]

theorem plainCount_of_readQuery (hc : isReserved c = false) {offset : Nat} {tokens : List Token}
    {items : List QueryItem} (h : readQuery offset tokens = .ok items) :
    plainCount c (itemsTokens items) = plainCount c tokens := by
  unfold readQuery at h
  split at h
  · cases h
    rfl
  · rw [plainCount_of_readItems hc h]
    exact plainCount_flatten_splitFrom hc .ampersand 0 tokens

theorem plainCount_cutQuery (hc : isReserved c = false) (tokens : List Token) :
    plainCount c (cutQuery tokens).1 + plainCount c ((cutQuery tokens).2.getD []) =
      plainCount c tokens := by
  induction tokens with
  | nil => rfl
  | cons t rest ih =>
    rw [cutQuery]
    split
    · next h => rw [h, plainCount_nil, Nat.zero_add, plainCount_mark hc, Option.getD_some]
    · rw [plainCount_cons, plainCount_cons, Nat.add_assoc, ih]

end Template

/-! ## Templates -/

/-- **Plain characters of a template.** The canonical text of a template holds a character that
needs no escape exactly as often as the template does. -/
theorem count_text_of_ofTemplate? {template : String} {r : Route}
    (h : Route.ofTemplate? template = .ok r) (hc : isReserved c = false) :
    r.text.toList.count c = template.toList.count c := by
  obtain ⟨tokens, ht, hn, hi⟩ := exists_readPath_of_ofTemplate? h
  obtain ⟨tokens', ht', hr⟩ := exists_of_ofTemplate? h
  obtain rfl : tokens = tokens' := Except.ok.inj (ht.symm.trans ht')
  obtain ⟨_, _, hb, -⟩ := Template.exists_of_readTokens hr
  rw [← joinSources_of_ofTemplate? ht, ← joinSources_of_ofTemplate? (ofTemplate?_text r),
    count_joinSources hc, count_joinSources hc, plainCount_tokens hc,
    Template.plainCount_of_isPath hc (Template.isPath_of_readPath hb hn),
    Template.plainCount_of_readQuery hc hi, Template.plainCount_cutQuery hc]

end DeepLink
