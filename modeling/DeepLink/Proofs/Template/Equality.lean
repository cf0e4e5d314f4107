import DeepLink.Matching
import DeepLink.Proofs.Template.RoundTrip
import DeepLink.Rendering

/-!
# Canonical texts tell routes apart

Lexing finds the tokens of a route in its canonical text, so routes with the same text have the same
tokens. The tokens of nodes are read back as the nodes (`pathTokens_inj`). Items need not be
readable, since a parameter without a name has no template; what sets their tokens apart is said for
each part: the first token of a parameter tells whether it has a kind, parentheses and pipes tell
the sorts of items, and ampersands stand between items only (`itemsTokens_inj`).
-/

namespace DeepLink

/-! ## Names and kinds -/

theorem spell_inj {s t : String} (h : spell s = spell t) : s = t := by
  have hj := congrArg joinLiterals h
  rwa [joinLiterals_spell, joinLiterals_spell] at hj

theorem Kind.keyword_inj {j k : Kind} (h : j.keyword = k.keyword) : j = k := by
  have ho := congrArg ofKeyword? h
  rwa [ofKeyword?_keyword, ofKeyword?_keyword, Option.some.injEq] at ho

/-! ## Parameters of a query -/

/-- Only a parameter without a kind starts with a colon. -/
theorem head?_queryTokens_eq_colon (p : Parameter) :
    p.queryTokens.head? = some (.mark .colon) ↔ p.kind? = none := by
  obtain ⟨name, kind?⟩ := p
  cases kind? with
  | none => simp [Parameter.queryTokens]
  | some kind =>
    have hs : ∀ t ∈ spell name, t.isText = true := fun t ht => isText_of_mem_spell ht
    cases he : spell name with
    | nil => simp [Parameter.queryTokens, he]
    | cons t rest =>
      have ht : t ≠ .mark .colon := by
        rintro rfl
        exact Bool.false_ne_true (hs (.mark .colon) (he ▸ List.mem_cons_self))
      simp [Parameter.queryTokens, he, ht]

theorem head?_queryTokens_ne_openParen (p : Parameter) :
    p.queryTokens.head? ≠ some (.mark .openParen) := by
  obtain ⟨name, kind?⟩ := p
  cases kind? with
  | none => simp [Parameter.queryTokens]
  | some kind =>
    have hs : ∀ t ∈ spell name, t.isText = true := fun t ht => isText_of_mem_spell ht
    cases he : spell name with
    | nil => simp [Parameter.queryTokens, he]
    | cons t rest =>
      have ht : t ≠ .mark .openParen := by
        rintro rfl
        exact Bool.false_ne_true (hs (.mark .openParen) (he ▸ List.mem_cons_self))
      simp [Parameter.queryTokens, he, ht]

theorem Parameter.queryTokens_inj {p q : Parameter} (h : p.queryTokens = q.queryTokens) :
    p = q := by
  have hkind : p.kind? = none ↔ q.kind? = none := by
    rw [← head?_queryTokens_eq_colon, ← head?_queryTokens_eq_colon, h]
  obtain ⟨name, kind?⟩ := p
  obtain ⟨name', kind?'⟩ := q
  cases kind? with
  | none =>
    obtain rfl : kind?' = none := hkind.mp rfl
    obtain rfl := spell_inj (List.cons.inj h).2
    rfl
  | some kind =>
    cases kind?' with
    | none => exact absurd (hkind.mpr rfl) (by simp)
    | some kind' =>
      obtain ⟨hname, hrest⟩ := List.append_inj' h rfl
      obtain rfl := spell_inj hname
      obtain rfl : kind = kind' := Kind.keyword_inj (by simpa using hrest)
      rfl

/-! ## Items -/

theorem parens_inj {a b : List Token}
    (h : Token.mark .openParen :: (a ++ [.mark .closeParen]) =
      .mark .openParen :: (b ++ [.mark .closeParen])) : a = b :=
  List.append_cancel_right (List.cons.inj h).2

theorem cutOutside_alternatives (first second : Parameter) :
    cutOutside (.mark .pipe) (first.queryTokens ++ .mark .pipe :: second.queryTokens) =
      some (first.queryTokens, second.queryTokens) :=
  cutOutside_append_mark (sealed_pipe_queryTokens first) second.queryTokens

theorem QueryItem.tokens_inj {a b : QueryItem} (h : a.tokens = b.tokens) : a = b := by
  -- A required parameter has no parentheses around it, and of the others only an alternation has a
  -- pipe inside them.
  have hparen : ∀ (p : Parameter) (rest : List Token),
      p.queryTokens ≠ .mark .openParen :: rest := fun p rest he => by
    have hhead := head?_queryTokens_ne_openParen p
    rw [he] at hhead
    exact hhead rfl
  have hpipe : ∀ p first second : Parameter,
      p.queryTokens ≠ first.queryTokens ++ .mark .pipe :: second.queryTokens :=
    fun p first second he => by
      have hcut := cutOutside_alternatives first second
      rw [← he, (sealed_pipe_queryTokens p).notCut] at hcut
      cases hcut
  cases a with
  | required p =>
    cases b with
    | required q => rw [Parameter.queryTokens_inj h]
    | optional q => exact absurd h (hparen p _)
    | alternation first second => exact absurd h (hparen p _)
  | optional p =>
    cases b with
    | required q => exact absurd h.symm (hparen q _)
    | optional q => rw [Parameter.queryTokens_inj (parens_inj h)]
    | alternation first second => exact absurd (parens_inj h) (hpipe p first second)
  | alternation first second =>
    cases b with
    | required q => exact absurd h.symm (hparen q _)
    | optional q => exact absurd (parens_inj h).symm (hpipe q first second)
    | alternation first' second' =>
      have hcut := congrArg (cutOutside (.mark .pipe)) (parens_inj h)
      rw [cutOutside_alternatives, cutOutside_alternatives, Option.some.injEq,
        Prod.mk.injEq] at hcut
      rw [Parameter.queryTokens_inj hcut.1, Parameter.queryTokens_inj hcut.2]

theorem itemsTokens_inj {a b : List QueryItem} (h : itemsTokens a = itemsTokens b) : a = b := by
  cases a with
  | nil =>
    cases b with
    | nil => rfl
    | cons item rest => exact absurd h.symm (itemsTokens_ne_nil item rest)
  | cons item rest =>
    cases b with
    | nil => exact absurd h (itemsTokens_ne_nil item rest)
    | cons item' rest' =>
      have hs := congrArg (splitOutside (.mark .ampersand)) h
      rw [splitOutside_itemsTokens, splitOutside_itemsTokens] at hs
      exact (List.map_inj_right fun _ _ => QueryItem.tokens_inj).mp hs

/-! ## Routes -/

theorem pathTokens_inj {a b : List PathNode} (ha : NormalPath a) (hb : NormalPath b)
    (h : pathTokens a = pathTokens b) : a = b := by
  have hr := Template.readPath_tokens a ha
  rw [h, Template.readPath_tokens b hb] at hr
  exact (Except.ok.inj hr).symm

theorem Route.tokens_inj {a b : Route} (h : a.tokens = b.tokens) :
    a.path = b.path ∧ a.query = b.query := by
  obtain ⟨hpath, hquery⟩ := Template.cutQuery_tokens a
  rw [h] at hpath hquery
  obtain ⟨hpath', hquery'⟩ := Template.cutQuery_tokens b
  exact ⟨pathTokens_inj a.normal b.normal (hpath.symm.trans hpath'),
    itemsTokens_inj (hquery.symm.trans hquery')⟩

theorem Route.text_inj {a b : Route} (h : a.text = b.text) :
    a.path = b.path ∧ a.query = b.query := by
  have ht := ofTemplate?_text a
  rw [h, ofTemplate?_text] at ht
  exact Route.tokens_inj (Except.ok.inj ht).symm

theorem Route.ext_path_query {a b : Route} (hp : a.path = b.path) (hq : a.query = b.query) :
    a = b := by
  rw [← a.of_path_query, ← b.of_path_query, hp, hq]

/-- **Equality of routes.** Routes of any nodes and items have the same canonical text exactly if
they have the same path and the same query, also where no template has that text. So equal routes
match the same components with the same bindings, and render every payload alike. -/
theorem sameText_eq_true_iff (a b : Route) :
    (a.sameText b = true ↔ a.path = b.path ∧ a.query = b.query) ∧
      (a.sameText b = true →
        (∀ c, a.match? c = b.match? c) ∧ ∀ values, a.render values = b.render values) := by
  have hiff : a.sameText b = true ↔ a.path = b.path ∧ a.query = b.query := by
    rw [Route.sameText, beq_iff_eq]
    refine ⟨Route.text_inj, fun ⟨hp, hq⟩ => ?_⟩
    rw [Route.ext_path_query hp hq]
  refine ⟨hiff, fun h => ?_⟩
  obtain ⟨hp, hq⟩ := hiff.mp h
  obtain rfl := Route.ext_path_query hp hq
  exact ⟨fun _ => rfl, fun _ => rfl⟩

end DeepLink
