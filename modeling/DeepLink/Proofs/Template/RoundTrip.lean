import DeepLink.Proofs.Route.NormalForm
import DeepLink.Proofs.Template.Items
import DeepLink.Proofs.Template.Paths

/-!
# Canonical texts are templates

A route whose query parameters have names is read back from its canonical text as long as the text
nests within the limit, and refused for its nesting otherwise (`readTokens_tokens`,
`readTokens_tooDeep`).
-/

namespace DeepLink

namespace Template

/-! ## Path and query -/

theorem cutQuery_of_notMem {a : List Token} (h : .mark .question ∉ a) : cutQuery a = (a, none) := by
  induction a with
  | nil => rfl
  | cons t a ih =>
    have ht : t ≠ .mark .question := fun he => h (he ▸ List.mem_cons_self)
    rw [cutQuery, if_neg ht, ih fun hm => h (List.mem_cons_of_mem _ hm)]

theorem cutQuery_append {a : List Token} (h : .mark .question ∉ a) (b : List Token) :
    cutQuery (a ++ .mark .question :: b) = (a, some b) := by
  induction a with
  | nil => rfl
  | cons t a ih =>
    have ht : t ≠ .mark .question := fun he => h (he ▸ List.mem_cons_self)
    rw [List.cons_append, cutQuery, if_neg ht, ih fun hm => h (List.mem_cons_of_mem _ hm)]

/-- The question mark of a canonical text is the one between path and query. -/
theorem cutQuery_tokens (r : Route) :
    (cutQuery r.tokens).1 = pathTokens r.path ∧
      (cutQuery r.tokens).2.getD [] = itemsTokens r.query := by
  have hp := question_notMem_pathTokens r.path
  unfold Route.tokens
  cases r.query with
  | nil =>
    rw [cutQuery_of_notMem hp]
    exact ⟨rfl, rfl⟩
  | cons item rest =>
    rw [cutQuery_append hp]
    exact ⟨rfl, rfl⟩

theorem readItems_tokens {items : List QueryItem}
    (hn : ∀ item ∈ items, ∀ p ∈ item.parameters, p.name ≠ "") (offset : Nat) :
    readItems offset (items.map QueryItem.tokens) = .ok items := by
  induction items generalizing offset with
  | nil => rfl
  | cons item rest ih =>
    obtain ⟨hi, hr⟩ := List.forall_mem_cons.mp hn
    rw [List.map_cons, readItems, if_neg item.tokens_ne_nil, readItem_tokens hi]
    show (readItems _ _).map _ = _
    rw [ih hr]
    rfl

theorem readQuery_tokens {items : List QueryItem}
    (hn : ∀ item ∈ items, ∀ p ∈ item.parameters, p.name ≠ "") (offset : Nat) :
    readQuery offset (itemsTokens items) = .ok items := by
  cases items with
  | nil => rfl
  | cons item rest =>
    have hs := splitOutside_itemsTokens item rest
    have hne := itemsTokens_ne_nil item rest
    cases ht : itemsTokens (item :: rest) with
    | nil => exact absurd ht hne
    | cons t more =>
      rw [ht] at hs
      rw [readQuery, hs, readItems_tokens hn]
      exact List.cons_ne_nil t more

/-! ## The check of groups -/

theorem checkParens_eq {a : List Token} (ha : Balanced a) (offset : Nat)
    (h : nestingTokens 0 a ≤ nestingLimit) : checkParens offset a = .ok () := by
  have hc := checkGroupsFrom_balanced ha offset [] [] h
  rw [List.append_nil] at hc
  rw [checkParens, checkGroups, hc]
  rfl

theorem checkParens_tooDeep {a : List Token} (ha : Balanced a) (offset : Nat)
    (h : nestingLimit < nestingTokens 0 a) :
    ∃ place, checkParens offset a = .error (.group (.tooDeep place)) := by
  obtain ⟨place, hc⟩ := checkGroupsFrom_tooDeep ha offset [] [] (Nat.zero_le _) h
  rw [List.append_nil] at hc
  refine ⟨place, ?_⟩
  rw [checkParens, checkGroups, hc]
  rfl

/-- A route nests as deeply as its path or its query does. -/
theorem nestingTokens_tokens (r : Route) :
    nestingTokens 0 r.tokens =
      max (nestingTokens 0 (pathTokens r.path)) (nestingTokens 0 (itemsTokens r.query)) := by
  unfold Route.tokens
  cases r.query with
  | nil => exact (Nat.max_eq_left (Nat.zero_le _)).symm
  | cons item rest =>
    rw [nestingTokens_balanced (balanced_pathTokens r.path), nestingTokens_cons rfl]

/-! ## Reading the tokens of a route -/

theorem readTokens_eq (r : Route) :
    readTokens r.tokens = do
      checkParens 0 (pathTokens r.path)
      checkParens (queryOffset (pathTokens r.path)) (itemsTokens r.query)
      let nodes ← readPath (pathTokens r.path)
      let items ← readQuery (queryOffset (pathTokens r.path)) (itemsTokens r.query)
      return Route.of nodes items := by
  obtain ⟨hp, hq⟩ := cutQuery_tokens r
  rw [← hp, ← hq]
  rfl

theorem readTokens_tokens {r : Route} (hn : ∀ item ∈ r.query, ∀ p ∈ item.parameters, p.name ≠ "")
    (h : nestingTokens 0 r.tokens ≤ nestingLimit) : readTokens r.tokens = .ok r := by
  rw [nestingTokens_tokens] at h
  rw [readTokens_eq, checkParens_eq (balanced_pathTokens r.path) _ (by omega),
    checkParens_eq (balanced_itemsTokens r.query) _ (by omega), readPath_tokens r.path r.normal,
    readQuery_tokens hn]
  exact congrArg Except.ok r.of_path_query

theorem readTokens_tooDeep {r : Route} (h : nestingLimit < nestingTokens 0 r.tokens) :
    ∃ place, readTokens r.tokens = .error (.group (.tooDeep place)) := by
  rw [nestingTokens_tokens] at h
  rw [readTokens_eq]
  by_cases hp : nestingLimit < nestingTokens 0 (pathTokens r.path)
  · obtain ⟨place, hc⟩ := checkParens_tooDeep (balanced_pathTokens r.path) 0 hp
    rw [hc]
    exact ⟨place, rfl⟩
  · obtain ⟨place, hc⟩ := checkParens_tooDeep (balanced_itemsTokens r.query)
      (queryOffset (pathTokens r.path)) (by omega)
    rw [checkParens_eq (balanced_pathTokens r.path) _ (Nat.not_lt.mp hp), hc]
    exact ⟨place, rfl⟩

/-- Nesting is all that keeps the tokens of a route from being read as it. -/
theorem readTokens_tokens_iff {r : Route}
    (hn : ∀ item ∈ r.query, ∀ p ∈ item.parameters, p.name ≠ "") :
    readTokens r.tokens = .ok r ↔ nestingTokens 0 r.tokens ≤ nestingLimit := by
  refine ⟨fun hok => ?_, readTokens_tokens hn⟩
  by_cases hd : nestingTokens 0 r.tokens ≤ nestingLimit
  · exact hd
  · obtain ⟨place, he⟩ := readTokens_tooDeep (Nat.not_le.mp hd)
    rw [hok] at he
    cases he

end Template

/-! ## Round trips -/

theorem ofTemplate?_text_eq (r : Route) :
    Route.ofTemplate? r.text = Template.readTokens r.tokens := by
  rw [Route.ofTemplate?, ofTemplate?_text]

/-- **Round trip of routes.** Any nodes and items make a route that is read back from its canonical
text, if the parameters of the query have names and the text nests within the limit. -/
theorem ofTemplate?_text_of (path : List PathNode) (query : List QueryItem)
    (hn : ∀ item ∈ query, ∀ p ∈ item.parameters, p.name ≠ "")
    (hd : nesting (Route.of path query).text ≤ nestingLimit) :
    Route.ofTemplate? (Route.of path query).text = .ok (Route.of path query) := by
  rw [nesting_text] at hd
  rw [ofTemplate?_text_eq]
  exact Template.readTokens_tokens hn hd

theorem ofTemplate?_text_of_reserved :
    Route.ofTemplate? (Route.of
        [.literal "*:a|(\\\n",
          .alternation [.parameter (.typed .int "int(x)"), .literal ""]
            [.optional [.wildcard, .parameter (.untyped "")]]]
        [.alternation (.untyped "int") (.typed .bool "a=&")]).text =
      .ok (Route.of
        [.literal "*:a|(\\\n",
          .alternation [.parameter (.typed .int "int(x)"), .literal ""]
            [.optional [.wildcard, .parameter (.untyped "")]]]
        [.alternation (.untyped "int") (.typed .bool "a=&")]) :=
  ofTemplate?_text_of _ _ (by decide) (by decide +kernel)

end DeepLink
