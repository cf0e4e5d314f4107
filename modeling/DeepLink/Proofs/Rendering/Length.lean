import DeepLink.Proofs.Rendering.Fitting

/-!
# The length of a payload

Every node and item of a route takes one value, but literals and wildcards, which take none
(`PathNode.Fits.takes`). So the payloads that a route renders are all of one length. In a shorter
one the values run out at the first node or item that is left without (`FitsPath.runsOut`,
`FitsQuery.runsOut`), and of a longer one just the values after that length are unused.
-/

namespace DeepLink

/-- Whether a node of a path takes a value. -/
def PathNode.takesValue : PathNode → Bool
  | .literal _ => false
  | .wildcard => false
  | .parameter _ => true
  | .alternation _ _ => true
  | .optional _ => true

/-- The canonical texts of the nodes that take a value each. -/
def takersOf (nodes : List PathNode) : List String :=
  (nodes.filter PathNode.takesValue).map PathNode.text

/-- The canonical texts of all that takes a value: nodes of the path, and then the items of the
query. -/
def Route.takers (r : Route) : List String := takersOf r.path ++ r.query.map QueryItem.text

/-- The values do for the first that take one, and what comes next misses its own. -/
def RunsOut {α : Type} (takers : List String) (values : List Value)
    (made : Except RenderError α) : Prop :=
  ∃ next, takers[values.length]? = some next ∧ made = .error (.missingValue next)

/-! ## Paths -/

section Path

variable {node : PathNode} {nodes : List PathNode} {own : List Value} {texts : List String}

/-- A node takes a single value or none. -/
theorem PathNode.Fits.takes (h : node.Fits own texts) :
    node.takesValue = false ∧ own = [] ∨ node.takesValue = true ∧ ∃ value, own = [value] := by
  cases h with
  | literal text => exact .inl ⟨rfl, rfl⟩
  | wildcard => exact .inl ⟨rfl, rfl⟩
  | parameter _ _ => exact .inr ⟨rfl, _, rfl⟩
  | left _ => exact .inr ⟨rfl, _, rfl⟩
  | right _ => exact .inr ⟨rfl, _, rfl⟩
  | absent group => exact .inr ⟨rfl, _, rfl⟩
  | present _ => exact .inr ⟨rfl, _, rfl⟩

/-- A node that takes a value and has none is named. -/
theorem PathNode.render_nil (h : node.takesValue = true) :
    node.render [] = .error (.missingValue node.text) := by
  cases node with
  | literal text => cases h
  | wildcard => cases h
  | parameter p => rfl
  | alternation left right => rfl
  | optional group => rfl

theorem takersOf_cons_of_takes (h : node.takesValue = true) :
    takersOf (node :: nodes) = node.text :: takersOf nodes := by
  rw [takersOf, List.filter_cons_of_pos h]
  rfl

theorem takersOf_cons_of_takes_none (h : node.takesValue = false) :
    takersOf (node :: nodes) = takersOf nodes := by
  rw [takersOf, List.filter_cons_of_neg (by rw [h]; exact Bool.false_ne_true)]
  rfl

theorem renderPath_cons_of_error {values rest : List Value} {e : RenderError}
    (h : node.render values = .ok (texts, rest)) (he : renderPath nodes rest = .error e) :
    renderPath (node :: nodes) values = .error e := by
  rw [renderPath, h]
  exact bind_eq_error.mpr (.inr ⟨_, rfl, bind_eq_error.mpr (.inl he)⟩)

theorem FitsPath.length_eq (h : FitsPath nodes own texts) :
    own.length = (takersOf nodes).length := by
  induction nodes generalizing own texts with
  | nil =>
    cases h
    rfl
  | cons node nodes ih =>
    cases h with
    | cons hn hs =>
      rw [List.length_append, ih hs]
      rcases hn.takes with ⟨ht, rfl⟩ | ⟨ht, value, rfl⟩
      · rw [takersOf_cons_of_takes_none ht, List.length_nil, Nat.zero_add]
      · rw [takersOf_cons_of_takes ht, List.length_cons, List.length_cons, List.length_nil,
          Nat.zero_add, Nat.add_comm]

/-- Of values that fit a path the first ones alone run out in it. -/
theorem FitsPath.runsOut {short rest : List Value} (h : FitsPath nodes (short ++ rest) texts)
    (hne : rest ≠ []) : RunsOut (takersOf nodes) short (renderPath nodes short) := by
  generalize hown : short ++ rest = own at h
  induction nodes generalizing short own texts with
  | nil =>
    cases h
    exact absurd (List.append_eq_nil_iff.mp hown).2 hne
  | cons node nodes ih =>
    cases h with
    | cons hn hs =>
      rcases hn.takes with ⟨ht, rfl⟩ | ⟨ht, value, rfl⟩
      · obtain ⟨next, hnext, hmade⟩ := ih _ hown hs
        rw [takersOf_cons_of_takes_none ht]
        exact ⟨next, hnext, renderPath_cons_of_error (PathNode.render_of_fits hn short) hmade⟩
      · rw [takersOf_cons_of_takes ht]
        cases short with
        | nil =>
          refine ⟨node.text, rfl, ?_⟩
          rw [renderPath, PathNode.render_nil ht]
          rfl
        | cons first short =>
          obtain ⟨rfl, htail⟩ := List.cons.inj hown
          obtain ⟨next, hnext, hmade⟩ := ih _ htail hs
          exact ⟨next, hnext, renderPath_cons_of_error (PathNode.render_of_fits hn short) hmade⟩

end Path

/-! ## Queries -/

theorem FitsQuery.length_eq {items : List QueryItem} {own : List Value}
    {pairs : List (String × String)} (h : FitsQuery items own pairs) :
    own.length = items.length := by
  induction h with
  | nil => rfl
  | cons _ _ ih => rw [List.length_cons, List.length_cons, ih]

/-- Of values that fit a query the first ones alone run out in it. -/
theorem FitsQuery.runsOut {items : List QueryItem} {short rest : List Value}
    {pairs : List (String × String)} (h : FitsQuery items (short ++ rest) pairs)
    (hne : rest ≠ []) : RunsOut (items.map QueryItem.text) short (renderQuery items short) := by
  generalize hown : short ++ rest = own at h
  induction h generalizing short with
  | nil => exact absurd (List.append_eq_nil_iff.mp hown).2 hne
  | cons hi _ ih =>
    cases short with
    | nil => exact ⟨_, rfl, rfl⟩
    | cons first short =>
      obtain ⟨rfl, htail⟩ := List.cons.inj hown
      obtain ⟨next, hnext, hmade⟩ := ih htail
      refine ⟨next, hnext, bind_eq_error.mpr (.inr ⟨_, QueryItem.render_iff_fits.mpr hi, ?_⟩)⟩
      exact bind_eq_error.mpr (.inl hmade)

/-! ## Routes -/

namespace Route

variable {r : Route} {values : List Value} {c : Components}

theorem Fits.length_eq (h : r.Fits values c) : values.length = r.takers.length := by
  obtain ⟨first, others, rfl, hf, hq⟩ := h
  rw [takers, List.length_append, List.length_append, List.length_map, hf.length_eq, hq.length_eq]

/-- Of values that fit a route the first ones alone run out: in the path, or behind it. -/
theorem Fits.runsOut {short rest : List Value} (h : r.Fits (short ++ rest) c) (hne : rest ≠ []) :
    RunsOut r.takers short (r.render short) := by
  obtain ⟨first, others, he, hf, hq⟩ := h
  by_cases hlt : short.length < first.length
  · obtain ⟨missing, rfl⟩ : short <+: first :=
      List.prefix_of_prefix_length_le ⟨rest, he⟩ (List.prefix_append _ _) (Nat.le_of_lt hlt)
    have hmissing : missing ≠ [] := by
      rintro rfl
      simp at hlt
    obtain ⟨next, hnext, hmade⟩ := hf.runsOut hmissing
    refine ⟨next, ?_, bind_eq_error.mpr (.inl hmade)⟩
    rw [takers, List.getElem?_append_left (List.getElem?_eq_some_iff.mp hnext).1]
    exact hnext
  · obtain ⟨more, rfl⟩ : first <+: short :=
      List.prefix_of_prefix_length_le ⟨others, he.symm⟩ (List.prefix_append _ _)
        (Nat.le_of_not_lt hlt)
    rw [List.append_assoc] at he
    obtain rfl := List.append_cancel_left he
    obtain ⟨next, hnext, hmade⟩ := hq.runsOut hne
    refine ⟨next, ?_, bind_eq_error.mpr (.inr ⟨_, renderPath_of_fits hf more, ?_⟩)⟩
    · rw [takers, List.length_append, hf.length_eq, List.getElem?_append_right (by omega)]
      rwa [Nat.add_sub_cancel_left]
    · exact bind_eq_error.mpr (.inl hmade)

/-- What follows values that fit a route is left over. -/
theorem Fits.render_append (h : r.Fits values c) {extra : List Value} (hne : extra ≠ []) :
    r.render (values ++ extra) = .error (.unusedValues r.text extra.length) := by
  obtain ⟨first, others, rfl, hf, hq⟩ := h
  rw [List.append_assoc]
  refine bind_eq_error.mpr (.inr ⟨_, renderPath_of_fits hf (others ++ extra), ?_⟩)
  refine bind_eq_error.mpr (.inr ⟨_, renderQuery_of_fits hq extra, ?_⟩)
  cases extra with
  | nil => exact absurd rfl hne
  | cons value extra => rfl

/-- **Payloads too short and too long.** Where a route renders a payload, it has one value for each
node and item that takes one, like every payload that the route renders. If values are missing at
the end, rendering fails and names the first node or item that is left without; if there are more,
it fails with the canonical text of the route and their number. -/
theorem length_of_render (h : r.render values = .ok c) :
    values.length = r.takers.length ∧
      (∀ short rest, values = short ++ rest → rest ≠ [] →
        ∃ next, r.takers[short.length]? = some next ∧
          r.render short = .error (.missingValue next)) ∧
      (∀ extra, extra ≠ [] →
        r.render (values ++ extra) = .error (.unusedValues r.text extra.length)) ∧
      ∀ others c', r.render others = .ok c' → others.length = values.length := by
  have hfits := Route.fits_of_render h
  refine ⟨hfits.length_eq, ?_, fun extra => hfits.render_append, fun others c' ho => ?_⟩
  · rintro short rest rfl hne
    exact hfits.runsOut hne
  · rw [hfits.length_eq, (Route.fits_of_render ho).length_eq]

end Route

/-- The route of `recipe/:id/*/(page|tab)/(:int(no))?(:q)&(:sort|:order)`. -/
def recipePages : Route :=
  Route.of
    [.literal "recipe", .parameter (.untyped "id"), .wildcard,
      .alternation [.literal "page"] [.literal "tab"], .optional [.parameter (.typed .int "no")]]
    [.optional (.untyped "q"), .alternation (.untyped "sort") (.untyped "order")]

/-- Two values do for the parameter and the alternation, and the group is left without. -/
theorem length_of_render_recipePages :
    recipePages.render [.scalar (.text "soup"), .branch .right [], .absent, .absent,
        .branch .left [.scalar (.text "name")]] =
      .ok ⟨["recipe", "soup", "*", "tab"], [("sort", "name")]⟩ ∧
    recipePages.render [.scalar (.text "soup"), .branch .right []] =
      .error (.missingValue "(:int(no))") ∧
    recipePages.render [.scalar (.text "soup"), .branch .right [], .absent, .absent,
        .branch .left [.scalar (.text "name")], .absent] =
      .error (.unusedValues recipePages.text 1) := by
  have hrender : recipePages.render [.scalar (.text "soup"), .branch .right [], .absent, .absent,
      .branch .left [.scalar (.text "name")]] =
        .ok ⟨["recipe", "soup", "*", "tab"], [("sort", "name")]⟩ := rfl
  obtain ⟨-, hshort, hlong, -⟩ := Route.length_of_render hrender
  obtain ⟨next, hnext, hmade⟩ :=
    hshort [.scalar (.text "soup"), .branch .right []] _ rfl (List.cons_ne_nil _ _)
  have htaker : recipePages.takers[2]? = some "(:int(no))" := by decide +kernel
  obtain rfl := Option.some.inj (hnext.symm.trans htaker)
  exact ⟨hrender, hmade, hlong [.absent] (List.cons_ne_nil _ _)⟩

end DeepLink
