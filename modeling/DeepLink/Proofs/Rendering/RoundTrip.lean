import DeepLink.Proofs.Matching.Soundness
import DeepLink.Proofs.Rendering.Choice

/-!
# Matching what was rendered

A payload chooses a reading, but matching settles on a reading of its own: it takes a group wherever
it can, though the payload may have left it out. What was rendered matches again with the texts of
the payload exactly if matching settles on choices that bind the same (`Route.Recovers`). It does if
these are the choices of the payload; lone slashes apart, they are where there is nothing to choose.
-/

namespace DeepLink

/-! ## Rendering and matching -/

section Rendered

variable {r : Route} {values : List Value} {c : Components}

/-- Of rendered texts only lone slashes do not count. -/
theorem effectivePath_of_render (h : r.render values = .ok c) :
    c.effectivePath = (textsOf (r.chosenReadings values)).filter (· ≠ "/") := by
  obtain ⟨hp, hne, -⟩ := Route.render_eq h
  rw [← hp, Components.effectivePath]
  refine List.filter_congr fun text hm => ?_
  have ht : text ≠ "" := fun he => hne (he ▸ hm)
  simp [ht]

/-- Where no lone slash was rendered, all texts count. -/
theorem filter_textsOf_chosenReadings (h : r.render values = .ok c) (hs : "/" ∉ c.path) :
    (textsOf (r.chosenReadings values)).filter (· ≠ "/") = textsOf (r.chosenReadings values) := by
  rw [← (Route.render_eq h).1, List.filter_eq_self]
  intro text ht
  have hne : text ≠ "/" := fun he => hs (he ▸ ht)
  simpa using hne

/-- Matching what a payload writes settles on choices that bind what the payload gives. -/
def Route.Recovers (r : Route) (values : List Value) : Prop :=
  ∃ readings picked,
    r.Settles ((textsOf (r.chosenReadings values)).filter (· ≠ "/"))
      ((r.chosenValues values).map pairOf) readings picked ∧
    ∀ p, (bindingsOf readings ++ bindAll picked).get? p = (r.rendered values).get? p

/-- Matching what a payload writes settles on the choices of the payload. -/
def Route.Prefers (r : Route) (values : List Value) : Prop :=
  r.Settles ((textsOf (r.chosenReadings values)).filter (· ≠ "/"))
    ((r.chosenValues values).map pairOf) (r.chosenReadings values) (r.chosenValues values)

theorem Route.match?_of_prefers (h : r.render values = .ok c) (hs : r.Prefers values) :
    r.match? c = some (r.rendered values) := by
  unfold Route.Prefers at hs
  rw [← effectivePath_of_render h, ← (Route.render_eq h).2.2] at hs
  exact Route.match?_eq_some_iff.mpr ⟨_, _, hs, rfl⟩

/-- **Rendering and matching.** What a payload renders matches the route again, with the rendered
texts of its named parameters, exactly if matching settles on choices that bind the same. If it
settles on the choices of the payload, it matches with the very bindings of the payload. -/
theorem match?_of_render (h : r.render values = .ok c) :
    ((∃ b, r.match? c = some b ∧ ∀ p, b.get? p = (r.rendered values).get? p) ↔
      r.Recovers values) ∧
    (r.Prefers values → r.match? c = some (r.rendered values)) := by
  refine ⟨?_, Route.match?_of_prefers h⟩
  unfold Route.Recovers
  rw [← effectivePath_of_render h, ← (Route.render_eq h).2.2]
  constructor
  · rintro ⟨b, hm, hb⟩
    obtain ⟨readings, picked, hs, rfl⟩ := Route.match?_eq_some_iff.mp hm
    exact ⟨readings, picked, hs, hb⟩
  · rintro ⟨readings, picked, hs, hb⟩
    exact ⟨_, Route.match?_eq_some_iff.mpr ⟨readings, picked, hs, rfl⟩, hb⟩

end Rendered

/-- The route of `recipe/(:id)/details`. -/
def recipeDetails : Route :=
  Route.of [.literal "recipe", .optional [.parameter (.untyped "id")], .literal "details"] []

/-- Matching takes `details` for the group that was left out, and then misses it. A group that was
not left out is found again. -/
theorem match?_of_render_absent :
    recipeDetails.render [.absent] = .ok ⟨["recipe", "details"], []⟩ ∧
      recipeDetails.match? ⟨["recipe", "details"], []⟩ = none ∧
      ¬ recipeDetails.Recovers [.absent] ∧
      recipeDetails.render [.present [.scalar (.text "42")]] =
        .ok ⟨["recipe", "42", "details"], []⟩ ∧
      recipeDetails.match? ⟨["recipe", "42", "details"], []⟩ = some ⟨[(.untyped "id", "42")]⟩ ∧
      recipeDetails.Recovers [.present [.scalar (.text "42")]] := by
  have hrender : recipeDetails.render [.absent] = .ok ⟨["recipe", "details"], []⟩ := rfl
  have hnone : recipeDetails.match? ⟨["recipe", "details"], []⟩ = none := by decide +kernel
  have hlost : ¬ recipeDetails.Recovers [.absent] := by
    intro hr
    obtain ⟨b, hb, -⟩ := (match?_of_render hrender).1.mpr hr
    rw [hnone] at hb
    cases hb
  have hpresent : recipeDetails.render [.present [.scalar (.text "42")]] =
      .ok ⟨["recipe", "42", "details"], []⟩ := rfl
  have hfound : recipeDetails.match? ⟨["recipe", "42", "details"], []⟩ =
      some (recipeDetails.rendered [.present [.scalar (.text "42")]]) := by decide +kernel
  exact ⟨hrender, hnone, hlost, hpresent, hfound,
    (match?_of_render hpresent).1.mp ⟨_, hfound, fun _ => rfl⟩⟩

/-! ## Routes without choices -/

def QueryItem.IsRequired : QueryItem → Prop
  | .required _ => True
  | _ => False

/-- A payload has nothing to choose but texts. -/
def Route.HasNoChoice (r : Route) : Prop :=
  (∀ node ∈ r.path, node.IsPlain) ∧ ∀ item ∈ r.query, item.IsRequired

theorem PathNode.prefers_of_isPlain {node : PathNode} (hn : node.IsPlain) {reading : Reading}
    {rest : List String} (h : node.Reads reading rest) : node.Prefers reading rest := by
  cases node with
  | literal text =>
    cases h
    rw [PathNode.Prefers]
  | parameter p =>
    cases h with
    | parameter ha =>
      rw [PathNode.Prefers]
      exact ⟨_, rfl, ha⟩
  | alternation left right => exact hn.elim
  | optional group => exact hn.elim
  | wildcard => exact hn.elim

theorem prefersPath_of_isPlain {nodes : List PathNode} {readings : List Reading}
    {rest : List String} (hn : ∀ node ∈ nodes, node.IsPlain) (h : ReadsPath nodes readings rest) :
    PrefersPath .all nodes readings rest := by
  induction nodes generalizing readings with
  | nil =>
    cases h
    rw [PrefersPath]
  | cons node nodes ih =>
    obtain ⟨hnode, hnodes⟩ := List.forall_mem_cons.mp hn
    cases h with
    | @cons _ _ reading readings _ hr hrs =>
      have hw : node ≠ .wildcard := by
        rintro rfl
        exact hnode
      refine (prefersPath_cons_cons hw _ _ _).mpr ⟨fun he => ?_, ?_, ih hnodes hrs⟩
      · cases he
      · exact PathNode.prefers_of_isPlain hnode hr

/-- Each required item picks its own pair, since those before it are taken. -/
theorem picksAll_of_isRequired {items : List QueryItem} {values : List Value}
    {pairs : List (String × String)} (hi : ∀ item ∈ items, item.IsRequired)
    (h : FitsQuery items values pairs) : PicksAll items pairs (chosenQuery items values) := by
  induction h with
  | nil => exact .nil []
  | @cons item items value values first others hf _ ih =>
    obtain ⟨hitem, hitems⟩ := List.forall_mem_cons.mp hi
    cases hf with
    | @required p s ha =>
      have hpick : p.Picks ((p.name, s.render) :: others) s.render others :=
        ⟨[], others, rfl, rfl, ha, by simp⟩
      exact .cons (.required hpick) (ih hitems)
    | absent p => exact hitem.elim
    | present _ => exact hitem.elim
    | first _ => exact hitem.elim
    | second _ => exact hitem.elim

/-- **Routes without choices.** What they render matches with the rendered texts, unless one of
these is a lone slash. -/
theorem match?_of_hasNoChoice {r : Route} {values : List Value} {c : Components}
    (hr : r.HasNoChoice) (h : r.render values = .ok c) (hs : "/" ∉ c.path) :
    r.match? c = some (r.rendered values) := by
  refine Route.match?_of_prefers h ⟨?_, (filter_textsOf_chosenReadings h hs).symm, ?_⟩
  · exact prefersPath_of_isPlain hr.1 (Route.readsPath_chosen h [])
  · rw [← (Route.render_eq h).2.2]
    exact picksAll_of_isRequired hr.2 (Route.fitsQuery_of_render h)

/-- The route of `recipe/:id?:q`. -/
def recipeSearch : Route :=
  Route.of [.literal "recipe", .parameter (.untyped "id")] [.required (.untyped "q")]

theorem match?_of_hasNoChoice_search :
    recipeSearch.HasNoChoice ∧
      recipeSearch.render [.scalar (.text "42"), .scalar (.text "a/b")] =
        .ok ⟨["recipe", "42"], [("q", "a/b")]⟩ ∧
      recipeSearch.match? ⟨["recipe", "42"], [("q", "a/b")]⟩ =
        some ⟨[(.untyped "id", "42"), (.untyped "q", "a/b")]⟩ := by
  have hroute : recipeSearch.HasNoChoice := by
    refine ⟨fun node hn => ?_, fun item hi => ?_⟩
    · rcases List.mem_cons.mp hn with rfl | hn
      · trivial
      · rw [List.mem_singleton.mp hn]
        trivial
    · rw [List.mem_singleton.mp hi]
      trivial
  have hrender : recipeSearch.render [.scalar (.text "42"), .scalar (.text "a/b")] =
      .ok ⟨["recipe", "42"], [("q", "a/b")]⟩ := rfl
  exact ⟨hroute, hrender, match?_of_hasNoChoice hroute hrender (by decide)⟩

end DeepLink
