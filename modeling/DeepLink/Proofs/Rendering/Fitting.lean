import DeepLink.Rendering
import DeepLink.Proofs.Outcome

/-!
# Payloads that fit a route

A payload fits a route if it has one value for each parameter, alternation and optional group of the
path and then one for each item of the query, in their order and nothing else; the values of a
branch or a group fit the nodes in it in the same way (`PathNode.Fits`, `QueryItem.Fits`). What is
written is put together along the same lines.

Rendering hands on the values that a node leaves. A node that fits some values takes just these,
whatever follows them (`PathNode.render_of_fits`), and if it is rendered it has taken values that it
fits (`PathNode.fits_of_render`). So exactly the payloads that fit are rendered
(`Route.fits_of_render`, `Route.render_of_fits`).
-/

namespace DeepLink

mutual

/-- The node takes the values, all of them, and is written as the texts. -/
inductive PathNode.Fits : PathNode → List Value → List String → Prop
  | literal (text : String) : PathNode.Fits (.literal text) [] [text]
  | wildcard : PathNode.Fits .wildcard [] ["*"]
  | parameter {p : Parameter} {s : Scalar} (ha : p.accepts s.render = true)
    (hne : s.render ≠ "") : PathNode.Fits (.parameter p) [.scalar s] [s.render]
  | left {left right : List PathNode} {inner : List Value} {texts : List String}
    (h : FitsPath left inner texts) :
    PathNode.Fits (.alternation left right) [.branch .left inner] texts
  | right {left right : List PathNode} {inner : List Value} {texts : List String}
    (h : FitsPath right inner texts) :
    PathNode.Fits (.alternation left right) [.branch .right inner] texts
  | absent (group : List PathNode) : PathNode.Fits (.optional group) [.absent] []
  | present {group : List PathNode} {inner : List Value} {texts : List String}
    (h : FitsPath group inner texts) : PathNode.Fits (.optional group) [.present inner] texts

/-- The nodes take the values, one node after the other, and are written as the texts. -/
inductive FitsPath : List PathNode → List Value → List String → Prop
  | nil : FitsPath [] [] []
  | cons {node : PathNode} {nodes : List PathNode} {own values : List Value}
    {texts more : List String} (hn : node.Fits own texts) (hs : FitsPath nodes values more) :
    FitsPath (node :: nodes) (own ++ values) (texts ++ more)

end

/-- The item takes the value, and is written as the pairs: one, or none if it is left out. -/
inductive QueryItem.Fits : QueryItem → Value → List (String × String) → Prop
  | required {p : Parameter} {s : Scalar} (ha : p.accepts s.render = true) :
    QueryItem.Fits (.required p) (.scalar s) [(p.name, s.render)]
  | absent (p : Parameter) : QueryItem.Fits (.optional p) .absent []
  | present {p : Parameter} {s : Scalar} (ha : p.accepts s.render = true) :
    QueryItem.Fits (.optional p) (.present [.scalar s]) [(p.name, s.render)]
  | first {first second : Parameter} {s : Scalar} (ha : first.accepts s.render = true) :
    QueryItem.Fits (.alternation first second) (.branch .left [.scalar s])
      [(first.name, s.render)]
  | second {first second : Parameter} {s : Scalar} (ha : second.accepts s.render = true) :
    QueryItem.Fits (.alternation first second) (.branch .right [.scalar s])
      [(second.name, s.render)]

/-- The items take one value each. -/
inductive FitsQuery : List QueryItem → List Value → List (String × String) → Prop
  | nil : FitsQuery [] [] []
  | cons {item : QueryItem} {items : List QueryItem} {value : Value} {values : List Value}
    {pairs more : List (String × String)} (hi : item.Fits value pairs)
    (hs : FitsQuery items values more) :
    FitsQuery (item :: items) (value :: values) (pairs ++ more)

/-- The path takes the first values of the payload and the query the others. -/
def Route.Fits (r : Route) (values : List Value) (c : Components) : Prop :=
  ∃ first others, values = first ++ others ∧ FitsPath r.path first c.path ∧
    FitsQuery r.query others c.query

/-! ## Values of parameters -/

theorem allUsed_eq_ok {α : Type} {route : String} {made : α × List Value} {result : α} :
    allUsed route made = .ok result ↔ made = (result, []) := by
  obtain ⟨value, rest⟩ := made
  cases rest with
  | nil => simp [allUsed]
  | cons v rest => simp [allUsed]

theorem Parameter.render_eq_ok {p : Parameter} {expected : String} {value : Value} {text : String}
    (h : p.render expected value = .ok text) :
    ∃ s, value = .scalar s ∧ s.render = text ∧ p.accepts text = true := by
  obtain ⟨name, kind?⟩ := p
  cases value with
  | scalar s =>
    cases kind? with
    | none => exact ⟨s, rfl, Except.ok.inj h, rfl⟩
    | some kind =>
      by_cases ha : kind.accepts s.render = true
      · have hs : s.render = text := Except.ok.inj ((if_pos ha).symm.trans h)
        exact ⟨s, rfl, hs, hs ▸ ha⟩
      · cases (if_neg ha).symm.trans h
  | branch side values => cases h
  | absent => cases h
  | present values => cases h

theorem Parameter.renderInPath_eq_ok {p : Parameter} {value : Value} {text : String}
    (h : p.renderInPath value = .ok text) :
    ∃ s, value = .scalar s ∧ s.render = text ∧ p.accepts text = true ∧ text ≠ "" := by
  unfold Parameter.renderInPath at h
  obtain ⟨made, hm, h⟩ := bind_eq_ok.mp h
  split at h
  · cases h
  · next hne =>
    cases h
    obtain ⟨s, hv, hs, ha⟩ := Parameter.render_eq_ok hm
    exact ⟨s, hv, hs, ha, hne⟩

theorem Parameter.renderPair_eq_ok {p : Parameter} {item : QueryItem} {values : List Value}
    {pair : String × String} (h : p.renderPair item values = .ok pair) :
    ∃ s, values = [.scalar s] ∧ pair = (p.name, s.render) ∧ p.accepts s.render = true := by
  cases values with
  | nil => cases h
  | cons value rest =>
    obtain ⟨text, ht, hu⟩ := bind_eq_ok.mp h
    obtain ⟨s, rfl, rfl, ha⟩ := Parameter.render_eq_ok ht
    rw [allUsed_eq_ok] at hu
    cases hu
    exact ⟨s, rfl, rfl, ha⟩

section Scalar

variable {p : Parameter} {s : Scalar}

/-- A parameter renders a value whose text it accepts. -/
theorem Parameter.render_scalar (h : p.accepts s.render = true) (expected : String) :
    p.render expected (.scalar s) = .ok s.render := by
  obtain ⟨name, kind?⟩ := p
  cases kind? with
  | none => rfl
  | some kind => exact if_pos h

theorem Parameter.renderInPath_scalar (h : p.accepts s.render = true) (hne : s.render ≠ "") :
    p.renderInPath (.scalar s) = .ok s.render := by
  rw [Parameter.renderInPath, Parameter.render_scalar h]
  show (if s.render = "" then _ else _) = _
  rw [if_neg hne]
  rfl

theorem Parameter.renderPair_scalar (h : p.accepts s.render = true) (item : QueryItem) :
    p.renderPair item [.scalar s] = .ok (p.name, s.render) := by
  rw [Parameter.renderPair, Parameter.render_scalar h]
  rfl

end Scalar

/-! ## Paths -/

/-- What is written for a branch or a group uses up the values given for it. -/
theorem inside_eq_ok {nodes : List PathNode} {inner rest left : List Value} {route : String}
    {texts : List String}
    (h : ((renderPath nodes inner).bind (allUsed route)).map (fun texts => (texts, rest)) =
      .ok (texts, left)) : renderPath nodes inner = .ok (texts, []) ∧ left = rest := by
  obtain ⟨result, hr, he⟩ := map_eq_ok.mp h
  obtain ⟨made, hm, hu⟩ := bind_eq_ok.mp hr
  cases he
  rw [allUsed_eq_ok] at hu
  exact ⟨hu ▸ hm, rfl⟩

/-- Values that fit a branch or a group are used up in it. -/
theorem inside_of_renderPath {nodes : List PathNode} {inner : List Value} {texts : List String}
    (h : renderPath nodes inner = .ok (texts, [])) (route : String) (rest : List Value) :
    ((renderPath nodes inner).bind (allUsed route)).map (fun texts => (texts, rest)) =
      .ok (texts, rest) := by
  rw [h]
  rfl

mutual

/-- A node takes the values that it fits, and no more. -/
theorem PathNode.render_of_fits : {node : PathNode} → {own : List Value} →
    {texts : List String} → node.Fits own texts → (rest : List Value) →
    node.render (own ++ rest) = .ok (texts, rest)
  | _, _, _, .literal text, rest => rfl
  | _, _, _, .wildcard, rest => rfl
  | _, _, _, @PathNode.Fits.parameter p s ha hne, rest => by
    show (p.renderInPath (.scalar s)).map _ = _
    rw [Parameter.renderInPath_scalar ha hne]
    rfl
  | _, _, _, .left h, rest => inside_of_renderPath (renderPath_of_fits_all h) _ rest
  | _, _, _, .right h, rest => inside_of_renderPath (renderPath_of_fits_all h) _ rest
  | _, _, _, .absent group, rest => rfl
  | _, _, _, .present h, rest => inside_of_renderPath (renderPath_of_fits_all h) _ rest

theorem renderPath_of_fits : {nodes : List PathNode} → {own : List Value} →
    {texts : List String} → FitsPath nodes own texts → (rest : List Value) →
    renderPath nodes (own ++ rest) = .ok (texts, rest)
  | _, _, _, .nil, rest => rfl
  | _, _, _, .cons hn hs, rest => by
    rw [List.append_assoc, renderPath, PathNode.render_of_fits hn]
    show (renderPath _ _).bind _ = _
    rw [renderPath_of_fits hs]
    rfl

theorem renderPath_of_fits_all : {nodes : List PathNode} → {own : List Value} →
    {texts : List String} → FitsPath nodes own texts → renderPath nodes own = .ok (texts, [])
  | _, own, _, h => by
    have hr := renderPath_of_fits h []
    rwa [List.append_nil] at hr

end

mutual

/-- A node that is rendered has taken values that it fits. -/
theorem PathNode.fits_of_render : (node : PathNode) → {values rest : List Value} →
    {texts : List String} → node.render values = .ok (texts, rest) →
    ∃ own, values = own ++ rest ∧ node.Fits own texts
  | .literal text, values, rest, texts, h => by
    cases h
    exact ⟨[], rfl, .literal text⟩
  | .wildcard, values, rest, texts, h => by
    cases h
    exact ⟨[], rfl, .wildcard⟩
  | .parameter p, values, rest, texts, h => by
    cases values with
    | nil => cases h
    | cons value values =>
      obtain ⟨text, ht, he⟩ := map_eq_ok.mp h
      cases he
      obtain ⟨s, rfl, rfl, ha, hne⟩ := Parameter.renderInPath_eq_ok ht
      exact ⟨[.scalar s], rfl, .parameter ha hne⟩
  | .alternation left right, values, rest, texts, h => by
    match values, h with
    | .branch .left inner :: values, h =>
      obtain ⟨hp, rfl⟩ := inside_eq_ok h
      exact ⟨[.branch .left inner], rfl, .left (fitsPath_of_renderPath_all left hp)⟩
    | .branch .right inner :: values, h =>
      obtain ⟨hp, rfl⟩ := inside_eq_ok h
      exact ⟨[.branch .right inner], rfl, .right (fitsPath_of_renderPath_all right hp)⟩
  | .optional group, values, rest, texts, h => by
    match values, h with
    | .absent :: values, h =>
      cases h
      exact ⟨[.absent], rfl, .absent group⟩
    | .present inner :: values, h =>
      obtain ⟨hp, rfl⟩ := inside_eq_ok h
      exact ⟨[.present inner], rfl, .present (fitsPath_of_renderPath_all group hp)⟩

theorem fitsPath_of_renderPath : (nodes : List PathNode) → {values rest : List Value} →
    {texts : List String} → renderPath nodes values = .ok (texts, rest) →
    ∃ own, values = own ++ rest ∧ FitsPath nodes own texts
  | [], values, rest, texts, h => by
    cases h
    exact ⟨[], rfl, .nil⟩
  | node :: nodes, values, rest, texts, h => by
    obtain ⟨⟨first, left⟩, hf, h⟩ := bind_eq_ok.mp h
    obtain ⟨⟨more, unused⟩, hm, h⟩ := bind_eq_ok.mp h
    cases h
    obtain ⟨own, rfl, hn⟩ := node.fits_of_render hf
    obtain ⟨others, rfl, hs⟩ := fitsPath_of_renderPath nodes hm
    exact ⟨own ++ others, (List.append_assoc _ _ _).symm, .cons hn hs⟩

theorem fitsPath_of_renderPath_all : (nodes : List PathNode) → {values : List Value} →
    {texts : List String} → renderPath nodes values = .ok (texts, []) →
    FitsPath nodes values texts
  | nodes, values, texts, h => by
    obtain ⟨own, rfl, hf⟩ := fitsPath_of_renderPath nodes h
    rwa [List.append_nil]

end

mutual

/-- Where no literal is empty, no text that is written is. -/
theorem PathNode.Fits.not_mem : {node : PathNode} → {own : List Value} → {texts : List String} →
    node.Fits own texts → node.Normal → "" ∉ texts
  | _, _, _, .literal text, hn => fun hm => hn (List.mem_singleton.mp hm).symm
  | _, _, _, .wildcard, _ => by simp
  | _, _, _, .parameter _ hne, _ => fun hm => hne (List.mem_singleton.mp hm).symm
  | _, _, _, .left h, hn => FitsPath.not_mem h hn.2.2.1
  | _, _, _, .right h, hn => FitsPath.not_mem h hn.2.2.2
  | _, _, _, .absent _, _ => List.not_mem_nil
  | _, _, _, .present h, hn => FitsPath.not_mem h hn.2

theorem FitsPath.not_mem : {nodes : List PathNode} → {own : List Value} →
    {texts : List String} → FitsPath nodes own texts → NormalPath nodes → "" ∉ texts
  | _, _, _, .nil, _ => List.not_mem_nil
  | _, _, _, .cons hn hs, hnormal => fun hm =>
    (List.mem_append.mp hm).elim (PathNode.Fits.not_mem hn hnormal.1)
      (FitsPath.not_mem hs hnormal.2)

end

/-! ## Queries -/

/-- An item is rendered for the values that fit it, and for no others. -/
theorem QueryItem.render_iff_fits {item : QueryItem} {value : Value}
    {pairs : List (String × String)} : item.render value = .ok pairs ↔ item.Fits value pairs := by
  constructor
  · intro h
    unfold QueryItem.render at h
    split at h
    · obtain ⟨text, ht, rfl⟩ := map_eq_ok.mp h
      obtain ⟨s, rfl, rfl, ha⟩ := Parameter.render_eq_ok ht
      exact .required ha
    · cases h
      exact .absent _
    · obtain ⟨pair, hp, rfl⟩ := map_eq_ok.mp h
      obtain ⟨s, rfl, rfl, ha⟩ := Parameter.renderPair_eq_ok hp
      exact .present ha
    · obtain ⟨pair, hp, rfl⟩ := map_eq_ok.mp h
      obtain ⟨s, rfl, rfl, ha⟩ := Parameter.renderPair_eq_ok hp
      exact .first ha
    · obtain ⟨pair, hp, rfl⟩ := map_eq_ok.mp h
      obtain ⟨s, rfl, rfl, ha⟩ := Parameter.renderPair_eq_ok hp
      exact .second ha
    · cases h
  · intro h
    cases h with
    | required ha => rw [QueryItem.render, Parameter.render_scalar ha]; rfl
    | absent p => rfl
    | present ha => rw [QueryItem.render, Parameter.renderPair_scalar ha]; rfl
    | first ha => rw [QueryItem.render, Parameter.renderPair_scalar ha]; rfl
    | second ha => rw [QueryItem.render, Parameter.renderPair_scalar ha]; rfl

/-- The items of a query take the values that they fit, and no more. -/
theorem renderQuery_of_fits {items : List QueryItem} {own : List Value}
    {pairs : List (String × String)} (h : FitsQuery items own pairs) (rest : List Value) :
    renderQuery items (own ++ rest) = .ok (pairs, rest) := by
  induction h with
  | nil => cases rest <;> rfl
  | cons hi hs ih =>
    rw [List.cons_append, renderQuery, QueryItem.render_iff_fits.mpr hi]
    show (renderQuery _ _).bind _ = _
    rw [ih]
    rfl

/-- The items of a query that is rendered have taken values that they fit. -/
theorem fitsQuery_of_renderQuery {items : List QueryItem} {values rest : List Value}
    {pairs : List (String × String)} (h : renderQuery items values = .ok (pairs, rest)) :
    ∃ own, values = own ++ rest ∧ FitsQuery items own pairs := by
  induction items generalizing values pairs with
  | nil =>
    cases h
    exact ⟨[], rfl, .nil⟩
  | cons item items ih =>
    cases values with
    | nil => cases h
    | cons value values =>
      obtain ⟨first, hf, h⟩ := bind_eq_ok.mp h
      obtain ⟨⟨more, unused⟩, hm, h⟩ := bind_eq_ok.mp h
      cases h
      obtain ⟨own, rfl, hs⟩ := ih hm
      exact ⟨value :: own, rfl, .cons (QueryItem.render_iff_fits.mp hf) hs⟩

/-! ## Routes -/

theorem Route.fits_of_render {r : Route} {values : List Value} {c : Components}
    (h : r.render values = .ok c) : r.Fits values c := by
  obtain ⟨⟨path, others⟩, hp, h⟩ := bind_eq_ok.mp h
  obtain ⟨⟨query, unused⟩, hq, h⟩ := bind_eq_ok.mp h
  rw [allUsed_eq_ok] at h
  cases h
  obtain ⟨first, rfl, hf⟩ := fitsPath_of_renderPath r.path hp
  obtain ⟨own, rfl, hs⟩ := fitsQuery_of_renderQuery hq
  exact ⟨first, own ++ [], rfl, hf, by rwa [List.append_nil]⟩

theorem Route.render_of_fits {r : Route} {values : List Value} {c : Components}
    (h : r.Fits values c) : r.render values = .ok c := by
  obtain ⟨first, others, rfl, hf, hq⟩ := h
  have hquery := renderQuery_of_fits hq []
  rw [List.append_nil] at hquery
  refine bind_eq_ok.mpr ⟨(c.path, others), renderPath_of_fits hf others, ?_⟩
  refine bind_eq_ok.mpr ⟨(c.query, []), hquery, ?_⟩
  rfl

/-- **Payloads that fit.** A route renders the payloads that fit it, and no others. The components
are those that the fit gives, and no text of the path is empty. -/
theorem Route.renders_iff_fits (r : Route) (values : List Value) (c : Components) :
    (r.render values = .ok c ↔ r.Fits values c) ∧ (r.Fits values c → "" ∉ c.path) := by
  refine ⟨⟨Route.fits_of_render, Route.render_of_fits⟩, ?_⟩
  rintro ⟨first, others, rfl, hf, -⟩
  exact hf.not_mem r.normal

/-- The route of `recipe/(:int(id)/(steps|*))?(:q)`. -/
def recipePart : Route :=
  Route.of
    [.literal "recipe",
      .optional [.parameter (.typed .int "id"), .alternation [.literal "steps"] [.wildcard]]]
    [.optional (.untyped "q")]

/-- The values of the group fit only if all of them are used in it. -/
theorem renders_iff_fits_recipePart :
    recipePart.Fits [.present [.scalar (.int 7), .branch .left []], .absent]
        ⟨["recipe", "7", "steps"], []⟩ ∧
      "" ∉ ["recipe", "7", "steps"] ∧
      ∀ c, ¬ recipePart.Fits [.present [.scalar (.int 7), .branch .left [.absent]], .absent] c := by
  have hfits : recipePart.Fits [.present [.scalar (.int 7), .branch .left []], .absent]
      ⟨["recipe", "7", "steps"], []⟩ := (recipePart.renders_iff_fits _ _).1.mp rfl
  refine ⟨hfits, (recipePart.renders_iff_fits _ _).2 hfits, fun c hc => ?_⟩
  cases (recipePart.renders_iff_fits _ c).1.mpr hc

end DeepLink
