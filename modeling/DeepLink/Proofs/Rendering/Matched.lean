import DeepLink.Proofs.Rendering.RoundTrip

/-!
# Rendering what was matched

A match reads the components; a payload that writes them again has to make the same choices. For
every reading in which no group is cut short there is one (`rerendersPath`), since it says which
branch, group and text each node took. But matching may end inside a group where the components end,
and a payload fills a group completely or leaves it out. So what was matched can be rendered exactly
if there is a reading of it without such a group (`Route.Rewrites.exists_readsWhole`,
`exists_values_of_readsWhole`). The one that matching settles on leads to one if the nodes that it
did not reach can do without texts (`canFinishPath`).
-/

namespace DeepLink

/-! ## Routes without wildcards -/

mutual

/-- There is no wildcard in the node. -/
def PathNode.WildcardFree : PathNode → Prop
  | .literal _ => True
  | .parameter _ => True
  | .alternation left right => WildcardFreePath left ∧ WildcardFreePath right
  | .optional group => WildcardFreePath group
  | .wildcard => False

def WildcardFreePath : List PathNode → Prop
  | [] => True
  | node :: rest => node.WildcardFree ∧ WildcardFreePath rest

end

/-! ## Whole readings -/

/-- The node allows the reading whatever texts follow. So no group in it is cut short, which is
possible only where the texts are over. -/
def PathNode.ReadsWhole (node : PathNode) (reading : Reading) : Prop :=
  ∀ after, node.Reads reading after

def ReadsWholePath (nodes : List PathNode) (readings : List Reading) : Prop :=
  ∀ after, ReadsPath nodes readings after

theorem readsWholePath_nil : ReadsWholePath [] [] := fun after => .nil after

theorem ReadsWholePath.cons {node : PathNode} {nodes : List PathNode} {reading : Reading}
    {readings : List Reading} (hn : node.ReadsWhole reading) (hs : ReadsWholePath nodes readings) :
    ReadsWholePath (node :: nodes) (reading :: readings) := fun after => .cons (hn _) (hs after)

/-! ## The payload of a reading -/

mutual

/-- The values that tell how a node was read. -/
def Reading.payload : Reading → List Value
  | .literal _ => []
  | .value _ text => [.scalar (.text text)]
  | .branch side inner => [.branch side (payloadOf inner)]
  | .absent => [.absent]
  | .group inner => [.present (payloadOf inner)]
  | .wildcard _ => []

def payloadOf : List Reading → List Value
  | [] => []
  | reading :: rest => reading.payload ++ payloadOf rest

end

/-- With the values of the reading the node is rendered as the texts of the reading, and other
values are left. The values choose this reading. -/
def PathNode.Rerenders (node : PathNode) (reading : Reading) : Prop :=
  ∀ more, node.render (reading.payload ++ more) = .ok (reading.texts, more) ∧
    node.chosen (reading.payload ++ more) = (reading, more)

def RerendersPath (nodes : List PathNode) (readings : List Reading) : Prop :=
  ∀ more, renderPath nodes (payloadOf readings ++ more) = .ok (textsOf readings, more) ∧
    chosenPath nodes (payloadOf readings ++ more) = (readings, more)

theorem rerenders_parameter {p : Parameter} {text : String} (h : p.accepts text = true)
    (hne : text ≠ "") : (PathNode.parameter p).Rerenders (.value p text) := by
  intro more
  refine ⟨?_, rfl⟩
  show (p.renderInPath (.scalar (.text text))).map (fun made => ([made], more)) = _
  rw [Parameter.renderInPath_scalar (s := .text text) h hne]
  rfl

/-- Inside a branch or a group all values are used. -/
theorem RerendersPath.inside {nodes : List PathNode} {inner : List Reading}
    (h : RerendersPath nodes inner) (route : String) (more : List Value) :
    ((renderPath nodes (payloadOf inner)).bind (allUsed route)).map (fun texts => (texts, more)) =
      .ok (textsOf inner, more) ∧ (chosenPath nodes (payloadOf inner)).1 = inner := by
  obtain ⟨hr, hc⟩ := h []
  rw [List.append_nil] at hr hc
  rw [hr, hc]
  exact ⟨rfl, rfl⟩

mutual

theorem PathNode.rerenders : {node : PathNode} → {reading : Reading} → {after : List String} →
    node.Reads reading after → after ≠ [] → node.WildcardFree → "" ∉ reading.texts →
    node.Rerenders reading
  | _, _, _, .literal text rest, _, _, _ => fun more => ⟨rfl, rfl⟩
  | _, _, _, .parameter ha rest, _, _, hne =>
    rerenders_parameter ha fun he => hne (List.mem_singleton.mpr he.symm)
  | _, _, _, .left h, hafter, hw, hne => fun more => by
    have hinside := (rerendersPath h hafter hw.1 hne).inside
    exact ⟨(hinside _ more).1, congrArg (fun inner => (Reading.branch .left inner, more))
      (hinside "" more).2⟩
  | _, _, _, .right h, hafter, hw, hne => fun more => by
    have hinside := (rerendersPath h hafter hw.2 hne).inside
    exact ⟨(hinside _ more).1, congrArg (fun inner => (Reading.branch .right inner, more))
      (hinside "" more).2⟩
  | _, _, _, .absent group rest, _, _, _ => fun more => ⟨rfl, rfl⟩
  | _, _, _, .whole h, hafter, hw, hne => fun more => by
    have hinside := (rerendersPath h hafter hw hne).inside
    exact ⟨(hinside _ more).1, congrArg (fun inner => (Reading.group inner, more))
      (hinside "" more).2⟩
  | _, _, _, .initial _ _, hafter, _, _ => absurd rfl hafter
  | _, _, _, .wildcard _ _, _, hw, _ => hw.elim

theorem rerendersPath : {nodes : List PathNode} → {readings : List Reading} →
    {after : List String} → ReadsPath nodes readings after → after ≠ [] →
    WildcardFreePath nodes → "" ∉ textsOf readings → RerendersPath nodes readings
  | _, _, _, .nil rest, _, _, _ => fun more => ⟨rfl, rfl⟩
  | _, _, _, @ReadsPath.cons node nodes reading readings after hn hr, hafter, hw, hne =>
    fun more => by
    rw [textsOf, List.mem_append, not_or] at hne
    have hrest : textsOf readings ++ after ≠ [] := fun he => hafter (List.append_eq_nil_iff.mp he).2
    obtain ⟨hfirst, hchosen⟩ := node.rerenders hn hrest hw.1 hne.1 (payloadOf readings ++ more)
    obtain ⟨hothers, hchoices⟩ := rerendersPath hr hafter hw.2 hne.2 more
    rw [payloadOf, List.append_assoc]
    refine ⟨?_, ?_⟩
    · rw [renderPath, hfirst]
      show (renderPath nodes (payloadOf readings ++ more) >>= _) = _
      rw [hothers]
      rfl
    · rw [chosenPath, hchosen]
      show (reading :: (chosenPath nodes (payloadOf readings ++ more)).1, _) = _
      rw [hchoices]

end

/-! ## Readings that reach far enough -/

/-- The node can do without texts. -/
def PathNode.Omittable (node : PathNode) : Prop :=
  ∃ reading, node.ReadsWhole reading ∧ reading.texts = []

mutual

/-- Every group in which the reading takes a text is read up to nodes that can do without texts. -/
def PathNode.Reaches : PathNode → Reading → Prop
  | .alternation left _, .branch .left inner => ReachesPath left inner
  | .alternation _ right, .branch .right inner => ReachesPath right inner
  | .optional group, .group inner => textsOf inner = [] ∨ ReachesPath group inner
  | _, _ => True

def ReachesPath : List PathNode → List Reading → Prop
  | [], _ => True
  | node :: nodes, [] => node.Omittable ∧ ReachesPath nodes []
  | node :: nodes, reading :: readings => node.Reaches reading ∧ ReachesPath nodes readings

end

/-- There is a whole reading with the same texts, which binds the same. -/
def PathNode.CanFinish (node : PathNode) (reading : Reading) : Prop :=
  ∃ whole, node.ReadsWhole whole ∧ whole.texts = reading.texts ∧ whole.bindings = reading.bindings

def CanFinishPath (nodes : List PathNode) (readings : List Reading) : Prop :=
  ∃ whole, ReadsWholePath nodes whole ∧ textsOf whole = textsOf readings ∧
    bindingsOf whole = bindingsOf readings

theorem PathNode.ReadsWhole.canFinish {node : PathNode} {reading : Reading}
    (h : node.ReadsWhole reading) : node.CanFinish reading := ⟨reading, h, rfl, rfl⟩

theorem CanFinishPath.cons {node : PathNode} {nodes : List PathNode} {reading : Reading}
    {readings : List Reading} (hn : node.CanFinish reading) (hs : CanFinishPath nodes readings) :
    CanFinishPath (node :: nodes) (reading :: readings) := by
  obtain ⟨first, hf, htexts, hbindings⟩ := hn
  obtain ⟨others, ho, hothers, hbound⟩ := hs
  refine ⟨first :: others, ReadsWholePath.cons hf ho, ?_, ?_⟩
  · rw [textsOf, textsOf, htexts, hothers]
  · rw [bindingsOf, bindingsOf, hbindings, hbound]

/-- Nodes that can do without texts are read without any. -/
theorem CanFinishPath.omit {node : PathNode} {nodes : List PathNode} (hn : node.Omittable)
    (hs : CanFinishPath nodes []) : CanFinishPath (node :: nodes) [] := by
  obtain ⟨first, hf, htexts⟩ := hn
  obtain ⟨others, ho, hothers, hbound⟩ := hs
  refine ⟨first :: others, ReadsWholePath.cons hf ho, ?_, ?_⟩
  · show first.texts ++ textsOf others = []
    rw [htexts, hothers]
    rfl
  · show first.bindings ++ bindingsOf others = .empty
    rw [first.bindings_of_texts htexts, hbound]
    rfl

/-- A group without texts is left out. -/
theorem canFinish_group {group : List PathNode} {inner : List Reading}
    (h : textsOf inner = [] ∨ CanFinishPath group inner) :
    (PathNode.optional group).CanFinish (.group inner) := by
  rcases h with hnone | ⟨whole, hw, ht, hb⟩
  · exact ⟨.absent, fun after => .absent group after, hnone.symm,
      (bindingsOf_of_texts inner hnone).symm⟩
  · exact ⟨.group whole, fun after => .whole (hw after), ht, hb⟩

theorem ReadsPath.take_length {nodes : List PathNode} {readings : List Reading}
    {rest : List String} (h : ReadsPath nodes readings rest) :
    ReadsPath (nodes.take nodes.length) readings rest := by rwa [List.take_length]

mutual

theorem PathNode.canFinish : (node : PathNode) → {reading : Reading} → {rest : List String} →
    node.Reads reading rest → node.Reaches reading → node.CanFinish reading
  | .literal text, _, _, h, _ => by
    cases h with
    | literal => exact PathNode.ReadsWhole.canFinish fun after => .literal text after
  | .parameter p, _, _, h, _ => by
    cases h with
    | parameter ha => exact PathNode.ReadsWhole.canFinish fun after => .parameter ha after
  | .alternation left right, _, _, h, hr => by
    cases h with
    | left h =>
      obtain ⟨whole, hw, ht, hb⟩ := canFinishPath left h.take_length hr
      exact ⟨.branch .left whole, fun after => .left (hw after), ht, hb⟩
    | right h =>
      obtain ⟨whole, hw, ht, hb⟩ := canFinishPath right h.take_length hr
      exact ⟨.branch .right whole, fun after => .right (hw after), ht, hb⟩
  | .optional group, _, _, h, hr => by
    cases h with
    | absent => exact PathNode.ReadsWhole.canFinish fun after => .absent group after
    | whole h => exact canFinish_group (Or.imp_right (canFinishPath group h.take_length) hr)
    | initial _ h => exact canFinish_group (Or.imp_right (canFinishPath group h) hr)
  | .wildcard, _, _, h, _ => by
    cases h with
    | wildcard hne => exact PathNode.ReadsWhole.canFinish fun after => .wildcard hne after

/-- Nodes of which the first ones were read can be read to the end. -/
theorem canFinishPath : (nodes : List PathNode) → {readings : List Reading} →
    {rest : List String} → {k : Nat} → ReadsPath (nodes.take k) readings rest →
    ReachesPath nodes readings → CanFinishPath nodes readings
  | [], readings, rest, k, h, _ => by
    rw [List.take_nil] at h
    cases h
    exact ⟨[], readsWholePath_nil, rfl, rfl⟩
  | node :: nodes, readings, rest, 0, h, hr => by
    cases h
    exact .omit hr.1 (canFinishPath nodes (k := 0) (.nil rest) hr.2)
  | node :: nodes, readings, rest, k + 1, h, hr => by
    cases h with
    | cons hn hs => exact .cons (node.canFinish hn hr.1) (canFinishPath nodes hs hr.2)

end

/-! ## Pairs of a query -/

/-- The pairs that no item takes. -/
def pairsLeft : List QueryItem → List (String × String) → Option (List (String × String))
  | [], pairs => some pairs
  | item :: items, pairs => (takeItem pairs item).bind fun taken => pairsLeft items taken.2

/-- What an item picks is rendered again from one value. -/
theorem QueryItem.Picks.exists_value {item : QueryItem} {pairs others : List (String × String)}
    {picked : List (Parameter × String)} (h : item.Picks pairs picked others) :
    ∃ value, item.Fits value (picked.map pairOf) ∧ item.chosen value = picked ∧
      pairs.Perm (picked.map pairOf ++ others) := by
  cases h with
  | @required p _ _ value h =>
    exact ⟨.scalar (.text value), .required h.accepts, rfl, h.perm⟩
  | @optional p _ _ value h =>
    exact ⟨.present [.scalar (.text value)], .present h.accepts, rfl, h.perm⟩
  | omitted h => exact ⟨.absent, .absent _, rfl, .refl _⟩
  | @first _ _ _ _ value h =>
    exact ⟨.branch .left [.scalar (.text value)], .first h.accepts, rfl, h.perm⟩
  | @second _ _ _ _ value _ h =>
    exact ⟨.branch .right [.scalar (.text value)], .second h.accepts, rfl, h.perm⟩

/-- What the items pick is rendered again. The values choose what was picked, and with the pairs
that are left these are all pairs. -/
theorem exists_values_of_pairsLeft {items : List QueryItem} {pairs left : List (String × String)}
    (h : pairsLeft items pairs = some left) :
    ∃ values picked, PicksAll items pairs picked ∧
      FitsQuery items values (picked.map pairOf) ∧
      chosenQuery items values = picked ∧ pairs.Perm (picked.map pairOf ++ left) := by
  induction items generalizing pairs with
  | nil =>
    obtain rfl := Option.some.inj h
    exact ⟨[], [], .nil pairs, .nil, rfl, .refl _⟩
  | cons item items ih =>
    obtain ⟨⟨bound, others⟩, ht, hleft⟩ := Option.bind_eq_some_iff.mp h
    obtain ⟨picked, hp, -⟩ := takeItem_eq_some_iff.mp ht
    obtain ⟨value, hf, hc, hperm⟩ := hp.exists_value
    obtain ⟨values, more, hm, hfs, hcs, hperms⟩ := ih hleft
    refine ⟨value :: values, picked ++ more, .cons hp hm, ?_, ?_, ?_⟩
    · rw [List.map_append]
      exact .cons hf hfs
    · rw [← hc, ← hcs]
      rfl
    · rw [List.map_append, List.append_assoc]
      exact hperm.trans (hperms.append_left _)

/-! ## Routes -/

/-- The payload writes the components again: the texts that count in their order, and the pairs in
any order. -/
def Route.Rewrites (r : Route) (values : List Value) (c : Components) : Prop :=
  ∃ made, r.render values = .ok made ∧
    made.isReordering ⟨c.effectivePath, c.query⟩ = true

/-- What is written is read without a group that is cut short. -/
theorem Route.Rewrites.exists_readsWhole {r : Route} {values : List Value} {c : Components}
    (h : r.Rewrites values c) :
    ∃ readings, ReadsWholePath r.path readings ∧ textsOf readings = c.effectivePath := by
  obtain ⟨made, hr, hsame⟩ := h
  rw [Components.isReordering, Bool.and_eq_true, beq_iff_eq] at hsame
  refine ⟨r.chosenReadings values, Route.readsPath_chosen hr, ?_⟩
  rw [← (Route.render_eq hr).1]
  exact hsame.1

section Matched

variable {r : Route} {c : Components} (hw : WildcardFreePath r.path)
  (hq : pairsLeft r.query c.query = some [])

include hw hq

/-- A whole reading of the texts that count, and what the items pick, make a payload. -/
theorem exists_values_of_readsWhole {readings : List Reading}
    (hr : ReadsWholePath r.path readings) (ht : textsOf readings = c.effectivePath) :
    ∃ values picked, r.Rewrites values c ∧ PicksAll r.query c.query picked ∧
      r.rendered values = bindingsOf readings ++ bindAll picked := by
  obtain ⟨values, picked, hp, hfits, hchosen, hperm⟩ := exists_values_of_pairsLeft hq
  have hrender := renderQuery_of_fits hfits []
  have hne : "" ∉ textsOf readings := by
    rw [ht, Components.effectivePath, List.mem_filter]
    simp
  obtain ⟨hpath, hchoices⟩ := rerendersPath (hr [""]) (List.cons_ne_nil _ _) hw hne values
  rw [List.append_nil] at hperm hrender
  refine ⟨payloadOf readings ++ values, picked, ⟨⟨textsOf readings, picked.map pairOf⟩, ?_, ?_⟩,
    hp, ?_⟩
  · rw [Route.render, hpath]
    show (renderQuery r.query values >>= _) = _
    rw [hrender]
    rfl
  · simp only [Components.isReordering, ht, beq_self_eq_true, Bool.true_and, List.isPerm_iff]
    exact hperm.symm
  · rw [Route.rendered, Route.chosenReadings, Route.chosenValues, hchoices, hchosen]

/-- **Matching and rendering.** Let a route without wildcards match components and take all their
pairs. A payload writes the components again exactly if they can be read with every group left out
or taken whole. There is one, and it gives the named parameters just what the match bound, if in
every group that it began the match stopped only before nodes that can do without texts. -/
theorem rewrites_iff_of_match? {b : Bindings} (hm : r.match? c = some b) :
    ((∃ values, r.Rewrites values c) ↔
      ∃ readings, ReadsWholePath r.path readings ∧ textsOf readings = c.effectivePath) ∧
    ∀ readings picked, r.Settles c.effectivePath c.query readings picked →
      ReachesPath r.path readings → ∃ values, r.Rewrites values c ∧ r.rendered values = b := by
  refine ⟨⟨fun ⟨values, h⟩ => h.exists_readsWhole, fun ⟨readings, hr, ht⟩ => ?_⟩, ?_⟩
  · obtain ⟨values, picked, h, -, -⟩ := exists_values_of_readsWhole hw hq hr ht
    exact ⟨values, h⟩
  · intro readings picked hs hreach
    have hread := (readsWithin_of_prefersPath r.path hs.path).all
    obtain ⟨whole, hwhole, htexts, hbindings⟩ := canFinishPath r.path hread.take_length hreach
    obtain ⟨values, taken, h, ht, hrendered⟩ :=
      exists_values_of_readsWhole hw hq hwhole (htexts.trans hs.texts)
    have hb := Route.match?_eq_some_iff.mpr ⟨readings, taken, ⟨hs.path, hs.texts, ht⟩, rfl⟩
    rw [hm] at hb
    exact ⟨values, h, by rw [hrendered, hbindings, Option.some.inj hb]⟩

end Matched

/-- The route of `(recipe|recipes/archive)/:int(id)/(details/(full))?q=:int&(:utm|:tmp)`. -/
def archive : Route :=
  Route.of
    [.alternation [.literal "recipe"] [.literal "recipes", .literal "archive"],
      .parameter (.typed .int "id"), .optional [.literal "details", .optional [.literal "full"]]]
    [.required (.typed .int "q"), .alternation (.untyped "utm") (.untyped "tmp")]

theorem archive_path : archive.path =
    [.alternation [.literal "recipe"] [.literal "recipes", .literal "archive"],
      .parameter (.typed .int "id"),
      .optional [.literal "details", .optional [.literal "full"]]] := by
  simp [archive, Route.of, normalizePath, PathNode.normalize?, PathNode.ofGroup?,
    PathNode.ofBranches?]

/-- The second branch is taken, the inner group is left out, and numbers keep their spelling. -/
theorem rewrites_iff_of_match?_archive :
    WildcardFreePath archive.path ∧
      pairsLeft archive.query [("tmp", "x"), ("q", "07")] = some [] ∧
      archive.match? ⟨["recipes", "archive", "", "+7", "details"], [("tmp", "x"), ("q", "07")]⟩ =
        some ⟨[(.typed .int "id", "+7"), (.typed .int "q", "07"), (.untyped "tmp", "x")]⟩ ∧
      ∃ values, archive.Rewrites values
        ⟨["recipes", "archive", "", "+7", "details"], [("tmp", "x"), ("q", "07")]⟩ := by
  have hw : WildcardFreePath archive.path := by
    simp [archive_path, WildcardFreePath, PathNode.WildcardFree]
  have hq : pairsLeft archive.query [("tmp", "x"), ("q", "07")] = some [] := by decide +kernel
  have hm : archive.match?
      ⟨["recipes", "archive", "", "+7", "details"], [("tmp", "x"), ("q", "07")]⟩ =
        some ⟨[(.typed .int "id", "+7"), (.typed .int "q", "07"), (.untyped "tmp", "x")]⟩ := by
    decide +kernel
  refine ⟨hw, hq, hm, (rewrites_iff_of_match? hw hq hm).1.mpr ⟨[.branch .right
    [.literal "recipes", .literal "archive"], .value (.typed .int "id") "+7",
    .group [.literal "details", .absent]], fun after => ?_, by decide +kernel⟩⟩
  rw [archive_path]
  refine .cons (.right ?_) (.cons (.parameter (by decide +kernel) _) (.cons (.whole ?_) (.nil _)))
  · exact .cons (.literal _ _) (.cons (.literal _ _) (.nil _))
  · exact .cons (.literal _ _) (.cons (.absent _ _) (.nil _))

/-- The route of `recipe/(details/:id)`. -/
def recipeWithDetails : Route :=
  Route.of [.literal "recipe", .optional [.literal "details", .parameter (.untyped "id")]] []

theorem recipeWithDetails_path : recipeWithDetails.path =
    [.literal "recipe", .optional [.literal "details", .parameter (.untyped "id")]] := by
  simp [recipeWithDetails, Route.of, normalizePath, PathNode.normalize?, PathNode.ofGroup?]

/-- The group matches without its parameter, but is not rendered without it. -/
theorem not_rewrites_cut_short :
    WildcardFreePath recipeWithDetails.path ∧
      recipeWithDetails.match? ⟨["recipe", "details"], []⟩ = some .empty ∧
      pairsLeft recipeWithDetails.query [] = some [] ∧
      ∀ values, ¬ recipeWithDetails.Rewrites values ⟨["recipe", "details"], []⟩ := by
  refine ⟨?_, by decide +kernel, rfl, fun values h => ?_⟩
  · rw [recipeWithDetails_path]
    exact ⟨trivial, ⟨trivial, trivial, trivial⟩, trivial⟩
  · obtain ⟨readings, hr, ht⟩ := h.exists_readsWhole
    have hpath := hr [""]
    have htexts : textsOf readings = ["recipe", "details"] := ht
    rw [recipeWithDetails_path] at hpath
    -- The group is left out, or a text for the parameter follows.
    cases hpath with
    | cons hrecipe hpath =>
      cases hpath with
      | cons hgroup hnil =>
        cases hnil
        cases hrecipe
        cases hgroup with
        | absent => simp [textsOf, Reading.texts] at htexts
        | whole hdetails =>
          cases hdetails with
          | cons hdetails hid =>
            cases hdetails
            cases hid with
            | cons hid hnil =>
              cases hnil
              cases hid
              simp [textsOf, Reading.texts] at htexts

end DeepLink
