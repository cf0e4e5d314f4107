import DeepLink.Router

/-!
# What a router offers

Routes are registered one after the other, and a template that cannot be read leaves the router as
it was (`registerAll_eq`). For components, the candidates of a router are its routes that match, in
their order, each with what it binds (`offers_candidates`). They are offered to a handler, which may
keep a state of its own, up to the first one that it accepts: one lemma says what comes of the first
candidate (`offering_cons`), and by induction a run serves all of them (`exists_serves_offering`).
Routes registered later stand behind the others, so they are offered only when all others were
declined (`offering_append`).
-/

namespace DeepLink

variable {α β σ : Type}

/-! ## Registrations -/

/-- What is registered with a router: a route, or a template for one. -/
inductive Registration (α : Type)
  | ofRoute (route : Route) (target : α)
  | ofTemplate (template : String) (target : α)

/-- The route that is added with its target; a template that cannot be read adds none. -/
def Registration.added? : Registration α → Option (Route × α)
  | .ofRoute route target => some (route, target)
  | .ofTemplate template target => (Route.ofTemplate? template).toOption.map (·, target)

namespace Router

/-- The router after a registration that may have failed. -/
def register (r : Router α) : Registration α → Router α
  | .ofRoute route target => r.add route target
  | .ofTemplate template target => (r.addOfTemplate? template target).toOption.getD r

def registerAll (r : Router α) (history : List (Registration α)) : Router α :=
  history.foldl register r

theorem register_of_added? (r : Router α) {registration : Registration α} {entry : Route × α}
    (h : registration.added? = some entry) :
    r.register registration = { r with routes := r.routes ++ [entry] } := by
  cases registration with
  | ofRoute route target =>
    obtain rfl := Option.some.inj h
    rfl
  | ofTemplate template target =>
    rw [register, addOfTemplate?]
    cases ht : Route.ofTemplate? template with
    | error fault =>
      rw [Registration.added?, ht] at h
      cases h
    | ok read =>
      rw [Registration.added?, ht] at h
      obtain rfl := Option.some.inj h
      rfl

/-- A template that cannot be read leaves the router as it was. -/
theorem register_of_error (r : Router α) {template : String} (target : α) {fault : TemplateError}
    (h : Route.ofTemplate? template = .error fault) :
    r.addOfTemplate? template target = .error fault ∧
      r.register (.ofTemplate template target) = r := by
  have hfailed : r.addOfTemplate? template target = .error fault := by
    rw [addOfTemplate?, h]
    rfl
  refine ⟨hfailed, ?_⟩
  rw [register, hfailed]
  rfl

theorem register_of_added?_eq_none (r : Router α) {registration : Registration α}
    (h : registration.added? = none) : r.register registration = r := by
  cases registration with
  | ofRoute route target => cases h
  | ofTemplate template target =>
    cases ht : Route.ofTemplate? template with
    | error fault => exact (r.register_of_error target ht).2
    | ok read =>
      rw [Registration.added?, ht] at h
      cases h

/-- A router has its routes in the order in which they were registered. -/
theorem registerAll_eq (r : Router α) (history : List (Registration α)) :
    r.registerAll history =
      { r with routes := r.routes ++ history.filterMap Registration.added? } := by
  induction history generalizing r with
  | nil =>
    show r = { r with routes := r.routes ++ [] }
    rw [List.append_nil]
  | cons registration history ih =>
    show (r.register registration).registerAll history = _
    rw [ih, List.filterMap_cons]
    cases he : registration.added? with
    | none => rw [register_of_added?_eq_none r he]
    | some entry =>
      rw [register_of_added? r he]
      show Router.mk _ (r.routes ++ [entry] ++ _) = _
      rw [List.append_assoc]
      rfl

/-! ## Candidates -/

/-- Of the routes, those that match the components are offered, in their order and with what each of
them binds; the others are passed over. -/
inductive Offers (c : Components) : List (Route × α) → List (Found α) → Prop
  | nil : Offers c [] []
  | pass {route : Route} {target : α} {routes : List (Route × α)} {offers : List (Found α)}
    (h : route.match? c = none) (hs : Offers c routes offers) :
    Offers c ((route, target) :: routes) offers
  | offer {route : Route} {target : α} {bindings : Bindings} {routes : List (Route × α)}
    {offers : List (Found α)} (h : route.match? c = some bindings) (hs : Offers c routes offers) :
    Offers c ((route, target) :: routes) (⟨route, target, bindings⟩ :: offers)

/-- What the routes offer for components, in their order. -/
def candidates (r : Router α) (c : Components) : List (Found α) := r.routes.filterMap (offer? c)

theorem offers_filterMap (c : Components) (routes : List (Route × α)) :
    Offers c routes (routes.filterMap (offer? c)) := by
  induction routes with
  | nil => exact .nil
  | cons entry routes ih =>
    obtain ⟨route, target⟩ := entry
    rw [List.filterMap_cons]
    cases hm : route.match? c with
    | none =>
      have hnone : offer? c (route, target) = none := Option.map_eq_none_iff.mpr hm
      rw [hnone]
      exact .pass hm ih
    | some bindings =>
      have hsome : offer? c (route, target) = some ⟨route, target, bindings⟩ :=
        Option.map_eq_some_iff.mpr ⟨bindings, hm, rfl⟩
      rw [hsome]
      exact .offer hm ih

theorem offers_candidates (r : Router α) (c : Components) : Offers c r.routes (r.candidates c) :=
  offers_filterMap c r.routes

/-- Routes that do not match are passed over. -/
theorem offerTo_eq_findSomeM? {m : Type → Type} [Monad m] (r : Router α) (c : Components)
    (handler : Found α → m (Option β)) :
    r.offerTo c handler = (r.candidates c).findSomeM? handler := by
  obtain ⟨scheme?, routes⟩ := r
  show offerEach c handler routes = (routes.filterMap (offer? c)).findSomeM? handler
  induction routes with
  | nil => rfl
  | cons entry routes ih =>
    rw [offerEach, List.filterMap_cons]
    cases offer? c entry with
    | none => exact ih
    | some found =>
      rw [List.findSomeM?_cons, ← ih]
      rfl

theorem find?_eq_head? (r : Router α) (c : Components) : r.find? c = (r.candidates c).head? := by
  rw [find?, offerTo_eq_findSomeM?]
  cases r.candidates c with
  | nil => rfl
  | cons found rest => rfl

theorem candidates_registerAll (r : Router α) (later : List (Registration α)) (c : Components) :
    (r.registerAll later).candidates c =
      r.candidates c ++ (later.filterMap Registration.added?).filterMap (offer? c) := by
  rw [candidates, registerAll_eq]
  exact List.filterMap_append

end Router

/-! ## Offers -/

/-- What comes of offers: the answer, what was offered, and the state of the handler. -/
structure Outcome (α β σ : Type) where
  answer : Option β
  offered : List (Found α)
  state : σ

/-- The handler declines all that it is offered, which takes it from one state to another. -/
inductive Declines (handler : Found α → StateM σ (Option β)) : List (Found α) → σ → σ → Prop
  | nil (s : σ) : Declines handler [] s s
  | cons {found : Found α} {rest : List (Found α)} {s s' s'' : σ}
    (h : (handler found).run s = (none, s')) (hs : Declines handler rest s' s'') :
    Declines handler (found :: rest) s s''

/-- The candidates are offered to the handler in their order, up to the first one it accepts. -/
inductive Serves (handler : Found α → StateM σ (Option β)) (candidates : List (Found α)) (s : σ) :
    Outcome α β σ → Prop
  | declined {s' : σ} (h : Declines handler candidates s s') :
    Serves handler candidates s ⟨none, candidates, s'⟩
  | accepted {before after : List (Found α)} {found : Found α} {s' s'' : σ} {b : β}
    (hc : candidates = before ++ found :: after) (h : Declines handler before s s')
    (ha : (handler found).run s' = (some b, s'')) :
    Serves handler candidates s ⟨some b, before ++ [found], s''⟩

/-- The handler, with a list of what it was offered. -/
def logging (handler : Found α → StateM σ (Option β)) (found : Found α) :
    StateT (List (Found α)) (StateM σ) (Option β) := do
  modify (· ++ [found])
  handler found

def Outcome.ofRun (run : (Option β × List (Found α)) × σ) : Outcome α β σ :=
  ⟨run.1.1, run.1.2, run.2⟩

/-- What comes of offering the routes of a router that match. -/
def Router.serve (r : Router α) (c : Components) (handler : Found α → StateM σ (Option β)) (s : σ) :
    Outcome α β σ := .ofRun (((r.offerTo c (logging handler)).run []).run s)

/-- What comes of offering the candidates, after those in the log. -/
def offering (handler : Found α → StateM σ (Option β)) (candidates log : List (Found α)) (s : σ) :
    Outcome α β σ := .ofRun (((candidates.findSomeM? (logging handler)).run log).run s)

section Offering

variable (handler : Found α → StateM σ (Option β))

/-- The first candidate is accepted, or the handler goes on with the others. -/
theorem offering_cons (found : Found α) (rest log : List (Found α)) (s : σ) :
    offering handler (found :: rest) log s =
      match (handler found).run s with
      | (some b, s') => ⟨some b, log ++ [found], s'⟩
      | (none, s') => offering handler rest (log ++ [found]) s' := by
  have hlog : ((logging handler found).run log).run s =
      ((((handler found).run s).1, log ++ [found]), ((handler found).run s).2) := rfl
  rw [offering, List.findSomeM?_cons, StateT.run_bind, StateT.run_bind, hlog]
  rcases (handler found).run s with ⟨_ | b, s'⟩
  · rfl
  · rfl

theorem Serves.cons {found : Found α} {rest : List (Found α)} {s s' : σ} {o : Outcome α β σ}
    (h : (handler found).run s = (none, s')) (ho : Serves handler rest s' o) :
    Serves handler (found :: rest) s ⟨o.answer, found :: o.offered, o.state⟩ := by
  cases ho with
  | declined hd => exact .declined (.cons h hd)
  | accepted hc hd ha =>
    rw [hc]
    exact .accepted rfl (.cons h hd) ha

/-- A run serves the candidates, and keeps what it offers behind what was offered before. -/
theorem exists_serves_offering (candidates log : List (Found α)) (s : σ) :
    ∃ o, Serves handler candidates s o ∧
      offering handler candidates log s = ⟨o.answer, log ++ o.offered, o.state⟩ := by
  induction candidates generalizing log s with
  | nil =>
    refine ⟨_, .declined (.nil s), ?_⟩
    rw [List.append_nil]
    rfl
  | cons found rest ih =>
    rw [offering_cons]
    rcases hr : (handler found).run s with ⟨_ | b, s'⟩
    · obtain ⟨o, ho, hrest⟩ := ih (log ++ [found]) s'
      refine ⟨_, ho.cons handler hr, ?_⟩
      show offering handler rest (log ++ [found]) s' = _
      rw [hrest, List.append_assoc]
      rfl
    · exact ⟨_, .accepted rfl (.nil s) hr, rfl⟩

/-- More candidates are offered only if none of the first was accepted. -/
theorem offering_append (first more log : List (Found α)) (s : σ) :
    offering handler (first ++ more) log s =
      if (offering handler first log s).answer.isSome then offering handler first log s
      else offering handler more (offering handler first log s).offered
        (offering handler first log s).state := by
  induction first generalizing log s with
  | nil => rfl
  | cons found rest ih =>
    rw [List.cons_append, offering_cons, offering_cons]
    rcases (handler found).run s with ⟨_ | b, s'⟩
    · exact ih (log ++ [found]) s'
    · rfl

/-- What the log keeps does not count. -/
theorem run_findSomeM?_eq (candidates log : List (Found α)) (s : σ) :
    (candidates.findSomeM? handler).run s =
      ((offering handler candidates log s).answer, (offering handler candidates log s).state) := by
  induction candidates generalizing log s with
  | nil => rfl
  | cons found rest ih =>
    rw [List.findSomeM?_cons, StateT.run_bind, offering_cons]
    show (match (handler found).run s with | (reply, s') => _) = _
    rcases (handler found).run s with ⟨_ | b, s'⟩
    · exact ih (log ++ [found]) s'
    · rfl

end Offering

/-! ## Routers -/

section Routers

variable (r : Router α) (c : Components) (handler : Found α → StateM σ (Option β)) (s : σ)

theorem Router.serve_eq_offering :
    r.serve c handler s = offering handler (r.candidates c) [] s := by
  rw [serve, offerTo_eq_findSomeM?, offering]

theorem Router.serves_serve : Serves handler (r.candidates c) s (r.serve c handler s) := by
  obtain ⟨o, ho, he⟩ := exists_serves_offering handler (r.candidates c) [] s
  rw [serve_eq_offering, he]
  exact ho

theorem Router.run_offerTo :
    (r.offerTo c handler).run s = ((r.serve c handler s).answer, (r.serve c handler s).state) := by
  rw [offerTo_eq_findSomeM?, serve_eq_offering, run_findSomeM?_eq handler _ []]

variable (later : List (Registration α))

/-- An answer stands, whatever is registered later. -/
theorem Router.serve_registerAll (h : (r.serve c handler s).answer.isSome = true) :
    (r.registerAll later).serve c handler s = r.serve c handler s := by
  rw [serve_eq_offering] at h
  rw [serve_eq_offering, serve_eq_offering, candidates_registerAll, offering_append, if_pos h]

/-- What was offered is offered again, whatever is registered later. -/
theorem Router.offered_registerAll :
    (r.serve c handler s).offered <+: ((r.registerAll later).serve c handler s).offered := by
  by_cases h : (r.serve c handler s).answer.isSome = true
  · have hsame := serve_registerAll r c handler s later h
    exact ⟨[], by rw [hsame, List.append_nil]⟩
  · rw [serve_eq_offering] at h ⊢
    rw [serve_eq_offering, candidates_registerAll, offering_append, if_neg h]
    obtain ⟨o, -, he⟩ := exists_serves_offering handler
      ((later.filterMap Registration.added?).filterMap (Router.offer? c))
      (offering handler (r.candidates c) [] s).offered
      (offering handler (r.candidates c) [] s).state
    rw [he]
    exact List.prefix_append _ _

theorem Router.find?_registerAll (h : (r.find? c).isSome = true) :
    (r.registerAll later).find? c = r.find? c := by
  rw [find?_eq_head?] at h
  rw [find?_eq_head?, find?_eq_head?, candidates_registerAll, List.head?_append]
  exact Option.or_of_isSome h

/-- **What a router offers.** After any registrations a router has just those routes more that could
be read, and a template that cannot be read leaves it as it was. It offers the routes that match, in
their order and with what each of them binds, up to the first one that the handler accepts, and
gives the answer of the handler; without a handler it gives the first that matches. Whatever is
registered later, an answer stands together with the offers before it, and offers that led to none
are made again. -/
theorem Router.serves_registerAll (history : List (Registration α)) :
    let known := r.registerAll history
    known = { r with routes := r.routes ++ history.filterMap Registration.added? } ∧
    (∀ template target fault, Route.ofTemplate? template = .error fault →
      known.addOfTemplate? template target = .error fault ∧
        known.register (.ofTemplate template target) = known) ∧
    (known.offerTo c handler).run s =
      ((known.serve c handler s).answer, (known.serve c handler s).state) ∧
    Router.Offers c known.routes (known.candidates c) ∧
    Serves handler (known.candidates c) s (known.serve c handler s) ∧
    known.find? c = (known.candidates c).head? ∧
    ((known.serve c handler s).answer.isSome = true →
      (known.registerAll later).serve c handler s = known.serve c handler s) ∧
    (known.serve c handler s).offered <+: ((known.registerAll later).serve c handler s).offered ∧
    ((known.find? c).isSome = true → (known.registerAll later).find? c = known.find? c) := by
  intro known
  exact ⟨r.registerAll_eq history, fun template target _ h => known.register_of_error target h,
    known.run_offerTo c handler s, known.offers_candidates c, known.serves_serve c handler s,
    known.find?_eq_head? c, known.serve_registerAll c handler s later,
    known.offered_registerAll c handler s later, known.find?_registerAll c later⟩

/-- The template that cannot be read leaves no trace, and the handler accepts the second offer. -/
example :
    let r := Router.empty.registerAll
      [.ofRoute (.of [.literal "recipe", .parameter (.typed .int "id")] []) "recipe",
        .ofTemplate "recipe/(" "broken", .ofRoute (.of [.literal "recipe", .wildcard] []) "others"]
    let o := r.serve ⟨["recipe", "42"], []⟩ (fun found => do
      let declined ← getModify (· + 1)
      return if declined = 0 then none else some found.target) 0
    (o.offered.map (·.target), o.answer, o.state) = (["recipe", "others"], some "others", 2) := by
  decide +kernel

end Routers

end DeepLink
