import DeepLink.Components
import DeepLink.Matching
import DeepLink.Rendering
import DeepLink.Template

/-!
# Routers

A router keeps routes with a target each, in the order in which they were added, and may be bound to
a URL scheme. The routes that match are offered to a handler, one after the other, until it accepts
one; without a handler the first is taken.

An expectation is about one route and a URL: that they match with certain bindings and no others, or
that they do not match. It fails as well if there is no such route or URL.
-/

namespace DeepLink

structure Router (α : Type) where
  scheme? : Option String
  routes : List (Route × α)

/-- A route that matches, with its target and what it binds. -/
structure Found (α : Type) where
  route : Route
  target : α
  bindings : Bindings

namespace Router

variable {α β : Type}

def empty : Router α := ⟨none, []⟩

def add (r : Router α) (route : Route) (target : α) : Router α :=
  { r with routes := r.routes ++ [(route, target)] }

def addOfTemplate? (r : Router α) (template : String) (target : α) :
    Except TemplateError (Router α) :=
  (Route.ofTemplate? template).map fun route => r.add route target

def size (r : Router α) : Nat := r.routes.length

/-- What a route with its target offers for components. -/
def offer? (c : Components) (entry : Route × α) : Option (Found α) :=
  (entry.1.match? c).map fun bindings => ⟨entry.1, entry.2, bindings⟩

/-- Offers matching routes to the handler until it accepts one. -/
def offerEach {m : Type → Type} [Monad m] (c : Components) (handler : Found α → m (Option β)) :
    List (Route × α) → m (Option β)
  | [] => return none
  | entry :: rest =>
    match offer? c entry with
    | none => offerEach c handler rest
    | some found => do
      match ← handler found with
      | some accepted => return some accepted
      | none => offerEach c handler rest

/-- The first answer with which the handler accepts a matching route. -/
def offerTo {m : Type → Type} [Monad m] (r : Router α) (c : Components)
    (handler : Found α → m (Option β)) : m (Option β) :=
  offerEach c handler r.routes

/-- The first matching route. -/
def find? (r : Router α) (c : Components) : Option (Found α) :=
  Id.run (r.offerTo c fun found => pure (some found))

/-- Whether the router answers URLs with a scheme. -/
def accepts (r : Router α) (scheme : String) : Bool :=
  match r.scheme? with
  | some own => own == scheme
  | none => true

/-- The first route that matches a URL, if it has the scheme of the router. -/
def findForUrl? (r : Router α) (toAscii? : Url.ToAscii) (input : String) :
    Except UrlError (Option (Found α)) :=
  (Url.ofText? toAscii? input).map fun url =>
    if r.accepts url.scheme then r.find? (.ofUrl url) else none

/-- The URL that a route makes of a payload. Without a scheme it starts with the slashes. -/
def renderUrl (r : Router α) (route : Route) (values : List Value) : Except RenderError String :=
  (route.render values).map fun components =>
    match r.scheme? with
    | some scheme => components.toUrl scheme
    | none => String.ofList ((components.toUrl "").toList.dropWhile (· = ':'))

/-- The scheme and the routes, a line each. -/
def text (r : Router α) : String :=
  let title := match r.scheme? with
    | some scheme => "Router (" ++ scheme ++ "://):\n"
    | none => "Router:\n"
  title ++ String.join (r.routes.map fun entry => "  " ++ entry.1.text ++ "\n")

end Router

/-! ## Expectations -/

section Expectations

variable (toAscii? : Url.ToAscii)

/-- What a template binds in a URL; nothing if the two do not match. -/
def matchTemplate? (template url : String) : Option (Option Bindings) :=
  match Route.ofTemplate? template, Components.ofText? toAscii? url with
  | .ok route, .ok components => some (route.match? components)
  | _, _ => none

/-- The bindings of a match that binds what is expected. -/
def expectMatch? (template url : String) (expected : Bindings) : Option Bindings :=
  match matchTemplate? toAscii? template url with
  | some (some found) => if found.sorted = expected.sorted then some found else none
  | _ => none

/-- Whether there is no match. -/
def expectNoMatch (template url : String) : Bool :=
  match matchTemplate? toAscii? template url with
  | some none => true
  | _ => false

end Expectations

end DeepLink
