import DeepLink.Json.Reading
import DeepLink.Router
import DeepLink.Yaml.Plain
import DeepLink.Yaml.Reading

/-!
# Route files

A route file names templates, and may name the URL scheme they are for. It is a record with the
members `scheme` and `routes`, which may both be left out; each route is a record with the members
`name` and `template`, which may not. Members with other names are ignored, and repeating one of
these is refused.

In JSON a record may also be written as a list of its members in order. In YAML any scalar is a
text, and an empty one is an empty list or record.
-/

namespace DeepLink

structure RouteEntry where
  name : String
  template : String
  deriving DecidableEq

structure RouteFile where
  scheme? : Option String
  routes : List RouteEntry
  deriving DecidableEq

namespace RouteFile

/-- The value of a member that may occur once: `none` if it occurs more often. -/
def single? {α β : Type} [DecidableEq α] (name : α) (members : List (α × β)) :
    Option (Option β) :=
  match members.filter (·.1 = name) with
  | [] => some none
  | [(_, value)] => some (some value)
  | _ => none

/-! ## Route files in JSON -/

section Json

open Json (Document Glyph)

/-- The members of a record with their keys as texts. -/
def keyed? : List (List Glyph × Document) → Option (List (String × Document))
  | [] => some []
  | (key, value) :: rest => do
    let key ← Json.text? key
    let more ← keyed? rest
    return (key, value) :: more

def textOfJson? : Document → Option String
  | .text glyphs => Json.text? glyphs
  | _ => none

def entryOf? (name template : Document) : Option RouteEntry := do
  let name ← textOfJson? name
  let template ← textOfJson? template
  return ⟨name, template⟩

def entryOfJson? : Document → Option RouteEntry
  | .record members => do
    let members ← keyed? members
    let name ← ← single? "name" members
    let template ← ← single? "template" members
    entryOf? name template
  | .list [name, template] => entryOf? name template
  | _ => none

def schemeOfJson? : Option Document → Option (Option String)
  | none => some none
  | some .null => some none
  | some d => (textOfJson? d).map some

def routesOfJson? : Option Document → Option (List RouteEntry)
  | none => some []
  | some (.list items) => items.mapM entryOfJson?
  | some _ => none

def ofParts? (scheme routes : Option Document) : Option RouteFile := do
  let scheme ← schemeOfJson? scheme
  let routes ← routesOfJson? routes
  return ⟨scheme, routes⟩

def ofDocument? : Document → Option RouteFile
  | .record members => do
    let members ← keyed? members
    let scheme ← single? "scheme" members
    let routes ← single? "routes" members
    ofParts? scheme routes
  | .list [] => ofParts? none none
  | .list [scheme] => ofParts? scheme none
  | .list [scheme, routes] => ofParts? scheme routes
  | _ => none

/-- Reads a route file written in JSON. -/
def ofJsonText? (text : String) : Option RouteFile := (Document.ofText? text).bind ofDocument?

end Json

/-! ## Route files in YAML -/

section Yaml

open Yaml (Document isNullWord)

def textOfYaml? (d : Document) (y : Yaml) : Option String :=
  match d.resolve y with
  | .scalar _ _ text => some text
  | _ => none

/-- A text that may be left out or written as null. What is tagged as null has to be null. -/
def schemeOfYaml? (d : Document) (y : Yaml) : Option (Option String) :=
  match d.resolve y with
  | .scalar true none text => some (if text = "" ∨ isNullWord text then none else some text)
  | .scalar true (some "tag:yaml.org,2002:null") text =>
    if isNullWord text then some none else none
  | .scalar _ _ text => some (some text)
  | _ => none

def membersOfYaml? (d : Document) (y : Yaml) : Option (List (String × Yaml)) :=
  match d.resolve y with
  | .record members => members.mapM fun (key, value) => (textOfYaml? d key).map (·, value)
  | .scalar true _ "" => some []
  | _ => none

def itemsOfYaml? (d : Document) (y : Yaml) : Option (List Yaml) :=
  match d.resolve y with
  | .list items => some items
  | .scalar true _ "" => some []
  | _ => none

def entryOfYaml? (d : Document) (y : Yaml) : Option RouteEntry := do
  let members ← membersOfYaml? d y
  let name ← ← single? "name" members
  let template ← ← single? "template" members
  return ⟨← textOfYaml? d name, ← textOfYaml? d template⟩

def routesOfYaml? (d : Document) (y : Yaml) : Option (List RouteEntry) :=
  (itemsOfYaml? d y).bind fun items => items.mapM (entryOfYaml? d)

def ofYaml? (d : Document) : Option RouteFile := do
  let members ← membersOfYaml? d d.value
  let scheme ← ((← single? "scheme" members).map (schemeOfYaml? d)).getD (some none)
  let routes ← ((← single? "routes" members).map (routesOfYaml? d)).getD (some [])
  return ⟨scheme, routes⟩

/-- Reads a route file written in YAML. -/
def ofYamlText? (text : String) : Option RouteFile :=
  (Yaml.ofText? text).bind fun d => ofYaml? (d.getD ⟨.missing, []⟩)

end Yaml

end RouteFile

/-! ## The router of a route file -/

/-- Why a route file gives no router. -/
inductive RouteFileError
  | duplicateName (name : String)
  | template (name : String) (fault : TemplateError)
  deriving DecidableEq

def RouteFileError.message : RouteFileError → String
  | duplicateName name => "route `" ++ name ++ "` is defined more than once"
  | template name fault => "route `" ++ name ++ "` has an invalid template: " ++ fault.message

namespace RouteFile

/-- Adds the routes of entries to a router in their order; `seen` are the names before them. -/
def addEntries (seen : List String) (router : Router String) :
    List RouteEntry → Except RouteFileError (Router String)
  | [] => .ok router
  | entry :: rest =>
    if entry.name ∈ seen then .error (.duplicateName entry.name)
    else
      match router.addOfTemplate? entry.template entry.name with
      | .error fault => .error (.template entry.name fault)
      | .ok extended => addEntries (entry.name :: seen) extended rest

/-- The router with the routes of the file, their names as targets. -/
def router (f : RouteFile) : Except RouteFileError (Router String) :=
  addEntries [] ⟨f.scheme?, []⟩ f.routes

end RouteFile

end DeepLink
