import DeepLink.CommandLine.Arguments
import DeepLink.RouteFile
import DeepLink.Text
import DeepLink.Yaml.Printing

/-!
# The command line

Three commands: `parse` prints a template in its canonical form or its structure, `match` matches a
URL with a template or a route file, and `render` writes the URL that a template makes of values.

A command is a function of its arguments, of the files it may read and of what brings domain names
into ASCII. It ends with code 0, with code 1 if it fails, or with code 2 if its arguments make no
sense.
-/

namespace DeepLink

/-! ## Routes as documents -/

/-- Nodes and items are records with their kind, and with what they hold as their value. -/
def tagged (kind : String) (value : Json) : Json :=
  .record [("kind", .text kind), ("value", value)]

def Parameter.toJson (p : Parameter) : Json :=
  let kind := match p.kind? with
    | some k => Json.text k.keyword
    | none => Json.null
  .record [("name", .text p.name), ("type", kind)]

mutual

def PathNode.toJson : PathNode → Json
  | .literal text => tagged "literal" (.text text)
  | .parameter p => tagged "param" p.toJson
  | .alternation left right =>
    tagged "alternation" (.list [.list (pathToJson left), .list (pathToJson right)])
  | .optional group => tagged "optional" (.list (pathToJson group))
  | .wildcard => .record [("kind", .text "wildcard")]

def pathToJson : List PathNode → List Json
  | [] => []
  | node :: rest => node.toJson :: pathToJson rest

end

def QueryItem.toJson : QueryItem → Json
  | required p => tagged "required" p.toJson
  | optional p => tagged "optional" p.toJson
  | alternation first second => tagged "alternation" (.list [first.toJson, second.toJson])

def Route.toJson (r : Route) : Json :=
  .record [("path", .list (pathToJson r.path)), ("query", .list (r.query.map QueryItem.toJson))]

namespace CommandLine

inductive Format
  | canonical | json | yaml
  deriving DecidableEq

def Format.ofName? : String → Option Format
  | "canonical" => some canonical
  | "json" => some json
  | "yaml" => some yaml
  | _ => none

inductive Command
  | parse (template : String) (format : Format)
  | matchTemplate (url template : String)
  | matchRoutes (url path : String)
  | render (template values scheme : String)
  | version
  deriving DecidableEq

/-- What a command leaves behind. -/
structure Outcome where
  code : Nat
  stdout : String
  stderr : String
  deriving DecidableEq

/-- The content of a file, or why it cannot be read. -/
abbrev Files := String → Except String String

/-! ## From arguments to commands -/

def formatFlag : Flag := ⟨"format", 'f'⟩
def templateFlag : Flag := ⟨"template", 't'⟩
def routesFlag : Flag := ⟨"routes", 'r'⟩
def valuesFlag : Flag := ⟨"values", 'v'⟩
def schemeFlag : Flag := ⟨"scheme", 's'⟩

def readParse? (arguments : List String) : Option Command := do
  let a ← readArguments? [formatFlag] .empty arguments
  let format ← Format.ofName? ((a.get? formatFlag).getD "canonical")
  match a.positional with
  | [template] => some (.parse template format)
  | _ => none

/-- Either a template or a route file has to be given, and not both. -/
def readMatch? (arguments : List String) : Option Command := do
  let a ← readArguments? [templateFlag, routesFlag] .empty arguments
  match a.positional, a.get? templateFlag, a.get? routesFlag with
  | [url], some template, none => some (.matchTemplate url template)
  | [url], none, some path => some (.matchRoutes url path)
  | _, _, _ => none

def readRender? (arguments : List String) : Option Command := do
  let a ← readArguments? [valuesFlag, schemeFlag] .empty arguments
  let values ← a.get? valuesFlag
  match a.positional with
  | [template] => some (.render template values ((a.get? schemeFlag).getD "app"))
  | _ => none

def isVersion (argument : String) : Bool :=
  argument == "--version" || ['-', 'V'].isPrefixOf argument.toList

def readCommand? : List String → Option Command
  | [] => none
  | first :: rest =>
    match first with
    | "parse" => readParse? rest
    | "match" => readMatch? rest
    | "render" => readRender? rest
    | other => if isVersion other then some .version else none

/-! ## Outcomes -/

def printed (text : String) : Outcome := ⟨0, text, ""⟩

def failed (message : String) : Outcome := ⟨1, "", "Error: " ++ message ++ "\n"⟩

def noMatch : Outcome := ⟨1, "", "no match\n"⟩

def usage : Outcome :=
  ⟨2, "", "Usage: deeper parse TEMPLATE [--format canonical|json|yaml]\n" ++
    "       deeper match URL (--template TEMPLATE | --routes FILE)\n" ++
    "       deeper render TEMPLATE --values JSON [--scheme SCHEME]\n"⟩

/-! ## The commands -/

/-- The text of a route in a format. -/
def formatRoute (r : Route) : Format → String
  | .canonical => r.text
  | .json => r.toJson.pretty 0
  | .yaml => Yaml.print r.toJson

def runParse (template : String) (format : Format) : Outcome :=
  match Route.ofTemplate? template with
  | .error e => failed e.message
  | .ok route => printed (Text.trimEnd (formatRoute route format) ++ "\n")

/-- A line for each binding, in order. -/
def bindingLines (b : Bindings) : String :=
  String.join (b.sorted.map fun (p, value) => "  " ++ p.text ++ " = " ++ value ++ "\n")

def matchLines (r : Route) (b : Bindings) : String := "route: " ++ r.text ++ "\n" ++ bindingLines b

def runMatchTemplate (toAscii? : Url.ToAscii) (url template : String) : Outcome :=
  match Route.ofTemplate? template with
  | .error e => failed e.message
  | .ok route =>
    match Components.ofText? toAscii? url with
    | .error e => failed (e.message url)
    | .ok components =>
      match route.match? components with
      | none => noMatch
      | some bindings => printed (matchLines route bindings)

/-- What follows the last point of a file name that does not start the name. -/
def extension? (path : String) : Option String :=
  let name := (path.toList.reverse.dropWhile (· = '/')).takeWhile (· ≠ '/')
  match name.dropWhile (· ≠ '.') with
  | '.' :: _ :: _ => some (String.ofList (name.takeWhile (· ≠ '.')).reverse)
  | _ => none

def isJsonPath (path : String) : Bool :=
  (extension? path).any fun e => String.ofList (e.toList.map Char.toLower) = "json"

/-- Reads a route file, in JSON if its name says so and else in YAML. -/
def loadRoutes (files : Files) (path : String) : Except String RouteFile :=
  match files path with
  | .error reason => .error ("cannot read route file " ++ path ++ ": " ++ reason)
  | .ok text =>
    if isJsonPath path then
      match RouteFile.ofJsonText? text with
      | some f => .ok f
      | none => .error "invalid JSON route file: it does not list routes"
    else
      match RouteFile.ofYamlText? text with
      | some f => .ok f
      | none => .error "invalid YAML route file: it does not list routes"

/-- Matches a URL with the routes of a file. -/
def matchRouteFile (toAscii? : Url.ToAscii) (url : String) (file : RouteFile) : Outcome :=
  match file.router with
  | .error e => failed e.message
  | .ok router =>
    match router.findForUrl? toAscii? url with
    | .error e => failed (e.message url)
    | .ok none => noMatch
    | .ok (some found) =>
      printed ("name: " ++ found.target ++ "\n" ++ matchLines found.route found.bindings)

def runMatchRoutes (toAscii? : Url.ToAscii) (files : Files) (url path : String) : Outcome :=
  match loadRoutes files path with
  | .error message => failed message
  | .ok file => matchRouteFile toAscii? url file

def runRender (template values scheme : String) : Outcome :=
  match Route.ofTemplate? template with
  | .error e => failed e.message
  | .ok route =>
    match Json.ofText? values with
    | none => failed "the values are no JSON text"
    | some json =>
      match payloadOfJson? json with
      | .error e => failed e.message
      | .ok payload =>
        match route.render payload with
        | .error e => failed e.message
        | .ok components => printed (components.toUrl scheme ++ "\n")

def Command.run (toAscii? : Url.ToAscii) (files : Files) : Command → Outcome
  | parse template format => runParse template format
  | matchTemplate url template => runMatchTemplate toAscii? url template
  | matchRoutes url path => runMatchRoutes toAscii? files url path
  | render template values scheme => runRender template values scheme
  | version => printed "deeper 0.1.0\n"

/-- What the command line does. -/
def run (toAscii? : Url.ToAscii) (files : Files) (arguments : List String) : Outcome :=
  match readCommand? arguments with
  | some command => command.run toAscii? files
  | none => usage

/-- The file that a command line reads. -/
def fileOf? (arguments : List String) : Option String :=
  match readCommand? arguments with
  | some (.matchRoutes _ path) => some path
  | _ => none

end CommandLine

end DeepLink
