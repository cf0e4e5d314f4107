import DeepLink.Url.Host
import DeepLink.Url.Path

/-!
# URLs

Reading an absolute URL: scheme, host, path segments and query. Spaces and control characters around
the text and tabs and line ends in it are dropped; user, password, port and fragment are read over.

With a special scheme the host is a domain name or an address. Files need no host. With any other
scheme the host is free text, and a path that does not start with a slash has no segments.

Dot segments are resolved. Host and segments are kept percent-encoded. Whatever brings domain names
into ASCII is a parameter (`ToAscii`).
-/

namespace DeepLink

structure Url where
  scheme : String
  host : List Char
  segments : List (List Char)
  query : List Char
  deriving DecidableEq

namespace Url

def isEdge (c : Char) : Bool := c ≤ ' '

/-- The text without the spaces and control characters around it. -/
def trim (input : List Char) : List Char :=
  ((input.dropWhile isEdge).reverse.dropWhile isEdge).reverse

/-- Whether a character ends user, host and port. -/
def endsAuthority (s : SchemeClass) (c : Char) : Bool := isSlash s c || isPathEnd c

/-- The query after a path: from a question mark to the fragment. -/
def queryOf (text : List Char) : List Char :=
  match text.dropWhile (!isPathEnd ·) with
  | '?' :: rest => rest.takeWhile (· ≠ '#')
  | _ => []

/-! ## User, host and port -/

/-- What precedes the last at sign, if there is one, and what follows it. -/
def cutUser (authority : List Char) : Option (List Char) × List Char :=
  let after := (authority.reverse.takeWhile (· ≠ '@')).reverse
  if after.length = authority.length then (none, authority)
  else (some (authority.take (authority.length - after.length - 1)), after)

/-- The host and what follows it, from the first colon outside brackets on. -/
def cutHost (inBrackets : Bool) : List Char → List Char × List Char
  | [] => ([], [])
  | c :: rest =>
    if c = ':' ∧ !inBrackets then ([], c :: rest)
    else
      let inside := if c = '[' then true else if c = ']' then false else inBrackets
      let (host, port) := cutHost inside rest
      (c :: host, port)

def isPort (digits : List Char) : Bool :=
  digits.all Char.isDigit && Decimal.digitsValue digits ≤ 65535

/-- The port after a colon. A backslash ends it even where it is no slash: what follows then belongs
to the path. -/
def cutPort? (text : List Char) : Except UrlError (List Char) :=
  match text with
  | [] => .ok []
  | _ :: port =>
    if isPort (port.takeWhile (· ≠ '\\')) then .ok (port.dropWhile (· ≠ '\\'))
    else .error .invalidPort

section Reading

variable (toAscii? : ToAscii)

/-- The host of an authority, and what is left of the text for the path. `tail` is what follows the
authority. -/
def readAuthority? (s : SchemeClass) (authority tail : List Char) :
    Except UrlError (List Char × List Char) := do
  let (user?, address) := cutUser authority
  if user? = some [] ∧ address = [] ∧ tail ≠ [] then throw .emptyHost
  let (host, port) := cutHost false address
  if s.isSpecial ∧ host = [] then throw .emptyHost
  let host ← if s.isSpecial then domainHost? toAscii? host else freeHost? host
  if host = [] ∧ port ≠ [] then throw .emptyHost
  let rest ← cutPort? port
  let named := user?.any fun user => user ≠ [] ∧ user ≠ [':']
  if host = [] ∧ named then throw .emptyHost
  return (host, rest ++ tail)

/-! ## Whole URLs -/

/-- The URL after the two slashes. -/
def readHosted? (scheme : String) (s : SchemeClass) (text : List Char) : Except UrlError Url := do
  let (host, path) ← readAuthority? toAscii? s (text.takeWhile (!endsAuthority s ·))
    (text.dropWhile (!endsAuthority s ·))
  return ⟨scheme, host, segmentsOf s path, queryOf path⟩

/-- The URL of a file: on a host if its path does not start with a drive. -/
def ofFile (host path : List Char) : Url :=
  let read := Path.ofText .file path
  ⟨"file", if read.onDrive then [] else host, read.segments.reverse, queryOf path⟩

/-- The URL of a file. Its path starts at the first slash after the host, at a drive in the place of
the host, and without a host at the slash itself. `text` holds what does not count too. -/
def readFile? (text : List Char) : Except UrlError Url :=
  match dropBreaks text with
  | a :: b :: rest =>
    if isSlash .file a ∧ isSlash .file b then
      let host := rest.takeWhile (!endsAuthority .file ·)
      let path := afterCounted (2 + host.length) text
      if isDrive host then .ok (ofFile [] (afterCounted 2 text))
      else if host = [] then .ok (ofFile [] path)
      else do
        let domain ← domainHost? toAscii? host
        if domain = "localhost".toList then return ofFile [] path
        else return ofFile domain (dropSlash .file path)
    else .ok (ofFile [] (dropSlash .file text))
  | _ => .ok (ofFile [] (dropSlash .file text))

/-- The URL with a scheme that is not special. -/
def readPlain? (scheme : String) (text : List Char) : Except UrlError Url :=
  match text with
  | '/' :: '/' :: rest => readHosted? toAscii? scheme .plain rest
  | '/' :: path => .ok ⟨scheme, [], segmentsOf .plain ('/' :: path), queryOf path⟩
  | path => .ok ⟨scheme, [], [], queryOf path⟩

/-- Reads an absolute URL. -/
def ofText? (input : String) : Except UrlError Url :=
  let text := trim input.toList
  let counted := dropBreaks text
  match cutScheme? counted with
  | none => .error .relative
  | some (scheme, rest) =>
    match SchemeClass.of scheme with
    | .file => readFile? toAscii? (afterCounted (counted.length - rest.length) text)
    | .special => readHosted? toAscii? scheme .special (rest.dropWhile (isSlash .special))
    | .plain => readPlain? toAscii? scheme rest

end Reading

end Url

end DeepLink
