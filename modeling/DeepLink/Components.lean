import DeepLink.Url

/-!
# Components of a URL

What routes match and make: the texts of a path, the host first if there is one, and the pairs of a
query, all of them decoded. The components of a URL have its host, its path segments that are not
empty, and the pairs of its query. The URL of components has the first text of the path as its host.
-/

namespace DeepLink

structure Components where
  path : List String
  query : List (String × String)
  deriving DecidableEq

namespace Components

/-- Same path, and the same pairs in any order. -/
def isReordering (a b : Components) : Bool :=
  a.path == b.path && a.query.isPerm b.query

/-- The texts of the path that count: an empty one and a lone slash do not. -/
def effectivePath (c : Components) : List String :=
  c.path.filter fun text => text ≠ "" ∧ text ≠ "/"

/-! ## In URLs -/

def ofUrl (u : Url) : Components :=
  { path := ((u.host :: u.segments).filter (· ≠ [])).map Percent.decodeText
    query := Form.decode u.query }

/-- The components of a text that is a URL. -/
def ofText? (toAscii? : Url.ToAscii) (input : String) : Except UrlError Components :=
  (Url.ofText? toAscii? input).map ofUrl

/-- The texts of a path with slashes between them. -/
def encodePath : List String → List Char
  | [] => []
  | [text] => Percent.encode Percent.isUnreserved text.toList
  | text :: next :: rest =>
    Percent.encode Percent.isUnreserved text.toList ++ '/' :: encodePath (next :: rest)

/-- The URL with a scheme. -/
def toUrl (c : Components) (scheme : String) : String :=
  let query := if c.query = [] then [] else '?' :: Form.encode c.query
  scheme ++ "://" ++ String.ofList (encodePath c.path ++ query)

end Components

end DeepLink
