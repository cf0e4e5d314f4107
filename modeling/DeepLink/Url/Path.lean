import DeepLink.Url.Encoding

/-!
# Schemes and paths of URLs

A scheme is a letter, then letters, digits and a few marks, up to a colon; case does not count. What
a URL may look like depends on its scheme. Some schemes are special: they take a backslash for a
slash, and except for files they always have a host.

The segments of a path stand between its slashes. A segment of one dot is left out, and one of two
dots takes back the segment before it; a dot may be percent-encoded. A drive, a letter with a colon
or a bar after it, is never taken back. At the front of the path of a file the drive always gets a
colon, and a tab or a line end after it starts a new segment.
-/

namespace DeepLink.Url

/-! ## Schemes -/

inductive SchemeClass
  | file | special | plain
  deriving DecidableEq

def SchemeClass.of : String → SchemeClass
  | "file" => .file
  | "http" => .special
  | "https" => .special
  | "ws" => .special
  | "wss" => .special
  | "ftp" => .special
  | _ => .plain

/-- Whether a backslash counts as a slash. -/
def SchemeClass.isSpecial (s : SchemeClass) : Bool := s ≠ .plain

def isSlash (s : SchemeClass) (c : Char) : Bool := c == '/' || s.isSpecial && c == '\\'

def isSchemeChar (c : Char) : Bool := c.isAlphanum || c == '+' || c == '-' || c == '.'

/-- The scheme in lower case, and what follows its colon. -/
def cutScheme? (text : List Char) : Option (String × List Char) :=
  match text with
  | [] => none
  | first :: _ =>
    match text.dropWhile isSchemeChar with
    | ':' :: rest =>
      if first.isAlpha then
        some (String.ofList ((text.takeWhile isSchemeChar).map Char.toLower), rest)
      else none
    | _ => none

/-! ## Characters of paths -/

/-- Tabs and line ends count for nothing. -/
def isDropped (c : Char) : Bool := c == '\t' || c == '\n' || c == '\r'

def dropBreaks (text : List Char) : List Char := text.filter (!isDropped ·)

/-- What follows so many characters that count. -/
def afterCounted : Nat → List Char → List Char
  | 0, text => text
  | _ + 1, [] => []
  | n + 1, c :: rest =>
    if isDropped c then afterCounted (n + 1) rest else afterCounted n rest

def isPathEnd (c : Char) : Bool := c == '?' || c == '#'

/-! ## Segments -/

/-- The segments between slashes. -/
def splitSegments (s : SchemeClass) : List Char → List (List Char)
  | [] => [[]]
  | c :: rest =>
    if isSlash s c then [] :: splitSegments s rest
    else
      match splitSegments s rest with
      | [] => [[c]]
      | segment :: segments => (c :: segment) :: segments

/-- A dot, percent-encoded or not, and what follows it. -/
def takeDot? : List Char → Option (List Char)
  | '.' :: rest => some rest
  | '%' :: '2' :: 'e' :: rest => some rest
  | '%' :: '2' :: 'E' :: rest => some rest
  | _ => none

def isSingleDot (segment : List Char) : Bool := takeDot? segment == some []

def isDoubleDot (segment : List Char) : Bool := (takeDot? segment).any isSingleDot

/-- The characters of a segment that need no percent sign. -/
def isKeptInPath (c : Char) : Bool :=
  0x20 < c.toNat && c.toNat < 0x7f && c != '\x22' && c != '#' && c != '<' && c != '>' && c != '?' &&
    c != '\x60' && c != '\x7b' && c != '\x7d'

def encodeSegment (text : List Char) : List Char := Percent.encode isKeptInPath text

/-! ## Drives -/

/-- A drive and nothing more. -/
def isDrive : List Char → Bool
  | [letter, mark] => letter.isAlpha && (mark == ':' || mark == '|')
  | _ => false

/-- A segment that is not taken back: a drive, alone or before a backslash. -/
def staysBehind : List Char → Bool
  | letter :: mark :: rest => isDrive [letter, mark] && rest.head?.all (· == '\\')
  | _ => false

/-- Cuts a segment after a drive with a tab or a line end behind it. -/
def cutDrive? (segment : List Char) : Option (List Char × List Char) :=
  match dropBreaks segment with
  | letter :: ':' :: first :: rest =>
    if letter.isAlpha ∧ (afterCounted 2 segment).head?.any isDropped then
      some ([letter, ':'], first :: rest)
    else none
  | _ => none

/-! ## Dot segments -/

/-- The segments of a path that have been read, the last first. `onDrive` says that the path starts
with a drive, for which no host is needed. -/
structure Path where
  segments : List (List Char)
  onDrive : Bool

namespace Path

def root : Path := ⟨[], false⟩

/-- The path without its last segment. -/
def parent (p : Path) : Path :=
  match p.segments with
  | [] => p
  | last :: before => if staysBehind last then p else { p with segments := before }

/-- The path with one more segment. -/
def push (s : SchemeClass) (p : Path) (segment : List Char) : Path :=
  let text := dropBreaks segment
  if s = .file ∧ p.segments = [] then
    match cutDrive? segment with
    | some (drive, name) => ⟨[encodeSegment name, drive], false⟩
    | none => if isDrive text then ⟨[text.take 1 ++ [':']], true⟩ else ⟨[encodeSegment text], false⟩
  else { p with segments := encodeSegment text :: p.segments }

/-- The path after some more segments, with dots resolved. -/
def follow (s : SchemeClass) (p : Path) : List (List Char) → Path
  | [] => p
  | segment :: rest =>
    if isDoubleDot (dropBreaks segment) then follow s p.parent rest
    else if isSingleDot (dropBreaks segment) then follow s p rest
    else follow s (p.push s segment) rest

/-- The path at the front of a text, which starts at the root. -/
def ofText (s : SchemeClass) (text : List Char) : Path :=
  follow s root (splitSegments s (text.takeWhile (!isPathEnd ·)))

end Path

/-- The text of a path without the slash at its front. -/
def dropSlash (s : SchemeClass) : List Char → List Char
  | [] => []
  | c :: rest =>
    if isDropped c then dropSlash s rest else if isSlash s c then rest else c :: rest

/-- The segments of the path at the front of a text. -/
def segmentsOf (s : SchemeClass) (text : List Char) : List (List Char) :=
  (Path.ofText s (dropSlash s text)).segments.reverse

end DeepLink.Url
