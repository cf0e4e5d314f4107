import DeepLink.Yaml.Spot

/-!
# Properties of YAML values

An anchor names a value, a reference stands for the value of an anchor, and a tag tells the kind of
a value. A tag is written whole between angle brackets, or with a handle that stands for how it
starts. Directives at the start of a document tell the version of YAML and declare handles.
-/

namespace DeepLink.Yaml

def isNameChar (c : Char) : Bool := c.isAlphanum || c == '_' || c == '-'

/-- The characters at the front of a text that satisfy a condition. -/
def takeChars (p : Char → Bool) (text : List Spot) : List Char × List Spot :=
  ((text.takeWhile (p ·.char)).map (·.char), text.dropWhile (p ·.char))

/-- The name of an anchor or a reference. -/
def readName? (text : List Spot) : Option (String × List Spot) :=
  let (name, rest) := takeChars isNameChar text
  if name ≠ [] ∧ (spaceNext rest ∨ rest.head?.any fun s => "?:,]\x7d%@\x60".contains s.char) then
    some (String.ofList name, rest)
  else none

/-- A tag: the handle, which is empty if the tag is whole, and what follows it. -/
structure Tag where
  handle : String
  suffix : String
  deriving DecidableEq

/-- The characters of a tag; between angle brackets and in directives there are some more. -/
def isTagChar (whole : Bool) (c : Char) : Bool :=
  isNameChar c || ";/?:@&=+$.!~*\x27()".contains c || whole && ",[]".contains c

/-- A tag after its exclamation mark. -/
def readTagText? : List Spot → Option (Tag × List Spot)
  | [] => some (⟨"", "!"⟩, [])
  | s :: rest =>
    if s.char = '<' then
      match takeChars (isTagChar true) rest with
      | ([], _) => none
      | (tag, close :: rest) =>
        if close.char = '>' then some (⟨"", String.ofList tag⟩, rest) else none
      | (_, []) => none
    else
      let (name, after) := takeChars isNameChar (s :: rest)
      if after.head?.any (·.char == '!') then
        match takeChars (isTagChar false) (after.drop 1) with
        | ([], _) => none
        | (suffix, rest) => some (⟨"!" ++ String.ofList name ++ "!", String.ofList suffix⟩, rest)
      else
        let (more, rest) := takeChars (isTagChar false) after
        if name ++ more = [] then some (⟨"", "!"⟩, rest)
        else some (⟨"!", String.ofList (name ++ more)⟩, rest)

/-- A tag and the space after it. -/
def readTag? (inFlow : Bool) (text : List Spot) : Option (Tag × List Spot) :=
  (readTagText? text).filter fun (_, rest) =>
    spaceNext rest || inFlow && rest.head?.any (·.char == ',')

inductive Directive
  | version (major minor : Nat)
  | handle (handle start : String)

/-- A number of at most nine digits. -/
def readNumber? (text : List Spot) : Option (Nat × List Spot) :=
  let (digits, rest) := takeChars Char.isDigit text
  if digits ≠ [] ∧ digits.length ≤ 9 then
    some (digits.foldl (fun n d => 10 * n + (d.toNat - '0'.toNat)) 0, rest)
  else none

def readVersion? (text : List Spot) : Option (Directive × List Spot) := do
  let (major, rest) ← readNumber? (text.dropWhile (isBlank ·.char))
  if rest.head?.any (·.char == '.') then
    let (minor, rest) ← readNumber? (rest.drop 1)
    return (.version major minor, rest)
  else none

/-- A handle: one exclamation mark, or a name between two. -/
def readHandle? (text : List Spot) : Option (String × List Spot) :=
  let (name, rest) := takeChars isNameChar (text.drop 1)
  if !text.head?.any (·.char == '!') then none
  else if rest.head?.any (·.char == '!') then
    some ("!" ++ String.ofList name ++ "!", rest.drop 1)
  else if name = [] then some ("!", rest)
  else none

def readHandleDirective? (text : List Spot) : Option (Directive × List Spot) := do
  let (handle, rest) ← readHandle? (text.dropWhile (isBlank ·.char))
  let (start, after) := takeChars (isTagChar true) (rest.dropWhile (isBlank ·.char))
  if rest.head?.any (isBlank ·.char) ∧ start ≠ [] ∧ spaceNext after then
    return (.handle handle (String.ofList start), after)
  else none

/-- A directive after its percent sign, which takes the whole line. -/
def readDirective? (text : List Spot) : Option (Directive × List Spot) := do
  let (name, rest) := takeChars isNameChar text
  let (directive, rest) ←
    if !spaceNext rest then none
    else if name = "YAML".toList then readVersion? rest
    else if name = "TAG".toList then readHandleDirective? rest
    else none
  let rest ← toLineEnd? rest
  return (directive, rest.drop 1)

end DeepLink.Yaml
