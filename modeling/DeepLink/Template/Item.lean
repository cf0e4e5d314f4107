import DeepLink.Route
import DeepLink.Template.Error

/-!
# Reading a query item of a template

    item       ::=  parameter  |  `(` parameter `)`  |  `(` parameter `|` parameter `)`
    parameter  ::=  name `=` `:` kind  |  `:` kind `(` name `)`  |  `:` name

A name is one or more tokens that stand for text; a kind is a word. Choices are ordered: the first
alternative that succeeds is taken and never given up again. When an item is refused, the attempt
that came furthest says why. The parameters of a path are read by attempts as well.
-/

namespace DeepLink.Template

/-- Why an attempt ended, and how many tokens it left. -/
structure Refusal where
  left : Nat
  fault : ItemFault
  deriving DecidableEq

namespace Refusal

/-- The refusal at the first of the tokens. -/
def atHead (tokens : List Token) : Refusal := ⟨tokens.length, .unexpected tokens.head?⟩

/-- Of two refusals the one that came further, on a tie the first. -/
def furthest (r s : Refusal) : Refusal := if s.left < r.left then s else r

end Refusal

/-- An attempt to read something at the front of some tokens. One that succeeds remembers what
would have had to follow for it to read on. -/
inductive Attempt (α : Type)
  | read (value : α) (rest : List Token) (stopped : Option Refusal)
  | refused (refusal : Refusal)

namespace Attempt

variable {α β : Type}

/-- Of two places where reading could have gone on, the later one unless the earlier is further. -/
def mergeStops : Option Refusal → Option Refusal → Option Refusal
  | some earlier, some later => some (later.furthest earlier)
  | some earlier, none => some earlier
  | none, later => later

/-- Goes on after what was read. -/
def andThen (a : Attempt α) (next : α → List Token → Attempt β) : Attempt β :=
  match a with
  | refused r => refused r
  | read value rest stopped =>
    match next value rest with
    | read value' rest' stopped' => read value' rest' (mergeStops stopped stopped')
    | refused r => refused (match stopped with
      | some earlier => r.furthest earlier
      | none => r)

def map (f : α → β) : Attempt α → Attempt β
  | read value rest stopped => read (f value) rest stopped
  | refused r => refused r

/-- The first attempt if it succeeds, else the second. -/
def orElse (a b : Attempt α) : Attempt α :=
  match a with
  | read value rest stopped => read value rest stopped
  | refused r =>
    match b with
    | read value rest stopped => read value rest stopped
    | refused s => refused (r.furthest s)

end Attempt

/-- The mark `m`. -/
def readMark (m : Mark) : List Token → Attempt Unit
  | [] => .refused (.atHead [])
  | t :: rest => if t = .mark m then .read () rest none else .refused (.atHead (t :: rest))

/-- A word that names a kind. Another word is refused only after it has been read. -/
def readKind : List Token → Attempt Kind
  | .text word :: rest =>
    match Kind.ofKeyword? word with
    | some kind => .read kind rest none
    | none => .refused ⟨rest.length, .unknownKind word⟩
  | tokens => .refused (.atHead tokens)

/-- As many tokens that stand for text as there are, at least one. -/
def readName (tokens : List Token) : Attempt String :=
  let rest := tokens.dropWhile Token.isText
  match tokens.takeWhile Token.isText with
  | [] => .refused (.atHead tokens)
  | name => .read (joinLiterals name) rest (some (.atHead rest))

/-- What `inside` reads, between parentheses. -/
def readParens {α : Type} (inside : List Token → Attempt α) (tokens : List Token) : Attempt α :=
  (readMark .openParen tokens).andThen fun _ rest =>
    (inside rest).andThen fun value rest =>
      (readMark .closeParen rest).map fun _ => value

def readKeyed (tokens : List Token) : Attempt Parameter :=
  (readName tokens).andThen fun name rest =>
    (readMark .equals rest).andThen fun _ rest =>
      (readMark .colon rest).andThen fun _ rest =>
        (readKind rest).map fun kind => .typed kind name

def readTyped (tokens : List Token) : Attempt Parameter :=
  (readKind tokens).andThen fun kind rest =>
    (readParens readName rest).map fun name => .typed kind name

def readUntyped (tokens : List Token) : Attempt Parameter :=
  (readName tokens).map .untyped

def readParameter (tokens : List Token) : Attempt Parameter :=
  (readKeyed tokens).orElse <|
    (readMark .colon tokens).andThen fun _ rest => (readTyped rest).orElse (readUntyped rest)

def readAlternation (tokens : List Token) : Attempt QueryItem :=
  (readParens · tokens) fun inside =>
    (readParameter inside).andThen fun first rest =>
      (readMark .pipe rest).andThen fun _ rest =>
        (readParameter rest).map fun second => .alternation first second

def readOptional (tokens : List Token) : Attempt QueryItem :=
  (readParens readParameter tokens).map .optional

def readRequired (tokens : List Token) : Attempt QueryItem :=
  (readParameter tokens).map .required

/-- Nothing more. -/
def readEnd : List Token → Attempt Unit
  | [] => .read () [] none
  | tokens => .refused (.atHead tokens)

/-- A query item that takes up all the tokens. -/
def readItem (tokens : List Token) : Except ItemFault QueryItem :=
  let item := ((readAlternation tokens).orElse (readOptional tokens)).orElse (readRequired tokens)
  match item.andThen fun value rest => (readEnd rest).map fun _ => value with
  | .read value _ _ => .ok value
  | .refused r => .error r.fault

end DeepLink.Template
