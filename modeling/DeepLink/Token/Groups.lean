import DeepLink.Token

/-!
# Groups of tokens

Parentheses group tokens. `checkGroups` refuses tokens whose parentheses do not pair up or nest too
deeply; the other functions cut tokens at a delimiter that stands outside every group, and take off
a pair of parentheses around all of them.
-/

namespace DeepLink

/-- How deeply parentheses may nest. -/
def nestingLimit : Nat := 128

/-- Why the parentheses of some tokens are refused, with the byte offset of the culprit. -/
inductive GroupFault
  | unbalanced (offset : Nat)
  | tooDeep (offset : Nat)
  deriving DecidableEq

/-- Pairs up the parentheses of tokens that start at `offset`; `opened` holds the offsets of those
still open, the innermost first. -/
def checkGroupsFrom (offset : Nat) (opened : List Nat) : List Token → Except GroupFault Unit
  | [] =>
    match opened with
    | [] => .ok ()
    | innermost :: _ => .error (.unbalanced innermost)
  | t :: rest =>
    match t with
    | .mark .openParen =>
      if opened.length < nestingLimit then checkGroupsFrom (offset + t.size) (offset :: opened) rest
      else .error (.tooDeep offset)
    | .mark .closeParen =>
      match opened with
      | [] => .error (.unbalanced offset)
      | _ :: outer => checkGroupsFrom (offset + t.size) outer rest
    | _ => checkGroupsFrom (offset + t.size) opened rest

def checkGroups (offset : Nat) (tokens : List Token) : Except GroupFault Unit :=
  checkGroupsFrom offset [] tokens

/-- The number of open groups after a token. -/
def Token.depthAfter (depth : Nat) : Token → Nat
  | .mark .openParen => depth + 1
  | .mark .closeParen => depth - 1
  | _ => depth

/-- Puts a token in front of the first part. -/
def pushToken (t : Token) : List (List Token) → List (List Token)
  | [] => [[t]]
  | part :: parts => (t :: part) :: parts

/-- The parts between the occurrences of a delimiter outside groups, inside `depth` open ones. -/
def splitFrom (delimiter : Token) (depth : Nat) : List Token → List (List Token)
  | [] => [[]]
  | t :: rest =>
    if depth = 0 ∧ t = delimiter then [] :: splitFrom delimiter 0 rest
    else pushToken t (splitFrom delimiter (t.depthAfter depth) rest)

def splitOutside (delimiter : Token) (tokens : List Token) : List (List Token) :=
  splitFrom delimiter 0 tokens

/-- What stands before and after the first occurrence of a delimiter outside groups. -/
def cutFrom (delimiter : Token) (depth : Nat) : List Token → Option (List Token × List Token)
  | [] => none
  | t :: rest =>
    if depth = 0 ∧ t = delimiter then some ([], rest)
    else
      (cutFrom delimiter (t.depthAfter depth) rest).map fun (before, after) => (t :: before, after)

def cutOutside (delimiter : Token) (tokens : List Token) : Option (List Token × List Token) :=
  cutFrom delimiter 0 tokens

/-- The tokens up to the parenthesis that closes the outermost of `depth` open groups, if it is the
last token. -/
def closingLast (depth : Nat) : List Token → Option (List Token)
  | [] => none
  | t :: rest =>
    if t.depthAfter depth = 0 then (if rest = [] then some [] else none)
    else (closingLast (t.depthAfter depth) rest).map (t :: ·)

/-- The inside of a pair of parentheses that holds all the tokens. -/
def insideParens? : List Token → Option (List Token)
  | .mark .openParen :: rest => closingLast 1 rest
  | _ => none

theorem length_of_cutFrom {delimiter : Token} {depth : Nat} {tokens before after : List Token}
    (h : cutFrom delimiter depth tokens = some (before, after)) :
    tokens.length = before.length + after.length + 1 := by
  induction tokens generalizing depth before after with
  | nil => simp [cutFrom] at h
  | cons t rest ih =>
    rw [cutFrom] at h
    split at h
    · simp at h
      obtain ⟨rfl, rfl⟩ := h
      simp
    · obtain ⟨⟨b, a⟩, hc, he⟩ := Option.map_eq_some_iff.mp h
      simp at he
      obtain ⟨rfl, rfl⟩ := he
      simp [ih hc]
      omega

theorem length_of_cutOutside {delimiter : Token} {tokens before after : List Token}
    (h : cutOutside delimiter tokens = some (before, after)) :
    tokens.length = before.length + after.length + 1 := length_of_cutFrom h

theorem length_of_closingLast {depth : Nat} {tokens inner : List Token}
    (h : closingLast depth tokens = some inner) : tokens.length = inner.length + 1 := by
  induction tokens generalizing depth inner with
  | nil => simp [closingLast] at h
  | cons t rest ih =>
    rw [closingLast] at h
    split at h
    · split at h
      · simp_all
      · simp at h
    · obtain ⟨i, hc, rfl⟩ := Option.map_eq_some_iff.mp h
      simp [ih hc]

theorem length_of_insideParens? {tokens inner : List Token}
    (h : insideParens? tokens = some inner) : tokens.length = inner.length + 2 := by
  unfold insideParens? at h
  split at h
  · simp [length_of_closingLast h]
  · simp at h

end DeepLink
