import DeepLink.Components
import DeepLink.Route

/-!
# Matching a route

A route matches components if its path matches all their texts that count and its items find their
pairs. A match binds values to parameters. Of two bindings of one parameter the later counts, and
what the query binds follows what the path binds.

Nodes of a path take texts from the front, one node after the other. A wildcard takes at least one
text: all that is left if it is the last node, else as few as let the next node match. An
alternation tries its branch with more nodes first, the left one on a tie; an optional group takes
nothing if it does not match, and may match only its first nodes if the texts end there. Nothing is
reconsidered: once a node has matched, its choice stands.

Each item of a query takes at most one pair, the first one left with the name and a value of its
parameter. A pair that is taken is not offered again; pairs that no item takes are ignored.
-/

namespace DeepLink

/-! ## Bindings -/

/-- What a match binds, in the order in which it was bound. -/
structure Bindings where
  entries : List (Parameter × String)
  deriving DecidableEq

namespace Bindings

def empty : Bindings := ⟨[]⟩

/-- The bindings of `a`, then those of `b`. -/
def append (a b : Bindings) : Bindings := ⟨a.entries ++ b.entries⟩

instance : Append Bindings := ⟨append⟩

theorem append_def (a b : Bindings) : a ++ b = ⟨a.entries ++ b.entries⟩ := rfl

@[simp] theorem append_empty (b : Bindings) : b ++ empty = b := by simp [append_def, empty]

@[simp] theorem empty_append (b : Bindings) : empty ++ b = b := by simp [append_def, empty]

theorem append_assoc (a b c : Bindings) : a ++ b ++ c = a ++ (b ++ c) := by simp [append_def]

/-- The binding of one parameter; one without a name is not bound. -/
def bind (p : Parameter) (value : String) : Bindings :=
  if p.isNameless then empty else ⟨[(p, value)]⟩

/-- The value that counts for a parameter. -/
def get? (b : Bindings) (p : Parameter) : Option String :=
  (b.entries.reverse.find? (·.1 = p)).map (·.2)

/-- Puts a binding in its place among others in order, or in place of an earlier one. -/
def place (p : Parameter) (value : String) : List (Parameter × String) → List (Parameter × String)
  | [] => [(p, value)]
  | (q, other) :: rest =>
    if p = q then (p, value) :: rest
    else if p < q then (p, value) :: (q, other) :: rest
    else (q, other) :: place p value rest

/-- The bindings that count, ordered by parameter. -/
def sorted (b : Bindings) : List (Parameter × String) :=
  b.entries.foldl (fun placed (p, value) => place p value placed) []

end Bindings

/-! ## The path -/

/-- How much of a sequence of nodes has to match: all of it, or as much as there are components. -/
inductive Extent
  | all
  | whileAny
  deriving DecidableEq

/-- What a match takes: a number of components from the front, and bindings. -/
structure Taken where
  count : Nat
  bindings : Bindings
  deriving DecidableEq

namespace Taken

def nothing : Taken := ⟨0, .empty⟩

/-- What two matches take, one after the other. -/
def append (a b : Taken) : Taken := ⟨a.count + b.count, a.bindings ++ b.bindings⟩

instance : Append Taken := ⟨append⟩

/-- The same with `n` components in front that bind nothing. -/
def skip (n : Nat) (t : Taken) : Taken := ⟨n + t.count, t.bindings⟩

end Taken

/-- What `first` takes, and then `next` of the components it leaves. -/
def Taken.followedBy (first : Taken) (components : List String)
    (next : List String → Option Taken) : Option Taken :=
  (next (components.drop first.count)).map (first ++ ·)

mutual

/-- What a node takes; a wildcard takes nothing on its own. -/
def takeNode : PathNode → List String → Option Taken
  | .literal _, [] => none
  | .literal text, component :: _ => if component = text then some ⟨1, .empty⟩ else none
  | .parameter _, [] => none
  | .parameter p, component :: _ =>
    if p.accepts component then some ⟨1, .bind p component⟩ else none
  | .alternation left right, components =>
    if left.length < right.length then
      (takeNodes .all right components).or (takeNodes .all left components)
    else (takeNodes .all left components).or (takeNodes .all right components)
  | .optional group, components =>
    some ((takeNodes .whileAny group components).getD .nothing)
  | .wildcard, _ => none

/-- What nodes in a row take. A wildcard and the node after it match together. -/
def takeNodes (extent : Extent) : List PathNode → List String → Option Taken
  | [], _ => some .nothing
  | .wildcard :: nodes, components =>
    if components = [] ∧ extent = .whileAny then some .nothing
    else
      match nodes with
      | [] => if components = [] then none else some ⟨components.length, .empty⟩
      | next :: rest =>
        if components.length < rest.length + 2 then none
        else
          let found := (List.range' 1 (components.length - 1)).findSome? fun n =>
            (takeNode next (components.drop n)).map (Taken.skip n)
          found.bind fun taken => taken.followedBy components (takeNodes extent rest)
  | node :: nodes, components =>
    if components = [] ∧ extent = .whileAny then some .nothing
    else
      (takeNode node components).bind fun taken =>
        taken.followedBy components (takeNodes extent nodes)

end

/-- What nodes bind if they take all the components. -/
def bindPath (nodes : List PathNode) (components : List String) : Option Bindings :=
  match takeNodes .all nodes components with
  | some taken => if taken.count = components.length then some taken.bindings else none
  | none => none

/-! ## The query -/

/-- Whether a pair has the name and a value of a parameter. -/
def Parameter.fits (p : Parameter) (pair : String × String) : Bool :=
  pair.1 == p.name && p.accepts pair.2

/-- The value of the first pair that fits, and the other pairs. -/
def takePair (p : Parameter) :
    List (String × String) → Option (String × List (String × String))
  | [] => none
  | pair :: rest =>
    if p.fits pair then some (pair.2, rest)
    else (takePair p rest).map fun (value, others) => (value, pair :: others)

/-- What an item binds, and the pairs it leaves. -/
def takeItem (pairs : List (String × String)) :
    QueryItem → Option (Bindings × List (String × String))
  | .required p => (takePair p pairs).map fun (value, rest) => (.bind p value, rest)
  | .optional p =>
    match takePair p pairs with
    | some (value, rest) => some (.bind p value, rest)
    | none => some (.empty, pairs)
  | .alternation first second =>
    match takePair first pairs with
    | some (value, rest) => some (.bind first value, rest)
    | none => (takePair second pairs).map fun (value, rest) => (.bind second value, rest)

/-- What the items bind, one after the other. -/
def bindQuery : List QueryItem → List (String × String) → Option Bindings
  | [], _ => some .empty
  | item :: items, pairs =>
    match takeItem pairs item with
    | some (bindings, rest) => (bindQuery items rest).map (bindings ++ ·)
    | none => none

/-! ## Routes -/

/-- What a route binds in components. -/
def Route.match? (r : Route) (c : Components) : Option Bindings :=
  match bindPath r.path c.effectivePath, bindQuery r.query c.query with
  | some path, some query => some (path ++ query)
  | _, _ => none

end DeepLink
