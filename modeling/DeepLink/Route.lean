import DeepLink.Parameter
import DeepLink.Token

/-!
# Routes

A route is a pattern for the path and the query of a URL. A path is a list of nodes, which may nest:
an alternation offers two branches, an optional group may be left out. A query is a list of items.

Routes are kept in a normal form, without empty literals and without groups or branches in which
nothing is left (`PathNode.Normal`); `Route.of` brings any nodes into it.

The canonical text of a route is a template for it.
-/

namespace DeepLink

inductive PathNode
  | literal (text : String)
  | parameter (p : Parameter)
  | alternation (left right : List PathNode)
  | optional (group : List PathNode)
  | wildcard

inductive QueryItem
  | required (p : Parameter)
  | optional (p : Parameter)
  | alternation (first second : Parameter)
  deriving DecidableEq

mutual

def PathNode.decEq : (a b : PathNode) → Decidable (a = b)
  | .literal s, .literal t => decidable_of_iff (s = t) (by simp)
  | .parameter p, .parameter q => decidable_of_iff (p = q) (by simp)
  | .alternation l r, .alternation l' r' =>
    match decEqPath l l', decEqPath r r' with
    | isTrue h, isTrue h' => isTrue (by rw [h, h'])
    | isFalse h, _ => isFalse fun e => h (by injection e)
    | _, isFalse h => isFalse fun e => h (by injection e)
  | .optional g, .optional g' =>
    match decEqPath g g' with
    | isTrue h => isTrue (by rw [h])
    | isFalse h => isFalse fun e => h (by injection e)
  | .wildcard, .wildcard => isTrue rfl
  | .literal _, .parameter _ | .literal _, .alternation _ _ | .literal _, .optional _
  | .literal _, .wildcard | .parameter _, .literal _ | .parameter _, .alternation _ _
  | .parameter _, .optional _ | .parameter _, .wildcard | .alternation _ _, .literal _
  | .alternation _ _, .parameter _ | .alternation _ _, .optional _ | .alternation _ _, .wildcard
  | .optional _, .literal _ | .optional _, .parameter _ | .optional _, .alternation _ _
  | .optional _, .wildcard | .wildcard, .literal _ | .wildcard, .parameter _
  | .wildcard, .alternation _ _ | .wildcard, .optional _ => isFalse (by simp)

def decEqPath : (a b : List PathNode) → Decidable (a = b)
  | [], [] => isTrue rfl
  | [], _ :: _ => isFalse (by simp)
  | _ :: _, [] => isFalse (by simp)
  | a :: as, b :: bs =>
    match PathNode.decEq a b, decEqPath as bs with
    | isTrue h, isTrue h' => isTrue (by rw [h, h'])
    | isFalse h, _ => isFalse fun e => h (by injection e)
    | _, isFalse h => isFalse fun e => h (by injection e)

end

instance : DecidableEq PathNode := PathNode.decEq

/-- A parameter of a path. -/
def Parameter.pathText (p : Parameter) : String :=
  match p.kind? with
  | some kind => ":" ++ kind.keyword ++ "(" ++ escape p.name ++ ")"
  | none => ":" ++ escape p.name

/-- A parameter of a query. -/
def Parameter.queryText (p : Parameter) : String :=
  match p.kind? with
  | some kind => escape p.name ++ "=:" ++ kind.keyword
  | none => ":" ++ escape p.name

mutual

def PathNode.text : PathNode → String
  | .literal t => escape t
  | .parameter p => p.pathText
  | .alternation left right => "(" ++ pathText left ++ "|" ++ pathText right ++ ")"
  | .optional group => "(" ++ pathText group ++ ")"
  | .wildcard => "*"

/-- The texts of the nodes with slashes between them. -/
def pathText : List PathNode → String
  | [] => ""
  | [node] => node.text
  | node :: next :: rest => node.text ++ "/" ++ pathText (next :: rest)

end

theorem pathText_eq_intercalate (nodes : List PathNode) :
    pathText nodes = "/".intercalate (nodes.map PathNode.text) := by
  induction nodes with
  | nil => simp [pathText]
  | cons node rest ih =>
    cases rest with
    | nil => simp [pathText]
    | cons next rest => simp [pathText, ih]

namespace QueryItem

def text : QueryItem → String
  | required p => p.queryText
  | optional p => "(" ++ p.queryText ++ ")"
  | alternation first second => "(" ++ first.queryText ++ "|" ++ second.queryText ++ ")"

def parameters : QueryItem → List Parameter
  | required p => [p]
  | optional p => [p]
  | alternation first second => [first, second]

end QueryItem

mutual

/-- Nothing in the node is empty. -/
def PathNode.Normal : PathNode → Prop
  | .literal t => t ≠ ""
  | .parameter _ => True
  | .alternation left right => left ≠ [] ∧ right ≠ [] ∧ NormalPath left ∧ NormalPath right
  | .optional group => group ≠ [] ∧ NormalPath group
  | .wildcard => True

def NormalPath : List PathNode → Prop
  | [] => True
  | node :: rest => node.Normal ∧ NormalPath rest

end

/-- The node that two branches make: one branch alone is an optional group. -/
def PathNode.ofBranches? : List PathNode → List PathNode → Option PathNode
  | [], [] => none
  | [], right => some (.optional right)
  | left, [] => some (.optional left)
  | left, right => some (.alternation left right)

def PathNode.ofGroup? : List PathNode → Option PathNode
  | [] => none
  | group => some (.optional group)

mutual

/-- What is left of a node without its empty literals. -/
def PathNode.normalize? : PathNode → Option PathNode
  | .literal t => if t = "" then none else some (.literal t)
  | .parameter p => some (.parameter p)
  | .alternation left right => PathNode.ofBranches? (normalizePath left) (normalizePath right)
  | .optional group => PathNode.ofGroup? (normalizePath group)
  | .wildcard => some .wildcard

/-- The nodes without empty literals, and without what is empty then. -/
def normalizePath : List PathNode → List PathNode
  | [] => []
  | node :: rest =>
    match node.normalize? with
    | some kept => kept :: normalizePath rest
    | none => normalizePath rest

end

theorem PathNode.normal_ofBranches? {left right : List PathNode} {node : PathNode}
    (hl : NormalPath left) (hr : NormalPath right) (h : ofBranches? left right = some node) :
    node.Normal := by
  cases left with
  | nil =>
    cases right with
    | nil => cases h
    | cons next rest =>
      obtain rfl := Option.some.inj h
      exact ⟨List.cons_ne_nil next rest, hr⟩
  | cons first more =>
    cases right with
    | nil =>
      obtain rfl := Option.some.inj h
      exact ⟨List.cons_ne_nil first more, hl⟩
    | cons next rest =>
      obtain rfl := Option.some.inj h
      exact ⟨List.cons_ne_nil first more, List.cons_ne_nil next rest, hl, hr⟩

theorem PathNode.normal_ofGroup? {group : List PathNode} {node : PathNode}
    (hg : NormalPath group) (h : ofGroup? group = some node) : node.Normal := by
  cases group with
  | nil => cases h
  | cons first more =>
    obtain rfl := Option.some.inj h
    exact ⟨List.cons_ne_nil first more, hg⟩

mutual

theorem PathNode.normal_normalize? : (node : PathNode) → {kept : PathNode} →
    node.normalize? = some kept → kept.Normal
  | .literal t, kept, h => by
    rw [PathNode.normalize?] at h
    by_cases ht : t = ""
    · rw [if_pos ht] at h
      cases h
    · rw [if_neg ht] at h
      obtain rfl := Option.some.inj h
      exact ht
  | .parameter p, kept, h => by
    obtain rfl : .parameter p = kept := Option.some.inj h
    trivial
  | .alternation left right, kept, h =>
    PathNode.normal_ofBranches? (normalPath_normalizePath left) (normalPath_normalizePath right)
      (by rw [← PathNode.normalize?]; exact h)
  | .optional group, kept, h =>
    PathNode.normal_ofGroup? (normalPath_normalizePath group)
      (by rw [← PathNode.normalize?]; exact h)
  | .wildcard, kept, h => by
    obtain rfl : .wildcard = kept := Option.some.inj h
    trivial

theorem normalPath_normalizePath : (nodes : List PathNode) → NormalPath (normalizePath nodes)
  | [] => by simp [normalizePath, NormalPath]
  | node :: rest => by
    rw [normalizePath]
    split
    · next kept h =>
      exact ⟨PathNode.normal_normalize? node h, normalPath_normalizePath rest⟩
    · exact normalPath_normalizePath rest

end

structure Route where
  path : List PathNode
  query : List QueryItem
  normal : NormalPath path
  deriving DecidableEq

namespace Route

/-- The route of any nodes and items. -/
def of (path : List PathNode) (query : List QueryItem) : Route :=
  ⟨normalizePath path, query, normalPath_normalizePath path⟩

def empty : Route := of [] []

/-- The canonical text: path, and query after a question mark if there are items. -/
def text (r : Route) : String :=
  match r.query with
  | [] => pathText r.path
  | items => pathText r.path ++ "?" ++ "&".intercalate (items.map QueryItem.text)

/-- Routes are compared by their canonical texts. -/
def sameText (a b : Route) : Bool := a.text == b.text

def textHash (r : Route) : UInt64 := hash r.text

end Route

mutual

/-- The named parameters in the order in which they stand. -/
def PathNode.parameters : PathNode → List Parameter
  | .literal _ => []
  | .parameter p => if p.isNameless then [] else [p]
  | .alternation left right => pathParameters left ++ pathParameters right
  | .optional group => pathParameters group
  | .wildcard => []

def pathParameters : List PathNode → List Parameter
  | [] => []
  | node :: rest => node.parameters ++ pathParameters rest

end

/-- The named parameters of the path, then all those of the query. -/
def Route.parameters (r : Route) : List Parameter :=
  pathParameters r.path ++ r.query.flatMap QueryItem.parameters

end DeepLink
