import DeepLink.Matching
import DeepLink.Payload
import DeepLink.Route

/-!
# Readings of a path

A reading says how nodes take texts: which branch an alternation takes, whether and how far a group
is taken, which texts a wildcard covers. `ReadsPath` says which readings nodes allow. It knows no
order among them: matching has to settle on one.
-/

namespace DeepLink

/-- How a node takes texts. -/
inductive Reading
  | literal (text : String)
  | value (p : Parameter) (text : String)
  | branch (side : Side) (inner : List Reading)
  | absent
  | group (inner : List Reading)
  | wildcard (texts : List String)

mutual

/-- The texts that a reading takes. -/
def Reading.texts : Reading → List String
  | .literal text => [text]
  | .value _ text => [text]
  | .branch _ inner => textsOf inner
  | .absent => []
  | .group inner => textsOf inner
  | .wildcard texts => texts

def textsOf : List Reading → List String
  | [] => []
  | reading :: rest => reading.texts ++ textsOf rest

end

mutual

/-- The bindings of the parameters that have a name, in the order of their values. -/
def Reading.bindings : Reading → Bindings
  | .literal _ => .empty
  | .value p text => .bind p text
  | .branch _ inner => bindingsOf inner
  | .absent => .empty
  | .group inner => bindingsOf inner
  | .wildcard _ => .empty

def bindingsOf : List Reading → Bindings
  | [] => .empty
  | reading :: rest => reading.bindings ++ bindingsOf rest

end

theorem textsOf_append (a b : List Reading) : textsOf (a ++ b) = textsOf a ++ textsOf b := by
  induction a with
  | nil => rfl
  | cons reading a ih => rw [List.cons_append, textsOf, textsOf, ih, List.append_assoc]

theorem bindingsOf_append (a b : List Reading) :
    bindingsOf (a ++ b) = bindingsOf a ++ bindingsOf b := by
  induction a with
  | nil => exact (Bindings.empty_append _).symm
  | cons reading a ih => rw [List.cons_append, bindingsOf, bindingsOf, ih, Bindings.append_assoc]

mutual

/-- Without a text nothing is bound. -/
theorem Reading.bindings_of_texts : (reading : Reading) → reading.texts = [] →
    reading.bindings = .empty
  | .literal _, _ => rfl
  | .value _ text, h => absurd h (List.cons_ne_nil text [])
  | .branch _ inner, h => bindingsOf_of_texts inner h
  | .absent, _ => rfl
  | .group inner, h => bindingsOf_of_texts inner h
  | .wildcard _, _ => rfl

theorem bindingsOf_of_texts : (readings : List Reading) → textsOf readings = [] →
    bindingsOf readings = .empty
  | [], _ => rfl
  | reading :: rest, h => by
    obtain ⟨hfirst, hrest⟩ := List.append_eq_nil_iff.mp h
    rw [bindingsOf, reading.bindings_of_texts hfirst, bindingsOf_of_texts rest hrest,
      Bindings.append_empty]

end

mutual

/-- The node allows the reading in front of the texts `rest`. -/
inductive PathNode.Reads : PathNode → Reading → List String → Prop
  | literal (text : String) (rest : List String) :
    PathNode.Reads (.literal text) (.literal text) rest
  | parameter {p : Parameter} {text : String} (h : p.accepts text = true) (rest : List String) :
    PathNode.Reads (.parameter p) (.value p text) rest
  | left {left right : List PathNode} {inner : List Reading} {rest : List String}
    (h : ReadsPath left inner rest) :
    PathNode.Reads (.alternation left right) (.branch .left inner) rest
  | right {left right : List PathNode} {inner : List Reading} {rest : List String}
    (h : ReadsPath right inner rest) :
    PathNode.Reads (.alternation left right) (.branch .right inner) rest
  | absent (group : List PathNode) (rest : List String) :
    PathNode.Reads (.optional group) .absent rest
  | whole {group : List PathNode} {inner : List Reading} {rest : List String}
    (h : ReadsPath group inner rest) : PathNode.Reads (.optional group) (.group inner) rest
  | initial {group : List PathNode} {k : Nat} {inner : List Reading} (hk : k < group.length)
    (h : ReadsPath (group.take k) inner []) : PathNode.Reads (.optional group) (.group inner) []
  | wildcard {texts : List String} (h : texts ≠ []) (rest : List String) :
    PathNode.Reads .wildcard (.wildcard texts) rest

/-- The nodes allow the readings, one for each node, in front of the texts `rest`. -/
inductive ReadsPath : List PathNode → List Reading → List String → Prop
  | nil (rest : List String) : ReadsPath [] [] rest
  | cons {node : PathNode} {nodes : List PathNode} {reading : Reading} {readings : List Reading}
    {rest : List String} (hn : node.Reads reading (textsOf readings ++ rest))
    (hr : ReadsPath nodes readings rest) : ReadsPath (node :: nodes) (reading :: readings) rest

end

/-- The node has nodes of its own: it is an alternation or an optional group. -/
def PathNode.IsGroup : PathNode → Prop
  | .alternation _ _ => True
  | .optional _ => True
  | _ => False

/-- The node has one way to take a text: it is a literal or a parameter. -/
def PathNode.IsPlain : PathNode → Prop
  | .literal _ => True
  | .parameter _ => True
  | _ => False

theorem PathNode.isPlain_of_not_isGroup {node : PathNode} (hg : ¬ node.IsGroup)
    (hw : node ≠ .wildcard) : node.IsPlain := by
  cases node with
  | literal text => trivial
  | parameter p => trivial
  | alternation left right => exact absurd trivial hg
  | optional group => exact absurd trivial hg
  | wildcard => exact absurd rfl hw

end DeepLink
