import DeepLink.Route

/-!
# The normal form of paths

A path in normal form has nothing empty at any depth: a node `OccursIn` a path if it stands there or
inside a branch or group, and normal form says that every such node is filled (`normalPath_iff`).
Bringing nodes into normal form changes nothing exactly if they have it
(`normalizePath_eq_self_iff`), and it never loses a named parameter
(`pathParameters_normalizePath`).
-/

namespace DeepLink

/-! ## Nodes at any depth -/

/-- The branches of an alternation, or the group. -/
def PathNode.parts : PathNode → List (List PathNode)
  | .alternation left right => [left, right]
  | .optional group => [group]
  | _ => []

/-- The node is one of the nodes, or it occurs in a part of one of them. -/
inductive PathNode.OccursIn (node : PathNode) : List PathNode → Prop
  | here {nodes : List PathNode} (h : node ∈ nodes) : node.OccursIn nodes
  | inside {nodes part : List PathNode} {outer : PathNode} (ho : outer ∈ nodes)
    (hp : part ∈ outer.parts) (h : node.OccursIn part) : node.OccursIn nodes

/-- What occurs in a part of a node occurs where the node does. -/
theorem PathNode.OccursIn.of_part {node inner : PathNode} {nodes part : List PathNode}
    (h : node.OccursIn nodes) (hp : part ∈ node.parts) (hi : inner.OccursIn part) :
    inner.OccursIn nodes := by
  induction h with
  | here hm => exact .inside hm hp hi
  | inside ho hpart _ ih => exact .inside ho hpart ih

/-- Every node holds `P`, at any depth. -/
def Everywhere (P : PathNode → Prop) (nodes : List PathNode) : Prop :=
  ∀ node : PathNode, node.OccursIn nodes → P node

section Everywhere

variable {P : PathNode → Prop} {node : PathNode} {rest : List PathNode}

theorem PathNode.not_occursIn_nil (node : PathNode) : ¬ node.OccursIn [] := by
  intro h
  cases h with
  | here h => exact List.not_mem_nil h
  | inside ho _ _ => exact List.not_mem_nil ho

theorem everywhere_nil (P : PathNode → Prop) : Everywhere P [] :=
  fun node h => absurd h node.not_occursIn_nil

theorem everywhere_cons :
    Everywhere P (node :: rest) ↔
      P node ∧ (∀ part ∈ node.parts, Everywhere P part) ∧ Everywhere P rest := by
  constructor
  · intro h
    refine ⟨h node (.here List.mem_cons_self), fun part hp inner hi => ?_, fun inner hi => ?_⟩
    · exact h inner (.inside List.mem_cons_self hp hi)
    · cases hi with
      | here hm => exact h inner (.here (List.mem_cons_of_mem _ hm))
      | inside ho hp hi => exact h inner (.inside (List.mem_cons_of_mem _ ho) hp hi)
  · rintro ⟨hnode, hparts, hrest⟩ inner hi
    cases hi with
    | here hm =>
      rcases List.mem_cons.mp hm with rfl | hm
      · exact hnode
      · exact hrest inner (.here hm)
    | inside ho hp hi =>
      rcases List.mem_cons.mp ho with rfl | ho
      · exact hparts _ hp inner hi
      · exact hrest inner (.inside ho hp hi)

end Everywhere

/-! ## Nothing empty -/

/-- The node is neither the empty literal nor has it an empty part. -/
def PathNode.IsFilled (node : PathNode) : Prop := node ≠ .literal "" ∧ [] ∉ node.parts

mutual

theorem PathNode.normal_iff : (node : PathNode) →
    (node.Normal ↔ node.IsFilled ∧ ∀ part ∈ node.parts, Everywhere PathNode.IsFilled part)
  | .literal t => by simp [PathNode.Normal, PathNode.IsFilled, PathNode.parts]
  | .parameter p => by simp [PathNode.Normal, PathNode.IsFilled, PathNode.parts]
  | .alternation left right => by
    rw [PathNode.Normal, normalPath_iff left, normalPath_iff right]
    simp [PathNode.IsFilled, PathNode.parts, and_assoc]
  | .optional group => by
    rw [PathNode.Normal, normalPath_iff group]
    simp [PathNode.IsFilled, PathNode.parts]
  | .wildcard => by simp [PathNode.Normal, PathNode.IsFilled, PathNode.parts]

/-- Nodes are in normal form if nothing is empty, at any depth. -/
theorem normalPath_iff : (nodes : List PathNode) →
    (NormalPath nodes ↔ Everywhere PathNode.IsFilled nodes)
  | [] => ⟨fun _ => everywhere_nil _, fun _ => trivial⟩
  | node :: rest => by
    rw [NormalPath, node.normal_iff, normalPath_iff rest, everywhere_cons, and_assoc]

end

theorem normalPath_append {first second : List PathNode} (hf : NormalPath first)
    (hs : NormalPath second) : NormalPath (first ++ second) := by
  induction first with
  | nil => exact hs
  | cons node first ih => exact ⟨hf.1, ih hf.2⟩

/-! ## What normal form changes -/

theorem normalizePath_append (first second : List PathNode) :
    normalizePath (first ++ second) = normalizePath first ++ normalizePath second := by
  induction first with
  | nil => rfl
  | cons node first ih =>
    rw [List.cons_append, normalizePath, normalizePath, ih]
    cases node.normalize? with
    | none => rfl
    | some kept => rfl

theorem PathNode.ofBranches?_eq {left right : List PathNode} (hl : left ≠ []) (hr : right ≠ []) :
    ofBranches? left right = some (.alternation left right) := by
  cases left with
  | nil => exact absurd rfl hl
  | cons a left =>
    cases right with
    | nil => exact absurd rfl hr
    | cons b right => rfl

theorem PathNode.ofGroup?_eq {group : List PathNode} (hg : group ≠ []) :
    ofGroup? group = some (.optional group) := by
  cases group with
  | nil => exact absurd rfl hg
  | cons a group => rfl

mutual

theorem PathNode.normalize?_of_normal : (node : PathNode) → node.Normal →
    node.normalize? = some node
  | .literal _, hn => by rw [PathNode.normalize?, if_neg hn]
  | .parameter _, _ => by rw [PathNode.normalize?]
  | .alternation left right, ⟨hl, hr, hln, hrn⟩ => by
    rw [PathNode.normalize?, normalizePath_of_normal left hln, normalizePath_of_normal right hrn,
      PathNode.ofBranches?_eq hl hr]
  | .optional group, ⟨hg, hgn⟩ => by
    rw [PathNode.normalize?, normalizePath_of_normal group hgn, PathNode.ofGroup?_eq hg]
  | .wildcard, _ => by rw [PathNode.normalize?]

theorem normalizePath_of_normal : (nodes : List PathNode) → NormalPath nodes →
    normalizePath nodes = nodes
  | [], _ => by rw [normalizePath]
  | node :: rest, ⟨hn, hr⟩ => by
    rw [normalizePath, PathNode.normalize?_of_normal node hn, normalizePath_of_normal rest hr]

end

theorem normalizePath_eq_self_iff {nodes : List PathNode} :
    normalizePath nodes = nodes ↔ NormalPath nodes := by
  refine ⟨fun h => ?_, normalizePath_of_normal nodes⟩
  rw [← h]
  exact normalPath_normalizePath nodes

/-- Bringing a route into normal form changes nothing. -/
theorem Route.of_path_query (r : Route) : Route.of r.path r.query = r := by
  obtain ⟨path, query, hn⟩ := r
  simp only [Route.of, normalizePath_of_normal path hn]

/-! ## What normal form keeps -/

theorem PathNode.parameters_ofBranches? (left right : List PathNode) :
    pathParameters (ofBranches? left right).toList =
      pathParameters left ++ pathParameters right := by
  fun_cases ofBranches? left right with
  | case1 => rfl
  | case2 right hr => simp [pathParameters, PathNode.parameters]
  | case3 left hl => simp [pathParameters, PathNode.parameters]
  | case4 left right => simp [pathParameters, PathNode.parameters]

theorem PathNode.parameters_ofGroup? (group : List PathNode) :
    pathParameters (ofGroup? group).toList = pathParameters group := by
  fun_cases ofGroup? group with
  | case1 => rfl
  | case2 group => simp [pathParameters, PathNode.parameters]

mutual

theorem PathNode.parameters_normalize? : (node : PathNode) →
    pathParameters node.normalize?.toList = node.parameters
  | .literal t => by
    rw [PathNode.normalize?, PathNode.parameters]
    split <;> rfl
  | .parameter p => by
    rw [PathNode.normalize?]
    exact List.append_nil _
  | .alternation left right => by
    rw [PathNode.normalize?, PathNode.parameters_ofBranches?, pathParameters_normalizePath left,
      pathParameters_normalizePath right, PathNode.parameters]
  | .optional group => by
    rw [PathNode.normalize?, PathNode.parameters_ofGroup?, pathParameters_normalizePath group,
      PathNode.parameters]
  | .wildcard => by
    rw [PathNode.normalize?]
    exact List.append_nil _

/-- The named parameters stay, in their order. -/
theorem pathParameters_normalizePath : (nodes : List PathNode) →
    pathParameters (normalizePath nodes) = pathParameters nodes
  | [] => by rw [normalizePath]
  | node :: rest => by
    have hnode := node.parameters_normalize?
    have hrest := pathParameters_normalizePath rest
    rw [normalizePath, pathParameters, ← hnode, ← hrest]
    cases node.normalize? with
    | none => rfl
    | some kept => simp [pathParameters]

end

/-- **The normal form of paths.** Whatever nodes a route is made of, nothing in its path is empty,
at any depth, and the named parameters are all there. To make the route again of its own path
changes nothing, and to make it of the nodes changed nothing exactly if nothing in them was
empty. -/
theorem Route.everywhere_isFilled_of (path : List PathNode) (query : List QueryItem) :
    Everywhere PathNode.IsFilled (Route.of path query).path ∧
      pathParameters (Route.of path query).path = pathParameters path ∧
      Route.of (Route.of path query).path query = Route.of path query ∧
      ((Route.of path query).path = path ↔ Everywhere PathNode.IsFilled path) := by
  have hnormal := (Route.of path query).normal
  refine ⟨(normalPath_iff _).mp hnormal, pathParameters_normalizePath path,
    (Route.of path query).of_path_query, ?_⟩
  rw [← normalPath_iff]
  exact normalizePath_eq_self_iff

/-- A branch in which nothing is left makes an optional group of the other one. -/
example : (Route.of [.alternation [.optional [.literal ""]] [.literal "", .literal "b"],
    .optional [.alternation [] [.literal ""]]] []).path = [.optional [.literal "b"]] := rfl

end DeepLink
