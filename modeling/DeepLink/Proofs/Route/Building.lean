import DeepLink.Expression
import DeepLink.Proofs.Outcome
import DeepLink.Proofs.Route.NormalForm

/-!
# What building checks

Building looks at the nodes as they are written, before anything is taken out of them. It refuses
them exactly if a branch or group shows nothing, at any depth (`checkFilledPath_eq_ok_iff`), and it
refuses query parameters without a name. Where every branch and every group shows something, normal
form takes out the empty literals and changes nothing else (`normalizePath_eq_pruned`): no branch
and no group becomes empty on the way.
-/

namespace DeepLink

/-! ## Nodes -/

/-- Each part of the node has something else in it than empty literals. -/
def PathNode.HasContent (node : PathNode) : Prop :=
  ∀ part ∈ node.parts, ∃ inner ∈ part, inner ≠ .literal ""

theorem showsNothing_eq_true_iff {nodes : List PathNode} :
    showsNothing nodes = true ↔ ¬ ∃ node ∈ nodes, node ≠ .literal "" := by
  simp [showsNothing]

mutual

theorem PathNode.checkFilled_eq_ok_iff : (node : PathNode) →
    (node.checkFilled = .ok () ↔
      node.HasContent ∧ ∀ part ∈ node.parts, Everywhere PathNode.HasContent part)
  | .literal _ => by simp [PathNode.checkFilled, PathNode.HasContent, PathNode.parts]
  | .parameter _ => by simp [PathNode.checkFilled, PathNode.HasContent, PathNode.parts]
  | .alternation left right => by
    have hcontent : (PathNode.alternation left right).HasContent ↔
        ¬ (showsNothing left = true ∨ showsNothing right = true) := by
      rw [showsNothing_eq_true_iff, showsNothing_eq_true_iff]
      simp [PathNode.HasContent, PathNode.parts]
    rw [PathNode.checkFilled, hcontent]
    by_cases hshows : showsNothing left = true ∨ showsNothing right = true
    · simp [hshows]
    · rw [if_neg hshows, check_bind_eq_ok, checkFilledPath_eq_ok_iff left,
        checkFilledPath_eq_ok_iff right]
      simp [hshows, PathNode.parts]
  | .optional group => by
    have hcontent : (PathNode.optional group).HasContent ↔ ¬ showsNothing group = true := by
      rw [showsNothing_eq_true_iff]
      simp [PathNode.HasContent, PathNode.parts]
    rw [PathNode.checkFilled, hcontent]
    by_cases hshows : showsNothing group = true
    · simp [hshows]
    · rw [if_neg hshows, checkFilledPath_eq_ok_iff group]
      simp [hshows, PathNode.parts]
  | .wildcard => by simp [PathNode.checkFilled, PathNode.HasContent, PathNode.parts]

/-- The check passes nodes if every branch and every group has content, at any depth. -/
theorem checkFilledPath_eq_ok_iff : (nodes : List PathNode) →
    (checkFilledPath nodes = .ok () ↔ Everywhere PathNode.HasContent nodes)
  | [] => ⟨fun _ => everywhere_nil _, fun _ => rfl⟩
  | node :: rest => by
    rw [checkFilledPath, check_bind_eq_ok, node.checkFilled_eq_ok_iff,
      checkFilledPath_eq_ok_iff rest, everywhere_cons, and_assoc]

end

theorem hasContent_of_normal {nodes : List PathNode} (h : NormalPath nodes) :
    Everywhere PathNode.HasContent nodes := by
  rw [normalPath_iff] at h
  intro node hi part hp
  have hne : part ≠ [] := fun hnil => (h node hi).2 (hnil ▸ hp)
  obtain ⟨inner, hm⟩ := List.exists_mem_of_ne_nil part hne
  exact ⟨inner, hm, (h inner (hi.of_part hp (.here hm))).1⟩

/-! ## Items -/

theorem checkNamed_eq_ok_iff {items : List QueryItem} :
    checkNamed items = .ok () ↔ ∀ item ∈ items, ∀ p ∈ item.parameters, p.name ≠ "" := by
  induction items with
  | nil => simp [checkNamed]
  | cons item rest ih =>
    have hany : item.parameters.any Parameter.isNameless = false ↔
        ∀ p ∈ item.parameters, p.name ≠ "" := by
      simp [Parameter.isNameless]
    rw [checkNamed, List.forall_mem_cons, ← ih, ← hany]
    cases item.parameters.any Parameter.isNameless with
    | true => simp
    | false => simp

/-! ## Empty literals -/

mutual

/-- The node without the empty literals inside it; nothing else is changed. -/
def PathNode.pruned : PathNode → PathNode
  | .literal t => .literal t
  | .parameter p => .parameter p
  | .alternation left right => .alternation (prunedPath left) (prunedPath right)
  | .optional group => .optional (prunedPath group)
  | .wildcard => .wildcard

/-- The nodes without empty literals, at any depth. -/
def prunedPath : List PathNode → List PathNode
  | [] => []
  | node :: rest => if node = .literal "" then prunedPath rest else node.pruned :: prunedPath rest

end

theorem prunedPath_ne_nil {nodes : List PathNode} (h : ∃ node ∈ nodes, node ≠ .literal "") :
    prunedPath nodes ≠ [] := by
  induction nodes with
  | nil => simp at h
  | cons node rest ih =>
    rw [prunedPath]
    by_cases hnode : node = .literal ""
    · rw [if_pos hnode]
      obtain ⟨other, hm, hne⟩ := h
      rcases List.mem_cons.mp hm with rfl | hm
      · exact absurd hnode hne
      · exact ih ⟨other, hm, hne⟩
    · rw [if_neg hnode]
      exact List.cons_ne_nil _ _

-- The check looks at parts as they are written, normal form at what is left of them. Something is
-- left of a part with content, so the node around it stays what it is.

mutual

theorem PathNode.normalize?_eq_pruned : (node : PathNode) → node ≠ .literal "" →
    node.HasContent → (∀ part ∈ node.parts, Everywhere PathNode.HasContent part) →
    node.normalize? = some node.pruned
  | .literal t, hne, _, _ => by
    have ht : t ≠ "" := fun h => hne (h ▸ rfl)
    rw [PathNode.normalize?, if_neg ht, PathNode.pruned]
  | .parameter _, _, _, _ => by rw [PathNode.normalize?, PathNode.pruned]
  | .alternation left right, _, hc, hp => by
    have hleft : left ∈ (PathNode.alternation left right).parts := List.mem_cons_self
    have hright : right ∈ (PathNode.alternation left right).parts :=
      List.mem_cons_of_mem _ List.mem_cons_self
    rw [PathNode.normalize?, normalizePath_eq_pruned left (hp left hleft),
      normalizePath_eq_pruned right (hp right hright), PathNode.pruned,
      PathNode.ofBranches?_eq (prunedPath_ne_nil (hc left hleft))
        (prunedPath_ne_nil (hc right hright))]
  | .optional group, _, hc, hp => by
    have hgroup : group ∈ (PathNode.optional group).parts := List.mem_cons_self
    rw [PathNode.normalize?, normalizePath_eq_pruned group (hp group hgroup), PathNode.pruned,
      PathNode.ofGroup?_eq (prunedPath_ne_nil (hc group hgroup))]
  | .wildcard, _, _, _ => by rw [PathNode.normalize?, PathNode.pruned]

/-- If every branch and every group has content, normal form only takes out empty literals. -/
theorem normalizePath_eq_pruned : (nodes : List PathNode) →
    Everywhere PathNode.HasContent nodes → normalizePath nodes = prunedPath nodes
  | [], _ => by rw [normalizePath, prunedPath]
  | node :: rest, h => by
    obtain ⟨hc, hp, hrest⟩ := everywhere_cons.mp h
    rw [normalizePath, prunedPath, normalizePath_eq_pruned rest hrest]
    by_cases hnode : node = .literal ""
    · rw [if_pos hnode, hnode, PathNode.normalize?, if_pos rfl]
    · rw [if_neg hnode, node.normalize?_eq_pruned hnode hc hp]

end

/-! ## Routes -/

theorem Route.build_eq_ok_iff {path : List PathNode} {query : List QueryItem} {r : Route} :
    Route.build path query = .ok r ↔
      Everywhere PathNode.HasContent path ∧
        (∀ item ∈ query, ∀ p ∈ item.parameters, p.name ≠ "") ∧ Route.of path query = r := by
  rw [Route.build, check_bind_eq_ok, checkFilledPath_eq_ok_iff, check_bind_eq_ok,
    checkNamed_eq_ok_iff]
  exact and_congr_right fun _ => and_congr_right fun _ =>
    ⟨Except.ok.inj, congrArg Except.ok⟩

/-- **Building is exact.** A route is built of nodes and items exactly if no branch and no group, at
any depth, holds nothing but empty literals, and every query parameter has a name. It has the nodes
without their empty literals, where nothing else is changed at any depth, and the items. -/
theorem Route.exists_build_iff (path : List PathNode) (query : List QueryItem) :
    ((∃ r, Route.build path query = .ok r) ↔
      Everywhere PathNode.HasContent path ∧
        ∀ item ∈ query, ∀ p ∈ item.parameters, p.name ≠ "") ∧
      ∀ r, Route.build path query = .ok r → r.path = prunedPath path ∧ r.query = query := by
  refine ⟨⟨fun ⟨r, h⟩ => ?_, fun ⟨hc, hn⟩ => ?_⟩, fun r h => ?_⟩
  · obtain ⟨hc, hn, -⟩ := Route.build_eq_ok_iff.mp h
    exact ⟨hc, hn⟩
  · exact ⟨Route.of path query, Route.build_eq_ok_iff.mpr ⟨hc, hn, rfl⟩⟩
  · obtain ⟨hc, -, rfl⟩ := Route.build_eq_ok_iff.mp h
    exact ⟨normalizePath_eq_pruned path hc, rfl⟩

/-- The outer group has content as it is written, and the inner one is refused. -/
example : Route.build [.literal "a", .optional [.optional [.literal ""]]] [] =
    .error (.emptyOptional "()") := by
  cbv

end DeepLink
