import DeepLink.Proofs.Template.Depth

/-!
# Templates with many branches

The branches of an alternation in parentheses, any number of them, are read as alternations that
nest to the right: the first pipe stands between the first branch and all others (`nestBranches`,
`readBranch_branchesTokens`). Slashes and further nodes may follow (`ofTemplate?_choiceText`). The
text opens one pair of parentheses around all branches, so their number is not limited.
-/

namespace DeepLink

/-! ## Texts, tokens and nodes of branches -/

/-- The texts of the branches with pipes between them. -/
def branchesText (branches : List (List PathNode)) : String :=
  "|".intercalate (branches.map pathText)

/-- Branches in parentheses, with more nodes after them. -/
def choiceText (branches : List (List PathNode)) (more : List PathNode) : String :=
  "/".intercalate (("(" ++ branchesText branches ++ ")") :: more.map PathNode.text)

def branchesTokens : List (List PathNode) → List Token
  | [] => []
  | [last] => pathTokens last
  | first :: next :: rest => pathTokens first ++ .mark .pipe :: branchesTokens (next :: rest)

def groupTokens (branches : List (List PathNode)) : List Token :=
  .mark .openParen :: (branchesTokens branches ++ [.mark .closeParen])

def choiceTokens (branches : List (List PathNode)) : List PathNode → List Token
  | [] => groupTokens branches
  | node :: rest => groupTokens branches ++ .mark .slash :: pathTokens (node :: rest)

/-- The nodes that branches stand for: the first one, or else all that follow it. -/
def nestBranches : List (List PathNode) → List PathNode
  | [] => []
  | [last] => last
  | first :: next :: rest => [.alternation first (nestBranches (next :: rest))]

variable {branches : List (List PathNode)} {more : List PathNode}

theorem lexes_branchesText (branches : List (List PathNode)) :
    Lexes (branchesText branches) (branchesTokens branches) := by
  induction branches with
  | nil => exact .empty
  | cons first rest ih =>
    cases rest with
    | nil => simpa [branchesText, branchesTokens] using lexes_pathText first
    | cons next rest =>
      rw [branchesText, List.map_cons, List.map_cons, String.intercalate_cons_cons,
        ← List.map_cons]
      exact .between rfl (lexes_pathText first) ih

theorem lexes_choiceText (branches : List (List PathNode)) (more : List PathNode) :
    Lexes (choiceText branches more) (choiceTokens branches more) := by
  have hg := Lexes.parens (lexes_branchesText branches)
  unfold choiceText
  cases more with
  | nil => simpa [choiceTokens, groupTokens] using hg
  | cons node rest =>
    rw [List.map_cons, String.intercalate_cons_cons, ← List.map_cons, ← pathText_eq_intercalate]
    exact .between rfl hg (lexes_pathText (node :: rest))

/-! ## Parentheses and question marks -/

theorem balanced_branchesTokens (branches : List (List PathNode)) :
    Balanced (branchesTokens branches) := by
  induction branches with
  | nil => exact .nil
  | cons first rest ih =>
    cases rest with
    | nil => exact balanced_pathTokens first
    | cons next rest => exact .between rfl (balanced_pathTokens first) ih

theorem sealed_groupTokens (branches : List (List PathNode)) :
    Sealed .slash (groupTokens branches) :=
  sealed_group (by decide) (balanced_branchesTokens branches)

theorem balanced_choiceTokens (branches : List (List PathNode)) (more : List PathNode) :
    Balanced (choiceTokens branches more) := by
  have hg := (sealed_groupTokens branches).balanced
  cases more with
  | nil => exact hg
  | cons node rest => exact .between rfl hg (balanced_pathTokens (node :: rest))

theorem question_notMem_branchesTokens (branches : List (List PathNode)) :
    .mark .question ∉ branchesTokens branches := by
  induction branches with
  | nil => exact List.not_mem_nil
  | cons first rest ih =>
    have hf := question_notMem_pathTokens first
    cases rest with
    | nil => exact hf
    | cons next rest => simp [branchesTokens, hf, ih]

theorem question_notMem_choiceTokens (branches : List (List PathNode)) (more : List PathNode) :
    .mark .question ∉ choiceTokens branches more := by
  have hb := question_notMem_branchesTokens branches
  have hm := question_notMem_pathTokens more
  cases more with
  | nil => simp [choiceTokens, groupTokens, hb]
  | cons node rest => simp [choiceTokens, groupTokens, hb, hm]

/-! ## Nesting -/

theorem nestingTokens_branchesTokens {k : Nat} (hk : ∀ branch ∈ branches, pathDepth branch ≤ k)
    (d : Nat) : nestingTokens d (branchesTokens branches) ≤ d + k := by
  induction branches with
  | nil => exact Nat.le_add_right d k
  | cons first rest ih =>
    obtain ⟨hf, hr⟩ := List.forall_mem_cons.mp hk
    cases rest with
    | nil =>
      rw [branchesTokens, nestingTokens_pathTokens]
      omega
    | cons next rest =>
      have hrest := ih hr
      rw [branchesTokens, nestingTokens_between rfl (balanced_pathTokens first),
        nestingTokens_pathTokens]
      omega

/-- However many the branches, they nest one deeper than the deepest of them. -/
theorem nestingTokens_choiceTokens {k : Nat} (hb : ∀ branch ∈ branches, pathDepth branch ≤ k)
    (hm : pathDepth more ≤ k + 1) : nestingTokens 0 (choiceTokens branches more) ≤ k + 1 := by
  have hg : nestingTokens 0 (groupTokens branches) ≤ k + 1 := by
    have hinner := nestingTokens_branchesTokens hb (0 + 1)
    rw [groupTokens, nestingTokens_parens (balanced_branchesTokens branches)]
    omega
  cases more with
  | nil => exact hg
  | cons node rest =>
    rw [choiceTokens, nestingTokens_between rfl (sealed_groupTokens branches).balanced,
      nestingTokens_pathTokens]
    omega

/-! ## Reading branches -/

theorem nestBranches_ne_nil {first : List PathNode} (hf : first ≠ [])
    (rest : List (List PathNode)) : nestBranches (first :: rest) ≠ [] := by
  cases rest with
  | nil => exact hf
  | cons next rest => exact List.cons_ne_nil _ _

theorem normalPath_nestBranches (hb : ∀ branch ∈ branches, branch ≠ [] ∧ NormalPath branch) :
    NormalPath (nestBranches branches) := by
  induction branches with
  | nil => trivial
  | cons first rest ih =>
    obtain ⟨⟨hne, hf⟩, hr⟩ := List.forall_mem_cons.mp hb
    cases rest with
    | nil => exact hf
    | cons next rest =>
      have hnext := nestBranches_ne_nil (hr next List.mem_cons_self).1 rest
      exact ⟨⟨hne, hnext, hf, ih hr⟩, trivial⟩

namespace Template

theorem readBranch_branchesTokens (hb : ∀ branch ∈ branches, branch ≠ [] ∧ NormalPath branch) :
    readBranch (branchesTokens branches) = .ok (nestBranches branches) := by
  induction branches with
  | nil => cbv
  | cons first rest ih =>
    obtain ⟨⟨hne, hf⟩, hr⟩ := List.forall_mem_cons.mp hb
    have hs := sealed_pathTokens first
    have hread := readPath_tokens first hf
    cases rest with
    | nil =>
      rw [branchesTokens, readBranch_eq, hs.notCut]
      exact hread
    | cons next rest =>
      have hnext := nestBranches_ne_nil (hr next List.mem_cons_self).1 rest
      rw [branchesTokens, readBranch_eq, cutOutside_append_mark hs]
      exact branches_eq (fun node => [node]) hread hne (ih hr) hnext

theorem readComponent_groupTokens (hlen : 2 ≤ branches.length)
    (hb : ∀ branch ∈ branches, branch ≠ [] ∧ NormalPath branch) :
    ∃ node, readComponent (groupTokens branches) = .ok (some node) ∧
      nestBranches branches = [node] := by
  match branches with
  | first :: next :: rest =>
    obtain ⟨⟨hne, hf⟩, hr⟩ := List.forall_mem_cons.mp hb
    have hnext := nestBranches_ne_nil (hr next List.mem_cons_self).1 rest
    refine ⟨.alternation first (nestBranches (next :: rest)), ?_, rfl⟩
    exact readComponent_branches (balanced_branchesTokens (first :: next :: rest))
      (sealed_pathTokens first) (readPath_tokens first hf) hne (readBranch_branchesTokens hr) hnext

theorem readPath_choiceTokens (hlen : 2 ≤ branches.length)
    (hb : ∀ branch ∈ branches, branch ≠ [] ∧ NormalPath branch) (hm : NormalPath more) :
    readPath (choiceTokens branches more) = .ok (nestBranches branches ++ more) := by
  obtain ⟨node, hread, hnest⟩ := readComponent_groupTokens hlen hb
  have hs := sealed_groupTokens branches
  rw [hnest]
  cases more with
  | nil => exact readPath_component hs hread
  | cons next rest => exact readPath_slash hs hread (readPath_tokens (next :: rest) hm)

end Template

/-- **Templates with many branches.** Two branches or more are read as alternations that nest to the
right, whatever their number. -/
theorem ofTemplate?_choiceText (hlen : 2 ≤ branches.length)
    (hb : ∀ branch ∈ branches, branch ≠ [] ∧ NormalPath branch) (hm : NormalPath more)
    (hbd : ∀ branch ∈ branches, pathDepth branch < nestingLimit)
    (hmd : pathDepth more ≤ nestingLimit) :
    ∃ r, Route.ofTemplate? (choiceText branches more) = .ok r ∧
      r.path = nestBranches branches ++ more ∧ r.query = [] := by
  have hd : nestingTokens 0 (choiceTokens branches more) ≤ nestingLimit := by
    refine nestingTokens_choiceTokens (k := nestingLimit - 1) (fun branch hmem => ?_) hmd
    exact Nat.le_sub_one_of_lt (hbd branch hmem)
  have hlex : Token.ofTemplate? (choiceText branches more) = .ok (choiceTokens branches more) :=
    (lexes_choiceText branches more).ofTemplate?_eq
  refine ⟨Route.of (nestBranches branches ++ more) [], ?_, ?_, rfl⟩
  · rw [Route.ofTemplate?, hlex]
    show Template.readTokens (choiceTokens branches more) = _
    rw [Template.readTokens,
      Template.cutQuery_of_notMem (question_notMem_choiceTokens branches more)]
    show (Template.checkParens 0 (choiceTokens branches more)).bind _ = _
    rw [Template.checkParens_eq (balanced_choiceTokens branches more) 0 hd]
    show (Template.readPath (choiceTokens branches more)).bind _ = _
    rw [Template.readPath_choiceTokens hlen hb hm]
    rfl
  · exact normalizePath_of_normal _ (normalPath_append (normalPath_nestBranches hb) hm)

end DeepLink
