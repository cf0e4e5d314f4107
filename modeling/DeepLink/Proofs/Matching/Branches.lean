import DeepLink.Matching
import DeepLink.Proofs.Matching.Preference
import DeepLink.Proofs.Template.Branches

/-!
# The order of branches

Branches in parentheses nest to the right, and what follows the first pipe counts as one node if
another pipe follows. So matching tries branches as they are written; it compares no more than the
last two, and tries the one with more nodes first (`tryOrder`, `takeNodes_nestBranches`). This is
the order from most to fewest nodes exactly if none but the last two are out of it
(`tryOrder_eq_longestFirst_iff`).

Rows of literals and parameters take one text for each node. Of branches that are rows, the first
one in order that fits is taken for good (`bindPath_nestBranches`).
-/

namespace DeepLink

/-! ## Orders -/

/-- The branches as they are written, but of the last two the one with more nodes first. -/
def tryOrder : List (List PathNode) → List (List PathNode)
  | [] => []
  | [only] => [only]
  | [left, right] => if left.length < right.length then [right, left] else [left, right]
  | first :: second :: third :: rest => first :: tryOrder (second :: third :: rest)

/-- The first branch has no fewer nodes than the second. -/
def asLong (a b : List PathNode) : Bool := b.length ≤ a.length

/-- The branches from most to fewest nodes, as they are written on a tie. -/
def longestFirst (branches : List (List PathNode)) : List (List PathNode) :=
  branches.mergeSort asLong

/-- No branch but the last two has fewer nodes than a branch after it. -/
def Descends : List (List PathNode) → Prop
  | first :: second :: third :: rest =>
    (∀ branch ∈ second :: third :: rest, branch.length ≤ first.length) ∧
      Descends (second :: third :: rest)
  | _ => True

variable {branches : List (List PathNode)}

theorem tryOrder_perm (branches : List (List PathNode)) : (tryOrder branches).Perm branches := by
  fun_induction tryOrder branches with
  | case1 => exact .refl _
  | case2 only => exact .refl _
  | case3 left right h => exact .swap _ _ _
  | case4 left right h => exact .refl _
  | case5 first second third rest ih => exact .cons first ih

@[simp] theorem asLong_iff {a b : List PathNode} : asLong a b = true ↔ b.length ≤ a.length :=
  decide_eq_true_iff

theorem asLong_trans (a b c : List PathNode) (hab : asLong a b = true) (hbc : asLong b c = true) :
    asLong a c = true := asLong_iff.mpr (Nat.le_trans (asLong_iff.mp hbc) (asLong_iff.mp hab))

theorem asLong_total (a b : List PathNode) : (asLong a b || asLong b a) = true := by
  have htotal := Nat.le_total b.length a.length
  simpa using htotal

/-- A branch with no fewer nodes than any after it stays in front. -/
theorem longestFirst_cons {first : List PathNode}
    (h : ∀ branch ∈ branches, branch.length ≤ first.length) :
    longestFirst (first :: branches) = first :: longestFirst branches := by
  obtain ⟨l₁, l₂, hcons, hrest, hl⟩ := List.mergeSort_cons asLong_trans asLong_total first branches
  have hnil : l₁ = [] := by
    refine List.eq_nil_iff_forall_not_mem.mpr fun branch hmem => ?_
    have hbranch : branch ∈ branches := by
      have hm : branch ∈ l₁ ++ l₂ := List.mem_append_left _ hmem
      rw [← hrest] at hm
      exact List.mem_mergeSort.mp hm
    have hlong : asLong first branch = true := asLong_iff.mpr (h branch hbranch)
    have hnot := hl branch hmem
    rw [hlong] at hnot
    cases hnot
  rw [hnil] at hcons hrest
  rw [longestFirst, hcons, longestFirst, hrest]
  rfl

theorem longestFirst_pair (left right : List PathNode) :
    longestFirst [left, right] =
      if left.length < right.length then [right, left] else [left, right] := by
  unfold longestFirst
  by_cases h : left.length < right.length
  · have hle : ¬ right.length ≤ left.length := Nat.not_le.mpr h
    simp [List.mergeSort, asLong, h, hle]
  · have hle : right.length ≤ left.length := Nat.not_lt.mp h
    simp [List.mergeSort, asLong, h, hle]

theorem longestFirst_sorted (branches : List (List PathNode)) :
    (longestFirst branches).Pairwise fun a b => b.length ≤ a.length := by
  have hsorted := List.pairwise_mergeSort asLong_trans asLong_total branches
  exact hsorted.imp asLong_iff.mp

/-- Branches are tried from most to fewest nodes exactly if none but the last two are out of this
order. -/
theorem tryOrder_eq_longestFirst_iff :
    tryOrder branches = longestFirst branches ↔ Descends branches := by
  fun_induction tryOrder branches with
  | case1 => simp [longestFirst, Descends]
  | case2 only => simp [longestFirst, Descends]
  | case3 left right hlt => simp [longestFirst_pair, hlt, Descends]
  | case4 left right hlt => simp [longestFirst_pair, hlt, Descends]
  | case5 first second third rest ih =>
    constructor
    · intro h
      have hsorted := longestFirst_sorted (first :: second :: third :: rest)
      rw [← h] at hsorted
      have hfirst : ∀ branch ∈ second :: third :: rest, branch.length ≤ first.length :=
        fun branch hmem =>
          List.rel_of_pairwise_cons hsorted ((tryOrder_perm _).mem_iff.mpr hmem)
      rw [longestFirst_cons hfirst] at h
      exact ⟨hfirst, ih.mp (List.cons.inj h).2⟩
    · rintro ⟨hfirst, hrest⟩
      rw [longestFirst_cons hfirst, ih.mpr hrest]

theorem tryOrder_cons (first : List PathNode) (h : 2 ≤ branches.length) :
    tryOrder (first :: branches) = first :: tryOrder branches := by
  match branches with
  | second :: third :: rest => rw [tryOrder]

/-- It does not matter which of the last two branches is written first, unless they have the same
number of nodes. -/
theorem tryOrder_swap {left right : List PathNode} (h : left.length ≠ right.length)
    (before : List (List PathNode)) :
    tryOrder (before ++ [left, right]) = tryOrder (before ++ [right, left]) := by
  induction before with
  | nil =>
    show tryOrder [left, right] = tryOrder [right, left]
    rw [tryOrder, tryOrder]
    by_cases hlt : left.length < right.length
    · rw [if_pos hlt, if_neg (Nat.lt_asymm hlt)]
    · rw [if_neg hlt, if_pos (by omega)]
  | cons first before ih =>
    rw [List.cons_append, List.cons_append, tryOrder_cons first (by simp),
      tryOrder_cons first (by simp), ih]

/-! ## Matching branches -/

theorem takeNodes_all_cons {node : PathNode} (hw : node ≠ .wildcard) (nodes : List PathNode)
    (texts : List String) :
    takeNodes .all (node :: nodes) texts =
      (takeNode node texts).bind fun taken => taken.followedBy texts (takeNodes .all nodes) := by
  rw [takeNodes_cons hw, if_neg fun h => by cases h.2]

theorem takeNodes_all_singleton {node : PathNode} (hw : node ≠ .wildcard) (texts : List String) :
    takeNodes .all [node] texts = takeNode node texts := by
  have hnil : ∀ taken : Taken, taken.followedBy texts (takeNodes .all []) = some taken := by
    intro taken
    rw [Taken.followedBy, takeNodes]
    show some (Taken.mk _ (taken.bindings ++ Bindings.empty)) = some taken
    rw [Bindings.append_empty]
    rfl
  rw [takeNodes_all_cons hw, funext hnil, Option.bind_fun_some]

theorem findSome?_cons_eq_or {α β : Type} (f : α → Option β) (a : α) (l : List α) :
    (a :: l).findSome? f = (f a).or (l.findSome? f) := by
  rw [List.findSome?_cons]
  cases f a <;> rfl

/-- Matching takes what the first branch takes that takes anything, in the order of trying. -/
theorem takeNodes_nestBranches (hne : branches ≠ []) (hb : ∀ branch ∈ branches, branch ≠ [])
    (texts : List String) :
    takeNodes .all (nestBranches branches) texts =
      (tryOrder branches).findSome? (takeNodes .all · texts) := by
  fun_induction tryOrder branches with
  | case1 => exact absurd rfl hne
  | case2 only => simp [nestBranches]
  | case3 left right hlt =>
    rw [nestBranches, takeNodes_all_singleton (by simp), takeNode, nestBranches, if_pos hlt,
      findSome?_cons_eq_or, List.findSome?_singleton]
  | case4 left right hlt =>
    rw [nestBranches, takeNodes_all_singleton (by simp), takeNode, nestBranches, if_neg hlt,
      findSome?_cons_eq_or, List.findSome?_singleton]
  | case5 first second third rest ih =>
    obtain ⟨hfirst, hrest⟩ := List.forall_mem_cons.mp hb
    -- What follows the pipe is one node, and the first branch has one at least.
    have hlen : ¬ first.length < (nestBranches (second :: third :: rest)).length := by
      have hpos := List.length_pos_iff.mpr hfirst
      rw [nestBranches, List.length_singleton]
      omega
    rw [nestBranches, takeNodes_all_singleton (by simp), takeNode, if_neg hlen,
      ih (List.cons_ne_nil _ _) hrest, findSome?_cons_eq_or]

/-! ## Rows of literals and parameters -/

/-- Literals with something in them, and parameters. -/
def IsRow (nodes : List PathNode) : Prop := NormalPath nodes ∧ ∀ node ∈ nodes, node.IsPlain

def PathNode.fits : PathNode → String → Bool
  | .literal text, component => component = text
  | .parameter p, component => p.accepts component
  | _, _ => false

def PathNode.bound : PathNode → String → Bindings
  | .parameter p, component => .bind p component
  | _, _ => .empty

/-- Each node fits the text in its place; more texts may follow. -/
def fitsFront : List PathNode → List String → Bool
  | [], _ => true
  | _ :: _, [] => false
  | node :: nodes, text :: texts => node.fits text && fitsFront nodes texts

/-- What nodes bind to the texts in their places. -/
def boundFront : List PathNode → List String → Bindings
  | [], _ => .empty
  | _ :: _, [] => .empty
  | node :: nodes, text :: texts => node.bound text ++ boundFront nodes texts

/-- What is bound if the first branch that fits is taken for good: the nodes after it have to fit
the texts that it leaves, all of them. -/
def commit (order : List (List PathNode)) (more : List PathNode) (texts : List String) :
    Option Bindings :=
  (order.find? (fitsFront · texts)).bind fun chosen =>
    let rest := texts.drop chosen.length
    if fitsFront more rest ∧ more.length = rest.length then
      some (boundFront chosen texts ++ boundFront more rest)
    else none

theorem length_le_of_fitsFront {nodes : List PathNode} {texts : List String}
    (h : fitsFront nodes texts = true) : nodes.length ≤ texts.length := by
  fun_induction fitsFront nodes texts with
  | case1 texts => exact Nat.zero_le _
  | case2 node nodes => cases h
  | case3 node nodes text texts ih =>
    have hrest := ih (Bool.and_eq_true_iff.mp h).2
    simp only [List.length_cons]
    omega

theorem takeNode_of_isPlain {node : PathNode} (hn : node.IsPlain) (text : String)
    (texts : List String) :
    takeNode node (text :: texts) = if node.fits text then some ⟨1, node.bound text⟩ else none := by
  cases node with
  | literal t => simp [takeNode, PathNode.fits, PathNode.bound]
  | parameter p =>
    rw [takeNode]
    rfl
  | alternation left right => exact hn.elim
  | optional group => exact hn.elim
  | wildcard => exact hn.elim

theorem takeNode_nil_of_isPlain {node : PathNode} (hn : node.IsPlain) :
    takeNode node [] = none := by
  cases node with
  | literal t => rw [takeNode]
  | parameter p => rw [takeNode]
  | alternation left right => exact hn.elim
  | optional group => exact hn.elim
  | wildcard => exact hn.elim

/-- A row takes one text for each node if it fits. -/
theorem takeNodes_of_isPlain {nodes : List PathNode} (hn : ∀ node ∈ nodes, node.IsPlain)
    (texts : List String) :
    takeNodes .all nodes texts =
      if fitsFront nodes texts then some ⟨nodes.length, boundFront nodes texts⟩ else none := by
  induction nodes generalizing texts with
  | nil =>
    rw [takeNodes, fitsFront, boundFront]
    rfl
  | cons node nodes ih =>
    obtain ⟨hnode, hnodes⟩ := List.forall_mem_cons.mp hn
    have hw : node ≠ .wildcard := by
      rintro rfl
      exact hnode
    rw [takeNodes_all_cons hw]
    cases texts with
    | nil =>
      rw [takeNode_nil_of_isPlain hnode]
      rfl
    | cons text texts =>
      rw [takeNode_of_isPlain hnode]
      by_cases hfit : node.fits text = true
      · rw [if_pos hfit, Option.bind_some, Taken.followedBy]
        show (takeNodes .all nodes texts).map _ = _
        rw [ih hnodes, fitsFront, hfit, Bool.true_and]
        by_cases hrest : fitsFront nodes texts = true
        · rw [if_pos hrest, if_pos hrest, boundFront, List.length_cons, Nat.add_comm]
          rfl
        · rw [if_neg hrest, if_neg hrest]
          rfl
      · rw [if_neg hfit, fitsFront, Bool.eq_false_iff.mpr hfit]
        rfl

theorem findSome?_takeNodes {order : List (List PathNode)}
    (h : ∀ branch ∈ order, ∀ node ∈ branch, node.IsPlain) (texts : List String) :
    order.findSome? (takeNodes .all · texts) =
      (order.find? (fitsFront · texts)).map fun chosen =>
        ⟨chosen.length, boundFront chosen texts⟩ := by
  induction order with
  | nil => rfl
  | cons branch order ih =>
    obtain ⟨hbranch, horder⟩ := List.forall_mem_cons.mp h
    rw [findSome?_cons_eq_or, takeNodes_of_isPlain hbranch, ih horder, List.find?_cons]
    by_cases hfit : fitsFront branch texts = true
    · rw [if_pos hfit, hfit]
      rfl
    · rw [if_neg hfit, Bool.eq_false_iff.mpr hfit, Option.none_or]

theorem nestBranches_eq_singleton (hlen : 2 ≤ branches.length) :
    ∃ node, node ≠ .wildcard ∧ nestBranches branches = [node] := by
  match branches with
  | first :: next :: rest =>
    exact ⟨.alternation first (nestBranches (next :: rest)), by simp, rfl⟩

variable {more : List PathNode}

/-- Matching commits to the first branch that fits, in the order of trying. -/
theorem bindPath_nestBranches (hlen : 2 ≤ branches.length)
    (hb : ∀ branch ∈ branches, branch ≠ [] ∧ ∀ node ∈ branch, node.IsPlain)
    (hm : ∀ node ∈ more, node.IsPlain) (texts : List String) :
    bindPath (nestBranches branches ++ more) texts = commit (tryOrder branches) more texts := by
  have hne : branches ≠ [] := List.ne_nil_of_length_pos (by omega)
  have horder : ∀ branch ∈ tryOrder branches, ∀ node ∈ branch, node.IsPlain := fun branch hbranch =>
    (hb branch ((tryOrder_perm branches).mem_iff.mp hbranch)).2
  obtain ⟨node, hw, hnode⟩ := nestBranches_eq_singleton hlen
  have htake := takeNodes_nestBranches hne (fun branch hbranch => (hb branch hbranch).1) texts
  rw [hnode, takeNodes_all_singleton hw, findSome?_takeNodes horder] at htake
  rw [bindPath, hnode, List.singleton_append, takeNodes_all_cons hw, htake, commit]
  cases hfind : (tryOrder branches).find? (fitsFront · texts) with
  | none => rfl
  | some chosen =>
    have hle := length_le_of_fitsFront (List.find?_some (p := (fitsFront · texts)) hfind)
    simp only [Option.map_some, Option.bind_some, Taken.followedBy]
    rw [takeNodes_of_isPlain hm]
    by_cases hrest : fitsFront more (texts.drop chosen.length) = true
    · have hcount : chosen.length + more.length = texts.length ↔
          more.length = (texts.drop chosen.length).length := by
        rw [List.length_drop]
        omega
      simp only [hrest, if_true, true_and, Option.map_some, ← hcount]
      rfl
    · simp [hrest]

/-! ## Matching templates with many branches -/

theorem Route.match?_of_query_eq_nil {r : Route} (hq : r.query = []) (c : Components) :
    r.match? c = bindPath r.path c.effectivePath := by
  rw [Route.match?, hq, bindQuery]
  cases bindPath r.path c.effectivePath with
  | none => rfl
  | some b => exact congrArg some (Bindings.append_empty b)

theorem pathDepth_of_isPlain {nodes : List PathNode} (h : ∀ node ∈ nodes, node.IsPlain) :
    pathDepth nodes ≤ 1 := by
  induction nodes with
  | nil => exact Nat.zero_le 1
  | cons node nodes ih =>
    obtain ⟨hnode, hnodes⟩ := List.forall_mem_cons.mp h
    have hrest := ih hnodes
    have hdepth : node.depth ≤ 1 := by
      cases node with
      | literal text => exact Nat.zero_le 1
      | parameter p =>
        rw [PathNode.depth, Parameter.pathDepth]
        split <;> omega
      | alternation left right => exact hnode.elim
      | optional group => exact hnode.elim
      | wildcard => exact hnode.elim
    rw [pathDepth]
    omega

theorem exists_of_branches (hlen : 2 ≤ branches.length)
    (hb : ∀ branch ∈ branches, branch ≠ [] ∧ IsRow branch) (hm : IsRow more) :
    ∃ r, Route.ofTemplate? (choiceText branches more) = .ok r ∧
      ∀ c, r.match? c = commit (tryOrder branches) more c.effectivePath := by
  have hnormal : ∀ branch ∈ branches, branch ≠ [] ∧ NormalPath branch := fun branch hmem =>
    ⟨(hb branch hmem).1, (hb branch hmem).2.1⟩
  have hplain : ∀ branch ∈ branches, branch ≠ [] ∧ ∀ node ∈ branch, node.IsPlain :=
    fun branch hmem => ⟨(hb branch hmem).1, (hb branch hmem).2.2⟩
  have hdepth : ∀ branch ∈ branches, pathDepth branch < nestingLimit := fun branch hmem =>
    Nat.lt_of_le_of_lt (pathDepth_of_isPlain (hplain branch hmem).2) (by decide)
  have hmore : pathDepth more ≤ nestingLimit :=
    Nat.le_trans (pathDepth_of_isPlain hm.2) (by decide)
  obtain ⟨r, hr, hpath, hquery⟩ := ofTemplate?_choiceText hlen hnormal hm.1 hdepth hmore
  refine ⟨r, hr, fun c => ?_⟩
  rw [Route.match?_of_query_eq_nil hquery, hpath]
  exact bindPath_nestBranches hlen hplain hm.2 _

/-- **The order of branches.** Rows of literals and parameters in parentheses, with more of them
after the parentheses, are a template. It matches by committing to the first branch that fits, where
branches are tried as written and of the last two the one with more nodes first. So branches are
tried longest first if none but the last two are out of that order, and it does not matter which of
the last two is written first, unless they have the same number of nodes. -/
theorem match?_of_branches (hlen : 2 ≤ branches.length)
    (hb : ∀ branch ∈ branches, branch ≠ [] ∧ IsRow branch) (hm : IsRow more) :
    ∃ r, Route.ofTemplate? (choiceText branches more) = .ok r ∧
      (∀ c, r.match? c = commit (tryOrder branches) more c.effectivePath) ∧
      (Descends branches →
        ∀ c, r.match? c = commit (longestFirst branches) more c.effectivePath) ∧
      ∀ before left right, branches = before ++ [left, right] → left.length ≠ right.length →
        ∃ swapped, Route.ofTemplate? (choiceText (before ++ [right, left]) more) = .ok swapped ∧
          ∀ c, swapped.match? c = r.match? c := by
  obtain ⟨r, hr, hmatch⟩ := exists_of_branches hlen hb hm
  refine ⟨r, hr, hmatch, fun hd c => ?_, ?_⟩
  · rw [hmatch, tryOrder_eq_longestFirst_iff.mpr hd]
  · rintro before left right rfl hne
    have hperm : (before ++ [right, left]).Perm (before ++ [left, right]) :=
      .append_left before (.swap left right [])
    have hslen : 2 ≤ (before ++ [right, left]).length := hperm.length_eq ▸ hlen
    obtain ⟨swapped, hs, hsmatch⟩ := exists_of_branches hslen
      (fun branch hmem => hb branch (hperm.mem_iff.mp hmem)) hm
    refine ⟨swapped, hs, fun c => ?_⟩
    rw [hmatch, hsmatch, tryOrder_swap hne]

/-- The branches of `(recipe|recipes|recipes/archive)`. -/
def recipeBranches : List (List PathNode) :=
  [[.literal "recipe"], [.literal "recipes"], [.literal "recipes", .literal "archive"]]

theorem match?_of_recipeBranches :
    ∃ r, Route.ofTemplate? (choiceText recipeBranches [.parameter (.untyped "recipeId")]) = .ok r ∧
      r.match? ⟨["recipes", "archive", "1"], []⟩ = some ⟨[(.untyped "recipeId", "1")]⟩ ∧
      r.match? ⟨["recipes", "archive"], []⟩ = none := by
  have hb : ∀ branch ∈ recipeBranches, branch ≠ [] ∧ IsRow branch := by
    simp [recipeBranches, IsRow, NormalPath, PathNode.Normal, PathNode.IsPlain]
  have hm : IsRow [.parameter (.untyped "recipeId")] := by
    simp [IsRow, NormalPath, PathNode.Normal, PathNode.IsPlain]
  obtain ⟨r, hr, hmatch, -⟩ := match?_of_branches (by decide) hb hm
  refine ⟨r, hr, ?_, ?_⟩
  · rw [hmatch]
    decide +kernel
  · rw [hmatch]
    decide +kernel

/-- The branches of `(a|a/b|c/d/e)`, where the first is shorter than the second, and the first two
branches the other way round. -/
def shorterFirst : List (List PathNode) :=
  [[.literal "a"], [.literal "a", .literal "b"], [.literal "c", .literal "d", .literal "e"]]

def longerFirst : List (List PathNode) :=
  [[.literal "a", .literal "b"], [.literal "a"], [.literal "c", .literal "d", .literal "e"]]

/-- Three branches are not tried longest first, and the order in which they are written matters,
though no two have the same number of nodes. -/
theorem match?_of_shorterFirst :
    ∃ r swapped, Route.ofTemplate? (choiceText shorterFirst []) = .ok r ∧
      Route.ofTemplate? (choiceText longerFirst []) = .ok swapped ∧
      longestFirst shorterFirst = longestFirst longerFirst ∧
      commit (longestFirst shorterFirst) [] ["a", "b"] = some .empty ∧
      r.match? ⟨["a", "b"], []⟩ = none ∧ swapped.match? ⟨["a", "b"], []⟩ = some .empty := by
  have hm : IsRow [] := ⟨trivial, by simp⟩
  have hshorter : ∀ branch ∈ shorterFirst, branch ≠ [] ∧ IsRow branch := by
    simp [shorterFirst, IsRow, NormalPath, PathNode.Normal, PathNode.IsPlain]
  have hlonger : ∀ branch ∈ longerFirst, branch ≠ [] ∧ IsRow branch := by
    simp [longerFirst, IsRow, NormalPath, PathNode.Normal, PathNode.IsPlain]
  obtain ⟨r, hr, hmatch⟩ := exists_of_branches (by decide) hshorter hm
  obtain ⟨swapped, hs, hsmatch⟩ := exists_of_branches (by decide) hlonger hm
  have hlongest : longestFirst shorterFirst =
      [[.literal "c", .literal "d", .literal "e"], [.literal "a", .literal "b"],
        [.literal "a"]] := by
    simp [longestFirst, shorterFirst, List.mergeSort, asLong]
  refine ⟨r, swapped, hr, hs, ?_, ?_, ?_, ?_⟩
  · rw [hlongest]
    simp [longestFirst, longerFirst, List.mergeSort, asLong]
  · rw [hlongest]
    decide +kernel
  · rw [hmatch]
    decide +kernel
  · rw [hsmatch]
    decide +kernel

end DeepLink
