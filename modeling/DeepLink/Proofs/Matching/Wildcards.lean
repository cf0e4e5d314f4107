import DeepLink.Proofs.Matching.Branches
import DeepLink.Proofs.Matching.Extents
import DeepLink.Proofs.Matching.Soundness

/-!
# Wildcards in a row, and a wildcard at the end

A wildcard takes nothing on its own, so it does not match as the node at which another wildcard
ends. Two of them in a row therefore either stop matching at the front, or they still stand in a row
behind it (`takeFront_or_pastFront`): no way of passing nodes leads past them, and nodes in which
they stand do not match (`takeNodes_all_of_infix`).

A wildcard at the end takes whatever is left. In front of it stand nodes without nodes of their own,
and each of them looks at one text. A wildcard among them ends at the first text that the node after
it takes, so it does not depend on the texts behind this one where it ends (`firstMatch_append`).
Texts that are added at the end all go to the last wildcard (`takeNodes_all_append`).
-/

namespace DeepLink

variable {nodes : List PathNode} {texts : List String}

/-! ## Two wildcards in a row -/

theorem firstMatch_wildcard (texts : List String) : firstMatch .wildcard texts = none := by
  rw [firstMatch, List.findSome?_eq_none_iff]
  intro n _
  rw [takeNode, Option.map_none]

/-- Nothing passes two wildcards in a row: the front takes nothing, or they stand behind it. -/
theorem takeFront_or_pastFront (h : [.wildcard, .wildcard] <:+: nodes) (texts : List String) :
    takeFront nodes texts = none ∨ [.wildcard, .wildcard] <:+: pastFront nodes := by
  cases nodes using front_cases with
  | nil => exact .inl rfl
  | last =>
    have hlen := h.length_le
    simp at hlen
  | lookahead next more =>
    by_cases hnext : next = .wildcard
    · left
      rw [takeFront, hnext, firstMatch_wildcard, ite_self]
    · right
      rcases List.infix_cons_iff.mp h with hfront | hbehind
      · exact absurd (List.cons_prefix_cons.mp (List.cons_prefix_cons.mp hfront).2).1.symm hnext
      · rcases List.infix_cons_iff.mp hbehind with hfront | hbehind
        · exact absurd (List.cons_prefix_cons.mp hfront).1.symm hnext
        · exact hbehind
  | single node nodes hw =>
    right
    rw [pastFront_cons hw]
    rcases List.infix_cons_iff.mp h with hfront | hbehind
    · exact absurd (List.cons_prefix_cons.mp hfront).1.symm hw
    · exact hbehind

theorem takeNodes_all_of_infix (h : [.wildcard, .wildcard] <:+: nodes) (texts : List String) :
    takeNodes .all nodes texts = none := by
  induction nodes using nodes_induction generalizing texts with
  | nil => exact absurd h (by simp)
  | front nodes hne ih =>
    rw [Option.eq_none_iff_forall_ne_some]
    intro taken htaken
    obtain ⟨first, second, hf, hs, -⟩ := (takeNodes_all_eq_some_iff hne).mp htaken
    rcases takeFront_or_pastFront h texts with hnone | hbehind
    · rw [hnone] at hf
      cases hf
    · rw [ih hbehind] at hs
      cases hs

/-- **Two wildcards in a row never match.** A route with two of them in its path matches no
components. A branch with two of them takes nothing of any texts, so its alternation takes what the
other branch takes. -/
theorem match?_of_wildcards_in_a_row :
    (∀ (r : Route) (c : Components), [.wildcard, .wildcard] <:+: r.path → r.match? c = none) ∧
      ∀ (left right : List PathNode) (texts : List String),
        ([.wildcard, .wildcard] <:+: left → takeNodes .all left texts = none ∧
          takeNode (.alternation left right) texts = takeNodes .all right texts) ∧
        ([.wildcard, .wildcard] <:+: right → takeNodes .all right texts = none ∧
          takeNode (.alternation left right) texts = takeNodes .all left texts) := by
  refine ⟨fun r c h => ?_, fun left right texts => ⟨fun h => ?_, fun h => ?_⟩⟩
  · rw [Route.match?, bindPath, takeNodes_all_of_infix h]
  · have hnone := takeNodes_all_of_infix h texts
    rw [takeNode, hnone, Option.or_none, Option.none_or, ite_self]
    exact ⟨rfl, rfl⟩
  · have hnone := takeNodes_all_of_infix h texts
    rw [takeNode, hnone, Option.or_none, Option.none_or, ite_self]
    exact ⟨rfl, rfl⟩

/-- The path of `a/*/b/*/*/c`. -/
def starsBetween : List PathNode :=
  [.literal "a", .wildcard, .literal "b", .wildcard, .wildcard, .literal "c"]

/-- A wildcard before the two ends at a node, and a shorter branch matches instead. -/
theorem match?_of_starsBetween :
    (Route.of starsBetween []).match? ⟨["a", "x", "b", "y", "z", "c"], []⟩ = none ∧
      takeNodes .all starsBetween ["a", "x", "b", "y", "z", "c"] = none ∧
      takeNode (.alternation starsBetween [.literal "a", .wildcard])
        ["a", "x", "b", "y", "z", "c"] = some ⟨6, .empty⟩ ∧
      takeNode (.alternation [.literal "a", .wildcard] starsBetween)
        ["a", "x", "b", "y", "z", "c"] = some ⟨6, .empty⟩ := by
  have h : [.wildcard, .wildcard] <:+: starsBetween :=
    ⟨[.literal "a", .wildcard, .literal "b"], [.literal "c"], rfl⟩
  have hpath : (Route.of starsBetween []).path = starsBetween := by decide +kernel
  obtain ⟨hroute, hbranch⟩ := match?_of_wildcards_in_a_row
  refine ⟨hroute _ _ (hpath ▸ h), ((hbranch _ [.literal "a", .wildcard] _).1 h).1, ?_, ?_⟩
  · rw [((hbranch _ [.literal "a", .wildcard] _).1 h).2]
    decide +kernel
  · rw [((hbranch [.literal "a", .wildcard] _ _).2 h).2]
    decide +kernel

/-! ## A wildcard at the end -/

theorem append_skip (a b : Taken) (n : Nat) : a ++ b.skip n = (a ++ b).skip n := by
  show Taken.mk (a.count + (n + b.count)) _ = Taken.mk (n + (a.count + b.count)) _
  rw [Nat.add_left_comm]
  rfl

/-- What a node takes that is a literal or a parameter is decided by the first text. -/
theorem takeNode_append {node : PathNode} (hn : node.IsPlain) (hne : texts ≠ [])
    (more : List String) : takeNode node (texts ++ more) = takeNode node texts := by
  cases texts with
  | nil => exact absurd rfl hne
  | cons text texts =>
    rw [List.cons_append, takeNode_of_isPlain hn, takeNode_of_isPlain hn]

/-- A wildcard ends where it ended before. -/
theorem firstMatch_append {next : PathNode} (hn : next.IsPlain) {taken : Taken}
    (h : firstMatch next texts = some taken) (more : List String) :
    firstMatch next (texts ++ more) = some taken := by
  have hsame : ∀ n, n < texts.length →
      takeNode next ((texts ++ more).drop n) = takeNode next (texts.drop n) := by
    intro n hlt
    rw [List.drop_append_of_le_length (Nat.le_of_lt hlt), takeNode_append hn]
    rw [← List.length_pos_iff, List.length_drop]
    omega
  obtain ⟨n, hpos, hlt, hsome, hnone⟩ := findSome?_range'_eq_some_iff.mp h
  refine findSome?_range'_eq_some_iff.mpr ⟨n, hpos, ?_, ?_, fun k hk hkn => ?_⟩
  · rw [List.length_append]
    omega
  · rw [hsame n (by omega)]
    exact hsome
  · rw [hsame k (by omega)]
    exact hnone k hk hkn

section Trailing

variable {front : List PathNode} (hg : ∀ node ∈ front, ¬ node.IsGroup)

include hg

/-- Before the last wildcard, the front takes what it took before. -/
theorem takeFront_append (hne : front ≠ []) {taken : Taken}
    (h : takeFront (front ++ [.wildcard]) texts = some taken) (more : List String) :
    takeFront (front ++ [.wildcard]) (texts ++ more) = some taken ∧
      pastFront (front ++ [.wildcard]) = pastFront front ++ [.wildcard] := by
  cases front using front_cases with
  | nil => exact absurd rfl hne
  | last =>
    -- Two wildcards are in a row.
    change takeFront [.wildcard, .wildcard] texts = some taken at h
    rw [takeFront, firstMatch_wildcard, ite_self] at h
    cases h
  | lookahead next rest =>
    change takeFront (.wildcard :: next :: (rest ++ [.wildcard])) texts = some taken at h
    show takeFront (.wildcard :: next :: (rest ++ [.wildcard])) _ = _ ∧ _
    rw [takeFront] at h ⊢
    split at h
    · cases h
    · next hlen =>
      have hnext : next ≠ .wildcard := by
        rintro rfl
        rw [firstMatch_wildcard] at h
        cases h
      have hplain : next.IsPlain := PathNode.isPlain_of_not_isGroup (hg next (by simp)) hnext
      refine ⟨?_, rfl⟩
      have hlonger : (texts ++ more).length = texts.length + more.length := List.length_append
      rw [if_neg (by omega), firstMatch_append hplain h more]
  | single node rest hw =>
    have hplain : node.IsPlain := PathNode.isPlain_of_not_isGroup (hg node (by simp)) hw
    rw [List.cons_append] at h ⊢
    rw [takeFront_cons hw] at h ⊢
    rw [pastFront_cons hw, pastFront_cons hw]
    have htexts : texts ≠ [] := by
      rintro rfl
      rw [takeNode_nil_of_isPlain hplain] at h
      cases h
    rw [takeNode_append hplain htexts]
    exact ⟨h, rfl⟩

/-- All texts that are added at the end are covered by the last wildcard. -/
theorem takeNodes_all_append {taken : Taken}
    (h : takeNodes .all (front ++ [.wildcard]) texts = some taken) (more : List String) :
    takeNodes .all (front ++ [.wildcard]) (texts ++ more) = some (taken.skip more.length) := by
  induction front using nodes_induction generalizing texts taken with
  | nil =>
    change takeNodes .all [.wildcard] texts = some taken at h
    show takeNodes .all [.wildcard] (texts ++ more) = _
    rw [takeNodes, if_neg fun he => by cases he.2] at h ⊢
    split at h
    · cases h
    · next hne =>
      cases h
      rw [if_neg fun he => hne (List.append_eq_nil_iff.mp he).1, List.length_append, Nat.add_comm]
      rfl
  | front front hne ih =>
    have hrow : front ++ [.wildcard] ≠ [] := by simp
    obtain ⟨first, second, hf, hs, rfl⟩ := (takeNodes_all_eq_some_iff hrow).mp h
    obtain ⟨hf', hpast⟩ := takeFront_append hg hne hf more
    rw [hpast] at hs
    refine (takeNodes_all_eq_some_iff hrow).mpr ⟨first, second.skip more.length, hf', ?_, ?_⟩
    · rw [hpast, List.drop_append_of_le_length (count_le_of_takeFront hf)]
      exact ih (fun node hm => hg node ((pastFront_suffix front).mem hm)) hs
    · exact append_skip first second more.length

end Trailing

/-- **A wildcard at the end takes whatever is added.** If no node of a route has nodes of its own,
the last one is a wildcard and the route matches components, then it matches them with any texts
added at the end of the path, and binds the same. -/
theorem Route.match?_append_path {r : Route} {c : Components} {b : Bindings}
    (hg : ∀ node ∈ r.path, ¬ node.IsGroup) (hlast : r.path.getLast? = some .wildcard)
    (h : r.match? c = some b) (more : List String) :
    r.match? ⟨c.path ++ more, c.query⟩ = some b := by
  obtain ⟨front, hpath⟩ := List.getLast?_eq_some_iff.mp hlast
  obtain ⟨path, query, hp, hq, rfl⟩ := Route.match?_eq_some_iff_bind.mp h
  refine Route.match?_eq_some_iff_bind.mpr ⟨path, query, ?_, hq, rfl⟩
  rw [hpath] at hg hp ⊢
  rw [bindPath_eq_some_iff_takeNodes] at hp ⊢
  have hfront : ∀ node ∈ front, ¬ node.IsGroup := fun node hm =>
    hg node (List.mem_append_left _ hm)
  have hmore := takeNodes_all_append hfront hp (Components.mk more []).effectivePath
  have heffective : (Components.mk (c.path ++ more) c.query).effectivePath =
      c.effectivePath ++ (Components.mk more []).effectivePath := List.filter_append _ _
  rw [heffective, hmore, List.length_append, Nat.add_comm]
  rfl

/-- The route of `users/*/:int(id)/*?(:tab)`. -/
def usersPosts : Route :=
  Route.of [.literal "users", .wildcard, .parameter (.typed .int "id"), .wildcard]
    [.optional (.untyped "tab")]

/-- The first wildcard still ends at the first number, and the added number is not bound. -/
theorem match?_append_path_usersPosts :
    usersPosts.match? ⟨["users", "a", "7", "posts"], [("tab", "new")]⟩ =
        some ⟨[(.typed .int "id", "7"), (.untyped "tab", "new")]⟩ ∧
      usersPosts.match? ⟨["users", "a", "7", "posts", "", "8", "users"], [("tab", "new")]⟩ =
        some ⟨[(.typed .int "id", "7"), (.untyped "tab", "new")]⟩ := by
  have hg : ∀ node ∈ usersPosts.path, ¬ node.IsGroup := by
    have hpath : usersPosts.path =
        [.literal "users", .wildcard, .parameter (.typed .int "id"), .wildcard] := by
      decide +kernel
    rw [hpath]
    simp [PathNode.IsGroup]
  have h : usersPosts.match? ⟨["users", "a", "7", "posts"], [("tab", "new")]⟩ =
      some ⟨[(.typed .int "id", "7"), (.untyped "tab", "new")]⟩ := by decide +kernel
  exact ⟨h, Route.match?_append_path hg (by decide +kernel) h ["", "8", "users"]⟩

end DeepLink
