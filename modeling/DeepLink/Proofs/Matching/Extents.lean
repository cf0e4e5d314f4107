import DeepLink.Proofs.Matching.Preference

/-!
# All nodes, or as many as there are texts for

Matching passes nodes from the front, a wildcard together with the node after it (`takeFront`,
`pastFront`). Nodes take what their front takes, and then what the nodes behind it take of the texts
that are left (`takeNodes_eq_some_iff`). They never take more texts than there are, and where there
are none they bind nothing (`count_le_of_takeNodes`, `eq_nothing_of_takeNodes`).

The two extents differ only in what they make of nodes for which no text is left. So whatever all
nodes take, they take while there is any text, and the other way round where they leave a text
(`agreeUnlessOver_takeNodes`).
-/

namespace DeepLink

/-! ## What is taken at most -/

theorem count_append (a b : Taken) : (a ++ b).count = a.count + b.count := rfl

theorem bindPath_eq_some_iff_takeNodes {nodes : List PathNode} {texts : List String}
    {b : Bindings} :
    bindPath nodes texts = some b ↔ takeNodes .all nodes texts = some ⟨texts.length, b⟩ := by
  rw [bindPath]
  cases takeNodes .all nodes texts with
  | none => simp
  | some taken =>
    obtain ⟨count, bindings⟩ := taken
    by_cases hcount : count = texts.length
    · simp [hcount]
    · simp [hcount]

theorem count_le_of_takeNode {node : PathNode} {texts : List String} {taken : Taken}
    (h : takeNode node texts = some taken) : taken.count ≤ texts.length := by
  obtain ⟨reading, rest, -, rfl, rfl⟩ := (node.settles _ _).mp h
  rw [List.length_append]
  exact Nat.le_add_right _ _

theorem count_le_of_takeNodes {extent : Extent} {nodes : List PathNode} {texts : List String}
    {taken : Taken} (h : takeNodes extent nodes texts = some taken) :
    taken.count ≤ texts.length := by
  obtain ⟨readings, rest, -, rfl, rfl⟩ := (settlesPath nodes _ _ _).mp h
  rw [List.length_append]
  exact Nat.le_add_right _ _

theorem eq_nothing_of_takeNode {node : PathNode} {taken : Taken}
    (h : takeNode node [] = some taken) : taken = .nothing := by
  obtain ⟨reading, rest, -, ht, rfl⟩ := (node.settles _ _).mp h
  obtain ⟨hnil, -⟩ := List.append_eq_nil_iff.mp ht
  rw [Reading.taken, hnil, reading.bindings_of_texts hnil]
  rfl

/-- Where there are no texts, nodes take nothing, if they match. -/
theorem eq_nothing_of_takeNodes {extent : Extent} {nodes : List PathNode} {taken : Taken}
    (h : takeNodes extent nodes [] = some taken) : taken = .nothing := by
  obtain ⟨readings, rest, -, ht, rfl⟩ := (settlesPath nodes _ _ _).mp h
  obtain ⟨hnil, -⟩ := List.append_eq_nil_iff.mp ht
  rw [takenOf, hnil, bindingsOf_of_texts readings hnil]
  rfl

/-! ## From front to front -/

/-- What the front of the nodes takes: the first node, or a wildcard with the node after it. -/
def takeFront : List PathNode → List String → Option Taken
  | [], _ => none
  | [.wildcard], texts => if texts = [] then none else some ⟨texts.length, .empty⟩
  | .wildcard :: next :: more, texts =>
    if texts.length < more.length + 2 then none else firstMatch next texts
  | node :: _, texts => takeNode node texts

/-- The nodes behind the front. -/
def pastFront : List PathNode → List PathNode
  | .wildcard :: _ :: more => more
  | nodes => nodes.tail

/-- Nodes are none, a last wildcard, a wildcard with a node after it, or another node in front. -/
@[elab_as_elim]
theorem front_cases {motive : List PathNode → Prop} (nil : motive [])
    (last : motive [.wildcard])
    (lookahead : ∀ next more, motive (.wildcard :: next :: more))
    (single : ∀ node nodes, node ≠ .wildcard → motive (node :: nodes))
    (nodes : List PathNode) : motive nodes := by
  cases nodes with
  | nil => exact nil
  | cons node nodes =>
    by_cases hw : node = .wildcard
    · subst hw
      cases nodes with
      | nil => exact last
      | cons next more => exact lookahead next more
    · exact single node nodes hw

section Front

variable {extent : Extent} {node : PathNode} {nodes : List PathNode} {texts : List String}

theorem takeFront_cons (hw : node ≠ .wildcard) :
    takeFront (node :: nodes) texts = takeNode node texts := by
  rw [takeFront]
  · exact fun h _ => hw h
  · exact fun _ _ h _ => hw h

theorem pastFront_cons (hw : node ≠ .wildcard) : pastFront (node :: nodes) = nodes := by
  rw [pastFront]
  · rfl
  · exact fun _ _ h => hw (List.cons.inj h).1

theorem length_pastFront_lt (hne : nodes ≠ []) : (pastFront nodes).length < nodes.length := by
  fun_cases pastFront nodes with
  | case1 next more =>
    simp only [List.length_cons]
    omega
  | case2 nodes _ =>
    have hpos := List.length_pos_iff.mpr hne
    rw [List.length_tail]
    omega

theorem pastFront_suffix (nodes : List PathNode) : pastFront nodes <:+ nodes := by
  fun_cases pastFront nodes with
  | case1 next more => exact (List.suffix_cons next more).trans (List.suffix_cons _ _)
  | case2 nodes _ => exact List.tail_suffix nodes

/-- What holds of no nodes, and of nodes if it holds behind their front, holds of all nodes. -/
@[elab_as_elim]
theorem nodes_induction {motive : List PathNode → Prop} (nil : motive [])
    (front : ∀ nodes, nodes ≠ [] → motive (pastFront nodes) → motive nodes)
    (nodes : List PathNode) : motive nodes := by
  by_cases hne : nodes = []
  · rw [hne]
    exact nil
  · exact front nodes hne (nodes_induction nil front (pastFront nodes))
termination_by nodes.length
decreasing_by exact length_pastFront_lt hne

theorem takeNodes_whileAny_nil (nodes : List PathNode) :
    takeNodes .whileAny nodes [] = some .nothing := by
  rw [settlesPath nodes]
  refine ⟨[], [], ?_, rfl, rfl⟩
  cases nodes with
  | nil => rw [PrefersPath]
  | cons node nodes =>
    rw [PrefersPath]
    exact ⟨rfl, rfl⟩

/-- Unless the nodes may stop for want of texts, their front takes first. -/
theorem takeNodes_eq_bind (hne : nodes ≠ []) (hgo : extent = .whileAny → texts ≠ []) :
    takeNodes extent nodes texts =
      (takeFront nodes texts).bind fun taken =>
        taken.followedBy texts (takeNodes extent (pastFront nodes)) := by
  have hover : ¬(texts = [] ∧ extent = .whileAny) := fun h => hgo h.2 h.1
  cases nodes using front_cases with
  | nil => exact absurd rfl hne
  | last =>
    rw [takeNodes, if_neg hover, takeFront]
    by_cases hnil : texts = []
    · rw [if_pos hnil]
      rfl
    · rw [if_neg hnil]
      rfl
  | lookahead next more =>
    rw [takeNodes_wildcard, if_neg hover, takeFront, pastFront]
    by_cases hlen : texts.length < more.length + 2
    · rw [if_pos hlen, if_pos hlen]
      rfl
    · rw [if_neg hlen, if_neg hlen]
  | single node nodes hw =>
    rw [takeNodes_cons hw, if_neg hover, takeFront_cons hw, pastFront_cons hw]

/-- Nodes take what their front takes, and then what the nodes behind it take. -/
theorem takeNodes_eq_some_iff (hne : nodes ≠ []) (hgo : extent = .whileAny → texts ≠ [])
    {taken : Taken} :
    takeNodes extent nodes texts = some taken ↔
      ∃ first second, takeFront nodes texts = some first ∧
        takeNodes extent (pastFront nodes) (texts.drop first.count) = some second ∧
        first ++ second = taken := by
  rw [takeNodes_eq_bind hne hgo, Option.bind_eq_some_iff]
  simp only [followedBy_eq_some_iff, exists_and_left]

theorem takeNodes_all_eq_some_iff (hne : nodes ≠ []) {taken : Taken} :
    takeNodes .all nodes texts = some taken ↔
      ∃ first second, takeFront nodes texts = some first ∧
        takeNodes .all (pastFront nodes) (texts.drop first.count) = some second ∧
        first ++ second = taken :=
  takeNodes_eq_some_iff hne fun he => by cases he

theorem count_le_of_firstMatch {next : PathNode} {taken : Taken}
    (h : firstMatch next texts = some taken) : taken.count ≤ texts.length := by
  obtain ⟨covered, reading, rest, -, -, rfl, -, -, rfl⟩ :=
    (firstMatch_eq_some_iff next.settles).mp h
  rw [List.length_append, List.length_append]
  exact Nat.add_le_add_left (Nat.le_add_right _ _) _

theorem count_le_of_takeFront {taken : Taken} (h : takeFront nodes texts = some taken) :
    taken.count ≤ texts.length := by
  cases nodes using front_cases with
  | nil => cases h
  | last =>
    rw [takeFront] at h
    split at h
    · cases h
    · cases h
      exact Nat.le_refl _
  | lookahead next more =>
    rw [takeFront] at h
    split at h
    · cases h
    · exact count_le_of_firstMatch h
  | single node nodes hw =>
    rw [takeFront_cons hw] at h
    exact count_le_of_takeNode h

end Front

/-! ## The two extents -/

/-- `within` takes whatever `whole` takes, and `whole` takes what `within` takes unless no text is
left. -/
def AgreeUnlessOver (whole within : List String → Option Taken) : Prop :=
  ∀ texts taken, (whole texts = some taken → within texts = some taken) ∧
    (within texts = some taken → taken.count < texts.length → whole texts = some taken)

theorem agreeUnlessOver_takeNodes (nodes : List PathNode) :
    AgreeUnlessOver (takeNodes .all nodes) (takeNodes .whileAny nodes) := by
  induction nodes using nodes_induction with
  | nil =>
    intro texts taken
    rw [takeNodes, takeNodes]
    exact ⟨id, fun h _ => h⟩
  | front nodes hne ih =>
    intro texts taken
    by_cases hnil : texts = []
    · subst hnil
      refine ⟨fun h => ?_, fun _ hlt => absurd hlt (Nat.not_lt_zero _)⟩
      rw [eq_nothing_of_takeNodes h, takeNodes_whileAny_nil]
    · rw [takeNodes_eq_some_iff hne fun _ => hnil, takeNodes_eq_some_iff hne fun _ => hnil]
      constructor
      · rintro ⟨first, second, hf, hs, rfl⟩
        exact ⟨first, second, hf, (ih _ _).1 hs, rfl⟩
      · rintro ⟨first, second, hf, hs, rfl⟩ hlt
        refine ⟨first, second, hf, (ih _ _).2 hs ?_, rfl⟩
        rw [count_append] at hlt
        rw [List.length_drop]
        omega

theorem takeNodes_all_eq_none {nodes : List PathNode} {texts : List String}
    (h : takeNodes .whileAny nodes texts = none) : takeNodes .all nodes texts = none := by
  rw [Option.eq_none_iff_forall_ne_some]
  intro taken htaken
  have hsome := (agreeUnlessOver_takeNodes nodes texts taken).1 htaken
  rw [h] at hsome
  cases hsome

/-- **All nodes, or as many as there are texts for.** What nodes take if all of them have to match,
they take if they may stop where the texts are over. What they take then, they take if all have to
match, unless they come to the end of the texts. So a group matches as a whole or not at all, unless
the texts end inside it. -/
theorem extents_agree (nodes : List PathNode) (texts : List String) (taken : Taken) :
    (takeNodes .all nodes texts = some taken → takeNodes .whileAny nodes texts = some taken) ∧
      (takeNodes .whileAny nodes texts = some taken → taken.count < texts.length →
        takeNodes .all nodes texts = some taken) ∧
      (takeNode (.optional nodes) texts = some taken →
        taken = (takeNodes .all nodes texts).getD .nothing ∨
          takeNodes .all nodes texts = none ∧ taken.count = texts.length) := by
  obtain ⟨hwithin, hwhole⟩ := agreeUnlessOver_takeNodes nodes texts taken
  refine ⟨hwithin, hwhole, fun h => ?_⟩
  rw [takeNode] at h
  cases hany : takeNodes .whileAny nodes texts with
  | none =>
    rw [hany] at h
    rw [takeNodes_all_eq_none hany]
    exact .inl (Option.some.inj h).symm
  | some found =>
    rw [hany] at h
    obtain rfl : found = taken := Option.some.inj h
    by_cases hlt : found.count < texts.length
    · rw [hwhole hany hlt]
      exact .inl rfl
    · have hover : found.count = texts.length :=
        Nat.le_antisymm (count_le_of_takeNodes hany) (Nat.not_lt.mp hlt)
      cases hall : takeNodes .all nodes texts with
      | none => exact .inr ⟨rfl, hover⟩
      | some whole =>
        have hsame := (agreeUnlessOver_takeNodes nodes texts whole).1 hall
        rw [hany] at hsame
        exact .inl (Option.some.inj hsame)

/-- The nodes of `(details/:id/(tab))`. -/
def detailsGroup : List PathNode :=
  [.literal "details", .parameter (.untyped "id"), .optional [.literal "tab"]]

/-- The group leaves a text and matches as a whole, or the texts end inside it. -/
theorem extents_agree_details :
    takeNodes .all detailsGroup ["details", "7", "x"] = some ⟨2, ⟨[(.untyped "id", "7")]⟩⟩ ∧
      takeNodes .whileAny detailsGroup ["details", "7", "x"] =
        some ⟨2, ⟨[(.untyped "id", "7")]⟩⟩ ∧
      takeNode (.optional detailsGroup) ["details"] = some ⟨1, .empty⟩ ∧
      takeNodes .all detailsGroup ["details"] = none := by
  have hany : takeNodes .whileAny detailsGroup ["details", "7", "x"] =
      some ⟨2, ⟨[(.untyped "id", "7")]⟩⟩ := by decide +kernel
  have hall := (extents_agree detailsGroup _ _).2.1 hany (by decide)
  have hgroup : takeNode (.optional detailsGroup) ["details"] = some ⟨1, .empty⟩ := by
    decide +kernel
  refine ⟨hall, (extents_agree detailsGroup _ _).1 hall, hgroup, ?_⟩
  rcases (extents_agree detailsGroup _ _).2.2 hgroup with hwhole | ⟨hnone, -⟩
  · exact absurd hwhole (by decide +kernel)
  · exact hnone

end DeepLink
