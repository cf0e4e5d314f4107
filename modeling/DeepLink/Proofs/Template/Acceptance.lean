import Mathlib.Data.List.Basic
import DeepLink.Proofs.Outcome
import DeepLink.Proofs.Template.Grammar
import DeepLink.Proofs.Template.Paths

/-!
# Reading accepts the grammar of paths

Reading finds whatever the grammar allows (`readPath_of_isPath`, by induction on the derivation) and
follows the grammar where the parentheses pair up (`isPath_of_readPath`, by induction on the number
of tokens). So balanced tokens are read as nodes exactly if they stand for them, and they stand for
no others. How a component is read where the parentheses pair up depends on its form
(`componentForm_of_balanced`), whether it is read in the end or refused.
-/

namespace DeepLink.Template

theorem slash_ne_openParen : Mark.slash ≠ .openParen := by decide

theorem pipe_ne_openParen : Mark.pipe ≠ .openParen := by decide

/-! ## Reading finds what the grammar allows -/

theorem literalOf_eq {tokens : List Token} (hp : ∀ t ∈ tokens, t.isParen = false) :
    literalOf tokens = .ok (.literal (joinLiterals tokens)) := by
  have hany : ¬ tokens.any Token.isParen = true := by
    rw [List.any_eq_true]
    rintro ⟨t, ht, htrue⟩
    rw [hp t ht] at htrue
    cases htrue
  rw [literalOf, if_neg hany]

mutual

theorem readPath_of_isPath : {tokens : List Token} → {nodes : List PathNode} →
    IsPath tokens nodes → readPath tokens = .ok nodes
  | _, _, .last hc hv => by
    obtain ⟨node, hn, rfl⟩ := readComponent_of_isComponent hv
    exact readPath_component (hc.sealed slash_ne_openParen) hn
  | _, _, .slash hc hv hr => by
    obtain ⟨node, hn, rfl⟩ := readComponent_of_isComponent hv
    exact readPath_slash (hc.sealed slash_ne_openParen) hn (readPath_of_isPath hr)

theorem readComponent_of_isComponent : {tokens : List Token} → {value : List PathNode} →
    IsComponent tokens value → ∃ node, readComponent tokens = .ok node ∧ node.toList = value
  | _, _, .empty => ⟨none, by rw [readComponent], rfl⟩
  | _, _, .wildcard => ⟨some .wildcard, by rw [readComponent], rfl⟩
  | _, _, .parameter h => by
    rw [readComponent_colon, isParameter_iff.mp h]
    exact ⟨_, rfl, rfl⟩
  | _, _, .bare hcolon h => by
    obtain ⟨before, after, left, right, rfl, rfl, hb, hl, hln, hr, hrn⟩ := readBranches h
    have hcompound : IsCompound (before ++ .mark .pipe :: after) := by
      refine ⟨by simp, fun he => ?_, hcolon⟩
      have hmem : Token.mark .pipe ∈ [Token.mark .star] := he ▸ by simp
      exact absurd hmem (by simp)
    rw [readComponent_eq hcompound, withoutParens, insideParens?_append_mark rfl hb,
      Option.getD_none, cutOutside_append_mark (hb.sealed pipe_ne_openParen)]
    exact ⟨_, branches_eq some hl hln hr hrn, rfl⟩
  | _, _, .wrapped hi h => by
    obtain ⟨before, after, left, right, rfl, rfl, hb, hl, hln, hr, hrn⟩ := readBranches h
    exact ⟨_, readComponent_branches hi (hb.sealed pipe_ne_openParen) hl hln hr hrn, rfl⟩
  | _, _, .optional hc h hg => by
    have hs := hc.sealed pipe_ne_openParen
    have hgroup := readPath_of_isPath h
    rw [readComponent_eq (isCompound_group _), withoutParens_group hs.balanced, hs.notCut,
      insideParens?_group hs.balanced]
    refine ⟨some _, ?_, rfl⟩
    show (readPath _ >>= fun g => groupOf _ g >>= fun node => pure (some node)) = _
    rw [hgroup]
    show (groupOf _ _).bind _ = _
    rw [groupOf_eq _ hg]
    rfl
  | tokens, _, .literal hne hstar hcolon hp hpipe => by
    have hinside : insideParens? tokens = none := by
      cases tokens with
      | nil => exact absurd rfl hne
      | cons t rest => exact insideParens?_cons (hp t List.mem_cons_self) rest
    have hcut := ((clearOf_of_notMem hp hpipe).sealed pipe_ne_openParen).notCut
    rw [readComponent_eq ⟨hne, hstar, hcolon⟩, withoutParens, hinside, Option.getD_none, hcut,
      literalOf_eq hp]
    exact ⟨_, rfl, rfl⟩

/-- The branches of an alternation are read. -/
theorem readBranches : {tokens : List Token} → {node : PathNode} → IsAlternation tokens node →
    ∃ before after left right, tokens = before ++ .mark .pipe :: after ∧
      node = .alternation left right ∧ ClearOf .pipe before ∧ readPath before = .ok left ∧
      left ≠ [] ∧ readBranch after = .ok right ∧ right ≠ []
  | _, _, .branches hb hl hln hr hrn =>
    ⟨_, _, _, _, rfl, rfl, hb, readPath_of_isPath hl, hln, readBranch_of_isBranch hr, hrn⟩

theorem readBranch_of_isBranch : {tokens : List Token} → {nodes : List PathNode} →
    IsBranch tokens nodes → readBranch tokens = .ok nodes
  | _, _, .path hc h => by
    rw [readBranch_eq, (hc.sealed pipe_ne_openParen).notCut]
    exact readPath_of_isPath h
  | _, _, .alternation h => by
    obtain ⟨before, after, left, right, rfl, rfl, hb, hl, hln, hr, hrn⟩ := readBranches h
    rw [readBranch_eq, cutOutside_append_mark (hb.sealed pipe_ne_openParen)]
    exact branches_eq (fun node => [node]) hl hln hr hrn

end

/-! ## The forms of components -/

/-- The form of a balanced component, with how it is read. -/
inductive ComponentForm (tokens : List Token) : Prop
  | empty (ht : tokens = []) (h : readComponent tokens = .ok none)
  | wildcard (ht : tokens = [.mark .star]) (h : readComponent tokens = .ok (some .wildcard))
  | parameter {rest : List Token} (ht : tokens = .mark .colon :: rest)
    (h : readComponent tokens = .ok (some (.parameter (parameterAfterColon rest))))
  | literal (hs : IsCompound tokens) (hc : ClearOf .pipe tokens)
    (h : readComponent tokens = do
      let node ← literalOf tokens
      return some node)
  | bare {before after : List Token} (hs : IsCompound tokens)
    (ht : tokens = before ++ .mark .pipe :: after) (hbefore : ClearOf .pipe before)
    (hafter : Balanced after)
    (h : readComponent tokens = do
      let left ← readPath before
      let right ← readBranch after
      let node ← alternationOf tokens left right
      return some node)
  | optional {inner : List Token} (ht : tokens = .mark .openParen :: (inner ++ [.mark .closeParen]))
    (hi : Balanced inner) (hc : ClearOf .pipe inner)
    (h : readComponent tokens = do
      let group ← readPath inner
      let node ← groupOf tokens group
      return some node)
  | wrapped {inner before after : List Token}
    (ht : tokens = .mark .openParen :: (inner ++ [.mark .closeParen])) (hi : Balanced inner)
    (he : inner = before ++ .mark .pipe :: after) (hbefore : ClearOf .pipe before)
    (hafter : Balanced after)
    (h : readComponent tokens = do
      let left ← readPath before
      let right ← readBranch after
      let node ← alternationOf inner left right
      return some node)

theorem componentForm_of_balanced {tokens : List Token} (hb : Balanced tokens) :
    ComponentForm tokens := by
  by_cases hne : tokens = []
  · exact .empty hne (by rw [hne, readComponent])
  by_cases hstar : tokens = [.mark .star]
  · exact .wildcard hstar (by rw [hstar, readComponent])
  by_cases hcolon : tokens.head? = some (.mark .colon)
  · obtain ⟨rest, ht⟩ := List.head?_eq_some_iff.mp hcolon
    exact .parameter ht (by rw [ht, readComponent_colon])
  have hs : IsCompound tokens := ⟨hne, hstar, hcolon⟩
  have h := readComponent_eq hs
  rcases hb.insideParens?_eq_none_or with hnone | ⟨inner, rfl, hi⟩
  · rw [withoutParens, hnone, Option.getD_none] at h
    rcases hb.cutOutside_cases pipe_ne_openParen with
      ⟨hc, hcut⟩ | ⟨before, after, ht, hcut, hbefore, hafter⟩
    · rw [hcut] at h
      exact .literal hs hc h
    · rw [hcut] at h
      exact .bare hs ht hbefore hafter h
  · rw [withoutParens_group hi, insideParens?_group hi] at h
    rcases hi.cutOutside_cases pipe_ne_openParen with
      ⟨hc, hcut⟩ | ⟨before, after, he, hcut, hbefore, hafter⟩
    · rw [hcut] at h
      exact .optional rfl hi hc h
    · rw [hcut] at h
      exact .wrapped rfl hi he hbefore hafter h

/-! ## Reading follows the grammar -/

theorem exists_of_alternationOf {component : List Token} {left right : List PathNode}
    {node : PathNode} (h : alternationOf component left right = .ok node) :
    left ≠ [] ∧ right ≠ [] ∧ node = .alternation left right := by
  unfold alternationOf at h
  split at h
  · cases h
  · next hne =>
    obtain ⟨hl, hr⟩ := not_or.mp hne
    exact ⟨hl, hr, (Except.ok.inj h).symm⟩

theorem exists_of_groupOf {component : List Token} {group : List PathNode} {node : PathNode}
    (h : groupOf component group = .ok node) : group ≠ [] ∧ node = .optional group := by
  unfold groupOf at h
  split at h
  · cases h
  · next hne => exact ⟨hne, (Except.ok.inj h).symm⟩

theorem exists_of_literalOf {component : List Token} {node : PathNode}
    (h : literalOf component = .ok node) :
    (∀ t ∈ component, t.isParen = false) ∧ node = .literal (joinLiterals component) := by
  unfold literalOf at h
  split at h
  · cases h
  · next hany =>
    have hnone := List.any_eq_false.mp (Bool.eq_false_iff.mpr hany)
    exact ⟨fun t ht => Bool.eq_false_iff.mpr (hnone t ht), (Except.ok.inj h).symm⟩

mutual

theorem isAlternation_of_branches {α : Type} {tokens before after component : List Token}
    (he : tokens = before ++ .mark .pipe :: after) (hb : ClearOf .pipe before)
    (ha : Balanced after) {f : PathNode → α} {result : α}
    (h : (do
      let l ← readPath before
      let r ← readBranch after
      let node ← alternationOf component l r
      return f node) = Except.ok result) :
    ∃ node, IsAlternation tokens node ∧ f node = result := by
  have hlen := congrArg List.length he
  rw [List.length_append, List.length_cons] at hlen
  obtain ⟨left, hl, h⟩ := bind_eq_ok.mp h
  obtain ⟨right, hr, h⟩ := bind_eq_ok.mp h
  obtain ⟨node, hnode, h⟩ := bind_eq_ok.mp h
  obtain ⟨hln, hrn, rfl⟩ := exists_of_alternationOf hnode
  have hleft := isPath_of_readPath (hb.sealed pipe_ne_openParen).balanced hl
  have hright := isBranch_of_readBranch ha hr
  exact ⟨_, he ▸ .branches hb hleft hln hright hrn, Except.ok.inj h⟩
termination_by (tokens.length, 0)

theorem isComponent_of_readComponent {tokens : List Token} (hb : Balanced tokens)
    {value : Option PathNode} (h : readComponent tokens = .ok value) :
    IsComponent tokens value.toList := by
  cases componentForm_of_balanced hb with
  | empty ht hread =>
    obtain rfl := Except.ok.inj (hread.symm.trans h)
    exact ht ▸ .empty
  | wildcard ht hread =>
    obtain rfl := Except.ok.inj (hread.symm.trans h)
    exact ht ▸ .wildcard
  | parameter ht hread =>
    obtain rfl := Except.ok.inj (hread.symm.trans h)
    exact ht ▸ .parameter (isParameter_iff.mpr rfl)
  | literal hs hc hread =>
    obtain ⟨hne, hstar, hcolon⟩ := hs
    obtain ⟨node, hnode, hvalue⟩ := bind_eq_ok.mp (hread.symm.trans h)
    obtain ⟨hp, rfl⟩ := exists_of_literalOf hnode
    cases hvalue
    exact .literal hne hstar hcolon hp (hc.notMem hp)
  | bare hs ht hbefore hafter hread =>
    obtain ⟨node, halt, rfl⟩ := isAlternation_of_branches ht hbefore hafter (hread.symm.trans h)
    exact .bare hs.2.2 halt
  | optional ht hi hc hread =>
    obtain ⟨group, hgroup, hrest⟩ := bind_eq_ok.mp (hread.symm.trans h)
    obtain ⟨node, hnode, hvalue⟩ := bind_eq_ok.mp hrest
    obtain ⟨hg, rfl⟩ := exists_of_groupOf hnode
    cases hvalue
    subst ht
    exact .optional hc (isPath_of_readPath hi hgroup) hg
  | wrapped ht hi he hbefore hafter hread =>
    subst ht
    obtain ⟨node, halt, rfl⟩ := isAlternation_of_branches he hbefore hafter (hread.symm.trans h)
    exact .wrapped hi halt
termination_by (tokens.length, 1)

theorem isPath_of_readPath {tokens : List Token} (hb : Balanced tokens) {nodes : List PathNode}
    (h : readPath tokens = .ok nodes) : IsPath tokens nodes := by
  rw [readPath_eq] at h
  rcases hb.cutOutside_cases slash_ne_openParen with
    ⟨hc, hcut⟩ | ⟨before, after, rfl, hcut, hbefore, hafter⟩
  · rw [hcut] at h
    obtain ⟨node, hnode, rfl⟩ := map_eq_ok.mp h
    exact .last hc (isComponent_of_readComponent hb hnode)
  · rw [hcut] at h
    have hbal := (hbefore.sealed slash_ne_openParen).balanced
    obtain ⟨node, hnode, h⟩ := bind_eq_ok.mp h
    obtain ⟨rest, hrest, h⟩ := bind_eq_ok.mp h
    cases h
    exact .slash hbefore (isComponent_of_readComponent hbal hnode)
      (isPath_of_readPath hafter hrest)
termination_by (tokens.length, 2)

theorem isBranch_of_readBranch {tokens : List Token} (hb : Balanced tokens)
    {nodes : List PathNode} (h : readBranch tokens = .ok nodes) : IsBranch tokens nodes := by
  rw [readBranch_eq] at h
  rcases hb.cutOutside_cases pipe_ne_openParen with
    ⟨hc, hcut⟩ | ⟨before, after, he, hcut, hbefore, hafter⟩
  · rw [hcut] at h
    exact .path hc (isPath_of_readPath hb h)
  · rw [hcut] at h
    obtain ⟨node, halt, rfl⟩ := isAlternation_of_branches he hbefore hafter h
    exact .alternation halt
termination_by (tokens.length, 3)

end

/-! ## Reading a path -/

/-- **The grammar of paths.** Balanced tokens are read as nodes exactly if they stand for these
nodes and for no others. -/
theorem readPath_eq_ok_iff {tokens : List Token} (hb : Balanced tokens) (nodes : List PathNode) :
    readPath tokens = .ok nodes ↔
      IsPath tokens nodes ∧ ∀ other, IsPath tokens other → other = nodes := by
  constructor
  · intro h
    refine ⟨isPath_of_readPath hb h, fun other ho => ?_⟩
    have hother := readPath_of_isPath ho
    rw [h] at hother
    exact (Except.ok.inj hother).symm
  · exact fun h => readPath_of_isPath h.1

theorem readPath_eq_ok_iff_three_branches :
    Balanced [.mark .openParen, .mark .colon, .text "a", .mark .pipe, .text "b", .mark .pipe,
        .text "c", .mark .closeParen, .mark .slash, .text "x"] ∧
      IsPath [.mark .openParen, .mark .colon, .text "a", .mark .pipe, .text "b", .mark .pipe,
        .text "c", .mark .closeParen, .mark .slash, .text "x"]
        [.alternation [.parameter (.untyped "a")] [.alternation [.literal "b"] [.literal "c"]],
          .literal "x"] := by
  have hinner : Balanced [.mark .colon, .text "a", .mark .pipe, .text "b", .mark .pipe,
      .text "c"] := balanced_of_isParen (by decide)
  have hrest : Balanced [.mark .slash, .text "x"] := balanced_of_isParen (by decide)
  have hb := Balanced.group hinner hrest
  exact ⟨hb, ((readPath_eq_ok_iff hb _).mp (by cbv)).1⟩

end DeepLink.Template
