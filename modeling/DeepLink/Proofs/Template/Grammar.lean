import DeepLink.Proofs.Template.Balance
import DeepLink.Template.Node

/-!
# The grammar of paths

`IsPath` says which nodes tokens stand for, as a grammar: slashes outside groups divide a path into
components, and pipes outside groups divide an alternation into branches. It says nothing about how
tokens are scanned, nor in which order the sorts of components are tried.

What the grammar says of marks outside groups is tied to the scans here, and what it says of
parameters to a closed form (`Balanced.cutOutside_cases`, `isParameter_iff`).
-/

namespace DeepLink

/-! ## Marks outside groups -/

/-- The parentheses pair up, and the mark stands at most inside them. -/
inductive ClearOf (m : Mark) : List Token → Prop
  | nil : ClearOf m []
  | cons {t : Token} {rest : List Token} (ht : t.isParen = false) (hm : t ≠ .mark m)
    (hr : ClearOf m rest) : ClearOf m (t :: rest)
  | group {inner rest : List Token} (hi : Balanced inner) (hr : ClearOf m rest) :
    ClearOf m (.mark .openParen :: (inner ++ .mark .closeParen :: rest))

theorem ClearOf.sealed {m : Mark} (hm : m ≠ .openParen) {tokens : List Token}
    (h : ClearOf m tokens) : Sealed m tokens := by
  induction h with
  | nil => exact .nil m
  | cons ht hne _ ih => exact .cons ht hne ih
  | @group inner rest hi _ ih =>
    have hg := (sealed_group hm hi).append ih
    rwa [List.cons_append, List.append_assoc] at hg

theorem clearOf_of_notMem {m : Mark} {tokens : List Token} (hp : ∀ t ∈ tokens, t.isParen = false)
    (hm : .mark m ∉ tokens) : ClearOf m tokens := by
  induction tokens with
  | nil => exact .nil
  | cons t rest ih =>
    obtain ⟨ht, hr⟩ := List.forall_mem_cons.mp hp
    refine .cons ht (fun he => hm ?_) (ih hr fun hrest => hm (List.mem_cons_of_mem _ hrest))
    exact he ▸ List.mem_cons_self

theorem ClearOf.notMem {m : Mark} {tokens : List Token} (h : ClearOf m tokens)
    (hp : ∀ t ∈ tokens, t.isParen = false) : .mark m ∉ tokens := by
  induction h with
  | nil => exact List.not_mem_nil
  | cons _ hm _ ih =>
    intro hmem
    rcases List.mem_cons.mp hmem with he | hrest
    · exact hm he.symm
    · exact ih (fun u hu => hp u (List.mem_cons_of_mem _ hu)) hrest
  | group _ _ _ => exact absurd (hp _ List.mem_cons_self) (by decide)

/-- Balanced tokens are clear of a mark, or divided by its first occurrence outside groups. -/
theorem Balanced.clearOf_or (m : Mark) {tokens : List Token} (h : Balanced tokens) :
    ClearOf m tokens ∨ ∃ before after, tokens = before ++ .mark m :: after ∧
      ClearOf m before ∧ Balanced after := by
  induction h with
  | nil => exact .inl .nil
  | @cons t rest ht hr ih =>
    by_cases hm : t = .mark m
    · exact .inr ⟨[], rest, by rw [hm]; rfl, .nil, hr⟩
    · rcases ih with hc | ⟨before, after, rfl, hc, ha⟩
      · exact .inl (.cons ht hm hc)
      · exact .inr ⟨t :: before, after, rfl, .cons ht hm hc, ha⟩
  | @group inner rest hi _ _ ih =>
    rcases ih with hc | ⟨before, after, rfl, hc, ha⟩
    · exact .inl (.group hi hc)
    · refine .inr ⟨_, after, ?_, .group hi hc, ha⟩
      simp

/-- What cutting does to balanced tokens. -/
theorem Balanced.cutOutside_cases {m : Mark} (hm : m ≠ .openParen) {tokens : List Token}
    (h : Balanced tokens) :
    (ClearOf m tokens ∧ cutOutside (.mark m) tokens = none) ∨
      ∃ before after, tokens = before ++ .mark m :: after ∧
        cutOutside (.mark m) tokens = some (before, after) ∧ ClearOf m before ∧ Balanced after := by
  rcases h.clearOf_or m with hc | ⟨before, after, rfl, hc, ha⟩
  · exact .inl ⟨hc, (hc.sealed hm).notCut⟩
  · exact .inr ⟨before, after, rfl, cutOutside_append_mark (hc.sealed hm) after, hc, ha⟩

/-- Parentheses around everything leave no mark outside. -/
theorem insideParens?_append_mark {m : Mark} (hm : (Token.mark m).isParen = false)
    {before : List Token} (hb : ClearOf m before) (after : List Token) :
    insideParens? (before ++ .mark m :: after) = none := by
  cases hb with
  | nil => exact insideParens?_cons hm after
  | cons ht _ _ => exact insideParens?_cons ht _
  | @group inner rest hi _ =>
    rw [List.cons_append, List.append_assoc, List.cons_append]
    exact insideParens?_group_append hi (by simp)

namespace Template

/-! ## The grammar -/

/-- The tokens after a colon stand for the parameter: a keyword with a name in parentheses gives it
a kind, anything else is all name. -/
inductive IsParameter : List Token → Parameter → Prop
  | typed (kind : Kind) {name : List Token} (hn : ∀ t ∈ name, t.isParen = false) :
    IsParameter (.text kind.keyword :: .mark .openParen :: (name ++ [.mark .closeParen]))
      (.typed kind (joinLiterals name))
  | untyped {tokens : List Token}
    (h : ∀ (kind : Kind) (name : List Token), (∀ t ∈ name, t.isParen = false) →
      tokens ≠ .text kind.keyword :: .mark .openParen :: (name ++ [.mark .closeParen])) :
    IsParameter tokens (.untyped (joinLiterals tokens))

mutual

/-- The tokens stand for the nodes. -/
inductive IsPath : List Token → List PathNode → Prop
  | last {component : List Token} {value : List PathNode} (hc : ClearOf .slash component)
    (hv : IsComponent component value) : IsPath component value
  | slash {component rest : List Token} {value values : List PathNode}
    (hc : ClearOf .slash component) (hv : IsComponent component value) (hr : IsPath rest values) :
    IsPath (component ++ .mark .slash :: rest) (value ++ values)

/-- A component stands for one node, or for none if it is empty. -/
inductive IsComponent : List Token → List PathNode → Prop
  | empty : IsComponent [] []
  | wildcard : IsComponent [.mark .star] [.wildcard]
  | parameter {rest : List Token} {p : Parameter} (h : IsParameter rest p) :
    IsComponent (.mark .colon :: rest) [.parameter p]
  | bare {tokens : List Token} {node : PathNode} (hcolon : tokens.head? ≠ some (.mark .colon))
    (h : IsAlternation tokens node) : IsComponent tokens [node]
  | wrapped {inner : List Token} {node : PathNode} (hi : Balanced inner)
    (h : IsAlternation inner node) :
    IsComponent (.mark .openParen :: (inner ++ [.mark .closeParen])) [node]
  | optional {inner : List Token} {group : List PathNode} (hc : ClearOf .pipe inner)
    (h : IsPath inner group) (hg : group ≠ []) :
    IsComponent (.mark .openParen :: (inner ++ [.mark .closeParen])) [.optional group]
  | literal {tokens : List Token} (hne : tokens ≠ []) (hstar : tokens ≠ [.mark .star])
    (hcolon : tokens.head? ≠ some (.mark .colon)) (hp : ∀ t ∈ tokens, t.isParen = false)
    (hpipe : .mark .pipe ∉ tokens) : IsComponent tokens [.literal (joinLiterals tokens)]

/-- Two branches with the first pipe outside groups between them, neither of them empty. -/
inductive IsAlternation : List Token → PathNode → Prop
  | branches {before after : List Token} {left right : List PathNode} (hb : ClearOf .pipe before)
    (hl : IsPath before left) (hln : left ≠ []) (hr : IsBranch after right) (hrn : right ≠ []) :
    IsAlternation (before ++ .mark .pipe :: after) (.alternation left right)

/-- What follows a pipe is a path, or an alternation again. -/
inductive IsBranch : List Token → List PathNode → Prop
  | path {tokens : List Token} {nodes : List PathNode} (hc : ClearOf .pipe tokens)
    (h : IsPath tokens nodes) : IsBranch tokens nodes
  | alternation {tokens : List Token} {node : PathNode} (h : IsAlternation tokens node) :
    IsBranch tokens [node]

end

/-! ## Parameters -/

/-- The name after a keyword, if the rest is one pair of parentheses without others in it:
everything between them is the name. -/
def typedName? : List Token → Option String
  | .mark .openParen :: rest =>
    match rest.getLast? with
    | some (.mark .closeParen) =>
      if rest.dropLast.any Token.isParen then none else some (joinLiterals rest.dropLast)
    | _ => none
  | _ => none

/-- The typed parameter after a colon, if there is one. -/
def typedParameter? : List Token → Option Parameter
  | .text word :: rest => do
    let kind ← Kind.ofKeyword? word
    let name ← typedName? rest
    return .typed kind name
  | _ => none

/-- The parameter after a colon. What is not typed is all name. -/
def parameterAfterColon (tokens : List Token) : Parameter :=
  (typedParameter? tokens).getD (.untyped (joinLiterals tokens))

theorem typedName?_eq_some_iff {tokens : List Token} {text : String} :
    typedName? tokens = some text ↔ ∃ name, (∀ t ∈ name, t.isParen = false) ∧
      tokens = .mark .openParen :: (name ++ [.mark .closeParen]) ∧ joinLiterals name = text := by
  constructor
  · intro h
    unfold typedName? at h
    split at h
    · next rest =>
      split at h
      · next hlast =>
        obtain ⟨name, rfl⟩ := List.getLast?_eq_some_iff.mp hlast
        rw [List.dropLast_concat] at h
        split at h
        · cases h
        · next hany =>
          have hnone := List.any_eq_false.mp (Bool.eq_false_iff.mpr hany)
          exact ⟨name, fun t ht => Bool.eq_false_iff.mpr (hnone t ht), rfl, Option.some.inj h⟩
      · cases h
    · cases h
  · rintro ⟨name, hn, rfl, rfl⟩
    have hany : name.any Token.isParen = false :=
      List.any_eq_false.mpr fun t ht => by simp [hn t ht]
    simp [typedName?, hany]

theorem typedParameter?_eq_some_iff {tokens : List Token} {p : Parameter} :
    typedParameter? tokens = some p ↔
      ∃ (kind : Kind) (name : List Token), (∀ t ∈ name, t.isParen = false) ∧
        tokens = .text kind.keyword :: .mark .openParen :: (name ++ [.mark .closeParen]) ∧
        p = .typed kind (joinLiterals name) := by
  constructor
  · intro h
    unfold typedParameter? at h
    split at h
    · next word rest =>
      obtain ⟨kind, hk, h⟩ := Option.bind_eq_some_iff.mp h
      obtain ⟨text, hn, h⟩ := Option.bind_eq_some_iff.mp h
      obtain ⟨name, hp, he, rfl⟩ := typedName?_eq_some_iff.mp hn
      refine ⟨kind, name, hp, ?_, (Option.some.inj h).symm⟩
      rw [Kind.keyword_of_ofKeyword? hk, he]
    · cases h
  · rintro ⟨kind, name, hp, rfl, rfl⟩
    have hn := typedName?_eq_some_iff.mpr ⟨name, hp, rfl, rfl⟩
    rw [typedParameter?, Kind.ofKeyword?_keyword, hn]
    rfl

theorem isParameter_iff {tokens : List Token} {p : Parameter} :
    IsParameter tokens p ↔ parameterAfterColon tokens = p := by
  unfold parameterAfterColon
  constructor
  · rintro (⟨kind, hn⟩ | h)
    · rw [typedParameter?_eq_some_iff.mpr ⟨kind, _, hn, rfl, rfl⟩]
      rfl
    · have hnone : typedParameter? tokens = none := by
        refine Option.eq_none_iff_forall_ne_some.mpr fun q hq => ?_
        obtain ⟨kind, name, hn, he, -⟩ := typedParameter?_eq_some_iff.mp hq
        exact h kind name hn he
      rw [hnone]
      rfl
  · rintro rfl
    cases ht : typedParameter? tokens with
    | some q =>
      obtain ⟨kind, name, hn, rfl, rfl⟩ := typedParameter?_eq_some_iff.mp ht
      exact .typed kind hn
    | none =>
      refine .untyped fun kind name hn he => ?_
      rw [typedParameter?_eq_some_iff.mpr ⟨kind, name, hn, he, rfl⟩] at ht
      cases ht

end Template

end DeepLink
