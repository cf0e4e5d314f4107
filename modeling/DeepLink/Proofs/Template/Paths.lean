import DeepLink.Proofs.Template.Canonical
import DeepLink.Proofs.Template.PathParameters

/-!
# Reading the path of a canonical text

The tokens of nodes decide where a path is cut and what a component is: nodes in which nothing is
empty are read back from their tokens (`readPath_tokens`).
-/

namespace DeepLink.Template

/-! ## Equations -/

theorem readPath_eq (tokens : List Token) :
    readPath tokens =
      match cutOutside (.mark .slash) tokens with
      | none => (readComponent tokens).map Option.toList
      | some (before, after) => do
        let node ← readComponent before
        let rest ← readPath after
        return node.toList ++ rest := by
  rw [readPath]
  split
  · next h =>
    rw [h]
    cases readComponent tokens <;> rfl
  · next h => rw [h]

theorem readBranch_eq (tokens : List Token) :
    readBranch tokens =
      match cutOutside (.mark .pipe) tokens with
      | none => readPath tokens
      | some (before, after) => do
        let left ← readPath before
        let right ← readBranch after
        let node ← alternationOf tokens left right
        return [node] := by
  rw [readBranch]
  split
  · next h => rw [h]
  · next h => rw [h]

/-- The tokens are neither empty nor a wildcard nor a parameter. -/
def IsCompound (tokens : List Token) : Prop :=
  tokens ≠ [] ∧ tokens ≠ [.mark .star] ∧ tokens.head? ≠ some (.mark .colon)

theorem isCompound_group (inner : List Token) : IsCompound (.mark .openParen :: inner) :=
  ⟨by simp, by simp, by simp⟩

theorem readComponent_eq {tokens : List Token} (h : IsCompound tokens) :
    readComponent tokens =
      match cutOutside (.mark .pipe) (withoutParens tokens) with
      | some (before, after) => do
        let left ← readPath before
        let right ← readBranch after
        let node ← alternationOf (withoutParens tokens) left right
        return some node
      | none =>
        match insideParens? tokens with
        | some inner => do
          let group ← readPath inner
          let node ← groupOf tokens group
          return some node
        | none => do
          let node ← literalOf tokens
          return some node := by
  obtain ⟨hn, hstar, hcolon⟩ := h
  cases tokens with
  | nil => exact absurd rfl hn
  | cons first others =>
    rw [readComponent]
    · split
      · next hc => rw [hc]
      · next hc =>
        rw [hc]
        split
        · next hi => rw [hi]
        · next hi => rw [hi]
    · rintro rfl rfl
      exact hstar rfl
    · rintro rfl
      exact hcolon rfl

/-! ## Literals and parameters -/

/-- What starts with text has no parentheses around it, and is neither a wildcard nor a
parameter. -/
theorem isCompound_spell_append {text : String} (h : text ≠ "") (rest : List Token) :
    IsCompound (spell text ++ rest) ∧ insideParens? (spell text ++ rest) = none := by
  obtain ⟨t, more, he⟩ := List.exists_cons_of_ne_nil (spell_ne_nil h)
  have ht : t.isText = true := isText_of_mem_spell (he ▸ List.mem_cons_self)
  rw [he, List.cons_append]
  cases t with
  | mark m => exact absurd ht Bool.false_ne_true
  | escaped c => exact ⟨⟨by simp, by simp, by simp⟩, rfl⟩
  | text s => exact ⟨⟨by simp, by simp, by simp⟩, rfl⟩

theorem any_isParen_spell (text : String) : (spell text).any Token.isParen = false := by
  rw [List.any_eq_false]
  intro t ht
  rw [isParen_of_isText (isText_of_mem_spell ht)]
  exact Bool.false_ne_true

theorem readComponent_literal {text : String} (h : text ≠ "") :
    readComponent (spell text) = .ok (some (.literal text)) := by
  obtain ⟨hs, hi⟩ := isCompound_spell_append h []
  rw [List.append_nil] at hs hi
  rw [readComponent_eq hs, withoutParens, hi, Option.getD_none, (sealed_spell .pipe text).notCut,
    literalOf, any_isParen_spell, joinLiterals_spell]
  rfl

/-- A name alone has no parentheses, and so it is not taken for a kind with a name. -/
theorem isParameter_spell (name : String) : IsParameter (spell name) (.untyped name) := by
  have h : IsParameter (spell name) (.untyped (joinLiterals (spell name))) := by
    refine .untyped fun kind inner _ he => ?_
    have hopen : Token.mark .openParen ∈ spell name := by simp [he]
    exact Bool.false_ne_true (isText_of_mem_spell hopen)
  rwa [joinLiterals_spell] at h

theorem isParameter_spell_typed (kind : Kind) (name : String) :
    IsParameter (.text kind.keyword :: .mark .openParen :: (spell name ++ [.mark .closeParen]))
      (.typed kind name) := by
  have h := IsParameter.typed kind fun t (ht : t ∈ spell name) =>
    isParen_of_isText (isText_of_mem_spell ht)
  rwa [joinLiterals_spell] at h

theorem readComponent_parameter (p : Parameter) :
    readComponent p.pathTokens = .ok (some (.parameter p)) := by
  obtain ⟨name, kind?⟩ := p
  cases kind? with
  | none =>
    show readComponent (.mark .colon :: spell name) = _
    rw [readComponent_colon, isParameter_iff.mp (isParameter_spell name)]
    rfl
  | some kind =>
    show readComponent (.mark .colon :: .text kind.keyword :: _) = _
    rw [readComponent_colon, isParameter_iff.mp (isParameter_spell_typed kind name)]
    rfl

/-! ## Nodes -/

theorem withoutParens_group {inner : List Token} (hi : Balanced inner) :
    withoutParens (.mark .openParen :: (inner ++ [.mark .closeParen])) = inner := by
  rw [withoutParens, insideParens?_group hi]
  rfl

theorem alternationOf_eq (component : List Token) {left right : List PathNode} (hl : left ≠ [])
    (hr : right ≠ []) : alternationOf component left right = .ok (.alternation left right) := by
  rw [alternationOf, if_neg (not_or.mpr ⟨hl, hr⟩)]

theorem groupOf_eq (component : List Token) {group : List PathNode} (hg : group ≠ []) :
    groupOf component group = .ok (.optional group) := by
  rw [groupOf, if_neg hg]

/-- Two branches that are read and not empty make an alternation. -/
theorem branches_eq {α : Type} {before after component : List Token} {left right : List PathNode}
    (f : PathNode → α) (hl : readPath before = .ok left) (hln : left ≠ [])
    (hr : readBranch after = .ok right) (hrn : right ≠ []) :
    (do
      let l ← readPath before
      let r ← readBranch after
      let node ← alternationOf component l r
      return f node) = Except.ok (f (.alternation left right)) := by
  rw [hl, hr]
  show (alternationOf component left right).bind _ = _
  rw [alternationOf_eq component hln hrn]
  rfl

/-- Parentheses around two branches with a pipe between them. -/
theorem readComponent_branches {before after : List Token} {left right : List PathNode}
    (hb : Balanced (before ++ .mark .pipe :: after)) (hs : Sealed .pipe before)
    (hl : readPath before = .ok left) (hln : left ≠ []) (hr : readBranch after = .ok right)
    (hrn : right ≠ []) :
    readComponent (.mark .openParen ::
        ((before ++ .mark .pipe :: after) ++ [.mark .closeParen])) =
      .ok (some (.alternation left right)) := by
  rw [readComponent_eq (isCompound_group _), withoutParens_group hb, cutOutside_append_mark hs]
  exact branches_eq some hl hln hr hrn

section Components

variable {component : List Token} {node : Option PathNode} (hs : Sealed .slash component)
  (hn : readComponent component = .ok node)

include hs hn

theorem readPath_component : readPath component = .ok node.toList := by
  rw [readPath_eq, hs.notCut]
  show (readComponent component).map _ = _
  rw [hn]
  rfl

theorem readPath_slash {rest : List Token} {nodes : List PathNode}
    (hr : readPath rest = .ok nodes) :
    readPath (component ++ .mark .slash :: rest) = .ok (node.toList ++ nodes) := by
  rw [readPath_eq, cutOutside_append_mark hs]
  show (readComponent component >>= fun n => readPath rest >>= fun r => pure (n.toList ++ r)) = _
  rw [hn, hr]
  rfl

end Components

mutual

theorem readComponent_tokens : (node : PathNode) → node.Normal →
    readComponent node.tokens = .ok (some node)
  | .literal _, hn => readComponent_literal hn
  | .parameter p, _ => readComponent_parameter p
  | .alternation left right, ⟨hl, hr, hln, hrn⟩ => by
    have hb : Balanced (pathTokens left ++ .mark .pipe :: pathTokens right) :=
      .between rfl (balanced_pathTokens left) (balanced_pathTokens right)
    have hright : readBranch (pathTokens right) = .ok right := by
      rw [readBranch_eq, (sealed_pathTokens right).notCut]
      exact readPath_tokens right hrn
    rw [PathNode.tokens]
    exact readComponent_branches hb (sealed_pathTokens left) (readPath_tokens left hln) hl hright hr
  | .optional group, ⟨hg, hgn⟩ => by
    have hb := balanced_pathTokens group
    rw [PathNode.tokens, readComponent_eq (isCompound_group _), withoutParens_group hb,
      (sealed_pathTokens group).notCut, insideParens?_group hb]
    show (do
      let g ← readPath (pathTokens group)
      let node ← groupOf _ g
      return some node) = _
    rw [readPath_tokens group hgn]
    show (groupOf _ group).bind _ = _
    rw [groupOf_eq _ hg]
    rfl
  | .wildcard, _ => by rw [PathNode.tokens, readComponent]

/-- **Reading a path.** Nodes in which nothing is empty are read back from their tokens. -/
theorem readPath_tokens : (nodes : List PathNode) → NormalPath nodes →
    readPath (pathTokens nodes) = .ok nodes
  | [], _ => by
    rw [pathTokens, readPath_eq, readComponent]
    rfl
  | [node], ⟨hn, _⟩ => by
    rw [pathTokens]
    exact readPath_component (node.sealed_tokens (.inl rfl)) (readComponent_tokens node hn)
  | node :: next :: rest, ⟨hn, hr⟩ => by
    rw [pathTokens]
    exact readPath_slash (node.sealed_tokens (.inl rfl)) (readComponent_tokens node hn)
      (readPath_tokens (next :: rest) hr)

end

end DeepLink.Template
