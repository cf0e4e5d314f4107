import DeepLink.Proofs.Template.Grammar
import DeepLink.Proofs.Template.ItemAcceptance

/-!
# Parameters of paths

A component that starts with a colon is read by an ordered choice, like an item of a query: a kind
with a name in parentheses up to the end, or else everything as a name. Unlike an item it is never
refused, and what is read is the parameter that the tokens after the colon stand for
(`readPathParameter_reads`, `readComponent_colon`).
-/

namespace DeepLink.Template

open Attempt

theorem readGroupName_reads {name : List Token} (h : ∀ t ∈ name, t.isParen = false)
    (rest : List Token) :
    (readGroupName (name ++ .mark .closeParen :: rest)).Reads (joinLiterals name)
      (.mark .closeParen :: rest) := by
  have hname : ∀ t ∈ name, (!t.isParen) = true := fun t ht => by rw [h t ht]; rfl
  have htake : (name ++ .mark .closeParen :: rest).takeWhile (fun t => !t.isParen) = name := by
    rw [List.takeWhile_append_of_pos hname]
    exact List.append_nil name
  have hdrop : (name ++ .mark .closeParen :: rest).dropWhile (fun t => !t.isParen) =
      .mark .closeParen :: rest := by
    rw [List.dropWhile_append_of_pos hname]
    rfl
  unfold readGroupName
  rw [htake, hdrop]
  exact ⟨_, rfl⟩

theorem readGroupName_yields (tokens : List Token) :
    (readGroupName tokens).Yields (Leads (fun front name =>
      (∀ t ∈ front, t.isParen = false) ∧ joinLiterals front = name) tokens) := by
  refine ⟨_, List.takeWhile_append_dropWhile.symm, fun t ht => ?_, rfl⟩
  have hp := List.all_eq_true.mp List.all_takeWhile t ht
  exact (Bool.not_eq_true' _).mp hp

theorem readTypedToEnd_reads {tokens : List Token} {p : Parameter}
    (h : typedParameter? tokens = some p) : (readTypedToEnd tokens).Reads p [] := by
  obtain ⟨kind, name, hn, rfl, rfl⟩ := typedParameter?_eq_some_iff.mp h
  have hend : (readEnd []).Reads () [] := ⟨none, rfl⟩
  exact (readKind_keyword kind _).andThen
    ((readParens_reads (readGroupName_reads hn [])).andThen (hend.map _))

/-- A typed parameter is read only where one stands, and to the end. -/
theorem readTypedToEnd_yields (tokens : List Token) :
    (readTypedToEnd tokens).Yields fun p rest => typedParameter? tokens = some p ∧ rest = [] := by
  refine (readKind_yields tokens).andThen fun kind rest hk =>
    (readParens_yields rest readGroupName_yields).andThen fun name rest' hn => ?_
  obtain ⟨_, rfl, front, rfl, hp, rfl⟩ := hn
  subst hk
  cases rest' with
  | nil =>
    rw [List.append_nil]
    exact ⟨typedParameter?_eq_some_iff.mpr ⟨kind, front, hp, rfl, rfl⟩, rfl⟩
  | cons t rest' => trivial

/-- **Path parameters are never refused.** Whatever follows the colon, all of it is read, as the
parameter that it stands for. -/
theorem readPathParameter_reads (tokens : List Token) :
    (readPathParameter (.mark .colon :: tokens)).Reads (parameterAfterColon tokens) [] := by
  refine (readMark_cons .colon tokens).andThen ?_
  have hy := readTypedToEnd_yields tokens
  cases hr : readTypedToEnd tokens with
  | read p rest stopped =>
    rw [hr] at hy
    obtain ⟨ht, rfl⟩ := hy
    rw [parameterAfterColon, ht]
    exact Attempt.Reads.orElse ⟨stopped, rfl⟩
  | refused r =>
    have hnone : typedParameter? tokens = none := by
      refine Option.eq_none_iff_forall_ne_some.mpr fun p hp => ?_
      obtain ⟨stopped, hread⟩ := readTypedToEnd_reads hp
      rw [hr] at hread
      cases hread
    rw [parameterAfterColon, hnone]
    exact ⟨_, rfl⟩

theorem parameterOf_colon (tokens : List Token) :
    parameterOf (.mark .colon :: tokens) = .ok (.parameter (parameterAfterColon tokens)) := by
  obtain ⟨stopped, hread⟩ := readPathParameter_reads tokens
  rw [parameterOf, hread]

theorem readComponent_colon (tokens : List Token) :
    readComponent (.mark .colon :: tokens) =
      .ok (some (.parameter (parameterAfterColon tokens))) := by
  rw [readComponent, parameterOf_colon]
  rfl

end DeepLink.Template
