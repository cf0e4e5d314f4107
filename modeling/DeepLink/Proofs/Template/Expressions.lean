import DeepLink.Proofs.Route.Building
import DeepLink.Proofs.Template.Depth

/-!
# Routes that are built

Building refuses query parameters without a name (`Route.build_eq_ok_iff`), which no template can
express, but it puts no bound on depth. So a route that was built is read back from its canonical
text exactly if it is no deeper than a template may nest. Alternatives folded to the left show that
it may be deeper (`build_folded`, `depth_folded`).
-/

namespace DeepLink

/-! ## Folded alternatives -/

namespace Expression

/-- A text with `n` pipes between its copies, folded to the left. -/
def folded (text : String) : Nat → Expression
  | 0 => .literal text
  | n + 1 => .alternation (folded text n) (.literal text)

variable {text : String}

theorem nodes_folded_ne_nil (text : String) (n : Nat) : (folded text n).nodes ≠ [] := by
  cases n with
  | zero => exact List.cons_ne_nil _ _
  | succ n => exact List.cons_ne_nil _ _

theorem normalPath_folded (h : text ≠ "") (n : Nat) : NormalPath (folded text n).nodes := by
  induction n with
  | zero => exact ⟨h, trivial⟩
  | succ n ih =>
    exact ⟨⟨nodes_folded_ne_nil text n, List.cons_ne_nil _ _, ih, h, trivial⟩, trivial⟩

/-- Folded alternatives are built, however many they are. -/
theorem build_folded (h : text ≠ "") (n : Nat) :
    (folded text n).build [] = .ok (Route.of (folded text n).nodes []) := by
  rw [build, Route.build_eq_ok_iff]
  exact ⟨hasContent_of_normal (normalPath_folded h n), by simp, rfl⟩

theorem pathDepth_folded (text : String) (n : Nat) : pathDepth (folded text n).nodes = n := by
  induction n with
  | zero => rfl
  | succ n ih =>
    show max (max (pathDepth (folded text n).nodes) 0 + 1) 0 = n + 1
    rw [ih, Nat.max_zero, Nat.max_zero]

/-- Each pipe opens one more group. -/
theorem depth_folded (h : text ≠ "") (n : Nat) :
    (Route.of (folded text n).nodes []).depth = n := by
  show max (pathDepth (normalizePath (folded text n).nodes)) 0 = n
  rw [normalizePath_of_normal _ (normalPath_folded h n), pathDepth_folded, Nat.max_zero]

end Expression

/-! ## Round trip -/

/-- **Round trip of built routes.** The canonical text of a route that was built from any nodes and
items is read as the same route exactly if the route is no deeper than a template may nest;
otherwise it is refused for its nesting. -/
theorem ofTemplate?_text_of_build {path : List PathNode} {query : List QueryItem} {r : Route}
    (h : Route.build path query = .ok r) :
    (Route.ofTemplate? r.text = .ok r ↔ r.depth ≤ nestingLimit) ∧
      (nestingLimit < r.depth →
        ∃ place, Route.ofTemplate? r.text = .error (.group (.tooDeep place))) := by
  obtain ⟨-, hn, rfl⟩ := Route.build_eq_ok_iff.mp h
  rw [ofTemplate?_text_eq, ← Route.nestingTokens_eq_depth]
  exact ⟨Template.readTokens_tokens_iff hn, Template.readTokens_tooDeep⟩

/-- A hundred and thirty alternatives are built, but no template expresses them. -/
theorem ofTemplate?_text_of_130_folded :
    (Expression.folded "a" 129).build [] = .ok (Route.of (Expression.folded "a" 129).nodes []) ∧
      Route.ofTemplate? (Route.of (Expression.folded "a" 129).nodes []).text ≠
        .ok (Route.of (Expression.folded "a" 129).nodes []) ∧
      ∃ place, Route.ofTemplate? (Route.of (Expression.folded "a" 129).nodes []).text =
        .error (.group (.tooDeep place)) := by
  have hne : "a" ≠ "" := by decide
  have hbuild := Expression.build_folded hne 129
  have hdepth := Expression.depth_folded hne 129
  obtain ⟨hiff, hdeep⟩ := ofTemplate?_text_of_build hbuild
  rw [hdepth] at hiff hdeep
  exact ⟨hbuild, fun hok => absurd (hiff.mp hok) (by decide), hdeep (by decide)⟩

end DeepLink
