import DeepLink.Proofs.Template.Canonicalization
import DeepLink.Proofs.Template.Expressibility

/-!
# The levels of a template

Reading, printing and matching go down one level for each alternation and each optional group
(`pathLevels`). An optional group has its own parentheses, and so may an alternation have, but a
pipe needs none: outside parentheses, or after another pipe, it opens a level that no parenthesis
shows (`loosePipes`). The levels of a template are bounded by its parentheses and these pipes
(`pathLevels_le_of_isPath`), of which the limit on nesting bounds the parentheses only.
-/

namespace DeepLink

mutual

/-- How many alternations and optional groups stand around each other in the node. -/
def PathNode.levels : PathNode → Nat
  | .literal _ => 0
  | .parameter _ => 0
  | .alternation left right => max (pathLevels left) (pathLevels right) + 1
  | .optional group => pathLevels group + 1
  | .wildcard => 0

def pathLevels : List PathNode → Nat
  | [] => 0
  | node :: rest => max node.levels (pathLevels rest)

end

/-- The pipes that are not the first directly inside a pair of parentheses. The first one of the
innermost pair is still to come if `fresh` says so, and `outer` says the same of the pairs around
it. -/
def loosePipesFrom (fresh : Bool) (outer : List Bool) : List Token → Nat
  | [] => 0
  | t :: rest =>
    match t with
    | .mark .openParen => loosePipesFrom true (fresh :: outer) rest
    | .mark .closeParen => loosePipesFrom (outer.headD false) outer.tail rest
    | .mark .pipe => loosePipesFrom false outer rest + fresh.not.toNat
    | _ => loosePipesFrom fresh outer rest

/-- The pipes that have no parentheses of their own. -/
def loosePipes (tokens : List Token) : Nat := loosePipesFrom false [] tokens

/-! ## Counting loose pipes -/

theorem loosePipesFrom_cons {t : Token} (ht : t.isParen = false) (hm : t ≠ .mark .pipe)
    (fresh : Bool) (outer : List Bool) (rest : List Token) :
    loosePipesFrom fresh outer (t :: rest) = loosePipesFrom fresh outer rest := by
  rw [loosePipesFrom]
  · rintro rfl
    cases ht
  · rintro rfl
    cases ht
  · exact hm

theorem loosePipesFrom_pipe (fresh : Bool) (outer : List Bool) (rest : List Token) :
    loosePipesFrom fresh outer (.mark .pipe :: rest) =
      loosePipesFrom false outer rest + fresh.not.toNat := rfl

/-- A balanced run counts on its own: all that it changes is that a first pipe is no longer to
come. -/
theorem loosePipesFrom_balanced {a : List Token} (ha : Balanced a) (fresh : Bool) :
    ∃ still : Bool, (still = true → fresh = true) ∧ ∀ outer rest,
      loosePipesFrom fresh outer (a ++ rest) =
        loosePipesFrom fresh [] a + loosePipesFrom still outer rest := by
  induction ha generalizing fresh with
  | nil => exact ⟨fresh, id, fun outer rest => (Nat.zero_add _).symm⟩
  | @cons t a ht _ ih =>
    by_cases hm : t = .mark .pipe
    · subst hm
      obtain ⟨still, hs, hadd⟩ := ih false
      refine ⟨still, fun h => absurd (hs h) Bool.false_ne_true, fun outer rest => ?_⟩
      rw [List.cons_append, loosePipesFrom_pipe, loosePipesFrom_pipe, hadd]
      omega
    · obtain ⟨still, hs, hadd⟩ := ih fresh
      refine ⟨still, hs, fun outer rest => ?_⟩
      rw [List.cons_append, loosePipesFrom_cons ht hm, loosePipesFrom_cons ht hm, hadd]
  | @group inner a _ _ ihi ihr =>
    obtain ⟨_, -, hinner⟩ := ihi true
    obtain ⟨still, hs, hadd⟩ := ihr fresh
    have hgroup : ∀ outer rest,
        loosePipesFrom fresh outer (.mark .openParen :: (inner ++ .mark .closeParen :: rest)) =
          loosePipesFrom true [] inner + loosePipesFrom fresh outer rest :=
      fun outer rest => hinner (fresh :: outer) (.mark .closeParen :: rest)
    refine ⟨still, hs, fun outer rest => ?_⟩
    rw [List.cons_append, List.append_assoc, List.cons_append, hgroup, hgroup, hadd, Nat.add_assoc]

theorem loosePipesFrom_group {inner : List Token} (hi : Balanced inner) (fresh : Bool)
    (outer : List Bool) (rest : List Token) :
    loosePipesFrom fresh outer (.mark .openParen :: (inner ++ .mark .closeParen :: rest)) =
      loosePipesFrom true [] inner + loosePipesFrom fresh outer rest := by
  obtain ⟨_, -, hinner⟩ := loosePipesFrom_balanced hi true
  exact hinner (fresh :: outer) (.mark .closeParen :: rest)

/-- Where pipes count, a balanced run leaves it so. -/
theorem loosePipes_balanced {a : List Token} (ha : Balanced a) (rest : List Token) :
    loosePipes (a ++ rest) = loosePipes a + loosePipes rest := by
  obtain ⟨still, hs, hadd⟩ := loosePipesFrom_balanced ha false
  have hstill : still = false := by
    cases still with
    | false => rfl
    | true => exact (hs rfl).symm
  rw [loosePipes, hadd, hstill]
  rfl

/-- A run without pipes outside groups counts the same wherever it stands. -/
theorem loosePipesFrom_clearOf {a : List Token} (ha : ClearOf .pipe a) (fresh : Bool)
    (outer : List Bool) (rest : List Token) :
    loosePipesFrom fresh outer (a ++ rest) = loosePipes a + loosePipesFrom fresh outer rest := by
  unfold loosePipes
  induction ha with
  | nil => exact (Nat.zero_add _).symm
  | cons ht hm _ ih =>
    rw [List.cons_append, loosePipesFrom_cons ht hm, loosePipesFrom_cons ht hm, ih]
  | group hi _ ih =>
    rw [List.cons_append, List.append_assoc, List.cons_append, loosePipesFrom_group hi,
      loosePipesFrom_group hi, ih, Nat.add_assoc]

theorem loosePipes_parens {inner : List Token} (hi : Balanced inner) :
    loosePipes (.mark .openParen :: (inner ++ [.mark .closeParen])) =
      loosePipesFrom true [] inner :=
  loosePipesFrom_group hi false [] []

/-! ## Levels of paths -/

theorem pathLevels_append (a b : List PathNode) :
    pathLevels (a ++ b) = max (pathLevels a) (pathLevels b) := by
  induction a with
  | nil => exact (Nat.zero_max _).symm
  | cons node a ih => rw [List.cons_append, pathLevels, pathLevels, ih, Nat.max_assoc]

theorem pathLevels_singleton (node : PathNode) : pathLevels [node] = node.levels :=
  Nat.max_zero _

namespace Template

/-- The pipe of an alternation is loose, unless it is the first inside parentheses around it. -/
theorem loosePipes_of_isAlternation {tokens : List Token} {node : PathNode}
    (h : IsAlternation tokens node) :
    loosePipes tokens = loosePipesFrom true [] tokens + 1 := by
  cases h with
  | branches hb _ _ _ _ =>
    rw [loosePipes, loosePipesFrom_clearOf hb, loosePipesFrom_clearOf hb, loosePipesFrom_pipe,
      loosePipesFrom_pipe]
    rfl

mutual

/-- The levels of a path are bounded by what its parentheses and its loose pipes open. -/
theorem pathLevels_le_of_isPath : {tokens : List Token} → {nodes : List PathNode} →
    IsPath tokens nodes → (d : Nat) →
    d + pathLevels nodes ≤ nestingTokens d tokens + loosePipes tokens
  | _, _, .last _ hv, d => pathLevels_le_of_isComponent hv d
  | _, _, @IsPath.slash component rest value values hc hv hr, d => by
    have hb : Balanced component := (hc.sealed (by decide)).balanced
    have hfirst := pathLevels_le_of_isComponent hv d
    have hothers := pathLevels_le_of_isPath hr d
    have hslash : loosePipes (.mark .slash :: rest) = loosePipes rest :=
      loosePipesFrom_cons rfl (by decide) false [] rest
    rw [pathLevels_append, nestingTokens_between rfl hb, loosePipes_balanced hb, hslash]
    omega

theorem pathLevels_le_of_isComponent : {tokens : List Token} → {value : List PathNode} →
    IsComponent tokens value → (d : Nat) →
    d + pathLevels value ≤ nestingTokens d tokens + loosePipes tokens
  | _, _, .empty, d => Nat.le_add_right_of_le (le_nestingTokens d _)
  | _, _, .wildcard, d => Nat.le_add_right_of_le (le_nestingTokens d _)
  | _, _, .parameter _, d => Nat.le_add_right_of_le (le_nestingTokens d _)
  | _, _, .bare _ h, d => by
    have hbranches := levels_le_of_isAlternation h d
    rw [pathLevels_singleton, loosePipes_of_isAlternation h]
    omega
  | _, _, .wrapped hi h, d => by
    have hbranches := levels_le_of_isAlternation h (d + 1)
    rw [pathLevels_singleton, nestingTokens_parens hi, loosePipes_parens hi]
    omega
  | _, _, @IsComponent.optional inner group hc h _, d => by
    have hb : Balanced inner := (hc.sealed (by decide)).balanced
    have hgroup := pathLevels_le_of_isPath h (d + 1)
    have hinner : loosePipesFrom true [] inner = loosePipes inner := by
      have hclear := loosePipesFrom_clearOf hc true [] []
      rwa [List.append_nil] at hclear
    rw [pathLevels_singleton, nestingTokens_parens hb, loosePipes_parens hb, hinner]
    show d + (pathLevels group + 1) ≤ _
    omega
  | _, _, .literal _ _ _ _ _, d => Nat.le_add_right_of_le (le_nestingTokens d _)

/-- An alternation adds one level to its branches, whether or not its own pipe counts. -/
theorem levels_le_of_isAlternation : {tokens : List Token} → {node : PathNode} →
    IsAlternation tokens node → (d : Nat) →
    d + node.levels ≤ nestingTokens d tokens + loosePipesFrom true [] tokens + 1
  | _, _, @IsAlternation.branches before after left right hb hl _ hr _, d => by
    have hleft := pathLevels_le_of_isPath hl d
    have hright := pathLevels_le_of_isBranch hr d
    have hpipe : loosePipesFrom true [] (.mark .pipe :: after) = loosePipes after := rfl
    rw [nestingTokens_between rfl (hb.sealed (by decide)).balanced, loosePipesFrom_clearOf hb,
      hpipe]
    show d + (max (pathLevels left) (pathLevels right) + 1) ≤ _
    omega

theorem pathLevels_le_of_isBranch : {tokens : List Token} → {nodes : List PathNode} →
    IsBranch tokens nodes → (d : Nat) →
    d + pathLevels nodes ≤ nestingTokens d tokens + loosePipes tokens
  | _, _, .path _ h, d => pathLevels_le_of_isPath h d
  | _, _, .alternation h, d => by
    have hbranches := levels_le_of_isAlternation h d
    rw [pathLevels_singleton, loosePipes_of_isAlternation h]
    omega

end

/-- Parentheses that pass the check nest within the limit. -/
theorem nestingTokens_le_of_checkParens {offset : Nat} {tokens : List Token}
    (h : checkParens offset tokens = .ok ()) : nestingTokens 0 tokens ≤ nestingLimit := by
  by_contra hd
  obtain ⟨place, he⟩ :=
    checkParens_tooDeep (balanced_of_checkParens h) offset (Nat.not_le.mp hd)
  rw [h] at he
  cases he

theorem nestingTokens_le_of_readTokens {tokens : List Token} {r : Route}
    (h : readTokens tokens = .ok r) : nestingTokens 0 (cutQuery tokens).1 ≤ nestingLimit := by
  unfold readTokens at h
  obtain ⟨_, hp, -⟩ := bind_eq_ok.mp h
  exact nestingTokens_le_of_checkParens hp

end Template

/-! ## Templates -/

/-- **Levels of templates.** A route that a template is read as has no more levels than the limit on
nesting and the pipes of its path that have no parentheses of their own allow. So the limit bounds
the levels if each pipe is the first inside its own parentheses. -/
theorem pathLevels_le_of_ofTemplate? {template : String} {r : Route}
    (h : Route.ofTemplate? template = .ok r) :
    ∃ tokens, Token.ofTemplate? template = .ok tokens ∧
      pathLevels r.path ≤ nestingLimit + loosePipes (Template.cutQuery tokens).1 ∧
      (loosePipes (Template.cutQuery tokens).1 = 0 → pathLevels r.path ≤ nestingLimit) := by
  obtain ⟨tokens, ht, hn, -⟩ := exists_readPath_of_ofTemplate? h
  obtain ⟨tokens', ht', hr⟩ := exists_of_ofTemplate? h
  obtain rfl : tokens = tokens' := Except.ok.inj (ht.symm.trans ht')
  obtain ⟨_, _, hb, -⟩ := Template.exists_of_readTokens hr
  have hnest := Template.nestingTokens_le_of_readTokens hr
  have hlevels := Template.pathLevels_le_of_isPath (Template.isPath_of_readPath hb hn) 0
  exact ⟨tokens, ht, by omega, by omega⟩

theorem levels_alternatives (first : String) (rest : List String) :
    (alternatives first rest).levels = rest.length := by
  induction rest generalizing first with
  | nil => rfl
  | cons next rest ih =>
    show max (pathLevels [.literal first]) (pathLevels [alternatives next rest]) + 1 = _
    rw [pathLevels_singleton, pathLevels_singleton, ih]
    exact congrArg (· + 1) (Nat.zero_max _)

/-- Bare alternatives open a level with each pipe. -/
theorem pathLevels_alternatives {first : String} {rest : List String}
    (h : ∀ text ∈ first :: rest, text ≠ "") :
    pathLevels (Route.of [alternatives first rest] []).path = rest.length := by
  have hn : NormalPath [alternatives first rest] := ⟨normal_alternatives h, trivial⟩
  show pathLevels (normalizePath [alternatives first rest]) = _
  rw [normalizePath_of_normal _ hn, pathLevels_singleton, levels_alternatives]

/-- A hundred and thirty bare alternatives have more levels than the limit on nesting, and no
parentheses. -/
theorem pathLevels_le_of_ofTemplate?_130_alternatives :
    ∃ r tokens, Route.ofTemplate? (bareText "a" (.replicate 129 "a")) = .ok r ∧
      Token.ofTemplate? (bareText "a" (.replicate 129 "a")) = .ok tokens ∧
      nestingLimit < pathLevels r.path ∧
      pathLevels r.path ≤ nestingLimit + loosePipes (Template.cutQuery tokens).1 := by
  have hne : ∀ text ∈ "a" :: List.replicate 129 "a", text ≠ "" := by simp
  have hread := ofTemplate?_bareText hne
  have hlevels := pathLevels_alternatives hne
  rw [List.length_replicate] at hlevels
  obtain ⟨tokens, ht, hle, -⟩ := pathLevels_le_of_ofTemplate? hread
  refine ⟨_, tokens, hread, ht, ?_, hle⟩
  rw [hlevels]
  decide

end DeepLink
