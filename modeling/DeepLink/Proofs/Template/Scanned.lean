import DeepLink.Proofs.Template.Names
import DeepLink.Proofs.Template.Paths
import DeepLink.Proofs.Template.Scans

/-!
# What reading a template scans

Reading may be carried out with a record of the tokens that are scanned on the way: those that are
split into components or items, those that are cut at a pipe, and those from which parentheses may
be taken off. Here a path is split into all its components before they are read, one after the
other (`readPath_eq_mapM`). Apart from the record, nothing else changes, and the record holds
balanced tokens only, even if the template is refused in the end (`follows_ofTemplate`).

One step adds to the record what it scans (`Follows.scan_bind`); that the run keeps it balanced and
takes nothing out of it is an induction over the tokens, along with reading itself
(`follows_readPath`). So the parts of a template are in the record once reading has come to them
(`scansParts_ofTemplate`).
-/

namespace DeepLink

/-! ## Records -/

/-- Steps of reading that may be refused, with a record of the tokens that were scanned. -/
abbrev Recorded := ExceptT TemplateError (StateM (List (List Token)))

/-- Scans tokens, and records them. -/
def scan {β : Type} (look : List Token → β) (tokens : List Token) :
    Recorded { found : β // found = look tokens } := do
  modify (· ++ [tokens])
  return ⟨look tokens, rfl⟩

/-- A step that scans nothing. -/
def unscanned {α : Type} (outcome : Except TemplateError α) : Recorded α := .mk (pure outcome)

/-- What the steps come to, and the record that they leave behind. -/
def recordOf {α : Type} (steps : Recorded α) : Except TemplateError α × List (List Token) :=
  steps.run.run []

theorem run_scan_bind {α β : Type} (look : List Token → β) (tokens : List Token)
    (next : { found : β // found = look tokens } → Recorded α) (record : List (List Token)) :
    (scan look tokens >>= next).run.run record =
      (next ⟨look tokens, rfl⟩).run.run (record ++ [tokens]) := rfl

theorem balanced_append {record : List (List Token)} (hr : ∀ slice ∈ record, Balanced slice)
    {tokens : List Token} (hb : Balanced tokens) :
    ∀ slice ∈ record ++ [tokens], Balanced slice := by
  intro slice hs
  rcases List.mem_append.mp hs with hs | hs
  · exact hr slice hs
  · rwa [List.mem_singleton.mp hs]

/-- After a record of balanced tokens the steps come to the outcome, and they leave behind a record
of balanced tokens, with more at its end. -/
def Follows {α : Type} (steps : Recorded α) (outcome : Except TemplateError α) : Prop :=
  ∀ record : List (List Token), (∀ slice ∈ record, Balanced slice) →
    (steps.run.run record).1 = outcome ∧ record <+: (steps.run.run record).2 ∧
      ∀ slice ∈ (steps.run.run record).2, Balanced slice

namespace Follows

variable {α β : Type}

theorem pure (a : α) : Follows (Pure.pure a) (.ok a) := fun _ hr => ⟨rfl, List.prefix_rfl, hr⟩

theorem unscanned (outcome : Except TemplateError α) : Follows (unscanned outcome) outcome :=
  fun _ hr => ⟨rfl, List.prefix_rfl, hr⟩

theorem bind {steps : Recorded α} {outcome : Except TemplateError α} {next : α → Recorded β}
    {rest : α → Except TemplateError β} (h : Follows steps outcome)
    (hnext : ∀ a, outcome = .ok a → Follows (next a) (rest a)) :
    Follows (steps >>= next) (outcome >>= rest) := by
  intro record hr
  obtain ⟨hout, hgrows, hrecord⟩ := h record hr
  rw [ExceptT.run_bind, StateT.run_bind]
  generalize steps.run.run record = run at hout hgrows hrecord
  obtain ⟨out, after⟩ := run
  obtain rfl : out = outcome := hout
  cases out with
  | error fault => exact ⟨rfl, hgrows, hrecord⟩
  | ok a =>
    obtain ⟨hrest, hmore, hbalanced⟩ := hnext a rfl after hrecord
    exact ⟨hrest, hgrows.trans hmore, hbalanced⟩

/-- Balanced tokens may be scanned. -/
theorem scan_bind {look : List Token → β} {tokens : List Token} (hb : Balanced tokens)
    {next : { found : β // found = look tokens } → Recorded α} {outcome : Except TemplateError α}
    (h : ∀ found hf, Follows (next ⟨found, hf⟩) outcome) :
    Follows (scan look tokens >>= next) outcome := by
  intro record hr
  rw [run_scan_bind]
  obtain ⟨hout, hgrows, hrecord⟩ := h (look tokens) rfl (record ++ [tokens]) (balanced_append hr hb)
  exact ⟨hout, (List.prefix_append record [tokens]).trans hgrows, hrecord⟩

theorem mapM {steps : α → Recorded β} {outcomes : α → Except TemplateError β} {l : List α}
    (h : ∀ a ∈ l, Follows (steps a) (outcomes a)) : Follows (l.mapM steps) (l.mapM outcomes) := by
  induction l with
  | nil => exact .pure []
  | cons a l ih =>
    obtain ⟨ha, hl⟩ := List.forall_mem_cons.mp h
    rw [List.mapM_cons, List.mapM_cons]
    exact .bind ha fun b _ => .bind (ih hl) fun bs _ => .pure (b :: bs)

end Follows

/-- After a record of balanced tokens the steps leave the tokens in the record. -/
def Scans {α : Type} (tokens : List Token) (steps : Recorded α) : Prop :=
  ∀ record : List (List Token), (∀ slice ∈ record, Balanced slice) →
    tokens ∈ (steps.run.run record).2

namespace Scans

variable {α β : Type} {tokens : List Token}

theorem scan_bind {look : List Token → β} (hb : Balanced tokens)
    {next : { found : β // found = look tokens } → Recorded α} (outcome : Except TemplateError α)
    (h : ∀ found hf, Follows (next ⟨found, hf⟩) outcome) :
    Scans tokens (scan look tokens >>= next) := by
  intro record hr
  rw [run_scan_bind]
  obtain ⟨-, hgrows, -⟩ := h (look tokens) rfl (record ++ [tokens]) (balanced_append hr hb)
  exact hgrows.subset (List.mem_append_right record (List.mem_singleton_self tokens))

/-- What has been scanned stays in the record. -/
theorem bind_left {steps : Recorded α} {outcome : Except TemplateError α} {next : α → Recorded β}
    {rest : α → Except TemplateError β} (hs : Scans tokens steps) (h : Follows steps outcome)
    (hnext : ∀ a, outcome = .ok a → Follows (next a) (rest a)) :
    Scans tokens (steps >>= next) := by
  intro record hr
  have hscanned := hs record hr
  obtain ⟨hout, -, hrecord⟩ := h record hr
  rw [ExceptT.run_bind, StateT.run_bind]
  generalize steps.run.run record = run at hscanned hout hrecord
  obtain ⟨out, after⟩ := run
  obtain rfl : out = outcome := hout
  cases out with
  | error fault => exact hscanned
  | ok a => exact (hnext a rfl after hrecord).2.1.subset hscanned

theorem bind_right {steps : Recorded α} {a : α} {next : α → Recorded β} (h : Follows steps (.ok a))
    (hs : Scans tokens (next a)) : Scans tokens (steps >>= next) := by
  intro record hr
  obtain ⟨hout, -, hrecord⟩ := h record hr
  rw [ExceptT.run_bind, StateT.run_bind]
  generalize steps.run.run record = run at hout hrecord
  obtain ⟨out, after⟩ := run
  obtain rfl : out = .ok a := hout
  exact hs after hrecord

end Scans

/-! ## Reading with a record -/

theorem length_le_of_mem_splitFrom {delimiter : Token} {d : Nat} {tokens part : List Token}
    (h : part ∈ splitFrom delimiter d tokens) : part.length ≤ tokens.length := by
  rw [splitFrom_eq] at h
  split at h
  · exact Nat.le_of_eq (congrArg List.length (List.mem_singleton.mp h))
  · next before after hc =>
    have hlen := length_of_cutFrom hc
    rcases List.mem_cons.mp h with rfl | h
    · omega
    · have hpart := length_le_of_mem_splitFrom h
      omega
termination_by tokens.length

namespace Template

mutual

/-- All components of the path are read in turn. -/
def readPathRecorded (tokens : List Token) : Recorded (List PathNode) := do
  let ⟨parts, _h⟩ ← scan (splitOutside (.mark .slash)) tokens
  let nodes ← parts.attach.mapM fun part => readComponentRecorded part.1
  return nodes.flatMap Option.toList
termination_by (tokens.length, 1)
decreasing_by
  have hpart : part.1 ∈ splitOutside (.mark .slash) tokens := by
    rw [← _h]
    exact part.2
  exact Prod.Lex.right' _ (length_le_of_mem_splitFrom hpart) (by omega)

def readComponentRecorded (tokens : List Token) : Recorded (Option PathNode) :=
  match tokens with
  | [] => return none
  | [.mark .star] => return some .wildcard
  | .mark .colon :: rest => do
    let node ← unscanned (parameterOf (.mark .colon :: rest))
    return some node
  | first :: others => do
    let ⟨group, _hg⟩ ← scan insideParens? (first :: others)
    let ⟨cut, _hc⟩ ← scan (cutOutside (.mark .pipe)) (group.getD (first :: others))
    match _hcut : cut with
    | some (before, after) => do
      let left ← readPathRecorded before
      let right ← readBranchRecorded after
      let node ← unscanned (alternationOf (group.getD (first :: others)) left right)
      return some node
    | none =>
      match _hgroup : group with
      | some inner => do
        let nodes ← readPathRecorded inner
        let node ← unscanned (groupOf (first :: others) nodes)
        return some node
      | none => do
        let node ← unscanned (literalOf (first :: others))
        return some node
termination_by (tokens.length, 0)
decreasing_by
  · have hinner : (group.getD (first :: others)).length ≤ (first :: others).length :=
      _hg ▸ length_withoutParens_le (first :: others)
    have hlen := length_of_cutOutside (_hc.symm.trans _hcut)
    exact Prod.Lex.left _ _ (by omega)
  · have hinner : (group.getD (first :: others)).length ≤ (first :: others).length :=
      _hg ▸ length_withoutParens_le (first :: others)
    have hlen := length_of_cutOutside (_hc.symm.trans _hcut)
    exact Prod.Lex.left _ _ (by omega)
  · have hlen := length_of_insideParens? (_hg.symm.trans _hgroup)
    exact Prod.Lex.left _ _ (by omega)

def readBranchRecorded (tokens : List Token) : Recorded (List PathNode) := do
  let ⟨cut, _hc⟩ ← scan (cutOutside (.mark .pipe)) tokens
  match _hcut : cut with
  | none => readPathRecorded tokens
  | some (before, after) => do
    let left ← readPathRecorded before
    let right ← readBranchRecorded after
    let node ← unscanned (alternationOf tokens left right)
    return [node]
termination_by (tokens.length, 2)
decreasing_by
  · exact Prod.Lex.right _ (by omega)
  · have hlen := length_of_cutOutside (_hc.symm.trans _hcut)
    exact Prod.Lex.left _ _ (by omega)
  · have hlen := length_of_cutOutside (_hc.symm.trans _hcut)
    exact Prod.Lex.left _ _ (by omega)

end

/-- The items between the ampersands. -/
def readQueryRecorded (offset : Nat) : List Token → Recorded (List QueryItem)
  | [] => return []
  | tokens => do
    let ⟨parts, _⟩ ← scan (splitOutside (.mark .ampersand)) tokens
    unscanned (readItems offset parts)

def readTokensRecorded (tokens : List Token) : Recorded Route := do
  let (path, rest) := cutQuery tokens
  let query := rest.getD []
  unscanned (checkParens 0 path)
  unscanned (checkParens (queryOffset path) query)
  let nodes ← readPathRecorded path
  let items ← readQueryRecorded (queryOffset path) query
  return Route.of nodes items

end Template

/-- Reads a template, with a record of what is scanned. -/
def Route.ofTemplateRecorded (template : String) : Recorded Route :=
  match Token.ofTemplate? template with
  | .error span => unscanned (.error (.unexpectedAt template span))
  | .ok tokens => Template.readTokensRecorded tokens

/-! ## The same reading -/

namespace Template

/-- A path is read component by component. -/
theorem readPath_eq_mapM (tokens : List Token) :
    readPath tokens = do
      let nodes ← (splitOutside (.mark .slash) tokens).mapM readComponent
      return nodes.flatMap Option.toList := by
  rw [readPath_eq, splitOutside, splitFrom_eq]
  cases hc : cutOutside (.mark .slash) tokens with
  | none =>
    unfold cutOutside at hc
    rw [hc, List.mapM_cons, List.mapM_nil]
    cases readComponent tokens with
    | error fault => rfl
    | ok node => exact congrArg Except.ok (List.append_nil node.toList).symm
  | some parts =>
    obtain ⟨before, after⟩ := parts
    have hlen := length_of_cutOutside hc
    have hafter := readPath_eq_mapM after
    unfold cutOutside at hc
    rw [splitOutside] at hafter
    rw [hc]
    simp only [hafter, List.mapM_cons, bind_assoc, pure_bind, List.flatMap_cons]
termination_by tokens.length

theorem readPathRecorded_eq (tokens : List Token) :
    readPathRecorded tokens = do
      let parts ← scan (splitOutside (.mark .slash)) tokens
      let nodes ← parts.1.mapM readComponentRecorded
      return nodes.flatMap Option.toList := by
  rw [readPathRecorded]
  refine bind_congr fun ⟨parts, _⟩ => ?_
  show (parts.attach.mapM fun part => readComponentRecorded part.1) >>= _ = _
  rw [List.mapM_subtype fun _ _ => rfl, List.unattach_attach]

/-- An alternation is read by reading its branches. -/
theorem follows_branches {α : Type} {before after component : List Token}
    {leftSteps rightSteps : Recorded (List PathNode)} {f : PathNode → α}
    {outcome : Except TemplateError α}
    (ho : outcome = do
      let left ← readPath before
      let right ← readBranch after
      let node ← alternationOf component left right
      return f node)
    (hl : Follows leftSteps (readPath before)) (hr : Follows rightSteps (readBranch after)) :
    Follows
      (do
        let left ← leftSteps
        let right ← rightSteps
        let node ← unscanned (alternationOf component left right)
        return f node)
      outcome := by
  subst ho
  exact .bind hl fun left _ => .bind hr fun right _ =>
    .bind (.unscanned (alternationOf component left right)) fun node _ => .pure (f node)

/-- A component is scanned twice: for parentheses around it, and for a pipe inside them. -/
theorem readComponentRecorded_eq {tokens : List Token} (h : IsCompound tokens) :
    readComponentRecorded tokens = do
      let group ← scan insideParens? tokens
      let cut ← scan (cutOutside (.mark .pipe)) (group.1.getD tokens)
      match cut.1, group.1 with
      | some (before, after), group => do
        let left ← readPathRecorded before
        let right ← readBranchRecorded after
        let node ← unscanned (alternationOf (group.getD tokens) left right)
        return some node
      | none, some inner => do
        let nodes ← readPathRecorded inner
        let node ← unscanned (groupOf tokens nodes)
        return some node
      | none, none => do
        let node ← unscanned (literalOf tokens)
        return some node := by
  obtain ⟨hne, hstar, hcolon⟩ := h
  obtain ⟨first, others, rfl⟩ := List.exists_cons_of_ne_nil hne
  rw [readComponentRecorded]
  · refine bind_congr fun ⟨group, _⟩ => bind_congr fun ⟨cut, _⟩ => ?_
    cases cut with
    | some parts => rfl
    | none => cases group <;> rfl
  · rintro rfl rfl
    exact hstar rfl
  · rintro rfl
    exact hcolon rfl

mutual

theorem follows_readPath {tokens : List Token} (hb : Balanced tokens) :
    Follows (readPathRecorded tokens) (readPath tokens) := by
  rw [readPathRecorded_eq, readPath_eq_mapM]
  refine .scan_bind hb fun parts hparts => ?_
  subst hparts
  refine .bind (.mapM fun part hpart => ?_) fun nodes _ => .pure (nodes.flatMap Option.toList)
  have hlen := length_le_of_mem_splitFrom hpart
  exact follows_readComponent (balanced_of_mem_splitOutside rfl hb hpart)
termination_by (tokens.length, 1)
decreasing_by exact Prod.Lex.right' _ hlen (by omega)

theorem follows_readComponent {tokens : List Token} (hb : Balanced tokens) :
    Follows (readComponentRecorded tokens) (readComponent tokens) := by
  by_cases hne : tokens = []
  · rw [hne, readComponentRecorded, readComponent]
    exact .pure none
  by_cases hstar : tokens = [.mark .star]
  · rw [hstar, readComponentRecorded, readComponent]
    exact .pure (some PathNode.wildcard)
  by_cases hcolon : tokens.head? = some (.mark .colon)
  · obtain ⟨rest, ht⟩ := List.head?_eq_some_iff.mp hcolon
    rw [ht, readComponentRecorded, readComponent]
    exact .bind (.unscanned (parameterOf _)) fun node _ => .pure (some node)
  have hs : IsCompound tokens := ⟨hne, hstar, hcolon⟩
  have hread := readComponent_eq hs
  have hbinner := hb.getD_insideParens?
  have hle := length_withoutParens_le tokens
  unfold withoutParens at hread hle
  rw [readComponentRecorded_eq hs]
  refine .scan_bind hb fun group hg => ?_
  rw [← hg] at hread hbinner hle
  refine .scan_bind hbinner fun cut hc => ?_
  rw [← hc] at hread
  cases cut with
  | some parts =>
    obtain ⟨before, after⟩ := parts
    obtain ⟨-, hbefore, -, hafter⟩ := hbinner.of_cutOutside rfl hc.symm
    have hlen : before.length + after.length < tokens.length := by
      have hcut := length_of_cutOutside hc.symm
      omega
    exact follows_branches hread (follows_readPath hbefore) (follows_readBranch hafter)
  | none =>
    cases group with
    | some inner =>
      have hlen := length_of_insideParens? hg.symm
      rw [hread]
      exact .bind (follows_readPath hbinner) fun nodes _ =>
        .bind (.unscanned (groupOf tokens nodes)) fun node _ => .pure (some node)
    | none =>
      rw [hread]
      exact .bind (.unscanned (literalOf tokens)) fun node _ => .pure (some node)
termination_by (tokens.length, 0)

theorem follows_readBranch {tokens : List Token} (hb : Balanced tokens) :
    Follows (readBranchRecorded tokens) (readBranch tokens) := by
  rw [readBranchRecorded]
  refine .scan_bind hb fun cut hc => ?_
  cases cut with
  | none =>
    have hread : readBranch tokens = readPath tokens := by rw [readBranch_eq, ← hc]
    rw [hread]
    exact follows_readPath hb
  | some parts =>
    obtain ⟨before, after⟩ := parts
    obtain ⟨-, hbefore, -, hafter⟩ := hb.of_cutOutside rfl hc.symm
    have hlen := length_of_cutOutside hc.symm
    exact follows_branches (by rw [readBranch_eq, ← hc]) (follows_readPath hbefore)
      (follows_readBranch hafter)
termination_by (tokens.length, 2)

end

theorem follows_readQuery (offset : Nat) {tokens : List Token} (hb : Balanced tokens) :
    Follows (readQueryRecorded offset tokens) (readQuery offset tokens) := by
  cases tokens with
  | nil => exact .pure []
  | cons t rest =>
    refine .scan_bind hb fun parts hparts => ?_
    subst hparts
    exact .unscanned _

/-- Parentheses are checked first, so all that is scanned after that is balanced. -/
theorem follows_readTokens (tokens : List Token) :
    Follows (readTokensRecorded tokens) (readTokens tokens) := by
  unfold readTokensRecorded readTokens
  obtain ⟨path, rest⟩ := cutQuery tokens
  exact .bind (.unscanned _) fun _ hpath => .bind (.unscanned _) fun _ hquery =>
    .bind (follows_readPath (balanced_of_checkParens hpath)) fun nodes _ =>
      .bind (follows_readQuery _ (balanced_of_checkParens hquery)) fun items _ =>
        .pure (Route.of nodes items)

/-! ## The parts of a template -/

theorem scans_readPath {tokens : List Token} (hb : Balanced tokens) :
    Scans tokens (readPathRecorded tokens) := by
  rw [readPathRecorded_eq]
  refine .scan_bind hb (readPath tokens) fun parts hparts => ?_
  subst hparts
  rw [readPath_eq_mapM]
  exact .bind (.mapM fun part hp => follows_readComponent (balanced_of_mem_splitOutside rfl hb hp))
    fun nodes _ => .pure (nodes.flatMap Option.toList)

theorem scans_readQuery (offset : Nat) {tokens : List Token} (hb : Balanced tokens)
    (hne : tokens ≠ []) : Scans tokens (readQueryRecorded offset tokens) := by
  cases tokens with
  | nil => exact absurd rfl hne
  | cons t rest =>
    refine .scan_bind hb (readQuery offset (t :: rest)) fun parts hparts => ?_
    subst hparts
    exact .unscanned _

/-- Once the parentheses of both parts of a template have been checked, its path is in the record,
and so is its query, unless it is empty or the path is refused. -/
def ScansParts (tokens : List Token) (record : List (List Token)) : Prop :=
  ∀ path query, (cutQuery tokens).1 = path → (cutQuery tokens).2.getD [] = query →
    checkParens 0 path = .ok () → checkParens (queryOffset path) query = .ok () →
      path ∈ record ∧ ((∃ nodes, readPath path = .ok nodes) → query ≠ [] → query ∈ record)

theorem scansParts_readTokens (tokens : List Token) :
    ScansParts tokens (recordOf (readTokensRecorded tokens)).2 := by
  intro path query hp hq hpath hquery
  have hnil : ∀ slice ∈ ([] : List (List Token)), Balanced slice := fun _ hs =>
    absurd hs List.not_mem_nil
  have hbpath := balanced_of_checkParens hpath
  have hbquery := balanced_of_checkParens hquery
  have hfirst : Follows (unscanned (checkParens 0 path)) (.ok ()) := hpath ▸ .unscanned _
  have hsecond : Follows (unscanned (checkParens (queryOffset path) query)) (.ok ()) :=
    hquery ▸ .unscanned _
  have hitems := follows_readQuery (queryOffset path) hbquery
  unfold readTokensRecorded
  generalize cutQuery tokens = parts at hp hq
  obtain ⟨front, rest⟩ := parts
  subst hp hq
  refine ⟨?_, fun ⟨nodes, hnodes⟩ hne => ?_⟩
  · refine Scans.bind_right hfirst (.bind_right hsecond ?_) [] hnil
    exact .bind_left (scans_readPath hbpath) (follows_readPath hbpath) fun nodes _ =>
      .bind hitems fun items _ => .pure (Route.of nodes items)
  · refine Scans.bind_right hfirst (.bind_right hsecond ?_) [] hnil
    refine .bind_right (hnodes ▸ follows_readPath hbpath) ?_
    exact .bind_left (scans_readQuery _ hbquery hne) hitems fun items _ =>
      .pure (Route.of nodes items)

end Template

theorem scansParts_ofTemplate {template : String} {tokens : List Token}
    (h : Token.ofTemplate? template = .ok tokens) :
    Template.ScansParts tokens (recordOf (Route.ofTemplateRecorded template)).2 := by
  unfold Route.ofTemplateRecorded
  rw [h]
  exact Template.scansParts_readTokens tokens

theorem follows_ofTemplate (template : String) :
    Follows (Route.ofTemplateRecorded template) (Route.ofTemplate? template) := by
  unfold Route.ofTemplateRecorded Route.ofTemplate?
  cases Token.ofTemplate? template with
  | error span => exact .unscanned _
  | ok tokens => exact Template.follows_readTokens tokens

/-! ## All scans -/

/-- **The scans agree.** The check of groups lets tokens pass exactly if every front has at least as
many parentheses that open as that close, but not more of them than the limit allows, and all the
tokens have as many of the ones as of the others. Without the limit, this is what balanced means. In
balanced tokens, splitting and cutting at a delimiter tell of the same balanced parts, parentheses
are taken off exactly if they hold all the tokens, and with a checked depth all of this is the same.
And whatever the template, reading it scans balanced tokens only, the path and the query among them
once their parentheses have been checked. -/
theorem scans_agree (tokens : List Token) (template : String) :
    (∀ offset, checkGroups offset tokens = .ok () ↔
      (∀ front, front <+: tokens →
        closings front ≤ openings front ∧ openings front ≤ closings front + nestingLimit) ∧
        openings tokens = closings tokens) ∧
    (Balanced tokens ↔ (∀ front, front <+: tokens → closings front ≤ openings front) ∧
      openings tokens = closings tokens) ∧
    (Balanced tokens →
      (∀ delimiter : Token, delimiter.isParen = false →
        ∃ first others, SplitsAs delimiter tokens first others) ∧
      (∀ inner, insideParens? tokens = some inner ↔
        tokens = .mark .openParen :: (inner ++ [.mark .closeParen]) ∧ Balanced inner) ∧
      insideGroup? tokens = some (insideParens? tokens)) ∧
    (recordOf (Route.ofTemplateRecorded template)).1 = Route.ofTemplate? template ∧
    (∀ slice ∈ (recordOf (Route.ofTemplateRecorded template)).2, Balanced slice) ∧
    (∀ found, Token.ofTemplate? template = .ok found →
      Template.ScansParts found (recordOf (Route.ofTemplateRecorded template)).2) := by
  obtain ⟨hsame, -, hbalanced⟩ := follows_ofTemplate template [] fun slice hs =>
    absurd hs List.not_mem_nil
  refine ⟨fun offset => checkGroups_eq_ok_iff, balanced_iff, fun hb => ⟨?_, ?_, ?_⟩, hsame,
    hbalanced, fun found => scansParts_ofTemplate⟩
  · exact fun delimiter hd => exists_splitsAs hd hb
  · exact fun inner => hb.insideParens?_eq_some_iff
  · exact insideGroup?_eq tokens

/-- The tokens of `(a)(b)`. -/
def neighbourTokens : List Token :=
  [.mark .openParen, .text "a", .mark .closeParen, .mark .openParen, .text "b", .mark .closeParen]

/-- Of two slashes the one inside a group does not split; and groups side by side are scanned three
times before they are refused. -/
theorem scans_agree_neighbours :
    SplitsAs (.mark .slash)
        [.mark .openParen, .text "a", .mark .slash, .text "b", .mark .closeParen, .mark .slash,
          .text "c"]
        [.mark .openParen, .text "a", .mark .slash, .text "b", .mark .closeParen]
        [[.text "c"]] ∧
      (recordOf (Route.ofTemplateRecorded "(a)(b)")).2 = List.replicate 3 neighbourTokens ∧
      Balanced neighbourTokens := by
  obtain ⟨-, -, hscans, -, hbalanced, -⟩ := scans_agree
    [.mark .openParen, .text "a", .mark .slash, .text "b", .mark .closeParen, .mark .slash,
      .text "c"] "(a)(b)"
  have hb : Balanced [.mark .openParen, .text "a", .mark .slash, .text "b", .mark .closeParen,
      .mark .slash, .text "c"] := balanced_iff_depthThrough?.mpr rfl
  obtain ⟨first, others, hsplits⟩ := (hscans hb).1 (.mark .slash) rfl
  have hparts : first :: others = [[.mark .openParen, .text "a", .mark .slash, .text "b",
      .mark .closeParen], [.text "c"]] := hsplits.split.symm
  obtain ⟨rfl, rfl⟩ := List.cons.inj hparts
  have hrecord : (recordOf (Route.ofTemplateRecorded "(a)(b)")).2 =
      List.replicate 3 neighbourTokens := by
    have hlex : Token.ofTemplate? "(a)(b)" = .ok neighbourTokens := rfl
    have hcompound : Template.IsCompound neighbourTokens := ⟨by decide, by decide, by decide⟩
    rw [recordOf, Route.ofTemplateRecorded, hlex]
    show ((Template.readPathRecorded neighbourTokens >>= _).run.run []).2 = _
    rw [Template.readPathRecorded_eq, bind_assoc, run_scan_bind]
    show (([neighbourTokens].mapM Template.readComponentRecorded >>= _ >>= _).run.run _).2 = _
    rw [List.mapM_cons, Template.readComponentRecorded_eq hcompound]
    rfl
  exact ⟨hsplits, hrecord, hbalanced _ (hrecord ▸ List.mem_cons_self)⟩

end DeepLink
