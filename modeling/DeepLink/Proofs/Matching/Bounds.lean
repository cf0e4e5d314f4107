import DeepLink.Proofs.Matching.Extents
import DeepLink.Proofs.Outcome

/-!
# Matching stays within its lists

Matching may be carried out as a walk over a sequence of nodes with two counters, the nodes that
were passed and the texts that were taken. Each step looks at entries and at ends of both lists from
these counters on, and takes a difference of lengths. Here all of this is checked: what would lie
outside a list, and what would be less than zero, is an `Overrun` and ends the walk, however deep in
a branch or group it happens.

No walk overruns. From any position within both lists a step does what the front of the nodes that
are left does with the texts that are left, and comes to a position within both lists
(`followsFront`). So the walk takes what `takeNodes` takes (`walk_eq`, `PathNode.attempt_eq`).
-/

namespace DeepLink

/-! ## Checked accesses -/

/-- An access to a list beyond its end, or a difference below zero. -/
inductive Overrun
  | entry (index length : Nat)
  | slice (start length : Nat)
  | difference (a b : Nat)
  deriving DecidableEq

section Access

variable {α : Type}

/-- The entry at an index. -/
def entryAt (entries : List α) (index : Nat) : Except Overrun α :=
  match entries[index]? with
  | some entry => .ok entry
  | none => .error (.entry index entries.length)

/-- The entries from an index on, which may be that of the end. -/
def sliceFrom (entries : List α) (start : Nat) : Except Overrun (List α) :=
  if start ≤ entries.length then .ok (entries.drop start)
  else .error (.slice start entries.length)

def minus (a b : Nat) : Except Overrun Nat :=
  if b ≤ a then .ok (a - b) else .error (.difference a b)

theorem entryAt_eq {entries rest : List α} {entry : α} {index : Nat}
    (h : entries.drop index = entry :: rest) : entryAt entries index = .ok entry := by
  have hentry : entries[index]? = some entry := by
    rw [← List.head?_drop, h, List.head?_cons]
  rw [entryAt, hentry]

theorem sliceFrom_eq {entries : List α} {start : Nat} (h : start ≤ entries.length) :
    sliceFrom entries start = .ok (entries.drop start) := if_pos h

theorem minus_eq {a b : Nat} (h : b ≤ a) : minus a b = .ok (a - b) := if_pos h

end Access

/-! ## The walk -/

/-- A node as a walk sees it: whether it is a wildcard, and what it takes. -/
structure Station where
  isWildcard : Bool
  take : List String → Except Overrun (Option Taken)

/-- Where a walk is: the nodes passed, the texts taken, and what was bound on the way. -/
structure Position where
  index : Nat
  cursor : Nat
  bindings : Bindings

namespace Position

def start : Position := ⟨0, 0, .empty⟩

/-- The position behind `passed` nodes, which take the texts together. -/
def advance (p : Position) (passed : Nat) (taken : Taken) : Position :=
  ⟨p.index + passed, p.cursor + taken.count, p.bindings ++ taken.bindings⟩

/-- What is taken in all if from here on this is taken. -/
def total (p : Position) (taken : Taken) : Taken :=
  ⟨p.cursor + taken.count, p.bindings ++ taken.bindings⟩

end Position

/-- The walk fails, comes to its end, or has to go on. -/
inductive Move
  | refuse
  | stop (p : Position)
  | goOn (p : Position)

/-- Where the walk is after the step, unless it fails. -/
def Move.position? : Move → Option Position
  | .refuse => none
  | .stop p => some p
  | .goOn p => some p

/-- The step past nodes that take something together, or take nothing. -/
def Move.past (p : Position) (passed : Nat) : Option Taken → Move
  | none => .refuse
  | some taken => .goOn (p.advance passed taken)

/-- What the node after a wildcard takes, with the texts that the wildcard covers before it. -/
def Station.firstMatch (next : Station) (texts : List String) : Except Overrun (Option Taken) :=
  (List.range' 1 (texts.length - 1)).findSomeM? fun n => do
    let rest ← sliceFrom texts n
    let found ← next.take rest
    return found.map (Taken.skip n)

/-- The step at a wildcard. -/
def Position.moveWildcard (p : Position) (stations : List Station)
    (texts remaining : List String) : Except Overrun Move := do
  match ← sliceFrom stations (p.index + 1) with
  | [] => return if remaining = [] then .refuse else .stop { p with cursor := texts.length }
  | next :: _ =>
    let needed ← minus stations.length p.index
    if remaining.length < needed then return .refuse
    else return .past p 2 (← next.firstMatch remaining)

/-- One step of the walk. -/
def Position.move (extent : Extent) (stations : List Station) (texts : List String)
    (p : Position) : Except Overrun Move :=
  if p.index < stations.length then do
    let remaining ← sliceFrom texts p.cursor
    if remaining = [] ∧ extent = .whileAny then return .stop p
    else
      let station ← entryAt stations p.index
      if station.isWildcard then p.moveWildcard stations texts remaining
      else return .past p 1 (← station.take remaining)
  else return .stop p

theorem Move.past_eq_goOn {p q : Position} {passed : Nat} {found : Option Taken}
    (h : Move.past p passed found = .goOn q) : q.index = p.index + passed := by
  cases found with
  | none => cases h
  | some taken =>
    cases h
    rfl

theorem index_lt_of_moveWildcard {stations : List Station} {texts remaining : List String}
    {p q : Position} (h : p.moveWildcard stations texts remaining = .ok (.goOn q)) :
    p.index < q.index := by
  obtain ⟨rest, -, h⟩ := bind_eq_ok.mp h
  split at h
  · split at h <;> cases h
  · obtain ⟨needed, -, h⟩ := bind_eq_ok.mp h
    split at h
    · cases h
    · obtain ⟨found, -, h⟩ := bind_eq_ok.mp h
      have hq := Move.past_eq_goOn (Except.ok.inj h)
      omega

/-- A step that goes on passes a node. -/
theorem index_lt_of_move {extent : Extent} {stations : List Station} {texts : List String}
    {p q : Position} (h : p.move extent stations texts = .ok (.goOn q)) :
    p.index < stations.length ∧ p.index < q.index := by
  rw [Position.move] at h
  split at h
  · next hlt =>
    refine ⟨hlt, ?_⟩
    obtain ⟨remaining, -, h⟩ := bind_eq_ok.mp h
    split at h
    · cases h
    · obtain ⟨station, -, h⟩ := bind_eq_ok.mp h
      split at h
      · exact index_lt_of_moveWildcard h
      · obtain ⟨found, -, h⟩ := bind_eq_ok.mp h
        have hq := Move.past_eq_goOn (Except.ok.inj h)
        omega
  · cases h

/-- Step by step from a position on, until the walk fails or comes to its end. -/
def walk (extent : Extent) (stations : List Station) (texts : List String) (p : Position) :
    Except Overrun (Option Taken) :=
  match _hmove : p.move extent stations texts with
  | .error overrun => .error overrun
  | .ok .refuse => .ok none
  | .ok (.stop q) => .ok (some ⟨q.cursor, q.bindings⟩)
  | .ok (.goOn q) => walk extent stations texts q
termination_by stations.length - p.index
decreasing_by
  have hindex := index_lt_of_move _hmove
  omega

section Unfold

variable {extent : Extent} {stations : List Station} {texts : List String} {p q : Position}

theorem walk_of_refuse (h : p.move extent stations texts = .ok .refuse) :
    walk extent stations texts p = .ok none := by
  rw [walk]
  split
  · next hmove => cases hmove.symm.trans h
  · rfl
  · next hmove => cases hmove.symm.trans h
  · next hmove => cases hmove.symm.trans h

theorem walk_of_stop (h : p.move extent stations texts = .ok (.stop q)) :
    walk extent stations texts p = .ok (some ⟨q.cursor, q.bindings⟩) := by
  rw [walk]
  split
  · next hmove => cases hmove.symm.trans h
  · next hmove => cases hmove.symm.trans h
  · next hmove =>
    cases hmove.symm.trans h
    rfl
  · next hmove => cases hmove.symm.trans h

theorem walk_of_goOn (h : p.move extent stations texts = .ok (.goOn q)) :
    walk extent stations texts p = walk extent stations texts q := by
  rw [walk]
  split
  · next hmove => cases hmove.symm.trans h
  · next hmove => cases hmove.symm.trans h
  · next hmove => cases hmove.symm.trans h
  · next hmove =>
    cases hmove.symm.trans h
    rfl

end Unfold

/-- The first of two attempts that takes anything. -/
def firstOf (first second : Except Overrun (Option Taken)) : Except Overrun (Option Taken) := do
  match ← first with
  | some taken => return some taken
  | none => second

mutual

/-- What a node takes, where the branches and groups in it are walked over. -/
def PathNode.attempt : PathNode → List String → Except Overrun (Option Taken)
  | .literal text, texts => .ok (takeNode (.literal text) texts)
  | .parameter p, texts => .ok (takeNode (.parameter p) texts)
  | .alternation left right, texts =>
    if left.length < right.length then
      firstOf (walk .all (stations right) texts .start) (walk .all (stations left) texts .start)
    else firstOf (walk .all (stations left) texts .start) (walk .all (stations right) texts .start)
  | .optional group, texts => do
    let found ← walk .whileAny (stations group) texts .start
    return some (found.getD .nothing)
  | .wildcard, _ => .ok none

def stations : List PathNode → List Station
  | [] => []
  | node :: nodes => ⟨node = .wildcard, node.attempt⟩ :: stations nodes

end

/-! ## One step -/

/-- The station of a node where nothing overruns. -/
def Station.of (node : PathNode) : Station :=
  ⟨node = .wildcard, fun texts => .ok (takeNode node texts)⟩

/-- The position is within both lists, or at their ends. -/
structure Position.Within (p : Position) (nodes : List PathNode) (texts : List String) : Prop where
  index : p.index ≤ nodes.length
  cursor : p.cursor ≤ texts.length

/-- The places at which the node after a wildcard is tried are within the texts. -/
theorem firstMatch_of (next : PathNode) (texts : List String) :
    (Station.of next).firstMatch texts = .ok (firstMatch next texts) := by
  refine findSomeM?_eq_ok fun n hn => ?_
  obtain ⟨-, hlt⟩ := List.mem_range'_1.mp hn
  rw [sliceFrom_eq (by omega)]
  rfl

/-- Where `rest` is left of the nodes, the step does what its front does. It refuses where the front
takes nothing, and else passes the front, or stops behind it if that is a last wildcard. -/
inductive Position.FollowsFront (p : Position) (extent : Extent) (nodes : List PathNode)
    (texts : List String) (rest : List PathNode) : Prop
  | refuse (hfront : takeFront rest (texts.drop p.cursor) = none)
    (hmove : p.move extent (nodes.map .of) texts = .ok .refuse)
  | goOn (passed : Nat) (taken : Taken) (hfront : takeFront rest (texts.drop p.cursor) = some taken)
    (hmove : p.move extent (nodes.map .of) texts = .ok (.goOn (p.advance passed taken)))
    (hbehind : nodes.drop (p.index + passed) = pastFront rest)
    (hq : (p.advance passed taken).Within nodes texts)
  | stop (taken : Taken) (hfront : takeFront rest (texts.drop p.cursor) = some taken)
    (hmove : p.move extent (nodes.map .of) texts = .ok (.stop (p.advance 0 taken)))
    (hbehind : pastFront rest = []) (hq : (p.advance 0 taken).Within nodes texts)

section Step

variable {extent : Extent} {nodes : List PathNode} {texts : List String} {p : Position}

theorem Position.Within.advance (hp : p.Within nodes texts) {taken : Taken}
    (h : takeFront (nodes.drop p.index) (texts.drop p.cursor) = some taken) {passed : Nat}
    (hpassed : p.index + passed ≤ nodes.length) : (p.advance passed taken).Within nodes texts := by
  have hcount := count_le_of_takeFront h
  rw [List.length_drop] at hcount
  have hcursor := hp.cursor
  refine ⟨hpassed, ?_⟩
  show p.cursor + taken.count ≤ texts.length
  omega

/-- A last wildcard takes all texts that are left. -/
theorem advance_rest (h : p.cursor ≤ texts.length) :
    p.advance 0 ⟨(texts.drop p.cursor).length, .empty⟩ = { p with cursor := texts.length } := by
  rw [Position.advance, List.length_drop, Bindings.append_empty, Nat.add_sub_of_le h]
  rfl

theorem length_of_drop_eq_cons {node : PathNode} {rest : List PathNode}
    (h : nodes.drop p.index = node :: rest) : nodes.length = p.index + rest.length + 1 := by
  have hlen := congrArg List.length h
  rw [List.length_drop, List.length_cons] at hlen
  omega

theorem entryAt_stations {node : PathNode} {rest : List PathNode}
    (h : nodes.drop p.index = node :: rest) :
    entryAt (nodes.map Station.of) p.index = .ok (.of node) := by
  have hdrop : (nodes.map Station.of).drop p.index = .of node :: rest.map .of := by
    rw [← List.map_drop, h, List.map_cons]
  exact entryAt_eq hdrop

theorem sliceFrom_stations {node : PathNode} {rest : List PathNode}
    (h : nodes.drop p.index = node :: rest) :
    sliceFrom (nodes.map Station.of) (p.index + 1) = .ok (rest.map .of) := by
  have hlen := length_of_drop_eq_cons h
  rw [sliceFrom_eq (by rw [List.length_map]; omega), ← List.map_drop, ← List.tail_drop, h,
    List.tail_cons]

theorem move_of_drop_eq_nil (h : nodes.drop p.index = []) :
    p.move extent (nodes.map .of) texts = .ok (.stop p) := by
  rw [Position.move, if_neg]
  · rfl
  · rw [List.length_map, Nat.not_lt]
    exact List.drop_eq_nil_iff.mp h

/-- The step at a wildcard that is the last node. -/
theorem moveWildcard_last (h : nodes.drop p.index = [.wildcard]) (remaining : List String) :
    p.moveWildcard (nodes.map .of) texts remaining =
      .ok (if remaining = [] then .refuse else .stop { p with cursor := texts.length }) := by
  rw [Position.moveWildcard, sliceFrom_stations h]
  rfl

/-- The step at a wildcard with a node after it. -/
theorem moveWildcard_lookahead {next : PathNode} {more : List PathNode}
    (h : nodes.drop p.index = .wildcard :: next :: more) (remaining : List String) :
    p.moveWildcard (nodes.map .of) texts remaining =
      .ok (if remaining.length < more.length + 2 then .refuse
        else .past p 2 (firstMatch next remaining)) := by
  have hlen := length_of_drop_eq_cons h
  rw [List.length_cons] at hlen
  have hneeded : minus (nodes.map Station.of).length p.index = .ok (more.length + 2) := by
    rw [List.length_map, minus_eq (by omega), hlen]
    congr 1
    omega
  rw [Position.moveWildcard, sliceFrom_stations h]
  show (minus (nodes.map Station.of).length p.index >>= fun needed => _) = _
  rw [hneeded]
  show (if remaining.length < more.length + 2 then _ else _) = _
  rw [firstMatch_of]
  split <;> rfl

variable (hp : p.Within nodes texts)

include hp

theorem move_of_over (hover : texts.drop p.cursor = [] ∧ extent = .whileAny) :
    p.move extent (nodes.map .of) texts = .ok (.stop p) := by
  rw [Position.move, sliceFrom_eq hp.cursor]
  split
  · show (if _ then _ else _) = _
    rw [if_pos hover]
    rfl
  · rfl

/-- The step at a node, if the walk does not end before it. -/
theorem move_of_drop_eq_cons {node : PathNode} {rest : List PathNode}
    (h : nodes.drop p.index = node :: rest)
    (hgo : ¬(texts.drop p.cursor = [] ∧ extent = .whileAny)) :
    p.move extent (nodes.map .of) texts =
      if node = .wildcard then p.moveWildcard (nodes.map .of) texts (texts.drop p.cursor)
      else .ok (.past p 1 (takeNode node (texts.drop p.cursor))) := by
  have hlt : p.index < (nodes.map Station.of).length := by
    have hlen := length_of_drop_eq_cons h
    rw [List.length_map]
    omega
  rw [Position.move, if_pos hlt, sliceFrom_eq hp.cursor]
  show (if _ then _ else _) = _
  rw [if_neg hgo, entryAt_stations h]
  show (if decide (node = .wildcard) = true then _ else _) = _
  simp only [decide_eq_true_eq]
  rfl

/-- All steps but that at a last wildcard pass nodes that take something together. -/
theorem followsFront_of_past {rest : List PathNode} (hrest : nodes.drop p.index = rest)
    {passed : Nat} (hpassed : p.index + passed ≤ nodes.length)
    (hbehind : nodes.drop (p.index + passed) = pastFront rest)
    (hmove : p.move extent (nodes.map .of) texts =
      .ok (.past p passed (takeFront rest (texts.drop p.cursor)))) :
    p.FollowsFront extent nodes texts rest := by
  cases hfront : takeFront rest (texts.drop p.cursor) with
  | none =>
    rw [hfront] at hmove
    exact .refuse hfront hmove
  | some taken =>
    rw [hfront] at hmove
    exact .goOn passed taken hfront hmove hbehind (hp.advance (hrest ▸ hfront) hpassed)

/-- Every step from within both lists follows the front, unless the walk is over there. -/
theorem followsFront {rest : List PathNode} (hrest : nodes.drop p.index = rest) (hne : rest ≠ [])
    (hgo : ¬(texts.drop p.cursor = [] ∧ extent = .whileAny)) :
    p.FollowsFront extent nodes texts rest := by
  cases rest using front_cases with
  | nil => exact absurd rfl hne
  | last =>
    have hmove := move_of_drop_eq_cons hp hrest hgo
    rw [if_pos rfl, moveWildcard_last hrest] at hmove
    by_cases hnil : texts.drop p.cursor = []
    · rw [if_pos hnil] at hmove
      exact .refuse (by rw [takeFront, if_pos hnil]) hmove
    · have hfront : takeFront [.wildcard] (texts.drop p.cursor) =
          some ⟨(texts.drop p.cursor).length, .empty⟩ := by rw [takeFront, if_neg hnil]
      rw [if_neg hnil, ← advance_rest hp.cursor] at hmove
      exact .stop _ hfront hmove rfl (hp.advance (hrest ▸ hfront) hp.index)
  | lookahead next more =>
    have hlen := length_of_drop_eq_cons hrest
    rw [List.length_cons] at hlen
    have hbehind : nodes.drop (p.index + 2) = pastFront (.wildcard :: next :: more) := by
      rw [← List.drop_drop, hrest]
      rfl
    refine followsFront_of_past hp hrest (by omega) hbehind ?_
    rw [move_of_drop_eq_cons hp hrest hgo, if_pos rfl, moveWildcard_lookahead hrest, takeFront]
    split <;> rfl
  | single node more hw =>
    have hlen := length_of_drop_eq_cons hrest
    have hbehind : nodes.drop (p.index + 1) = pastFront (node :: more) := by
      rw [← List.drop_drop, hrest, pastFront_cons hw]
      rfl
    refine followsFront_of_past hp hrest (by omega) hbehind ?_
    rw [move_of_drop_eq_cons hp hrest hgo, if_neg hw, takeFront_cons hw]

end Step

/-! ## The whole walk -/

theorem Position.total_nothing (p : Position) : p.total .nothing = ⟨p.cursor, p.bindings⟩ := by
  show Taken.mk (p.cursor + 0) (p.bindings ++ Bindings.empty) = _
  rw [Bindings.append_empty, Nat.add_zero]

theorem Position.total_advance (p : Position) (passed : Nat) (first second : Taken) :
    (p.advance passed first).total second = p.total (first ++ second) := by
  show Taken.mk (p.cursor + first.count + second.count) _ =
    Taken.mk (p.cursor + (first.count + second.count)) _
  rw [Nat.add_assoc]
  exact congrArg _ (Bindings.append_assoc _ _ _)

/-- From a position within both lists, a walk takes what the nodes that are left take of the texts
that are left, and has then taken this in addition. -/
theorem walk_eq {extent : Extent} {nodes : List PathNode} {texts : List String} {p : Position}
    (hp : p.Within nodes texts) :
    walk extent (nodes.map .of) texts p =
      .ok ((takeNodes extent (nodes.drop p.index) (texts.drop p.cursor)).map p.total) := by
  generalize hrest : nodes.drop p.index = rest
  induction rest using nodes_induction generalizing p with
  | nil =>
    rw [walk_of_stop (move_of_drop_eq_nil hrest), takeNodes, Option.map_some, p.total_nothing]
  | front rest hne ih =>
    by_cases hover : texts.drop p.cursor = [] ∧ extent = .whileAny
    · rw [walk_of_stop (move_of_over hp hover), hover.1, hover.2, takeNodes_whileAny_nil,
        Option.map_some, p.total_nothing]
    · rw [takeNodes_eq_bind hne fun he hnil => hover ⟨hnil, he⟩]
      cases followsFront hp hrest hne hover with
      | refuse hfront hmove =>
        rw [walk_of_refuse hmove, hfront]
        rfl
      | goOn passed taken hfront hmove hbehind hq =>
        rw [walk_of_goOn hmove, ih hq hbehind, hfront, Option.bind_some, Taken.followedBy,
          List.drop_drop, Option.map_map]
        exact congrArg (fun f => Except.ok (Option.map f _))
          (funext fun second => p.total_advance passed taken second)
      | stop taken hfront hmove hbehind hq =>
        rw [walk_of_stop hmove, hfront, hbehind, Option.bind_some, Taken.followedBy, takeNodes,
          Option.map_some, Option.map_some, ← p.total_advance 0, Position.total_nothing]

theorem within_start (nodes : List PathNode) (texts : List String) :
    Position.start.Within nodes texts := ⟨Nat.zero_le _, Nat.zero_le _⟩

theorem walk_start (extent : Extent) (nodes : List PathNode) (texts : List String) :
    walk extent (nodes.map .of) texts .start = .ok (takeNodes extent nodes texts) := by
  have htotal : Position.start.total = id := by
    funext taken
    show Taken.mk (0 + taken.count) (Bindings.empty ++ taken.bindings) = taken
    rw [Nat.zero_add, Bindings.empty_append]
  rw [walk_eq (within_start nodes texts), htotal, Option.map_id]
  rfl

theorem firstOf_ok (first second : Option Taken) :
    firstOf (.ok first) (.ok second) = .ok (first.or second) := by
  cases first with
  | none => rfl
  | some taken => rfl

mutual

/-- No node overruns. -/
theorem PathNode.attempt_eq : (node : PathNode) →
    node.attempt = fun texts => .ok (takeNode node texts)
  | .literal text => by
    funext texts
    rw [PathNode.attempt]
  | .parameter p => by
    funext texts
    rw [PathNode.attempt]
  | .alternation left right => by
    funext texts
    rw [PathNode.attempt, stations_eq left, stations_eq right, walk_start, walk_start, firstOf_ok,
      firstOf_ok, takeNode]
    split <;> rfl
  | .optional group => by
    funext texts
    rw [PathNode.attempt, stations_eq group, walk_start, takeNode]
    rfl
  | .wildcard => by
    funext texts
    rw [PathNode.attempt, takeNode]

theorem stations_eq : (nodes : List PathNode) → stations nodes = nodes.map .of
  | [] => by rw [stations, List.map_nil]
  | node :: nodes => by
    rw [stations, node.attempt_eq, stations_eq nodes, List.map_cons]
    rfl

end

/-! ## The positions of a walk -/

/-- The positions to which a walk comes, step by step from its start. -/
inductive Visits (extent : Extent) (nodes : List PathNode) (texts : List String) : Position → Prop
  | start : Visits extent nodes texts .start
  | step {p q : Position} {m : Move} (h : Visits extent nodes texts p)
    (hmove : p.move extent (stations nodes) texts = .ok m) (hm : m.position? = some q) :
    Visits extent nodes texts q

/-- A step within both lists does not lead out of them. -/
theorem Position.Within.of_move {extent : Extent} {nodes : List PathNode} {texts : List String}
    {p q : Position} {m : Move} (hp : p.Within nodes texts)
    (hmove : p.move extent (nodes.map .of) texts = .ok m) (hm : m.position? = some q) :
    q.Within nodes texts := by
  by_cases hne : nodes.drop p.index = []
  · obtain rfl := Except.ok.inj ((move_of_drop_eq_nil hne).symm.trans hmove)
    cases hm
    exact hp
  · by_cases hover : texts.drop p.cursor = [] ∧ extent = .whileAny
    · obtain rfl := Except.ok.inj ((move_of_over hp hover).symm.trans hmove)
      cases hm
      exact hp
    · cases followsFront hp rfl hne hover with
      | refuse _ hrefuse =>
        obtain rfl := Except.ok.inj (hrefuse.symm.trans hmove)
        cases hm
      | goOn passed taken _ hgoOn _ hq =>
        obtain rfl := Except.ok.inj (hgoOn.symm.trans hmove)
        cases hm
        exact hq
      | stop taken _ hstop _ hq =>
        obtain rfl := Except.ok.inj (hstop.symm.trans hmove)
        cases hm
        exact hq

theorem Visits.within {extent : Extent} {nodes : List PathNode} {texts : List String}
    {p : Position} (h : Visits extent nodes texts p) : p.Within nodes texts := by
  induction h with
  | start => exact within_start nodes texts
  | step _ hmove hm ih =>
    rw [stations_eq] at hmove
    exact ih.of_move hmove hm

/-- **Matching stays within its lists.** Whatever the nodes and the texts are, a walk over them only
comes to positions within both lists. Neither in it nor in the walks over branches and groups is an
access beyond the end of a list or a difference below zero, and so it takes what the nodes take.
That is no more than there are texts, and where there are none it is nothing. -/
theorem walk_stays_within (extent : Extent) (nodes : List PathNode) (node : PathNode)
    (texts : List String) :
    (∀ p, Visits extent nodes texts p → p.index ≤ nodes.length ∧ p.cursor ≤ texts.length) ∧
      walk extent (stations nodes) texts .start = .ok (takeNodes extent nodes texts) ∧
      node.attempt texts = .ok (takeNode node texts) ∧
      ∀ taken, takeNodes extent nodes texts = some taken ∨ takeNode node texts = some taken →
        taken.count ≤ texts.length ∧ (texts = [] → taken = .nothing) := by
  refine ⟨fun p h => ⟨h.within.index, h.within.cursor⟩, ?_, ?_, fun taken h => ⟨?_, ?_⟩⟩
  · rw [stations_eq, walk_start]
  · rw [node.attempt_eq]
  · rcases h with h | h
    · exact count_le_of_takeNodes h
    · exact count_le_of_takeNode h
  · rintro rfl
    rcases h with h | h
    · exact eq_nothing_of_takeNodes h
    · exact eq_nothing_of_takeNode h

/-- The path of `a/*/:int(id)/(b/*)`. -/
def starToNumber : List PathNode :=
  [.literal "a", .wildcard, .parameter (.typed .int "id"), .optional [.literal "b", .wildcard]]

/-- The wildcard and the number are passed together, up to the end of the texts. Without any texts
the group takes nothing. -/
theorem walk_stays_within_starToNumber :
    Visits .all starToNumber ["a", "x", "y", "7"] ⟨3, 4, ⟨[(.typed .int "id", "7")]⟩⟩ ∧
      3 ≤ starToNumber.length ∧ 4 ≤ ["a", "x", "y", "7"].length ∧
      takeNodes .all starToNumber ["a", "x", "y", "7"] =
        some ⟨4, ⟨[(.typed .int "id", "7")]⟩⟩ ∧
      walk .all (stations starToNumber) ["a", "x", "y", "7"] .start =
        .ok (some ⟨4, ⟨[(.typed .int "id", "7")]⟩⟩) ∧
      takeNode (.optional starToNumber) [] = some .nothing := by
  have hliteral : Visits .all starToNumber ["a", "x", "y", "7"] ⟨1, 1, .empty⟩ :=
    .step .start rfl rfl
  have hnumber : Visits .all starToNumber ["a", "x", "y", "7"]
      ⟨3, 4, ⟨[(.typed .int "id", "7")]⟩⟩ := .step hliteral rfl rfl
  have htaken : takeNodes .all starToNumber ["a", "x", "y", "7"] =
      some ⟨4, ⟨[(.typed .int "id", "7")]⟩⟩ := by decide +kernel
  obtain ⟨hvisits, hwalk, -, hbound⟩ :=
    walk_stays_within .all starToNumber (.optional starToNumber) ["a", "x", "y", "7"]
  obtain ⟨hindex, hcursor⟩ := hvisits _ hnumber
  have hgroup : ∃ taken, takeNode (.optional starToNumber) [] = some taken := ⟨_, by rw [takeNode]⟩
  obtain ⟨taken, hgroup⟩ := hgroup
  obtain ⟨-, -, -, hempty⟩ := walk_stays_within .all starToNumber (.optional starToNumber) []
  refine ⟨hnumber, hindex, (hbound _ (.inl htaken)).1, htaken, ?_, ?_⟩
  · rw [hwalk, htaken]
  · rw [hgroup, (hempty taken (.inr hgroup)).2 rfl]

end DeepLink
