import DeepLink.Matching
import DeepLink.Proofs.Matching.Reading

/-!
# The reading that matching settles on

Of the readings that nodes allow, matching settles on the preferred one. Preference is a condition
on each choice of a reading: an alternation takes the branch that is tried second only if the other
one refuses, a group is left out only if it refuses, and a wildcard covers as few texts as the node
after it lets it. It is stated without the matcher, and what the matcher takes is just what
preferred readings take (`PathNode.settles`, `settlesPath`): one lemma says so for each kind of node
and for each way in which a sequence of nodes begins.
-/

namespace DeepLink

/-! ## Preferred readings -/

/-- Of the texts, `P` allows no reading of a front part; `textsIn` gives the texts of a reading. -/
def Refuses {α : Type} (textsIn : α → List String) (P : α → List String → Prop)
    (texts : List String) : Prop :=
  ∀ reading rest, textsIn reading ++ rest = texts → ¬ P reading rest

mutual

/-- The node prefers the reading in front of the texts `rest`. -/
def PathNode.Prefers : PathNode → Reading → List String → Prop
  | .literal text, reading, _ => reading = .literal text
  | .parameter p, reading, _ => ∃ text, reading = .value p text ∧ p.accepts text = true
  | .alternation left right, reading, rest =>
    (∃ inner, reading = .branch .left inner ∧ PrefersPath .all left inner rest ∧
      (left.length < right.length →
        Refuses textsOf (PrefersPath .all right) (textsOf inner ++ rest))) ∨
    ∃ inner, reading = .branch .right inner ∧ PrefersPath .all right inner rest ∧
      (right.length ≤ left.length →
        Refuses textsOf (PrefersPath .all left) (textsOf inner ++ rest))
  | .optional group, reading, rest =>
    (∃ inner, reading = .group inner ∧ PrefersPath .whileAny group inner rest) ∨
      reading = .absent ∧ Refuses textsOf (PrefersPath .whileAny group) rest
  -- A wildcard is read together with what follows it.
  | .wildcard, _, _ => False

/-- The nodes prefer the readings in front of the texts `rest`. Nodes that need not all match are
read while any text is left. -/
def PrefersPath (extent : Extent) : List PathNode → List Reading → List String → Prop
  | [], readings, _ => readings = []
  | _ :: _, [], rest => extent = .whileAny ∧ rest = []
  | [.wildcard], reading :: readings, rest =>
    ∃ texts, reading = .wildcard texts ∧ texts ≠ [] ∧ readings = [] ∧ rest = []
  -- There are as many texts as nodes at least, and the wildcard ends where the next node can be
  -- read for the first time.
  | .wildcard :: next :: more, reading :: readings, rest =>
    ∃ texts, reading = .wildcard texts ∧ texts ≠ [] ∧ next ≠ .wildcard ∧
      textsOf readings ++ rest ≠ [] ∧
      more.length + 2 ≤ (texts ++ (textsOf readings ++ rest)).length ∧
      (∀ n, 0 < n → n < texts.length →
        Refuses Reading.texts next.Prefers (texts.drop n ++ (textsOf readings ++ rest))) ∧
      PrefersPath extent (next :: more) readings rest
  | node :: nodes, reading :: readings, rest =>
    (extent = .whileAny → reading.texts ++ (textsOf readings ++ rest) ≠ []) ∧
      node.Prefers reading (textsOf readings ++ rest) ∧ PrefersPath extent nodes readings rest

end

/-- What a reading takes. -/
def Reading.taken (reading : Reading) : Taken := ⟨reading.texts.length, reading.bindings⟩

def takenOf (readings : List Reading) : Taken := ⟨(textsOf readings).length, bindingsOf readings⟩

theorem takenOf_cons (reading : Reading) (rest : List Reading) :
    takenOf (reading :: rest) = reading.taken ++ takenOf rest := by
  show Taken.mk (reading.texts ++ textsOf rest).length _ = _
  rw [List.length_append]
  rfl

/-- Matching takes of any texts what a preferred reading takes. -/
def PathNode.Settles (node : PathNode) : Prop :=
  ∀ texts taken, takeNode node texts = some taken ↔
    ∃ reading rest, node.Prefers reading rest ∧ reading.texts ++ rest = texts ∧
      reading.taken = taken

def SettlesPath (nodes : List PathNode) : Prop :=
  ∀ extent texts taken, takeNodes extent nodes texts = some taken ↔
    ∃ readings rest, PrefersPath extent nodes readings rest ∧ textsOf readings ++ rest = texts ∧
      takenOf readings = taken

/-- Where nothing is taken, no reading of a front of the texts is preferred. -/
theorem eq_none_iff_refuses {α : Type} {textsIn : α → List String} {size : α → Taken}
    {P : α → List String → Prop} {texts : List String} {result : Option Taken}
    (h : ∀ taken, result = some taken ↔
      ∃ reading rest, P reading rest ∧ textsIn reading ++ rest = texts ∧ size reading = taken) :
    result = none ↔ Refuses textsIn P texts := by
  rw [Option.eq_none_iff_forall_ne_some]
  refine ⟨fun hn reading rest ht hp => ?_, fun hr taken hs => ?_⟩
  · exact hn _ ((h _).mpr ⟨reading, rest, hp, ht, rfl⟩)
  · obtain ⟨reading, rest, hp, ht, -⟩ := (h taken).mp hs
    exact hr reading rest ht hp

theorem PathNode.Settles.eq_none_iff {node : PathNode} (h : node.Settles) (texts : List String) :
    takeNode node texts = none ↔ Refuses Reading.texts node.Prefers texts :=
  eq_none_iff_refuses (h texts)

theorem SettlesPath.eq_none_iff {nodes : List PathNode} (h : SettlesPath nodes) (extent : Extent)
    (texts : List String) :
    takeNodes extent nodes texts = none ↔ Refuses textsOf (PrefersPath extent nodes) texts :=
  eq_none_iff_refuses (h extent texts)

/-! ## One node -/

/-- A node that takes one text of some kind settles on it. -/
theorem settles_of_one {node : PathNode} {P : String → Prop} [DecidablePred P]
    {f : String → Reading} (htexts : ∀ text, (f text).texts = [text])
    (hnil : takeNode node [] = none)
    (hcons : ∀ text rest, takeNode node (text :: rest) =
      if P text then some (f text).taken else none)
    (hprefers : ∀ reading rest, node.Prefers reading rest ↔
      ∃ text, reading = f text ∧ P text) : node.Settles := by
  intro texts taken
  constructor
  · intro h
    cases texts with
    | nil =>
      rw [hnil] at h
      cases h
    | cons text rest =>
      rw [hcons] at h
      by_cases ha : P text
      · rw [if_pos ha] at h
        refine ⟨f text, rest, (hprefers _ _).mpr ⟨text, rfl, ha⟩, ?_, Option.some.inj h⟩
        rw [htexts]
        rfl
      · rw [if_neg ha] at h
        cases h
  · rintro ⟨reading, rest, hp, rfl, rfl⟩
    obtain ⟨text, rfl, ha⟩ := (hprefers _ _).mp hp
    rw [htexts]
    show takeNode node (text :: rest) = _
    rw [hcons, if_pos ha]

theorem settles_literal (text : String) : (PathNode.literal text).Settles := by
  apply settles_of_one (f := .literal) (P := (· = text))
  · exact fun _ => rfl
  · rw [takeNode]
  · intro component rest
    rw [takeNode]
    rfl
  · intro reading rest
    rw [PathNode.Prefers]
    constructor
    · exact fun h => ⟨text, h, rfl⟩
    · rintro ⟨component, h, rfl⟩
      exact h

theorem settles_parameter (p : Parameter) : (PathNode.parameter p).Settles := by
  apply settles_of_one (f := .value p) (P := (p.accepts · = true))
  · exact fun _ => rfl
  · rw [takeNode]
  · intro component rest
    rw [takeNode]
    rfl
  · intro reading rest
    rw [PathNode.Prefers]

theorem settles_wildcard : PathNode.wildcard.Settles := by
  intro texts taken
  rw [takeNode]
  refine ⟨fun h => ?_, fun ⟨reading, rest, hp, _, _⟩ => ?_⟩
  · cases h
  · rw [PathNode.Prefers] at hp
    exact hp.elim

/-- Of two sequences of nodes the second counts only where the first refuses. -/
theorem or_eq_some_iff {first second : List PathNode} (hf : SettlesPath first)
    (hs : SettlesPath second) (texts : List String) (taken : Taken) :
    (takeNodes .all first texts).or (takeNodes .all second texts) = some taken ↔
      (∃ inner rest, PrefersPath .all first inner rest ∧ textsOf inner ++ rest = texts ∧
        takenOf inner = taken) ∨
      Refuses textsOf (PrefersPath .all first) texts ∧
        ∃ inner rest, PrefersPath .all second inner rest ∧ textsOf inner ++ rest = texts ∧
          takenOf inner = taken := by
  rw [Option.or_eq_some_iff, hf .all texts taken, hf.eq_none_iff, hs .all texts taken]

theorem settles_alternation {left right : List PathNode} (hl : SettlesPath left)
    (hr : SettlesPath right) : (PathNode.alternation left right).Settles := by
  intro texts taken
  rw [takeNode]
  by_cases hlen : left.length < right.length
  · rw [if_pos hlen, or_eq_some_iff hr hl]
    constructor
    · rintro (⟨inner, rest, hp, ht, hs⟩ | ⟨hno, inner, rest, hp, ht, hs⟩)
      · refine ⟨.branch .right inner, rest, ?_, ht, hs⟩
        rw [PathNode.Prefers]
        exact .inr ⟨inner, rfl, hp, fun hle => absurd hlen (Nat.not_lt.mpr hle)⟩
      · refine ⟨.branch .left inner, rest, ?_, ht, hs⟩
        rw [PathNode.Prefers]
        exact .inl ⟨inner, rfl, hp, fun _ => ht.symm ▸ hno⟩
    · rintro ⟨reading, rest, hp, ht, hs⟩
      rw [PathNode.Prefers] at hp
      rcases hp with ⟨inner, rfl, hp, hno⟩ | ⟨inner, rfl, hp, -⟩
      · exact .inr ⟨ht ▸ hno hlen, inner, rest, hp, ht, hs⟩
      · exact .inl ⟨inner, rest, hp, ht, hs⟩
  · rw [if_neg hlen, or_eq_some_iff hl hr]
    constructor
    · rintro (⟨inner, rest, hp, ht, hs⟩ | ⟨hno, inner, rest, hp, ht, hs⟩)
      · refine ⟨.branch .left inner, rest, ?_, ht, hs⟩
        rw [PathNode.Prefers]
        exact .inl ⟨inner, rfl, hp, fun hlt => absurd hlt hlen⟩
      · refine ⟨.branch .right inner, rest, ?_, ht, hs⟩
        rw [PathNode.Prefers]
        exact .inr ⟨inner, rfl, hp, fun _ => ht.symm ▸ hno⟩
    · rintro ⟨reading, rest, hp, ht, hs⟩
      rw [PathNode.Prefers] at hp
      rcases hp with ⟨inner, rfl, hp, -⟩ | ⟨inner, rfl, hp, hno⟩
      · exact .inl ⟨inner, rest, hp, ht, hs⟩
      · exact .inr ⟨ht ▸ hno (Nat.not_lt.mp hlen), inner, rest, hp, ht, hs⟩

theorem settles_optional {group : List PathNode} (hg : SettlesPath group) :
    (PathNode.optional group).Settles := by
  intro texts taken
  rw [takeNode]
  constructor
  · intro h
    cases hn : takeNodes .whileAny group texts with
    | none =>
      rw [hn] at h
      refine ⟨.absent, texts, ?_, rfl, Option.some.inj h⟩
      rw [PathNode.Prefers]
      exact .inr ⟨rfl, (hg.eq_none_iff _ _).mp hn⟩
    | some found =>
      rw [hn] at h
      obtain ⟨inner, rest, hp, ht, hs⟩ := (hg _ _ _).mp hn
      refine ⟨.group inner, rest, ?_, ht, hs.trans (Option.some.inj h)⟩
      rw [PathNode.Prefers]
      exact .inl ⟨inner, rfl, hp⟩
  · rintro ⟨reading, rest, hp, rfl, rfl⟩
    rw [PathNode.Prefers] at hp
    rcases hp with ⟨inner, rfl, hp⟩ | ⟨rfl, hno⟩
    · show some ((takeNodes .whileAny group (textsOf inner ++ rest)).getD .nothing) = _
      rw [(hg _ _ _).mpr ⟨inner, rest, hp, rfl, rfl⟩]
      rfl
    · show some ((takeNodes .whileAny group rest).getD .nothing) = _
      rw [(hg.eq_none_iff _ _).mpr hno]
      rfl

/-! ## Nodes in a row -/

theorem followedBy_eq_some_iff {first taken : Taken} {texts : List String}
    {next : List String → Option Taken} :
    first.followedBy texts next = some taken ↔
      ∃ second, next (texts.drop first.count) = some second ∧ first ++ second = taken := by
  rw [Taken.followedBy, Option.map_eq_some_iff]

theorem settlesPath_nil : SettlesPath [] := by
  intro extent texts taken
  rw [takeNodes]
  constructor
  · intro h
    refine ⟨[], texts, ?_, rfl, Option.some.inj h⟩
    rw [PrefersPath]
  · rintro ⟨readings, rest, hp, -, rfl⟩
    rw [PrefersPath] at hp
    subst hp
    rfl

theorem textsOf_cons_append (reading : Reading) (readings : List Reading) (rest : List String) :
    textsOf (reading :: readings) ++ rest = reading.texts ++ (textsOf readings ++ rest) := by
  rw [textsOf, List.append_assoc]

section Cons

variable {extent : Extent} {node : PathNode} {nodes : List PathNode} (hw : node ≠ .wildcard)

include hw

theorem takeNodes_cons (texts : List String) :
    takeNodes extent (node :: nodes) texts =
      if texts = [] ∧ extent = .whileAny then some .nothing
      else (takeNode node texts).bind fun taken =>
        taken.followedBy texts (takeNodes extent nodes) := by
  rw [takeNodes]
  exact hw

theorem prefersPath_cons_cons (reading : Reading) (readings : List Reading) (rest : List String) :
    PrefersPath extent (node :: nodes) (reading :: readings) rest ↔
      (extent = .whileAny → reading.texts ++ (textsOf readings ++ rest) ≠ []) ∧
        node.Prefers reading (textsOf readings ++ rest) ∧
        PrefersPath extent nodes readings rest := by
  rw [PrefersPath]
  · exact fun h _ => hw h
  · exact fun _ _ h _ => hw h

theorem settlesPath_cons (hn : node.Settles) (hs : SettlesPath nodes) :
    SettlesPath (node :: nodes) := by
  intro extent texts taken
  rw [takeNodes_cons hw]
  by_cases hover : texts = [] ∧ extent = .whileAny
  · obtain ⟨rfl, rfl⟩ := hover
    rw [if_pos ⟨rfl, rfl⟩]
    constructor
    · intro h
      refine ⟨[], [], ?_, rfl, Option.some.inj h⟩
      rw [PrefersPath]
      exact ⟨rfl, rfl⟩
    · rintro ⟨readings, rest, hp, ht, rfl⟩
      cases readings with
      | nil => rfl
      | cons reading readings =>
        rw [prefersPath_cons_cons hw] at hp
        rw [textsOf_cons_append] at ht
        exact absurd ht (hp.1 rfl)
  · rw [if_neg hover, Option.bind_eq_some_iff]
    constructor
    · rintro ⟨first, hf, h⟩
      obtain ⟨second, hsec, rfl⟩ := followedBy_eq_some_iff.mp h
      obtain ⟨reading, others, hp, rfl, rfl⟩ := (hn _ _).mp hf
      rw [Reading.taken, List.drop_left] at hsec
      obtain ⟨readings, rest, hps, rfl, rfl⟩ := (hs _ _ _).mp hsec
      refine ⟨reading :: readings, rest, ?_, textsOf_cons_append _ _ _, takenOf_cons _ _⟩
      rw [prefersPath_cons_cons hw]
      exact ⟨fun hany hnil => hover ⟨hnil, hany⟩, hp, hps⟩
    · rintro ⟨readings, rest, hp, rfl, rfl⟩
      cases readings with
      | nil =>
        rw [PrefersPath] at hp
        exact absurd ⟨hp.2, hp.1⟩ hover
      | cons reading readings =>
        rw [prefersPath_cons_cons hw] at hp
        obtain ⟨-, hp, hps⟩ := hp
        rw [textsOf_cons_append]
        refine ⟨reading.taken, (hn _ _).mpr ⟨reading, _, hp, rfl, rfl⟩, ?_⟩
        rw [followedBy_eq_some_iff, Reading.taken, List.drop_left]
        exact ⟨takenOf readings, (hs _ _ _).mpr ⟨readings, rest, hps, rfl, rfl⟩,
          (takenOf_cons _ _).symm⟩

end Cons

/-! ## Wildcards -/

theorem settlesPath_wildcard : SettlesPath [.wildcard] := by
  intro extent texts taken
  rw [takeNodes]
  constructor
  · intro h
    split at h
    · next hover =>
      refine ⟨[], [], ?_, hover.1.symm, Option.some.inj h⟩
      rw [PrefersPath]
      exact ⟨hover.2, rfl⟩
    · split at h
      · cases h
      · next hne =>
        refine ⟨[.wildcard texts], [], ?_, by simp [textsOf, Reading.texts], ?_⟩
        · rw [PrefersPath]
          exact ⟨texts, rfl, hne, rfl, rfl⟩
        · rw [← Option.some.inj h]
          simp [takenOf, textsOf, bindingsOf, Reading.texts, Reading.bindings]
  · rintro ⟨readings, rest, hp, rfl, rfl⟩
    cases readings with
    | nil =>
      rw [PrefersPath] at hp
      obtain ⟨rfl, rfl⟩ := hp
      rfl
    | cons reading readings =>
      rw [PrefersPath] at hp
      obtain ⟨texts, rfl, hne, rfl, rfl⟩ := hp
      have ht : textsOf [.wildcard texts] ++ [] = texts := by simp [textsOf, Reading.texts]
      rw [ht, if_neg (fun h => hne h.1), if_neg hne]
      simp [takenOf, textsOf, bindingsOf, Reading.texts, Reading.bindings]

/-- The first number of a range for which there is a value gives it. -/
theorem findSome?_range'_eq_some_iff {β : Type} {f : Nat → Option β} {start count : Nat} {b : β} :
    (List.range' start count).findSome? f = some b ↔
      ∃ n, start ≤ n ∧ n < start + count ∧ f n = some b ∧ ∀ k, start ≤ k → k < n → f k = none := by
  induction count generalizing start with
  | zero =>
    refine ⟨fun h => ?_, fun ⟨n, hs, hc, _⟩ => absurd hc (by omega)⟩
    cases h
  | succ count ih =>
    rw [List.range'_succ, List.findSome?_cons]
    cases hf : f start with
    | none =>
      simp only
      rw [ih]
      constructor
      · rintro ⟨n, hs, hc, hn, hk⟩
        refine ⟨n, by omega, by omega, hn, fun k hsk hkn => ?_⟩
        by_cases he : k = start
        · rw [he, hf]
        · exact hk k (by omega) hkn
      · rintro ⟨n, hs, hc, hn, hk⟩
        have hne : n ≠ start := by
          rintro rfl
          rw [hf] at hn
          cases hn
        exact ⟨n, by omega, by omega, hn, fun k hsk hkn => hk k (by omega) hkn⟩
    | some a =>
      constructor
      · intro h
        refine ⟨start, Nat.le_refl _, by omega, by rw [hf]; exact h, fun k hsk hkn => ?_⟩
        omega
      · rintro ⟨n, hs, hc, hn, hk⟩
        by_cases he : n = start
        · rw [← hn, he, hf]
        · have hnone := hk start (Nat.le_refl _) (by omega)
          rw [hf] at hnone
          cases hnone

/-- What the node after a wildcard takes, with the texts that the wildcard covers before it. -/
def firstMatch (next : PathNode) (texts : List String) : Option Taken :=
  (List.range' 1 (texts.length - 1)).findSome? fun n =>
    (takeNode next (texts.drop n)).map (Taken.skip n)

theorem firstMatch_eq_some_iff {next : PathNode} (hn : next.Settles) {texts : List String}
    {taken : Taken} :
    firstMatch next texts = some taken ↔
      ∃ covered reading rest, covered ≠ [] ∧ reading.texts ++ rest ≠ [] ∧
        covered ++ (reading.texts ++ rest) = texts ∧ next.Prefers reading rest ∧
        (∀ n, 0 < n → n < covered.length →
          Refuses Reading.texts next.Prefers (covered.drop n ++ (reading.texts ++ rest))) ∧
        reading.taken.skip covered.length = taken := by
  rw [firstMatch, findSome?_range'_eq_some_iff]
  constructor
  · rintro ⟨n, hpos, hlt, hsome, hnone⟩
    obtain ⟨found, hfound, rfl⟩ := Option.map_eq_some_iff.mp hsome
    obtain ⟨reading, rest, hp, ht, rfl⟩ := (hn _ _).mp hfound
    have hlen : (texts.take n).length = n := by
      rw [List.length_take]
      omega
    refine ⟨texts.take n, reading, rest, ?_, ?_, ?_, hp, fun k hk hkn => ?_, by rw [hlen]⟩
    · rw [← List.length_pos_iff, hlen]
      exact hpos
    · rw [ht, ← List.length_pos_iff, List.length_drop]
      omega
    · rw [ht, List.take_append_drop]
    · rw [hlen] at hkn
      have hdrop : (texts.take n).drop k ++ texts.drop n = texts.drop k := by
        rw [← List.drop_append_of_le_length (by omega), List.take_append_drop]
      rw [ht, hdrop, ← hn.eq_none_iff]
      exact Option.map_eq_none_iff.mp (hnone k hk hkn)
  · rintro ⟨covered, reading, rest, hc, hne, rfl, hp, hno, rfl⟩
    rw [← List.length_pos_iff] at hc hne
    refine ⟨covered.length, hc, ?_, ?_, fun k hk hkn => ?_⟩
    · rw [List.length_append]
      omega
    · rw [List.drop_left, (hn _ _).mpr ⟨reading, rest, hp, rfl, rfl⟩]
      rfl
    · rw [List.drop_append_of_le_length (by omega), Option.map_eq_none_iff, hn.eq_none_iff]
      exact hno k hk hkn

section Lookahead

variable {extent : Extent} {next : PathNode} {more : List PathNode}

theorem takeNodes_wildcard (texts : List String) :
    takeNodes extent (.wildcard :: next :: more) texts =
      if texts = [] ∧ extent = .whileAny then some .nothing
      else if texts.length < more.length + 2 then none
      else (firstMatch next texts).bind fun taken =>
        taken.followedBy texts (takeNodes extent more) := by
  rw [takeNodes]
  rfl

theorem drop_skip (covered : List String) (reading : Reading) (rest : List String) :
    (covered ++ (reading.texts ++ rest)).drop (reading.taken.skip covered.length).count = rest := by
  rw [Taken.skip, Reading.taken, ← List.length_append, ← List.append_assoc, List.drop_left]

theorem skip_append (covered : List String) (reading : Reading) (readings : List Reading) :
    reading.taken.skip covered.length ++ takenOf readings =
      takenOf (.wildcard covered :: reading :: readings) := by
  rw [takenOf_cons, takenOf_cons]
  show Taken.mk _ _ = Taken.mk _ _
  congr 1
  exact Nat.add_assoc _ _ _

theorem settlesPath_wildcard_cons (hn : next.Settles) (hs : SettlesPath more) :
    SettlesPath (.wildcard :: next :: more) := by
  intro extent texts taken
  rw [takeNodes_wildcard]
  constructor
  · intro h
    split at h
    · next hover =>
      refine ⟨[], [], ?_, hover.1.symm, Option.some.inj h⟩
      rw [PrefersPath]
      exact ⟨hover.2, rfl⟩
    · split at h
      · cases h
      · next hlen =>
        obtain ⟨first, hf, hfol⟩ := Option.bind_eq_some_iff.mp h
        obtain ⟨second, hsec, rfl⟩ := followedBy_eq_some_iff.mp hfol
        obtain ⟨covered, reading, others, hc, hne, rfl, hp, hno, rfl⟩ :=
          (firstMatch_eq_some_iff hn).mp hf
        rw [drop_skip] at hsec
        obtain ⟨readings, rest, hps, rfl, rfl⟩ := (hs _ _ _).mp hsec
        have hw : next ≠ .wildcard := by
          rintro rfl
          rw [PathNode.Prefers] at hp
          exact hp
        refine ⟨.wildcard covered :: reading :: readings, rest, ?_, ?_, (skip_append _ _ _).symm⟩
        · rw [PrefersPath, textsOf_cons_append]
          refine ⟨covered, rfl, hc, hw, hne, Nat.not_lt.mp hlen, hno, ?_⟩
          exact (prefersPath_cons_cons hw _ _ _).mpr ⟨fun _ => hne, hp, hps⟩
        · rw [textsOf_cons_append, textsOf_cons_append]
          rfl
  · rintro ⟨readings, rest, hp, rfl, rfl⟩
    cases readings with
    | nil =>
      rw [PrefersPath] at hp
      obtain ⟨rfl, rfl⟩ := hp
      rfl
    | cons reading readings =>
      rw [PrefersPath] at hp
      obtain ⟨covered, rfl, hc, hw, hne, hlen, hno, hps⟩ := hp
      cases readings with
      | nil =>
        rw [PrefersPath] at hps
        exact absurd hps.2 hne
      | cons reading readings =>
        obtain ⟨-, hp, hps⟩ := (prefersPath_cons_cons hw _ _ _).mp hps
        rw [textsOf_cons_append] at hne hlen hno
        rw [textsOf_cons_append, textsOf_cons_append, Reading.texts,
          if_neg (fun h => hc (List.append_eq_nil_iff.mp h.1).1), if_neg (Nat.not_lt.mpr hlen),
          Option.bind_eq_some_iff]
        refine ⟨reading.taken.skip covered.length, ?_, followedBy_eq_some_iff.mpr ?_⟩
        · exact (firstMatch_eq_some_iff hn).mpr ⟨covered, reading, _, hc, hne, rfl, hp, hno, rfl⟩
        · rw [drop_skip]
          exact ⟨takenOf readings, (hs _ _ _).mpr ⟨readings, rest, hps, rfl, rfl⟩,
            skip_append _ _ _⟩

end Lookahead

/-! ## All nodes -/

mutual

theorem PathNode.settles : (node : PathNode) → node.Settles
  | .literal text => settles_literal text
  | .parameter p => settles_parameter p
  | .alternation left right => settles_alternation (settlesPath left) (settlesPath right)
  | .optional group => settles_optional (settlesPath group)
  | .wildcard => settles_wildcard

theorem settlesPath : (nodes : List PathNode) → SettlesPath nodes
  | [] => settlesPath_nil
  | [.wildcard] => settlesPath_wildcard
  | .wildcard :: next :: more => settlesPath_wildcard_cons next.settles (settlesPath more)
  | .literal text :: nodes =>
    settlesPath_cons (by simp) (settles_literal text) (settlesPath nodes)
  | .parameter p :: nodes => settlesPath_cons (by simp) (settles_parameter p) (settlesPath nodes)
  | .alternation left right :: nodes =>
    settlesPath_cons (by simp) (PathNode.settles (.alternation left right)) (settlesPath nodes)
  | .optional group :: nodes =>
    settlesPath_cons (by simp) (PathNode.settles (.optional group)) (settlesPath nodes)

end

end DeepLink
