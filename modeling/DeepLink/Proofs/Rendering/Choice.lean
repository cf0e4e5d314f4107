import DeepLink.Proofs.Matching.Query
import DeepLink.Proofs.Matching.Reading
import DeepLink.Proofs.Rendering.Fitting

/-!
# The reading that a payload chooses

A payload chooses a reading of a path, branch by branch and group by group, and gives values to the
items of a query. Rendering writes the texts of this reading and the pairs of these values
(`render_eq`), and the nodes allow the reading (`readsPath_chosen`).
-/

namespace DeepLink

mutual

/-- The reading of a node that a payload chooses, and the values it leaves. A value that does not
fit the node chooses nothing. -/
def PathNode.chosen : PathNode → List Value → Reading × List Value
  | .literal text, values => (.literal text, values)
  | .wildcard, values => (.wildcard ["*"], values)
  | .parameter p, .scalar s :: rest => (.value p s.render, rest)
  | .alternation left _, .branch .left inner :: rest =>
    (.branch .left (chosenPath left inner).1, rest)
  | .alternation _ right, .branch .right inner :: rest =>
    (.branch .right (chosenPath right inner).1, rest)
  | .optional group, .present inner :: rest => (.group (chosenPath group inner).1, rest)
  | _, values => (.absent, values.tail)

def chosenPath : List PathNode → List Value → List Reading × List Value
  | [], values => ([], values)
  | node :: nodes, values =>
    ((node.chosen values).1 :: (chosenPath nodes (node.chosen values).2).1,
      (chosenPath nodes (node.chosen values).2).2)

end

/-- The parameter of an item to which a value gives a text. -/
def QueryItem.chosen : QueryItem → Value → List (Parameter × String)
  | .required p, .scalar s => [(p, s.render)]
  | .optional p, .present [.scalar s] => [(p, s.render)]
  | .alternation first _, .branch .left [.scalar s] => [(first, s.render)]
  | .alternation _ second, .branch .right [.scalar s] => [(second, s.render)]
  | _, _ => []

def chosenQuery (items : List QueryItem) (values : List Value) : List (Parameter × String) :=
  (List.zipWith QueryItem.chosen items values).flatten

/-- The pair that a query has for a parameter with its text. -/
def pairOf (entry : Parameter × String) : String × String := (entry.1.name, entry.2)

/-! ## Texts of a path -/

/-- The payload chooses a reading that the node allows in front of any texts. The reading takes the
texts and leaves the values; no text is empty if nothing in the node is. -/
def PathNode.Writes (node : PathNode) (values : List Value) (texts : List String)
    (rest : List Value) : Prop :=
  ∃ reading, node.chosen values = (reading, rest) ∧ reading.texts = texts ∧
    (∀ after, node.Reads reading after) ∧ (node.Normal → "" ∉ texts)

def WritesPath (nodes : List PathNode) (values : List Value) (texts : List String)
    (rest : List Value) : Prop :=
  ∃ readings, chosenPath nodes values = (readings, rest) ∧ textsOf readings = texts ∧
    (∀ after, ReadsPath nodes readings after) ∧ (NormalPath nodes → "" ∉ texts)

mutual

theorem PathNode.Fits.writes : {node : PathNode} → {own : List Value} → {texts : List String} →
    node.Fits own texts → (rest : List Value) → node.Writes (own ++ rest) texts rest
  | _, _, _, .literal text, rest =>
    ⟨.literal text, rfl, rfl, fun after => .literal text after,
      (PathNode.Fits.literal text).not_mem⟩
  | _, _, _, .wildcard, rest =>
    ⟨.wildcard ["*"], rfl, rfl, fun after => .wildcard (by simp) after,
      PathNode.Fits.wildcard.not_mem⟩
  | _, _, _, @PathNode.Fits.parameter p s ha hne, rest =>
    ⟨.value p s.render, rfl, rfl, fun after => .parameter ha after,
      (PathNode.Fits.parameter ha hne).not_mem⟩
  | _, _, _, @PathNode.Fits.left left right inner texts h, rest => by
    obtain ⟨readings, hc, ht, hr, hne⟩ := FitsPath.writes h []
    rw [List.append_nil] at hc
    refine ⟨.branch .left readings, ?_, ht, fun after => .left (hr after), fun hn => hne hn.2.2.1⟩
    show (Reading.branch .left (chosenPath left inner).1, rest) = _
    rw [hc]
  | _, _, _, @PathNode.Fits.right left right inner texts h, rest => by
    obtain ⟨readings, hc, ht, hr, hne⟩ := FitsPath.writes h []
    rw [List.append_nil] at hc
    refine ⟨.branch .right readings, ?_, ht, fun after => .right (hr after),
      fun hn => hne hn.2.2.2⟩
    show (Reading.branch .right (chosenPath right inner).1, rest) = _
    rw [hc]
  | _, _, _, .absent group, rest =>
    ⟨.absent, rfl, rfl, fun after => .absent group after, (PathNode.Fits.absent group).not_mem⟩
  | _, _, _, @PathNode.Fits.present group inner texts h, rest => by
    obtain ⟨readings, hc, ht, hr, hne⟩ := FitsPath.writes h []
    rw [List.append_nil] at hc
    refine ⟨.group readings, ?_, ht, fun after => .whole (hr after), fun hn => hne hn.2⟩
    show (Reading.group (chosenPath group inner).1, rest) = _
    rw [hc]

/-- Values that fit choose a reading with the texts that are written for them. -/
theorem FitsPath.writes : {nodes : List PathNode} → {own : List Value} → {texts : List String} →
    FitsPath nodes own texts → (rest : List Value) → WritesPath nodes (own ++ rest) texts rest
  | _, _, _, .nil, rest => ⟨[], rfl, rfl, fun after => .nil after, by simp⟩
  | _, _, _, @FitsPath.cons node nodes own values texts more hn hs, rest => by
    obtain ⟨reading, hc, rfl, hr, -⟩ := PathNode.Fits.writes hn (values ++ rest)
    obtain ⟨readings, hcs, rfl, hrs, -⟩ := FitsPath.writes hs rest
    refine ⟨reading :: readings, ?_, rfl, fun after => .cons (hr _) (hrs after),
      (FitsPath.cons hn hs).not_mem⟩
    rw [List.append_assoc, chosenPath, hc]
    show (reading :: (chosenPath nodes (values ++ rest)).1, _) = _
    rw [hcs]

end

/-! ## Pairs of a query -/

theorem QueryItem.Fits.pairs_eq {item : QueryItem} {value : Value}
    {pairs : List (String × String)} (h : item.Fits value pairs) :
    pairs = (item.chosen value).map pairOf := by
  cases h <;> rfl

theorem FitsQuery.pairs_eq {items : List QueryItem} {values : List Value}
    {pairs : List (String × String)} (h : FitsQuery items values pairs) :
    pairs = (chosenQuery items values).map pairOf := by
  induction h with
  | nil => rfl
  | cons hi _ ih =>
    rw [hi.pairs_eq, ih, ← List.map_append]
    rfl

/-! ## Routes -/

namespace Route

variable (r : Route) (values : List Value)

/-- The reading of the path that a payload chooses. -/
def chosenReadings : List Reading := (chosenPath r.path values).1

/-- The parameters of the query to which a payload gives texts. -/
def chosenValues : List (Parameter × String) := chosenQuery r.query (chosenPath r.path values).2

/-- The texts that a payload gives to named parameters, those of the query last. -/
def rendered : Bindings := bindingsOf (r.chosenReadings values) ++ bindAll (r.chosenValues values)

variable {r values} {c : Components} (h : r.render values = .ok c)

include h

/-- Rendering writes the path first, and the query of the values that are left. -/
theorem exists_of_render : ∃ readings rest, chosenPath r.path values = (readings, rest) ∧
    c.path = textsOf readings ∧ "" ∉ c.path ∧ (∀ after, ReadsPath r.path readings after) ∧
    FitsQuery r.query rest c.query := by
  obtain ⟨first, rest, rfl, hf, hq⟩ := Route.fits_of_render h
  obtain ⟨readings, hc, ht, hr, hne⟩ := hf.writes rest
  exact ⟨readings, rest, hc, ht.symm, hne r.normal, hr, hq⟩

/-- A path is written as the nodes allow it to be read. -/
theorem readsPath_chosen (after : List String) :
    ReadsPath r.path (r.chosenReadings values) after := by
  obtain ⟨readings, rest, hc, -, -, hr, -⟩ := exists_of_render h
  rw [chosenReadings, hc]
  exact hr after

theorem fitsQuery_of_render : FitsQuery r.query (chosenPath r.path values).2 c.query := by
  obtain ⟨readings, rest, hc, -, -, -, hq⟩ := exists_of_render h
  rw [hc]
  exact hq

/-- Rendering writes the texts of the chosen reading and the pairs of the chosen values. -/
theorem render_eq : c.path = textsOf (r.chosenReadings values) ∧ "" ∉ c.path ∧
    c.query = (r.chosenValues values).map pairOf := by
  obtain ⟨readings, rest, hc, hp, hne, -, -⟩ := exists_of_render h
  refine ⟨?_, hne, (fitsQuery_of_render h).pairs_eq⟩
  rw [chosenReadings, hc]
  exact hp

end Route

end DeepLink
