import DeepLink.Payload
import DeepLink.Proofs.Outcome

/-!
# Payloads in JSON

Every payload has a JSON value that is read as this payload: groups and branches become lists, one
for each level, and reading takes off the same levels again (`Value.ofJson?_toJson`). JSON itself
has this value if no double in the payload is infinite or undefined.

Of a JSON value that is a list only records can be wrong, and one anywhere in it is found
(`Json.Reaches.exists_error`): a record is looked at as a value of its own or inside of lists and
branches, and has to choose a side with its only key.
-/

namespace DeepLink

open Decimal

/-! ## From payloads to JSON -/

def Scalar.toJson : Scalar → Json
  | .int i => .integer i.toInt
  | .double d => .double d
  | .bool b => .bool b
  | .text s => .text s

def Side.key : Side → String
  | .left => "left"
  | .right => "right"

mutual

/-- A present group is a list, and a branch a record with its side as the only key. -/
def Value.toJson : Value → Json
  | .scalar s => s.toJson
  | .branch side values => .record [(side.key, .list (valuesToJson values))]
  | .absent => .null
  | .present values => .list (valuesToJson values)

def valuesToJson : List Value → List Json
  | [] => []
  | value :: values => value.toJson :: valuesToJson values

end

/-- The JSON array of a payload. -/
def payloadToJson (values : List Value) : Json := .list (valuesToJson values)

/-! ## Reading it back -/

theorem Side.ofKey?_key (side : Side) : ofKey? side.key = some side := by
  cases side with
  | left => rfl
  | right => rfl

theorem Side.ofKey?_eq_none_iff {key : String} :
    ofKey? key = none ↔ key ≠ "left" ∧ key ≠ "right" := by
  unfold ofKey?
  split
  · simp
  · simp
  · next hl hr => exact ⟨fun _ => ⟨hl, hr⟩, fun _ => rfl⟩

/-- Whole numbers of 64 bits stay whole. -/
theorem Scalar.ofInteger_toInt (i : Int64) : ofInteger i.toInt = .int i := by
  have hi : InInt64 i.toInt := ⟨i.minValue_le_toInt, i.toInt_le⟩
  rw [ofInteger, if_pos hi, Int64.ofInt_toInt]

mutual

theorem Value.ofJson?_toJson : (value : Value) → Value.ofJson? value.toJson = .ok value
  | .scalar (.int i) => by
    show Except.ok (Value.scalar (Scalar.ofInteger i.toInt)) = _
    rw [Scalar.ofInteger_toInt]
  | .scalar (.double d) => rfl
  | .scalar (.bool b) => rfl
  | .scalar (.text s) => rfl
  | .branch side values => by
    rw [Value.toJson, Value.ofJson?, Side.ofKey?_key]
    show (valuesOfItems? (valuesToJson values)).map _ = _
    rw [valuesOfItems?_toJson values]
    rfl
  | .absent => rfl
  | .present values => by
    rw [Value.toJson, Value.ofJson?, valuesOfItems?_toJson values]
    rfl

theorem valuesOfItems?_toJson : (values : List Value) →
    valuesOfItems? (valuesToJson values) = .ok values
  | [] => rfl
  | value :: values => by
    rw [valuesToJson, valuesOfItems?, Value.ofJson?_toJson value, valuesOfItems?_toJson values]
    rfl

end

/-! ## What JSON can write -/

mutual

/-- JSON can write the value: whole numbers have 64 bits, with a sign or without, doubles are
finite, and the keys of a record are all different. -/
def Json.Writable : Json → Prop
  | .null => True
  | .bool _ => True
  | .integer i => (∃ n : Int64, n.toInt = i) ∨ ∃ n : UInt64, Int.ofNat n.toNat = i
  | .double d => d.isFinite = true
  | .text _ => True
  | .list items => WritableItems items
  | .record members => (members.map (·.1)).Nodup ∧ WritableMembers members

def WritableItems : List Json → Prop
  | [] => True
  | item :: rest => item.Writable ∧ WritableItems rest

def WritableMembers : List (String × Json) → Prop
  | [] => True
  | (_, value) :: rest => value.Writable ∧ WritableMembers rest

end

def Scalar.HasFinite : Scalar → Prop
  | .double d => d.isFinite = true
  | _ => True

mutual

/-- Every double in the value is finite. -/
def Value.HasFinite : Value → Prop
  | .scalar s => s.HasFinite
  | .branch _ values => HaveFinite values
  | .absent => True
  | .present values => HaveFinite values

def HaveFinite : List Value → Prop
  | [] => True
  | value :: values => value.HasFinite ∧ HaveFinite values

end

theorem Scalar.writable_toJson_iff (s : Scalar) : s.toJson.Writable ↔ s.HasFinite := by
  cases s with
  | int i => exact ⟨fun _ => trivial, fun _ => .inl ⟨i, rfl⟩⟩
  | double d => exact Iff.rfl
  | bool b => exact Iff.rfl
  | text s => exact Iff.rfl

mutual

theorem Value.writable_toJson_iff : (value : Value) → (value.toJson.Writable ↔ value.HasFinite)
  | .scalar s => s.writable_toJson_iff
  | .branch side values => by
    have hvalues := writableItems_valuesToJson_iff values
    simpa [Value.toJson, Json.Writable, WritableMembers, Value.HasFinite] using hvalues
  | .absent => Iff.rfl
  | .present values => writableItems_valuesToJson_iff values

theorem writableItems_valuesToJson_iff : (values : List Value) →
    (WritableItems (valuesToJson values) ↔ HaveFinite values)
  | [] => Iff.rfl
  | value :: values =>
    and_congr value.writable_toJson_iff (writableItems_valuesToJson_iff values)

end

/-! ## Values that are no payload -/

/-- Where reading looks for records: at the value itself, in the items of lists, and behind the key
of branches. -/
inductive Json.Reaches : Json → Json → Prop
  | refl (j : Json) : Json.Reaches j j
  | item {items : List Json} {item part : Json} (hm : item ∈ items) (h : Json.Reaches item part) :
    Json.Reaches (.list items) part
  | branch {key : String} {inner part : Json} (hk : key = "left" ∨ key = "right")
    (h : Json.Reaches inner part) : Json.Reaches (.record [(key, inner)]) part

/-- A record that chooses no side: it has not one key, or a key that is no side. -/
inductive Json.ChoosesNone : Json → Prop
  | keys {members : List (String × Json)} (h : members.length ≠ 1) :
    Json.ChoosesNone (.record members)
  | key {key : String} {inner : Json} (hl : key ≠ "left") (hr : key ≠ "right") :
    Json.ChoosesNone (.record [(key, inner)])

/-- A branch is refused for what it holds. -/
theorem Value.ofJson?_branch_eq_error {key : String} (hk : key = "left" ∨ key = "right")
    {inner : Json} {e : PayloadFault} :
    Value.ofJson? (.record [(key, inner)]) = .error e ↔ Value.ofJson? inner = .error e := by
  obtain ⟨side, hside⟩ : ∃ side, Side.ofKey? key = some side := by
    rcases hk with rfl | rfl
    · exact ⟨.left, rfl⟩
    · exact ⟨.right, rfl⟩
  rw [Value.ofJson?, hside]
  cases inner with
  | list items => rw [Value.ofJson?, map_eq_error, map_eq_error]
  | null => exact map_eq_error
  | bool b => exact map_eq_error
  | integer i => exact map_eq_error
  | double d => exact map_eq_error
  | text s => exact map_eq_error
  | record members => exact map_eq_error

theorem exists_error_of_mem {items : List Json} {item : Json} (hm : item ∈ items)
    (h : ∃ e, Value.ofJson? item = .error e) : ∃ e, valuesOfItems? items = .error e := by
  induction items with
  | nil => cases hm
  | cons first rest ih =>
    cases hf : Value.ofJson? first with
    | error e => exact ⟨e, bind_eq_error.mpr (.inl hf)⟩
    | ok value =>
      rcases List.mem_cons.mp hm with rfl | hm
      · obtain ⟨e, he⟩ := h
        cases hf.symm.trans he
      · obtain ⟨e, he⟩ := ih hm
        exact ⟨e, bind_eq_error.mpr (.inr ⟨value, hf, bind_eq_error.mpr (.inl he)⟩)⟩

theorem Json.ChoosesNone.exists_error {j : Json} (h : j.ChoosesNone) :
    ∃ e, Value.ofJson? j = .error e := by
  cases h with
  | keys hk =>
    refine ⟨.notOneKey, ?_⟩
    rw [Value.ofJson?]
    rintro key inner rfl
    exact hk rfl
  | @key key inner hl hr =>
    refine ⟨.unknownSide key, ?_⟩
    rw [Value.ofJson?, Side.ofKey?_eq_none_iff.mpr ⟨hl, hr⟩]

/-- A record that chooses no side is found wherever reading looks. -/
theorem Json.Reaches.exists_error {j part : Json} (h : j.Reaches part) (hp : part.ChoosesNone) :
    ∃ e, Value.ofJson? j = .error e := by
  induction h with
  | refl j => exact hp.exists_error
  | item hm _ ih =>
    obtain ⟨e, he⟩ := exists_error_of_mem hm (ih hp)
    exact ⟨e, map_eq_error.mpr he⟩
  | branch hk _ ih =>
    obtain ⟨e, he⟩ := ih hp
    exact ⟨e, (Value.ofJson?_branch_eq_error hk).mpr he⟩

mutual

/-- What is refused has a record somewhere that chooses no side. -/
theorem Value.exists_reaches_of_error : (j : Json) → {e : PayloadFault} →
    Value.ofJson? j = .error e → ∃ part, j.Reaches part ∧ part.ChoosesNone
  | .null, _, h => by cases h
  | .bool b, _, h => by cases h
  | .integer i, _, h => by cases h
  | .double d, _, h => by cases h
  | .text s, _, h => by cases h
  | .list items, _, h => by
    obtain ⟨item, hm, part, hr, hp⟩ := exists_reaches_of_items_error items (map_eq_error.mp h)
    exact ⟨part, .item hm hr, hp⟩
  | .record [], _, _ => ⟨_, .refl _, .keys Nat.zero_ne_one⟩
  | .record (_ :: _ :: _), _, _ => ⟨_, .refl _, .keys (by simp)⟩
  | .record [(key, inner)], _, h => by
    by_cases hk : key = "left" ∨ key = "right"
    · obtain ⟨part, hr, hp⟩ :=
        Value.exists_reaches_of_error inner ((Value.ofJson?_branch_eq_error hk).mp h)
      exact ⟨part, .branch hk hr, hp⟩
    · exact ⟨_, .refl _, .key (fun hl => hk (.inl hl)) fun hr => hk (.inr hr)⟩

theorem exists_reaches_of_items_error : (items : List Json) → {e : PayloadFault} →
    valuesOfItems? items = .error e → ∃ item ∈ items, ∃ part, item.Reaches part ∧ part.ChoosesNone
  | [], _, h => by cases h
  | first :: rest, _, h => by
    rcases bind_eq_error.mp h with hf | ⟨_, _, hrest⟩
    · exact ⟨first, List.mem_cons_self, Value.exists_reaches_of_error first hf⟩
    · obtain hr | ⟨_, _, hr⟩ := bind_eq_error.mp hrest
      · obtain ⟨item, hm, hpart⟩ := exists_reaches_of_items_error rest hr
        exact ⟨item, List.mem_cons_of_mem _ hm, hpart⟩
      · cases hr

end

/-- **Payloads and JSON.** The JSON array of a payload is read as this payload, and JSON can write
it exactly if all doubles in the payload are finite. A JSON value is no payload exactly if it is not
an array, or if reading comes to a record in it that has not one key or a key that is no side. -/
theorem payloadOfJson?_payloadToJson :
    (∀ values, payloadOfJson? (payloadToJson values) = .ok values ∧
      ((payloadToJson values).Writable ↔ HaveFinite values)) ∧
    ∀ j, (∃ e, payloadOfJson? j = .error e) ↔
      (∀ items, j ≠ .list items) ∨ ∃ part, j.Reaches part ∧ part.ChoosesNone := by
  refine ⟨fun values => ⟨valuesOfItems?_toJson values, writableItems_valuesToJson_iff values⟩,
    fun j => ?_⟩
  by_cases hlist : ∀ items, j ≠ .list items
  · have hrefused : payloadOfJson? j = .error (.notList j) := by
      rw [payloadOfJson?]
      exact hlist
    exact ⟨fun _ => .inl hlist, fun _ => ⟨_, hrefused⟩⟩
  · obtain ⟨items, rfl⟩ : ∃ items, j = .list items := by simpa using hlist
    constructor
    · rintro ⟨e, he⟩
      obtain ⟨item, hm, part, hr, hp⟩ := exists_reaches_of_items_error items he
      exact .inr ⟨part, .item hm hr, hp⟩
    · rintro (hl | ⟨part, hr, hp⟩)
      · exact absurd hl hlist
      · obtain ⟨e, he⟩ := hr.exists_error hp
        exact ⟨e, map_eq_error.mp he⟩

/-- A group in a branch keeps its own list, though a branch with one value needs none. -/
example : payloadToJson [.branch .left [.present []]] =
      .list [.record [("left", .list [.list []])]] ∧
    payloadOfJson? (.list [.record [("left", .list [.list []])], .record [("left", .text "x")]]) =
      .ok [.branch .left [.present []], .branch .left [.scalar (.text "x")]] := ⟨rfl, rfl⟩

end DeepLink
