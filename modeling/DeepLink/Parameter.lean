import DeepLink.Decimal.Numeral

/-!
# Parameters

A parameter is a named place in a route, which may ask for a kind of value. Two parameters are the
same only if name and kind agree; one without a name takes a value but keeps none.
-/

namespace DeepLink

/-- The kinds of values that a parameter can ask for. -/
inductive Kind
  | int | double | bool | string
  deriving DecidableEq

namespace Kind

def keyword : Kind → String
  | int => "int"
  | double => "double"
  | bool => "bool"
  | string => "string"

def ofKeyword? : String → Option Kind
  | "int" => some int
  | "double" => some double
  | "bool" => some bool
  | "string" => some string
  | _ => none

@[simp] theorem ofKeyword?_keyword (k : Kind) : ofKeyword? k.keyword = some k := by
  cases k <;> rfl

theorem keyword_of_ofKeyword? {s : String} {k : Kind} (h : ofKeyword? s = some k) :
    k.keyword = s := by
  unfold ofKeyword? at h
  split at h
  case h_1 | h_2 | h_3 | h_4 =>
    obtain rfl := Option.some.inj h
    rfl
  case h_5 => cases h

/-- The spellings of truth values, in lower case. -/
def isTruthValue (text : String) : Bool :=
  text == "true" || text == "false" || text == "0" || text == "1"

/-- Whether a text is a value of the kind. -/
def accepts : Kind → String → Bool
  | int, text => (Decimal.int64? text).isSome
  | double, text => (Decimal.Real.ofText? text).isSome
  | bool, text => isTruthValue (String.ofList (text.toList.map Char.toLower))
  | string, _ => true

/-- Kinds in their order; no kind at all comes first. -/
def rank : Option Kind → Nat
  | none => 0
  | some int => 1
  | some double => 2
  | some bool => 3
  | some string => 4

end Kind

structure Parameter where
  name : String
  kind? : Option Kind
  deriving DecidableEq

namespace Parameter

def untyped (name : String) : Parameter := ⟨name, none⟩
def typed (kind : Kind) (name : String) : Parameter := ⟨name, some kind⟩

def isNameless (p : Parameter) : Bool := p.name.isEmpty

/-- Whether the parameter takes a text as its value. -/
def accepts (p : Parameter) (text : String) : Bool :=
  match p.kind? with
  | some kind => kind.accepts text
  | none => true

/-- The parameter as messages show it. -/
def text (p : Parameter) : String :=
  match p.kind? with
  | some kind => kind.keyword ++ "(" ++ p.name ++ ")"
  | none => p.name

/-- Parameters are ordered by name, then by kind. -/
def lt (p q : Parameter) : Prop :=
  p.name < q.name ∨ p.name = q.name ∧ Kind.rank p.kind? < Kind.rank q.kind?

instance : LT Parameter := ⟨lt⟩

instance (p q : Parameter) : Decidable (p < q) := by
  show Decidable (lt p q)
  unfold lt
  infer_instance

end Parameter

end DeepLink
