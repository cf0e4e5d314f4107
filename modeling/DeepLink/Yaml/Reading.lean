import DeepLink.Yaml.Piece

/-!
# The value of a YAML text

Pieces are put together one after the other; the lists and records that are still open stand on a
stack. A value that is left out is an empty plain scalar.

A text holds one document. A reference keeps the number of the anchored value that it stands for,
so that a value may hold a reference to itself; the document knows the anchored values by their
numbers.
-/

namespace DeepLink

inductive Yaml
  | scalar (plain : Bool) (tag? : Option String) (text : String)
  | list (items : List Yaml)
  | record (members : List (Yaml × Yaml))
  | reference (number : Nat)

namespace Yaml

/-- What stands where a value is left out. -/
def missing : Yaml := scalar true none ""

/-- A value with its anchored values. -/
structure Document where
  value : Yaml
  anchored : List (Nat × Yaml)

/-- The value that a reference stands for; any other value stands for itself. -/
def Document.resolve (d : Document) : Yaml → Yaml
  | reference number => (d.anchored.lookup number).getD missing
  | value => value

/-! ## Open lists and records -/

/-- How a list is written: as a block, as a block without indentation inside a record, or between
brackets. -/
inductive ListStyle
  | block | loose | flow
  deriving DecidableEq

/-- What may come next in a list: an item that has been announced; between brackets, an item or the
end; or what announces the next item. -/
inductive ListSlot
  | item | itemOrEnd | more
  deriving DecidableEq

/-- How a record is written: as a block, between brackets, or as a single member of a list between
brackets. -/
inductive RecordStyle
  | block | flow | pair
  deriving DecidableEq

/-- What may come next in a record: what announces a key; the key; a colon; a value; a comma. -/
inductive RecordSlot
  | key
  | keyText
  | colon (key : Yaml)
  | value (key : Yaml)
  | comma

/-- A list or a record that is still open, with the number of its anchor and what it holds so far,
the last first. -/
inductive Frame
  | list (anchor? : Option Nat) (style : ListStyle) (items : List Yaml) (slot : ListSlot)
  | record (anchor? : Option Nat) (style : RecordStyle) (members : List (Yaml × Yaml))
    (slot : RecordSlot)

namespace Frame

/-- What comes after a complete member. -/
def afterMember : RecordStyle → RecordSlot
  | .block => .key
  | .flow => .comma
  | .pair => .comma

/-- The frame with a value where one is expected. -/
def take? (v : Yaml) : Frame → Option Frame
  | list _ _ _ .more => none
  | list anchor? style items _ => some (list anchor? style (v :: items) .more)
  | record anchor? .flow members .key =>
    some (record anchor? .flow ((v, missing) :: members) .comma)
  | record anchor? style members .keyText => some (record anchor? style members (.colon v))
  | record anchor? style members (.value key) =>
    some (record anchor? style ((key, v) :: members) (afterMember style))
  | record _ _ _ _ => none

/-- Whether a value may stand here. -/
def wants : Frame → Bool
  | list _ _ _ slot => slot ≠ .more
  | record _ _ _ .keyText => true
  | record _ _ _ (.value _) => true
  | record _ style _ .key => style = .flow
  | record _ _ _ _ => false

/-- The frame with empty values where they are left out. -/
def settle : Frame → Frame
  | list anchor? style items .item => list anchor? style (missing :: items) .more
  | record anchor? style members .keyText =>
    record anchor? style ((missing, missing) :: members) (afterMember style)
  | record anchor? style members (.colon key) =>
    record anchor? style ((key, missing) :: members) (afterMember style)
  | record anchor? style members (.value key) =>
    record anchor? style ((key, missing) :: members) (afterMember style)
  | frame => frame

end Frame

/-! ## A text read in part -/

/-- How far the document has come: it may start, there have been directives, its value is expected,
or its value is complete. -/
inductive Stage
  | before | prologue | inside | done
  deriving DecidableEq

/-- Properties of the value that comes next: the number of its anchor, and its tag. -/
structure Properties where
  anchor? : Option Nat
  tag? : Option String

/-- A YAML text read in part: the open frames from the innermost to the outermost, the stage of the
document, its value, the properties of the next value, the numbers of the anchors by their names,
the anchored values, whether the version has been told, and the handles of tags with what they stand
for. -/
structure Reading where
  frames : List Frame
  stage : Stage
  value : Yaml
  properties? : Option Properties
  numbers : List (String × Nat)
  anchored : List (Nat × Yaml)
  version : Bool
  handles : List (String × String)

namespace Reading

def start : Reading := ⟨[], .before, missing, none, [], [], false, []⟩

/-- Whether a value may stand here. -/
def wants (r : Reading) : Bool :=
  match r.frames with
  | [] => r.stage = .before || r.stage = .inside
  | frame :: _ => frame.wants

/-- Remembers a value under the number of its anchor. -/
def keep (r : Reading) (anchor? : Option Nat) (v : Yaml) : Reading :=
  match anchor? with
  | some number => { r with anchored := (number, v) :: r.anchored }
  | none => r

/-- Puts a value into the frames that are open around it; that ends a pair. -/
def put? (r : Reading) (v : Yaml) : List Frame → Option Reading
  | [] =>
    if r.stage = .before ∨ r.stage = .inside then
      some { r with frames := [], stage := .done, value := v }
    else none
  | frame :: outer =>
    match frame.take? v with
    | some (.record anchor? .pair members .comma) =>
      put? (r.keep anchor? (.record members.reverse)) (.record members.reverse) outer
    | some frame => some { r with frames := frame :: outer }
    | none => none

/-- Ends a list or a record. -/
def finish? (r : Reading) (anchor? : Option Nat) (v : Yaml) (outer : List Frame) : Option Reading :=
  (r.keep anchor? v).put? v outer

/-- Takes the properties of the value that comes next. -/
def takeProperties (r : Reading) : Properties × Reading :=
  (r.properties?.getD ⟨none, none⟩, { r with properties? := none })

/-- Puts a scalar with its properties. -/
def putScalar? (r : Reading) (properties : Properties) (plain : Bool) (text : String) :
    Option Reading :=
  let v := Yaml.scalar plain properties.tag? text
  (r.keep properties.anchor? v).put? v r.frames

/-- A scalar that is written. A tag that is only a mark says nothing of it. -/
def scalar? (r : Reading) (plain : Bool) (text : String) : Option Reading :=
  let (properties, r) := r.takeProperties
  r.putScalar? { properties with tag? := properties.tag?.filter (· ≠ "!") } plain text

def open? (r : Reading) (frame : Option Nat → Frame) : Option Reading :=
  if r.wants then
    let (properties, r) := r.takeProperties
    some { r with
      frames := frame properties.anchor? :: r.frames
      stage := if r.stage = .before then .inside else r.stage }
  else none

/-- Where properties stand alone, the value is an empty scalar. -/
def settleProperties? (r : Reading) : Option Reading :=
  match r.properties? with
  | some properties => { r with properties? := none }.putScalar? properties true ""
  | none => some r

/-- Ends a list without indentation. -/
def endLoose? (r : Reading) : Option Reading :=
  match r.frames with
  | frame :: outer =>
    match frame.settle with
    | .list anchor? .loose items _ => r.finish? anchor? (.list items.reverse) outer
    | _ => some r
  | [] => some r

/-- Ends a pair in which the value is left out. -/
def endPair? (r : Reading) : Option Reading :=
  match r.frames with
  | .record anchor? .pair members (.colon key) :: outer =>
    let v := Yaml.record ((key, missing) :: members).reverse
    r.finish? anchor? v outer
  | .record anchor? .pair members (.value key) :: outer =>
    let v := Yaml.record ((key, missing) :: members).reverse
    r.finish? anchor? v outer
  | _ => some r

/-- Ends a block. -/
def close? (r : Reading) : Option Reading :=
  match r.frames with
  | frame :: outer =>
    match frame.settle with
    | .list anchor? .block items _ => r.finish? anchor? (.list items.reverse) outer
    | .record anchor? .block members .key => r.finish? anchor? (.record members.reverse) outer
    | _ => none
  | [] => none

/-- Announces an item of a block list; a record starts one without indentation as a value. -/
def entry? (r : Reading) : Option Reading :=
  match r.frames with
  | .record _ .block _ _ :: _ => r.open? fun anchor? => .list anchor? .loose [] .item
  | _ =>
    r.settleProperties?.bind fun r =>
      match r.frames with
      | frame :: outer =>
        match frame.settle with
        | .list _ .flow _ _ => none
        | .list anchor? style items _ =>
          some { r with frames := .list anchor? style items .item :: outer }
        | _ => none
      | [] => none

/-- Announces a key. In a list between brackets it starts a pair. -/
def key? (r : Reading) : Option Reading :=
  match r.frames with
  | .record anchor? .flow members .key :: outer =>
    some { r with frames := .record anchor? .flow members .keyText :: outer }
  | .list anchor? .flow items .itemOrEnd :: outer =>
    some { r with
      frames := .record none .pair [] .keyText :: .list anchor? .flow items .itemOrEnd :: outer }
  | frame :: outer =>
    match frame.settle with
    | .record anchor? .block members .key =>
      some { r with frames := .record anchor? .block members .keyText :: outer }
    | _ => none
  | [] => none

/-- Goes on to the value of a member. A colon in the place of the key of a pair is passed over. -/
def colon? (r : Reading) : Option Reading :=
  match r.frames with
  | .record anchor? .pair members .keyText :: outer =>
    some { r with frames := .record anchor? .pair members (.colon missing) :: outer }
  | .record anchor? style members .keyText :: outer =>
    some { r with frames := .record anchor? style members (.value missing) :: outer }
  | .record anchor? style members (.colon key) :: outer =>
    some { r with frames := .record anchor? style members (.value key) :: outer }
  | _ => none

/-- Goes on to the next item or member between brackets. -/
def comma? (r : Reading) : Option Reading :=
  match r.frames with
  | .record anchor? .pair members .keyText :: outer =>
    some { r with frames := .record anchor? .pair members (.colon missing) :: outer }
  | _ =>
    r.endPair?.bind fun r =>
      match r.frames with
      | .list anchor? .flow items .more :: outer =>
        some { r with frames := .list anchor? .flow items .itemOrEnd :: outer }
      | frame :: outer =>
        match frame.settle with
        | .record anchor? .flow members .comma =>
          some { r with frames := .record anchor? .flow members .key :: outer }
        | _ => none
      | [] => none

def closeFlowList? (r : Reading) : Option Reading :=
  match r.frames with
  | .record anchor? .pair members .keyText :: outer =>
    some { r with frames := .record anchor? .pair members (.colon missing) :: outer }
  | _ =>
    r.endPair?.bind fun r =>
      match r.frames with
      | .list anchor? .flow items _ :: outer => r.finish? anchor? (.list items.reverse) outer
      | _ => none

def closeFlowRecord? (r : Reading) : Option Reading :=
  match r.frames with
  | frame :: outer =>
    match frame.settle with
    | .record anchor? .flow members .comma => r.finish? anchor? (.record members.reverse) outer
    | .record anchor? .flow members .key => r.finish? anchor? (.record members.reverse) outer
    | _ => none
  | [] => none

/-! ## Properties, directives and documents -/

/-- An anchor. A name may be used again, and then counts for what comes after. -/
def anchor? (r : Reading) (name : String) : Option Reading :=
  let (properties, rest) := r.takeProperties
  if r.wants ∧ properties.anchor? = none then
    let number := r.numbers.length
    some { rest with
      properties? := some { properties with anchor? := some number }
      numbers := (name, number) :: r.numbers }
  else none

def reference? (r : Reading) (name : String) : Option Reading :=
  if r.properties?.isSome then none
  else (r.numbers.lookup name).bind fun number => r.put? (.reference number) r.frames

/-- The tags that handles stand for, unless a directive says otherwise. -/
def commonHandles : List (String × String) := [("", ""), ("!", "!"), ("!!", "tag:yaml.org,2002:")]

def tag? (r : Reading) (tag : Tag) : Option Reading :=
  let (properties, rest) := r.takeProperties
  if r.wants ∧ properties.tag? = none then
    ((r.handles ++ commonHandles).lookup tag.handle).map fun start =>
      { rest with properties? := some { properties with tag? := some (start ++ tag.suffix) } }
  else none

def directive? (r : Reading) (d : Directive) : Option Reading :=
  if r.frames.isEmpty ∧ (r.stage = .before ∨ r.stage = .prologue) then
    match d with
    | .version major minor =>
      if r.version ∨ major ≠ 1 ∨ (minor ≠ 1 ∧ minor ≠ 2) then none
      else some { r with stage := .prologue, version := true }
    | .handle handle start =>
      if (r.handles.lookup handle).isSome then none
      else some { r with stage := .prologue, handles := (handle, start) :: r.handles }
  else none

/-- Starts a document: the first one, and only one. -/
def document? (r : Reading) : Option Reading :=
  if r.frames.isEmpty ∧ (r.stage = .before ∨ r.stage = .prologue) then
    some { r with stage := .inside }
  else none

/-- Ends a document, which is empty if there is only its start. -/
def documentEnd? (r : Reading) : Option Reading :=
  match r.frames, r.stage with
  | [], .inside => r.put? missing []
  | [], .done => some r
  | _, _ => none

def step (r : Reading) : Piece → Option Reading
  | .anchor name => r.anchor? name
  | .tag tag => r.tag? tag
  | .reference name => r.reference? name
  | .scalar plain text => r.scalar? plain text
  | .openRecord => r.open? fun anchor? => .record anchor? .block [] .key
  | .openList => r.open? fun anchor? => .list anchor? .block [] .more
  | .openFlowRecord => r.open? fun anchor? => .record anchor? .flow [] .key
  | .openFlowList => r.open? fun anchor? => .list anchor? .flow [] .itemOrEnd
  | .entry => r.entry?
  | .close => (r.settleProperties?.bind endLoose?).bind close?
  | .key => (r.settleProperties?.bind endLoose?).bind key?
  | .colon => (r.settleProperties?.bind endLoose?).bind colon?
  | .comma => r.settleProperties?.bind comma?
  | .closeFlowList => r.settleProperties?.bind closeFlowList?
  | .closeFlowRecord => r.settleProperties?.bind closeFlowRecord?
  | .directive d => r.settleProperties?.bind fun r => r.directive? d
  | .document => r.settleProperties?.bind document?
  | .documentEnd => r.settleProperties?.bind documentEnd?

/-- The document at the end: none at all if the text is empty. -/
def finishText? (r : Reading) : Option (Option Document) :=
  r.settleProperties?.bind fun r =>
    match r.frames, r.stage with
    | [], .before => some none
    | [], .inside => some (some ⟨missing, []⟩)
    | [], .done => some (some ⟨r.value, r.anchored⟩)
    | _, _ => none

end Reading

def readPieces? (r : Reading) : List Piece → Option (Option Document)
  | [] => r.finishText?
  | p :: rest =>
    match r.step p with
    | some next => readPieces? next rest
    | none => none

/-- Reads a YAML text; one without a value is empty. -/
def ofText? (text : String) : Option (Option Document) :=
  (pieces? text).bind (readPieces? .start)

end Yaml

end DeepLink
