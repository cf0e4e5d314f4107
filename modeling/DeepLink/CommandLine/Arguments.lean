/-!
# Command line arguments

A command takes positional arguments and options with a value each. An option has a long name,
written after two dashes with its value next or after an equals sign, and a letter, written after
one dash with its value next or right behind it. Two dashes alone end the options. No option may be
given twice.
-/

namespace DeepLink.CommandLine

/-- An option of a command. -/
structure Flag where
  name : String
  letter : Char
  deriving DecidableEq

/-- The arguments of a command: positional ones, and options with their values. -/
structure Arguments where
  positional : List String
  options : List (Flag × String)
  deriving DecidableEq

namespace Arguments

def empty : Arguments := ⟨[], []⟩

def addPositional (a : Arguments) (text : String) : Arguments :=
  { a with positional := a.positional ++ [text] }

/-- Adds an option that has not been given yet. -/
def addOption? (a : Arguments) (flag : Flag) (value : String) : Option Arguments :=
  if a.options.any (·.1 = flag) then none
  else some { a with options := a.options ++ [(flag, value)] }

def get? (a : Arguments) (flag : Flag) : Option String :=
  (a.options.find? (·.1 = flag)).map (·.2)

end Arguments

/-- What an argument is for the command. -/
inductive Word
  | positional (text : String)
  | option (flag : Flag) (value? : Option String)
  | endOfOptions
  | unknown

/-- The name of a long option, and the value after an equals sign if there is one. -/
def cutValue : List Char → List Char × Option (List Char)
  | [] => ([], none)
  | c :: rest =>
    if c = '=' then ([], some rest)
    else
      let (name, value?) := cutValue rest
      (c :: name, value?)

/-- The value that stands right behind the letter of an option. -/
def attached? : List Char → Option (List Char)
  | [] => none
  | '=' :: value => some value
  | value => some value

def findFlag (known : List Flag) (holds : Flag → Bool) (value? : Option (List Char)) : Word :=
  match known.find? holds with
  | some flag => .option flag (value?.map String.ofList)
  | none => .unknown

def classify (known : List Flag) (argument : String) : Word :=
  match argument.toList with
  | ['-', '-'] => .endOfOptions
  | '-' :: '-' :: rest =>
    let (name, value?) := cutValue rest
    findFlag known (·.name = String.ofList name) value?
  | '-' :: letter :: rest => findFlag known (·.letter = letter) (attached? rest)
  | _ => .positional argument

/-- Reads arguments after those read already, as long as they make sense. -/
def readArguments? (known : List Flag) (read : Arguments) : List String → Option Arguments
  | [] => some read
  | argument :: rest =>
    match classify known argument with
    | .positional text => readArguments? known (read.addPositional text) rest
    | .endOfOptions => some { read with positional := read.positional ++ rest }
    | .unknown => none
    | .option flag (some value) => (read.addOption? flag value).bind (readArguments? known · rest)
    | .option flag none =>
      match rest with
      | [] => none
      | value :: rest =>
        match classify known value with
        | .positional value => (read.addOption? flag value).bind (readArguments? known · rest)
        | _ => none

end DeepLink.CommandLine
