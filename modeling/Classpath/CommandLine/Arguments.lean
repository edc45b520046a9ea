/-! # Arguments — options and operands of a command

    An option has a long name and perhaps a letter.  Options may stand
    before, between and after the operands; two hyphens end them.  A flag,
    and an option that takes one value, may be given once.  What follows an
    option as its value must not look like an option itself. -/

namespace Classpath.CommandLine

/-- An option of a command. -/
structure OptionRule where
  name : String
  letter : Option Char := none
  takesValue : Bool := false
  repeats : Bool := false
  /-- Whether the value may be empty. -/
  mayBeEmpty : Bool := false
  deriving DecidableEq, Repr

/-- Why the arguments are not a command to carry out. -/
inductive Stop where
  | help
  | version
  | refused
  deriving DecidableEq, Repr

/-- The arguments read so far. -/
structure Arguments where
  /-- The names of the options, with their values. -/
  options : List (String × String) := []
  operands : List String := []
  deriving DecidableEq, Repr

/-- What a command accepts. -/
structure Rules where
  options : List OptionRule
  /-- The greatest number of operands, if there is one. -/
  operands : Option Nat := none
  /-- Whether the command can tell its version. -/
  hasVersion : Bool := false
  deriving DecidableEq, Repr

namespace Arguments

/-- Whether an option was given. -/
def has (a : Arguments) (name : String) : Bool :=
  a.options.any fun o => o.1 = name

/-- The value of an option. -/
def value? (a : Arguments) (name : String) : Option String :=
  (a.options.find? fun o => o.1 = name).map Prod.snd

/-- The values of an option that may be repeated, in order. -/
def values (a : Arguments) (name : String) : List String :=
  (a.options.filter fun o => o.1 = name).map Prod.snd

/-- Adds an option. -/
def addOption (a : Arguments) (r : OptionRule) (value : String) :
    Except Stop Arguments :=
  if a.has r.name ∧ !r.repeats then .error .refused
  else if r.takesValue ∧ value = "" ∧ !r.mayBeEmpty then .error .refused
  else .ok { a with options := a.options ++ [(r.name, value)] }

/-- Adds an operand, which must not be empty. -/
def addOperand (rules : Rules) (a : Arguments) (operand : String) :
    Except Stop Arguments :=
  if operand = "" ∨ rules.operands = some a.operands.length then .error .refused
  else .ok { a with operands := a.operands ++ [operand] }

/-- Whether an argument looks like an option. -/
def isOption (argument : String) : Bool :=
  argument.startsWith "-" && argument ≠ "-"

/-- Cuts a text at its first equals sign. -/
def cutAtEquals (s : List Char) : String × Option String :=
  (String.ofList (s.takeWhile (· ≠ '=')),
    match s.dropWhile (· ≠ '=') with
    | [] => none
    | _ :: rest => some (String.ofList rest))

/-- Reads a long option.  An option whose value is still to come is
    returned. -/
def readLong (rules : Rules) (a : Arguments) (s : List Char) :
    Except Stop (Arguments × Option OptionRule) :=
  let (name, value) := cutAtEquals s
  match rules.options.find? fun r => r.name = name with
  | some r =>
      if r.takesValue then
        match value with
        | some v => (a.addOption r v).map (·, none)
        | none => .ok (a, some r)
      else if value.isSome then .error .refused
      else (a.addOption r "").map (·, none)
  | none =>
      if value.isSome then .error .refused
      else if name = "help" then .error .help
      else if name = "version" ∧ rules.hasVersion then .error .version
      else .error .refused

/-- Reads letters, each of them an option; the first option that takes a
    value has the rest of the letters for it, or its value is still to
    come. -/
def readLetters (rules : Rules) (a : Arguments) :
    List Char → Except Stop (Arguments × Option OptionRule)
  | [] => .ok (a, none)
  | c :: rest =>
      match rules.options.find? fun r => r.letter = some c with
      | some r =>
          if r.takesValue then
            match rest with
            | [] => .ok (a, some r)
            | '=' :: v => (a.addOption r (String.ofList v)).map (·, none)
            | v => (a.addOption r (String.ofList v)).map (·, none)
          else do readLetters rules (← a.addOption r "") rest
      | none =>
          if c = 'h' then .error .help
          else if c = 'V' ∧ rules.hasVersion then .error .version
          else .error .refused

/-- Reads an option. -/
def readOption (rules : Rules) (a : Arguments) (argument : String) :
    Except Stop (Arguments × Option OptionRule) :=
  match argument.toList with
  | '-' :: '-' :: s => readLong rules a s
  | _ :: s => readLetters rules a s
  | [] => .error .refused

/-- Reads the arguments of a command after those already read.  `pending` is
    an option that waits for its value. -/
def read (rules : Rules) (a : Arguments) (pending : Option OptionRule) :
    List String → Except Stop Arguments
  | [] => if pending.isSome then .error .refused else .ok a
  | "--" :: rest =>
      if pending.isSome then .error .refused
      else rest.foldlM (addOperand rules) a
  | argument :: rest =>
      match pending with
      | some r =>
          if isOption argument then .error .refused
          else do read rules (← a.addOption r argument) none rest
      | none =>
          if isOption argument then do
            let (a, pending) ← readOption rules a argument
            read rules a pending rest
          else do read rules (← addOperand rules a argument) none rest

end Arguments

end Classpath.CommandLine
