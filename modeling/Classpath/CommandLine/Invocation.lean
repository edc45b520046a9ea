import Classpath.CommandLine.Arguments

/-! # Invocations — what the program is asked to do -/

namespace Classpath.CommandLine

/-- The model that a command is about. -/
structure Inputs where
  /-- The descriptor; without one it is looked for. -/
  descriptor : Option String := none
  extensions : List String := []
  deriving DecidableEq, Repr

/-- A command. -/
inductive Command where
  /-- Builds a model and writes it. -/
  | build (inputs : Inputs) (format output : Option String) (compact : Bool)
  /-- Lists the dependencies of a model. -/
  | list (inputs : Inputs) (view : String) (flags : Bool)
  /-- Checks properties files. -/
  | check (files : List String)
  deriving DecidableEq, Repr

/-- A command and how much is told about it. -/
structure Invocation where
  command : Command
  verbose : Bool
  deriving DecidableEq, Repr

/-- The option that all commands have. -/
def verboseRule : OptionRule := { name := "verbose", letter := some 'v' }

/-- The options of commands that are about a model. -/
def inputRules : List OptionRule :=
  [verboseRule,
   { name := "extension-properties", letter := some 'e', takesValue := true,
     repeats := true }]

/-- What the command that builds a model accepts. -/
def buildRules : Rules where
  options := inputRules ++
    [{ name := "format", letter := some 'f', takesValue := true,
       mayBeEmpty := true },
     { name := "output", letter := some 'o', takesValue := true },
     { name := "compact" }]
  operands := some 1

/-- What the command that lists dependencies accepts. -/
def listRules : Rules where
  options := inputRules ++
    [{ name := "view", takesValue := true, mayBeEmpty := true },
     { name := "flags" }]
  operands := some 1

/-- What the command that checks properties files accepts. -/
def checkRules : Rules where
  options := [verboseRule]

/-- What may stand before the name of a command. -/
def leadingRules : Rules where
  options := [verboseRule]
  hasVersion := true

/-- The model that the arguments name. -/
def Arguments.inputs (a : Arguments) : Inputs :=
  ⟨a.operands.head?, a.values "extension-properties"⟩

/-- The command of a name, with its arguments. -/
def readCommand (verbose : Bool) (name : String) (rest : List String) :
    Except Stop Invocation := do
  match name with
  | "build" =>
      let a ← Arguments.read buildRules {} none rest
      pure ⟨.build a.inputs (a.value? "format") (a.value? "output")
        (a.has "compact"), verbose || a.has "verbose"⟩
  | "deps" =>
      let a ← Arguments.read listRules {} none rest
      pure ⟨.list a.inputs ((a.value? "view").getD "all") (a.has "flags"),
        verbose || a.has "verbose"⟩
  | "check-properties" =>
      let a ← Arguments.read checkRules {} none rest
      if a.operands.isEmpty then .error .refused
      else pure ⟨.check a.operands, verbose || a.has "verbose"⟩
  | "help" =>
      if rest.all ["build", "deps", "check-properties", "help"].contains
        ∧ rest.length ≤ 1 then .error .help
      else .error .refused
  | _ => .error .refused

/-- Reads the arguments of the program, after those already read. -/
def readInvocation (a : Arguments) : List String → Except Stop Invocation
  | [] => .error .refused
  | argument :: rest =>
      if argument = "--" then .error .refused
      else if Arguments.isOption argument then do
        let (a, _) ← Arguments.readOption leadingRules a argument
        readInvocation a rest
      else readCommand (a.has "verbose") argument rest

/-- What is printed when no command is carried out. -/
def Stop.text : Stop → String
  | .version => "depmodel 0.1.0\n"
  | .help =>
      "Build and inspect application dependency models\n\n"
        ++ "Usage: depmodel [OPTIONS] <COMMAND>\n\n"
        ++ "Commands:\n"
        ++ "  build             Build the dependency model and print or write it\n"
        ++ "  deps              List the dependencies of the built model\n"
        ++ "  check-properties  Validate extension properties files\n"
  | .refused => ""

end Classpath.CommandLine
