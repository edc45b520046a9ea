import Classpath.Checking
import Classpath.CommandLine.Invocation
import Classpath.FileAccess
import Classpath.Loading
import Classpath.Model.Rendering

/-! # Running commands

    A command reads the settings of the user first, then looks for the
    descriptor, then loads the model.  The format is looked at only when
    there is a model to write, but a view before anything else. -/

namespace Classpath.CommandLine

/-! ## Reports -/

/-- What a command has to show. -/
structure Report where
  /-- What was printed. -/
  out : String := ""
  /-- Remarks on what was done. -/
  remarks : List String := []
  events : List Event := []
  fault : Option Fault := none
  deriving DecidableEq

namespace Report

/-- A report that holds one fault. -/
def ofFault (fault : Fault) : Report := { fault := some fault }

/-- A report that holds nothing but events. -/
def ofEvents (events : List Event) : Report := { events := events }

/-- The exit code that tells how a command went. -/
def exitCode (r : Report) : UInt8 := if r.fault.isSome then 1 else 0

/-- One report after another. -/
def append (r s : Report) : Report where
  out := r.out ++ s.out
  remarks := r.remarks ++ s.remarks
  events := r.events ++ s.events
  fault := r.fault.or s.fault

end Report

/-! ## Commands -/

variable {m : Type → Type} [Monad m] [FileAccess m]

/-- The descriptor of a command: the one it names, or the nearest one from
    the working directory upwards. -/
def locate (working : String) (named : Option String) :
    m (Except Fault String × List Event) := do
  match named with
  | some path => pure (.ok path, [])
  | none =>
      match ← FileAccess.findUpwards FileAccess.isFile working
          Descriptor.fileName with
      | some path => pure (.ok path, [.usingDescriptor path])
      | none =>
          pure (.error (.descriptor (.notFound Descriptor.fileName)), [])

/-- The settings and the model of a command, and the events on the way. -/
def loadInputs (e : Environment) (working : String) (inputs : Inputs) :
    m (Except Fault (Config × Model) × List Event) := do
  match ← FileAccess.config e.configPath with
  | .error fault => pure (.error fault, [])
  | .ok config =>
      match ← locate working inputs.descriptor with
      | (.error fault, events) => pure (.error fault, events)
      | (.ok path, events) =>
          let descriptor ← FileAccess.source path
          let configured ← config.properties.mapM FileAccess.source
          let explicit ← inputs.extensions.mapM FileAccess.source
          let loaded := load descriptor configured explicit
          pure (loaded.value.map (config, ·), events ++ loaded.events)

/-- The format that was asked for, or else the usual one. -/
def chooseFormat (config : Config) (format : Option String) :
    Except Fault Format :=
  match format with
  | some name => Format.ofName name
  | none => .ok config.format

/-- A text with a line feed at its end. -/
def ended (text : String) : String :=
  if text.endsWith "\n" then text else text ++ "\n"

/-- Prints a rendered model or writes it to a file. -/
def deliver (output : Option String) (text : String) : m Report := do
  match output with
  | none => pure { out := text }
  | some path =>
      match ← FileAccess.writeWithParents path text with
      | (.ok (), events) =>
          pure { remarks := ["Wrote dependency model to " ++ path]
                 events := events }
      | (.error cause, events) =>
          pure { fault := some (.io cause), events := events }

/-- Builds a model and delivers it. -/
def runBuild (e : Environment) (working : String) (inputs : Inputs)
    (format output : Option String) (compact : Bool) : m Report := do
  let (loaded, events) ← loadInputs e working inputs
  let report ← match loaded with
    | .error fault => pure (Report.ofFault fault)
    | .ok (config, model) => match chooseFormat config format with
      | .error fault => pure (Report.ofFault fault)
      | .ok format =>
          deliver output
            (ended (model.render format (config.pretty && !compact)))
  pure ((Report.ofEvents events).append report)

/-- Lists the dependencies of a model. -/
def runList (e : Environment) (working : String) (inputs : Inputs)
    (view : String) (flags : Bool) : m Report := do
  match View.parse view with
  | .error name => pure (.ofFault (.unknownView name))
  | .ok view =>
      let (loaded, events) ← loadInputs e working inputs
      let report := match loaded with
        | .error fault => Report.ofFault fault
        | .ok (_, model) =>
            let text := model.listing view flags
            { out := if text = "" then "No dependencies.\n" else text }
      pure ((Report.ofEvents events).append report)

/-- Checks properties files and tells each verdict. -/
def runCheck (files : List String) : m Report := do
  let sources ← files.mapM FileAccess.source
  let result := examineAll sources
  pure { out := String.join (result.value.1.map fun r => r.2.line r.1 ++ "\n")
         events := result.events
         fault := checkFault result.value }

/-- Carries out a command. -/
def run (e : Environment) (working : String) : Command → m Report
  | .build inputs format output compact =>
      runBuild e working inputs format output compact
  | .list inputs view flags => runList e working inputs view flags
  | .check files => runCheck files

end Classpath.CommandLine
