import Classpath.CommandLine.Run

/-! # The program

    The files, the environment and the arguments are those of the machine;
    what is done with them is decided elsewhere. -/

namespace Classpath.Program

open CommandLine

/-- The cause of a failed access to a file. -/
def faultOfError : IO.Error → IoFault
  | .noFileOrDirectory .. => .notFound
  | .alreadyExists .. => .alreadyExists
  | .inappropriateType _ code _ =>
      if code = 20 then .notADirectory else .isADirectory
  | e => .other (toString e)

/-- The result of an access to a file. -/
def attempt {α : Type} (action : IO α) : IO (Except IoFault α) := do
  match ← action.toBaseIO with
  | .ok a => pure (.ok a)
  | .error e => pure (.error (faultOfError e))

/-- The text of a file. -/
def readText (path : String) : IO (Except IoFault String) := do
  match ← attempt (IO.FS.readBinFile path) with
  | .error fault => pure (.error fault)
  | .ok bytes => match String.fromUTF8? bytes with
    | some text => pure (.ok text)
    | none => pure (.error .notText)

instance : FileAccess IO where
  isFile path := do
    match ← readText path with
    | .ok _ | .error .notText => pure true
    | .error _ => pure false
  isPresent path := do
    match ← readText path with
    | .error .notFound | .error .notADirectory => pure false
    | _ => pure true
  read := readText
  makeDirectory path := attempt (IO.FS.createDirAll path)
  write path contents := attempt (IO.FS.writeFile path contents)

/-- Whether an event is to be told. -/
def isTold (verbose : Bool) (e : Event) : Bool :=
  match e.level with
  | .trace => false
  | .debug | .info => verbose
  | .warn => true

/-- Prints a report and returns its exit code. -/
def tell (verbose : Bool) (r : Report) : IO UInt32 := do
  for e in r.events do
    if isTold verbose e then
      IO.eprintln (e.level.name ++ " " ++ e.message)
  IO.print r.out
  for remark in r.remarks do
    IO.eprintln remark
  match r.fault with
  | none => pure ()
  | some fault => do
      IO.eprintln ("Error: " ++ fault.message)
      match fault.help? with
      | some help => IO.eprintln ("  help: " ++ help)
      | none => pure ()
  pure r.exitCode.toUInt32

end Classpath.Program

open Classpath Classpath.CommandLine Classpath.Program

/-- Carries out the command that the arguments ask for. -/
def main (args : List String) : IO UInt32 := do
  match readInvocation {} args with
  | .error .refused => do
      IO.eprintln "error: the arguments are not a command; try '--help'"
      pure 2
  | .error stop => do
      IO.print stop.text
      pure 0
  | .ok invocation => do
      let settings ← IO.getEnv "DEPMODEL_HOME"
      let home ← IO.getEnv "HOME"
      let profile ← IO.getEnv "USERPROFILE"
      let working := (← IO.currentDir).toString
      tell invocation.verbose
        (← run ⟨settings, home, profile⟩ working invocation.command)
