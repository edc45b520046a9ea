import Classpath.Assembly
import Classpath.Source

/-! # Checking — properties files looked at without a model

    A file is checked by applying it to an assembly that is thrown away, but
    for what is reported on the way.  A malformed list is a verdict and no
    fault, so that several files can be checked one after the other; only one
    that cannot be read ends this. -/

namespace Classpath

/-- What came of checking a properties file. -/
inductive Verdict where
  | valid
  /-- The file sets no marks. -/
  | unmarked
  | invalid (cause : MalformedCoordinate)
  deriving DecidableEq, Repr

namespace Verdict

/-- Whether a file passes. -/
def isValid : Verdict → Bool
  | .invalid _ => false
  | _ => true

/-- The line that tells a verdict. -/
def line (path : String) : Verdict → String
  | .valid => "ok       " ++ path
  | .unmarked => "skipped  " ++ path ++ " (no classification keys)"
  | .invalid cause => "invalid  " ++ path ++ ": " ++ cause.message

end Verdict

/-- Looks at one properties file. -/
def examine (s : Source) : Traced (Except Fault Verdict) :=
  match Properties.ofSource s with
  | .error fault => pure (.error fault)
  | .ok properties =>
      if !properties.hasMarks then pure (.ok .unmarked)
      else do
        let (_, cause) ← Assembly.empty.classify properties (Path.extensionName s.path)
        match cause with
        | none => pure (.ok .valid)
        | some cause => pure (.ok (.invalid cause))

/-- Checks one properties file. -/
def check (s : Source) : Except Fault Verdict :=
  (examine s).value

/-- Looks at several files up to the first one that cannot be read. -/
def examineAll : List Source → Traced (List (String × Verdict) × Option Fault)
  | [] => pure ([], none)
  | s :: rest => do
      match ← examine s with
      | .error fault => pure ([], some fault)
      | .ok verdict =>
          let (verdicts, fault) ← examineAll rest
          pure ((s.path, verdict) :: verdicts, fault)

/-- Checks several files up to the first one that cannot be read. -/
def checkAll (files : List Source) : List (String × Verdict) × Option Fault :=
  (examineAll files).value

/-- The fault of a check: a file that cannot be read, or else the number of
    files that do not pass. -/
def checkFault (result : List (String × Verdict) × Option Fault) : Option Fault :=
  let failures := (result.1.filter fun r => !r.2.isValid).length
  result.2.or (if failures = 0 then none else some (.failedValidation failures))

end Classpath
