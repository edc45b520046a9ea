import Classpath.Assembly
import Classpath.Source

/-! # Loading — from files to a model

    A descriptor is applied first and properties files after it, those of
    the settings before those that were named explicitly; the first file that
    cannot be read or holds a malformed list ends the loading.  Only then does
    it matter whether there is an application. -/

namespace Classpath

namespace Assembly

/-- Adds all that a descriptor holds. -/
def applyDescriptor (a : Assembly) (d : Descriptor) : Traced Assembly := do
  let app := d.app.or a.app
  let platform := (d.platform.filter fun p => !p.isEmpty).or a.platform
  let a ← Assembly.addAll { a with app := app, platform := platform }
    d.dependencies
  let a := Mark.all.foldl (fun a m => a.markAll m (d.classification.get m)) a
  pure { a with capabilities := d.capabilities }

/-- Applies a properties file.  What it says well is applied even if it also
    holds a malformed list. -/
def applyProperties (a : Assembly) (s : Source) :
    Traced (Assembly × Option Fault) :=
  match Properties.ofSource s with
  | .error fault => pure (a, some fault)
  | .ok properties => do
      Traced.emit (.applyingProperties s.path)
      let (a, cause) ← a.classify properties (Path.extensionName s.path)
      match cause with
      | none => pure (a, none)
      | some cause => do
          Traced.emit (.invalidProperties s.path cause)
          pure (a, some (.malformedCoordinate cause))

/-- Applies properties files up to the first fault. -/
def applyAll (a : Assembly) : List Source → Traced (Except Fault Assembly)
  | [] => pure (.ok a)
  | s :: rest => do
      match ← a.applyProperties s with
      | (a, none) => a.applyAll rest
      | (_, some fault) => pure (.error fault)

end Assembly

/-- The model that a descriptor leads to together with the properties files
    of the settings and those that were named explicitly, if any. -/
def load (descriptor : Source) (configured : List Source)
    (explicit : List Source := []) : Traced (Except Fault Model) :=
  match Descriptor.ofSource descriptor with
  | .error fault => pure (.error fault)
  | .ok d => do
      Traced.emit (.descriptorLoaded descriptor.path d.dependencies.length)
      let a ← Assembly.empty.applyDescriptor d
      match ← a.applyAll (configured ++ explicit) with
      | .error fault => pure (.error fault)
      | .ok a =>
          if a.app.isNone then pure (.error .missingRoot)
          else do
            let m ← a.build
            pure (.ok m)

end Classpath
