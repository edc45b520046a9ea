import Std.Data.HashMap
import Classpath.Model
import Classpath.Properties
import Classpath.Trace

/-! # Assemblies — what contributors put together before it is frozen

    Dependencies stand at the position where their coordinate was first
    added and have the value that was added last.  Sets of coordinates only
    grow; the application, the platform and the capabilities are replaced.
    `build` reads an assembly off into a model and may be repeated.  The launcher
    of the development environment never enters a model, whatever its
    classifier or type, and neither does an excluded coordinate; those that
    remain keep their order.

    A history of contributions is a list of `Operation`s, and `run` is what
    it leads to. -/

namespace Classpath

/-! ## Acceptance -/

/-- Whether this is the launcher of the development environment. -/
def Coordinate.isLauncher (k : Coordinate) : Bool :=
  k.group == "io.quarkus" && k.artifact == "quarkus-ide-launcher"

/-- Whether a model keeps a dependency. -/
def Dependency.isAccepted (excluded : CoordinateSet) (d : Dependency) : Bool :=
  !d.key.isLauncher && !excluded.contains d.key

/-- The dependencies that a model keeps; each of the others is reported. -/
def accept (excluded : CoordinateSet) (ds : List Dependency) :
    Traced (List Dependency) where
  value := ds.filter (Dependency.isAccepted excluded)
  events := (ds.filter fun d => !d.isAccepted excluded).map fun d =>
    .dropped d.artifact

/-! ## The state -/

/-- The state of a model under construction. -/
structure Assembly where
  app : Option Artifact := none
  dependencies : Array Dependency := #[]
  /-- Where each coordinate stands among the dependencies. -/
  positions : Std.HashMap Coordinate Nat := ∅
  marks : Marks CoordinateSet := .const ∅
  platform : Option Platform := none
  capabilities : TextMap Contract := ∅

namespace Assembly

/-- The assembly nobody has contributed to. -/
def empty : Assembly := {}

/-! ## Dependencies -/

/-- Where a coordinate stands, and the dependency that stands there. -/
def occupant? (a : Assembly) (key : Coordinate) : Option (Nat × Dependency) := do
  let i ← a.positions[key]?
  let d ← a.dependencies[i]?
  pure (i, d)

/-- Adds a dependency, in the place of an earlier one with the same
    coordinate if there is one and at the end otherwise. -/
def add (a : Assembly) (d : Dependency) : Traced Assembly :=
  match a.occupant? d.key with
  | some (i, old) =>
      ⟨{ a with dependencies := a.dependencies.setIfInBounds i d },
        [.superseded d.artifact old.artifact]⟩
  | none =>
      ⟨{ a with
          dependencies := a.dependencies.push d
          positions := a.positions.insert d.key a.dependencies.size },
        [.added d.artifact]⟩

/-- Adds several dependencies in order. -/
def addAll (a : Assembly) (ds : List Dependency) : Traced Assembly :=
  ds.foldlM add a

/-- The dependency recorded for a coordinate, whether or not a model would
    keep it. -/
def dependency? (a : Assembly) (key : Coordinate) : Option Dependency :=
  (a.occupant? key).map Prod.snd

/-! ## Marks -/

/-- Marks several coordinates. -/
def markAll (a : Assembly) (m : Mark) (keys : List Coordinate) : Assembly :=
  { a with marks := a.marks.modify m fun s => s.insertMany keys }

/-- Marks one coordinate. -/
def mark (a : Assembly) (m : Mark) (key : Coordinate) : Assembly :=
  a.markAll m [key]

/-- What is reported when an extension marks coordinates. -/
def markEvents (extension : String) (m : Mark) (keys : List Coordinate) :
    List Event :=
  match m with
  | .excluded => keys.map (.excluding extension)
  | .lesserPriority => keys.map (.lowering extension)
  | _ => []

/-- Applies one list of an extension's properties.  A malformed list changes
    nothing and is remembered unless an earlier one was. -/
def classifyOne (properties : Properties) (extension : String)
    (s : Assembly × Option MalformedCoordinate) (m : Mark) :
    Traced (Assembly × Option MalformedCoordinate) :=
  match properties[m.property]? with
  | none => pure s
  | some text =>
      match Coordinate.parseList text with
      | .ok keys => ⟨(s.1.markAll m keys, s.2), markEvents extension m keys⟩
      | .error cause =>
          ⟨(s.1, s.2.or (some cause)),
            [.malformedList extension m.property cause]⟩

/-- Applies the lists of an extension's properties, each for itself, and
    returns the first fault. -/
def classify (a : Assembly) (properties : Properties) (extension : String) :
    Traced (Assembly × Option MalformedCoordinate) :=
  Mark.fromExtensions.foldlM (classifyOne properties extension) (a, none)

/-! ## Freezing -/

/-- The model of an assembly. -/
def build (a : Assembly) : Traced Model := do
  let kept ← accept a.marks.excluded a.dependencies.toList
  let m : Model :=
    { parentFirst := a.marks.parentFirst
      runnerParentFirst := a.marks.runnerParentFirst
      lesserPriority := a.marks.lesserPriority
      localProject := a.marks.localProject
      app := a.app
      dependencies := kept
      capabilities := a.capabilities
      platform := a.platform }
  Traced.emit (.assembled a.app kept.length a.dependencies.size)
  pure m

/-! ## Histories -/

/-- One contribution. -/
inductive Operation where
  | setApp (app : Artifact)
  | setPlatform (platform : Platform)
  | setCapabilities (capabilities : TextMap Contract)
  | add (d : Dependency)
  | addAll (ds : List Dependency)
  | mark (m : Mark) (key : Coordinate)
  | markAll (m : Mark) (keys : List Coordinate)
  | classify (properties : Properties) (extension : String)

/-- Carries out one contribution; the fault is that of a malformed list. -/
def perform (a : Assembly) : Operation →
    Traced (Assembly × Option MalformedCoordinate)
  | .setApp app => pure ({ a with app := some app }, none)
  | .setPlatform platform => pure ({ a with platform := some platform }, none)
  | .setCapabilities capabilities =>
      pure ({ a with capabilities := capabilities }, none)
  | .add d => (a.add d).map (·, none)
  | .addAll ds => (a.addAll ds).map (·, none)
  | .mark m key => pure (a.mark m key, none)
  | .markAll m keys => pure (a.markAll m keys, none)
  | .classify properties extension => a.classify properties extension

/-- Where a contribution leads. -/
def step (a : Assembly) (op : Operation) : Assembly :=
  (a.perform op).value.1

/-- Where a history leads. -/
def run (ops : List Operation) : Assembly :=
  ops.foldl step empty

end Assembly

end Classpath
