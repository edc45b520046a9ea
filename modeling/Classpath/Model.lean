import Classpath.Dependency
import Classpath.Mark
import Classpath.Platform

/-! # Models — from what is written down to what is frozen

    A descriptor holds everything that is written down of an application; each
    of its parts may be left out, and is then empty or absent.  A model is what
    comes of it.  It is a plain value: two models with the same contents are
    equal.  Its dependencies stand in a fixed order, and its sets and maps are
    always shown in the order of their keys. -/

namespace Classpath

/-! ## Contracts -/

/-- The capabilities advertised by an extension, in the order given.  What a
    capability means is not the business of a model. -/
structure Contract where
  /-- The coordinate of the extension, as it was written. -/
  extension : String
  provides : List String := []
  deriving DecidableEq, Repr

/-- Whether the extension advertises this very capability. -/
def Contract.offers (c : Contract) (capability : String) : Bool :=
  c.provides.contains capability

@[simp] theorem Contract.offers_iff {c : Contract} {capability : String} :
    c.offers capability = true ↔ capability ∈ c.provides := by
  simp [Contract.offers]

/-! ## Descriptors -/

/-- The name of the file that holds a descriptor. -/
def Descriptor.fileName : String := "depmodel.toml"

/-- A descriptor. -/
structure Descriptor where
  app : Option Artifact := none
  dependencies : List Dependency := []
  classification : Marks (List Coordinate) := .const []
  capabilities : TextMap Contract := ∅
  platform : Option Platform := none
  deriving DecidableEq

/-! ## Models -/

/-- The dependencies of an application and how its class loaders treat
    them. -/
structure Model where
  parentFirst : CoordinateSet := ∅
  runnerParentFirst : CoordinateSet := ∅
  lesserPriority : CoordinateSet := ∅
  localProject : CoordinateSet := ∅
  app : Option Artifact := none
  dependencies : List Dependency := []
  capabilities : TextMap Contract := ∅
  platform : Option Platform := none
  deriving DecidableEq

namespace Model

/-- The coordinates with a mark.  A model holds nothing that is excluded and
    so does not remember what was. -/
def marked (m : Model) : Mark → CoordinateSet
  | .parentFirst => m.parentFirst
  | .runnerParentFirst => m.runnerParentFirst
  | .excluded => ∅
  | .lesserPriority => m.lesserPriority
  | .localProject => m.localProject

/-- Whether a coordinate has a mark. -/
def isMarked (m : Model) (mark : Mark) (key : Coordinate) : Bool :=
  (m.marked mark).contains key

/-- The dependencies on the class path of the running application. -/
def runtime (m : Model) : List Dependency :=
  m.dependencies.filter fun d => d.runtime

/-- The dependencies that only the build needs. -/
def deployment (m : Model) : List Dependency :=
  m.dependencies.filter fun d => !d.runtime

/-- The dependency with this coordinate. -/
def dependency? (m : Model) (key : Coordinate) : Option Dependency :=
  m.dependencies.find? fun d => d.key = key

/-- The contracts in the order of their names. -/
def contracts (m : Model) : List Contract :=
  m.capabilities.toList.map Prod.snd

/-- The properties of the platform, if there is one. -/
def platformProperties (m : Model) : TextMap String :=
  match m.platform with
  | some platform => platform.properties
  | none => ∅

/-- A summary in five lines. -/
def summary (m : Model) : String :=
  Event.appName m.app ++ "\n"
    ++ "  dependencies: " ++ toString m.dependencies.length
    ++ " (" ++ toString m.runtime.length ++ " runtime, "
    ++ toString m.deployment.length ++ " deployment)\n"
    ++ "  parent-first: " ++ toString m.parentFirst.size
    ++ ", runner-parent-first: " ++ toString m.runnerParentFirst.size ++ "\n"
    ++ "  lesser-priority: " ++ toString m.lesserPriority.size
    ++ ", local-project: " ++ toString m.localProject.size ++ "\n"
    ++ "  capabilities: " ++ toString m.capabilities.size

end Model

end Classpath
