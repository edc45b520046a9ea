import Classpath.Json.Writing
import Classpath.Model
import Classpath.Schema
import Classpath.Toml.Writing

/-! # Renderings — a model as a document, as a text and line by line

    The document of a model has its sets, the application, the dependencies,
    the contracts and the platform, in this order.  The application and the
    platform are left out if there is none.

    A listing has one line for each dependency that a view selects, in the order
    of the model.  With flags, a line also names the marks that the dependency
    has. -/

namespace Classpath

/-! ## Documents -/

namespace Model

open Document

/-- The value of a set of coordinates, in their order. -/
def setValue (keys : CoordinateSet) : Value :=
  .list (keys.toList.map Coordinate.toValue)

/-- A member for a value that may be absent. -/
def presentMember {α : Type} (name : String) (value : α → Value) :
    Option α → List (String × Value)
  | some a => [(name, value a)]
  | none => []

/-- The document of a model. -/
def toValue (m : Model) : Value :=
  .map (Mark.shown.map (fun mark => (mark.property, setValue (m.marked mark)))
    ++ presentMember "app-artifact" Artifact.toValue m.app
    ++ [("dependencies", .list (m.dependencies.map Dependency.toValue)),
        ("capability-contracts", TextMap.toValue Contract.toValue m.capabilities)]
    ++ presentMember "platform-imports" Platform.toValue m.platform)

/-- The text of a model. -/
def render (m : Model) (format : Format) (pretty : Bool) : String :=
  match format with
  | .json => Json.write pretty m.toValue
  | .toml => Toml.write pretty m.toValue

end Model

/-! ## Listings -/

/-- Which dependencies are listed. -/
inductive View where
  | all
  | runtime
  | deployment
  deriving DecidableEq, Repr

namespace View

/-- The name of a view. -/
def name : View → String
  | .all => "all"
  | .runtime => "runtime"
  | .deployment => "deployment"

/-- The view of this name; the text itself if it names none. -/
def parse (text : String) : Except String View :=
  match [View.all, .runtime, .deployment].find? fun v => v.name = text with
  | some v => .ok v
  | none => .error text

/-- The dependencies that a view selects. -/
def select : View → Model → List Dependency
  | .all, m => m.dependencies
  | .runtime, m => m.runtime
  | .deployment, m => m.deployment

end View

namespace Model

/-- The names of the marks of a dependency. -/
def flags (m : Model) (d : Dependency) : List String :=
  (Mark.shown.filter fun mark => m.isMarked mark d.key).map Mark.name

/-- The line of a dependency. -/
def line (m : Model) (withFlags : Bool) (d : Dependency) : String :=
  let flags := if withFlags then m.flags d else []
  d.display ++ if flags.isEmpty then "" else " [" ++ ", ".intercalate flags ++ "]"

/-- The lines of the dependencies that a view selects. -/
def lines (m : Model) (view : View) (withFlags : Bool) : List String :=
  (view.select m).map (m.line withFlags)

/-- The lines, each with a line feed at its end. -/
def listing (m : Model) (view : View) (withFlags : Bool) : String :=
  String.join ((m.lines view withFlags).map (· ++ "\n"))

end Model

end Classpath
