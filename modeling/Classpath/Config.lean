import Classpath.Coordinate

/-! # Configurations — the settings of a user

    A configuration says how models are written and which properties files
    are applied to all of them. -/

namespace Classpath

/-- A notation in which a model is written. -/
inductive Format where
  | json
  | toml
  deriving DecidableEq, Repr

namespace Format

/-- All formats, in the order in which they are named to a reader. -/
def all : List Format := [.json, .toml]

/-- The name of a format. -/
def name : Format → String
  | .json => "json"
  | .toml => "toml"

/-- A text with the letters of the English alphabet in lower case. -/
def lower (text : String) : String := text.map Char.toLower

/-- The format of this name, whatever the case of its letters; a text that
    names none is returned in lower case. -/
def parse (text : String) : Except String Format :=
  match all.find? fun f => f.name = lower text with
  | some f => .ok f
  | none => .error (lower text)

theorem mem_all (f : Format) : f ∈ all := by cases f <;> decide

end Format

/-- The settings of a user. -/
structure Config where
  format : Format := .json
  pretty : Bool := true
  /-- The properties files that are applied to every model, in order. -/
  properties : List String := []
  deriving DecidableEq, Repr

end Classpath
