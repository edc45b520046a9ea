import Classpath.Coordinate
import Classpath.Document.Value

/-! # Reading documents — from values to data

    A `Reader` turns a value into data or says what is wrong with it.  This
    module has the readers of texts, truth values, sequences, maps and
    alternatives; records are read in the module after it.  Of two faults
    in one value a reader reports the one that stands first. -/

namespace Classpath.Document

/-! ## Faults -/

/-- The names that may stand in one place, for a message. -/
def oneOf : List String → String
  | [a] => "`" ++ a ++ "`"
  | [a, b] => "`" ++ a ++ "` or `" ++ b ++ "`"
  | names => "one of " ++ ", ".intercalate (names.map fun n => "`" ++ n ++ "`")

/-- What is wrong with a document. -/
inductive ReadFault where
  /-- The text breaks the rules of its notation, or has a shape that is
      never right in its place. -/
  | malformed
  | missingField (field : String)
  | duplicateField (field : String)
  /-- A name that is not among the ones allowed. -/
  | unknownVariant (found : String) (allowed : List String)
  | wrongType (found wanted : String)
  /-- A record written as an array that ends before a required field. -/
  | wrongLength (length : Nat) (record : String) (fields : Nat)
  | malformedCoordinate (cause : MalformedCoordinate)
  deriving DecidableEq, Repr

/-- What is said of a read fault. -/
def ReadFault.message : ReadFault → String
  | malformed => "not a well-formed document"
  | missingField field => "missing field `" ++ field ++ "`"
  | duplicateField field => "duplicate field `" ++ field ++ "`"
  | unknownVariant found allowed =>
      "unknown variant `" ++ found ++ "`, expected " ++ oneOf allowed
  | wrongType found wanted => "invalid type: " ++ found ++ ", expected " ++ wanted
  | wrongLength length record fields =>
      "invalid length " ++ toString length ++ ", expected struct " ++ record
        ++ " with " ++ toString fields ++ " elements"
  | malformedCoordinate cause => cause.message

/-! ## Readers -/

/-- The notation a document was written in.  The two agree but for a few
    liberties. -/
inductive Dialect where
  | json
  | toml
  deriving DecidableEq, Repr

/-- Reads a value as data. -/
abbrev Reader (α : Type) := Dialect → Value → Except ReadFault α

namespace Reader

variable {α β : Type}

/-- The fault of a value that is not of the wanted type. -/
def mistyped (wanted : String) (v : Value) : ReadFault :=
  match v.found? with
  | some found => .wrongType found wanted
  | none => .malformed

/-- Data made from other data. -/
def map (f : α → β) (read : Reader α) : Reader β := fun d v =>
  (read d v).map f

/-- A text, called by the name under which it is wanted. -/
def text (wanted : String) : Reader String := fun _ v =>
  match v with
  | .string s => .ok s
  | v => .error (mistyped wanted v)

/-- A text. -/
def string : Reader String := text "a string"

/-- A truth value. -/
def bool : Reader Bool := fun _ v =>
  match v with
  | .bool b => .ok b
  | v => .error (mistyped "a boolean" v)

/-- Data that may be absent. -/
def nullable (read : Reader α) : Reader (Option α) := fun d v =>
  match v with
  | .null => .ok none
  | v => (read d v).map some

/-- What was read, if the text goes on as it should. -/
def unlessFlawed (flaw : Option Flaw) (x : α) : Except ReadFault α :=
  match flaw with
  | none => .ok x
  | some _ => .error .malformed

/-- A sequence. -/
def list (read : Reader α) : Reader (List α) := fun d v =>
  match v with
  | .array items flaw => do unlessFlawed flaw (← items.mapM (read d))
  | v => .error (mistyped "a sequence" v)

/-- A map.  Of several members with one name the last one counts. -/
def textMap (read : Reader α) : Reader (TextMap α) := fun d v =>
  match v.members? with
  | some (members, flaw) => do
      let entries ← members.mapM fun m => (read d m.2).map fun x => (m.1, x)
      unlessFlawed flaw (entries.foldl (fun map e => map.insert e.1 e.2) ∅)
  | none => .error (mistyped "a map" v)

/-- A coordinate, written as a text. -/
def coordinate : Reader Coordinate := fun d v => do
  match Coordinate.parse (← string d v) with
  | .ok key => .ok key
  | .error cause => .error (.malformedCoordinate cause)

/-! ## Alternatives -/

/-- The alternative with this name. -/
def named (all : List α) (name : α → String) (found : String) :
    Except ReadFault α :=
  match all.find? fun a => name a = found with
  | some a => .ok a
  | none => .error (.unknownVariant found (all.map name))

/-- Whether a value is an object or array without anything in it. -/
def isVacant : Value → Bool
  | .array [] none | .object [] none => true
  | _ => false

/-- One of several named alternatives.  It is written as its name, or as an
    object whose only member has that name and holds nothing. -/
def choice (all : List α) (name : α → String) : Reader α := fun d v =>
  match d, v with
  | _, .string s => named all name s
  | .json, .object ((tag, held) :: rest) flaw => do
      let a ← named all name tag
      if !held.isNull then .error (mistyped "unit" held)
      else if rest.isEmpty then unlessFlawed flaw a
      else .error .malformed
  | .toml, .object [(tag, held)] flaw => do
      let a ← named all name tag
      if isVacant held then unlessFlawed flaw a else .error .malformed
  | _, _ => .error .malformed

end Reader

end Classpath.Document
