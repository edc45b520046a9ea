import Classpath.Document.Value
import Classpath.Json.Quoted

/-! # Writing JSON — from document to text

    A document is written on one line, or with one line for each item and
    member, indented by two spaces for each level. -/

namespace Classpath.Json

open Document

/-- A line break and the indentation of a level. -/
def lineBreak (level : Nat) : String :=
  String.ofList ('\n' :: List.replicate (2 * level) ' ')

/-- Written parts between brackets. -/
def enclose (pretty : Bool) (level : Nat) (first last : Char)
    (parts : List String) : String :=
  let inner :=
    if parts.isEmpty then ""
    else if pretty then
      lineBreak (level + 1)
        ++ ("," ++ lineBreak (level + 1)).intercalate parts ++ lineBreak level
    else ",".intercalate parts
  String.singleton first ++ inner ++ String.singleton last

mutual

/-- The text of a value at a level. -/
def writeAt (pretty : Bool) (level : Nat) : Value → String
  | .null | .flawed _ => "null"
  | .bool b => toString b
  | .integer n => toString n
  | .decimal shown => shown
  | .string s | .moment s => quote s
  | .array items _ =>
      enclose pretty level '[' ']' (writeItems pretty (level + 1) items)
  | .object members _ =>
      enclose pretty level '\x7b' '\x7d' (writeMembers pretty (level + 1) members)

/-- The texts of the items of an array. -/
def writeItems (pretty : Bool) (level : Nat) : List Value → List String
  | [] => []
  | v :: rest => writeAt pretty level v :: writeItems pretty level rest

/-- The texts of the members of an object. -/
def writeMembers (pretty : Bool) (level : Nat) :
    List (String × Value) → List String
  | [] => []
  | (name, v) :: rest =>
      (quote name ++ (if pretty then ": " else ":") ++ writeAt pretty level v)
        :: writeMembers pretty level rest

end

/-- The text of a document. -/
def write (pretty : Bool) (v : Value) : String := writeAt pretty 0 v

end Classpath.Json
