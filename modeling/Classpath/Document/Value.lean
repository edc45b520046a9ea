import Classpath.Text.Escapes

/-! # Document values — what a structured text holds

    A document is a tree of values, whichever notation it was written in.
    A text need not be a document to its end: where reading it fails, the
    tree has a flaw, and everything before the flaw can still be looked at.
    So of two faults in a text the one that stands first is found first,
    whether it is one of form or of content. -/

namespace Classpath.Document

/-- Why a part of a text holds no value that can be read. -/
inductive Flaw where
  /-- It can be passed over but not read: a number beyond all bounds, a
      character that does not exist, nesting without end. -/
  | obscure
  /-- It breaks the rules of its notation, and what follows it is lost. -/
  | broken
  deriving DecidableEq, Repr

/-- A value of a document. -/
inductive Value where
  | null
  | bool (b : Bool)
  | integer (n : Int)
  /-- A number with a fraction or an exponent, as messages show it. -/
  | decimal (shown : String)
  | string (s : String)
  /-- A date, a time or both, in its standard form. -/
  | moment (shown : String)
  /-- A sequence of values.  With a flaw it goes on after the last item, but
      nothing more of it can be read. -/
  | array (items : List Value) (flaw : Option Flaw)
  /-- A sequence of named values, with the same meaning of a flaw. -/
  | object (members : List (String × Value)) (flaw : Option Flaw)
  | flawed (flaw : Flaw)
  deriving Repr

namespace Value

/-- A complete array. -/
abbrev list (items : List Value) : Value := .array items none

/-- A complete object. -/
abbrev map (members : List (String × Value)) : Value := .object members none

/-- Whether the value is the null value. -/
def isNull : Value → Bool
  | .null => true
  | _ => false

@[simp] theorem isNull_iff {v : Value} : v.isNull = true ↔ v = .null := by
  cases v <;> simp [isNull]

/-- How a message names what was found; a flaw is not worth a name. -/
def found? : Value → Option String
  | .null => some "null"
  | .bool b => some ("boolean `" ++ toString b ++ "`")
  | .integer n => some ("integer `" ++ toString n ++ "`")
  | .decimal shown => some ("floating point `" ++ shown ++ "`")
  | .string s => some ("string " ++ Text.quoted s)
  | .array _ _ => some "sequence"
  | .moment _ | .object _ _ => some "map"
  | .flawed _ => none

/-- The name under which a date or time is the only member of an object. -/
def momentField : String := "$__toml_private_datetime"

/-- The members of what can be read as an object, and its flaw. -/
def members? : Value → Option (List (String × Value) × Option Flaw)
  | .object members flaw => some (members, flaw)
  | .moment shown => some ([(momentField, .string shown)], none)
  | _ => none

mutual

/-- Whether every flaw within a value is among those given. -/
def hasOnly (flaws : List Flaw) : Value → Bool
  | .array items flaw => flaw.all flaws.contains && itemsHaveOnly flaws items
  | .object members flaw =>
      flaw.all flaws.contains && membersHaveOnly flaws members
  | .flawed flaw => flaws.contains flaw
  | _ => true

/-- Whether every flaw within the items is among those given. -/
def itemsHaveOnly (flaws : List Flaw) : List Value → Bool
  | [] => true
  | v :: rest => hasOnly flaws v && itemsHaveOnly flaws rest

/-- Whether every flaw within the members is among those given. -/
def membersHaveOnly (flaws : List Flaw) : List (String × Value) → Bool
  | [] => true
  | (_, v) :: rest => hasOnly flaws v && membersHaveOnly flaws rest

end

/-- Whether the value can be read to its end. -/
def isWhole (v : Value) : Bool := v.hasOnly []

/-- Whether the end of the value can be found. -/
def isPassable (v : Value) : Bool := v.hasOnly [.obscure]

end Value

end Classpath.Document
