import Classpath.Document.Reading

/-! # Records — objects with fields of known names

    `Fields` describes some fields of a record: their names and how their
    values make up data.  Descriptions combine with `<$>` and `<*>`, in the
    order in which the fields were declared.  `record` reads a record from
    an object, whose members may stand in any order among others, or from
    an array of the field values in the order of declaration.

    Every fault comes with its place, so that the combination of two
    descriptions reports the fault that stands first in the document.
    Fields that are missing are noticed only at the end. -/

namespace Classpath.Document

/-- Data, or a fault and the place where it stands in its record. -/
abbrev Placed (α : Type) := Except (Nat × ReadFault) α

namespace Placed

variable {α β : Type}

/-- Both data, or the fault that stands first. -/
def both : Placed α → Placed β → Placed (α × β)
  | .ok a, .ok b => .ok (a, b)
  | .error e, .ok _ => .error e
  | .ok _, .error e => .error e
  | .error e, .error e' => .error (if e'.1 < e.1 then e' else e)

/-- Puts a result at a place. -/
def locate (place : Nat) : Except ReadFault α → Placed α
  | .ok a => .ok a
  | .error fault => .error (place, fault)

/-- Forgets the place. -/
def result : Placed α → Except ReadFault α
  | .ok a => .ok a
  | .error (_, fault) => .error fault

/-- Both are there exactly when each is. -/
theorem both_eq_ok {x : Placed α} {y : Placed β} {p : α × β} :
    both x y = .ok p ↔ x = .ok p.1 ∧ y = .ok p.2 := by
  obtain ⟨a, b⟩ := p
  cases x <;> cases y <;> simp [both]

/-- A place does not matter to what was read. -/
theorem result_eq_ok {x : Placed α} {a : α} : x.result = .ok a ↔ x = .ok a := by
  cases x <;> simp [result]

end Placed

/-- How some fields of a record are read.  Both ways of reading are told how
    many fields were declared before these. -/
structure Fields (α : Type) where
  names : List String
  ofMembers : Dialect → List (String × Value) → Nat → Placed α
  /-- Reads an array; the fault of one that is too short is given. -/
  ofItems : Dialect → List Value → (Nat → ReadFault) → Nat → Placed α

namespace Fields

variable {α β : Type}

/-- One field.  `absent` is the value it has if it is not there. -/
def field (name : String) (read : Reader α) (absent : Option α) : Fields α where
  names := [name]
  ofMembers d members before :=
    match members.findIdx? fun m => m.1 = name with
    | some i => match members[i]? with
      | some m => .locate i (read d m.2)
      | none => .error (i, .missingField name)
    | none => match absent with
      | some a => .ok a
      | none => .error (members.length + 1 + before, .missingField name)
  ofItems d items short before :=
    match items[before]? with
    | some v => .locate before (read d v)
    | none => match absent with
      | some a => .ok a
      | none => .error (before + 1, short before)

/-- A field that must be there. -/
def required (name : String) (read : Reader α) : Fields α :=
  field name read none

/-- A field that has a default. -/
def withDefault (name : String) (read : Reader α) (absent : α) : Fields α :=
  field name read (some absent)

instance : Functor Fields where
  map f x :=
    { names := x.names
      ofMembers := fun d members before => (x.ofMembers d members before).map f
      ofItems := fun d items short before =>
        (x.ofItems d items short before).map f }

instance : Seq Fields where
  seq f x :=
    let x := x ()
    { names := f.names ++ x.names
      ofMembers := fun d members before =>
        ((f.ofMembers d members before).both
          (x.ofMembers d members (before + f.names.length))).map fun p => p.1 p.2
      ofItems := fun d items short before =>
        ((f.ofItems d items short before).both
          (x.ofItems d items short (before + f.names.length))).map
            fun p => p.1 p.2 }

@[simp] theorem names_required (name : String) (read : Reader α) :
    (required name read).names = [name] := rfl

@[simp] theorem names_withDefault (name : String) (read : Reader α)
    (absent : α) : (withDefault name read absent).names = [name] := rfl

@[simp] theorem names_map (f : α → β) (x : Fields α) :
    (f <$> x).names = x.names := rfl

@[simp] theorem names_seq (f : Fields (α → β)) (x : Fields α) :
    (f <*> x).names = f.names ++ x.names := rfl

/-- The first fault of the members apart from the values of the fields: a
    field that was there before, another member that cannot be passed over,
    or the loss of all that follows.  `seen` are the names of the members
    before these, of which there are `place`. -/
def disorder (names : List String) (canPass : Value → Bool)
    (flaw : Option Flaw) (seen : List String) (place : Nat) :
    List (String × Value) → Placed Unit
  | [] => .locate place (Reader.unlessFlawed flaw ())
  | (name, v) :: rest =>
      if names.contains name then
        if seen.contains name then .error (place, .duplicateField name)
        else disorder names canPass flaw (name :: seen) (place + 1) rest
      else if canPass v then
        disorder names canPass flaw seen (place + 1) rest
      else .error (place, .malformed)

/-- Reads the fields from the members of an object. -/
def readMembers (x : Fields α) (canPass : Value → Bool) (d : Dialect)
    (members : List (String × Value)) (flaw : Option Flaw) :
    Except ReadFault α :=
  let both := (disorder x.names canPass flaw [] 0 members).both
    (x.ofMembers d members 0)
  Placed.result (both.map Prod.snd)

/-- Reads the fields from the items of an array.  In one dialect nothing may
    follow the last field, in the other what follows is not looked at. -/
def readItems (x : Fields α) (record : String) (d : Dialect)
    (items : List Value) (flaw : Option Flaw) : Except ReadFault α :=
  let short := fun n => ReadFault.wrongLength n record x.names.length
  let surplus := d = .json ∧ x.names.length < items.length
  let ending : Placed Unit :=
    if flaw.isSome ∨ surplus then .error (items.length, .malformed) else .ok ()
  Placed.result ((ending.both (x.ofItems d items short 0)).map Prod.snd)

end Fields

/-- A record with these fields. -/
def record {α : Type} (name : String) (fields : Fields α) : Reader α := fun d v =>
  match v with
  | .array items flaw => fields.readItems name d items flaw
  | v => match v.members? with
    | some (members, flaw) =>
        fields.readMembers Value.isPassable d members flaw
    | none => .error (Reader.mistyped ("struct " ++ name) v)

/-- A record in whose object the members of an inner record stand beside its
    own.  All of it has to be whole, and the inner record is read last, from
    the members that are left. -/
def flattened {α β : Type} (name : String) (own : Fields α) (inner : Fields β) :
    Reader (α × β) := fun d v =>
  match v.members? with
  | some (members, flaw) => do
      let a ← own.readMembers Value.isWhole d members flaw
      let left := members.filter fun m => !own.names.contains m.1
      let b ← inner.readMembers (fun _ => true) d left none
      pure (a, b)
  | none => .error (Reader.mistyped ("struct " ++ name) v)

end Classpath.Document
