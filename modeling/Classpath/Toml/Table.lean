import Classpath.Document.Value

/-! # TOML tables — what may be defined where

    A table comes to be in one of three ways: by a header or as an element
    of an array of tables, by standing in the path of a header, or by
    standing in the path of a key with dots.  A table that has only stood
    in the path of headers may get a header of its own, and then moves to
    the end.  A key with dots adds to no table that has a header.

    `alter` goes down a path, making the tables that are not there, and
    `define`, `openTable` and `openElement` say what is done at its end. -/

namespace Classpath.Toml

open Document

/-- How a table came to be. -/
inductive Origin where
  | header
  /-- In the path of a header. -/
  | path
  /-- In the path of a key. -/
  | dots
  deriving DecidableEq, Repr

/-- What a key stands for. -/
inductive Item where
  | value (v : Value)
  | table (origin : Origin) (members : List (String × Item))
  /-- An array of tables, of which the last comes first. -/
  | tables (elements : List (List (String × Item)))

/-- Keys and what they stand for, in the order of their definition. -/
abbrev Members := List (String × Item)

namespace Members

/-- What a key stands for. -/
def get? (key : String) (ms : Members) : Option Item :=
  (ms.find? fun m => m.1 = key).map Prod.snd

/-- Changes what a key stands for, in its place. -/
def replace (key : String) (item : Item) (ms : Members) : Members :=
  ms.map fun m => if m.1 = key then (key, item) else m

/-- Adds a key at the end. -/
def insert (key : String) (item : Item) (ms : Members) : Members :=
  ms ++ [(key, item)]

/-- Takes a key away. -/
def erase (key : String) (ms : Members) : Members :=
  ms.filter fun m => m.1 ≠ key

/-- Changes the table at the end of a path.  A path of keys with dots makes
    other tables than a path of headers, and does not lead into a table that
    has a header. -/
def alter (dots : Bool) (change : Origin → Members → Option Members) :
    List String → Origin → Members → Option Members
  | [], origin, ms => change origin ms
  | key :: path, _, ms =>
      match get? key ms with
      | none => do
          let origin : Origin := if dots then .dots else .path
          let inner ← alter dots change path origin []
          pure (insert key (.table origin inner) ms)
      | some (.table origin inner) =>
          if dots ∧ origin = .header then none
          else do
            let inner ← alter dots change path origin inner
            pure (replace key (.table origin inner) ms)
      | some (.tables (last :: others)) => do
          let last ← alter dots change path .header last
          pure (replace key (.tables (last :: others)) ms)
      | some (.tables []) | some (.value _) => none

/-- Gives a new key its value.  `plain` tells whether the key has no dots:
    just then the table must not be one made by dots. -/
def define (plain : Bool) (key : String) (v : Value) (origin : Origin)
    (ms : Members) : Option Members :=
  if plain = decide (origin = .dots) then none
  else match get? key ms with
    | some _ => none
    | none => some (insert key (.value v) ms)

/-- Gives a table its header. -/
def openTable (key : String) (_ : Origin) (ms : Members) : Option Members :=
  match get? key ms with
  | none => some (insert key (.table .header []) ms)
  | some (.table .path inner) =>
      some (insert key (.table .header inner) (erase key ms))
  | some _ => none

/-- Adds an element to an array of tables. -/
def openElement (key : String) (_ : Origin) (ms : Members) : Option Members :=
  match get? key ms with
  | none => some (insert key (.tables [[]]) ms)
  | some (.tables elements) => some (replace key (.tables ([] :: elements)) ms)
  | some _ => none

end Members

mutual

/-- The value that an item stands for. -/
def Item.toValue : Item → Value
  | .value v => v
  | .table _ ms => .map (membersValues ms)
  | .tables elements => .list (elementValues elements).reverse

/-- The values of the members of a table. -/
def membersValues : List (String × Item) → List (String × Value)
  | [] => []
  | (key, item) :: rest => (key, item.toValue) :: membersValues rest

/-- The values of the elements of an array of tables. -/
def elementValues : List (List (String × Item)) → List Value
  | [] => []
  | ms :: rest => .map (membersValues ms) :: elementValues rest

end

end Classpath.Toml
