import Classpath.Document.Reading
import Classpath.Toml.Moment
import Classpath.Toml.Number
import Classpath.Toml.Table

/-! # Reading TOML — from text to document

    A text is first read as a list of statements, each on a line of its own
    but for values that span lines; the statements then define the tables
    of the document, one after the other.  A text in which either fails is
    no document at all, so faults of form are found before all others. -/

namespace Classpath.Toml

open Document

/-! ## Lines and keys -/

/-- The text after a comment, if there is one. -/
def skipComment : List Char → List Char
  | '#' :: rest => rest.dropWhile isOnLine
  | s => s

/-- The text after the end of a line, on which nothing but a comment may
    stand. -/
def endLine? (s : List Char) : Option (List Char) :=
  match skipComment (skipGap s) with
  | [] => some []
  | s => afterBreak? s

/-- The text after blanks, line breaks and comments.  `comment` tells
    whether the text stands in a comment. -/
def skipVoid (comment : Bool) : List Char → List Char
  | '\r' :: '\n' :: rest => skipVoid false rest
  | '\n' :: rest => skipVoid false rest
  | c :: rest =>
      if comment then if isOnLine c then skipVoid true rest else c :: rest
      else if isGap c then skipVoid false rest
      else if c = '#' then skipVoid true rest
      else c :: rest
  | [] => []

/-- Whether a character may stand in a key without quotes. -/
def isBare (c : Char) : Bool := c.isAlphanum || c == '_' || c == '-'

/-- How deep arrays and inline tables may be nested, and how many parts a
    key may have. -/
def deepest : Nat := 79

/-- One part of a key. -/
def scanPart : List Char → Scan String
  | '"' :: rest => (scanBasic rest).map fun (cs, rest) => (String.ofList cs, rest)
  | '\x27' :: rest =>
      (scanLiteral rest).map fun (cs, rest) => (String.ofList cs, rest)
  | s =>
      let bare := s.takeWhile isBare
      if bare.isEmpty then none
      else some (String.ofList bare, s.drop bare.length)

/-- The parts of a key, separated by dots, and the text after the blanks
    behind it. -/
def scanParts (room : Nat) (s : List Char) : Option (List String × List Char) :=
  match room with
  | 0 => none
  | room + 1 => do
      let (part, s) ← scanPart (skipGap s)
      match skipGap s with
      | '.' :: s =>
          let (parts, s) ← scanParts room s
          pure (part :: parts, s)
      | s => pure ([part], s)

/-- A key: the path that leads to it, and its last part. -/
structure Key where
  path : List String
  last : String
  deriving DecidableEq, Repr

/-- The key at the front of a text. -/
def scanKey (s : List Char) : Option (Key × List Char) := do
  let (parts, s) ← scanParts deepest s
  let last ← parts.getLast?
  pure (⟨parts.dropLast, last⟩, s)

/-! ## Values -/

/-- Gives a key its value in a table. -/
def Key.define (k : Key) (v : Value) : Origin → Members → Option Members :=
  Members.alter true (Members.define k.path.isEmpty k.last v) k.path

/-- The value that has this word for it. -/
def scanWord (word : String) (v : Value) (s : List Char) : Scan Value :=
  if word.toList.isPrefixOf s then some (v, s.drop word.length) else none

/-- A moment or a number. -/
def scanUnquoted (s : List Char) : Scan Value :=
  match scanMoment s with
  | some (m, rest) => some (.moment m.show, rest)
  | none => scanNumber s

mutual

/-- The value at the front of a text.  `room` bounds the steps taken. -/
def scanValue (room depth : Nat) (s : List Char) : Option (Value × List Char) :=
  match room with
  | 0 => none
  | room + 1 =>
      match s with
      | '[' :: rest =>
          if deepest ≤ depth then none
          else match skipVoid false rest with
            | ']' :: rest => some (.list [], rest)
            | rest => do
                let (items, rest) ← scanItems room (depth + 1) rest
                pure (.list items, rest)
      | '\x7b' :: rest =>
          if deepest ≤ depth then none
          else match skipGap rest with
            | '\x7d' :: rest => some (.map [], rest)
            | rest => do
                let (ms, rest) ← scanPairs room (depth + 1) [] rest
                pure (.map (membersValues ms), rest)
      | 't' :: _ => scanWord "true" (.bool true) s
      | 'f' :: _ => scanWord "false" (.bool false) s
      | c :: _ =>
          if c = '"' ∨ c = '\x27' then
            (scanText s).map fun (cs, rest) => (.string (String.ofList cs), rest)
          else scanUnquoted s
      | [] => none

/-- The items of an array from a value on. -/
def scanItems (room depth : Nat) (s : List Char) :
    Option (List Value × List Char) :=
  match room with
  | 0 => none
  | room + 1 => do
      let (v, s) ← scanValue room depth s
      match skipVoid false s with
      | ']' :: s => pure ([v], s)
      | ',' :: s =>
          match skipVoid false s with
          | ']' :: s => pure ([v], s)
          | s =>
              let (rest, s) ← scanItems room depth s
              pure (v :: rest, s)
      | _ => none

/-- The members of an inline table from a key on, added to those before. -/
def scanPairs (room depth : Nat) (before : Members) (s : List Char) :
    Option (Members × List Char) :=
  match room with
  | 0 => none
  | room + 1 => do
      let (key, s) ← scanKey s
      let s ← scanChar '=' s
      let (v, s) ← scanValue room depth (skipGap s)
      let ms ← key.define v .header before
      match skipGap s with
      | '\x7d' :: s => pure (ms, s)
      | ',' :: s => scanPairs room depth ms s
      | _ => none

end

/-! ## Documents -/

/-- What one line of a document says. -/
inductive Statement where
  | table (key : Key)
  | element (key : Key)
  | entry (key : Key) (v : Value)
  deriving Repr

/-- The statement at the front of a text. -/
def scanStatement (s : List Char) : Option (Statement × List Char) :=
  match s with
  | '[' :: '[' :: s => do
      let (key, s) ← scanKey s
      let s ← scanChar ']' s
      let s ← scanChar ']' s
      pure (.element key, s)
  | '[' :: s => do
      let (key, s) ← scanKey s
      let s ← scanChar ']' s
      pure (.table key, s)
  | s => do
      let (key, s) ← scanKey s
      let s ← scanChar '=' s
      let (v, s) ← scanValue (2 * s.length + 2) 0 (skipGap s)
      pure (.entry key v, s)

/-- All statements of a text. -/
def scanStatements (room : Nat) (s : List Char) : Option (List Statement) :=
  match room, s with
  | 0, _ => none
  | _, [] => some []
  | room + 1, s =>
      match endLine? s with
      | some s => scanStatements room s
      | none => do
          let (first, s) ← scanStatement (skipGap s)
          let rest ← scanStatements room (← endLine? s)
          pure (first :: rest)

/-- A document while it is being read: its tables, and the path to the one
    whose header was last. -/
structure Draft where
  root : Members := []
  current : List String := []

/-- Carries out one statement. -/
def Draft.perform (d : Draft) : Statement → Option Draft
  | .table key => do
      let root ← Members.alter false (Members.openTable key.last) key.path
        .header d.root
      pure ⟨root, key.path ++ [key.last]⟩
  | .element key => do
      let root ← Members.alter false (Members.openElement key.last) key.path
        .header d.root
      pure ⟨root, key.path ++ [key.last]⟩
  | .entry key v => do
      let root ← Members.alter false (key.define v) d.current .header d.root
      pure ⟨root, d.current⟩

/-- The text without a byte order mark at its front. -/
def skipMark : List Char → List Char
  | '\uFEFF' :: s => s
  | s => s

/-- The document that a text holds. -/
def read? (text : String) : Option Value := do
  let s := skipMark text.toList
  let statements ← scanStatements (s.length + 1) s
  let d ← statements.foldlM Draft.perform {}
  pure (.map (membersValues d.root))

/-- Reads data from a text. -/
def decode {α : Type} (reader : Reader α) (text : String) : Except ReadFault α :=
  match read? text with
  | some v => reader .toml v
  | none => .error .malformed

end Classpath.Toml
