import Classpath.Document.Reading
import Classpath.Json.Number
import Classpath.Json.Quoted

/-! # Reading JSON — from text to document

    Reading never fails as a whole: what has been read before a fault is
    kept, and the fault becomes a flaw in the document.  `decode` reads data
    from a text and so reports the fault that stands first. -/

namespace Classpath.Json

open Document

/-- Whether a character may stand between the tokens. -/
def isGap (c : Char) : Bool :=
  c == ' ' || c == '\n' || c == '\t' || c == '\r'

/-- The text from its next token on. -/
def skipGap (s : List Char) : List Char := s.dropWhile isGap

/-- How deep arrays and objects may be nested. -/
def deepest : Nat := 127

/-- What was read, and the text after it unless that is lost. -/
abbrev Scan (α : Type) := α × Option (List Char)

/-- The value that has this word for it. -/
def scanWord (word : String) (v : Value) (s : List Char) : Scan Value :=
  if word.toList.isPrefixOf s then (v, some (s.drop word.length))
  else (.flawed .broken, none)

/-- A number. -/
def scanNumeric (s : List Char) : Scan Value :=
  match scanNumber s with
  | some (n, rest) => (n.value, some rest)
  | none => (.flawed .broken, none)

/-- A text, after its opening quote. -/
def scanText (s : List Char) : Scan Value :=
  match scanQuoted s with
  | some (pieces, rest) =>
      match joinPieces pieces with
      | some cs => (.string (String.ofList cs), some rest)
      | none => (.flawed .obscure, some rest)
  | none => (.flawed .broken, none)

/-- A value that holds others; too deep inside others it cannot be read. -/
def bounded (depth : Nat) (v : Scan Value) : Scan Value :=
  if depth < deepest then v
  else match v with
    | (_, some rest) => (.flawed .obscure, some rest)
    | (_, none) => (.flawed .broken, none)

/-- Several values, and the flaw after them. -/
abbrev Several (α : Type) := Scan (List α × Option Flaw)

/-- Nothing more, because the text is broken. -/
def lost {α : Type} : Several α := (([], some .broken), none)

/-- One more value in front of several. -/
def Several.cons {α : Type} (a : α) : Several α → Several α
  | ((rest, flaw), s) => ((a :: rest, flaw), s)

/-- A name that cannot be read hides all members after it. -/
def Several.hide {α : Type} : Several α → Several α
  | ((_, some .broken), s) => (([], some .broken), s)
  | (_, s) => (([], some .obscure), s)

mutual

/-- The value at the front of a text.  `room` bounds the steps taken. -/
def scanValue (room depth : Nat) (s : List Char) : Scan Value :=
  match room with
  | 0 => (.flawed .broken, none)
  | room + 1 =>
      match s with
      | '"' :: rest => scanText rest
      | '[' :: rest =>
          let ((items, flaw), rest) :=
            match skipGap rest with
            | ']' :: rest => (([], none), some rest)
            | rest => scanItems room (depth + 1) rest
          bounded depth (.array items flaw, rest)
      | '\x7b' :: rest =>
          let ((members, flaw), rest) :=
            match skipGap rest with
            | '\x7d' :: rest => (([], none), some rest)
            | rest => scanMembers room (depth + 1) rest
          bounded depth (.object members flaw, rest)
      | 'n' :: _ => scanWord "null" .null s
      | 't' :: _ => scanWord "true" (.bool true) s
      | 'f' :: _ => scanWord "false" (.bool false) s
      | s => scanNumeric s

/-- The items of an array from a value on. -/
def scanItems (room depth : Nat) (s : List Char) : Several Value :=
  match room with
  | 0 => lost
  | room + 1 =>
      match scanValue room depth s with
      | (v, none) => lost.cons v
      | (v, some rest) =>
          let others : Several Value :=
            match skipGap rest with
            | ',' :: rest => scanItems room depth (skipGap rest)
            | ']' :: rest => (([], none), some rest)
            | _ => lost
          others.cons v

/-- The members of an object from a name on. -/
def scanMembers (room depth : Nat) (s : List Char) : Several (String × Value) :=
  match room with
  | 0 => lost
  | room + 1 =>
      match s with
      | '"' :: s =>
          match scanText s with
          | (name, some rest) =>
              let (v, rest) :=
                match skipGap rest with
                | ':' :: rest => scanValue room depth (skipGap rest)
                | _ => (.flawed .broken, none)
              let others : Several (String × Value) :=
                match rest.map skipGap with
                | some (',' :: rest) => scanMembers room depth (skipGap rest)
                | some ('\x7d' :: rest) => (([], none), some rest)
                | _ => lost
              match name with
              | .string name => others.cons (name, v)
              | _ => others.hide
          | (_, none) => lost
      | _ => lost

end

/-- The value of a text, and whether nothing follows it. -/
def read (text : String) : Value × Bool :=
  let s := text.toList
  let (v, rest) := scanValue (2 * s.length + 2) 0 (skipGap s)
  (v, (rest.map skipGap) == some [])

/-- Reads data from a text. -/
def decode {α : Type} (reader : Reader α) (text : String) :
    Except ReadFault α := do
  let (v, complete) := read text
  let a ← reader .json v
  if complete then pure a else .error .malformed

end Classpath.Json
