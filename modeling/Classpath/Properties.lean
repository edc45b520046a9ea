import Classpath.Coordinate
import Classpath.Mark

/-! # Properties — a line-based list of keys and values

    The text is first put together into logical lines: blank lines and
    comments are passed over, and a line that ends in a backslash goes on
    with the next one.  Each logical line is then cut into a key and a
    value.  A later entry for a key replaces an earlier one. -/

namespace Classpath

open Text

/-- The entries of a properties text. -/
abbrev Properties := TextMap String

namespace Properties

/-- Whether a trimmed line holds no entry. -/
def isPassedOver : List Char → Bool
  | [] => true
  | c :: _ => c == '#' || c == '!'

/-- Joins physical lines into logical ones.  `pending` is the logical line
    whose last backslash asked for more, without that backslash; the end of
    the text ends it. -/
def logicalLines : Option (List Char) → List (List Char) → List (List Char)
  | none, [] => []
  | some text, [] => [text]
  | none, line :: rest =>
      let text := trim line
      if isPassedOver text then logicalLines none rest
      else if text.getLast? = some '\\' then
        logicalLines (some text.dropLast) rest
      else text :: logicalLines none rest
  | some before, line :: rest =>
      let text := before ++ trim line
      if text.getLast? = some '\\' then
        logicalLines (some text.dropLast) rest
      else text :: logicalLines none rest

/-- What follows a blank character after a key: more blank characters and at
    most one separator belong to the gap, the rest is the value. -/
def afterGap (s : List Char) : List Char :=
  match trimStart s with
  | c :: rest => if c = '=' ∨ c = ':' then trimStart rest else c :: rest
  | [] => []

/-- Cuts a logical line into its key and the rest.  The key ends at the
    first `=`, `:` or blank character that has no backslash before it; a
    backslash stands for the character after it. -/
def cut : List Char → List Char × List Char
  | [] => ([], [])
  | ['\\'] => ([], [])
  | '\\' :: c :: rest =>
      let (key, value) := cut rest
      (c :: key, value)
  | c :: rest =>
      if c = '=' ∨ c = ':' then ([], trimStart rest)
      else if isBlank c then ([], afterGap rest)
      else
        let (key, value) := cut rest
        (c :: key, value)

/-- The entry that a logical line holds. -/
def entry (line : List Char) : String × String :=
  let (key, value) := cut line
  (String.ofList key, String.ofList (trim value))

/-- The entries of a text in the order in which they stand there. -/
def entries (text : String) : List (String × String) :=
  (logicalLines none (lines text.toList)).map entry

/-- Reads a properties text. -/
def parse (text : String) : Properties :=
  (entries text).foldl (fun p e => p.insert e.1 e.2) ∅

/-- Whether an extension says anything about marks. -/
def hasMarks (p : Properties) : Bool :=
  Mark.fromExtensions.any fun m => p.contains m.property

end Properties

end Classpath
