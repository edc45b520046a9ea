import Classpath.Document.Value
import Classpath.Text.Escapes

/-! # Writing TOML — from document to text

    The values of a table come first, then the tables within it, each with
    a header of its own and an empty line before it.  A table that only
    holds other tables goes without a header.  Texts are quoted in the
    simplest way that needs no escape; if every way needs one, a basic text
    is written. -/

namespace Classpath.Toml

open Document Text

/-! ## Texts -/

/-- Whether a text must not hold a character as it is: a control character
    other than a tab or a line feed. -/
def isControl (c : Char) : Bool :=
  (c < ' ' && c ≠ '\t' && c ≠ '\n') || c == '\x7f'

/-- Whether a character is repeated three times in a row somewhere. -/
def hasTriple (q : Char) : List Char → Bool
  | a :: b :: c :: rest =>
      (a == q && b == q && c == q) || hasTriple q (b :: c :: rest)
  | _ => false

/-- A character other than a quote in a basic text. -/
def escape (long : Bool) (c : Char) : List Char :=
  match c with
  | '\x08' => ['\\', 'b']
  | '\t' => ['\\', 't']
  | '\x0c' => ['\\', 'f']
  | '\r' => ['\\', 'r']
  | '\\' => ['\\', '\\']
  | '\n' => if long then ['\n'] else ['\\', 'n']
  | c =>
      if isControl c then
        '\\' :: 'u' :: '0' :: '0' :: (hexPair c.toNat).map Char.toUpper
      else [c]

/-- The characters of a basic text.  A quote is escaped, in a long text only
    if it would be the third in a row; `quotes` counts those before it. -/
def escapeAll (long : Bool) (quotes : Nat) : List Char → List Char
  | [] => []
  | '"' :: rest =>
      if long ∧ quotes < 2 then '"' :: escapeAll long (quotes + 1) rest
      else '\\' :: '"' :: escapeAll long 0 rest
  | c :: rest => escape long c ++ escapeAll long 0 rest

/-- A text between quotes.  Three quotes make it a long one, and a long text
    of several lines starts on a line of its own. -/
def between (quotes : List Char) (s : List Char) (inner : List Char) :
    List Char :=
  let start := if quotes.length = 3 ∧ s.contains '\n' then ['\n'] else []
  quotes ++ start ++ inner ++ quotes

/-- A basic text on one line. -/
def basic (s : List Char) : List Char := between ['"'] s (escapeAll false 0 s)

/-- A literal text on one line. -/
def literal (s : List Char) : List Char := between ['\x27'] s s

/-- A text, quoted in the first way that fits. -/
def quote (s : List Char) : List Char :=
  let clean := !s.any isControl
  let oneLine := !s.contains '\n'
  let long := ['"', '"', '"']
  if clean ∧ oneLine ∧ !s.contains '\\' ∧ !s.contains '"' then basic s
  else if clean ∧ oneLine ∧ !s.contains '\x27' then literal s
  else if clean ∧ !s.contains '\\' ∧ !hasTriple '"' s then
    between long s (escapeAll true 0 s)
  else if clean ∧ !hasTriple '\x27' s then
    between ['\x27', '\x27', '\x27'] s s
  else if oneLine then basic s
  else between long s (escapeAll true 0 s)

/-- A key, without quotes if it needs none. -/
def quoteKey (s : List Char) : List Char :=
  let clean := !s.any isControl && !s.contains '\n'
  let plain := !s.contains '\\' && !s.contains '"'
  if !s.isEmpty ∧ s.all (fun c => c.isAlphanum || c == '_' || c == '-') then s
  else if clean ∧ !plain ∧ !s.contains '\x27' then literal s
  else basic s

/-! ## Values -/

/-- Written items between brackets, on a line each if there are several and
    the text is to be pretty. -/
def bracketed (pretty : Bool) (items : List String) : String :=
  if pretty ∧ 2 ≤ items.length then
    "[\n" ++ String.join (items.map fun item => "    " ++ item ++ ",\n") ++ "]"
  else "[" ++ ", ".intercalate items ++ "]"

/-- Written members between braces. -/
def braced (members : List String) : String :=
  let text :=
    if members.isEmpty then [] else " ".toList ++ (", ".intercalate members).toList
      ++ " ".toList
  String.ofList ('\x7b' :: text ++ ['\x7d'])

mutual

/-- A value on the right of a key. -/
def writeValue (pretty : Bool) : Value → String
  | .null | .flawed _ => ""
  | .bool b => toString b
  | .integer n => toString n
  | .decimal shown | .moment shown => shown
  | .string s => String.ofList (quote s.toList)
  | .array items _ => bracketed pretty (writeValues pretty items)
  | .object members _ => braced (writePairs pretty members)

/-- The items of an array. -/
def writeValues (pretty : Bool) : List Value → List String
  | [] => []
  | v :: rest => writeValue pretty v :: writeValues pretty rest

/-- The members of an inline table. -/
def writePairs (pretty : Bool) : List (String × Value) → List String
  | [] => []
  | (name, v) :: rest =>
      (String.ofList (quoteKey name.toList) ++ " = " ++ writeValue pretty v)
        :: writePairs pretty rest

end

/-! ## Tables -/

/-- Whether a value is an object. -/
def isTable : Value → Bool
  | .object _ _ => true
  | _ => false

/-- Whether a member is written on the line of its key, and not as a table or
    an array of tables. -/
def isDirect : Value → Bool
  | .object _ _ => false
  | .array items _ => items.isEmpty || !items.all isTable
  | .null | .flawed _ => false
  | _ => true

/-- The members of a table that are written on the line of their key. -/
def writeLines (pretty : Bool) : List (String × Value) → String
  | [] => ""
  | (name, v) :: rest =>
      if isDirect v then
        String.ofList (quoteKey name.toList) ++ " = " ++ writeValue pretty v
          ++ "\n" ++ writeLines pretty rest
      else writeLines pretty rest

/-- A key at the end of a path. -/
def extend (path name : String) : String :=
  let key := String.ofList (quoteKey name.toList)
  if path = "" then key else path ++ "." ++ key

/-- A table at a path without the tables within it; nothing if it has only
    those. -/
def writeHead (pretty : Bool) (path : String)
    (members : List (String × Value)) : List String :=
  if members.isEmpty ∨ members.any (fun m => isDirect m.2) then
    ["[" ++ path ++ "]\n" ++ writeLines pretty members]
  else []

mutual

/-- The tables within a table, each with those within it. -/
def writeTables (pretty : Bool) (path : String) :
    List (String × Value) → List String
  | [] => []
  | (name, v) :: rest =>
      writeTable pretty (extend path name) v ++ writeTables pretty path rest

/-- A member of a table, if it is not on the line of its key. -/
def writeTable (pretty : Bool) (path : String) : Value → List String
  | .object members _ =>
      writeHead pretty path members ++ writeTables pretty path members
  | .array items _ =>
      if items.isEmpty || !items.all isTable then []
      else writeElements pretty path items
  | _ => []

/-- The elements of an array of tables. -/
def writeElements (pretty : Bool) (path : String) : List Value → List String
  | [] => []
  | .object members _ :: rest =>
      ("[[" ++ path ++ "]]\n" ++ writeLines pretty members)
        :: writeTables pretty path members ++ writeElements pretty path rest
  | _ :: rest => writeElements pretty path rest

end

/-- The text of a document, which has to be an object. -/
def write (pretty : Bool) : Value → String
  | .object members _ =>
      let head := writeLines pretty members
      let tables := writeTables pretty "" members
      "\n".intercalate (if head = "" then tables else head :: tables)
  | _ => ""

end Classpath.Toml
