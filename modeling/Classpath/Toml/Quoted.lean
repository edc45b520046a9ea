import Classpath.Text.Escapes

/-! # TOML texts — the four ways to quote

    A basic text has escapes and a literal one has none; each of them ends
    on its line, or is long and ends with three quotes.  Up to two quotes
    may stand before the three that end a long text and belong to it.  The
    line breaks of a long text are single line feeds once it is read. -/

namespace Classpath.Toml

open Text

/-- What was read, and the text after it. -/
abbrev Scan (α : Type) := Option (α × List Char)

/-- A character in front of a text that was read. -/
def Scan.cons (s : Scan (List Char)) (c : Char) : Scan (List Char) :=
  s.map fun (cs, rest) => (c :: cs, rest)

/-- The character of an escape, if there is one, in front of a text. -/
def Scan.escaped (s : Scan (List Char)) (c : Option Char) : Scan (List Char) :=
  c.bind fun c => s.cons c

/-- Whether a character may stand on a line: a tab, or one that is no
    control character. -/
def isOnLine (c : Char) : Bool := c == '\t' || (' ' ≤ c && c ≠ '\x7f')

/-- The text after a line break. -/
def afterBreak? : List Char → Option (List Char)
  | '\n' :: rest => some rest
  | '\r' :: '\n' :: rest => some rest
  | _ => none

/-- Whether a character is a blank of a line. -/
def isGap (c : Char) : Bool := c == ' ' || c == '\t'

/-- The text from the next character on that is no blank. -/
def skipGap (s : List Char) : List Char := s.dropWhile isGap

/-! ## Escapes -/

/-- The character with the number that is written in base sixteen. -/
def hexChar? (digits : List Char) : Option Char := do
  let n ← hexNumber? digits
  if n < 0xD800 ∨ (0xDFFF < n ∧ n < 0x110000) then some (Char.ofNat n) else none

/-- The character that a short escape stands for. -/
def shortEscape? : Char → Option Char
  | 'b' => some '\x08'
  | 'f' => some '\x0c'
  | 'n' => some '\n'
  | 'r' => some '\r'
  | 't' => some '\t'
  | '"' => some '"'
  | '\\' => some '\\'
  | _ => none

/-! ## Reading -/

/-- A basic text after its opening quote. -/
def scanBasic : List Char → Scan (List Char)
  | '"' :: rest => some ([], rest)
  | '\\' :: 'u' :: a :: b :: c :: d :: rest =>
      (scanBasic rest).escaped (hexChar? [a, b, c, d])
  | '\\' :: 'U' :: a :: b :: c :: d :: e :: f :: g :: h :: rest =>
      (scanBasic rest).escaped (hexChar? [a, b, c, d, e, f, g, h])
  | '\\' :: c :: rest =>
      (scanBasic rest).escaped (shortEscape? c)
  | c :: rest =>
      if isOnLine c ∧ c ≠ '\\' then (scanBasic rest).cons c else none
  | [] => none

/-- A literal text after its opening quote. -/
def scanLiteral : List Char → Scan (List Char)
  | '\x27' :: rest => some ([], rest)
  | c :: rest => if isOnLine c then (scanLiteral rest).cons c else none
  | [] => none

/-- Whether a backslash before this text joins its line with the next one. -/
def joinsLines (s : List Char) : Bool := (afterBreak? (skipGap s)).isSome

/-- A long basic text.  After a backslash at the end of a line, blanks and
    line breaks are left out up to the next other character; `joining` says
    whether that is where the text stands. -/
def scanLongBasic (joining : Bool) : List Char → Scan (List Char)
  | '"' :: '"' :: '"' :: '"' :: '"' :: rest => some (['"', '"'], rest)
  | '"' :: '"' :: '"' :: '"' :: rest => some (['"'], rest)
  | '"' :: '"' :: '"' :: rest => some ([], rest)
  | '\\' :: 'u' :: a :: b :: c :: d :: rest =>
      (scanLongBasic false rest).escaped (hexChar? [a, b, c, d])
  | '\\' :: 'U' :: a :: b :: c :: d :: e :: f :: g :: h :: rest =>
      (scanLongBasic false rest).escaped (hexChar? [a, b, c, d, e, f, g, h])
  | '\\' :: '\r' :: '\n' :: rest => scanLongBasic true rest
  | '\\' :: c :: rest =>
      if joinsLines (c :: rest) then scanLongBasic true rest
      else (scanLongBasic false rest).escaped (shortEscape? c)
  | '\r' :: '\n' :: rest =>
      if joining then scanLongBasic true rest
      else (scanLongBasic false rest).cons '\n'
  | c :: rest =>
      if joining ∧ (isGap c ∨ c = '\n') then scanLongBasic true rest
      else if c = '\n' ∨ (isOnLine c ∧ c ≠ '\\') then
        (scanLongBasic false rest).cons c
      else none
  | [] => none

/-- A long literal text. -/
def scanLongLiteral : List Char → Scan (List Char)
  | '\x27' :: '\x27' :: '\x27' :: '\x27' :: '\x27' :: rest => some (['\x27', '\x27'], rest)
  | '\x27' :: '\x27' :: '\x27' :: '\x27' :: rest => some (['\x27'], rest)
  | '\x27' :: '\x27' :: '\x27' :: rest => some ([], rest)
  | '\r' :: '\n' :: rest => (scanLongLiteral rest).cons '\n'
  | c :: rest =>
      if c = '\n' ∨ isOnLine c then (scanLongLiteral rest).cons c else none
  | [] => none

/-- A line break right after the opening quotes of a long text does not
    belong to it. -/
def skipFirstBreak (s : List Char) : List Char := (afterBreak? s).getD s

/-- A quoted text of any kind, from its opening quote on. -/
def scanText : List Char → Scan (List Char)
  | '"' :: '"' :: '"' :: rest => scanLongBasic false (skipFirstBreak rest)
  | '\x27' :: '\x27' :: '\x27' :: rest => scanLongLiteral (skipFirstBreak rest)
  | '"' :: rest => scanBasic rest
  | '\x27' :: rest => scanLiteral rest
  | _ => none

end Classpath.Toml
