import Classpath.Text.Escapes

/-! # JSON texts — escapes and what they stand for

    Reading a quoted text has two steps.  The first finds its end and needs
    only the form of the escapes.  The second joins the escapes for the two
    halves of a character and fails at a half that stands alone. -/

namespace Classpath.Json

open Text

/-- One step of a quoted text: a character, or a number written in base
    sixteen that may be one half of a character. -/
inductive Piece where
  | char (c : Char)
  | number (n : Nat)
  deriving DecidableEq, Repr

/-- The character that a short escape stands for. -/
def shortEscape? : Char → Option Char
  | '"' => some '"'
  | '\\' => some '\\'
  | '/' => some '/'
  | 'b' => some '\x08'
  | 'f' => some '\x0c'
  | 'n' => some '\n'
  | 'r' => some '\r'
  | 't' => some '\t'
  | _ => none

/-- The pieces of a text up to the closing quote, and what follows it. -/
def scanQuoted : List Char → Option (List Piece × List Char)
  | [] => none
  | '"' :: rest => some ([], rest)
  | '\\' :: 'u' :: a :: b :: c :: d :: rest => do
      let n ← hexNumber? [a, b, c, d]
      let (pieces, rest) ← scanQuoted rest
      pure (.number n :: pieces, rest)
  | '\\' :: c :: rest => do
      let e ← shortEscape? c
      let (pieces, rest) ← scanQuoted rest
      pure (.char e :: pieces, rest)
  | c :: rest =>
      if c = '\\' ∨ c < ' ' then none
      else do
        let (pieces, rest) ← scanQuoted rest
        pure (.char c :: pieces, rest)

/-- Whether a number is the first half of a character. -/
def isFirstHalf (n : Nat) : Bool := 0xD800 ≤ n && n < 0xDC00

/-- Whether a number is the second half of a character. -/
def isSecondHalf (n : Nat) : Bool := 0xDC00 ≤ n && n < 0xE000

/-- The characters of the pieces, unless a half stands alone. -/
def joinPieces : List Piece → Option (List Char)
  | [] => some []
  | .char c :: rest => (joinPieces rest).map (c :: ·)
  | .number n :: rest =>
      if isFirstHalf n then
        match rest with
        | .number m :: rest =>
            if isSecondHalf m then
              (joinPieces rest).map
                (Char.ofNat (0x10000 + (n - 0xD800) * 0x400 + (m - 0xDC00)) :: ·)
            else none
        | _ => none
      else if isSecondHalf n then none
      else (joinPieces rest).map (Char.ofNat n :: ·)

/-- One character of a quoted text as it is written. -/
def escape (c : Char) : List Char :=
  match c with
  | '"' => ['\\', '"']
  | '\\' => ['\\', '\\']
  | '\x08' => ['\\', 'b']
  | '\x0c' => ['\\', 'f']
  | '\n' => ['\\', 'n']
  | '\r' => ['\\', 'r']
  | '\t' => ['\\', 't']
  | c =>
      if c < ' ' then
        '\\' :: 'u' :: '0' :: '0' :: hexPair c.toNat
      else [c]

/-- A text between quotes. -/
def quote (s : String) : String :=
  String.ofList ('"' :: s.toList.flatMap escape ++ ['"'])

end Classpath.Json
