import Classpath.Decimal.Shortest
import Classpath.Document.Value
import Classpath.Toml.Quoted

/-! # TOML numbers

    Digits may be parted by single underscores.  An integer needs room in 64
    bits with a sign; it may also be written in base sixteen, eight or two.
    A number with a fraction or an exponent is the nearest binary number,
    and so one that is too small to be told from zero is zero. -/

namespace Classpath.Toml

open Document Decimal

/-- How binary numbers are shown. -/
def numberStyle : Style := ⟨none, .up⟩

/-- Digits after the first one, each of them perhaps after an underscore. -/
def scanMoreDigits (isDigit : Char → Bool) : List Char → List Char × List Char
  | [] => ([], [])
  | [c] => if isDigit c then ([c], []) else ([], [c])
  | c :: d :: rest =>
      if isDigit c then
        let (more, after) := scanMoreDigits isDigit (d :: rest)
        (c :: more, after)
      else if c = '_' ∧ isDigit d then
        let (more, after) := scanMoreDigits isDigit rest
        (d :: more, after)
      else ([], c :: d :: rest)

/-- At least one digit. -/
def scanDigits (isDigit : Char → Bool) : List Char → Scan (List Char)
  | c :: rest =>
      if isDigit c then
        let (more, after) := scanMoreDigits isDigit rest
        some (c :: more, after)
      else none
  | [] => none

/-- The digits of a number, of which the first is zero only if it is the
    only one. -/
def scanWhole : List Char → Scan (List Char)
  | '0' :: rest => some (['0'], rest)
  | s => scanDigits Char.isDigit s

/-- A sign, or nothing. -/
def scanSign : List Char → Bool × List Char
  | '-' :: rest => (true, rest)
  | '+' :: rest => (false, rest)
  | s => (false, s)

/-- The number that digits are written for. -/
def ofDigits (base : Nat) (digits : List Char) : Nat :=
  digits.foldl (fun n c => base * n + (Text.hexValue? c).getD 0) 0

/-- An integer, if there is room for it. -/
def integer? (negative : Bool) (n : Nat) : Option Value :=
  if negative then if n ≤ 1 <<< 63 then some (.integer (-n)) else none
  else if n < 1 <<< 63 then some (.integer n) else none

/-- A number with a fraction or an exponent.  One that is too large is no
    number, but one that is too small in the negative is minus infinity. -/
def decimal? (negative : Bool) (whole fraction : List Char) (power : Int) :
    Option Value :=
  match Binary.ofDecimal (ofDigits 10 (whole ++ fraction))
      (power - fraction.length) with
  | some b => some (.decimal (b.show numberStyle negative))
  | none => if negative then some (.decimal "-inf") else none

/-- A point and digits, or nothing. -/
def scanFraction : List Char → List Char × List Char
  | '.' :: rest => (scanDigits Char.isDigit rest).getD ([], '.' :: rest)
  | s => ([], s)

/-- An exponent, or nothing. -/
def scanExponent (s : List Char) : Option Int × List Char :=
  match s with
  | c :: rest =>
      if c = 'e' ∨ c = 'E' then
        let (negative, rest) := scanSign rest
        match scanDigits Char.isDigit rest with
        | some (digits, rest) =>
            let n : Int := ofDigits 10 digits
            (some (if negative then -n else n), rest)
        | none => (none, s)
      else (none, s)
  | [] => (none, s)

/-- A number in base ten. -/
def scanDecimal (s : List Char) : Option (Value × List Char) := do
  let (negative, s) := scanSign s
  let (whole, s) ← scanWhole s
  let (fraction, s) := scanFraction s
  let (power, s) := scanExponent s
  let v ←
    if fraction.isEmpty ∧ power.isNone then integer? negative (ofDigits 10 whole)
    else decimal? negative whole fraction (power.getD 0)
  pure (v, s)

/-- Whether a character is a digit in this base. -/
def isDigitIn (base : Nat) (c : Char) : Bool :=
  match Text.hexValue? c with
  | some n => n < base
  | none => false

/-- An integer in another base. -/
def scanInBase (base : Nat) (s : List Char) : Option (Value × List Char) := do
  let (digits, s) ← scanDigits (isDigitIn base) s
  let v ← integer? false (ofDigits base digits)
  pure (v, s)

/-- What stands for a number without having digits. -/
def scanSpecial (s : List Char) : Scan Value :=
  let (negative, rest) := scanSign s
  match rest with
  | 'i' :: 'n' :: 'f' :: rest =>
      some (.decimal (if negative then "-inf" else "inf"), rest)
  | 'n' :: 'a' :: 'n' :: rest => some (.decimal "NaN", rest)
  | _ => none

/-- A number at the front of a text. -/
def scanNumber (s : List Char) : Scan Value :=
  match s with
  | '0' :: 'x' :: rest => scanInBase 16 rest
  | '0' :: 'o' :: rest => scanInBase 8 rest
  | '0' :: 'b' :: rest => scanInBase 2 rest
  | s => (scanSpecial s).or (scanDecimal s)

end Classpath.Toml
