import Classpath.Decimal.Shortest
import Classpath.Document.Value

/-! # JSON numbers

    A number without a fraction or an exponent is an integer if it has room
    in 64 bits, with or without a sign.  All others are binary numbers.
    Their digits are taken in as long as the significand has room in 64
    bits, and what remains only counts towards the power of ten. -/

namespace Classpath.Json

open Document Decimal

/-- How binary numbers are shown. -/
def numberStyle : Style := ⟨some (-4, 16), .even⟩

/-- A number as it is written. -/
structure Number where
  negative : Bool
  whole : List Nat
  /-- The digits after the point, if there is one. -/
  fraction : Option (List Nat)
  exponent : Option Int
  deriving Repr

/-- The digits at the front of a text, and what follows them. -/
def digits (s : List Char) : List Nat × List Char :=
  ((s.takeWhile Char.isDigit).map fun c => c.toNat - '0'.toNat,
    s.dropWhile Char.isDigit)

/-- The number that digits are written for. -/
def ofDigits (ds : List Nat) : Nat :=
  ds.foldl (fun n d => 10 * n + d) 0

/-- A point and digits, or nothing. -/
def scanFraction : List Char → Option (Option (List Nat) × List Char)
  | '.' :: s =>
      match digits s with
      | ([], _) => none
      | (ds, rest) => some (some ds, rest)
  | s => some (none, s)

/-- The digits of an exponent. -/
def scanPower (negative : Bool) (s : List Char) :
    Option (Option Int × List Char) :=
  match digits s with
  | ([], _) => none
  | (ds, rest) =>
      some (some (if negative then -ofDigits ds else ofDigits ds), rest)

/-- An exponent, or nothing. -/
def scanExponent : List Char → Option (Option Int × List Char)
  | c :: s =>
      if c = 'e' ∨ c = 'E' then
        match s with
        | '+' :: rest => scanPower false rest
        | '-' :: rest => scanPower true rest
        | rest => scanPower false rest
      else some (none, c :: s)
  | [] => some (none, [])

/-- The number at the front of a text without its sign. -/
def scanUnsigned (negative : Bool) (s : List Char) :
    Option (Number × List Char) :=
  match digits s with
  | ([], _) => none
  | (0 :: _ :: _, _) => none
  | (whole, rest) => do
      let (fraction, rest) ← scanFraction rest
      let (exponent, rest) ← scanExponent rest
      pure (⟨negative, whole, fraction, exponent⟩, rest)

/-- The number at the front of a text, and what follows it. -/
def scanNumber : List Char → Option (Number × List Char)
  | '-' :: s => scanUnsigned true s
  | s => scanUnsigned false s

/-- Takes digits into a significand as long as there is room for them, and
    returns the digits that are left. -/
def takeIn (significand : Nat) : List Nat → Nat × List Nat
  | [] => (significand, [])
  | d :: ds =>
      if 10 * significand + d < 1 <<< 64 then takeIn (10 * significand + d) ds
      else (significand, d :: ds)

namespace Number

/-- The binary number, or nothing if it is beyond the largest one. -/
def binary? (n : Number) : Option Binary :=
  let (significand, left) := takeIn 0 n.whole
  let fraction := n.fraction.getD []
  let (significand, unused) := takeIn significand fraction
  let taken : Int := fraction.length - unused.length
  Binary.scaleDecimal significand (left.length - taken + n.exponent.getD 0)

/-- The value of a number. -/
def value (n : Number) : Value :=
  let size := ofDigits n.whole
  let isWhole := n.fraction.isNone && n.exponent.isNone
  if isWhole ∧ ¬n.negative ∧ size < 1 <<< 64 then .integer size
  else if isWhole ∧ n.negative ∧ 0 < size ∧ size ≤ 1 <<< 63 then .integer (-size)
  else match n.binary? with
    | some b => .decimal (b.show numberStyle n.negative)
    | none => .flawed .obscure

end Number

end Classpath.Json
