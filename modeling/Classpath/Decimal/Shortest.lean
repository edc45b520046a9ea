import Classpath.Decimal.Binary

/-! # Shortest decimals — the fewest digits that read back

    A binary number is shown by the shortest decimal number that lies closer
    to it than to any other binary number, and by the closest one if there
    are several.  For each number of digits only the two neighbours on the
    grid of that length can qualify: if any point of the grid lies in an
    interval around the number, so does a neighbour. -/

namespace Classpath.Decimal

/-- The decimal number `number * 10 ^ exponent`. -/
structure Digits where
  number : Nat
  exponent : Int
  deriving DecidableEq, Repr

/-- Which neighbour is taken when both are equally close. -/
inductive Tie where
  | even
  | up
  deriving DecidableEq, Repr

/-- How decimals are written. -/
structure Style where
  /-- The least and the greatest number of digits before the point for which
      no exponent is written; nothing if there never is one. -/
  positional : Option (Int × Int)
  tie : Tie
  deriving DecidableEq, Repr

namespace Binary

/-- The exponent of the first decimal digit of a quotient. -/
def magnitude (num den : Nat) : Int :=
  if den ≤ num then (Nat.toDigits 10 (num / den)).length - 1
  else match (List.range 400).find? fun j => den ≤ num * Nat.pow 10 (j + 1) with
    | some j => -(j + 1 : Int)
    | none => -400

/-- The neighbour of the number on the grid of the multiples of
    `10 ^ exponent` that reads back as the number, if there is one. -/
def onGrid? (b : Binary) (tie : Tie) (exponent : Int) : Option Nat :=
  let up := Nat.pow 10 (-exponent).toNat
  let unit := (1 <<< 1076) * Nat.pow 10 exponent.toNat
  let step := (1 <<< b.exponent) * up
  let value := 4 * b.significand * step
  let below :=
    if b.significand = 1 <<< 52 ∧ 0 < b.exponent then step else 2 * step
  let low := value - below
  let high := value + 2 * step
  let inside := fun n =>
    if b.significand % 2 = 0 then low ≤ n * unit ∧ n * unit ≤ high
    else low < n * unit ∧ n * unit < high
  let n := value / unit
  let rest := 2 * (value % unit)
  if inside n then
    if inside (n + 1) then
      let takesUpper := unit < rest ∨
        (rest = unit ∧ (tie = .up ∨ n % 2 = 1))
      some (if takesUpper then n + 1 else n)
    else some n
  else if inside (n + 1) then some (n + 1)
  else none

/-- The shortest decimal that reads back as the number. -/
def shortest (b : Binary) (tie : Tie) : Digits :=
  if b.significand = 0 then ⟨0, 0⟩
  else
    let top := magnitude b.scaled (1 <<< 1074)
    let found := (List.range 17).findSome? fun (n : Nat) =>
      (b.onGrid? tie (top - n)).map fun number => (⟨number, top - n⟩ : Digits)
    found.getD ⟨0, 0⟩

end Binary

namespace Digits

/-- Without zeros at the end of the digits; `room` bounds their number. -/
def strip (room : Nat) (d : Digits) : Digits :=
  match room with
  | 0 => d
  | room + 1 =>
      if d.number ≠ 0 ∧ d.number % 10 = 0 then
        strip room ⟨d.number / 10, d.exponent + 1⟩
      else d

/-- The number with all its digits, and at least one after the point. -/
def plain (d : Digits) : List Char :=
  let digits := Nat.toDigits 10 d.number
  let point := digits.length + d.exponent
  let zeros := fun (n : Int) => List.replicate n.toNat '0'
  if point ≤ 0 then '0' :: '.' :: zeros (-point) ++ digits
  else if 0 ≤ d.exponent then digits ++ zeros d.exponent ++ ['.', '0']
  else digits.take point.toNat ++ '.' :: digits.drop point.toNat

/-- A power of ten, which always has its sign. -/
def power (exponent : Int) : List Char :=
  (if exponent < 0 then '-' else '+') :: Nat.toDigits 10 exponent.natAbs

/-- The number as one digit, the others after the point if there are any,
    and a power of ten. -/
def scientific (d : Digits) : List Char :=
  let digits := Nat.toDigits 10 d.number
  let power := power (digits.length + d.exponent - 1)
  match digits with
  | [c] => c :: 'e' :: power
  | c :: rest => c :: '.' :: rest ++ 'e' :: power
  | [] => []

/-- The number as a style has it. -/
def write (style : Style) (d : Digits) : List Char :=
  let d := d.strip 20
  let point := (Nat.toDigits 10 d.number).length + d.exponent
  match style.positional with
  | none => d.plain
  | some (least, greatest) =>
      if d.number = 0 ∨ (least ≤ point ∧ point ≤ greatest) then d.plain
      else d.scientific

end Digits

/-- A binary number with its sign, as a style has it. -/
def Binary.show (style : Style) (negative : Bool) (b : Binary) : String :=
  let text := (b.shortest style.tie).write style
  String.ofList (if negative then '-' :: text else text)

end Classpath.Decimal
