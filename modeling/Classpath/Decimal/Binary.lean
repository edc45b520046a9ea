/-! # Binary numbers — rounding a quotient to 53 binary digits

    The numbers are those of the usual format with 64 bits, without a sign:
    a significand below `2 ^ 53` times a power of two, the smallest being
    `2 ^ -1074`.  All arithmetic is exact until `nearest` rounds once. -/

namespace Classpath.Decimal

/-- The number `significand * 2 ^ exponent / 2 ^ 1074`. -/
structure Binary where
  significand : Nat
  exponent : Nat
  deriving DecidableEq, Repr

namespace Binary

/-- The numerator of the number over `2 ^ 1074`. -/
def scaled (b : Binary) : Nat := b.significand <<< b.exponent

/-- The number zero. -/
def zero : Binary := ⟨0, 0⟩

/-- The quotient rounded to the nearest whole number, a half to the even
    neighbour. -/
def roundDiv (num den : Nat) : Nat :=
  let q := num / den
  let rest := 2 * (num % den)
  if den < rest ∨ (rest = den ∧ q % 2 = 1) then q + 1 else q

/-- The binary number nearest to a quotient, or nothing if that lies beyond
    the largest one. -/
def nearest (num den : Nat) : Option Binary :=
  let num := num <<< 1074
  let exponent := Nat.log2 (num / den) - 52
  let significand := roundDiv num (den <<< exponent)
  let b : Binary :=
    if significand < 1 <<< 53 then ⟨significand, exponent⟩
    else ⟨1 <<< 52, exponent + 1⟩
  if b.exponent ≤ 2045 then some b else none

/-- The product, rounded. -/
def mul (a b : Binary) : Option Binary :=
  nearest (a.scaled * b.scaled) (1 <<< 2148)

/-- The quotient, rounded. -/
def div (a b : Binary) : Option Binary :=
  nearest a.scaled b.scaled

/-- The nearest number to `digits * 10 ^ exponent`. -/
def ofDecimal (digits : Nat) (exponent : Int) : Option Binary :=
  let magnitude := (Nat.toDigits 10 digits).length + exponent
  if digits = 0 ∨ magnitude < -400 then some zero
  else if 400 < magnitude then none
  else if 0 ≤ exponent then nearest (digits * Nat.pow 10 exponent.toNat) 1
  else nearest digits (Nat.pow 10 (-exponent).toNat)

/-- A number brought to a power of ten in two rounded steps: first the
    digits are rounded, then their product with the rounded power, or their
    quotient.  A quotient by a power beyond `10 ^ 308` takes one more step,
    and one by a power beyond its square is zero. -/
def scaleDecimal (digits : Nat) (exponent : Int) : Option Binary := do
  let b ← nearest digits 1
  if digits = 0 then pure zero
  else if 308 < exponent then none
  else if 0 ≤ exponent then b.mul (← nearest (Nat.pow 10 exponent.toNat) 1)
  else
    let n := (-exponent).toNat
    if n ≤ 308 then b.div (← nearest (Nat.pow 10 n) 1)
    else if n ≤ 616 then
      (← b.div (← nearest (Nat.pow 10 308) 1)).div
        (← nearest (Nat.pow 10 (n - 308)) 1)
    else pure zero

end Binary

end Classpath.Decimal
