import SchemaLoom.Number.Binary

/-!
# Rounding a quotient to a binary number

`nearest` gives the 64-bit number nearest to a quotient of natural numbers, with a tie going to
the even neighbour.  `scale` multiplies a rounded significand by a power of ten in one further
rounding; a decimal is read that way.
-/

namespace SchemaLoom.Number

/-- A quotient by a positive power of two or its inverse, as numerator and denominator. -/
def shiftQuotient (numerator denominator : Nat) (exponent : Int) : Nat × Nat :=
  if exponent < 0 then (numerator * Nat.pow 2 exponent.natAbs, denominator)
  else (numerator, denominator * Nat.pow 2 exponent.natAbs)

/-- The integer nearest to a quotient, ties to even. -/
def roundQuotient (numerator denominator : Nat) : Nat :=
  let whole := numerator / denominator
  let rest := 2 * (numerator % denominator)
  if rest < denominator then whole
  else if denominator < rest then whole + 1
  else whole + whole % 2

/-- The exponent of the last place of the number that a quotient is rounded to. -/
def placeExponent (numerator denominator : Nat) : Int :=
  let guess : Int := (Nat.log2 numerator : Int) - Nat.log2 denominator - 52
  let shifted := shiftQuotient numerator denominator guess
  let exact := if shifted.1 / shifted.2 < Nat.pow 2 52 then guess - 1 else guess
  max exact Layout.double.leastExponent

/-- The bits of the number nearest to a quotient; `none` when it lies beyond the largest one. -/
def nearest (numerator denominator : Nat) : Option Nat :=
  if numerator = 0 then some 0
  else
    let exponent := placeExponent numerator denominator
    let shifted := shiftQuotient numerator denominator exponent
    let significand := roundQuotient shifted.1 shifted.2
    let biased := (exponent - Layout.double.leastExponent).toNat
    let bits :=
      if significand < Nat.pow 2 52 then significand
      else (biased + 1) * Nat.pow 2 52 + (significand - Nat.pow 2 52)
    if bits < Layout.double.infinity then some bits else none

/-- The quotient a magnitude stands for. -/
def quotientOf (magnitude : Nat) : Nat × Nat :=
  let parts := Layout.double.decompose magnitude
  if parts.2 < 0 then (parts.1, Nat.pow 2 parts.2.natAbs)
  else (parts.1 * Nat.pow 2 parts.2.natAbs, 1)

def multiply (left right : Nat) : Option Nat :=
  let first := quotientOf left
  let second := quotientOf right
  nearest (first.1 * second.1) (first.2 * second.2)

def divide (left right : Nat) : Option Nat :=
  let first := quotientOf left
  let second := quotientOf right
  nearest (first.1 * second.2) (first.2 * second.1)

/-- The number nearest to a power of ten, for exponents up to 308. -/
def powerOfTen (exponent : Nat) : Nat :=
  (nearest (Nat.pow 10 exponent) 1).getD 0

/-- The greatest power of ten below infinity. -/
def greatestPower : Nat := 308

/-- The magnitude of `significand * 10 ^ exponent`: the significand is rounded, then multiplied or
divided by the rounded power.  A division by more than the greatest power goes in steps of it.
`none` when the result is not finite. -/
def scale (significand : Nat) (exponent : Int) : Option Nat := do
  let rounded ← nearest significand 1
  if 0 ≤ exponent then
    if exponent.natAbs ≤ greatestPower then multiply rounded (powerOfTen exponent.natAbs)
    else if rounded = 0 then some 0 else none
  else
    descend rounded exponent.natAbs (exponent.natAbs / greatestPower)
where
  /-- Divides by `10 ^ exponent` with at most `steps` divisions by the greatest power. -/
  descend (magnitude exponent : Nat) : Nat → Option Nat
    | 0 => divide magnitude (powerOfTen exponent)
    | steps + 1 =>
      if exponent ≤ greatestPower then divide magnitude (powerOfTen exponent)
      else if magnitude = 0 then some 0
      else do
        let smaller ← divide magnitude (powerOfTen greatestPower)
        descend smaller (exponent - greatestPower) steps

/-- A magnitude with a sign. -/
def Binary64.ofMagnitude (negative : Bool) (magnitude : Nat) : Binary64 :=
  ⟨UInt64.ofNat (if negative then Layout.double.signWeight + magnitude else magnitude)⟩

end SchemaLoom.Number
