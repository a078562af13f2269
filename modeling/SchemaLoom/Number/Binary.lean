/-!
# Binary floating-point numbers as bit patterns

A number is its bits, so the payload of a NaN and the sign of a zero are never lost.  Three
relations live on them: equality of bits, the arithmetic equality (a NaN differs from itself, the
zeros are equal) and equality of canonical bits (all NaNs are one value, the zeros are equal).
-/

namespace SchemaLoom.Number

/-- The layout of a binary format below the sign bit. -/
structure Layout where
  fractionBits : Nat
  exponentBits : Nat

namespace Layout

def single : Layout := ⟨23, 8⟩

def double : Layout := ⟨52, 11⟩

/-- The weight of the sign bit. -/
def signWeight (layout : Layout) : Nat :=
  Nat.pow 2 (layout.fractionBits + layout.exponentBits)

/-- The bits of positive infinity. -/
def infinity (layout : Layout) : Nat :=
  (Nat.pow 2 layout.exponentBits - 1) * Nat.pow 2 layout.fractionBits

/-- The bits of the NaN that stands for all of them. -/
def quietNaN (layout : Layout) : Nat :=
  layout.infinity + Nat.pow 2 (layout.fractionBits - 1)

def magnitude (layout : Layout) (bits : Nat) : Nat :=
  bits % layout.signWeight

def isNegative (layout : Layout) (bits : Nat) : Bool :=
  layout.signWeight ≤ bits

def isNaN (layout : Layout) (bits : Nat) : Bool :=
  layout.infinity < layout.magnitude bits

def isZero (layout : Layout) (bits : Nat) : Bool :=
  layout.magnitude bits == 0

/-- All NaNs become one pattern and both zeros the zero pattern. -/
def canonical (layout : Layout) (bits : Nat) : Nat :=
  if layout.isNaN bits then layout.quietNaN
  else if layout.isZero bits then 0
  else bits

/-- Arithmetic equality. -/
def arithmeticEq (layout : Layout) (left right : Nat) : Bool :=
  !layout.isNaN left && !layout.isNaN right &&
    (left == right || (layout.isZero left && layout.isZero right))

/-- The exponent of the last place of the smallest numbers. -/
def leastExponent (layout : Layout) : Int :=
  2 - Nat.pow 2 (layout.exponentBits - 1) - layout.fractionBits

/-- A finite magnitude as `significand * 2 ^ exponent`. -/
def decompose (layout : Layout) (magnitude : Nat) : Nat × Int :=
  let biased := magnitude / Nat.pow 2 layout.fractionBits
  let fraction := magnitude % Nat.pow 2 layout.fractionBits
  if biased = 0 then (fraction, layout.leastExponent)
  else (Nat.pow 2 layout.fractionBits + fraction, layout.leastExponent + (biased - 1 : Nat))

end Layout

/-- A 32-bit number. -/
structure Binary32 where
  bits : UInt32
  deriving DecidableEq, Inhabited

/-- A 64-bit number. -/
structure Binary64 where
  bits : UInt64
  deriving DecidableEq, Inhabited

namespace Binary32

def zero : Binary32 := ⟨0⟩

def canonical (number : Binary32) : Nat :=
  Layout.single.canonical number.bits.toNat

def arithmeticEq (left right : Binary32) : Bool :=
  Layout.single.arithmeticEq left.bits.toNat right.bits.toNat

end Binary32

namespace Binary64

def zero : Binary64 := ⟨0⟩

def canonical (number : Binary64) : Nat :=
  Layout.double.canonical number.bits.toNat

def arithmeticEq (left right : Binary64) : Bool :=
  Layout.double.arithmeticEq left.bits.toNat right.bits.toNat

end Binary64

end SchemaLoom.Number
