import SchemaLoom.Number.Nearest

/-!
# The shortest decimal of a binary number

A finite number is written with the fewest significant digits that read back as the same number,
and of those with the digits nearest to it.
-/

namespace SchemaLoom.Number

/-- A decimal `digits * 10 ^ exponent`. -/
structure Decimal where
  digits : Nat
  exponent : Int

/-- The reals that round to a number: a quotient for the number and its two bounds over one
denominator, and whether the bounds themselves round to it. -/
structure Basin where
  value : Nat
  lower : Nat
  upper : Nat
  denominator : Nat
  closed : Bool

/-- The basin of a positive magnitude.  Below a power of two the lower bound is half as far. -/
def Basin.of (magnitude : Nat) : Basin :=
  let parts := Layout.double.decompose magnitude
  let narrow := parts.1 == Nat.pow 2 52 && Layout.double.leastExponent < parts.2
  let power := Nat.pow 2 parts.2.natAbs
  let grow := fun (count : Nat) => if parts.2 < 0 then count else count * power
  { value := grow (4 * parts.1)
    lower := grow (4 * parts.1 - if narrow then 1 else 2)
    upper := grow (4 * parts.1 + 2)
    denominator := if parts.2 < 0 then 4 * power else 4
    closed := parts.1 % 2 == 0 }

/-- Whether `digits * 10 ^ exponent` rounds to the number of the basin. -/
def Basin.holds (basin : Basin) (decimal : Decimal) : Bool :=
  let scaled :=
    if decimal.exponent < 0 then decimal.digits * basin.denominator
    else decimal.digits * basin.denominator * Nat.pow 10 decimal.exponent.natAbs
  let grow := fun (bound : Nat) =>
    if decimal.exponent < 0 then bound * Nat.pow 10 decimal.exponent.natAbs else bound
  if basin.closed then grow basin.lower ≤ scaled && scaled ≤ grow basin.upper
  else grow basin.lower < scaled && scaled < grow basin.upper

/-- The exponent of the first decimal digit of a quotient. -/
def leadingExponent (numerator denominator : Nat) : Int :=
  if denominator ≤ numerator then (Nat.toDigits 10 (numerator / denominator)).length - 1
  else
    let places := (Nat.toDigits 10 (denominator / numerator)).length - 1
    if denominator ≤ numerator * Nat.pow 10 places then -(places : Int) else -(places + 1 : Int)

/-- The neighbour with the given number of digits that rounds to the number, the nearer one if
both do. -/
def Basin.neighbour (basin : Basin) (leading : Int) (count : Nat) : Option Decimal :=
  let exponent := leading - (count - 1 : Nat)
  let numerator :=
    if exponent < 0 then basin.value * Nat.pow 10 exponent.natAbs else basin.value
  let denominator :=
    if exponent < 0 then basin.denominator else basin.denominator * Nat.pow 10 exponent.natAbs
  let below : Decimal := ⟨numerator / denominator, exponent⟩
  let above : Decimal := ⟨numerator / denominator + 1, exponent⟩
  let nearer : Decimal := ⟨roundQuotient numerator denominator, exponent⟩
  if basin.holds nearer then some nearer
  else if basin.holds below then some below
  else if basin.holds above then some above
  else none

/-- The shortest decimal of a positive finite magnitude; seventeen digits always suffice. -/
def shortest (magnitude : Nat) : Decimal :=
  let basin := Basin.of magnitude
  let leading := leadingExponent basin.value basin.denominator
  match (List.range 17).findSome? fun index => basin.neighbour leading (index + 1) with
  | some decimal => decimal
  | none => ⟨0, 0⟩

/-- How a decimal is laid out. -/
structure DecimalStyle where
  /-- The least and greatest exponent of the first digit that is written without an exponent. -/
  positional : Int × Int
  /-- The least number of digits of a written exponent. -/
  exponentWidth : Nat

/-- Numbers from `1e-5` up to below `1e16` are written out with at least one digit after the point;
others have an exponent with its sign and at least two digits. -/
def plainStyle : DecimalStyle where
  positional := (-5, 15)
  exponentWidth := 2

/-- The significant digits without trailing zeros. -/
def significantDigits (digits : Nat) : List Char :=
  ((Nat.toDigits 10 digits).reverse.dropWhile (· == '0')).reverse

def zeros (count : Nat) : List Char :=
  List.replicate count '0'

def DecimalStyle.exponentText (style : DecimalStyle) (exponent : Int) : List Char :=
  let digits := Nat.toDigits 10 exponent.natAbs
  (if exponent < 0 then ['-'] else ['+']) ++ zeros (style.exponentWidth - digits.length) ++ digits

def DecimalStyle.write (style : DecimalStyle) (decimal : Decimal) : List Char :=
  let leading := decimal.exponent + ((Nat.toDigits 10 decimal.digits).length - 1 : Nat)
  let digits := significantDigits decimal.digits
  if style.positional.1 ≤ leading ∧ leading ≤ style.positional.2 then
    if leading < 0 then ['0', '.'] ++ zeros (leading.natAbs - 1) ++ digits
    else
      let whole := leading.toNat + 1
      let fraction := digits.drop whole
      digits.take whole ++ zeros (whole - digits.length) ++ '.' ::
        (if fraction.isEmpty then ['0'] else fraction)
  else
    digits.take 1 ++ (if digits.length ≤ 1 then [] else '.' :: digits.drop 1) ++
      'e' :: style.exponentText leading

/-- The text of a finite number. -/
def Binary64.text (number : Binary64) : String :=
  let bits := number.bits.toNat
  let magnitude := Layout.double.magnitude bits
  let body := if magnitude = 0 then ['0', '.', '0'] else plainStyle.write (shortest magnitude)
  String.ofList (if Layout.double.isNegative bits then '-' :: body else body)

end SchemaLoom.Number
