/-
  File:      SchemaCompiler/Number/Double.lean
  Subject:   Finite binary64 numbers and their rounding, in exact integer arithmetic.

  A double is kept as sign, mantissa and exponent; its value is `± mantissa · 2^exponent`. Every
  operation forms the exact quotient of two natural numbers and rounds it once, to the nearest
  double, a tie to the even mantissa. A quotient that rounds past the greatest double has no
  double: `ofRatio` then answers `none`.
-/
import SchemaCompiler.Number.Power

namespace SchemaCompiler

/-- A finite binary64 number. In the normal form that `Double.ofRatio` gives, the mantissa is
    below `2^53` and the exponent at least `-1074`; and the mantissa is at least `2^52`, or the
    exponent is `-1074`. -/
structure Double where
  negative : Bool
  mantissa : Nat
  exponent : Int
  deriving DecidableEq, Repr

namespace Double

/-! ## 1. The values there are -/

/-- The least exponent, that of the subnormal numbers and of zero. -/
def leastExponent : Int := -1074

/-- The greatest exponent of a finite double. -/
def greatestExponent : Int := 971

/-- The least mantissa of a normal number, `2^52`. -/
def leastMantissa : Nat := 4503599627370496

/-- What every mantissa is below, `2^53`. -/
def mantissaBound : Nat := 9007199254740992

/-- Zero, with a sign. -/
def zero (negative : Bool) : Double := ⟨negative, 0, leastExponent⟩

/-- The double of greatest magnitude, with a sign. -/
def greatest (negative : Bool) : Double := ⟨negative, mantissaBound - 1, greatestExponent⟩

def isZero (d : Double) : Bool := d.mantissa == 0

/-- Numerator of the magnitude as a quotient of natural numbers. -/
def numerator (d : Double) : Nat := d.mantissa * twoPow d.exponent.toNat

/-- Denominator of the magnitude as a quotient of natural numbers, a power of two. -/
def denominator (d : Double) : Nat := twoPow (-d.exponent).toNat

/-! ## 2. Rounding -/

/-- The natural number nearest to `num / den`, a tie going to the even one. -/
def roundDiv (num den : Nat) : Nat :=
  let quotient := num / den
  let remainder := num % den
  if 2 * remainder < den ∨ (2 * remainder = den ∧ quotient % 2 = 0) then quotient
  else quotient + 1

/-- `num / den / 2^exponent`, as numerator and denominator. -/
def scaled (num den : Nat) (exponent : Int) : Nat × Nat :=
  (num * twoPow (-exponent).toNat, den * twoPow exponent.toNat)

/-- The exponent at which `num / den` has a 53-bit mantissa, or the least exponent if it has
    none. The lengths of `num` and `den` give it up to one. -/
def exponentFor (num den : Nat) : Int :=
  let guess := max leastExponent ((num.log2 : Int) - den.log2 - 52)
  let (n, d) := scaled num den guess
  if n / d < leastMantissa ∧ leastExponent < guess then guess - 1 else guess

/-- The double nearest to `± num / den`, a tie going to the even mantissa; `none` if that lies
    beyond the greatest one. -/
def ofRatio (negative : Bool) (num den : Nat) : Option Double :=
  if num = 0 then some (zero negative)
  else
    let exponent := exponentFor num den
    let (n, d) := scaled num den exponent
    let mantissa := roundDiv n d
    let rounded : Double :=
      if mantissa = mantissaBound then ⟨negative, leastMantissa, exponent + 1⟩
      else ⟨negative, mantissa, exponent⟩
    if greatestExponent < rounded.exponent then none else some rounded

/-- The double nearest to a natural number. -/
def ofNat (n : Nat) : Option Double := ofRatio false n 1

/-- The double nearest to the product. -/
def mul (a b : Double) : Option Double :=
  ofRatio (a.negative != b.negative) (a.numerator * b.numerator) (a.denominator * b.denominator)

/-- The double nearest to the quotient, for a divisor that is not zero. -/
def div (a b : Double) : Option Double :=
  ofRatio (a.negative != b.negative) (a.numerator * b.denominator) (a.denominator * b.numerator)

/-! ## 3. Whole numbers among the doubles -/

/-- The magnitude, if it is a whole number. -/
def wholeMagnitude? (d : Double) : Option Nat :=
  if d.numerator % d.denominator = 0 then some (d.numerator / d.denominator) else none

/-- The value, if it is a whole number that is not negative; zero of either sign is. -/
def toNat? (d : Double) : Option Nat :=
  match d.wholeMagnitude? with
  | some n => if d.negative ∧ n ≠ 0 then none else some n
  | none => none

/-- Strictly above zero. -/
def isPositive (d : Double) : Bool := !d.negative && d.mantissa != 0

end Double

end SchemaCompiler
