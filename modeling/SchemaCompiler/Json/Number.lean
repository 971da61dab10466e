/-
  File:      SchemaCompiler/Json/Number.lean
  Subject:   The numbers of a JSON document.

  A number keeps the form it was written in: whole numbers that fit a machine word stay whole,
  all others are doubles. `Number.text` writes a number, `Number.toNat?` gives its value where
  that is a count.
-/
import SchemaCompiler.Number.Shortest

namespace SchemaCompiler

/-- The largest integer below which a double represents every integer, `2^53 - 1`. -/
def maxSafeInteger : Nat := 9007199254740991

/-- A number of a JSON document. -/
inductive Number where
  /-- A whole number from `0` to `2^64 - 1`. -/
  | natural (n : Nat)
  /-- The whole number `-n`, for `n` from `1` to `2^63`. -/
  | negative (n : Nat)
  /-- Every other number. -/
  | double (d : Double)
  deriving DecidableEq, Repr

namespace Number

/-- The text of a number. -/
def text : Number → List Char
  | .natural n => Nat.toDigits 10 n
  | .negative n => '-' :: Nat.toDigits 10 n
  | .double d => d.text

/-- The value, if it is a whole number that is not negative. -/
def toNat? : Number → Option Nat
  | .natural n => some n
  | .negative n => if n = 0 then some 0 else none
  | .double d => d.toNat?

/-- Strictly above zero. -/
def isPositive : Number → Bool
  | .natural n => n != 0
  | .negative _ => false
  | .double d => d.isPositive

/-- A whole number whose magnitude a double may not represent. -/
def beyondSafe : Number → Bool
  | .natural n => maxSafeInteger < n
  | .negative n => maxSafeInteger < n
  | .double _ => false

end Number

end SchemaCompiler
