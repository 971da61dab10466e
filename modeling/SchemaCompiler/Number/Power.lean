/-
  File:      SchemaCompiler/Number/Power.lean
  Subject:   Powers of two and of ten.
-/

namespace SchemaCompiler

/-- The power of two with exponent `n`. -/
def twoPow (n : Nat) : Nat := Nat.pow 2 n

/-- The power of ten with exponent `n`. -/
def tenPow (n : Nat) : Nat := Nat.pow 10 n

end SchemaCompiler
