/-
  File:      SchemaCompiler/Number/Shortest.lean
  Subject:   The shortest decimal that reads back as a given double, and its layout.

  The digits are the fewest that single out the double: of the decimals with that many digits
  that round to it, the nearest, a tie going to the even last digit (`shortest`). Where they are
  written is a matter of one record of two bounds (`Layout`).
-/
import SchemaCompiler.Number.Double

namespace SchemaCompiler

/-- The decimal `digits · 10^exponent`; the last digit is not zero unless the value is. -/
structure Decimal where
  digits : Nat
  exponent : Int
  deriving DecidableEq, Repr

namespace Double

/-! ## 1. The interval that rounds to a double

Three natural numbers over one denominator, which is four times that of the unit in the last
place: the value, and the ends of the interval of reals that round to it. -/

/-- Four times the mantissa. -/
def quarters (d : Double) : Nat := 4 * d.mantissa

/-- The upper end: half a unit above. -/
def upperQuarters (d : Double) : Nat := d.quarters + 2

/-- The lower end: half a unit below; only a quarter where the next lower double is nearer. -/
def lowerQuarters (d : Double) : Nat :=
  if d.mantissa = leastMantissa ∧ leastExponent < d.exponent then d.quarters - 1 else d.quarters - 2

/-- Compares `candidate · 10^k` with `quarters · 2^(exponent - 2)`: both sides as natural numbers
    over a common denominator. -/
def scaledPair (d : Double) (quarters candidate : Nat) (k : Int) : Nat × Nat :=
  let binary := d.exponent - 2
  (candidate * tenPow k.toNat * twoPow (-binary).toNat,
    quarters * twoPow binary.toNat * tenPow (-k).toNat)

/-- Whether `candidate · 10^k` rounds to the double. The ends belong to the interval exactly if
    the mantissa is even. -/
def contains (d : Double) (candidate : Nat) (k : Int) : Bool :=
  let (low, lowEnd) := d.scaledPair d.lowerQuarters candidate k
  let (high, highEnd) := d.scaledPair d.upperQuarters candidate k
  if d.mantissa % 2 = 0 then lowEnd ≤ low && high ≤ highEnd
  else lowEnd < low && high < highEnd

/-! ## 2. The search -/

/-- The exponent of the first significant decimal digit of a double that is not zero: the digits
    of its magnitude times `10^400` are counted. -/
def leadingExponent (d : Double) : Int :=
  let shifted := d.numerator * tenPow 400 / d.denominator
  ((Nat.toDigits 10 shifted).length : Int) - 401

/-- The whole number of steps of `10^k` below the magnitude. -/
def stepsBelow (d : Double) (k : Int) : Nat :=
  d.numerator * tenPow (-k).toNat / (d.denominator * tenPow k.toNat)

/-- Of `below` and `below + 1` steps of `10^k` the nearer to the magnitude, a tie going to the
    even one. -/
def nearer (d : Double) (below : Nat) (k : Int) : Nat :=
  let (middle, value) := d.scaledPair (2 * d.quarters) (2 * below + 1) k
  if value < middle ∨ (value = middle ∧ below % 2 = 0) then below else below + 1

/-- The candidate on the grid of `10^k`, if one of the two neighbours of the magnitude on that
    grid rounds to it. -/
def onGrid? (d : Double) (k : Int) : Option Decimal :=
  let below := d.stepsBelow k
  match d.contains below k, d.contains (below + 1) k with
  | true, true => some ⟨d.nearer below k, k⟩
  | true, false => some ⟨below, k⟩
  | false, true => some ⟨below + 1, k⟩
  | false, false => none

/-- Drops final zeros into the exponent, at most `fuel` of them. -/
def dropZeros : Nat → Decimal → Decimal
  | 0, decimal => decimal
  | fuel + 1, decimal =>
    if decimal.digits ≠ 0 ∧ decimal.digits % 10 = 0 then
      dropZeros fuel ⟨decimal.digits / 10, decimal.exponent + 1⟩
    else decimal

/-- The shortest decimal that rounds to the magnitude of a double. Seventeen digits always
    suffice, so the search over one to seventeen digits finds one. -/
def shortest (d : Double) : Decimal :=
  if d.isZero then ⟨0, 0⟩
  else
    let lead := d.leadingExponent
    match (List.range 17).findSome? fun (n : Nat) => d.onGrid? (lead - n) with
    | some decimal => dropZeros 18 decimal
    | none => ⟨d.stepsBelow (lead - 16), lead - 16⟩

end Double

/-! ## 3. Layout -/

/-- Where a decimal is written without an exponent. With the point after `point` digits counted
    from the first (`point` may be negative): positional if `leastPoint < point ≤ mostPoint`. -/
structure Layout where
  leastPoint : Int
  mostPoint : Int
  deriving DecidableEq, Repr

/-- JSON numbers are written positionally from `0.00001` up to sixteen digits before the point. -/
def Layout.json : Layout := ⟨-5, 16⟩

/-- `count` zeros. -/
def zeros (count : Nat) : List Char := List.replicate count '0'

/-- The text of a decimal. A positional number always shows a digit after the point; an exponent
    is written without a plus sign, and without a point after a single digit. -/
def Decimal.layout (decimal : Decimal) (rule : Layout) : List Char :=
  let digits := Nat.toDigits 10 decimal.digits
  let point := (digits.length : Int) + decimal.exponent
  if 0 ≤ decimal.exponent ∧ point ≤ rule.mostPoint then
    digits ++ zeros decimal.exponent.toNat ++ ['.', '0']
  else if 0 < point ∧ point ≤ rule.mostPoint then
    digits.take point.toNat ++ '.' :: digits.drop point.toNat
  else if rule.leastPoint < point ∧ point ≤ 0 then
    '0' :: '.' :: zeros (-point).toNat ++ digits
  else
    let exponent := (toString (point - 1)).toList
    match digits with
    | first :: second :: rest => first :: '.' :: second :: rest ++ 'e' :: exponent
    | single => single ++ 'e' :: exponent

/-- The text of a double: its sign, then the shortest decimal of its magnitude. -/
def Double.text (d : Double) : List Char :=
  let magnitude := d.shortest.layout Layout.json
  if d.negative then '-' :: magnitude else magnitude

end SchemaCompiler
