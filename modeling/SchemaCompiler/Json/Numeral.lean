/-
  File:      SchemaCompiler/Json/Numeral.lean
  Subject:   Number tokens: their grammar, and the number each one denotes.

  `Numeral.scan` splits a text by the number grammar of JSON. A numeral then has two readings:

  * `Numeral.approximate` collects a 64-bit significand and a power of ten and multiplies them
    out with one rounding per step. It keeps whole numbers exact, it may miss the nearest double,
    and it refuses a result beyond the greatest double;
  * `Numeral.nearest` rounds the exact value once and stops at the greatest double.

  `Numeral.value` is the first where it answers, else the second.
-/
import SchemaCompiler.Json.Number
import SchemaCompiler.Text.Ascii

namespace SchemaCompiler

/-! ## 1. The grammar -/

/-- The exponent part of a number token. -/
structure Exponent where
  negative : Bool
  digits : List Char
  deriving DecidableEq, Repr

/-- The exponent that the exponent part denotes. -/
def Exponent.value (e : Exponent) : Int :=
  if e.negative then -(digitsValue 10 e.digits : Int) else digitsValue 10 e.digits

/-- A number token, split by the grammar `-? whole (. fraction)? ([eE] [+-]? digits)?`. No
    fraction is an empty run of digits. -/
structure Numeral where
  negative : Bool
  whole : List Char
  fraction : List Char
  exponent : Option Exponent
  deriving DecidableEq, Repr

/-- Why a text does not begin with a numeral. -/
inductive NumeralFault where
  /-- A character that no numeral has there. -/
  | malformed
  /-- The text ends where a digit is due. -/
  | endOfText
  deriving DecidableEq, Repr

/-- A fault and the text from the offending character on. -/
structure NumeralError where
  fault : NumeralFault
  unread : List Char
  deriving DecidableEq, Repr

namespace Numeral

/-- The fault of a text that does not go on with a digit. -/
def digitDue (unread : List Char) : NumeralError :=
  if unread.isEmpty then ⟨.endOfText, unread⟩ else ⟨.malformed, unread⟩

/-- One digit or more, and the rest. -/
def scanDigits (text : List Char) : Except NumeralError (List Char × List Char) :=
  if (text.takeWhile isDigit).isEmpty then .error (digitDue text)
  else .ok (text.takeWhile isDigit, text.dropWhile isDigit)

/-- The whole part: a single zero, or digits of which the first is not zero. -/
def scanWhole : List Char → Except NumeralError (List Char × List Char)
  | '0' :: rest =>
    if (rest.takeWhile isDigit).isEmpty then .ok (['0'], rest) else .error ⟨.malformed, rest⟩
  | text => scanDigits text

/-- The fraction, if a point follows. -/
def scanFraction : List Char → Except NumeralError (List Char × List Char)
  | '.' :: rest => scanDigits rest
  | text => .ok ([], text)

/-- The sign of an exponent: `true` for minus. -/
def scanExponentSign : List Char → Bool × List Char
  | '+' :: rest => (false, rest)
  | '-' :: rest => (true, rest)
  | text => (false, text)

/-- The exponent, if its mark follows. -/
def scanExponent : List Char → Except NumeralError (Option Exponent × List Char)
  | [] => .ok (none, [])
  | mark :: rest =>
    if mark = 'e' ∨ mark = 'E' then
      let (negative, rest) := scanExponentSign rest
      match scanDigits rest with
      | .error e => .error e
      | .ok (digits, rest) => .ok (some ⟨negative, digits⟩, rest)
    else .ok (none, mark :: rest)

/-- The sign of a numeral: `true` for minus. -/
def scanSign : List Char → Bool × List Char
  | '-' :: rest => (true, rest)
  | text => (false, text)

/-- The longest numeral a text begins with, and the rest. -/
def scan (text : List Char) : Except NumeralError (Numeral × List Char) := do
  let (negative, rest) := scanSign text
  let (whole, rest) ← scanWhole rest
  let (fraction, rest) ← scanFraction rest
  let (exponent, rest) ← scanExponent rest
  .ok (⟨negative, whole, fraction, exponent⟩, rest)

/-- The numeral that a token is, all of it. -/
def ofToken? (token : List Char) : Option Numeral :=
  match scan token with
  | .ok (numeral, []) => some numeral
  | _ => none

/-! ## 2. The approximate reading -/

/-- The greatest 64-bit significand. -/
def significandLimit : Nat := 18446744073709551615

/-- The greatest exponent that is kept, of 31 bits. -/
def exponentLimit : Nat := 2147483647

/-- Appends digits as long as the significand stays within its limit: the significand, and the
    digits left over. -/
def takeDigits : Nat → List Char → Nat × List Char
  | significand, [] => (significand, [])
  | significand, d :: rest =>
    let longer := 10 * significand + digitValue d
    if longer ≤ significandLimit then takeDigits longer rest else (significand, d :: rest)

/-- The value of exponent digits. The digit that takes it past the limit ends the reading; the
    error is the number of digits after that one. -/
def exponentValue : Nat → List Char → Except Nat Nat
  | value, [] => .ok value
  | value, d :: rest =>
    let longer := 10 * value + digitValue d
    if longer ≤ exponentLimit then exponentValue longer rest else .error rest.length

/-- A count of digits in 32 bits with a sign: past the ends of the range it starts again at the
    other end. -/
def wrapExponent (e : Int) : Int := e.bmod 4294967296

/-- An exponent cut to the range that is kept. -/
def clampExponent (e : Int) : Int :=
  max (-(exponentLimit : Int) - 1) (min exponentLimit e)

/-- The double nearest to a power of ten, for the powers that have one. -/
def powerOfTen (k : Nat) : Double := (Double.ofNat (tenPow k)).getD (Double.greatest false)

/-- The greatest power of ten that is a double. -/
def greatestPower : Nat := 308

/-- `d / 10^k`, in steps of at most `10^308`, each rounded. -/
def scaleDown (d : Double) (k : Nat) : Double :=
  if k ≤ greatestPower then (d.div (powerOfTen k)).getD (Double.zero d.negative)
  else if d.isZero then d
  else
    scaleDown ((d.div (powerOfTen greatestPower)).getD (Double.zero d.negative))
      (k - greatestPower)
termination_by k
decreasing_by simp [greatestPower] at *; omega

/-- `d · 10^k` with one rounding; `none` beyond the greatest double. -/
def scaleUp (d : Double) (k : Nat) : Option Double :=
  if k ≤ greatestPower then d.mul (powerOfTen k)
  else if d.isZero then some d
  else none

/-- `± significand · 10^exponent`; `none` beyond the greatest double. -/
def scale (negative : Bool) (significand : Nat) (exponent : Int) : Option Double :=
  let start := (Double.ofNat significand).getD (Double.greatest false)
  let magnitude :=
    if 0 ≤ exponent then scaleUp start exponent.toNat
    else some (scaleDown start (-exponent).toNat)
  magnitude.map fun d => { d with negative := negative }

/-- The greatest magnitude of a negative whole number of 64 bits, `2^63`. -/
def negativeLimit : Nat := 9223372036854775808

/-- A whole number of at most 64 bits with a sign. Minus zero and what is below `-2^63` are
    doubles. -/
def wholeNumber (negative : Bool) (n : Nat) : Number :=
  if negative then
    if 1 ≤ n ∧ n ≤ negativeLimit then .negative n
    else .double { (Double.ofNat n).getD (Double.greatest false) with negative := true }
  else .natural n

/-- The approximate reading. An error says that the value is out of range, and how many
    characters of the token were not read when that showed. -/
def approximate (n : Numeral) : Except Nat Number :=
  let (significand, left) := takeDigits 0 n.whole
  if n.fraction.isEmpty && n.exponent.isNone && left.isEmpty then
    .ok (wholeNumber n.negative significand)
  else
    let (significand, dropped) := takeDigits significand n.fraction
    let exponent :=
      wrapExponent ((left.length : Int) - (n.fraction.length - dropped.length : Nat))
    let scaled (e : Int) : Except Nat Number :=
      match scale n.negative significand e with
      | some d => .ok (.double d)
      | none => .error 0
    match n.exponent with
    | none => scaled exponent
    | some explicit =>
      match exponentValue 0 explicit.digits with
      | .ok k =>
        scaled (clampExponent (if explicit.negative then exponent - k else exponent + k))
      | .error unread =>
        if significand ≠ 0 ∧ ¬ explicit.negative then .error unread
        else .ok (.double (Double.zero n.negative))

/-! ## 3. The nearest double -/

/-- A decimal exponent beyond which every number of one digit is out of the range of doubles. -/
def decimalRange : Int := 400

/-- The double nearest to the exact value, with the greatest double in place of larger ones. -/
def nearest (n : Numeral) : Double :=
  let digits := digitsValue 10 (n.whole ++ n.fraction)
  let exponent := (n.exponent.map Exponent.value).getD 0 - n.fraction.length
  let magnitude : Int := (Nat.toDigits 10 digits).length + exponent
  if digits = 0 ∨ magnitude < -decimalRange then Double.zero n.negative
  else if decimalRange < magnitude then Double.greatest n.negative
  else
    (Double.ofRatio n.negative (digits * tenPow exponent.toNat) (tenPow (-exponent).toNat)).getD
      (Double.greatest n.negative)

/-- The number a numeral denotes. -/
def value (n : Numeral) : Number :=
  match n.approximate with
  | .ok number => number
  | .error _ => .double n.nearest

end Numeral

end SchemaCompiler
