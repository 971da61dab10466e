/-
  File:      SchemaCompiler/Proofs/Schema/Counts.lean
  Subject:   A count depends on the value of a number, not on how it is represented.

  `countByPaths?` takes two ways to a count. A whole number that is not negative is taken as it is.
  All others go through a double: it has to be whole, at least zero, and at most the double nearest
  to the limit, and is then cast to a word, which drops a fraction and saturates.

  * `Double.atMost_iff`, `Double.isWhole_iff`, `Double.toWord_eq` -- comparison, test and cast of
    doubles by their exact values;
  * `value_doubleOf_eq_iff` -- rounding a whole number to a double brings it neither into the range
    of counts nor out of it;
  * `countOfDouble?_doubleOf`, `countByPaths?_eq` -- the way through the double, and both together,
    are `Payload.countOf?`;
  * **`counts_by_value`** -- which numbers are read as counts, and that numbers of one value are
    the same count.
-/
import SchemaCompiler.Proofs.Number.Rounding
import SchemaCompiler.Proofs.Schema.Members

namespace SchemaCompiler

/-! ## 1. Tests and casts of doubles -/

namespace Double

def signedNumerator (d : Double) : ℤ := if d.negative then -d.numerator else d.numerator

/-- The order of the values; both zeros are equal. -/
def atMost (a b : Double) : Bool :=
  a.signedNumerator * b.denominator ≤ b.signedNumerator * a.denominator

/-- There is no fraction. -/
def isWhole (d : Double) : Bool := d.numerator % d.denominator = 0

/-- The greatest unsigned word of 64 bits. -/
def greatestWord : Nat := 18446744073709551615

/-- The cast to an unsigned word: the fraction is dropped, and a value out of the range goes to the
    end of it. -/
def toWord (d : Double) : Nat :=
  if d.negative then 0 else min (d.numerator / d.denominator) greatestWord

theorem value_eq_div (d : Double) : d.value = d.signedNumerator / d.denominator := by
  unfold value signedNumerator
  split
  · rw [Int.cast_neg, Int.cast_natCast, neg_one_mul, neg_div]
  · rw [Int.cast_natCast, one_mul]

theorem atMost_iff {a b : Double} : a.atMost b = true ↔ a.value ≤ b.value := by
  have ha : (0 : ℚ) < a.denominator := Nat.cast_pos.mpr a.denominator_pos
  have hb : (0 : ℚ) < b.denominator := Nat.cast_pos.mpr b.denominator_pos
  rw [atMost, decide_eq_true_iff, value_eq_div, value_eq_div, div_le_div_iff₀ ha hb]
  exact_mod_cast Iff.rfl

theorem isWhole_iff {d : Double} : d.isWhole = true ↔ ∃ z : ℤ, d.value = z := by
  have hpos : (d.denominator : ℚ) ≠ 0 := Nat.cast_ne_zero.mpr d.denominator_pos.ne'
  have hsigned : (d.denominator : ℤ) ∣ d.signedNumerator ↔ d.denominator ∣ d.numerator := by
    unfold signedNumerator
    split
    · rw [Int.dvd_neg, Int.natCast_dvd_natCast]
    · rw [Int.natCast_dvd_natCast]
  rw [isWhole, decide_eq_true_iff, ← Nat.dvd_iff_mod_eq_zero, ← hsigned]
  constructor
  · rintro ⟨z, hz⟩
    refine ⟨z, ?_⟩
    rw [value_eq_div, hz, Int.cast_mul, Int.cast_natCast, mul_div_cancel_left₀ _ hpos]
  · rintro ⟨z, hz⟩
    refine ⟨z, ?_⟩
    rw [value_eq_div, div_eq_iff hpos] at hz
    rw [mul_comm]
    exact_mod_cast hz

/-- A count is cast to itself. -/
theorem toWord_eq {d : Double} {count : Nat} (h : d.value = count) (hword : count ≤ greatestWord) :
    d.toWord = count := by
  have hpos : (d.denominator : ℚ) ≠ 0 := Nat.cast_ne_zero.mpr d.denominator_pos.ne'
  rw [value_eq_div, div_eq_iff hpos] at h
  have hproduct : d.signedNumerator = count * d.denominator := by exact_mod_cast h
  unfold signedNumerator at hproduct
  unfold toWord
  cases hsign : d.negative with
  | false =>
    rw [hsign, if_neg Bool.false_ne_true] at hproduct
    have hnumerator : d.numerator = count * d.denominator := by exact_mod_cast hproduct
    rw [if_neg Bool.false_ne_true, hnumerator, Nat.mul_div_cancel _ d.denominator_pos]
    exact Nat.min_eq_left hword
  | true =>
    -- a magnitude whose negation is a count is zero
    rw [hsign, if_pos rfl] at hproduct
    have hnonneg : (0 : ℤ) ≤ count * d.denominator := by positivity
    have hzero : ((count * d.denominator : Nat) : ℤ) = 0 := by
      push_cast
      omega
    rw [if_pos rfl]
    rcases Nat.mul_eq_zero.mp (Int.natCast_eq_zero.mp hzero) with hcount | hden
    · exact hcount.symm
    · exact absurd hden d.denominator_pos.ne'

theorem value_eq_magnitude (d : Double) :
    d.value = if d.negative then -d.magnitude else d.magnitude := by
  rw [value, numerator_div_denominator]
  split
  · exact neg_one_mul _
  · exact one_mul _

theorem value_nearestTo (n : Nat) : (nearestTo n).value = (nearestTo n).magnitude := by
  rw [value_eq_magnitude, negative_nearestTo, if_neg Bool.false_ne_true]

end Double

/-! ## 2. Two ways to a count -/

namespace Payload

open Double Checked

/-- The double nearest to the greatest count. -/
def countLimit : Double := nearestTo maxSafeInteger

/-- The count of a double, by three tests and a cast. -/
def countOfDouble? (d : Double) : Option Nat :=
  if d.isWhole && (zero false).atMost d && d.atMost countLimit then some d.toWord else none

/-- The whole number, if it is one and not negative. -/
def wordOf? : Number → Option Nat
  | .natural n => some n
  | .negative _ | .double _ => none

/-- The double nearest to a number. -/
def doubleOf : Number → Double
  | .natural n => nearestTo n
  | .negative n => { nearestTo n with negative := true }
  | .double d => d

/-- The count of a number: the whole number that it is, else the count of its double. -/
def countByPaths? (n : Number) : Option Nat :=
  ((wordOf? n).or (countOfDouble? (doubleOf n))).filter (· ≤ maxSafeInteger)

theorem value_zero (negative : Bool) : (zero negative).value = 0 := by
  have hnumerator : (zero negative).numerator = 0 := Nat.zero_mul _
  rw [Double.value, hnumerator, Nat.cast_zero, zero_div, mul_zero]

/-- The limit is a double itself. -/
theorem value_countLimit : countLimit.value = maxSafeInteger := by
  rw [countLimit, value_nearestTo, magnitude_nearestTo_of_lt (by decide)]

/-- **The tests and the cast give the exact value of a double in the range.** -/
theorem countOfDouble?_eq_some_iff {d : Double} {count : Nat} :
    countOfDouble? d = some count ↔ d.value = count ∧ count ≤ maxSafeInteger := by
  have hword : maxSafeInteger ≤ greatestWord := by decide
  rw [countOfDouble?, Option.ite_none_right_eq_some, Option.some_inj]
  simp only [Bool.and_eq_true, isWhole_iff, atMost_iff, value_zero, value_countLimit]
  constructor
  · rintro ⟨⟨⟨⟨z, hz⟩, hnonneg⟩, hlimit⟩, hcast⟩
    rw [hz] at hnonneg hlimit
    obtain ⟨k, rfl⟩ := Int.eq_ofNat_of_zero_le (by exact_mod_cast hnonneg)
    have hk : k ≤ maxSafeInteger := by exact_mod_cast hlimit
    have hvalue : d.value = k := by rw [hz, Int.cast_natCast]
    rw [toWord_eq hvalue (hk.trans hword)] at hcast
    exact ⟨hcast ▸ hvalue, hcast ▸ hk⟩
  · rintro ⟨hvalue, hcount⟩
    refine ⟨?_, toWord_eq hvalue (hcount.trans hword)⟩
    rw [hvalue]
    exact ⟨⟨⟨count, (Int.cast_natCast count).symm⟩, Nat.cast_nonneg count⟩, Nat.cast_le.mpr hcount⟩

theorem value_doubleOf_negative (n : Nat) :
    (doubleOf (.negative n)).value = -(nearestTo n).magnitude :=
  value_eq_magnitude (doubleOf (.negative n))

/-- A number and its double have the same value as soon as one of them is a count. -/
theorem value_doubleOf_eq_iff {n : Number} {count : Nat} (hcount : count ≤ maxSafeInteger) :
    (doubleOf n).value = count ↔ n.value = count := by
  cases n with
  | double d => exact Iff.rfl
  | natural n =>
    show (nearestTo n).value = count ↔ (n : ℚ) = count
    rw [value_nearestTo]
    rcases Nat.lt_or_ge n mantissaBound with hn | hn
    · rw [magnitude_nearestTo_of_lt hn]
    · have hbelow : (count : ℚ) < mantissaBound :=
        Nat.cast_lt.mpr (hcount.trans_lt (by decide))
      have hn' : (mantissaBound : ℚ) ≤ n := Nat.cast_le.mpr hn
      exact iff_of_false (hbelow.trans_le (le_magnitude_nearestTo hn)).ne' (hbelow.trans_le hn').ne'
  | negative n =>
    rw [value_doubleOf_negative]
    show -(nearestTo n).magnitude = count ↔ -(n : ℚ) = count
    rcases Nat.eq_zero_or_pos n with rfl | hn
    · rw [magnitude_nearestTo_of_lt (by decide)]
    · have hcount' : (0 : ℚ) ≤ count := Nat.cast_nonneg count
      have hdouble := neg_lt_zero.mpr (magnitude_nearestTo_pos hn)
      have hnumber : -(n : ℚ) < 0 := neg_lt_zero.mpr (Nat.cast_pos.mpr hn)
      exact iff_of_false (hdouble.trans_le hcount').ne (hnumber.trans_le hcount').ne

/-- **The way through the double alone gives the count of every number.** -/
theorem countOfDouble?_doubleOf (n : Number) : countOfDouble? (doubleOf n) = countOf? n := by
  refine Option.ext fun count => ?_
  rw [countOfDouble?_eq_some_iff, countOf?_eq_some_iff]
  exact and_congr_left value_doubleOf_eq_iff

/-- The range is not left by the first test, so the second changes nothing. -/
theorem filter_countOf? (n : Number) :
    (countOf? n).filter (· ≤ maxSafeInteger) = countOf? n := by
  rw [countOf?, Option.filter_filter]
  simp only [Bool.and_self]

/-- **Both ways together give the count.** -/
theorem countByPaths?_eq (n : Number) : countByPaths? n = countOf? n := by
  unfold countByPaths?
  cases n with
  | natural n => rfl
  | negative n =>
    rw [countOfDouble?_doubleOf]
    exact filter_countOf? _
  | double d =>
    rw [countOfDouble?_doubleOf]
    exact filter_countOf? _

/-! ## 3. Counts and values -/

/-- The values of counts: the integers from zero to `2^53 - 1`. -/
def IsCount (q : ℚ) : Prop := ∃ z : ℤ, q = z ∧ 0 ≤ z ∧ z ≤ maxSafeInteger

theorem isCount_value_iff {n : Number} : IsCount n.value ↔ (countOf? n).isSome := by
  rw [Option.isSome_iff_exists]
  simp only [countOf?_eq_some_iff]
  constructor
  · rintro ⟨z, hz, hnonneg, hlimit⟩
    obtain ⟨count, rfl⟩ := Int.eq_ofNat_of_zero_le hnonneg
    exact ⟨count, hz, Int.ofNat_le.mp hlimit⟩
  · rintro ⟨count, hcount, hlimit⟩
    exact ⟨count, hcount, Int.natCast_nonneg count, Int.ofNat_le.mpr hlimit⟩

section Reading

variable {k : CountKeyword} {n : Number} {span : Span} {count : Nat}

theorem readCount_of_some (h : countOf? n = some count) :
    readCount k (.number n span) = pure count := by
  have hread : readNumber (.count k) (.number n span) = pure n := rfl
  rw [readCount, hread, pure_bind, h]

theorem readCount_of_none (h : countOf? n = none) :
    readCount k (.number n span) = refuse (.notCount k n) span := by
  have hread : readNumber (.count k) (.number n span) = pure n := rfl
  rw [readCount, hread, pure_bind, h]
  rfl

theorem readCount_number_eq_iff :
    readCount k (.number n span) = pure count ↔ n.value = count ∧ count ≤ maxSafeInteger := by
  rw [← countOf?_eq_some_iff]
  refine ⟨fun h => ?_, readCount_of_some⟩
  cases hcount : countOf? n with
  | some other =>
    rw [readCount_of_some hcount] at h
    injection h with _ hresult
    injection hresult with hsame
    rw [hsame]
  | none =>
    rw [readCount_of_none hcount] at h
    injection h with _ hresult
    cases hresult

end Reading

/-- **A number is read as a count according to its value alone**: exactly the integers from zero to
    `2^53 - 1` are read, each as itself, and any other number is refused; numbers of one value are
    the same count; and each way of computing it, with whole numbers or with doubles, gives it. -/
theorem counts_by_value (k : CountKeyword) (n : Number) (span : Span) :
    ((∃ count, readCount k (.number n span) = pure count) ↔ IsCount n.value) ∧
      (∀ count, readCount k (.number n span) = pure count ↔
        n.value = count ∧ count ≤ maxSafeInteger) ∧
      (¬ IsCount n.value → readCount k (.number n span) = refuse (.notCount k n) span) ∧
      (∀ m span', m.value = n.value → ∀ count,
        readCount k (.number m span') = pure count ↔ readCount k (.number n span) = pure count) ∧
      countByPaths? n = countOf? n ∧ countOfDouble? (doubleOf n) = countOf? n := by
  refine ⟨?_, fun _ => readCount_number_eq_iff, ?_, ?_, countByPaths?_eq n,
    countOfDouble?_doubleOf n⟩
  · simp only [isCount_value_iff, Option.isSome_iff_exists, readCount_number_eq_iff,
      countOf?_eq_some_iff]
  · intro hnot
    rw [isCount_value_iff, Option.not_isSome_iff_eq_none] at hnot
    exact readCount_of_none hnot
  · intro m span' hvalue count
    rw [readCount_number_eq_iff, readCount_number_eq_iff, hvalue]

/-- The token `20e-1`. -/
def twentyTenths : Numeral := ⟨false, ['2', '0'], [], some ⟨true, ['1']⟩⟩

/-- The token `-0.0`. -/
def signedZero : Numeral := ⟨true, ['0'], ['0'], none⟩

theorem scale_down (negative : Bool) (significand : Nat) {k : Nat} (hpos : 0 < k)
    (h : k ≤ Numeral.greatestPower) :
    Numeral.scale negative significand (-k) = some
      { ((nearestTo significand).div (Numeral.powerOfTen k)).getD
          (zero (nearestTo significand).negative) with negative := negative } := by
  have hbelow : ¬ (0 : ℤ) ≤ -k := by omega
  simp only [Numeral.scale, if_neg hbelow, neg_neg, Int.toNat_natCast, Option.map_some]
  rw [Numeral.scaleDown, if_pos h]
  rfl

theorem value_twentyTenths : twentyTenths.value = .double ⟨false, leastMantissa, -51⟩ := by
  have hscale : Numeral.scale false 20 (-1) = some ⟨false, leastMantissa, -51⟩ :=
    (scale_down false 20 Nat.one_pos (by decide)).trans (by decide)
  simp [twentyTenths, Numeral.value, Numeral.approximate, Numeral.takeDigits,
    Numeral.exponentValue, Numeral.wrapExponent, Numeral.clampExponent, digitValue,
    Numeral.significandLimit, Numeral.exponentLimit, hscale]

theorem value_signedZero : signedZero.value = .double (zero true) := by
  have hscale : Numeral.scale true 0 (-1) = some (zero true) :=
    (scale_down true 0 Nat.one_pos (by decide)).trans (by decide)
  simp [signedZero, Numeral.value, Numeral.approximate, Numeral.takeDigits, digitValue,
    Numeral.wrapExponent, Numeral.significandLimit, hscale]

/-- Two spellings of two are the same count, minus zero is zero, and `2^53` is refused in either
    representation. -/
theorem counts_by_value_spellings :
    Numeral.ofToken? ['2', '0', 'e', '-', '1'] = some twentyTenths ∧
      Numeral.ofToken? ['-', '0', '.', '0'] = some signedZero ∧
      twentyTenths.value.value = (Number.natural 2).value ∧
      (∀ count, readCount .minItems (.number twentyTenths.value ⟨0, 5⟩) = pure count ↔
        readCount .minItems (.number (.natural 2) ⟨0, 1⟩) = pure count) ∧
      readCount .minItems (.number (.natural 2) ⟨0, 1⟩) = pure 2 ∧
      readCount .minItems (.number signedZero.value ⟨0, 4⟩) = pure 0 ∧
      ¬ IsCount (Number.natural mantissaBound).value ∧
      readCount .minItems (.number (.natural mantissaBound) ⟨0, 16⟩) =
        refuse (.notCount .minItems (.natural mantissaBound)) ⟨0, 16⟩ ∧
      ¬ IsCount (Number.double pastMantissas).value ∧
      readCount .minItems (.number (.double pastMantissas) ⟨0, 18⟩) =
        refuse (.notCount .minItems (.double pastMantissas)) ⟨0, 18⟩ := by
  have htwo : (Number.natural 2).value = (2 : Nat) ∧ 2 ≤ maxSafeInteger :=
    countOf?_eq_some_iff.mp (by decide)
  have htwenty : twentyTenths.value.value = (2 : Nat) ∧ 2 ≤ maxSafeInteger :=
    countOf?_eq_some_iff.mp (by rw [value_twentyTenths]; decide)
  have hzero : signedZero.value.value = (0 : Nat) := by
    rw [value_signedZero, Nat.cast_zero]
    exact value_zero true
  have hnatural : ¬ IsCount (Number.natural mantissaBound).value := by
    rw [isCount_value_iff]
    decide
  have hdouble : ¬ IsCount (Number.double pastMantissas).value := by
    rw [isCount_value_iff]
    decide
  have hmain := counts_by_value .minItems (.natural 2) ⟨0, 1⟩
  have hsame : twentyTenths.value.value = (Number.natural 2).value := htwenty.1.trans htwo.1.symm
  exact ⟨by decide, by decide, hsame, hmain.2.2.2.1 _ _ hsame, (hmain.2.1 2).mpr htwo,
    ((counts_by_value .minItems signedZero.value ⟨0, 4⟩).2.1 0).mpr ⟨hzero, Nat.zero_le _⟩,
    hnatural, (counts_by_value .minItems _ _).2.2.1 hnatural, hdouble,
    (counts_by_value .minItems _ _).2.2.1 hdouble⟩

end Payload

end SchemaCompiler
