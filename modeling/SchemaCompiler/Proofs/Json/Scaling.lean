/-
  File:      SchemaCompiler/Proofs/Json/Scaling.lean
  Subject:   Significands times powers of ten: what scaling gives, and when it leaves the range.

  Scaling rounds the significand, rounds the power of ten and rounds their product, so it may miss
  the nearest double. Still it never gives a double below the greatest one for what is beyond the
  range (`scale_saturates`): since rounding keeps the order, only the least significand that a power
  of ten brings out of the range matters, and there are twenty such powers (`saturates_least`). A
  significand that has lost digits may stand for up to ten units more (`Beyond`); this matters at
  one power only (`saturates_least_cut`).
-/
import SchemaCompiler.Json.Numeral
import SchemaCompiler.Proofs.Number.Rounding

namespace SchemaCompiler

namespace Numeral

open Double

/-! ## 1. Canonical results -/

section Canonical

variable {num den : Nat} {d default : Double}

theorem canonical_getD (hden : 0 < den) (h : default.Canonical) (negative : Bool) :
    ((ofRatio negative num den).getD default).Canonical := by
  rcases ofRatio_cases negative num hden with ⟨hnone, -⟩ | ⟨d, hsome, hcanonical, -⟩
  · rw [hnone]
    exact h
  · rw [hsome]
    exact hcanonical

/-- The double of a natural number, as a start of scaling. -/
theorem canonical_start (n : Nat) : ((ofNat n).getD (greatest false)).Canonical :=
  canonical_getD Nat.one_pos (canonical_greatest false) false

/-- A natural number of 64 bits has a double. -/
theorem ofNat_cases {n : Nat} (h : n ≤ significandLimit) :
    ∃ d, ofNat n = some d ∧ d.Canonical ∧ d.negative = false ∧ d.magnitude = rounded n 1 := by
  rcases ofRatio_cases false n Nat.one_pos with ⟨-, hbeyond⟩ | hsome
  · -- the double of the greatest of them is not beyond the range
    obtain ⟨hnone, -⟩ | ⟨d, -, hcanonical, -, hvalue⟩ :=
      ofRatio_cases false significandLimit Nat.one_pos
    · exact absurd hnone (by decide)
    · have hratio : (n : ℚ) / (1 : Nat) ≤ significandLimit / (1 : Nat) := by
        gcongr
      have hmono := rounded_mono Nat.one_pos Nat.one_pos hratio
      rw [← hvalue] at hmono
      exact absurd hbeyond (not_lt.mpr (hmono.trans hcanonical.magnitude_le))
  · exact hsome

theorem numerator_pos_of_magnitude (h : 0 < d.magnitude) : 0 < d.numerator := by
  have hmantissa : d.mantissa ≠ 0 := by
    intro hzero
    rw [magnitude, hzero, Nat.cast_zero, zero_mul] at h
    exact lt_irrefl 0 h
  exact Nat.mul_pos (Nat.pos_of_ne_zero hmantissa) (Nat.two_pow_pos _)

theorem powerOfTen_pos (k : Nat) : 0 < (powerOfTen k).numerator := by
  refine numerator_pos_of_magnitude ?_
  unfold powerOfTen ofNat
  rcases ofRatio_cases false (tenPow k) Nat.one_pos with ⟨hnone, -⟩ | ⟨d, hsome, -, -, hvalue⟩
  · rw [hnone, Option.getD_none]
    unfold magnitude greatest mantissaBound
    positivity
  · rw [hsome, Option.getD_some, hvalue]
    exact rounded_pos Nat.one_pos (Nat.one_le_pow k 10 (by decide))

theorem canonical_div_powerOfTen (d : Double) (k : Nat) :
    ((d.div (powerOfTen k)).getD (zero d.negative)).Canonical := by
  have hden : 0 < d.denominator * (powerOfTen k).numerator :=
    Nat.mul_pos (Nat.two_pow_pos _) (powerOfTen_pos k)
  exact canonical_getD hden (canonical_zero d.negative) _

theorem canonical_scaleDown (h : d.Canonical) (k : Nat) : (scaleDown d k).Canonical := by
  fun_induction scaleDown d k with
  | case1 d k hsmall => exact canonical_div_powerOfTen d k
  | case2 d k hlarge hzero => exact h
  | case3 d k hlarge hzero ih => exact ih (canonical_div_powerOfTen d greatestPower)

theorem canonical_mul (a b : Double) (h : a.mul b = some d) : d.Canonical := by
  rcases ofRatio_cases (a.negative != b.negative) (a.numerator * b.numerator)
    (denominator_mul_pos a b) with ⟨hnone, -⟩ | ⟨d', hsome, hcanonical, -⟩
  · rw [mul, hnone] at h
    cases h
  · rw [mul, hsome, Option.some_inj] at h
    exact h ▸ hcanonical

theorem canonical_scaleUp {start : Double} (h : start.Canonical) {k : Nat}
    (hscale : scaleUp start k = some d) : d.Canonical := by
  unfold scaleUp at hscale
  split at hscale
  · exact canonical_mul _ _ hscale
  · split at hscale
    · cases hscale
      exact h
    · cases hscale

theorem canonical_scale {negative : Bool} {significand : Nat} {e : ℤ}
    (h : scale negative significand e = some d) : d.Canonical := by
  have hstart := canonical_start significand
  unfold scale at h
  obtain ⟨r, hr, rfl⟩ := Option.map_eq_some_iff.mp h
  refine Canonical.withSign ?_ negative
  split at hr
  · exact canonical_scaleUp hstart hr
  · cases hr
    exact canonical_scaleDown hstart _

end Canonical

/-! ## 2. Beyond the range -/

theorem tenPow_pos (k : Nat) : 0 < tenPow k := Nat.pow_pos (by decide)

theorem tenPow_le {j k : Nat} (h : j ≤ k) : tenPow j ≤ tenPow k :=
  Nat.pow_le_pow_right (by decide) h

theorem cast_tenPow (k : Nat) : (tenPow k : ℚ) = 10 ^ (k : ℤ) := by
  rw [tenPow, Nat.pow_eq, Nat.cast_pow, Nat.cast_ofNat, zpow_natCast]

/-- The double that scaling starts with. -/
def startOf (significand : Nat) : Double := (ofNat significand).getD (greatest false)

/-- A significand of this size may have lost digits: a further one did not fit. -/
def cutSignificand : Nat := significandLimit / 10

section Saturation

variable {m n k : Nat}

theorem magnitude_startOf (h : n ≤ significandLimit) : (startOf n).magnitude = rounded n 1 := by
  obtain ⟨d, hsome, -, -, hvalue⟩ := ofNat_cases h
  rw [startOf, hsome, Option.getD_some, hvalue]

theorem magnitude_startOf_mono (h : m ≤ n) (hn : n ≤ significandLimit) :
    (startOf m).magnitude ≤ (startOf n).magnitude := by
  rw [magnitude_startOf (h.trans hn), magnitude_startOf hn]
  refine rounded_mono Nat.one_pos Nat.one_pos ?_
  gcongr

theorem isZero_startOf (hpos : 0 < n) (h : n ≤ significandLimit) : (startOf n).isZero = false := by
  have hmagnitude : 0 < (startOf n).magnitude := by
    rw [magnitude_startOf h]
    exact rounded_pos Nat.one_pos hpos
  refine beq_eq_false_iff_ne.mpr fun hzero => ?_
  rw [magnitude, hzero, Nat.cast_zero, zero_mul] at hmagnitude
  exact lt_irrefl 0 hmagnitude

/-- For each power of ten that brings a significand out of the range, the least significand that
    does so. -/
theorem saturates_least : ((List.range' 289 20).all fun k => decide (Saturates
    ((startOf ((greatest false).numerator / tenPow k + 1)).mul (powerOfTen k)))) = true := by
  decide +kernel

/-- The same for a significand that has lost digits. -/
theorem saturates_least_cut : Saturates
    ((startOf ((greatest false).numerator / tenPow 289 - 9)).mul (powerOfTen 289)) := by
  decide +kernel

/-- The significand times the power of ten is beyond the range, or may have been before digits were
    lost. -/
def Beyond (significand : Nat) (e : ℤ) : Prop :=
  (greatest false).magnitude < significand * 10 ^ e ∨
    cutSignificand ≤ significand ∧ (greatest false).magnitude < (significand + 10) * 10 ^ e

theorem Beyond.pos {e : ℤ} (h : Beyond n e) : 0 < n := by
  rcases h with hbeyond | ⟨hcut, -⟩
  · refine Nat.pos_of_ne_zero fun hzero => ?_
    rw [hzero, Nat.cast_zero, zero_mul, magnitude_greatest] at hbeyond
    exact absurd hbeyond (not_lt.mpr (Nat.cast_nonneg _))
  · exact (by decide : 0 < cutSignificand).trans_le hcut

/-- A significand of 64 bits needs a large power. -/
theorem Beyond.power_ge {e : ℤ} (h : Beyond n e) (hn : n ≤ significandLimit) : 289 ≤ e := by
  by_contra hsmall
  have hbeyond : (greatest false).magnitude < (n + 10) * 10 ^ e := by
    rcases h with hbeyond | ⟨-, hbeyond⟩
    · refine hbeyond.trans_le ?_
      gcongr
      exact le_add_of_nonneg_right (by norm_num)
    · exact hbeyond
  have hlimit : ((n : ℚ) + 10) * 10 ^ e ≤ ((significandLimit + 10) * tenPow 288 : Nat) := by
    have hpower : (10 : ℚ) ^ e ≤ tenPow 288 := by
      rw [cast_tenPow]
      exact zpow_le_zpow_right₀ (by norm_num) (by omega)
    rw [Nat.cast_mul, Nat.cast_add, Nat.cast_ofNat]
    gcongr
  have hrange : (significandLimit + 10) * tenPow 288 ≤ (greatest false).numerator := by
    decide +kernel
  rw [magnitude_greatest] at hbeyond
  exact absurd hbeyond (not_lt.mpr (hlimit.trans (Nat.cast_le.mpr hrange)))

theorem Beyond.natural (h : Beyond n k) :
    (greatest false).numerator < n * tenPow k ∨
      cutSignificand ≤ n ∧ (greatest false).numerator < (n + 10) * tenPow k := by
  unfold Beyond at h
  rw [magnitude_greatest, ← cast_tenPow] at h
  exact_mod_cast h

theorem saturates_mul_of_lt (hlow : 289 ≤ k) (hhigh : k ≤ greatestPower) (hn : n ≤ significandLimit)
    (h : (greatest false).numerator < n * tenPow k) :
    Saturates ((startOf n).mul (powerOfTen k)) := by
  have hmem : k ∈ List.range' 289 20 := by
    rw [List.mem_range'_1]
    unfold greatestPower at hhigh
    omega
  have hleast := of_decide_eq_true (List.all_eq_true.mp saturates_least k hmem)
  have hle := (Nat.div_lt_iff_lt_mul (tenPow_pos k)).mpr h
  exact saturates_mul_mono (magnitude_startOf_mono hle hn) hleast

/-- **A product beyond the range is not smaller than the greatest double.** -/
theorem saturates_mul (h : Beyond n k) (hn : n ≤ significandLimit) (hhigh : k ≤ greatestPower) :
    Saturates ((startOf n).mul (powerOfTen k)) := by
  have hlow : 289 ≤ k := by
    have := h.power_ge hn
    omega
  rcases h.natural with hbeyond | ⟨hcut, hbeyond⟩
  · exact saturates_mul_of_lt hlow hhigh hn hbeyond
  · rcases Nat.lt_or_eq_of_le hlow with hmore | rfl
    · -- lost digits do not matter, what is left is beyond the range itself
      refine saturates_mul_of_lt hlow hhigh hn ?_
      calc (greatest false).numerator < cutSignificand * tenPow 290 := by decide +kernel
        _ ≤ n * tenPow k := Nat.mul_le_mul hcut (tenPow_le hmore)
    · have hleast := (Nat.div_lt_iff_lt_mul (tenPow_pos 289)).mpr hbeyond
      have hle : (greatest false).numerator / tenPow 289 - 9 ≤ n := by omega
      exact saturates_mul_mono (magnitude_startOf_mono hle hn) saturates_least_cut

theorem scaleUp_saturates (h : Beyond n k) (hn : n ≤ significandLimit) {k' : Nat}
    (hk : k' = k ∨ greatestPower < k ∧ greatestPower < k') :
    Saturates (scaleUp (startOf n) k') := by
  unfold scaleUp
  split
  · rename_i hhigh
    rcases hk with rfl | ⟨-, hk'⟩
    · exact saturates_mul h hn hhigh
    · omega
  · rw [isZero_startOf h.pos hn]
    exact fun d hd => by cases hd

/-- **Scaling beyond the range gives the greatest double or none**, whether the exponent is cut to
    its range or not. -/
theorem scale_saturates {e e' : ℤ} (h : Beyond n e) (hn : n ≤ significandLimit)
    (he : e' = e ∨ e' = clampExponent e) {negative : Bool} {d : Double}
    (hscale : scale negative n e' = some d) : d = greatest negative := by
  have hlow := h.power_ge hn
  obtain ⟨k, rfl⟩ := Int.eq_ofNat_of_zero_le (by omega : 0 ≤ e)
  unfold clampExponent exponentLimit at he
  have hpositive : 0 ≤ e' := by omega
  unfold scale at hscale
  simp only [if_pos hpositive] at hscale
  obtain ⟨r, hr, rfl⟩ := Option.map_eq_some_iff.mp hscale
  have hsaturates : Saturates (scaleUp (startOf n) e'.toNat) := by
    refine scaleUp_saturates h hn ?_
    unfold greatestPower
    omega
  rw [hsaturates r hr]
  rfl

end Saturation

end Numeral

end SchemaCompiler
