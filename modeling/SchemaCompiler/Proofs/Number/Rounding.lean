/-
  File:      SchemaCompiler/Proofs/Number/Rounding.lean
  Subject:   What rounding to a double gives: a canonical double, and never less for more.

  A quotient is rounded in two steps: its exponent is found, and then its mantissa is rounded to a
  natural number. Both keep the order of quotients (`Fits.exponent_le`, `roundDiv_mono`), and the
  mantissas of one exponent end where those of the next begin. So rounding keeps the order
  (`rounded_mono`), as long as nothing limits it.

  * **`ofRatio_cases`** -- there is no double iff the rounded quotient is beyond the greatest one;
    else the double is the rounded quotient in its normal form (`Canonical`);
  * `magnitude_nearestTo_of_lt`, `le_magnitude_nearestTo` -- the double nearest to a whole number is
    the number itself below `2^53`, and is never below `2^53` from there on;
  * `saturates_ofRatio_iff`, `saturates_mul_mono` -- a result that is the greatest double or none at
    all stays so if the operand grows.
-/
import Mathlib.Algebra.Order.Field.Power
import Mathlib.Data.Nat.Log
import Mathlib.Tactic.Linarith
import Mathlib.Tactic.Positivity
import Mathlib.Tactic.Ring
import SchemaCompiler.Number.Double

namespace SchemaCompiler

namespace Double

/-! ## 1. Rounding a quotient -/

/-- The rounded quotient is above `k` iff the quotient is above `k + 1/2`, or is `k + 1/2` and `k`
    is odd. -/
theorem lt_roundDiv_iff {num den k : Nat} (hden : 0 < den) :
    k < roundDiv num den ↔
      (2 * k + 1) * den < 2 * num ∨ (2 * k + 1) * den = 2 * num ∧ k % 2 = 1 := by
  have hnum : den * (num / den) + num % den = num := Nat.div_add_mod num den
  have hrem : num % den < den := Nat.mod_lt num hden
  unfold roundDiv
  simp only
  generalize num / den = q at hnum ⊢
  generalize num % den = r at hnum hrem ⊢
  rcases Nat.lt_trichotomy k q with hk | rfl | hk
  · obtain ⟨j, rfl⟩ := Nat.exists_eq_add_of_lt hk
    have habove : (2 * k + 1) * den < 2 * num := by
      rw [← hnum]
      have : den * (k + j + 1) = k * den + j * den + den := by ring
      have : (2 * k + 1) * den = 2 * (k * den) + den := by ring
      omega
    refine iff_of_true ?_ (.inl habove)
    split <;> omega
  · have hproduct : (2 * k + 1) * den = 2 * (den * k) + den := by ring
    rw [hproduct]
    split <;> omega
  · obtain ⟨j, rfl⟩ := Nat.exists_eq_add_of_lt hk
    have hproduct : (2 * (q + j + 1) + 1) * den = 2 * (den * q) + 2 * (j * den) + 3 * den := by ring
    have hbelow : 2 * num < (2 * (q + j + 1) + 1) * den := by omega
    refine iff_of_false ?_ (by omega)
    split <;> omega

theorem roundDiv_mono {num den num' den' : Nat} (hden : 0 < den) (hden' : 0 < den')
    (h : num * den' ≤ num' * den) : roundDiv num den ≤ roundDiv num' den' := by
  refine Nat.le_of_not_lt fun hlt => ?_
  generalize hk : roundDiv num' den' = k at hlt
  have hnot : ¬ k < roundDiv num' den' := by omega
  rw [lt_roundDiv_iff hden'] at hnot
  have hscaled : 2 * num * den' ≤ 2 * num' * den := by
    calc 2 * num * den' = 2 * (num * den') := by ring
      _ ≤ 2 * (num' * den) := by omega
      _ = 2 * num' * den := by ring
  rcases (lt_roundDiv_iff hden).mp hlt with habove | ⟨htie, hodd⟩
  · refine hnot (.inl (Nat.lt_of_mul_lt_mul_right (a := den) ?_))
    calc (2 * k + 1) * den' * den = (2 * k + 1) * den * den' := by ring
      _ < 2 * num * den' := Nat.mul_lt_mul_of_pos_right habove hden'
      _ ≤ 2 * num' * den := hscaled
  · have hle : (2 * k + 1) * den' ≤ 2 * num' := by
      refine Nat.le_of_mul_le_mul_right ?_ hden
      calc (2 * k + 1) * den' * den = (2 * k + 1) * den * den' := by ring
        _ = 2 * num * den' := by rw [htie]
        _ ≤ 2 * num' * den := hscaled
    rcases Nat.lt_or_eq_of_le hle with hlt | heq
    · exact hnot (.inl hlt)
    · exact hnot (.inr ⟨heq, hodd⟩)

theorem roundDiv_one (k : Nat) : roundDiv k 1 = k := by
  simp [roundDiv, Nat.mod_one]

theorem le_roundDiv {num den k : Nat} (hden : 0 < den) (h : k * den ≤ num) :
    k ≤ roundDiv num den := by
  have hmono := roundDiv_mono Nat.one_pos hden (h.trans_eq (Nat.mul_one num).symm)
  rwa [roundDiv_one] at hmono

theorem roundDiv_le {num den k : Nat} (hden : 0 < den) (h : num ≤ k * den) :
    roundDiv num den ≤ k := by
  have hmono := roundDiv_mono hden Nat.one_pos ((Nat.mul_one num).trans_le h)
  rwa [roundDiv_one] at hmono

/-! ## 2. The exponent of a quotient -/

/-- A power with an integer exponent, as a quotient of two natural numbers. -/
theorem zpow_eq_div {base : Nat} (hbase : (base : ℚ) ≠ 0) (e : ℤ) :
    (base : ℚ) ^ e = (Nat.pow base e.toNat : Nat) / (Nat.pow base (-e).toNat : Nat) := by
  have hsplit : e = (e.toNat : ℤ) - ((-e).toNat : ℤ) := by omega
  conv_lhs => rw [hsplit, zpow_sub₀ hbase, zpow_natCast, zpow_natCast]
  rw [Nat.pow_eq, Nat.pow_eq, Nat.cast_pow, Nat.cast_pow]

theorem two_zpow_eq_div (e : ℤ) : (2 : ℚ) ^ e = twoPow e.toNat / twoPow (-e).toNat :=
  @zpow_eq_div 2 two_ne_zero e

theorem scaled_ratio (num den : Nat) (e : ℤ) :
    ((scaled num den e).1 : ℚ) / (scaled num den e).2 = num / den / 2 ^ e := by
  rw [scaled, two_zpow_eq_div]
  push_cast
  rw [div_div_div_eq]

theorem scaled_pos {den : Nat} (hden : 0 < den) (num : Nat) (e : ℤ) :
    0 < (scaled num den e).2 := Nat.mul_pos hden (Nat.two_pow_pos _)

/-- At the exponent the number has a mantissa of 53 bits, or the exponent is the least one. -/
structure Fits (x : ℚ) (e : ℤ) : Prop where
  least : leastExponent ≤ e
  below : x < mantissaBound * 2 ^ e
  normal : leastMantissa * 2 ^ e ≤ x ∨ e = leastExponent

theorem mantissaBound_eq : (mantissaBound : ℚ) = 2 ^ (53 : ℤ) := by norm_num [mantissaBound]

theorem leastMantissa_eq : (leastMantissa : ℚ) = 2 ^ (52 : ℤ) := by norm_num [leastMantissa]

/-- The mantissas of one exponent end where those of the next begin. -/
theorem mantissaBound_mul_zpow (e : ℤ) :
    (mantissaBound : ℚ) * 2 ^ (e - 1) = leastMantissa * 2 ^ e := by
  rw [zpow_sub_one₀ two_ne_zero, mantissaBound, leastMantissa]
  push_cast
  ring

section Ratio

variable {num den : Nat}

/-- The lengths of two numbers give the length of their quotient up to one. -/
theorem log2_bounds (hnum : 0 < num) (hden : 0 < den) :
    (2 : ℚ) ^ ((num.log2 : ℤ) - den.log2 - 1) < num / den ∧
      (num : ℚ) / den < 2 ^ ((num.log2 : ℤ) - den.log2 + 1) := by
  have hcast : ∀ n k : Nat, n = 2 ^ k → (n : ℚ) = 2 ^ (k : ℤ) := by
    intro n k h
    rw [h, Nat.cast_pow, Nat.cast_ofNat, zpow_natCast]
  have hnumLow : (2 : ℚ) ^ (num.log2 : ℤ) ≤ num := by
    rw [← hcast _ _ rfl]
    exact Nat.cast_le.mpr (Nat.log2_self_le hnum.ne')
  have hnumHigh : (num : ℚ) < 2 ^ ((num.log2 : ℤ) + 1) := by
    rw [← Nat.cast_succ, ← hcast _ _ rfl]
    exact Nat.cast_lt.mpr Nat.lt_log2_self
  have hdenLow : (2 : ℚ) ^ (den.log2 : ℤ) ≤ den := by
    rw [← hcast _ _ rfl]
    exact Nat.cast_le.mpr (Nat.log2_self_le hden.ne')
  have hdenHigh : (den : ℚ) < 2 ^ ((den.log2 : ℤ) + 1) := by
    rw [← Nat.cast_succ, ← hcast _ _ rfl]
    exact Nat.cast_lt.mpr Nat.lt_log2_self
  have hdenPos : (0 : ℚ) < den := Nat.cast_pos.mpr hden
  constructor
  · rw [lt_div_iff₀ hdenPos]
    calc (2 : ℚ) ^ ((num.log2 : ℤ) - den.log2 - 1) * den
        < 2 ^ ((num.log2 : ℤ) - den.log2 - 1) * 2 ^ ((den.log2 : ℤ) + 1) := by gcongr
      _ = 2 ^ (num.log2 : ℤ) := by rw [← zpow_add₀ two_ne_zero]; congr 1; ring
      _ ≤ num := hnumLow
  · rw [div_lt_iff₀ hdenPos]
    calc (num : ℚ) < 2 ^ ((num.log2 : ℤ) + 1) := hnumHigh
      _ = 2 ^ ((num.log2 : ℤ) - den.log2 + 1) * 2 ^ (den.log2 : ℤ) := by
        rw [← zpow_add₀ two_ne_zero]; congr 1; ring
      _ ≤ 2 ^ ((num.log2 : ℤ) - den.log2 + 1) * den := by gcongr

theorem scaled_div_lt_iff (hden : 0 < den) (e : ℤ) :
    (scaled num den e).1 / (scaled num den e).2 < leastMantissa ↔
      (num : ℚ) / den < leastMantissa * 2 ^ e := by
  have hpos := scaled_pos hden num e
  rw [Nat.div_lt_iff_lt_mul hpos, ← Nat.cast_lt (α := ℚ), Nat.cast_mul,
    ← div_lt_iff₀ (Nat.cast_pos.mpr hpos), scaled_ratio,
    div_lt_iff₀ (zpow_pos two_pos e)]

/-- **The exponent that is chosen fits.** -/
theorem fits_exponentFor (hnum : 0 < num) (hden : 0 < den) :
    Fits ((num : ℚ) / den) (exponentFor num den) := by
  obtain ⟨hlow, hhigh⟩ := log2_bounds hnum hden
  unfold exponentFor
  simp only [scaled_div_lt_iff hden]
  generalize hguess : max leastExponent ((num.log2 : ℤ) - den.log2 - 52) = guess
  split
  · rename_i hsmall
    obtain ⟨hsmall, hmore⟩ := hsmall
    have hexact : guess = (num.log2 : ℤ) - den.log2 - 52 := by omega
    refine ⟨by omega, ?_, .inl ?_⟩
    · calc (num : ℚ) / den < leastMantissa * 2 ^ guess := hsmall
        _ = mantissaBound * 2 ^ (guess - 1) := (mantissaBound_mul_zpow guess).symm
    · calc (leastMantissa : ℚ) * 2 ^ (guess - 1)
          = 2 ^ ((num.log2 : ℤ) - den.log2 - 1) := by
            rw [leastMantissa_eq, ← zpow_add₀ two_ne_zero]; congr 1; omega
        _ ≤ num / den := hlow.le
  · rename_i hlarge
    refine ⟨by omega, ?_, ?_⟩
    · calc (num : ℚ) / den < 2 ^ ((num.log2 : ℤ) - den.log2 + 1) := hhigh
        _ ≤ 2 ^ (53 + guess) := zpow_le_zpow_right₀ one_le_two (by omega)
        _ = mantissaBound * 2 ^ guess := by rw [mantissaBound_eq, zpow_add₀ two_ne_zero]
    · by_cases hmore : leastExponent < guess
      · exact .inl (not_lt.mp fun hsmall => hlarge ⟨hsmall, hmore⟩)
      · exact .inr (by omega)

end Ratio

/-- A greater number has no smaller exponent. -/
theorem Fits.exponent_le {x y : ℚ} {e f : ℤ} (hx : Fits x e) (hy : Fits y f) (h : x ≤ y) :
    e ≤ f := by
  refine not_lt.mp fun hlt => ?_
  -- above the least exponent `x` has a full mantissa, too large for the exponent of `y`
  have hnormal := hx.normal.resolve_right (by have := hy.least; omega)
  have hcontra : y < y :=
    calc y < mantissaBound * 2 ^ f := hy.below
      _ ≤ mantissaBound * 2 ^ (e - 1) := by
        gcongr
        · exact one_le_two
        · omega
      _ = leastMantissa * 2 ^ e := mantissaBound_mul_zpow e
      _ ≤ x := hnormal
      _ ≤ y := h
  exact lt_irrefl y hcontra

/-! ## 3. Rounding without a limit -/

/-- The mantissa of a quotient at its exponent. -/
def mantissaFor (num den : Nat) : Nat :=
  roundDiv (scaled num den (exponentFor num den)).1 (scaled num den (exponentFor num den)).2

/-- The quotient rounded to 53 bits, however large it is. -/
def rounded (num den : Nat) : ℚ := mantissaFor num den * 2 ^ exponentFor num den

section Rounded

variable {num den num' den' : Nat}

/-- A bound of the quotient at its exponent bounds the mantissa. -/
theorem mantissaFor_le {k : Nat} (hden : 0 < den)
    (h : (num : ℚ) / den ≤ k * 2 ^ exponentFor num den) : mantissaFor num den ≤ k := by
  have hpos := scaled_pos hden num (exponentFor num den)
  refine roundDiv_le hpos ?_
  rw [← Nat.cast_le (α := ℚ), Nat.cast_mul, ← div_le_iff₀ (Nat.cast_pos.mpr hpos), scaled_ratio,
    div_le_iff₀ (zpow_pos two_pos _)]
  exact h

theorem le_mantissaFor {k : Nat} (hden : 0 < den)
    (h : k * 2 ^ exponentFor num den ≤ (num : ℚ) / den) : k ≤ mantissaFor num den := by
  have hpos := scaled_pos hden num (exponentFor num den)
  refine le_roundDiv hpos ?_
  rw [← Nat.cast_le (α := ℚ), Nat.cast_mul, ← le_div_iff₀ (Nat.cast_pos.mpr hpos), scaled_ratio,
    le_div_iff₀ (zpow_pos two_pos _)]
  exact h

theorem mantissaFor_le_bound (hnum : 0 < num) (hden : 0 < den) :
    mantissaFor num den ≤ mantissaBound :=
  mantissaFor_le hden (fits_exponentFor hnum hden).below.le

theorem rounded_nonneg (num den : Nat) : 0 ≤ rounded num den := by
  unfold rounded
  positivity

theorem rounded_zero (hden : 0 < den) : rounded 0 den = 0 := by
  have hmantissa : mantissaFor 0 den = 0 := by
    refine Nat.le_zero.mp (mantissaFor_le hden ?_)
    simp
  rw [rounded, hmantissa, Nat.cast_zero, zero_mul]

/-- Two quotients with the same exponent. -/
theorem mantissaFor_mono (hden : 0 < den) (hden' : 0 < den')
    (h : (num : ℚ) / den ≤ num' / den') (hexponent : exponentFor num den = exponentFor num' den') :
    mantissaFor num den ≤ mantissaFor num' den' := by
  have hpos := scaled_pos hden num (exponentFor num den)
  have hpos' := scaled_pos hden' num' (exponentFor num' den')
  refine roundDiv_mono hpos hpos' ?_
  rw [← Nat.cast_le (α := ℚ), Nat.cast_mul, Nat.cast_mul,
    ← div_le_div_iff₀ (Nat.cast_pos.mpr hpos) (Nat.cast_pos.mpr hpos'), scaled_ratio, scaled_ratio,
    hexponent]
  gcongr

/-- **Rounding keeps the order.** -/
theorem rounded_mono (hden : 0 < den) (hden' : 0 < den') (h : (num : ℚ) / den ≤ num' / den') :
    rounded num den ≤ rounded num' den' := by
  rcases Nat.eq_zero_or_pos num with rfl | hnum
  · rw [rounded_zero hden]
    exact rounded_nonneg num' den'
  have hratio : (0 : ℚ) < num / den := by positivity
  have hnum' : 0 < num' := by
    refine Nat.pos_of_ne_zero fun hzero => ?_
    rw [hzero, Nat.cast_zero, zero_div] at h
    exact absurd h hratio.not_ge
  have hfits := fits_exponentFor hnum hden
  have hfits' := fits_exponentFor hnum' hden'
  rcases (hfits.exponent_le hfits' h).lt_or_eq with hlt | heq
  · -- the smaller one reaches the least full mantissa of the next exponent at most
    have hnormal := hfits'.normal.resolve_right (by have := hfits.least; omega)
    have hbound : (mantissaFor num den : ℚ) ≤ mantissaBound :=
      Nat.cast_le.mpr (mantissaFor_le_bound hnum hden)
    have hfull : (leastMantissa : ℚ) ≤ mantissaFor num' den' :=
      Nat.cast_le.mpr (le_mantissaFor hden' hnormal)
    calc rounded num den ≤ mantissaBound * 2 ^ exponentFor num den := by
          unfold rounded
          gcongr
      _ ≤ mantissaBound * 2 ^ (exponentFor num' den' - 1) := by
        gcongr
        · exact one_le_two
        · omega
      _ = leastMantissa * 2 ^ exponentFor num' den' := mantissaBound_mul_zpow _
      _ ≤ rounded num' den' := by
        unfold rounded
        gcongr
  · have hmantissa : (mantissaFor num den : ℚ) ≤ mantissaFor num' den' :=
      Nat.cast_le.mpr (mantissaFor_mono hden hden' h heq)
    unfold rounded
    rw [heq]
    gcongr

theorem rounded_pos (hden : 0 < den) (h : den ≤ num) : 0 < rounded num den := by
  have hone : rounded 1 1 = 1 := by
    have hexponent : exponentFor 1 1 = -52 := by decide
    have hmantissa : mantissaFor 1 1 = leastMantissa := by decide
    rw [rounded, hexponent, hmantissa, leastMantissa_eq, ← zpow_add₀ two_ne_zero]
    rfl
  have hratio : ((1 : Nat) : ℚ) / (1 : Nat) ≤ num / den := by
    rw [Nat.cast_one, div_one, one_le_div (Nat.cast_pos.mpr hden)]
    exact Nat.cast_le.mpr h
  have hmono := rounded_mono Nat.one_pos hden hratio
  rw [hone] at hmono
  exact one_pos.trans_le hmono

end Rounded

/-! ## 4. Canonical doubles -/

/-- The normal form of the finite binary64 numbers. -/
structure Canonical (d : Double) : Prop where
  mantissa : d.mantissa < mantissaBound
  least : leastExponent ≤ d.exponent
  most : d.exponent ≤ greatestExponent
  normal : leastMantissa ≤ d.mantissa ∨ d.exponent = leastExponent

/-- The exact magnitude. -/
def magnitude (d : Double) : ℚ := d.mantissa * 2 ^ d.exponent

theorem numerator_div_denominator (d : Double) :
    (d.numerator : ℚ) / d.denominator = d.magnitude := by
  rw [numerator, denominator, magnitude, two_zpow_eq_div, Nat.cast_mul, mul_div_assoc]

theorem canonical_zero (negative : Bool) : (zero negative).Canonical := by
  cases negative <;> exact ⟨by decide, by decide, by decide, .inr rfl⟩

theorem canonical_greatest (negative : Bool) : (greatest negative).Canonical := by
  cases negative <;> exact ⟨by decide, by decide, by decide, .inl (by decide)⟩

theorem Canonical.withSign {d : Double} (h : d.Canonical) (negative : Bool) :
    ({ d with negative := negative } : Double).Canonical :=
  ⟨h.mantissa, h.least, h.most, h.normal⟩

theorem Canonical.magnitude_le {d : Double} (h : d.Canonical) :
    d.magnitude ≤ (greatest false).magnitude := by
  have hmantissa : d.mantissa ≤ mantissaBound - 1 := Nat.le_sub_one_of_lt h.mantissa
  unfold magnitude
  gcongr
  · exact hmantissa
  · exact one_le_two
  · exact h.most

/-- Only the greatest double is as large as the greatest double. -/
theorem Canonical.eq_greatest {d : Double} (h : d.Canonical)
    (hlarge : (greatest false).magnitude ≤ d.magnitude) : d = greatest d.negative := by
  have hmantissa : (d.mantissa : ℚ) < mantissaBound := Nat.cast_lt.mpr h.mantissa
  have hexponent : d.exponent = greatestExponent := by
    refine le_antisymm h.most (not_lt.mp fun hless => not_lt.mpr hlarge ?_)
    calc d.magnitude < mantissaBound * 2 ^ d.exponent := by
          unfold magnitude
          gcongr
      _ ≤ mantissaBound * 2 ^ (greatestExponent - 1) := by
        gcongr
        · exact one_le_two
        · omega
      _ = leastMantissa * 2 ^ greatestExponent := mantissaBound_mul_zpow _
      _ ≤ (mantissaBound - 1 : Nat) * 2 ^ greatestExponent := by
        gcongr
        decide
  have hfull : mantissaBound - 1 ≤ d.mantissa := by
    unfold magnitude at hlarge
    rw [hexponent] at hlarge
    exact Nat.cast_le.mp (le_of_mul_le_mul_right hlarge (zpow_pos two_pos _))
  obtain ⟨negative, mantissa, exponent⟩ := d
  have hexact : mantissa = mantissaBound - 1 := by
    have := h.mantissa
    simp only at this hfull
    omega
  simp only at hexponent
  rw [greatest, hexact, hexponent]

section OfRatio

variable {negative : Bool} {num den : Nat}

/-- The rounded quotient before it is compared with the greatest double. -/
def carried (negative : Bool) (num den : Nat) : Double :=
  if mantissaFor num den = mantissaBound then ⟨negative, leastMantissa, exponentFor num den + 1⟩
  else ⟨negative, mantissaFor num den, exponentFor num den⟩

theorem ofRatio_eq (hnum : 0 < num) :
    ofRatio negative num den =
      if greatestExponent < (carried negative num den).exponent then none
      else some (carried negative num den) := by
  unfold ofRatio
  rw [if_neg hnum.ne']
  rfl

theorem magnitude_carried (negative : Bool) (num den : Nat) :
    (carried negative num den).magnitude = rounded num den := by
  unfold carried rounded magnitude
  split
  · rename_i hfull
    have hnext := mantissaBound_mul_zpow (exponentFor num den + 1)
    rw [hfull, ← hnext, add_sub_cancel_right]
  · rfl

theorem negative_carried (negative : Bool) (num den : Nat) :
    (carried negative num den).negative = negative := by
  unfold carried
  split <;> rfl

theorem carried_bounds (negative : Bool) (hnum : 0 < num) (hden : 0 < den) :
    (carried negative num den).mantissa < mantissaBound ∧
      leastExponent ≤ (carried negative num den).exponent ∧
      (leastMantissa ≤ (carried negative num den).mantissa ∨
        (carried negative num den).exponent = leastExponent) := by
  have hfits := fits_exponentFor hnum hden
  have hbound := mantissaFor_le_bound hnum hden
  unfold carried
  split
  · have hcarry : leastMantissa < mantissaBound := by decide
    exact ⟨hcarry, Int.le_add_one hfits.least, .inl (le_refl leastMantissa)⟩
  · rename_i hbelow
    refine ⟨lt_of_le_of_ne hbound hbelow, hfits.least, ?_⟩
    exact hfits.normal.imp_left (le_mantissaFor hden)

theorem greatest_lt_carried (hnum : 0 < num) (hden : 0 < den)
    (h : greatestExponent < (carried negative num den).exponent) :
    (greatest false).magnitude < (carried negative num den).magnitude := by
  obtain ⟨-, -, hnormal⟩ := carried_bounds negative hnum hden
  have hnotLeast : (carried negative num den).exponent ≠ leastExponent := by
    have : leastExponent < greatestExponent := by decide
    omega
  have hfull : (leastMantissa : ℚ) ≤ (carried negative num den).mantissa :=
    Nat.cast_le.mpr (hnormal.resolve_right hnotLeast)
  calc (greatest false).magnitude < mantissaBound * 2 ^ greatestExponent := by
        unfold magnitude greatest
        gcongr
        decide
    _ = leastMantissa * 2 ^ (greatestExponent + 1) := by
      rw [← mantissaBound_mul_zpow, add_sub_cancel_right]
    _ ≤ leastMantissa * 2 ^ (carried negative num den).exponent := by
      gcongr
      · exact one_le_two
      · omega
    _ ≤ (carried negative num den).magnitude := by
      unfold magnitude
      gcongr

/-- **What rounding gives.** A quotient has no double iff it rounds beyond the greatest one; the
    double that it has is canonical, and is the rounded quotient. -/
theorem ofRatio_cases (negative : Bool) (num : Nat) (hden : 0 < den) :
    ofRatio negative num den = none ∧ (greatest false).magnitude < rounded num den ∨
      ∃ d, ofRatio negative num den = some d ∧ d.Canonical ∧ d.negative = negative ∧
        d.magnitude = rounded num den := by
  rcases Nat.eq_zero_or_pos num with rfl | hnum
  · refine .inr ⟨zero negative, rfl, canonical_zero negative, rfl, ?_⟩
    rw [rounded_zero hden, magnitude, zero, Nat.cast_zero, zero_mul]
  rw [ofRatio_eq hnum, ← magnitude_carried negative]
  split
  · rename_i hbeyond
    exact .inl ⟨rfl, greatest_lt_carried hnum hden hbeyond⟩
  · rename_i hwithin
    obtain ⟨hmantissa, hleast, hnormal⟩ := carried_bounds negative hnum hden
    exact .inr ⟨_, rfl, ⟨hmantissa, hleast, not_lt.mp hwithin, hnormal⟩,
      negative_carried negative num den, rfl⟩

/-- The result is the greatest double, or there is none. -/
def Saturates (result : Option Double) : Prop :=
  ∀ d ∈ result, d = greatest d.negative

instance (result : Option Double) : Decidable (Saturates result) :=
  match result with
  | none => .isTrue fun d hd => by cases hd
  | some d =>
    if h : d = greatest d.negative then .isTrue fun d' hd' => by cases hd'; exact h
    else .isFalse fun hall => h (hall d rfl)

/-- A quotient that rounds to the greatest double or beyond. -/
theorem saturates_ofRatio_iff (hden : 0 < den) :
    Saturates (ofRatio negative num den) ↔ (greatest false).magnitude ≤ rounded num den := by
  rcases ofRatio_cases negative num hden with ⟨hnone, hbeyond⟩ | ⟨d, hsome, hcanonical, -, hvalue⟩
  · rw [hnone]
    exact iff_of_true (fun d hd => by cases hd) hbeyond.le
  · rw [hsome, ← hvalue]
    constructor
    · intro h
      rw [h d rfl]
      exact le_refl _
    · intro hlarge d' hd'
      cases hd'
      exact hcanonical.eq_greatest hlarge

end OfRatio

/-- The greatest double is a whole number. -/
theorem magnitude_greatest : (greatest false).magnitude = (greatest false).numerator := by
  have hwhole : (greatest false).denominator = 1 := by decide
  rw [← numerator_div_denominator, hwhole, Nat.cast_one, div_one]

/-- A quotient beyond the range rounds to the greatest double or beyond it. -/
theorem greatest_le_rounded {num den : Nat} (hden : 0 < den)
    (h : (greatest false).magnitude ≤ (num : ℚ) / den) :
    (greatest false).magnitude ≤ rounded num den := by
  have hself : Saturates (ofRatio false (greatest false).numerator 1) := by decide +kernel
  refine ((saturates_ofRatio_iff Nat.one_pos).mp hself).trans (rounded_mono Nat.one_pos hden ?_)
  rwa [Nat.cast_one, div_one, ← magnitude_greatest]

theorem getD_ofRatio_of_le {negative : Bool} {num den : Nat} (hden : 0 < den)
    (h : (greatest false).magnitude ≤ (num : ℚ) / den) :
    (ofRatio negative num den).getD (greatest negative) = greatest negative := by
  have hlarge := greatest_le_rounded hden h
  rcases ofRatio_cases negative num hden with ⟨hnone, -⟩ | ⟨d, hsome, hcanonical, hsign, hvalue⟩
  · rw [hnone, Option.getD_none]
  · rw [hsome, Option.getD_some, hcanonical.eq_greatest (hvalue ▸ hlarge), hsign]

/-! ## 5. Doubles of whole numbers -/

/-- The cast of a whole number, with the greatest double in place of larger ones. -/
def nearestTo (n : Nat) : Double := (ofNat n).getD (greatest false)

/-- **Whole numbers below `2^53` are doubles.** -/
theorem rounded_of_lt {n : Nat} (hpos : 0 < n) (h : n < mantissaBound) : rounded n 1 = n := by
  have hfits := fits_exponentFor hpos Nat.one_pos
  have hratio : (n : ℚ) / (1 : Nat) = n := by rw [Nat.cast_one, div_one]
  rw [hratio] at hfits
  have hexponent : exponentFor n 1 ≤ 0 := by
    refine not_lt.mp fun habove => ?_
    have hnormal := hfits.normal.resolve_right (by unfold leastExponent; omega)
    have hnext : (mantissaBound : ℚ) ≤ leastMantissa * 2 ^ exponentFor n 1 := by
      rw [← mantissaBound_mul_zpow]
      exact le_mul_of_one_le_right (Nat.cast_nonneg _) (one_le_zpow₀ one_le_two (by omega))
    exact absurd (hnext.trans hnormal) (not_le.mpr (Nat.cast_lt.mpr h))
  -- at such an exponent the number has a mantissa without a fraction
  obtain ⟨shift, hshift⟩ := Int.eq_ofNat_of_zero_le (neg_nonneg.mpr hexponent)
  have hmantissa : ((n * 2 ^ shift : Nat) : ℚ) * 2 ^ exponentFor n 1 = n := by
    rw [← neg_neg (exponentFor n 1), hshift, zpow_neg, zpow_natCast, Nat.cast_mul, Nat.cast_pow,
      Nat.cast_ofNat]
    exact mul_inv_cancel_right₀ (pow_ne_zero _ two_ne_zero) _
  have hexact : mantissaFor n 1 = n * 2 ^ shift :=
    Nat.le_antisymm (mantissaFor_le Nat.one_pos (hratio.trans hmantissa.symm).le)
      (le_mantissaFor Nat.one_pos (hmantissa.trans hratio.symm).le)
  rw [rounded, hexact, hmantissa]

theorem magnitude_nearestTo (n : Nat) :
    (nearestTo n).magnitude = min (rounded n 1) (greatest false).magnitude := by
  rcases ofRatio_cases false n Nat.one_pos with ⟨hnone, hbeyond⟩ | ⟨d, hsome, hcanonical, -, hvalue⟩
  · rw [nearestTo, ofNat, hnone, Option.getD_none, min_eq_right hbeyond.le]
  · rw [nearestTo, ofNat, hsome, Option.getD_some, ← hvalue, min_eq_left hcanonical.magnitude_le]

theorem negative_nearestTo (n : Nat) : (nearestTo n).negative = false := by
  rcases ofRatio_cases false n Nat.one_pos with ⟨hnone, -⟩ | ⟨d, hsome, -, hsign, -⟩
  · rw [nearestTo, ofNat, hnone]
    rfl
  · rw [nearestTo, ofNat, hsome]
    exact hsign

/-- The double `2^53`. -/
def pastMantissas : Double := ⟨false, leastMantissa, 1⟩

theorem magnitude_pastMantissas : pastMantissas.magnitude = mantissaBound := by
  have hnext := mantissaBound_mul_zpow 1
  rw [sub_self, zpow_zero, mul_one] at hnext
  exact hnext.symm

theorem mantissaBound_le_greatest : (mantissaBound : ℚ) ≤ (greatest false).magnitude := by
  have hcanonical : pastMantissas.Canonical := ⟨by decide, by decide, by decide, .inl le_rfl⟩
  exact magnitude_pastMantissas ▸ hcanonical.magnitude_le

theorem rounded_mantissaBound : rounded mantissaBound 1 = mantissaBound := by
  have hcarried : carried false mantissaBound 1 = pastMantissas := by decide
  rw [← magnitude_carried false, hcarried, magnitude_pastMantissas]

theorem magnitude_nearestTo_of_lt {n : Nat} (h : n < mantissaBound) :
    (nearestTo n).magnitude = n := by
  have hgreatest : (n : ℚ) ≤ (greatest false).magnitude :=
    (Nat.cast_le.mpr h.le).trans mantissaBound_le_greatest
  rw [magnitude_nearestTo]
  rcases Nat.eq_zero_or_pos n with rfl | hpos
  · rw [rounded_zero Nat.one_pos, Nat.cast_zero]
    exact min_eq_left (by exact_mod_cast hgreatest)
  · rw [rounded_of_lt hpos h, min_eq_left hgreatest]

/-- A number from `2^53` on is not rounded to one below. -/
theorem le_magnitude_nearestTo {n : Nat} (h : mantissaBound ≤ n) :
    (mantissaBound : ℚ) ≤ (nearestTo n).magnitude := by
  rw [magnitude_nearestTo]
  refine le_min ?_ mantissaBound_le_greatest
  calc (mantissaBound : ℚ) = rounded mantissaBound 1 := rounded_mantissaBound.symm
    _ ≤ rounded n 1 := rounded_mono Nat.one_pos Nat.one_pos (by gcongr)

theorem magnitude_nearestTo_pos {n : Nat} (h : 0 < n) : 0 < (nearestTo n).magnitude := by
  rw [magnitude_nearestTo]
  have hbound : (0 : ℚ) < mantissaBound := Nat.cast_pos.mpr (by decide)
  exact lt_min (rounded_pos Nat.one_pos h) (hbound.trans_le mantissaBound_le_greatest)

/-! ## 6. Products -/

theorem denominator_mul_pos (a b : Double) : 0 < a.denominator * b.denominator :=
  Nat.mul_pos (Nat.two_pow_pos _) (Nat.two_pow_pos _)

theorem ratio_mul (a b : Double) :
    ((a.numerator * b.numerator : Nat) : ℚ) / (a.denominator * b.denominator : Nat) =
      a.magnitude * b.magnitude := by
  rw [Nat.cast_mul, Nat.cast_mul, mul_div_mul_comm, numerator_div_denominator,
    numerator_div_denominator]

/-- A product stays beyond the range if its first factor grows. -/
theorem saturates_mul_mono {a a' b : Double} (h : a.magnitude ≤ a'.magnitude)
    (hsaturates : Saturates (a.mul b)) : Saturates (a'.mul b) := by
  unfold mul at hsaturates ⊢
  rw [saturates_ofRatio_iff (denominator_mul_pos a b)] at hsaturates
  rw [saturates_ofRatio_iff (denominator_mul_pos a' b)]
  refine hsaturates.trans (rounded_mono (denominator_mul_pos a b) (denominator_mul_pos a' b) ?_)
  have hfactor : 0 ≤ b.magnitude := by
    unfold magnitude
    positivity
  rw [ratio_mul, ratio_mul]
  gcongr

end Double

end SchemaCompiler
