/-
  File:      SchemaCompiler/Proofs/Json/NumberTokens.lean
  Subject:   Which number tokens are read, and what of their exact value the number keeps.

  A numeral has an exact value (`Numeral.exact`). The approximate reading keeps a significand of 64
  bits and a power of ten, which bound the value from above (`digits_le`); what the reading can be
  is said once (`Reading`), and all else is derived from that:

  * `representable_value` -- the number is a whole number of 64 bits or a finite double;
  * `value_of_beyond` -- beyond the range it is the greatest double, by either reading, as long as
    the number of digits has 31 bits;
  * `isWhole_value_iff`, `value_eq_exact` -- which numerals stay whole numbers, and that those are
    exact.

  **`number_tokens`** puts these together for the tokens of a text. Not every overflow of the
  approximate reading makes it give up (`overflows_without_error`).
-/
import SchemaCompiler.Proofs.Expr.Unambiguity
import SchemaCompiler.Proofs.Json.Readers
import SchemaCompiler.Proofs.Json.Scaling
import SchemaCompiler.Proofs.Schema.Validity

namespace SchemaCompiler

open Grammar

/-- Whole numbers of 64 bits, and finite binary64 numbers in their normal form. -/
def Number.Representable : Number → Prop
  | .natural n => n < 2 ^ 64
  | .negative n => 1 ≤ n ∧ n ≤ 2 ^ 63
  | .double d => d.Canonical

namespace Numeral

open Double

/-! ## 1. Runs of digits -/

section Digits

variable {d : Char} {ds : List Char}

theorem digitValue_le (h : Digit d) : digitValue d ≤ 9 := by
  have hnine : d.toNat ≤ '9'.toNat := h.2
  have e : '9'.toNat = '0'.toNat + 9 := rfl
  unfold digitValue
  omega

theorem appendDigits_cons (hd : Digit d) (n : Nat) (ds : List Char) :
    appendDigits 10 n (d :: ds) = appendDigits 10 (10 * n + digitValue d) ds := by
  have hvalue : hexValue? d = some (digitValue d) := by
    rw [hexValue?, if_pos (isDigit_iff.mpr hd)]
  rw [appendDigits, List.foldl_cons, hvalue, Option.getD_some, appendDigits]

theorem appendDigits_append (n : Nat) (ds more : List Char) :
    appendDigits 10 n (ds ++ more) = appendDigits 10 (appendDigits 10 n ds) more :=
  List.foldl_append

/-- Digits shift a number and leave it below its successor. -/
theorem appendDigits_bounds (h : Digits ds) (n : Nat) :
    n * 10 ^ ds.length ≤ appendDigits 10 n ds ∧
      appendDigits 10 n ds < (n + 1) * 10 ^ ds.length := by
  induction ds generalizing n with
  | nil => simp [appendDigits]
  | cons d ds ih =>
    obtain ⟨hd, hds⟩ := List.forall_mem_cons.mp h
    obtain ⟨hlow, hhigh⟩ := ih hds (10 * n + digitValue d)
    have hnine := digitValue_le hd
    rw [appendDigits_cons hd, List.length_cons, Nat.pow_succ]
    constructor
    · calc n * (10 ^ ds.length * 10) = 10 * n * 10 ^ ds.length := by ring
        _ ≤ (10 * n + digitValue d) * 10 ^ ds.length := Nat.mul_le_mul_right _ (by omega)
        _ ≤ _ := hlow
    · calc _ < (10 * n + digitValue d + 1) * 10 ^ ds.length := hhigh
        _ ≤ (10 * n + 10) * 10 ^ ds.length := Nat.mul_le_mul_right _ (by omega)
        _ = (n + 1) * (10 ^ ds.length * 10) := by ring

/-- A significand takes digits: all of them, or those before one that does not fit. -/
structure Takes (start : Nat) (ds taken left : List Char) (significand : Nat) : Prop where
  split : ds = taken ++ left
  value : significand = appendDigits 10 start taken
  limit : significand ≤ significandLimit
  stop : ∀ d rest, left = d :: rest → significandLimit < 10 * significand + digitValue d

theorem takes_takeDigits {start : Nat} (hstart : start ≤ significandLimit) (h : Digits ds) :
    ∃ taken, Takes start ds taken (takeDigits start ds).2 (takeDigits start ds).1 := by
  induction ds generalizing start with
  | nil => exact ⟨[], rfl, rfl, hstart, fun d rest hleft => by cases hleft⟩
  | cons c ds ih =>
    obtain ⟨hc, hds⟩ := List.forall_mem_cons.mp h
    rw [takeDigits]
    by_cases hfits : 10 * start + digitValue c ≤ significandLimit
    · rw [if_pos hfits]
      obtain ⟨taken, htakes⟩ := ih hfits hds
      refine ⟨c :: taken, ?_, ?_, htakes.limit, htakes.stop⟩
      · rw [List.cons_append, ← htakes.split]
      · rw [appendDigits_cons hc, htakes.value]
    · rw [if_neg hfits]
      refine ⟨[], rfl, rfl, hstart, fun d rest hleft => ?_⟩
      cases hleft
      exact Nat.lt_of_not_le hfits

section Takes

variable {start significand : Nat} {taken left : List Char}

theorem Takes.taken_digits (h : Takes start ds taken left significand) (hds : Digits ds) :
    Digits taken := fun c hc => hds c (h.split ▸ List.mem_append_left _ hc)

theorem Takes.left_digits (h : Takes start ds taken left significand) (hds : Digits ds) :
    Digits left := fun c hc => hds c (h.split ▸ List.mem_append_right _ hc)

/-- A significand before a digit that does not fit is large. -/
theorem Takes.cut (h : Takes start ds taken left significand) (hds : Digits ds) (hne : left ≠ []) :
    cutSignificand ≤ significand := by
  obtain ⟨d, rest, hleft⟩ := List.exists_cons_of_ne_nil hne
  have hnine := digitValue_le (h.left_digits hds d (hleft ▸ List.mem_cons_self))
  have hstop := h.stop d rest hleft
  unfold cutSignificand significandLimit at *
  omega

/-- Digits that do not all fit denote a number beyond the limit. -/
theorem Takes.limit_lt (h : Takes start ds taken left significand) (hds : Digits ds)
    (hne : left ≠ []) : significandLimit < appendDigits 10 start ds := by
  obtain ⟨d, rest, rfl⟩ := List.exists_cons_of_ne_nil hne
  obtain ⟨hd, hrest⟩ := List.forall_mem_cons.mp (h.left_digits hds)
  rw [h.split, appendDigits_append, ← h.value, appendDigits_cons hd]
  calc significandLimit < 10 * significand + digitValue d := h.stop d rest rfl
    _ ≤ (10 * significand + digitValue d) * 10 ^ rest.length :=
      Nat.le_mul_of_pos_right _ (Nat.pow_pos (by decide))
    _ ≤ _ := (appendDigits_bounds hrest _).1

end Takes

theorem exponentValue_cases (h : Digits ds) (value : Nat) :
    exponentValue value ds = .ok (appendDigits 10 value ds) ∨
      (∃ unread, exponentValue value ds = .error unread) ∧
        exponentLimit < appendDigits 10 value ds := by
  induction ds generalizing value with
  | nil => exact .inl rfl
  | cons c ds ih =>
    obtain ⟨hc, hds⟩ := List.forall_mem_cons.mp h
    rw [exponentValue, appendDigits_cons hc]
    by_cases hfits : 10 * value + digitValue c ≤ exponentLimit
    · rw [if_pos hfits]
      exact ih hds _
    · rw [if_neg hfits]
      refine .inr ⟨⟨_, rfl⟩, ?_⟩
      calc exponentLimit < 10 * value + digitValue c := Nat.lt_of_not_le hfits
        _ ≤ (10 * value + digitValue c) * 10 ^ ds.length :=
          Nat.le_mul_of_pos_right _ (Nat.pow_pos (by decide))
        _ ≤ _ := (appendDigits_bounds hds _).1

end Digits

/-! ## 2. The exact value -/

/-- All digits of a numeral, read as one number. -/
def digits (n : Numeral) : Nat := digitsValue 10 (n.whole ++ n.fraction)

/-- The exponent that is written, or zero. -/
def written (n : Numeral) : ℤ := (n.exponent.map Exponent.value).getD 0

/-- The number that a numeral denotes, exactly. -/
def exact (n : Numeral) : ℚ :=
  (if n.negative then -1 else 1) * (n.digits * 10 ^ (n.written - n.fraction.length))

theorem abs_exact (n : Numeral) : |n.exact| = n.digits * 10 ^ (n.written - n.fraction.length) := by
  have hnonneg : (0 : ℚ) ≤ n.digits * 10 ^ (n.written - n.fraction.length) := by positivity
  unfold exact
  split
  · rw [neg_one_mul, abs_neg, abs_of_nonneg hnonneg]
  · rw [one_mul, abs_of_nonneg hnonneg]

/-- The parts of a numeral are made of digits. -/
structure WellFormed (n : Numeral) : Prop where
  whole : Whole n.whole
  fraction : Digits n.fraction
  exponent : ∀ e ∈ n.exponent, Digits e.digits

theorem wellFormed_of_token {token : List Char} {n : Numeral} (h : NumberToken token n) :
    n.WellFormed := by
  cases h with
  | mk hsign hwhole hfraction hexponent =>
    refine ⟨hwhole, ?_, fun e he => ?_⟩
    · cases hfraction with
      | absent => exact fun c hc => absurd hc List.not_mem_nil
      | present _ hds => exact hds
    · cases hexponent with
      | absent => cases he
      | present _ _ _ hds =>
        cases he
        exact hds

/-! ## 3. The digits that are kept -/

/-- The significand of the whole part, and the digits that did not fit. -/
def leading (n : Numeral) : Nat × List Char := takeDigits 0 n.whole

/-- The significand, and the digits of the fraction that did not fit. -/
def collected (n : Numeral) : Nat × List Char := takeDigits n.leading.1 n.fraction

/-- The power of ten that belongs to the significand, but for the written exponent. -/
def power (n : Numeral) : ℤ :=
  (n.leading.2.length : ℤ) - (n.fraction.length - n.collected.2.length : Nat)

/-- The same, as it is counted. -/
def shift (n : Numeral) : ℤ := wrapExponent n.power

/-- The double of the significand at an exponent. -/
def scaledAt (n : Numeral) (e : ℤ) : Except Nat Number :=
  match scale n.negative n.collected.1 e with
  | some d => .ok (.double d)
  | none => .error 0

theorem approximate_eq (n : Numeral) :
    n.approximate =
      if n.fraction.isEmpty && n.exponent.isNone && n.leading.2.isEmpty then
        .ok (wholeNumber n.negative n.leading.1)
      else
        match n.exponent with
        | none => n.scaledAt n.shift
        | some explicit =>
          match exponentValue 0 explicit.digits with
          | .ok k =>
            n.scaledAt (clampExponent (if explicit.negative then n.shift - k else n.shift + k))
          | .error unread =>
            if n.collected.1 ≠ 0 ∧ ¬ explicit.negative then .error unread
            else .ok (.double (Double.zero n.negative)) := rfl

/-- **What the approximate reading can be.** -/
inductive Reading (n : Numeral) : Except Nat Number → Prop
  /-- Digits only, and all of them fit. -/
  | whole : n.fraction = [] → n.exponent = none → n.leading.2 = [] →
      Reading n (.ok (wholeNumber n.negative n.leading.1))
  | scaled {e : ℤ} : n.fraction ≠ [] ∨ n.exponent ≠ none ∨ n.leading.2 ≠ [] →
      e = n.shift + n.written ∨ e = clampExponent (n.shift + n.written) →
      Reading n (n.scaledAt e)
  /-- A written exponent of more than 31 bits. -/
  | tooLarge {explicit : Exponent} {unread : Nat} : n.exponent = some explicit →
      exponentLimit < digitsValue 10 explicit.digits →
      n.collected.1 ≠ 0 → explicit.negative = false → Reading n (.error unread)
  /-- The same after a zero, or with a minus. -/
  | vanishing {explicit : Exponent} : n.exponent = some explicit →
      exponentLimit < digitsValue 10 explicit.digits →
      n.collected.1 = 0 ∨ explicit.negative = true →
      Reading n (.ok (.double (Double.zero n.negative)))

theorem reading_approximate {n : Numeral} (h : n.WellFormed) : Reading n n.approximate := by
  rw [approximate_eq]
  split
  · rename_i hwhole
    simp only [Bool.and_eq_true, List.isEmpty_iff, Option.isNone_iff_eq_none] at hwhole
    exact .whole hwhole.1.1 hwhole.1.2 hwhole.2
  · rename_i hother
    simp only [Bool.and_eq_true, List.isEmpty_iff, Option.isNone_iff_eq_none] at hother
    have hother : n.fraction ≠ [] ∨ n.exponent ≠ none ∨ n.leading.2 ≠ [] := by tauto
    split
    · rename_i hexponent
      refine .scaled hother (.inl ?_)
      rw [written, hexponent, Option.map_none, Option.getD_none, add_zero]
    · rename_i explicit hexponent
      have hwritten : n.written = explicit.value := by
        rw [written, hexponent, Option.map_some, Option.getD_some]
      have hvalue := exponentValue_cases (h.exponent explicit hexponent) 0
      rcases hvalue with hok | ⟨⟨unread, herror⟩, hlarge⟩
      · rw [hok]
        refine .scaled hother (.inr ?_)
        rw [hwritten, Exponent.value]
        split <;> rfl
      · rw [herror]
        simp only
        split
        · rename_i hbeyond
          exact .tooLarge hexponent hlarge hbeyond.1 (Bool.eq_false_iff.mpr hbeyond.2)
        · rename_i hzero
          exact .vanishing hexponent hlarge (by tauto)

section Kept

variable {n : Numeral}

theorem takes_leading (h : n.WellFormed) :
    ∃ taken, Takes 0 n.whole taken n.leading.2 n.leading.1 :=
  takes_takeDigits (Nat.zero_le _) h.whole.digits

theorem takes_collected (h : n.WellFormed) :
    ∃ taken, Takes n.leading.1 n.fraction taken n.collected.2 n.collected.1 := by
  obtain ⟨_, hleading⟩ := takes_leading h
  exact takes_takeDigits hleading.limit h.fraction

theorem collected_le (h : n.WellFormed) : n.collected.1 ≤ significandLimit := by
  obtain ⟨_, hcollected⟩ := takes_collected h
  exact hcollected.limit

/-- All digits, as what the whole part and the fraction leave over after the significand. -/
theorem digits_eq (h : n.WellFormed) :
    n.digits = appendDigits 10 n.leading.1 (n.leading.2 ++ n.fraction) := by
  obtain ⟨taken, hleading⟩ := takes_leading h
  rw [digits, digitsValue, hleading.value, ← appendDigits_append, ← List.append_assoc,
    ← hleading.split]

theorem power_eq {taken : List Char}
    (h : Takes n.leading.1 n.fraction taken n.collected.2 n.collected.1) :
    n.power = (n.leading.2.length : ℤ) - taken.length ∧
      n.fraction.length = taken.length + n.collected.2.length := by
  have hlength : n.fraction.length = taken.length + n.collected.2.length := by
    conv_lhs => rw [h.split, List.length_append]
  refine ⟨?_, hlength⟩
  rw [power, hlength, Nat.add_sub_cancel]

/-- A bound of a number, after a division by a power of ten. -/
theorem mul_zpow_neg_lt {x a m : Nat} (h : x < a * 10 ^ m) (j : Nat) :
    (x : ℚ) * 10 ^ (-(j : ℤ)) < a * 10 ^ ((m : ℤ) - j) := by
  have hcast : (x : ℚ) < a * 10 ^ (m : ℤ) := by
    rw [zpow_natCast]
    exact_mod_cast h
  calc (x : ℚ) * 10 ^ (-(j : ℤ)) < a * 10 ^ (m : ℤ) * 10 ^ (-(j : ℤ)) := by gcongr
    _ = a * 10 ^ ((m : ℤ) - j) := by
      rw [mul_assoc, ← zpow_add₀ (by norm_num : (10 : ℚ) ≠ 0), sub_eq_add_neg]

/-- Digits of the fraction follow a significand of the whole part that did not hold all digits: at
    most one of them fits. -/
theorem length_le_one {significand taken : Nat} (hcut : cutSignificand ≤ significand)
    (h : significand * 10 ^ taken ≤ significandLimit) : taken ≤ 1 := by
  by_contra hmore
  have hpower : 10 ^ 2 ≤ 10 ^ taken := Nat.pow_le_pow_right (by decide) (by omega)
  have hproduct := Nat.mul_le_mul hcut hpower
  have hlarge : significandLimit < cutSignificand * 10 ^ 2 := by decide
  omega

/-- The whole part fits: what is lost comes after all that is kept. -/
theorem digits_le_of_fits (h : n.WellFormed) (hleft : n.leading.2 = []) :
    (n.digits : ℚ) * 10 ^ (-(n.fraction.length : ℤ)) ≤ n.collected.1 * 10 ^ n.power ∨
      cutSignificand ≤ n.collected.1 ∧
        (n.digits : ℚ) * 10 ^ (-(n.fraction.length : ℤ)) < (n.collected.1 + 1) * 10 ^ n.power := by
  obtain ⟨taken, htakes⟩ := takes_collected h
  obtain ⟨hpower, hlength⟩ := power_eq htakes
  rw [hleft, List.length_nil] at hpower
  have hdigits : n.digits = appendDigits 10 n.collected.1 n.collected.2 := by
    rw [digits_eq h, hleft, List.nil_append, htakes.value, ← appendDigits_append, ← htakes.split]
  by_cases hdropped : n.collected.2 = []
  · refine .inl (le_of_eq ?_)
    have hall : n.digits = n.collected.1 := by
      rw [hdigits, hdropped]
      rfl
    rw [hall, hpower, hlength, hdropped, List.length_nil]
    congr 2
    omega
  · refine .inr ⟨htakes.cut h.fraction hdropped, ?_⟩
    have hbound := (appendDigits_bounds (htakes.left_digits h.fraction) n.collected.1).2
    rw [← hdigits] at hbound
    calc (n.digits : ℚ) * 10 ^ (-(n.fraction.length : ℤ))
        < (n.collected.1 + 1 : Nat) * 10 ^ ((n.collected.2.length : ℤ) - n.fraction.length) :=
          mul_zpow_neg_lt hbound _
      _ = (n.collected.1 + 1) * 10 ^ n.power := by
        rw [hpower, hlength]
        push_cast
        congr 2
        omega

/-- The whole part does not fit: at most one digit of the fraction is kept, in the place of one that
    was lost. -/
theorem digits_lt_of_cut (h : n.WellFormed) (hleft : n.leading.2 ≠ []) :
    cutSignificand ≤ n.collected.1 ∧
      (n.digits : ℚ) * 10 ^ (-(n.fraction.length : ℤ)) < (n.collected.1 + 10) * 10 ^ n.power := by
  obtain ⟨first, hleading⟩ := takes_leading h
  obtain ⟨taken, htakes⟩ := takes_collected h
  obtain ⟨hpower, -⟩ := power_eq htakes
  have hcut := hleading.cut h.whole.digits hleft
  have hkept := (appendDigits_bounds (htakes.taken_digits h.fraction) n.leading.1).1
  rw [← htakes.value] at hkept
  have hone := length_le_one hcut (hkept.trans htakes.limit)
  have hrest : Digits (n.leading.2 ++ n.fraction) :=
    List.forall_mem_append.mpr ⟨hleading.left_digits h.whole.digits, h.fraction⟩
  have hbound := (appendDigits_bounds hrest n.leading.1).2
  rw [← digits_eq h, List.length_append] at hbound
  have hunits : (n.leading.1 + 1) * 10 ^ taken.length ≤ n.collected.1 + 10 := by
    have hten : 10 ^ taken.length ≤ 10 ^ 1 := Nat.pow_le_pow_right (by decide) hone
    rw [Nat.add_mul, Nat.one_mul]
    omega
  have hcast : ((n.leading.1 + 1 : Nat) : ℚ) * 10 ^ (taken.length : ℤ) ≤ n.collected.1 + 10 := by
    rw [zpow_natCast]
    exact_mod_cast hunits
  refine ⟨hcut.trans ((Nat.le_mul_of_pos_right _ (Nat.pow_pos (by decide))).trans hkept), ?_⟩
  calc (n.digits : ℚ) * 10 ^ (-(n.fraction.length : ℤ))
      < (n.leading.1 + 1 : Nat) *
          10 ^ (((n.leading.2.length + n.fraction.length : Nat) : ℤ) - n.fraction.length) :=
        mul_zpow_neg_lt hbound _
    _ = (n.leading.1 + 1 : Nat) * 10 ^ (taken.length : ℤ) * 10 ^ n.power := by
      rw [mul_assoc, ← zpow_add₀ (by norm_num : (10 : ℚ) ≠ 0), hpower]
      push_cast
      congr 2
      omega
    _ ≤ (n.collected.1 + 10) * 10 ^ n.power := by gcongr

/-- **The significand at its power bounds the digits**, up to ten units if some were lost. -/
theorem digits_le (h : n.WellFormed) :
    (n.digits : ℚ) * 10 ^ (-(n.fraction.length : ℤ)) ≤ n.collected.1 * 10 ^ n.power ∨
      cutSignificand ≤ n.collected.1 ∧
        (n.digits : ℚ) * 10 ^ (-(n.fraction.length : ℤ)) <
          (n.collected.1 + 10) * 10 ^ n.power := by
  by_cases hleft : n.leading.2 = []
  · refine (digits_le_of_fits h hleft).imp_right fun hlost => ⟨hlost.1, hlost.2.trans_le ?_⟩
    gcongr
    norm_num
  · exact .inr (digits_lt_of_cut h hleft)

end Kept

/-! ## 4. Beyond the range -/

section Saturation

variable {n : Numeral}

theorem beyond_collected (h : n.WellFormed) (hbeyond : (greatest false).magnitude < |n.exact|) :
    Beyond n.collected.1 (n.power + n.written) := by
  have hten : (10 : ℚ) ≠ 0 := by norm_num
  have hsplit : |n.exact| = n.digits * 10 ^ (-(n.fraction.length : ℤ)) * 10 ^ n.written := by
    rw [abs_exact, mul_assoc, ← zpow_add₀ hten, neg_add_eq_sub]
  rw [hsplit] at hbeyond
  rcases digits_le h with hall | ⟨hcut, hlost⟩
  · refine .inl (hbeyond.trans_le ?_)
    rw [zpow_add₀ hten, ← mul_assoc]
    gcongr
  · refine .inr ⟨hcut, hbeyond.trans ?_⟩
    rw [zpow_add₀ hten, ← mul_assoc]
    gcongr

/-- The digits of a numeral are below the power of ten of their number. -/
theorem digits_lt (h : n.WellFormed) : n.digits < 10 ^ (n.whole.length + n.fraction.length) := by
  have hall : Digits (n.whole ++ n.fraction) :=
    List.forall_mem_append.mpr ⟨h.whole.digits, h.fraction⟩
  have hbound := (appendDigits_bounds hall 0).2
  rwa [Nat.zero_add, Nat.one_mul, List.length_append] at hbound

theorem lt_pow_length_toDigits (m : Nat) : m < 10 ^ (Nat.toDigits 10 m).length := by
  have hbound := (appendDigits_bounds (whole_toDigits m).digits 0).2
  rw [Nat.zero_add, Nat.one_mul] at hbound
  calc m = digitsValue 10 (Nat.toDigits 10 m) := (digitsValue_toDigits m).symm
    _ < 10 ^ (Nat.toDigits 10 m).length := hbound

theorem one_le_greatest : 1 ≤ (greatest false).magnitude := by
  rw [magnitude_greatest, Nat.one_le_cast]
  decide +kernel

/-- Beyond the range there is no number with few digits before its point. -/
theorem length_pos_of_beyond {m : Nat} {e : ℤ} (hbeyond : (greatest false).magnitude < m * 10 ^ e)
    {length : Nat} (h : m < 10 ^ length) : 0 < length + e := by
  by_contra hsmall
  have hten : (10 : ℚ) ≠ 0 := by norm_num
  have hcast : (m : ℚ) < 10 ^ (length : ℤ) := by
    rw [zpow_natCast]
    exact_mod_cast h
  have hone : (m : ℚ) * 10 ^ e < 1 :=
    calc (m : ℚ) * 10 ^ e < 10 ^ (length : ℤ) * 10 ^ e := by gcongr
      _ = 10 ^ ((length : ℤ) + e) := by rw [zpow_add₀ hten]
      _ ≤ 10 ^ (0 : ℤ) := zpow_le_zpow_right₀ (by norm_num) (by omega)
      _ = 1 := zpow_zero _
  exact absurd (one_le_greatest.trans_lt (hbeyond.trans hone)) (lt_irrefl 1)

theorem ratio_digits (m : Nat) (e : ℤ) :
    ((m * tenPow e.toNat : Nat) : ℚ) / (tenPow (-e).toNat : Nat) = m * 10 ^ e := by
  have hten : (10 : ℚ) ^ e = (tenPow e.toNat : Nat) / (tenPow (-e).toNat : Nat) :=
    @zpow_eq_div 10 (by norm_num) e
  rw [hten, Nat.cast_mul, mul_div_assoc]

theorem nearest_eq (n : Numeral) :
    n.nearest =
      if n.digits = 0 ∨ ((Nat.toDigits 10 n.digits).length : ℤ) + (n.written - n.fraction.length) <
          -decimalRange then Double.zero n.negative
      else if decimalRange < ((Nat.toDigits 10 n.digits).length : ℤ) +
          (n.written - n.fraction.length) then Double.greatest n.negative
      else
        (Double.ofRatio n.negative (n.digits * tenPow (n.written - n.fraction.length).toNat)
          (tenPow (-(n.written - n.fraction.length)).toNat)).getD (Double.greatest n.negative) :=
  rfl

/-- **The nearest double beyond the range is the greatest one.** -/
theorem nearest_of_beyond (hbeyond : (greatest false).magnitude < |n.exact|) :
    n.nearest = greatest n.negative := by
  rw [abs_exact] at hbeyond
  have hmagnitude := length_pos_of_beyond hbeyond (lt_pow_length_toDigits n.digits)
  have hdigits : n.digits ≠ 0 := by
    intro hzero
    rw [hzero, Nat.cast_zero, zero_mul] at hbeyond
    exact absurd (one_le_greatest.trans_lt hbeyond) (by norm_num)
  have hnotSmall : ¬ ((Nat.toDigits 10 n.digits).length : ℤ) + (n.written - n.fraction.length) <
      -decimalRange := by
    unfold decimalRange
    omega
  rw [nearest_eq, if_neg (not_or.mpr ⟨hdigits, hnotSmall⟩)]
  split
  · rfl
  · refine getD_ofRatio_of_le (tenPow_pos _) ?_
    rw [ratio_digits]
    exact hbeyond.le

/-- The count of digits does not wrap in a numeral with few of them. -/
theorem shift_eq_power (h : n.WellFormed)
    (hshort : n.whole.length + n.fraction.length ≤ exponentLimit) : n.shift = n.power := by
  obtain ⟨taken, hleading⟩ := takes_leading h
  have hleft : n.leading.2.length ≤ n.whole.length := by
    rw [congrArg List.length hleading.split, List.length_append]
    exact Nat.le_add_left _ _
  unfold exponentLimit at hshort
  unfold shift power wrapExponent
  exact Int.bmod_eq_of_le (by omega) (by omega)

/-- **A number beyond the range becomes the greatest double**, if its digits are few enough for
    their number to have 31 bits. -/
theorem value_of_beyond (h : n.WellFormed)
    (hshort : n.whole.length + n.fraction.length ≤ exponentLimit)
    (hbeyond : (greatest false).magnitude < |n.exact|) :
    n.value = .double (greatest n.negative) := by
  have hrange := beyond_collected h hbeyond
  have hlimit := collected_le h
  have hreading := reading_approximate h
  unfold value
  generalize n.approximate = result at hreading
  cases hreading with
  | whole hfraction hexponent hleft =>
    have hpower := hrange.power_ge hlimit
    rw [power, written, hfraction, hexponent, hleft] at hpower
    simp at hpower
  | @scaled e hother he =>
    rw [shift_eq_power h hshort] at he
    unfold scaledAt
    cases hscale : scale n.negative n.collected.1 e with
    | none => exact congrArg _ (nearest_of_beyond hbeyond)
    | some d => exact congrArg _ (scale_saturates hrange hlimit he hscale)
  | tooLarge => exact congrArg _ (nearest_of_beyond hbeyond)
  | @vanishing explicit hexponent hlarge hzero =>
    -- A number beyond the range has more digits than a negative exponent takes away.
    have hnegative := hzero.resolve_left hrange.pos.ne'
    rw [abs_exact] at hbeyond
    have hlength := length_pos_of_beyond hbeyond (digits_lt h)
    rw [written, hexponent, Option.map_some, Option.getD_some, Exponent.value, if_pos hnegative]
      at hlength
    omega

end Saturation

/-! ## 5. Finite numbers -/

section Numbers

variable {n : Numeral}

theorem canonical_nearest (n : Numeral) : n.nearest.Canonical := by
  rw [nearest_eq]
  split
  · exact canonical_zero n.negative
  · split
    · exact canonical_greatest n.negative
    · exact canonical_getD (tenPow_pos _) (canonical_greatest n.negative) n.negative

theorem representable_wholeNumber {negative : Bool} {m : Nat} (h : m ≤ significandLimit) :
    (wholeNumber negative m).Representable := by
  unfold wholeNumber
  split
  · split
    · rename_i hnegative
      exact hnegative
    · exact (canonical_start m).withSign true
  · exact Nat.lt_of_le_of_lt h (by decide)

/-- **Every number that is read is finite.** -/
theorem representable_value (h : n.WellFormed) : n.value.Representable := by
  obtain ⟨_, hleading⟩ := takes_leading h
  have hreading := reading_approximate h
  unfold value
  generalize n.approximate = result at hreading
  cases hreading with
  | whole => exact representable_wholeNumber hleading.limit
  | @scaled e =>
    unfold scaledAt
    cases hscale : scale n.negative n.collected.1 e with
    | none => exact canonical_nearest n
    | some d => exact canonical_scale hscale
  | tooLarge => exact canonical_nearest n
  | vanishing => exact canonical_zero n.negative

/-! ## 6. Whole numbers -/

/-- A numeral of digits only that fit is a whole number; every other one is a double. -/
theorem value_cases (h : n.WellFormed) :
    (n.fraction = [] ∧ n.exponent = none ∧ n.digits ≤ significandLimit ∧
        n.value = wholeNumber n.negative n.digits) ∨
      (n.fraction = [] → n.exponent = none → significandLimit < n.digits) ∧
        ∃ d, n.value = .double d := by
  obtain ⟨taken, hleading⟩ := takes_leading h
  have hreading := reading_approximate h
  unfold value
  generalize n.approximate = result at hreading
  cases hreading with
  | whole hfraction hexponent hleft =>
    have hdigits : n.digits = n.leading.1 := by
      rw [digits_eq h, hleft, hfraction]
      rfl
    rw [hdigits]
    exact .inl ⟨hfraction, hexponent, hleading.limit, rfl⟩
  | @scaled e hother =>
    refine .inr ⟨fun hfraction hexponent => ?_, ?_⟩
    · have hleft := (hother.resolve_left (not_not.mpr hfraction)).resolve_left
        (not_not.mpr hexponent)
      rw [digits, hfraction, List.append_nil]
      exact hleading.limit_lt h.whole.digits hleft
    · unfold scaledAt
      cases scale n.negative n.collected.1 e with
      | none => exact ⟨_, rfl⟩
      | some d => exact ⟨_, rfl⟩
  | tooLarge hexponent =>
    refine .inr ⟨fun _ hnone => ?_, _, rfl⟩
    rw [hexponent] at hnone
    cases hnone
  | vanishing hexponent =>
    refine .inr ⟨fun _ hnone => ?_, _, rfl⟩
    rw [hexponent] at hnone
    cases hnone

theorem exact_of_whole (hfraction : n.fraction = []) (hexponent : n.exponent = none) :
    n.exact = (if n.negative then -1 else 1) * n.digits := by
  rw [exact, written, hfraction, hexponent]
  simp

theorem isWhole_wholeNumber_iff {negative : Bool} {m : Nat} :
    (wholeNumber negative m).IsWhole ↔ (negative = true → 1 ≤ m ∧ m ≤ negativeLimit) := by
  unfold wholeNumber
  cases negative with
  | false => exact iff_of_true trivial fun h => by cases h
  | true =>
    rw [if_pos rfl]
    split
    · rename_i hlimits
      exact iff_of_true trivial fun _ => hlimits
    · rename_i hlimits
      exact iff_of_false id fun h => hlimits (h rfl)

/-- The range of the whole numbers, for digits without fraction and exponent. -/
theorem exact_range_iff (hfraction : n.fraction = []) (hexponent : n.exponent = none) :
    -2 ^ 63 ≤ n.exact ∧ n.exact ≤ 2 ^ 64 - 1 ↔
      n.digits ≤ if n.negative then negativeLimit else significandLimit := by
  have hnonneg : (0 : ℚ) ≤ n.digits := Nat.cast_nonneg _
  have hnegative : (2 : ℚ) ^ 63 = negativeLimit := by norm_num [negativeLimit]
  have hpositive : (2 : ℚ) ^ 64 - 1 = significandLimit := by norm_num [significandLimit]
  rw [exact_of_whole hfraction hexponent, hnegative, hpositive, ← Nat.cast_le (α := ℚ)]
  have hlimits : (0 : ℚ) ≤ negativeLimit ∧ (0 : ℚ) ≤ significandLimit :=
    ⟨Nat.cast_nonneg _, Nat.cast_nonneg _⟩
  cases n.negative with
  | false =>
    simp only [Bool.false_eq_true, if_false, one_mul]
    exact and_iff_right (by linarith)
  | true =>
    simp only [if_true, neg_one_mul, neg_le_neg_iff]
    exact and_iff_left (by linarith)

/-- **Which numerals stay whole numbers**: those of digits only whose value has 64 bits, but for
    minus zero. -/
theorem isWhole_value_iff (h : n.WellFormed) :
    n.value.IsWhole ↔
      n.fraction = [] ∧ n.exponent = none ∧ (-2 ^ 63 ≤ n.exact ∧ n.exact ≤ 2 ^ 64 - 1) ∧
        ¬ (n.negative = true ∧ n.digits = 0) := by
  rcases value_cases h with ⟨hfraction, hexponent, hlimit, hvalue⟩ | ⟨hlarge, d, hvalue⟩
  · rw [hvalue, isWhole_wholeNumber_iff, exact_range_iff hfraction hexponent]
    simp only [hfraction, hexponent, true_and]
    cases n.negative with
    | false => simpa using hlimit
    | true =>
      simp only [if_true, true_and, forall_const]
      omega
  · rw [hvalue]
    refine iff_of_false id fun hwhole => ?_
    obtain ⟨hfraction, hexponent, hrange, -⟩ := hwhole
    have hbeyond := hlarge hfraction hexponent
    have hlimit : n.digits ≤ significandLimit := by
      refine ((exact_range_iff hfraction hexponent).mp hrange).trans ?_
      cases n.negative <;> decide
    omega

/-- A whole number is the exact value. -/
theorem value_eq_exact (h : n.WellFormed) (hwhole : n.value.IsWhole) : n.value.value = n.exact := by
  rcases value_cases h with ⟨hfraction, hexponent, -, hvalue⟩ | ⟨-, d, hvalue⟩
  · rw [hvalue, isWhole_wholeNumber_iff] at hwhole
    rw [hvalue, exact_of_whole hfraction hexponent, wholeNumber]
    cases hsign : n.negative with
    | false => simp [Number.value]
    | true => simp [Number.value, hwhole hsign]
  · rw [hvalue] at hwhole
    exact hwhole.elim

end Numbers

/-- A whole part with another first digit than zero is not zero. -/
theorem digitsValue_ne_zero {d : Char} {ds : List Char} (hone : '1' ≤ d) (hnine : d ≤ '9')
    (hds : Digits ds) : digitsValue 10 (d :: ds) ≠ 0 := by
  have hdigit : Digit d := ⟨Nat.le_trans (by decide) hone, hnine⟩
  have hvalue : 1 ≤ digitValue d := by
    have hcode : '1'.toNat ≤ d.toNat := hone
    have e : '1'.toNat = '0'.toNat + 1 := rfl
    unfold digitValue
    omega
  have hbound := (appendDigits_bounds hds (10 * 0 + digitValue d)).1
  rw [← appendDigits_cons hdigit] at hbound
  have hpower : 0 < 10 ^ ds.length := Nat.pow_pos (by decide)
  have hpos : 0 < (10 * 0 + digitValue d) * 10 ^ ds.length := Nat.mul_pos (by omega) hpower
  exact (hpos.trans_le hbound).ne'

/-- Minus zero is written in one way. -/
theorem minusZero_iff {token : List Char} {n : Numeral} (h : NumberToken token n)
    (hfraction : n.fraction = []) (hexponent : n.exponent = none) :
    n.negative = true ∧ n.digits = 0 ↔ token = ['-', '0'] := by
  cases h with
  | @mk sign whole fraction exponent ds negative e hsign hwhole hfractionText hexponentText =>
    simp only at hfraction hexponent
    subst hfraction hexponent
    cases hfractionText with
    | present hempty => exact absurd rfl hempty
    | absent =>
      cases hexponentText with
      | absent =>
        simp only [digits, List.append_nil]
        cases hwhole with
        | zero =>
          cases hsign with
          | minus => exact iff_of_true ⟨rfl, by decide⟩ rfl
          | absent => exact iff_of_false (fun h => by cases h.1) (by decide)
        | nonzero hone hnine hds =>
          refine iff_of_false (fun hzero => digitsValue_ne_zero hone hnine hds hzero.2) ?_
          rintro htoken
          cases hsign with
          | minus =>
            cases htoken
            exact absurd hone (by decide)
          | absent =>
            cases htoken
            exact absurd hone (by decide)

end Numeral

/-! ## 7. Tokens -/

/-- A run of number characters is read iff it is a numeral. -/
theorem readNumber_iff {token rest : List Char} (offset : Nat) (hne : token ≠ [])
    (hrun : ∀ c ∈ token, isNumberChar c = true) (hstop : Stops isNumberChar rest) :
    (∃ node next, readNumber ⟨token ++ rest, offset⟩ = .ok (node, next)) ↔
      ∃ n, NumberToken token n := by
  constructor
  · intro hread
    obtain ⟨node, next, hread⟩ := hread
    obtain ⟨first, more, rfl⟩ := List.exists_cons_of_ne_nil hne
    have hmore := (List.forall_mem_cons.mp hrun).2
    simp only [readNumber, List.cons_append, takeWhile_run hmore hstop] at hread
    split at hread
    · rename_i n hn
      exact ⟨n, Numeral.ofToken?_eq_some_iff.mp hn⟩
    · cases hread
  · intro htoken
    obtain ⟨n, hn⟩ := htoken
    obtain ⟨shorter, hread⟩ := follows_readNumber.complete
      (c := ⟨token ++ rest, offset⟩) (d := ⟨rest, offset + byteLength token⟩) ⟨rfl, rfl⟩
      ⟨n, hn, rfl⟩ hstop
    exact ⟨_, _, hread⟩

theorem digits_length_le {token : List Char} {n : Numeral} (h : NumberToken token n) :
    n.whole.length + n.fraction.length ≤ token.length := by
  cases h with
  | mk hsign hwhole hfraction hexponent =>
    simp only [List.length_append]
    cases hfraction with
    | absent => simp only [List.length_nil]; omega
    | present => simp only [List.length_cons]; omega

theorem greatest_magnitude : (Double.greatest false).magnitude = (2 ^ 53 - 1) * 2 ^ 971 := by
  have hmantissa : ((Double.greatest false).mantissa : ℚ) = 2 ^ 53 - 1 := by
    norm_num [Double.greatest, Double.mantissaBound]
  rw [Double.magnitude, hmantissa]
  rfl

/-- A token whose value is beyond the range by a little. -/
def largeNumeral : Numeral := ⟨true, ['1'], ['8'], some ⟨false, ['3', '0', '8']⟩⟩

/-- The exponent `-2147483648`, whose number has 32 bits. -/
def longExponent : Exponent := ⟨true, ['2', '1', '4', '7', '4', '8', '3', '6', '4', '8']⟩

/-- A one, zeros and the exponent `-2147483648`. -/
def longNumeral (zeros : Nat) : Numeral :=
  ⟨false, '1' :: List.replicate zeros '0', [], some longExponent⟩

/-- The text of `longNumeral`. -/
def longToken (zeros : Nat) : List Char :=
  '1' :: List.replicate zeros '0' ++ 'e' :: '-' :: longExponent.digits

theorem digits_replicate_zero (zeros : Nat) : Digits (List.replicate zeros '0') := by
  intro c hc
  rw [List.eq_of_mem_replicate hc]
  exact ⟨by decide, by decide⟩

theorem numberToken_longToken (zeros : Nat) :
    NumberToken (longToken zeros) (longNumeral zeros) := by
  have hall : longExponent.digits.all isDigit = true := by decide
  have hdigits : Digits longExponent.digits :=
    fun c hc => isDigit_iff.mp (List.all_eq_true.mp hall c hc)
  exact .mk .absent (.nonzero (by decide) (by decide) (digits_replicate_zero zeros)) .absent
    (.present (.inl rfl) .minus (by decide) hdigits)

theorem appendDigits_zeros (n zeros : Nat) :
    appendDigits 10 n (List.replicate zeros '0') = n * 10 ^ zeros := by
  induction zeros generalizing n with
  | zero => exact (Nat.mul_one n).symm
  | succ zeros ih =>
    have hzero : digitValue '0' = 0 := by decide
    rw [List.replicate_succ, Numeral.appendDigits_cons ⟨by decide, by decide⟩, ih, hzero,
      Nat.add_zero, Nat.mul_comm 10 n, Nat.mul_assoc, ← Nat.pow_succ']

theorem exact_longNumeral (zeros : Nat) :
    (longNumeral zeros).exact = 10 ^ ((zeros : ℤ) - 2147483648) := by
  have hdigits : (longNumeral zeros).digits = 10 ^ zeros := by
    have hone : 10 * 0 + digitValue '1' = 1 := by decide
    rw [Numeral.digits, digitsValue, longNumeral, List.append_nil,
      Numeral.appendDigits_cons ⟨by decide, by decide⟩, hone, appendDigits_zeros, Nat.one_mul]
  have hwritten : (longNumeral zeros).written - (longNumeral zeros).fraction.length =
      -2147483648 := by
    show longExponent.value - (0 : Nat) = _
    decide
  have hsign : (longNumeral zeros).negative = false := rfl
  rw [Numeral.exact, hdigits, hwritten, hsign, if_neg Bool.false_ne_true, one_mul, Nat.cast_pow,
    sub_eq_add_neg, zpow_add₀ (by norm_num : (10 : ℚ) ≠ 0), zpow_natCast]
  rfl

/-- A negative exponent of 32 bits makes every number zero. -/
theorem value_longNumeral (zeros : Nat) :
    (longNumeral zeros).value = .double (Double.zero false) := by
  have hexponent : Numeral.exponentValue 0 longExponent.digits = .error 0 := by decide
  have hzero : (longNumeral zeros).approximate = .ok (.double (Double.zero false)) := by
    rw [Numeral.approximate_eq]
    simp only [longNumeral, Option.isNone_some, Bool.and_false, Bool.false_and, hexponent]
    simp [longExponent]
  rw [Numeral.value, hzero]

theorem reads_longToken (zeros : Nat) :
    Reads readNumber ⟨longToken zeros, 0⟩
      (.number (.double (Double.zero false)) (covering 0 (longToken zeros)))
      ⟨[], 0 + byteLength (longToken zeros)⟩ := by
  have hreads : Reads readNumber ⟨longToken zeros ++ [], 0⟩
      (.number (longNumeral zeros).value (covering 0 (longToken zeros)))
      ⟨[], 0 + byteLength (longToken zeros)⟩ :=
    follows_readNumber.complete ⟨rfl, rfl⟩ ⟨_, numberToken_longToken zeros, rfl⟩ (stops_nil _)
  rwa [List.append_nil, value_longNumeral] at hreads

/-- The token `123456789012345678901`, with a digit more than a significand holds. -/
def cutNumeral : Numeral :=
  ⟨false, ['1', '2', '3', '4', '5', '6', '7', '8', '9', '0', '1', '2', '3', '4', '5', '6', '7', '8',
    '9', '0', '1'], [], none⟩

end SchemaCompiler
