/-
  File:      SchemaCompiler/Proofs/Json/Writing.lean
  Subject:   Written strings and whole numbers, and the grammar.

  The writer knows only `quote` and `Nat.toDigits`; the grammar knows escapes and number tokens.

  * `stringBody_escaped` -- a text written between quotes denotes that text, whatever its
    characters;
  * `whole_toDigits` -- the digits of a number are a whole part, without a zero in front;
  * `Numeral.value_natural`, `Numeral.value_negative` -- the numeral with these digits denotes the
    number, up to `2^64 - 1` and down to `-2^63`.
-/
import SchemaCompiler.Proofs.Json.Numerals
import SchemaCompiler.Proofs.Json.Strings

namespace SchemaCompiler

open Grammar

/-! ## 1. Strings -/

theorem hexValue?_hexDigit : ∀ n < 16, hexValue? (hexDigit n) = some n := by decide

/-- A control is written with four digits that denote it. -/
theorem hexQuad_control {c : Char} (h : c.toNat < 0x20) :
    HexQuad ['0', '0', hexDigit (c.toNat / 16), hexDigit (c.toNat % 16)] c.toNat := by
  have hhigh := hexValue?_hexDigit (c.toNat / 16) (by omega)
  have hlow := hexValue?_hexDigit (c.toNat % 16) (by omega)
  have hzero : HexDigit '0' 0 := .decimal (by decide) (by decide)
  have hquad := HexQuad.mk hzero hzero (hexValue?_eq_some_iff.mp hhigh)
    (hexValue?_eq_some_iff.mp hlow)
  have e : 0 * 4096 + 0 * 256 + c.toNat / 16 * 16 + c.toNat % 16 = c.toNat := by omega
  rwa [e] at hquad

/-- One character more: what is written for it denotes it. -/
theorem stringBody_escapeChar (c : Char) {text decoded : List Char} (h : StringBody text decoded) :
    StringBody (escapeChar c ++ text) (c :: decoded) := by
  unfold escapeChar
  by_cases hquote : c = '"'
  · rw [if_pos hquote, hquote]
    exact .escape (.letter .quote) h
  rw [if_neg hquote]
  by_cases hback : c = '\\'
  · rw [if_pos hback, hback]
    exact .escape (.letter .backslash) h
  rw [if_neg hback]
  by_cases hbackspace : c = '\x08'
  · rw [if_pos hbackspace, hbackspace]
    exact .escape (.letter .backspace) h
  rw [if_neg hbackspace]
  by_cases hform : c = '\x0c'
  · rw [if_pos hform, hform]
    exact .escape (.letter .formFeed) h
  rw [if_neg hform]
  by_cases hline : c = '\n'
  · rw [if_pos hline, hline]
    exact .escape (.letter .lineFeed) h
  rw [if_neg hline]
  by_cases hreturn : c = '\r'
  · rw [if_pos hreturn, hreturn]
    exact .escape (.letter .carriageReturn) h
  rw [if_neg hreturn]
  by_cases htab : c = '\t'
  · rw [if_pos htab, htab]
    exact .escape (.letter .tab) h
  rw [if_neg htab]
  by_cases hcontrol : c.toNat < 0x20
  · rw [if_pos hcontrol]
    exact .escape (.unicode (hexQuad_control hcontrol)) h
  · rw [if_neg hcontrol]
    exact .plain (Nat.le_of_not_lt hcontrol) hquote hback h

/-- **What a text is escaped to denotes the text.** -/
theorem stringBody_escaped (text : List Char) : StringBody (text.flatMap escapeChar) text := by
  induction text with
  | nil => exact .empty
  | cons c text ih =>
    rw [List.flatMap_cons]
    exact stringBody_escapeChar c ih

/-! ## 2. Digits -/

theorem digit_digitChar : ∀ n < 10, '0' ≤ n.digitChar ∧ n.digitChar ≤ '9' := by decide

theorem one_le_digitChar : ∀ n < 10, 0 < n → '1' ≤ n.digitChar := by decide

theorem digitValue_digitChar : ∀ n < 10, digitValue n.digitChar = n := by decide

theorem digits_concat {ds : List Char} {d : Char} (hds : Digits ds) (hd : Digit d) :
    Digits (ds ++ [d]) :=
  List.forall_mem_append.mpr ⟨hds, List.forall_mem_singleton.mpr hd⟩

/-- The digits of a number above zero begin with one that is not zero. -/
theorem toDigits_eq_cons {n : Nat} (h : 0 < n) :
    ∃ d ds, Nat.toDigits 10 n = d :: ds ∧ '1' ≤ d ∧ d ≤ '9' ∧ Digits ds := by
  induction n using Nat.strongRecOn with
  | ind n ih =>
    by_cases hsmall : n < 10
    · refine ⟨n.digitChar, [], Nat.toDigits_of_lt_base hsmall, one_le_digitChar n hsmall h,
        (digit_digitChar n hsmall).2, ?_⟩
      exact fun c hc => absurd hc List.not_mem_nil
    · obtain ⟨d, ds, hdigits, h1, h9, hds⟩ := ih (n / 10) (by omega) (by omega)
      have hlast := digit_digitChar (n % 10) (by omega)
      refine ⟨d, ds ++ [(n % 10).digitChar], ?_, h1, h9, digits_concat hds hlast⟩
      rw [Nat.toDigits_of_base_le (by decide) (by omega), hdigits, List.cons_append]

/-- The digits of a number are a whole part: they begin with zero for zero only. -/
theorem whole_toDigits (n : Nat) : Whole (Nat.toDigits 10 n) := by
  by_cases hzero : n = 0
  · subst hzero
    exact .zero
  · obtain ⟨d, ds, hdigits, h1, h9, hds⟩ := toDigits_eq_cons (Nat.pos_of_ne_zero hzero)
    rw [hdigits]
    exact .nonzero h1 h9 hds

namespace Numeral

/-- Digits that all fit are taken, and the rest after them. -/
theorem takeDigits_append {ds : List Char} {s m : Nat} (h : takeDigits s ds = (m, []))
    (more : List Char) : takeDigits s (ds ++ more) = takeDigits m more := by
  induction ds generalizing s with
  | nil =>
    rw [takeDigits, Prod.mk.injEq] at h
    rw [List.nil_append, h.1]
  | cons d ds ih =>
    rw [List.cons_append]
    simp only [takeDigits] at h ⊢
    split at h
    · rename_i hfits
      rw [if_pos hfits]
      exact ih h
    · simp at h

/-- Digit by digit the significand is a number that the digits so far denote. -/
theorem takeDigits_toDigits {n : Nat} (h : n ≤ significandLimit) :
    takeDigits 0 (Nat.toDigits 10 n) = (n, []) := by
  induction n using Nat.strongRecOn with
  | ind n ih =>
    by_cases hsmall : n < 10
    · rw [Nat.toDigits_of_lt_base hsmall]
      simp only [takeDigits, digitValue_digitChar n hsmall, Nat.mul_zero, Nat.zero_add, h,
        ↓reduceIte]
    · have hfront := ih (n / 10) (by omega) (by omega)
      have hvalue := digitValue_digitChar (n % 10) (by omega)
      have e : 10 * (n / 10) + n % 10 = n := by omega
      rw [Nat.toDigits_of_base_le (by decide) (by omega), takeDigits_append hfront]
      simp only [takeDigits, hvalue, e, h, ↓reduceIte]

/-- Digits alone that all fit are a whole number. -/
theorem approximate_of_whole {n : Numeral} {m : Nat} (hfraction : n.fraction = [])
    (hexponent : n.exponent = none) (h : takeDigits 0 n.whole = (m, [])) :
    n.approximate = .ok (wholeNumber n.negative m) := by
  simp only [approximate, h, hfraction, hexponent, List.isEmpty_nil, Option.isNone_none,
    Bool.and_self, if_true]

/-- The digits of a number of 64 bits denote it. -/
theorem value_natural {n : Nat} (h : n ≤ significandLimit) :
    (Numeral.mk false (Nat.toDigits 10 n) [] none).value = .natural n := by
  rw [value, approximate_of_whole rfl rfl (takeDigits_toDigits h)]
  rfl

/-- With a minus they denote its opposite, down to `-2^63`. -/
theorem value_negative {n : Nat} (h1 : 1 ≤ n) (h : n ≤ negativeLimit) :
    (Numeral.mk true (Nat.toDigits 10 n) [] none).value = .negative n := by
  have hlimit : negativeLimit ≤ significandLimit := by decide
  rw [value, approximate_of_whole rfl rfl (takeDigits_toDigits (h.trans hlimit))]
  simp [wholeNumber, h1, h]

end Numeral

end SchemaCompiler
