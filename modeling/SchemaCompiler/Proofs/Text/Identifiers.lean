/-
  File:      SchemaCompiler/Proofs/Text/Identifiers.lean
  Subject:   Identifiers, and what a change of case does to the characters they are made of.

  An identifier begins with `_`, `$` or a character of ID_Start, and goes on with these and with
  characters of ID_Continue. Which characters have the two properties grows with the versions of
  Unicode, as the alphabet does. What they all keep to is that a change of case leaves both
  properties as they are: `IdentifierClasses.Suits` says so for the characters beyond ASCII.

  * `Suits.all_holds_lowerOf` -- the lower-case form of a letter or digit belongs to identifiers iff
    the character does;
  * `Suits.upperOf_forms` -- so does the upper-case form. It begins an identifier iff the character
    does, but for the iota that is written under a vowel: it is a mark, and its upper case is a
    letter. It does not begin with a small ASCII letter, and with an ASCII digit only if the
    character is one.
-/
import SchemaCompiler.Text.Alphabet

namespace SchemaCompiler

/-! ## 1. Letters and digits of ASCII -/

/-- The forms of an ASCII letter, by its code. -/
theorem ascii_letter_forms : ∀ n < 0x80, isAsciiLetter (Char.ofNat n) = true →
    isAsciiLetter (asciiUpper (Char.ofNat n)) = true ∧
      isAsciiLetter (asciiLower (Char.ofNat n)) = true ∧
      isAsciiLower (asciiUpper (Char.ofNat n)) = false ∧
      isDigit (asciiUpper (Char.ofNat n)) = isDigit (Char.ofNat n) := by
  decide +kernel

/-- Case does not matter to an ASCII digit. -/
theorem ascii_digit_forms : ∀ n < 0x80, isDigit (Char.ofNat n) = true →
    asciiUpper (Char.ofNat n) = Char.ofNat n ∧ asciiLower (Char.ofNat n) = Char.ofNat n ∧
      isAsciiLower (Char.ofNat n) = false := by
  decide +kernel

theorem isAscii_of_isAsciiLetter {c : Char} (h : isAsciiLetter c = true) : isAscii c = true := by
  simp only [isAsciiLetter, isAsciiLower, isAsciiUpper, Bool.or_eq_true, Bool.and_eq_true,
    decide_eq_true_eq] at h
  refine decide_eq_true ?_
  rcases h with ⟨-, h⟩ | ⟨-, h⟩
  · exact Nat.lt_of_le_of_lt h (by decide)
  · exact Nat.lt_of_le_of_lt h (by decide)

theorem isAscii_of_isDigit {c : Char} (h : isDigit c = true) : isAscii c = true := by
  simp only [isDigit, Bool.and_eq_true, decide_eq_true_eq] at h
  exact decide_eq_true (Nat.lt_of_le_of_lt h.2 (by decide))

/-- A capital is neither a small letter nor a digit. -/
theorem not_small_of_isAsciiUpper {c : Char} (h : isAsciiUpper c = true) :
    isAsciiLower c = false ∧ isDigit c = false := by
  simp only [isAsciiUpper, Bool.and_eq_true, decide_eq_true_eq] at h
  have hbounds : 'A'.toNat ≤ c.toNat ∧ c.toNat ≤ 'Z'.toNat := h
  constructor
  · refine Bool.eq_false_iff.mpr fun hlower => ?_
    simp only [isAsciiLower, Bool.and_eq_true, decide_eq_true_eq] at hlower
    have hsmall : 'a'.toNat ≤ c.toNat := hlower.1
    have : 'Z'.toNat < 'a'.toNat := by decide
    omega
  · refine Bool.eq_false_iff.mpr fun hdigit => ?_
    simp only [isDigit, Bool.and_eq_true, decide_eq_true_eq] at hdigit
    have hnine : c.toNat ≤ '9'.toNat := hdigit.2
    have : '9'.toNat < 'A'.toNat := by decide
    omega

/-- The upper-case form of an ASCII letter or digit is no small letter, and a digit iff the
    character is. -/
theorem asciiUpper_forms {c : Char} (h : (isAsciiLetter c || isDigit c) = true) :
    isAsciiLower (asciiUpper c) = false ∧ isDigit (asciiUpper c) = isDigit c := by
  rcases Bool.or_eq_true_iff.mp h with hletter | hdigit
  · have hforms := ascii_letter_forms c.toNat (of_decide_eq_true (isAscii_of_isAsciiLetter hletter))
    rw [Char.ofNat_toNat] at hforms
    exact (hforms hletter).2.2
  · have hforms := ascii_digit_forms c.toNat (of_decide_eq_true (isAscii_of_isDigit hdigit))
    rw [Char.ofNat_toNat] at hforms
    obtain ⟨hupper, -, hlarge⟩ := hforms hdigit
    rw [hupper]
    exact ⟨hlarge, rfl⟩

/-! ## 2. Identifiers -/

/-- The characters with the properties ID_Start and ID_Continue. -/
structure IdentifierClasses where
  isStart : Char → Bool
  isContinue : Char → Bool

namespace IdentifierClasses

variable (classes : IdentifierClasses)

/-- Whether an identifier may begin with a character. -/
def begins (c : Char) : Bool := c == '_' || c == '$' || classes.isStart c

/-- Whether an identifier may go on with a character. -/
def holds (c : Char) : Bool := c == '_' || c == '$' || classes.isContinue c

/-- An identifier of the language that modules are written in, reserved words included. -/
def isIdentifier : List Char → Bool
  | [] => false
  | first :: rest => classes.begins first && rest.all classes.holds

/-- **What the classes and the alphabet of a version of Unicode have in common.** -/
structure Suits (alphabet : Alphabet) : Prop where
  isContinue_of_isStart : ∀ c, classes.isStart c = true → classes.isContinue c = true
  isStart_ascii : ∀ c, isAscii c = true → classes.isStart c = isAsciiLetter c
  isContinue_ascii : ∀ c, isAscii c = true →
    classes.isContinue c = (isAsciiLetter c || isDigit c || c == '_')
  /-- A change to lower case neither leaves identifiers nor enters them. -/
  holds_lowerOf : ∀ c, isAscii c = false → alphabet.isAlphanumeric c = true →
    (alphabet.lowerOf c).all classes.holds = classes.holds c
  /-- Nor does a change to upper case. -/
  holds_upperOf : ∀ c, isAscii c = false → alphabet.isAlphanumeric c = true →
    (alphabet.upperOf c).all classes.holds = classes.holds c
  /-- Upper case begins an identifier iff the character does or is the iota under a vowel. If it
      begins with a character of ASCII, that is a capital. -/
  upperOf_first : ∀ c, isAscii c = false → alphabet.isAlphanumeric c = true →
    ∃ first rest, alphabet.upperOf c = first :: rest ∧
      (classes.begins first = true ↔ classes.begins c = true ∨ c.toNat = 0x345) ∧
      (isAscii first = true → isAsciiUpper first = true)

variable {classes}

namespace Suits

variable {alphabet : Alphabet} {c : Char} (h : classes.Suits alphabet)

include h

theorem holds_of_begins (hc : classes.begins c = true) : classes.holds c = true := by
  rw [begins, Bool.or_eq_true] at hc
  rw [holds, Bool.or_eq_true]
  exact hc.imp id (h.isContinue_of_isStart c)

/-- Letters of ASCII begin identifiers. -/
theorem begins_of_isAsciiLetter (hc : isAsciiLetter c = true) : classes.begins c = true := by
  rw [begins, h.isStart_ascii c (isAscii_of_isAsciiLetter hc), hc, Bool.or_true]

/-- Letters and digits of ASCII belong to identifiers. -/
theorem holds_of_ascii (hc : (isAsciiLetter c || isDigit c) = true) : classes.holds c = true := by
  have hascii : isAscii c = true :=
    (Bool.or_eq_true_iff.mp hc).elim isAscii_of_isAsciiLetter isAscii_of_isDigit
  rw [holds, h.isContinue_ascii c hascii, hc, Bool.true_or, Bool.or_true]

/-- The lower-case form of a letter or digit belongs to identifiers iff the character does. -/
theorem all_holds_lowerOf (hc : alphabet.isAlphanumeric c = true) :
    (alphabet.lowerOf c).all classes.holds = classes.holds c := by
  cases hascii : isAscii c with
  | false => exact h.holds_lowerOf c hascii hc
  | true =>
    rw [alphabet.isAlphanumeric_ascii c hascii] at hc
    rw [alphabet.lowerOf_ascii c hascii, List.all_cons, List.all_nil, Bool.and_true,
      h.holds_of_ascii hc]
    rcases Bool.or_eq_true_iff.mp hc with hletter | hdigit
    · have hforms := ascii_letter_forms c.toNat (of_decide_eq_true hascii)
      rw [Char.ofNat_toNat] at hforms
      exact h.holds_of_begins (h.begins_of_isAsciiLetter (hforms hletter).2.1)
    · have hforms := ascii_digit_forms c.toNat (of_decide_eq_true hascii)
      rw [Char.ofNat_toNat] at hforms
      rw [(hforms hdigit).2.1]
      exact h.holds_of_ascii hc

/-- The upper-case form of an ASCII letter or digit. -/
theorem asciiUpper_begins (hc : (isAsciiLetter c || isDigit c) = true) :
    classes.holds (asciiUpper c) = true ∧ classes.begins (asciiUpper c) = classes.begins c := by
  rcases Bool.or_eq_true_iff.mp hc with hletter | hdigit
  · have hforms := ascii_letter_forms c.toNat (of_decide_eq_true (isAscii_of_isAsciiLetter hletter))
    rw [Char.ofNat_toNat] at hforms
    have hupper := h.begins_of_isAsciiLetter (hforms hletter).1
    exact ⟨h.holds_of_begins hupper, hupper.trans (h.begins_of_isAsciiLetter hletter).symm⟩
  · have hforms := ascii_digit_forms c.toNat (of_decide_eq_true (isAscii_of_isDigit hdigit))
    rw [Char.ofNat_toNat] at hforms
    rw [(hforms hdigit).1]
    exact ⟨h.holds_of_ascii hc, rfl⟩

/-- The upper-case form of a letter or digit is not empty, belongs to identifiers iff the character
    does, begins one iff the character does or is the iota under a vowel, and does not begin with a
    small ASCII letter, nor with an ASCII digit unless the character is one. -/
theorem upperOf_forms (hc : alphabet.isAlphanumeric c = true) :
    ∃ first rest, alphabet.upperOf c = first :: rest ∧
      (alphabet.upperOf c).all classes.holds = classes.holds c ∧
      (classes.begins first = true ↔ classes.begins c = true ∨ c.toNat = 0x345) ∧
      isAsciiLower first = false ∧ isDigit first = isDigit c := by
  cases hascii : isAscii c with
  | true =>
    rw [alphabet.isAlphanumeric_ascii c hascii] at hc
    have hsmall : c.toNat < 0x80 := of_decide_eq_true hascii
    obtain ⟨hholds, hbegins⟩ := h.asciiUpper_begins hc
    refine ⟨asciiUpper c, [], alphabet.upperOf_ascii c hascii, ?_, ?_, asciiUpper_forms hc⟩
    · rw [alphabet.upperOf_ascii c hascii, List.all_cons, hholds, h.holds_of_ascii hc]
      rfl
    · rw [hbegins]
      exact ⟨.inl, fun hany => hany.resolve_right (by omega)⟩
  | false =>
    obtain ⟨first, rest, hupper, hbegins, hcapital⟩ := h.upperOf_first c hascii hc
    refine ⟨first, rest, hupper, h.holds_upperOf c hascii hc, hbegins, ?_, ?_⟩
    · refine Bool.eq_false_iff.mpr fun hlower => ?_
      have hletter : isAsciiLetter first = true := by rw [isAsciiLetter, hlower, Bool.true_or]
      have hupper := hcapital (isAscii_of_isAsciiLetter hletter)
      rw [(not_small_of_isAsciiUpper hupper).1] at hlower
      cases hlower
    · have hdigit : isDigit c = false :=
        Bool.eq_false_iff.mpr fun hdigit => absurd (isAscii_of_isDigit hdigit) (by simp [hascii])
      refine (Bool.eq_false_iff.mpr fun hfirst => ?_).trans hdigit.symm
      rw [(not_small_of_isAsciiUpper (hcapital (isAscii_of_isDigit hfirst))).2] at hfirst
      cases hfirst

end Suits

end IdentifierClasses

end SchemaCompiler
