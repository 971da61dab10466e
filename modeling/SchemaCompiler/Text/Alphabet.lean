/-
  File:      SchemaCompiler/Text/Alphabet.lean
  Subject:   What is known of characters: letters, digits, letter case, and which can be shown.

  Beyond ASCII this grows with every version of Unicode, so it is not fixed here: an `Alphabet` says
  it. On ASCII all alphabets agree.
-/
import SchemaCompiler.Text.Ascii

namespace SchemaCompiler

/-- What a version of Unicode says of the characters. -/
structure Alphabet where
  /-- Letters, in the wide sense of the property Alphabetic. -/
  isAlphabetic : Char → Bool
  /-- Digits and the other number characters. -/
  isNumeric : Char → Bool
  isLowercase : Char → Bool
  isUppercase : Char → Bool
  /-- The upper-case form of one character, which may be a sequence. -/
  upperOf : Char → List Char
  /-- The lower-case form of one character, which may be a sequence. -/
  lowerOf : Char → List Char
  /-- Whether a character can be shown on its own. -/
  isShowable : Char → Bool
  isAlphabetic_ascii : ∀ c, isAscii c = true → isAlphabetic c = isAsciiLetter c
  isNumeric_ascii : ∀ c, isAscii c = true → isNumeric c = isDigit c
  isLowercase_ascii : ∀ c, isAscii c = true → isLowercase c = isAsciiLower c
  isUppercase_ascii : ∀ c, isAscii c = true → isUppercase c = isAsciiUpper c
  upperOf_ascii : ∀ c, isAscii c = true → upperOf c = [asciiUpper c]
  lowerOf_ascii : ∀ c, isAscii c = true → lowerOf c = [asciiLower c]

namespace Alphabet

variable (alphabet : Alphabet)

def isAlphanumeric (c : Char) : Bool := alphabet.isAlphabetic c || alphabet.isNumeric c

theorem isAlphanumeric_ascii (c : Char) (h : isAscii c = true) :
    alphabet.isAlphanumeric c = (isAsciiLetter c || isDigit c) := by
  rw [isAlphanumeric, alphabet.isAlphabetic_ascii c h, alphabet.isNumeric_ascii c h]

end Alphabet

end SchemaCompiler
