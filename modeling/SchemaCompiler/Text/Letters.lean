/-
  File:      SchemaCompiler/Text/Letters.lean
  Subject:   The alphabet of Unicode 15.0, from tables.

  Each test decides ASCII by comparison and looks the others up in a table. Characters that later
  versions have added are in none of the tables.
-/
import SchemaCompiler.Text.Alphabet
import SchemaCompiler.Text.CaseTable
import SchemaCompiler.Text.HiddenTable
import SchemaCompiler.Text.LetterTable

namespace SchemaCompiler

/-- Whether a code point lies in one of some ranges. -/
def inRanges (ranges : List (Nat × Nat)) (code : Nat) : Bool :=
  ranges.any fun range => range.1 ≤ code && code ≤ range.2

def CaseRun.contains (run : CaseRun) (code : Nat) : Bool :=
  run.first ≤ code && code ≤ run.last && (code - run.first) % run.stride == 0

namespace Tabulated

def isAlphabetic (c : Char) : Bool :=
  if isAscii c then isAsciiLetter c else inRanges alphabeticRanges c.toNat

def isNumeric (c : Char) : Bool :=
  if isAscii c then isDigit c else inRanges numericRanges c.toNat

def isLowercase (c : Char) : Bool :=
  if isAscii c then isAsciiLower c else lowercaseRuns.any (·.contains c.toNat)

def isUppercase (c : Char) : Bool :=
  if isAscii c then isAsciiUpper c else uppercaseRuns.any (·.contains c.toNat)

/-- A character moved by the distance that a table gives for it, if it gives one. -/
def shiftBy (shifts : List (CaseRun × Int)) (c : Char) : Char :=
  match shifts.find? fun entry => entry.1.contains c.toNat with
  | some (_, distance) => Char.ofNat (c.toNat + distance).toNat
  | none => c

def upperOf (c : Char) : List Char :=
  if isAscii c then [asciiUpper c]
  else
    match upperSequences.lookup c.toNat with
    | some codes => codes.map Char.ofNat
    | none => [shiftBy upperShifts c]

/-- Only the lower-case form of the dotted capital I is a sequence. -/
def lowerOf (c : Char) : List Char :=
  if isAscii c then [asciiLower c]
  else if c.toNat = 0x130 then ['i', Char.ofNat 0x307]
  else [shiftBy lowerShifts c]

def isShowable (c : Char) : Bool :=
  if isAscii c then 0x20 ≤ c.toNat && c.toNat < 0x7F
  else !inRanges unprintableRanges c.toNat && !inRanges extendingRanges c.toNat

end Tabulated

/-- The alphabet of the tables. -/
def Alphabet.tabulated : Alphabet where
  isAlphabetic := Tabulated.isAlphabetic
  isNumeric := Tabulated.isNumeric
  isLowercase := Tabulated.isLowercase
  isUppercase := Tabulated.isUppercase
  upperOf := Tabulated.upperOf
  lowerOf := Tabulated.lowerOf
  isShowable := Tabulated.isShowable
  isAlphabetic_ascii _ h := if_pos h
  isNumeric_ascii _ h := if_pos h
  isLowercase_ascii _ h := if_pos h
  isUppercase_ascii _ h := if_pos h
  upperOf_ascii _ h := if_pos h
  lowerOf_ascii _ h := if_pos h

end SchemaCompiler
