/-
  File:      SchemaCompiler/Uri/Punycode.lean
  Subject:   Decoding the ASCII form of a domain label.

  The part before the last hyphen holds the ASCII characters; after it, numbers of variable length
  in base 36 say at which position which other character is inserted.
-/
import SchemaCompiler.Text.Ascii

namespace SchemaCompiler

namespace Punycode

/-- The value of a digit in base 36. -/
def digit? (c : Char) : Option Nat :=
  if isAsciiLetter c then some ((asciiLower c).toNat - 'a'.toNat)
  else if isDigit c then some (digitValue c + 26)
  else none

/-- Divides `delta` by 35 until it is small; the number of divisions counts 36 each. -/
def adaptSteps : Nat → Nat → Nat → Nat
  | 0, delta, k => k + 36 * delta / (delta + 38)
  | fuel + 1, delta, k =>
    if 455 < delta then adaptSteps fuel (delta / 35) (k + 36) else k + 36 * delta / (delta + 38)

/-- The bias for the next number. -/
def adapt (delta points : Nat) (first : Bool) : Nat :=
  let delta := if first then delta / 700 else delta / 2
  adaptSteps 32 (delta + delta / points) 0

/-- The least digit that does not end a number, at a position. -/
def threshold (bias k : Nat) : Nat :=
  if k ≤ bias then 1 else if k ≥ bias + 26 then 26 else k - bias

/-- One number of variable length: its value added to `i`, and the text after it. -/
def readNumber (bias : Nat) : (k i weight : Nat) → List Char → Option (Nat × List Char)
  | _, _, _, [] => none
  | k, i, weight, c :: rest =>
    match digit? c with
    | none => none
    | some digit =>
      if 4294967296 ≤ i + digit * weight then none
      else if digit < threshold bias k then some (i + digit * weight, rest)
      else
        readNumber bias (k + 36) (i + digit * weight) (weight * (36 - threshold bias k)) rest

theorem readNumber_length {bias k i weight value : Nat} {text rest : List Char}
    (h : readNumber bias k i weight text = some (value, rest)) : rest.length < text.length := by
  induction text generalizing k i weight with
  | nil => simp [readNumber] at h
  | cons c tail ih =>
    unfold readNumber at h
    split at h
    · simp at h
    · split at h
      · simp at h
      · split at h
        · simp only [Option.some.injEq, Prod.mk.injEq] at h
          simp [h.2]
        · have := ih h
          simp only [List.length_cons]; omega

/-- Inserts the characters that the numbers describe. -/
def insertAll (code i bias : Nat) (output : List Char) (text : List Char) : Option (List Char) :=
  match text with
  | [] => some output
  | c :: tail =>
    match _h : readNumber bias 36 i 1 (c :: tail) with
    | none => none
    | some (next, rest) =>
      let points := output.length + 1
      let code := code + next / points
      let place := next % points
      if Nat.isValidChar code then
        insertAll code (place + 1) (adapt (next - i) points (i == 0))
          (output.take place ++ Char.ofNat code :: output.drop place) rest
      else none
termination_by text.length
decreasing_by
  have := readNumber_length _h
  exact this

/-- The part before the last hyphen, and the part after it. -/
def splitLast (text : List Char) : List Char × List Char :=
  let tail := (text.reverse.takeWhile (· ≠ '-')).reverse
  if tail.length = text.length then ([], text)
  else (text.take (text.length - tail.length - 1), tail)

/-- The label that a text, without its `xn--`, stands for. -/
def decode? (text : List Char) : Option (List Char) :=
  let (basic, rest) := splitLast text
  insertAll 128 0 72 basic rest

end Punycode

end SchemaCompiler
