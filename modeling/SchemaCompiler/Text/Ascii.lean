/-
  File:      SchemaCompiler/Text/Ascii.lean
  Subject:   ASCII characters: letters, digits, hexadecimal digits, and splitting at a character.
-/

namespace SchemaCompiler

def isAscii (c : Char) : Bool := c.toNat < 0x80

def isDigit (c : Char) : Bool := '0' ≤ c && c ≤ '9'

def digitValue (c : Char) : Nat := c.toNat - '0'.toNat

def isAsciiLower (c : Char) : Bool := 'a' ≤ c && c ≤ 'z'

def isAsciiUpper (c : Char) : Bool := 'A' ≤ c && c ≤ 'Z'

def isAsciiLetter (c : Char) : Bool := isAsciiLower c || isAsciiUpper c

/-- An ASCII letter in lower case, every other character as it is. -/
def asciiLower (c : Char) : Char :=
  if isAsciiUpper c then Char.ofNat (c.toNat + 0x20) else c

/-- An ASCII letter in upper case, every other character as it is. -/
def asciiUpper (c : Char) : Char :=
  if isAsciiLower c then Char.ofNat (c.toNat - 0x20) else c

/-- The value of a hexadecimal digit, in either case. -/
def hexValue? (c : Char) : Option Nat :=
  if isDigit c then some (digitValue c)
  else if 'a' ≤ c ∧ c ≤ 'f' then some (c.toNat - 'a'.toNat + 10)
  else if 'A' ≤ c ∧ c ≤ 'F' then some (c.toNat - 'A'.toNat + 10)
  else none

def isHexDigit (c : Char) : Bool := (hexValue? c).isSome

/-- The digits appended to a number, in a base. -/
def appendDigits (base n : Nat) (digits : List Char) : Nat :=
  digits.foldl (fun acc d => base * acc + (hexValue? d).getD 0) n

/-- The value of a run of digits, in a base up to sixteen. -/
def digitsValue (base : Nat) (digits : List Char) : Nat := appendDigits base 0 digits

/-- The parts of a text between the occurrences of a character; at least one. -/
def splitAtChar (separator : Char) : List Char → List (List Char)
  | [] => [[]]
  | c :: rest =>
    match splitAtChar separator rest with
    | part :: parts => if c = separator then [] :: part :: parts else (c :: part) :: parts
    | [] => [[c]]

end SchemaCompiler
