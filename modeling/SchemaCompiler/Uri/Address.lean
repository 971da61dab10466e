/-
  File:      SchemaCompiler/Uri/Address.lean
  Subject:   Internet addresses as hosts: which texts are IPv4 and IPv6 addresses.

  An IPv4 address has one to four numbers, each decimal, octal (leading `0`) or hexadecimal
  (leading `0x`); the last one fills all the bytes that are left. An IPv6 address has eight groups
  of up to four hexadecimal digits, of which one run may be written `::`; the last two may be
  written as four decimal numbers.
-/
import SchemaCompiler.Text.Ascii

namespace SchemaCompiler

namespace Ipv4

/-- Drops the mark of the base and gives the base. -/
def splitBase : List Char → Nat × List Char
  | '0' :: 'x' :: digits => (16, digits)
  | '0' :: 'X' :: digits => (16, digits)
  | '0' :: d :: digits => (8, d :: digits)
  | digits => (10, digits)

def isDigitOf (base : Nat) (c : Char) : Bool :=
  match hexValue? c with
  | some value => value < base
  | none => false

/-- The number that a part of an address denotes. A mark without digits denotes zero. -/
def number? (part : List Char) : Option Nat :=
  if part.isEmpty then none
  else
    let (base, digits) := splitBase part
    if digits.all (isDigitOf base) then some (digitsValue base digits) else none

/-- The parts between points, without the empty one after a final point. -/
def parts (domain : List Char) : List (List Char) :=
  let all := splitAtChar '.' domain
  if all.getLast? = some [] then all.dropLast else all

/-- A domain whose last part is a number has to be an address. -/
def isDue (domain : List Char) : Bool :=
  match (parts domain).getLast? with
  | none => false
  | some last => (!last.isEmpty && last.all isDigit) || (number? last).isSome

/-- At most four numbers; all but the last fit a byte, the last fits the bytes left. -/
def isAddress (domain : List Char) : Bool :=
  match (parts domain).mapM number? with
  | none => false
  | some numbers =>
    match numbers.reverse with
    | [] => false
    | last :: front =>
      front.length ≤ 3 && front.all (· ≤ 255) && last < Nat.pow 256 (4 - front.length)

end Ipv4

namespace Ipv6

/-- A decimal number of a byte, without a leading zero. -/
def isByte (part : List Char) : Bool :=
  !part.isEmpty && part.all isDigit && (part == ['0'] || part.head? != some '0') &&
    digitsValue 10 part ≤ 255

/-- Four decimal numbers with points between them. -/
def isDotted (text : List Char) : Bool :=
  let parts := splitAtChar '.' text
  parts.length == 4 && parts.all isByte

/-- The up to four hexadecimal digits at the front. -/
def group (text : List Char) : List Char := (text.take 4).takeWhile isHexDigit

/-- The groups of an address from the `count`-th on; `shortened` tells whether `::` was met. -/
def groups (count : Nat) (shortened : Bool) (text : List Char) : Bool :=
  match text with
  | [] => shortened || count == 8
  | c :: rest =>
    if count == 8 then false
    else if c = ':' then !shortened && groups (count + 1) true rest
    else
      match _h : (c :: rest).drop (group (c :: rest)).length with
      | [] => shortened || count + 1 == 8
      | mark :: more =>
        if mark = '.' then
          !(group (c :: rest)).isEmpty && count ≤ 6 && isDotted (c :: rest) &&
            (shortened || count + 2 == 8)
        else if mark = ':' then !more.isEmpty && groups (count + 1) shortened more
        else false
termination_by text.length
decreasing_by
  · simp
  · have := congrArg List.length _h
    simp only [List.length_drop, List.length_cons] at *
    omega

/-- Whether a text between brackets is an address. -/
def isAddress : List Char → Bool
  | ':' :: ':' :: rest => groups 1 true rest
  | ':' :: _ => false
  | [] => false
  | [_] => false
  | text => groups 0 false text

end Ipv6

end SchemaCompiler
