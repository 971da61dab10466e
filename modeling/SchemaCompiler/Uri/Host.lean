/-
  File:      SchemaCompiler/Uri/Host.lean
  Subject:   Which texts are hosts.

  `Host.isDomain` decides a host of the web schemes: a bracketed IPv6 address, or a domain whose
  percent-escapes are decoded and whose characters are all allowed; a domain that ends in a number
  has to be an IPv4 address. `Host.isOpaque` decides a host of the other schemes.
-/
import SchemaCompiler.Text.HiddenTable
import SchemaCompiler.Text.Letters
import SchemaCompiler.Uri.Address
import SchemaCompiler.Uri.Punycode

namespace SchemaCompiler

namespace Host

/-! ## 1. Percent-escapes -/

/-- The bytes of a text with its percent-escapes decoded. A percent sign without two hexadecimal
    digits stands for itself. -/
def percentDecode : List UInt8 → List UInt8
  | [] => []
  | [a] => [a]
  | [a, b] => [a, b]
  | a :: b :: c :: rest =>
    match a == 0x25, hexValue? (Char.ofNat b.toNat), hexValue? (Char.ofNat c.toNat) with
    | true, some high, some low => UInt8.ofNat (high * 16 + low) :: percentDecode rest
    | _, _, _ => a :: percentDecode (b :: c :: rest)

/-- A text with its percent-escapes decoded, if that is UTF-8 again. -/
def decode? (text : List Char) : Option (List Char) :=
  let bytes := percentDecode (String.ofList text).toUTF8.toList
  (String.fromUTF8? ⟨bytes.toArray⟩).map String.toList

/-! ## 2. Characters of domains -/

/-- ASCII characters that no host may hold. -/
def isForbidden (c : Char) : Bool :=
  c.toNat = 0 || "\t\n\r #/:<>?@[\\]^|".toList.contains c

/-- ASCII characters that no domain may hold. -/
def isForbiddenInDomain (c : Char) : Bool :=
  isForbidden c || c.toNat ≤ 0x20 || c = '%' || c.toNat = 0x7f

/-- Characters that are dropped from a domain. -/
def ignoredRanges : List (Nat × Nat) := [
  (0xad, 0xad), (0x34f, 0x34f), (0x180b, 0x180d), (0x180f, 0x180f), (0x200b, 0x200b),
  (0x2060, 0x2060), (0x2064, 0x2064), (0xfe00, 0xfe0f), (0xfeff, 0xfeff), (0x1bca0, 0x1bca3),
  (0xe0100, 0xe01ef)]

/-- Characters whose compatibility form holds a character that no domain may hold. -/
def foldingRanges : List (Nat × Nat) := [
  (0xa8, 0xa8), (0xaf, 0xaf), (0xb4, 0xb4), (0xb8, 0xb8), (0x2d8, 0x2dd), (0x37a, 0x37a),
  (0x384, 0x385), (0x115f, 0x1160), (0x17b4, 0x17b5), (0x1fbd, 0x1fbd), (0x1fbf, 0x1fc1),
  (0x1fcd, 0x1fcf), (0x1fdd, 0x1fdf), (0x1fed, 0x1fee), (0x1ffd, 0x1ffe), (0x2017, 0x2017),
  (0x203e, 0x203e), (0x2047, 0x2049), (0x2100, 0x2101), (0x2105, 0x2106), (0x2a74, 0x2a74),
  (0x2ff0, 0x2ffb), (0x309b, 0x309c), (0x3164, 0x3164), (0xfc5e, 0xfc63), (0xfdfa, 0xfdfb),
  (0xfe13, 0xfe13), (0xfe16, 0xfe16), (0xfe47, 0xfe4c), (0xfe55, 0xfe56), (0xfe5f, 0xfe5f),
  (0xfe64, 0xfe65), (0xfe68, 0xfe68), (0xfe6a, 0xfe6b), (0xfe70, 0xfe70), (0xfe72, 0xfe72),
  (0xfe74, 0xfe74), (0xfe76, 0xfe76), (0xfe78, 0xfe78), (0xfe7a, 0xfe7a), (0xfe7c, 0xfe7c),
  (0xfe7e, 0xfe7e), (0xff03, 0xff03), (0xff05, 0xff05), (0xff0f, 0xff0f), (0xff1a, 0xff1a),
  (0xff1c, 0xff1c), (0xff1e, 0xff20), (0xff3b, 0xff3e), (0xff5c, 0xff5c), (0xffa0, 0xffa0),
  (0xffe3, 0xffe3)]

/-- A domain character in the form that is looked up: ASCII in lower case, full-width ASCII and
    the ideographic full stops as ASCII. -/
def fold (c : Char) : Char :=
  if 0xff01 ≤ c.toNat ∧ c.toNat ≤ 0xff5e then asciiLower (Char.ofNat (c.toNat - 0xfee0))
  else if c.toNat = 0x3002 ∨ c.toNat = 0xff61 then '.'
  else asciiLower c

/-- Whether a folded character may stand in a domain. -/
def isAllowed (c : Char) : Bool :=
  if isAscii c then !isForbiddenInDomain c
  else !inRanges unprintableRanges c.toNat && !inRanges foldingRanges c.toNat

/-- The characters of a domain that are looked up. -/
def normalize (domain : List Char) : List Char :=
  (domain.filter fun c => !inRanges ignoredRanges c.toNat).map fold

/-- A label in ASCII form has to stand for a label that is not all ASCII. -/
def isLabel (label : List Char) : Bool :=
  match label with
  | 'x' :: 'n' :: '-' :: '-' :: rest =>
    match Punycode.decode? rest with
    | none => false
    | some decoded =>
      decoded.any (!isAscii ·) && decoded.all fun c => isAllowed c && Tabulated.lowerOf c == [c]
  | _ => true

/-! ## 3. Hosts -/

/-- The address inside a pair of brackets. -/
def isBracketed (host : List Char) : Bool :=
  host.getLast? == some ']' && Ipv6.isAddress (host.drop 1).dropLast

/-- Whether a text is a host of the web schemes. -/
def isDomain (host : List Char) : Bool :=
  if host.head? = some '[' then isBracketed host
  else
    match decode? host with
    | none => false
    | some decoded =>
      let domain := normalize decoded
      !domain.isEmpty && domain.all isAllowed && (splitAtChar '.' domain).all isLabel &&
        (!Ipv4.isDue domain || Ipv4.isAddress domain)

/-- Whether a text is a host of the other schemes; the empty text is. -/
def isOpaque (host : List Char) : Bool :=
  if host.head? = some '[' then isBracketed host else !host.any isForbidden

end Host

end SchemaCompiler
