/-
  File:      SchemaCompiler/Json/Quoted.lean
  Subject:   Quoted strings: writing them, finding their end, and decoding their escapes.

  `quote` writes a text between quotes. `scanQuoted` finds the closing quote without looking into
  the escapes. `unquote` decodes what stands between the quotes; it reads a text, not a token, so
  that it serves both a token cut out by `scanQuoted` and the front of a longer text.
-/
import SchemaCompiler.Text.Ascii
import SchemaCompiler.Text.Span

namespace SchemaCompiler

/-! ## 1. Writing -/

/-- The hexadecimal digit of a number below sixteen, in lower case. -/
def hexDigit (n : Nat) : Char :=
  if n < 10 then Char.ofNat ('0'.toNat + n) else Char.ofNat ('a'.toNat + (n - 10))

/-- How one character is written inside quotes. -/
def escapeChar (c : Char) : List Char :=
  if c = '"' then ['\\', '"']
  else if c = '\\' then ['\\', '\\']
  else if c = '\x08' then ['\\', 'b']
  else if c = '\x0c' then ['\\', 'f']
  else if c = '\n' then ['\\', 'n']
  else if c = '\r' then ['\\', 'r']
  else if c = '\t' then ['\\', 't']
  else if c.toNat < 0x20 then
    ['\\', 'u', '0', '0', hexDigit (c.toNat / 16), hexDigit (c.toNat % 16)]
  else [c]

/-- A text between quotes. -/
def quote (text : List Char) : List Char := '"' :: text.flatMap escapeChar ++ ['"']

/-! ## 2. Finding the end -/

/-- What follows an opening quote. -/
inductive QuotedScan where
  /-- The token up to its closing quote, that quote included, and the rest. -/
  | closed (token rest : List Char)
  /-- A raw control character, after the characters `front`. -/
  | control (front : List Char)
  /-- No closing quote. -/
  | unterminated
  deriving DecidableEq, Repr

/-- The same outcome one character later. -/
def QuotedScan.push (front : List Char) : QuotedScan → QuotedScan
  | .closed token rest => .closed (front ++ token) rest
  | .control seen => .control (front ++ seen)
  | .unterminated => .unterminated

/-- Finds the closing quote: a backslash takes the next character with it, whatever it is. -/
def scanQuoted : List Char → QuotedScan
  | [] => .unterminated
  | '"' :: rest => .closed ['"'] rest
  | '\\' :: [] => .unterminated
  | '\\' :: c :: rest => (scanQuoted rest).push ['\\', c]
  | c :: rest => if c.toNat < 0x20 then .control [] else (scanQuoted rest).push [c]

/-! ## 3. Decoding -/

/-- Why a quoted string has no value. -/
inductive StringFault where
  | invalidEscape
  | endOfText
  /-- A low surrogate alone, or a high one before an escape that is no low one. -/
  | loneSurrogate
  /-- A high surrogate with no escape after it. -/
  | cutSurrogate
  | controlCharacter
  deriving DecidableEq, Repr

def StringFault.message : StringFault → String
  | .invalidEscape => "invalid escape"
  | .endOfText => "EOF while parsing a string"
  | .loneSurrogate => "lone leading surrogate in hex escape"
  | .cutSurrogate => "unexpected end of hex escape"
  | .controlCharacter => "control character (\\u0000-\\u001F) found while parsing a string"

/-- A fault, and the place after the last byte read. -/
structure StringError where
  fault : StringFault
  place : Place
  deriving DecidableEq, Repr

/-- The value of four hexadecimal digits. -/
def hexQuad? (a b c d : Char) : Option Nat := do
  let a ← hexValue? a
  let b ← hexValue? b
  let c ← hexValue? c
  let d ← hexValue? d
  return ((a * 16 + b) * 16 + c) * 16 + d

/-- The fault of a text that does not begin with four hexadecimal digits: four bytes are read if
    there are so many. -/
def hexError (place : Place) (text : List Char) : StringError :=
  if byteLength text < 4 then ⟨.endOfText, place.after text⟩
  else ⟨.invalidEscape, place.afterBytes text 4⟩

/-- Four hexadecimal digits, and the rest. -/
def readHex (place : Place) : List Char → Except StringError (Nat × List Char)
  | a :: b :: c :: d :: rest =>
    match hexQuad? a b c d with
    | some n => .ok (n, rest)
    | none => .error (hexError place (a :: b :: c :: d :: rest))
  | text => .error (hexError place text)

def isLowSurrogate (n : Nat) : Bool := 0xDC00 ≤ n && n ≤ 0xDFFF

def isHighSurrogate (n : Nat) : Bool := 0xD800 ≤ n && n ≤ 0xDBFF

/-- The character of a surrogate pair. -/
def surrogatePair (high low : Nat) : Char :=
  Char.ofNat ((high - 0xD800) * 0x400 + (low - 0xDC00) + 0x10000)

/-- The place after `count` bytes of one line. -/
def Place.skip (place : Place) (count : Nat) : Place := ⟨place.line, place.column + count⟩

/-- The place after one more byte of a text, or at its end. -/
def Place.afterByte (place : Place) (text : List Char) : Place := place.afterBytes text 1

/-- The low surrogate that has to follow the high one `high`: the character of the two, the place
    after them, and the rest. -/
def readLowSurrogate (place : Place) (high : Nat) (text : List Char) :
    Except StringError (Char × Place × List Char) :=
  match text with
  | [] => .error ⟨.endOfText, place⟩
  | '\\' :: [] => .error ⟨.endOfText, place.skip 1⟩
  | '\\' :: 'u' :: rest =>
    match readHex (place.skip 2) rest with
    | .error e => .error e
    | .ok (low, rest) =>
      if isLowSurrogate low then .ok (surrogatePair high low, place.skip 6, rest)
      else .error ⟨.loneSurrogate, place.skip 6⟩
  | '\\' :: rest => .error ⟨.cutSurrogate, (place.skip 1).afterByte rest⟩
  | text => .error ⟨.cutSurrogate, place.afterByte text⟩

/-- The character of a `\u` escape, read after the `u`. -/
def readUnicode (place : Place) (text : List Char) :
    Except StringError (Char × Place × List Char) :=
  match readHex place text with
  | .error e => .error e
  | .ok (n, rest) =>
    if isLowSurrogate n then .error ⟨.loneSurrogate, place.skip 4⟩
    else if isHighSurrogate n then readLowSurrogate (place.skip 4) n rest
    else .ok (Char.ofNat n, place.skip 4, rest)

/-- The character that a single letter after a backslash stands for. -/
def simpleEscape? (c : Char) : Option Char :=
  if c = '"' then some '"'
  else if c = '\\' then some '\\'
  else if c = '/' then some '/'
  else if c = 'b' then some '\x08'
  else if c = 'f' then some '\x0c'
  else if c = 'n' then some '\n'
  else if c = 'r' then some '\r'
  else if c = 't' then some '\t'
  else none

/-- One escape, read after its backslash: its character, the place after it, and the rest. -/
def readEscape (place : Place) : List Char → Except StringError (Char × Place × List Char)
  | [] => .error ⟨.endOfText, place⟩
  | c :: rest =>
    if c = 'u' then readUnicode (place.skip 1) rest
    else
      match simpleEscape? c with
      | some decoded => .ok (decoded, place.skip 1, rest)
      | none => .error ⟨.invalidEscape, place.afterByte (c :: rest)⟩

theorem readHex_length {place : Place} {text rest : List Char} {n : Nat}
    (h : readHex place text = .ok (n, rest)) : rest.length < text.length := by
  unfold readHex at h
  split at h
  · split at h
    · cases h; simp only [List.length_cons]; omega
    · simp at h
  · simp at h

theorem readLowSurrogate_length {place next : Place} {high : Nat} {text rest : List Char}
    {c : Char} (h : readLowSurrogate place high text = .ok (c, next, rest)) :
    rest.length < text.length := by
  unfold readLowSurrogate at h
  split at h
  · simp at h
  · simp at h
  · split at h
    · simp at h
    · rename_i hex
      split at h
      · simp only [Except.ok.injEq, Prod.mk.injEq] at h
        have := readHex_length hex
        simp only [List.length_cons, ← h.2.2]; omega
      · simp at h
  · simp at h
  · simp at h

/-- An escape that decodes leaves less text. -/
theorem readEscape_length {place next : Place} {text rest : List Char} {c : Char}
    (h : readEscape place text = .ok (c, next, rest)) : rest.length < text.length := by
  unfold readEscape at h
  split at h
  · simp at h
  · split at h
    · unfold readUnicode at h
      split at h
      · simp at h
      · rename_i hex
        have shorter := readHex_length hex
        split at h
        · simp at h
        · split at h
          · have := readLowSurrogate_length h
            simp; omega
          · cases h; simp; omega
    · split at h
      · cases h; simp
      · simp at h

/-- The characters up to the closing quote, decoded, and the text after it. -/
def unquote (place : Place) (text : List Char) : Except StringError (List Char × List Char) :=
  match text with
  | [] => .error ⟨.endOfText, place⟩
  | c :: rest =>
    if c = '"' then .ok ([], rest)
    else if c = '\\' then
      match _h : readEscape (place.skip 1) rest with
      | .error e => .error e
      | .ok (decoded, next, after) =>
        match unquote next after with
        | .error e => .error e
        | .ok (more, after) => .ok (decoded :: more, after)
    else if c.toNat < 0x20 then .error ⟨.controlCharacter, place.afterChar c⟩
    else
      match unquote (place.afterChar c) rest with
      | .error e => .error e
      | .ok (more, after) => .ok (c :: more, after)
termination_by text.length
decreasing_by
  · have := readEscape_length _h
    simp; omega
  · simp

end SchemaCompiler
