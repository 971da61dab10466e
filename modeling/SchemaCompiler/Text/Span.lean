/-
  File:      SchemaCompiler/Text/Span.lean
  Subject:   Byte offsets, spans, and the places a reader stands at.

  A text is a list of characters; every offset counts the bytes of its UTF-8 form. Three ways of
  naming a place in a text are kept apart:

  * `Span` -- two byte offsets, what syntax trees and diagnostics carry;
  * `Position` -- a line and a column counted in characters, what a report prints;
  * `Place` -- a line and the bytes read since it began, what the messages of the string and
    settings readers print.
-/

namespace SchemaCompiler

/-! ## 1. Bytes -/

/-- How many bytes the UTF-8 form of a text takes. -/
def byteLength : List Char → Nat
  | [] => 0
  | c :: rest => c.utf8Size + byteLength rest

@[simp] theorem byteLength_nil : byteLength [] = 0 := rfl

@[simp] theorem byteLength_cons (c : Char) (rest : List Char) :
    byteLength (c :: rest) = c.utf8Size + byteLength rest := rfl

@[simp] theorem byteLength_append (a b : List Char) :
    byteLength (a ++ b) = byteLength a + byteLength b := by
  induction a with
  | nil => simp
  | cons c rest ih => simp [ih, Nat.add_assoc]

/-- The byte range `start .. stop` of a text, `stop` excluded. -/
structure Span where
  start : Nat
  stop : Nat
  deriving DecidableEq, Repr

/-! ## 2. Lines and columns -/

/-- A line and a column, both counted from one. -/
structure Position where
  line : Nat
  column : Nat
  deriving DecidableEq, Repr

/-- The characters that end at or before a byte offset, and how many bytes of the next character
    lie before it. The second number is not zero only when the offset splits a character. -/
def before : List Char → Nat → List Char × Nat
  | [], _ => ([], 0)
  | c :: rest, offset =>
    if offset < c.utf8Size then ([], offset)
    else
      let (front, inside) := before rest (offset - c.utf8Size)
      (c :: front, inside)

/-- The part of a text after its last line feed. -/
def lastLine (text : List Char) : List Char :=
  (text.reverse.takeWhile (· ≠ '\n')).reverse

/-- The position of a byte offset. An offset past the end has the position of the end. The column
    counts characters, except that an offset inside a character makes it count bytes. -/
def Position.ofOffset (text : List Char) (offset : Nat) : Position :=
  let (front, inside) := before text offset
  let line := lastLine front
  { line := front.count '\n' + 1
    column := (if inside = 0 then line.length else byteLength line + inside) + 1 }

/-! ## 3. Places -/

/-- A line counted from one, and the bytes read since it began. -/
structure Place where
  line : Nat
  column : Nat
  deriving DecidableEq, Repr

/-- Where a reader stands before the first byte. -/
def Place.origin : Place := ⟨1, 0⟩

/-- The place after one more character, all its bytes read. -/
def Place.afterChar (place : Place) (c : Char) : Place :=
  if c = '\n' then ⟨place.line + 1, 0⟩ else ⟨place.line, place.column + c.utf8Size⟩

/-- The place after the characters `cs`. -/
def Place.after (place : Place) (cs : List Char) : Place :=
  cs.foldl Place.afterChar place

/-- The place after `count` more bytes of `cs`; the last of them may split a character. -/
def Place.afterBytes (place : Place) : List Char → Nat → Place
  | [], _ => place
  | c :: rest, count =>
    if count = 0 then place
    else if count < c.utf8Size then ⟨place.line, place.column + count⟩
    else (place.afterChar c).afterBytes rest (count - c.utf8Size)

end SchemaCompiler
