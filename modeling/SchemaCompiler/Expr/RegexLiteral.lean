/-
  File:      SchemaCompiler/Expr/RegexLiteral.lean
  Subject:   Regular expressions as literals between slashes.

  A slash that would end the literal is escaped: one that is neither escaped already nor inside a
  class. A line terminator is written by its escape, and an escape that the source leaves open is
  completed.
-/
import SchemaCompiler.Text.Ascii

namespace SchemaCompiler

namespace RegexLiteral

/-- Where a scan of a regular expression stands. -/
structure State where
  /-- The next character is escaped. -/
  escaped : Bool
  /-- The next character stands in a class. -/
  inClass : Bool
  deriving DecidableEq, Repr

def State.start : State := ⟨false, false⟩

/-- The state after a character. -/
def State.next (state : State) (c : Char) : State :=
  { escaped := c = '\\' && !state.escaped
    inClass :=
      if state.escaped then state.inClass
      else if c = '[' then true
      else if c = ']' then false
      else state.inClass }

/-- How a character is written. -/
def encodeChar (state : State) (c : Char) : List Char :=
  if c = '\n' then ['\\', 'n']
  else if c = '\r' then ['\\', 'r']
  else if c = '\u2028' then "\\u2028".toList
  else if c = '\u2029' then "\\u2029".toList
  else if c = '/' && !state.escaped && !state.inClass then ['\\', '/']
  else [c]

/-- How a source is written between the slashes. -/
def encode (state : State) : List Char → List Char
  | [] => if state.escaped then ['\\'] else []
  | c :: rest => encodeChar state c ++ encode (state.next c) rest

end RegexLiteral

/-- The literal of a regular expression. The empty one has to be written as an empty group, since
    two slashes begin a comment. -/
def regexLiteral (source : List Char) : List Char :=
  if source.isEmpty then "/(?:)/".toList
  else '/' :: RegexLiteral.encode .start source ++ ['/']

end SchemaCompiler
