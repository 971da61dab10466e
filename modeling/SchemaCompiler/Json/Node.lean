/-
  File:      SchemaCompiler/Json/Node.lean
  Subject:   Syntax trees of JSON documents, with the span of every part.

  A tree keeps what the text says: members stand in source order and a repeated key is kept.
  `Node.toValue` forgets the spans; there a repeated key keeps its first place and takes its last
  value.
-/
import SchemaCompiler.Json.Value
import SchemaCompiler.Text.Span

namespace SchemaCompiler

/-- A member of an object. Its span runs from the opening quote of the key to the end of the
    value. -/
structure Member (ν : Type) where
  key : String
  keySpan : Span
  value : ν
  span : Span
  deriving DecidableEq, Repr

/-- A part of a JSON document. -/
inductive Node where
  | object (members : List (Member Node)) (span : Span)
  | array (items : List Node) (span : Span)
  | string (text : String) (span : Span)
  | number (n : Number) (span : Span)
  | boolean (b : Bool) (span : Span)
  | null (span : Span)
  deriving Repr

/-- The kinds of JSON values. -/
inductive Kind where
  | object | array | string | number | boolean | null
  deriving DecidableEq, Repr

def Kind.name : Kind → String
  | .object => "object"
  | .array => "array"
  | .string => "string"
  | .number => "number"
  | .boolean => "boolean"
  | .null => "null"

namespace Node

def span : Node → Span
  | .object _ s | .array _ s | .string _ s | .number _ s | .boolean _ s | .null s => s

def kind : Node → Kind
  | .object .. => .object
  | .array .. => .array
  | .string .. => .string
  | .number .. => .number
  | .boolean .. => .boolean
  | .null .. => .null

mutual

/-- The value of a tree. -/
def toValue : Node → Value
  | .object members _ => .object (collectEntries (memberValues members))
  | .array items _ => .array (itemValues items)
  | .string text _ => .string text
  | .number n _ => .number n
  | .boolean b _ => .boolean b
  | .null _ => .null

/-- The values of the items of an array. -/
def itemValues : List Node → List Value
  | [] => []
  | item :: items => item.toValue :: itemValues items

/-- The keys and values of the members of an object. -/
def memberValues : List (Member Node) → List (String × Value)
  | [] => []
  | ⟨key, _, value, _⟩ :: members => (key, value.toValue) :: memberValues members

end

end Node

end SchemaCompiler
