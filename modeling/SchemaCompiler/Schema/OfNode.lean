/-
  File:      SchemaCompiler/Schema/OfNode.lean
  Subject:   The schema that a tree denotes.

  Each member of an object becomes a keyword or is set aside, in source order. The first violation
  ends the reading; warnings are collected on the way.
-/
import SchemaCompiler.Schema.Payload

namespace SchemaCompiler

namespace Schema

open Checked Payload

/-- What a member of a schema object becomes. -/
inductive Part where
  | active (keyword : Located (Keyword Schema))
  | parked (member : Parked)

def Part.active? : Part → Option (Located (Keyword Schema))
  | .active keyword => some keyword
  | .parked _ => none

def Part.parked? : Part → Option Parked
  | .active _ => none
  | .parked member => some member

/-- The schema `true`, where it stands. -/
def always (span : Span) : Schema := .mk [] [] (some span)

/-- The schema `false`, where it stands: it refuses what the empty schema accepts. -/
def never (span : Span) : Schema := .mk [⟨.schema .not empty, some span⟩] [] (some span)

/-- The schema of an object. It must not have anchors of both kinds. -/
def ofParts (parts : List Part) (span : Span) : Checked Schema :=
  let schema := Schema.mk (parts.filterMap Part.active?) (parts.filterMap Part.parked?) (some span)
  if schema.has (.text .anchor) && schema.has (.text .dynamicAnchor) then
    refuse .twoAnchors span
  else pure schema

/-- A keyword that stands in the source. -/
def placed (span : Span) (keyword : Keyword Schema) : Part := .active ⟨keyword, some span⟩

section Reading

variable (engines : Engines)

mutual

/-- The schema that a tree denotes. -/
def ofNode : Node → Checked Schema
  | .object members span => do ofParts (← partsOf members) span
  | .boolean true span => pure (always span)
  | .boolean false span => pure (never span)
  | .array _ span => refuse (.notSchema .array) span
  | .string _ span => refuse (.notSchema .string) span
  | .number _ span => refuse (.notSchema .number) span
  | .null span => refuse (.notSchema .null) span

/-- What the members of a schema object become. -/
def partsOf : List (Member Node) → Checked (List Part)
  | [] => pure []
  | member :: members => do
    let part ← partOf member
    let parts ← partsOf members
    pure (part :: parts)

/-- What a member of a schema object becomes. -/
def partOf : Member Node → Checked Part
  | ⟨key, _, value, span⟩ =>
    match KeywordKind.ofName? key with
    | none => do
      warn (.unknownKeyword key) span
      pure (.parked ⟨key, value, span, .unknown⟩)
    | some (.directive d) => do
      readDirective d value span
      pure (.parked ⟨key, value, span, .notYetSupported⟩)
    | some (.text k) => do pure (placed span (.text k (← readText engines k value)))
    | some (.schema k) => do pure (placed span (.schema k (← ofNode value)))
    | some (.schemas k) => do pure (placed span (.schemas k (← readSchemas k value)))
    | some (.entries k) => do pure (placed span (.entries k (← readEntries k value)))
    | some .types => do pure (placed span (.types (← readTypes value)))
    | some .enum => do pure (placed span (.enum (← readArray .enum value)))
    | some (.data k) => pure (placed span (.data k value))
    | some (.number k) => do pure (placed span (.number k (← readBound k value)))
    | some (.count k) => do pure (placed span (.count k (← readCount k value)))
    | some (.flag k) => do pure (placed span (.flag k (← readBoolean (.flag k) value)))
    | some .required => do pure (placed span (.required (← readNames .required value)))
    | some .dependentRequired => do
      pure (placed span (.dependentRequired (← readDependencies value)))

def readSchemas (k : ListKeyword) : Node → Checked (List Schema)
  | .array items _ => schemasOf items
  | node => wrongKind (.schemas k) .array node

def readEntries (k : MapKeyword) : Node → Checked (List (Entry Schema))
  | .object members _ => entriesOf members
  | node => wrongKind (.entries k) .object node

/-- The schemas of a list. -/
def schemasOf : List Node → Checked (List Schema)
  | [] => pure []
  | item :: items => do
    let schema ← ofNode item
    let schemas ← schemasOf items
    pure (schema :: schemas)

/-- The schemas under keys. -/
def entriesOf : List (Member Node) → Checked (List (Entry Schema))
  | [] => pure []
  | ⟨key, _, value, span⟩ :: members => do
    let schema ← ofNode value
    let entries ← entriesOf members
    pure (⟨key, schema, span⟩ :: entries)

end

end Reading

end Schema

end SchemaCompiler
