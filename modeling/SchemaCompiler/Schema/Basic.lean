/-
  File:      SchemaCompiler/Schema/Basic.lean
  Subject:   Schemas as lists of keywords.

  A keyword is generic in what stands for a sub-schema: in a `Schema` that is a schema again,
  elsewhere it is what has been made of it. A schema keeps its keywords in source order, repeated
  ones too, and beside them what was set aside.
-/
import SchemaCompiler.Json.Node
import SchemaCompiler.Schema.Vocabulary

namespace SchemaCompiler

/-! ## 1. Keywords -/

/-- A sub-schema under a key. -/
structure Entry (σ : Type) where
  key : String
  schema : σ
  span : Span
  deriving DecidableEq, Repr

/-- The names that must be there if `key` is. -/
structure Dependency where
  key : String
  required : List String
  span : Span
  deriving DecidableEq, Repr

/-- A keyword with its value. -/
inductive Keyword (σ : Type) where
  | text (k : TextKeyword) (text : String)
  | schema (k : SchemaKeyword) (schema : σ)
  | schemas (k : ListKeyword) (schemas : List σ)
  | entries (k : MapKeyword) (entries : List (Entry σ))
  | types (types : List PrimitiveType)
  | enum (values : List Node)
  | data (k : DataKeyword) (value : Node)
  | number (k : NumberKeyword) (n : Number)
  | count (k : CountKeyword) (n : Nat)
  | flag (k : FlagKeyword) (b : Bool)
  | required (names : List String)
  | dependentRequired (dependencies : List Dependency)
  deriving Repr

/-- What a keyword is. -/
def Keyword.kind {σ : Type} : Keyword σ → KeywordKind
  | .text k _ => .text k
  | .schema k _ => .schema k
  | .schemas k _ => .schemas k
  | .entries k _ => .entries k
  | .types _ => .types
  | .enum _ => .enum
  | .data k _ => .data k
  | .number k _ => .number k
  | .count k _ => .count k
  | .flag k _ => .flag k
  | .required _ => .required
  | .dependentRequired _ => .dependentRequired

/-- A keyword and the span of its member. -/
structure Located (κ : Type) where
  keyword : κ
  span : Option Span
  deriving DecidableEq, Repr

/-! ## 2. Schemas -/

/-- Why a member was set aside. -/
inductive ParkReason where
  | unknown | notYetSupported
  deriving DecidableEq, Repr

def ParkReason.name : ParkReason → String
  | .unknown => "unknown"
  | .notYetSupported => "not-yet-supported"

/-- A member that was set aside. -/
structure Parked where
  name : String
  value : Node
  span : Span
  reason : ParkReason
  deriving Repr

/-- A schema. Only a schema that does not stand in the source has no span. -/
inductive Schema where
  | mk (keywords : List (Located (Keyword Schema))) (unsupported : List Parked)
      (span : Option Span)
  deriving Repr

namespace Schema

def keywords : Schema → List (Located (Keyword Schema))
  | .mk keywords _ _ => keywords

def unsupported : Schema → List Parked
  | .mk _ unsupported _ => unsupported

def span : Schema → Option Span
  | .mk _ _ span => span

/-- The schema that every value satisfies. -/
def empty : Schema := .mk [] [] none

/-- Whether a keyword of some kind occurs. -/
def has (schema : Schema) (kind : KeywordKind) : Bool :=
  schema.keywords.any fun located => located.keyword.kind = kind

/-- Whether a keyword constrains the values. -/
def hasValidation (schema : Schema) : Bool :=
  schema.keywords.any fun located => located.keyword.kind.keywordClass = .validation

/-- The first anchor. -/
def anchor? (schema : Schema) : Option String :=
  schema.keywords.findSome? fun located =>
    match located.keyword with
    | .text .anchor name => some name
    | _ => none

end Schema

end SchemaCompiler
