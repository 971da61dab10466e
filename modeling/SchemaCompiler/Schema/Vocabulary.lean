/-
  File:      SchemaCompiler/Schema/Vocabulary.lean
  Subject:   The keywords of a schema and the primitive types.

  Keywords are grouped by the shape of their value: texts, numbers, counts, sub-schemas and so on.
  `KeywordKind.all` lists them in the order of the vocabulary, `KeywordKind.ofName?` finds one by
  its name.
-/

namespace SchemaCompiler

/-! ## 1. Keywords by the shape of their value -/

/-- Keywords that are recognized and then set aside. -/
inductive Directive where
  | schema | vocabulary
  deriving DecidableEq, Repr

/-- Keywords with a text. -/
inductive TextKeyword where
  | id | anchor | dynamicAnchor | ref | dynamicRef | comment | pattern | title | description
  deriving DecidableEq, Repr

/-- Keywords with one sub-schema. -/
inductive SchemaKeyword where
  | not | condition | consequent | alternative | items | contains
  | additionalProperties | propertyNames | unevaluatedItems | unevaluatedProperties
  deriving DecidableEq, Repr

/-- Keywords with a list of sub-schemas. -/
inductive ListKeyword where
  | allOf | anyOf | oneOf | prefixItems
  deriving DecidableEq, Repr

/-- Keywords with sub-schemas under keys. -/
inductive MapKeyword where
  | defs | dependentSchemas | properties | patternProperties
  deriving DecidableEq, Repr

/-- Keywords with a value that is kept as it stands. -/
inductive DataKeyword where
  | const | default
  deriving DecidableEq, Repr

/-- Keywords with a number. -/
inductive NumberKeyword where
  | multipleOf | maximum | exclusiveMaximum | minimum | exclusiveMinimum
  deriving DecidableEq, Repr

/-- Keywords with a count. -/
inductive CountKeyword where
  | maxLength | minLength | maxItems | minItems | maxContains | minContains
  | maxProperties | minProperties
  deriving DecidableEq, Repr

/-- Keywords with a truth value. -/
inductive FlagKeyword where
  | uniqueItems | deprecated
  deriving DecidableEq, Repr

/-- All keywords. -/
inductive KeywordKind where
  | directive (k : Directive)
  | text (k : TextKeyword)
  | schema (k : SchemaKeyword)
  | schemas (k : ListKeyword)
  | entries (k : MapKeyword)
  | types
  | enum
  | data (k : DataKeyword)
  | number (k : NumberKeyword)
  | count (k : CountKeyword)
  | flag (k : FlagKeyword)
  | required
  | dependentRequired
  deriving DecidableEq, Repr

/-! ## 2. Names and classes -/

/-- What a keyword is for. -/
inductive KeywordClass where
  /-- It identifies, refers, or holds sub-schemas. -/
  | core
  /-- It constrains the values. -/
  | validation
  /-- It annotates. -/
  | metadata
  deriving DecidableEq, Repr

def KeywordClass.name : KeywordClass → String
  | .core => "core"
  | .validation => "validation"
  | .metadata => "meta"

namespace KeywordKind

/-- The keywords in the order of the vocabulary. -/
def all : List KeywordKind :=
  [.directive .schema, .directive .vocabulary,
   .text .id, .text .anchor, .text .dynamicAnchor, .text .ref, .text .dynamicRef, .text .comment,
   .entries .defs, .schema .not, .schema .condition, .schema .consequent, .schema .alternative,
   .schemas .allOf, .schemas .anyOf, .schemas .oneOf, .entries .dependentSchemas,
   .schemas .prefixItems, .schema .items, .schema .contains, .entries .properties,
   .entries .patternProperties, .schema .additionalProperties, .schema .propertyNames,
   .schema .unevaluatedItems, .schema .unevaluatedProperties,
   .types, .enum, .data .const, .number .multipleOf, .number .maximum,
   .number .exclusiveMaximum, .number .minimum, .number .exclusiveMinimum,
   .count .maxLength, .count .minLength, .text .pattern, .count .maxItems, .count .minItems,
   .flag .uniqueItems, .count .maxContains, .count .minContains, .count .maxProperties,
   .count .minProperties, .required, .dependentRequired,
   .text .title, .text .description, .data .default, .flag .deprecated]

/-- The name of a keyword in a schema. -/
def name : KeywordKind → String
  | .directive .schema => "$schema"
  | .directive .vocabulary => "$vocabulary"
  | .text .id => "$id"
  | .text .anchor => "$anchor"
  | .text .dynamicAnchor => "$dynamicAnchor"
  | .text .ref => "$ref"
  | .text .dynamicRef => "$dynamicRef"
  | .text .comment => "$comment"
  | .text .pattern => "pattern"
  | .text .title => "title"
  | .text .description => "description"
  | .schema .not => "not"
  | .schema .condition => "if"
  | .schema .consequent => "then"
  | .schema .alternative => "else"
  | .schema .items => "items"
  | .schema .contains => "contains"
  | .schema .additionalProperties => "additionalProperties"
  | .schema .propertyNames => "propertyNames"
  | .schema .unevaluatedItems => "unevaluatedItems"
  | .schema .unevaluatedProperties => "unevaluatedProperties"
  | .schemas .allOf => "allOf"
  | .schemas .anyOf => "anyOf"
  | .schemas .oneOf => "oneOf"
  | .schemas .prefixItems => "prefixItems"
  | .entries .defs => "$defs"
  | .entries .dependentSchemas => "dependentSchemas"
  | .entries .properties => "properties"
  | .entries .patternProperties => "patternProperties"
  | .types => "type"
  | .enum => "enum"
  | .data .const => "const"
  | .data .default => "default"
  | .number .multipleOf => "multipleOf"
  | .number .maximum => "maximum"
  | .number .exclusiveMaximum => "exclusiveMaximum"
  | .number .minimum => "minimum"
  | .number .exclusiveMinimum => "exclusiveMinimum"
  | .count .maxLength => "maxLength"
  | .count .minLength => "minLength"
  | .count .maxItems => "maxItems"
  | .count .minItems => "minItems"
  | .count .maxContains => "maxContains"
  | .count .minContains => "minContains"
  | .count .maxProperties => "maxProperties"
  | .count .minProperties => "minProperties"
  | .flag .uniqueItems => "uniqueItems"
  | .flag .deprecated => "deprecated"
  | .required => "required"
  | .dependentRequired => "dependentRequired"

/-- The keyword with a name. -/
def ofName? (name : String) : Option KeywordKind :=
  all.find? fun kind => kind.name = name

/-- The class of a keyword. -/
def keywordClass : KeywordKind → KeywordClass
  | .text .title | .text .description | .data .default | .flag .deprecated => .metadata
  | .text .pattern => .validation
  | .directive _ | .text _ | .entries .defs | .schemas .prefixItems => .core
  | _ => .validation

end KeywordKind

/-! ## 3. Primitive types -/

/-- The types a schema can ask for. -/
inductive PrimitiveType where
  | string | number | integer | object | array | boolean | null
  deriving DecidableEq, Repr

namespace PrimitiveType

/-- All types, in the order in which the branches of a schema without `type` stand. -/
def all : List PrimitiveType := [.string, .number, .integer, .object, .array, .boolean, .null]

def name : PrimitiveType → String
  | .string => "string"
  | .number => "number"
  | .integer => "integer"
  | .object => "object"
  | .array => "array"
  | .boolean => "boolean"
  | .null => "null"

/-- The type with a name. -/
def ofName? (name : String) : Option PrimitiveType :=
  all.find? fun type => type.name = name

end PrimitiveType

end SchemaCompiler
