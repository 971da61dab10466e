/-
  File:      SchemaCompiler/Schema/Engines.lean
  Subject:   What the reading of schemas leaves to others.

  Some keywords hold texts of other languages: URIs, references and regular expressions. Whether
  such a text is accepted is decided by the engines of these languages. The reading of a schema
  takes them as they are, and goes by nothing but their answers.
-/

namespace SchemaCompiler

/-- The engines of URIs and of regular expressions. -/
structure Engines where
  /-- The fragment of an absolute URI, if it has one; `none` for a text that is no such URI. -/
  uriFragment? : String → Option (Option String)
  /-- Whether a text can be resolved against an absolute URI. -/
  isReference : String → Bool
  /-- What the local engine says against a pattern; `none` if it understands it. -/
  patternFault? : String → Option String

end SchemaCompiler
