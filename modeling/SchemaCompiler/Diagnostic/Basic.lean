/-
  File:      SchemaCompiler/Diagnostic/Basic.lean
  Subject:   What the compiler has to say about a document.

  A diagnostic names its severity, the stage and the rule it comes from, and the span it is about.
  Diagnostics are kept in a list, in the order in which they came up.
-/
import SchemaCompiler.Json.Document

namespace SchemaCompiler

/-- How grave a diagnostic is. -/
inductive Severity where
  /-- Nothing is made of the document. -/
  | fatal
  /-- The work goes on. -/
  | warning
  deriving DecidableEq, Repr

/-- Where a diagnostic comes up: reading the text, or making a schema of the tree. -/
inductive Stage where
  | parse | normalize
  deriving DecidableEq, Repr

def Stage.name : Stage → String
  | .parse => "parse"
  | .normalize => "normalize"

/-- The rules a document can break. -/
inductive Rule where
  | grammar
  | typeMismatch
  | shapeViolation
  | semanticViolation
  | unsupported
  | notYetSupported
  | deprecated
  | patternPortability
  deriving DecidableEq, Repr

def Rule.name : Rule → String
  | .grammar => "syntax"
  | .typeMismatch => "type-mismatch"
  | .shapeViolation => "shape-violation"
  | .semanticViolation => "semantic-violation"
  | .unsupported => "unsupported"
  | .notYetSupported => "not-yet-supported"
  | .deprecated => "deprecated"
  | .patternPortability => "pattern-portability"

/-- A remark about a span of a document. -/
structure Diagnostic where
  severity : Severity
  stage : Stage
  rule : Rule
  message : String
  span : Span
  deriving DecidableEq, Repr

namespace Diagnostic

def isFatal (d : Diagnostic) : Bool := d.severity = .fatal

/-- The stage and the rule, as a report names them. -/
def origin (d : Diagnostic) : String := d.stage.name ++ ":" ++ d.rule.name

/-- A text that is not JSON is fatal. -/
def ofSyntaxError (e : SyntaxError) : Diagnostic :=
  ⟨.fatal, .parse, .grammar, e.cause.message, e.span⟩

/-- Whether one of the diagnostics is fatal. -/
def anyFatal (ds : List Diagnostic) : Bool := ds.any isFatal

/-- The first fatal diagnostic. -/
def firstFatal? (ds : List Diagnostic) : Option Diagnostic := ds.find? isFatal

/-- The diagnostics that are not fatal. -/
def warnings (ds : List Diagnostic) : List Diagnostic := ds.filter fun d => !d.isFatal

end Diagnostic

end SchemaCompiler
