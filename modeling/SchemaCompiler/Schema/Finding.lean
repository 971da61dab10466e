/-
  File:      SchemaCompiler/Schema/Finding.lean
  Subject:   What can be found wrong with a schema.

  A `Violation` ends the reading of a schema, a `Caution` does not. Each has a rule it belongs to
  and a message. `Checked` is the result of a reading: the cautions raised on the way, as
  diagnostics, and either a value or the violation that ended it.
-/
import SchemaCompiler.Diagnostic.Basic
import SchemaCompiler.Schema.Vocabulary

namespace SchemaCompiler

/-! ## 1. Violations -/

/-- Why a tree is no schema. -/
inductive Violation where
  /-- A schema is an object or a boolean. -/
  | notSchema (found : Kind)
  /-- The value of a keyword, or a part of it, is of another kind. -/
  | wrongKind (keyword : KeywordKind) (expected found : Kind)
  | notUri (text : String)
  | notReference (text : String)
  | notAnchor (text : String)
  /-- An identifier has a fragment that is not empty. -/
  | fragment
  /-- A schema has two anchors of different kinds. -/
  | twoAnchors
  /-- A pattern ends in an odd number of backslashes. -/
  | danglingEscape
  | notType (name : String)
  | notPositive (n : Number)
  | notCount (keyword : CountKeyword) (n : Number)
  /-- A dependency names a member twice. -/
  | repeatedName
  deriving DecidableEq, Repr

namespace Violation

def rule : Violation → Rule
  | .notSchema _ | .wrongKind .. => .typeMismatch
  | .notUri _ | .notReference _ | .notAnchor _ | .fragment | .twoAnchors => .semanticViolation
  | .danglingEscape | .notType _ | .notPositive _ | .notCount .. | .repeatedName => .shapeViolation

def message : Violation → String
  | .notSchema found => "JSON-Schema is neither an object nor a boolean, got " ++ found.name
  | .wrongKind keyword expected found =>
    "\"" ++ keyword.name ++ "\" expected " ++ expected.name ++ ", got " ++ found.name
  | .notUri text => "URI expected, got \"" ++ text ++ "\""
  | .notReference text => "URI reference expected, got \"" ++ text ++ "\""
  | .notAnchor text => "Anchor expected, got \"" ++ text ++ "\""
  | .fragment => "\"$id\" directive contains non-empty fragment"
  | .twoAnchors => "\"$anchor\" and \"$dynamicAnchor\" on one schema"
  | .danglingEscape => "\"pattern\" ends with a dangling escape"
  | .notType name => "Expected type string, got \"" ++ name ++ "\""
  | .notPositive n => "\"multipleOf\" requires a number > 0, got " ++ String.ofList n.text
  | .notCount keyword n =>
    "\"" ++ (KeywordKind.count keyword).name ++ "\" expected integer >= 0, got " ++
      String.ofList n.text
  | .repeatedName => "Elements in array are not unique"

/-- The diagnostic of a violation found at a span. -/
def diagnostic (v : Violation) (span : Span) : Diagnostic :=
  ⟨.fatal, .normalize, v.rule, v.message, span⟩

end Violation

/-! ## 2. Cautions -/

/-- What is worth a warning. -/
inductive Caution where
  | unknownKeyword (name : String)
  | directive (d : Directive)
  /-- An identifier ends in an empty fragment. -/
  | emptyFragment
  /-- The local engine does not understand a pattern, and says why. -/
  | foreignPattern (fault : String)
  deriving DecidableEq, Repr

namespace Caution

def rule : Caution → Rule
  | .unknownKeyword _ => .unsupported
  | .directive _ => .notYetSupported
  | .emptyFragment => .deprecated
  | .foreignPattern _ => .patternPortability

def message : Caution → String
  | .unknownKeyword name => "Unsupported keyword \"" ++ name ++ "\""
  | .directive .schema => "\"$schema\" directive not yet supported"
  | .directive .vocabulary => "\"$vocabulary\" keyword not yet supported"
  | .emptyFragment => "\"$id\" directive empty fragments are deprecated"
  | .foreignPattern fault => "pattern is not understood by the local regex engine: " ++ fault

/-- The diagnostic of a caution about a span. -/
def diagnostic (c : Caution) (span : Span) : Diagnostic :=
  ⟨.warning, .normalize, c.rule, c.message, span⟩

end Caution

/-! ## 3. Results with warnings -/

/-- The warnings raised by a reading, and its value or the diagnostic that ended it. -/
structure Checked (α : Type) where
  warnings : List Diagnostic
  result : Except Diagnostic α

namespace Checked

/-- Goes on with the value, if there is one. -/
def andThen {α β : Type} (x : Checked α) (f : α → Checked β) : Checked β :=
  match x.result with
  | .ok a => ⟨x.warnings ++ (f a).warnings, (f a).result⟩
  | .error d => ⟨x.warnings, .error d⟩

instance : Monad Checked where
  pure a := ⟨[], .ok a⟩
  bind := andThen

/-- Ends the reading. -/
def refuse {α : Type} (v : Violation) (span : Span) : Checked α := ⟨[], .error (v.diagnostic span)⟩

/-- Raises a warning. -/
def warn (c : Caution) (span : Span) : Checked Unit := ⟨[c.diagnostic span], .ok ()⟩

/-- All diagnostics in the order in which they came up. -/
def diagnostics {α : Type} (x : Checked α) : List Diagnostic :=
  match x.result with
  | .ok _ => x.warnings
  | .error d => x.warnings ++ [d]

end Checked

end SchemaCompiler
