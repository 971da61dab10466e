/-
  File:      SchemaCompiler/Settings/Basic.lean
  Subject:   How a schema is compiled.
-/
import SchemaCompiler.Expr.Render

namespace SchemaCompiler

/-- How a schema is compiled. -/
structure Settings where
  /-- Whether single arms are collapsed. -/
  optimize : Bool
  /-- What the export is named after if the schema has no anchor. -/
  rootName : String
  imports : Imports
  deriving DecidableEq, Repr

def Settings.default : Settings := ⟨true, "root", .default⟩

end SchemaCompiler
