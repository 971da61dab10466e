/-
  File:      SchemaCompiler/Compiler.lean
  Subject:   From the text of a schema to the text of a module.

  The text is read, the tree checked, the schema turned into a definition, and the definition
  collapsed and rendered. Each step that can complain adds to the diagnostics; a fatal one ends
  the work. What a text means in the languages of URIs and patterns, and what is known of
  characters, is not decided here: all of it is a `Platform`.
-/
import SchemaCompiler.Expr.Collapse
import SchemaCompiler.Expr.OfSchema
import SchemaCompiler.Schema.OfNode
import SchemaCompiler.Settings.Basic

namespace SchemaCompiler

/-- What compiling takes from elsewhere. -/
structure Platform where
  engines : Engines
  alphabet : Alphabet

/-- The schema that a text denotes, with all warnings. -/
def analyze (engines : Engines) (source : String) : Checked Schema :=
  match Node.parse source with
  | .ok node => Schema.ofNode engines node
  | .error e => ⟨[], .error (.ofSyntaxError e)⟩

/-- What comes of compiling a text: the module, if nothing is fatal, and the diagnostics. -/
structure Compilation where
  output : Option String
  diagnostics : List Diagnostic

/-- The definitions of a schema. -/
def definitionsOf (alphabet : Alphabet) (settings : Settings) (schema : Schema) :
    List Definition :=
  let definitions := [Definition.ofSchema alphabet schema settings.rootName]
  if settings.optimize then collapse definitions else definitions

/-- The text of the module of a schema. -/
def moduleOf (alphabet : Alphabet) (settings : Settings) (schema : Schema) : String :=
  String.ofList (render settings.imports (definitionsOf alphabet settings schema))

/-- Compiles a text. -/
def compile (platform : Platform) (settings : Settings) (source : String) : Compilation :=
  let checked := analyze platform.engines source
  { output := checked.result.toOption.map (moduleOf platform.alphabet settings)
    diagnostics := checked.diagnostics }

/-- Only looks for what is wrong with a text. -/
def check (engines : Engines) (source : String) : List Diagnostic :=
  (analyze engines source).diagnostics

end SchemaCompiler
