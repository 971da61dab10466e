/-
  File:      SchemaCompiler/Expr/Render.lean
  Subject:   Definitions as the text of a module.

  A module imports the two libraries under their bindings and exports each definition as a
  constant. Keys and strings are written as JSON, the names of the libraries between single
  quotes.
-/
import SchemaCompiler.Expr.Basic
import SchemaCompiler.Expr.RegexLiteral

namespace SchemaCompiler

/-- Where the two libraries are imported from. -/
structure Imports where
  combinators : String
  helpers : String
  deriving DecidableEq, Repr

def Imports.default : Imports := ⟨"superstruct", "@schema-to-superstruct/std"⟩

namespace Render

/-! ## 1. Constants -/

/-- A text between single quotes. -/
def singleQuoted (text : List Char) : List Char :=
  '\'' :: text.flatMap (fun c => if c = '\\' || c = '\'' then ['\\', c] else [c]) ++ ['\'']

/-- A number; a whole number that a double may not represent is marked as a big integer. -/
def number (n : Number) : List Char :=
  if n.beyondSafe then n.text ++ ['n'] else n.text

def constant : Constant → List Char
  | .undefined => "undefined".toList
  | .null => "null".toList
  | .boolean b => Value.booleanText b
  | .number n => number n
  | .string text => quote text.toList
  | .regex source => regexLiteral source.toList
  | .json value => value.text

/-! ## 2. Calls -/

/-- A function as it is called. -/
def function (func : Func) : List Char :=
  func.library.binding.toList ++ '.' :: func.name.toList

mutual

def item : Item → List Char
  | .call func args => function func ++ '(' :: joinWith ", ".toList (arguments args) ++ [')']
  | .const c => constant c

def argument : Arg → List Char
  | .item i => item i
  | .record [] => ['\x7b', '\x7d']
  | .record (field :: rest) =>
    '\x7b' :: '\n' :: joinWith ",\n".toList (fields (field :: rest)) ++ ['\n', '\x7d']
  | .array elements => '[' :: joinWith ", ".toList (items elements) ++ [']']

def arguments : List Arg → List (List Char)
  | [] => []
  | arg :: args => argument arg :: arguments args

def items : List Item → List (List Char)
  | [] => []
  | i :: rest => item i :: items rest

def fields : List (String × Item) → List (List Char)
  | [] => []
  | (key, value) :: rest => (quote key.toList ++ ": ".toList ++ item value) :: fields rest

end

/-! ## 3. Modules -/

def definition (d : Definition) : List Char :=
  "export const ".toList ++ d.name.toList ++ " = ".toList ++ item d.body.toItem ++ [';']

/-- The line that imports a library. -/
def importLine (library : Library) (source : String) : List Char :=
  "import * as ".toList ++ library.binding.toList ++ " from ".toList ++
    singleQuoted source.toList ++ ['\n']

end Render

/-- The text of the module of some definitions. -/
def render (imports : Imports) (definitions : List Definition) : List Char :=
  Render.importLine .combinators imports.combinators ++
    Render.importLine .helpers imports.helpers ++
    '\n' :: joinWith "\n\n".toList (definitions.map Render.definition) ++ ['\n']

end SchemaCompiler
