/-
  File:      SchemaCompiler/Settings/Error.lean
  Subject:   What can be wrong with a settings file.

  An error has a cause, the path of the value it concerns, and the place up to which the text had
  been read.
-/
import SchemaCompiler.Json.Number
import SchemaCompiler.Json.Quoted
import SchemaCompiler.Text.Shown

namespace SchemaCompiler

namespace Settings

/-! ## 1. Causes -/

/-- What a text breaks off in. -/
inductive Enclosing where
  | value | object | list
  deriving DecidableEq, Repr

def Enclosing.name : Enclosing → String
  | .value => "a value"
  | .object => "an object"
  | .list => "a list"

/-- A value as a message names it. -/
inductive Found where
  | null
  | boolean (b : Bool)
  | number (n : Number)
  | string (text : String)
  | sequence
  | map
  deriving DecidableEq, Repr

def Found.name (alphabet : Alphabet) : Found → String
  | .null => "null"
  | .boolean true => "boolean `true`"
  | .boolean false => "boolean `false`"
  | .number (.double d) => "floating point `" ++ String.ofList d.text ++ "`"
  | .number n => "integer `" ++ String.ofList n.text ++ "`"
  | .string text => "string " ++ showText alphabet text
  | .sequence => "sequence"
  | .map => "map"

/-- Why a text holds no settings. -/
inductive Cause where
  | endOfText (enclosing : Enclosing)
  | badString (fault : StringFault)
  | invalidNumber
  | numberOutOfRange
  | valueDue
  | wordDue
  | colonDue
  | commaOrBraceDue
  | commaOrBracketDue
  | keyNotString
  | trailingComma
  | trailingCharacters
  | wrongType (found : Found) (expected : String)
  | unknownField (name : String) (known : List String)
  | duplicateField (name : String)
  deriving DecidableEq, Repr

/-- A name between backticks. -/
def ticked (name : String) : String := "`" ++ name ++ "`"

/-- One of some names. -/
def choice : List String → String
  | [a] => ticked a
  | [a, b] => ticked a ++ " or " ++ ticked b
  | names => "one of " ++ ", ".intercalate (names.map ticked)

def Cause.message (alphabet : Alphabet) : Cause → String
  | .endOfText enclosing => "EOF while parsing " ++ enclosing.name
  | .badString fault => fault.message
  | .invalidNumber => "invalid number"
  | .numberOutOfRange => "number out of range"
  | .valueDue => "expected value"
  | .wordDue => "expected ident"
  | .colonDue => "expected `:`"
  | .commaOrBraceDue => "expected `,` or `\x7d`"
  | .commaOrBracketDue => "expected `,` or `]`"
  | .keyNotString => "key must be a string"
  | .trailingComma => "trailing comma"
  | .trailingCharacters => "trailing characters"
  | .wrongType found expected =>
    "invalid type: " ++ found.name alphabet ++ ", expected " ++ expected
  | .unknownField name known => "unknown field " ++ ticked name ++ ", expected " ++ choice known
  | .duplicateField name => "duplicate field " ++ ticked name

/-! ## 2. Paths -/

/-- A step from a value to a part of it. -/
inductive Step where
  | key (name : String)
  | index (i : Nat)
  /-- A key that could not be read. -/
  | unreadable
  deriving DecidableEq, Repr

/-- The text of the steps of a path, the first of them without a dot. -/
def stepsText (first : Bool) : List Step → String
  | [] => ""
  | .key name :: steps => (if first then "" else ".") ++ name ++ stepsText false steps
  | .unreadable :: steps => (if first then "" else ".") ++ "?" ++ stepsText false steps
  | .index i :: steps => "[" ++ toString i ++ "]" ++ stepsText false steps

/-- The text of a path. -/
def pathText (path : List Step) : String :=
  if path.isEmpty then "." else stepsText true path

/-! ## 3. Errors -/

/-- A cause, the path it concerns, and the place up to which the text had been read. -/
structure Error where
  path : List Step
  cause : Cause
  place : Place
  deriving DecidableEq, Repr

namespace Error

/-- The same error seen from the value that the step leads out of. -/
def under (step : Step) (e : Error) : Error := { e with path := step :: e.path }

/-- The cause and the place. -/
def reason (alphabet : Alphabet) (e : Error) : String :=
  e.cause.message alphabet ++ " at line " ++ toString e.place.line ++ " column " ++
    toString e.place.column

/-- The whole message. -/
def message (alphabet : Alphabet) (e : Error) : String :=
  "at JSON path " ++ pathText e.path ++ " → " ++ e.reason alphabet

end Error

end Settings

end SchemaCompiler
