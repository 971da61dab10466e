/-
  File:      SchemaCompiler/Json/Value.lean
  Subject:   JSON values and their compact text.
-/
import SchemaCompiler.Json.Entries
import SchemaCompiler.Json.Number
import SchemaCompiler.Json.Quoted

namespace SchemaCompiler

/-- A JSON value. The keys of an object are meant to be distinct; their order is kept. -/
inductive Value where
  | null
  | boolean (b : Bool)
  | number (n : Number)
  | string (text : String)
  | array (items : List Value)
  | object (members : List (String × Value))
  deriving Repr

/-- The text of a list with a separator between its parts. -/
def joinWith (separator : List Char) : List (List Char) → List Char
  | [] => []
  | [last] => last
  | part :: parts => part ++ separator ++ joinWith separator parts

namespace Value

/-- The text of a boolean. -/
def booleanText (b : Bool) : List Char := if b then "true".toList else "false".toList

mutual

/-- The text of a value without any blank. -/
def text : Value → List Char
  | .null => "null".toList
  | .boolean b => booleanText b
  | .number n => n.text
  | .string s => quote s.toList
  | .array items => '[' :: joinWith [','] (itemTexts items) ++ [']']
  | .object members => '\x7b' :: joinWith [','] (memberTexts members) ++ ['\x7d']

/-- The texts of the items of an array. -/
def itemTexts : List Value → List (List Char)
  | [] => []
  | item :: items => item.text :: itemTexts items

/-- The texts of the members of an object. -/
def memberTexts : List (String × Value) → List (List Char)
  | [] => []
  | (key, value) :: members => (quote key.toList ++ ':' :: value.text) :: memberTexts members

end

/-- The array of some strings. -/
def ofStrings (strings : List String) : Value := .array (strings.map .string)

end Value

end SchemaCompiler
