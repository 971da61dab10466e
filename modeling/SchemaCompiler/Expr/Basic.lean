/-
  File:      SchemaCompiler/Expr/Basic.lean
  Subject:   Validation expressions: calls of combinators and helpers.

  A call applies a function to arguments. An argument is an item, or a record or an array of
  items; an item is a call or a constant. A program is a list of definitions, each a name and a
  call.
-/
import SchemaCompiler.Json.Value

namespace SchemaCompiler

/-! ## 1. Functions -/

/-- The functions an expression can call. -/
inductive Func where
  | unknown | never | intersection | union | optional | type | object | string | size | pattern
  | number | integer | max | min | array | boolean | literal
  | keys | dependentProperties | minProperties | maxProperties | patternObject | patternType
  | oneOf | not | unique | multipleOf
  deriving DecidableEq, Repr

/-- The two modules that functions come from. -/
inductive Library where
  /-- The combinators. -/
  | combinators
  /-- The helpers for single keywords. -/
  | helpers
  deriving DecidableEq, Repr

/-- The name that a module is bound to. -/
def Library.binding : Library → String
  | .combinators => "ss"
  | .helpers => "std"

namespace Func

/-- The combinators. -/
def combinators : List Func :=
  [.unknown, .never, .intersection, .union, .optional, .type, .object, .string, .size, .pattern,
   .number, .integer, .max, .min, .array, .boolean, .literal]

/-- The helpers that the second module provides. -/
def helpers : List Func :=
  [.keys, .dependentProperties, .minProperties, .maxProperties, .patternObject, .patternType,
   .oneOf, .not, .unique, .multipleOf]

/-- All functions. -/
def all : List Func := combinators ++ helpers

def name : Func → String
  | .unknown => "unknown"
  | .never => "never"
  | .intersection => "intersection"
  | .union => "union"
  | .optional => "optional"
  | .type => "type"
  | .object => "object"
  | .string => "string"
  | .size => "size"
  | .pattern => "pattern"
  | .number => "number"
  | .integer => "integer"
  | .max => "max"
  | .min => "min"
  | .array => "array"
  | .boolean => "boolean"
  | .literal => "literal"
  | .keys => "keys"
  | .dependentProperties => "dependentProperties"
  | .minProperties => "minProperties"
  | .maxProperties => "maxProperties"
  | .patternObject => "patternObject"
  | .patternType => "patternType"
  | .oneOf => "oneOf"
  | .not => "not"
  | .unique => "unique"
  | .multipleOf => "multipleOf"

/-- The function with a name. -/
def ofName? (name : String) : Option Func := all.find? fun func => func.name = name

/-- The module that a function comes from. -/
def library (func : Func) : Library := if func ∈ helpers then .helpers else .combinators

/-- Whether a function joins an array of arms. -/
def joinsArms : Func → Bool
  | .union | .intersection => true
  | _ => false

end Func

/-! ## 2. Trees -/

/-- A constant. -/
inductive Constant where
  | undefined
  | null
  | boolean (b : Bool)
  | number (n : Number)
  | string (text : String)
  /-- The source of a regular expression. -/
  | regex (source : String)
  /-- Data as it stands. -/
  | json (value : Value)
  deriving Repr

/-- The constant for a count that may be absent. -/
def Constant.ofCount? : Option Nat → Constant
  | some n => .number (.natural n)
  | none => .undefined

mutual

/-- What stands in a record or an array. -/
inductive Item where
  | call (func : Func) (args : List Arg)
  | const (constant : Constant)

/-- What stands in the argument list of a call. -/
inductive Arg where
  | item (item : Item)
  | record (fields : List (String × Item))
  | array (items : List Item)

end

/-- A function applied to arguments. -/
structure Call where
  func : Func
  args : List Arg

/-- A named call. -/
structure Definition where
  name : String
  body : Call

namespace Call

def toItem (c : Call) : Item := .call c.func c.args

def toArg (c : Call) : Arg := .item c.toItem

/-- A call without arguments. -/
def nullary (func : Func) : Call := ⟨func, []⟩

def unknown : Call := nullary .unknown

def never : Call := nullary .never

def union (arms : List Call) : Call := ⟨.union, [.array (arms.map toItem)]⟩

def intersection (arms : List Call) : Call := ⟨.intersection, [.array (arms.map toItem)]⟩

def not (c : Call) : Call := ⟨.not, [c.toArg]⟩

/-- A function applied to a call and constants. -/
def refine (func : Func) (c : Call) (constants : List Constant) : Call :=
  ⟨func, c.toArg :: constants.map fun constant => .item (.const constant)⟩

/-- The call of a function on a record. A key that comes again keeps its first place and takes the
    last call. -/
def onRecord (func : Func) (fields : List (String × Call)) : Call :=
  ⟨func, [.record (collectEntries (fields.map fun (key, c) => (key, c.toItem)))]⟩

end Call

/-! ## 3. Size and single arms -/

mutual

/-- The number of nodes of an item, constants included. -/
def Item.size : Item → Nat
  | .call _ args => 1 + sizeOfArgs args
  | .const _ => 1

/-- The number of nodes of an argument. -/
def Arg.size : Arg → Nat
  | .item item => item.size
  | .record fields => 1 + sizeOfFields fields
  | .array items => 1 + sizeOfItems items

def sizeOfArgs : List Arg → Nat
  | [] => 0
  | arg :: args => arg.size + sizeOfArgs args

def sizeOfItems : List Item → Nat
  | [] => 0
  | item :: items => item.size + sizeOfItems items

def sizeOfFields : List (String × Item) → Nat
  | [] => 0
  | (_, item) :: fields => item.size + sizeOfFields fields

end

/-- The number of nodes of a call. -/
def Call.size (c : Call) : Nat := c.toItem.size

/-- The only arm of a union or an intersection that has one. -/
def singleArm? (func : Func) (args : List Arg) : Option Item :=
  if func.joinsArms then
    match args with
    | [.array [arm]] => some arm
    | _ => none
  else none

end SchemaCompiler
