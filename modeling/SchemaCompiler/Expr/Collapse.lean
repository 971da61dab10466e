/-
  File:      SchemaCompiler/Expr/Collapse.lean
  Subject:   Unions and intersections of one arm.

  A union or an intersection of one arm is replaced by the arm, from the leaves up. The body of a
  definition has to stay a call: if only a constant is left of it, the outermost combinator is put
  around it again.
-/
import SchemaCompiler.Expr.Basic

namespace SchemaCompiler

mutual

/-- Collapses all single arms inside an item, and then the item itself. -/
def Item.collapse : Item → Item
  | .call func args =>
    let args := collapseArgs args
    (singleArm? func args).getD (.call func args)
  | .const constant => .const constant

/-- Collapses all single arms inside an argument. -/
def Arg.collapse : Arg → Arg
  | .item item => .item item.collapse
  | .record fields => .record (collapseFields fields)
  | .array items => .array (collapseItems items)

def collapseArgs : List Arg → List Arg
  | [] => []
  | arg :: args => arg.collapse :: collapseArgs args

def collapseItems : List Item → List Item
  | [] => []
  | item :: items => item.collapse :: collapseItems items

def collapseFields : List (String × Item) → List (String × Item)
  | [] => []
  | (key, item) :: fields => (key, item.collapse) :: collapseFields fields

end

/-- Collapses a call to a call. -/
def Call.collapse (c : Call) : Call :=
  match c.toItem.collapse with
  | .call func args => ⟨func, args⟩
  | .const constant => ⟨c.func, [.array [.const constant]]⟩

/-- Collapses the bodies of definitions. -/
def collapse (definitions : List Definition) : List Definition :=
  definitions.map fun d => { d with body := d.body.collapse }

end SchemaCompiler
