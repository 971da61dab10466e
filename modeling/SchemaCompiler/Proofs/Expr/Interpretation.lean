/-
  File:      SchemaCompiler/Proofs/Expr/Interpretation.lean
  Subject:   Meanings of expressions, and that collapsing single arms keeps them.

  An interpretation gives a meaning to every constant, and to every function applied to the
  meanings of its arguments; nothing else is asked of it. Records and arrays mean the ordered
  collections of the meanings of their items. `Interpretation.call` folds a call along it.

  **`collapse_meaning`**: where a union or an intersection of one arm means that arm, the collapsed
  definitions have the names and the meanings of the given ones. A node that moves from an array
  to another slot keeps its meaning because the fold knows only items, not slots.
-/
import SchemaCompiler.Expr.Collapse

namespace SchemaCompiler

universe u

/-! ## 1. Single arms -/

theorem joinsArms_iff {func : Func} :
    func.joinsArms = true ↔ func = .union ∨ func = .intersection := by
  cases func <;> decide

theorem singleArm?_eq_some_iff {func : Func} {args : List Arg} {arm : Item} :
    singleArm? func args = some arm ↔ func.joinsArms = true ∧ args = [.array [arm]] := by
  constructor
  · intro h
    unfold singleArm? at h
    split at h
    · next hjoins =>
      split at h
      · cases h
        exact ⟨hjoins, rfl⟩
      · cases h
    · cases h
  · intro hsingle
    obtain ⟨hjoins, rfl⟩ := hsingle
    rw [singleArm?, if_pos hjoins]

/-- Only a union or an intersection collapses to a constant. -/
theorem joinsArms_of_collapse_eq_const {c : Call} {constant : Constant}
    (h : c.toItem.collapse = .const constant) : c.func.joinsArms = true := by
  rw [Call.toItem, Item.collapse] at h
  cases harm : singleArm? c.func (collapseArgs c.args) with
  | none =>
    rw [harm] at h
    cases h
  | some arm => exact (singleArm?_eq_some_iff.mp harm).1

/-! ## 2. Interpretations -/

/-- What an argument means. -/
inductive Operand (μ : Type u) where
  | item (m : μ)
  | record (fields : List (String × μ))
  | array (items : List μ)

/-- A meaning for every constant and for every function. -/
structure Interpretation (μ : Type u) where
  const : Constant → μ
  apply : Func → List (Operand μ) → μ

namespace Interpretation

variable {μ : Type u} (I : Interpretation μ)

mutual

/-- The meaning of an item. -/
def item : Item → μ
  | .call func args => I.apply func (operands args)
  | .const constant => I.const constant

/-- The meaning of an argument. -/
def operand : Arg → Operand μ
  | .item i => .item (item i)
  | .record fs => .record (fields fs)
  | .array is => .array (items is)

def operands : List Arg → List (Operand μ)
  | [] => []
  | arg :: args => operand arg :: operands args

def items : List Item → List μ
  | [] => []
  | i :: is => item i :: items is

def fields : List (String × Item) → List (String × μ)
  | [] => []
  | (key, i) :: fs => (key, item i) :: fields fs

end

/-- The meaning of a call. -/
def call (c : Call) : μ := I.item c.toItem

theorem items_toItem (calls : List Call) : I.items (calls.map Call.toItem) = calls.map I.call := by
  induction calls with
  | nil => rfl
  | cons c calls ih => exact congrArg (I.call c :: ·) ih

theorem fields_eq (fs : List (String × Item)) :
    I.fields fs = fs.map fun field => (field.1, I.item field.2) := by
  induction fs with
  | nil => rfl
  | cons field fs ih => exact congrArg ((field.1, I.item field.2) :: ·) ih

/-- **A union or an intersection of one arm means that arm.** -/
structure KeepsSingleArms : Prop where
  union : ∀ m, I.apply .union [.array [m]] = m
  intersection : ∀ m, I.apply .intersection [.array [m]] = m

/-! ## 3. Collapsing keeps meanings -/

/-- The arm of a call that has only one means what the call means. -/
theorem item_singleArm {I : Interpretation μ} (keeps : I.KeepsSingleArms) {func : Func}
    {args : List Arg} {arm : Item} (h : singleArm? func args = some arm) :
    I.item arm = I.item (.call func args) := by
  obtain ⟨hjoins, rfl⟩ := singleArm?_eq_some_iff.mp h
  rcases joinsArms_iff.mp hjoins with rfl | rfl
  · exact (keeps.union (I.item arm)).symm
  · exact (keeps.intersection (I.item arm)).symm

mutual

-- Only this case moves a node: its arguments keep their meanings, and then the call is either
-- left standing or replaced by its only arm.
theorem item_collapse {I : Interpretation μ} (keeps : I.KeepsSingleArms) :
    ∀ i : Item, I.item i.collapse = I.item i
  | .const _ => rfl
  | .call func args => by
    have hargs : I.item (.call func (collapseArgs args)) = I.item (.call func args) :=
      congrArg (I.apply func) (operands_collapse keeps args)
    rw [Item.collapse]
    cases harm : singleArm? func (collapseArgs args) with
    | none => exact hargs
    | some arm => exact (item_singleArm keeps harm).trans hargs

theorem operand_collapse {I : Interpretation μ} (keeps : I.KeepsSingleArms) :
    ∀ arg : Arg, I.operand arg.collapse = I.operand arg
  | .item i => congrArg Operand.item (item_collapse keeps i)
  | .record fs => congrArg Operand.record (fields_collapse keeps fs)
  | .array is => congrArg Operand.array (items_collapse keeps is)

theorem operands_collapse {I : Interpretation μ} (keeps : I.KeepsSingleArms) :
    ∀ args : List Arg, I.operands (collapseArgs args) = I.operands args
  | [] => rfl
  | arg :: args => by
    simp only [collapseArgs, operands, operand_collapse keeps arg, operands_collapse keeps args]

theorem items_collapse {I : Interpretation μ} (keeps : I.KeepsSingleArms) :
    ∀ is : List Item, I.items (collapseItems is) = I.items is
  | [] => rfl
  | i :: is => by
    simp only [collapseItems, items, item_collapse keeps i, items_collapse keeps is]

theorem fields_collapse {I : Interpretation μ} (keeps : I.KeepsSingleArms) :
    ∀ fs : List (String × Item), I.fields (collapseFields fs) = I.fields fs
  | [] => rfl
  | (key, i) :: fs => by
    simp only [collapseFields, fields, item_collapse keeps i, fields_collapse keeps fs]

end

/-- **A collapsed call means what the call means.** -/
theorem call_collapse {I : Interpretation μ} (keeps : I.KeepsSingleArms) (c : Call) :
    I.call c.collapse = I.call c := by
  have hitem : I.item c.toItem.collapse = I.call c := item_collapse keeps c.toItem
  cases hcollapse : c.toItem.collapse with
  | call func args =>
    rw [hcollapse] at hitem
    rw [Call.collapse, hcollapse]
    exact hitem
  | const constant =>
    -- The wrapper is put back with the outer function, which joins arms: it means the constant.
    have hjoins : c.func.joinsArms = true := joinsArms_of_collapse_eq_const hcollapse
    have harm : singleArm? c.func [.array [.const constant]] = some (.const constant) :=
      singleArm?_eq_some_iff.mpr ⟨hjoins, rfl⟩
    rw [hcollapse] at hitem
    rw [Call.collapse, hcollapse]
    exact (item_singleArm keeps harm).symm.trans hitem

end Interpretation

/-- **Collapsing keeps the names of the definitions, their order and the meaning of every body**,
    under every interpretation in which a union or an intersection of one arm means the arm. -/
theorem collapse_meaning {μ : Type u} (I : Interpretation μ) (keeps : I.KeepsSingleArms)
    (definitions : List Definition) :
    (collapse definitions).map (fun d => (d.name, I.call d.body)) =
      definitions.map (fun d => (d.name, I.call d.body)) := by
  rw [collapse, List.map_map]
  apply List.map_congr_left
  intro d _
  exact congrArg (Prod.mk d.name) (Interpretation.call_collapse keeps d.body)

/-- Calls as truth values: unions are disjunctions, intersections conjunctions. -/
def truth : Interpretation Bool where
  const _ := true
  apply
    | .union, [.array arms] => arms.any id
    | .intersection, [.array arms] => arms.all id
    | .not, [.item b] => !b
    | .never, _ => false
    | _, _ => true

/-- An arm that moves into an argument slot, and a body of which only a constant is left. -/
theorem collapse_truth :
    truth.KeepsSingleArms ∧
      (collapse
          [⟨"Moved", ⟨.not, [.item (.call .union [.array [.call .never []]])]⟩⟩,
           ⟨"Rewrapped", ⟨.union, [.array [.call .intersection [.array [.const .null]]]]⟩⟩]).map
        (fun d => (d.name, truth.call d.body)) = [("Moved", true), ("Rewrapped", true)] := by
  have keeps : truth.KeepsSingleArms :=
    ⟨fun b => Bool.or_false b, fun b => Bool.and_true b⟩
  exact ⟨keeps, (collapse_meaning truth keeps _).trans rfl⟩

end SchemaCompiler
