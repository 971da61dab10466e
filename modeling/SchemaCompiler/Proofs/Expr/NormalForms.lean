/-
  File:      SchemaCompiler/Proofs/Expr/NormalForms.lean
  Subject:   Where the collapsing of single arms ends.

  A call holds items in slots: as an argument, as a field of a record, as an element of an array
  (`slots`). A property of items is proved of a call from the items in its slots
  (`Item.induction_on_slots`), and collapsing goes through the slots one by one
  (`slots_collapseArgs`). An item with an only arm (`Item.onlyArm?`) becomes what the arm becomes,
  and every other call keeps its form.

  * `Item.Settled` -- no item at any depth has an only arm. Collapsed items are settled
    (`settled_collapse`), and settled ones stay as they are (`Settled.collapse_eq`);
  * `Call.Normal` -- a body has to stay a call, so it may have an only arm that is a constant;
  * **`collapse_reaches_normal`** -- collapsed bodies are normal, and no others stay as they are.
-/
import Mathlib.Algebra.Order.BigOperators.Group.List
import Mathlib.Algebra.Order.Group.Nat
import Mathlib.Algebra.Ring.Nat
import SchemaCompiler.Proofs.Expr.Interpretation

namespace SchemaCompiler

/-! ## 1. Slots -/

/-- The items that stand in an argument. -/
def Arg.items : Arg → List Item
  | .item i => [i]
  | .record fields => fields.map Prod.snd
  | .array is => is

/-- The items that stand in arguments. -/
def slots (args : List Arg) : List Item := args.flatMap Arg.items

theorem slots_cons (arg : Arg) (args : List Arg) : slots (arg :: args) = arg.items ++ slots args :=
  List.flatMap_cons

/-- The nodes of an argument beside its items. -/
def Arg.frame : Arg → Nat
  | .item _ => 0
  | .record _ | .array _ => 1

theorem sizeOfItems_eq (items : List Item) : sizeOfItems items = (items.map Item.size).sum := by
  induction items with
  | nil => rfl
  | cons item items ih => rw [sizeOfItems, ih, List.map_cons, List.sum_cons]

theorem sizeOfFields_eq (fields : List (String × Item)) :
    sizeOfFields fields = ((fields.map Prod.snd).map Item.size).sum := by
  induction fields with
  | nil => rfl
  | cons field fields ih => rw [sizeOfFields, ih, List.map_cons, List.map_cons, List.sum_cons]

theorem Arg.size_eq (arg : Arg) : arg.size = arg.frame + (arg.items.map Item.size).sum := by
  cases arg with
  | item i => simp [size, frame, items]
  | record fields => rw [size, frame, items, sizeOfFields_eq]
  | array is => rw [size, frame, items, sizeOfItems_eq]

theorem sizeOfArgs_eq (args : List Arg) :
    sizeOfArgs args = (args.map Arg.frame).sum + ((slots args).map Item.size).sum := by
  induction args with
  | nil => rfl
  | cons arg args ih =>
    rw [sizeOfArgs, ih, arg.size_eq, slots_cons, List.map_append, List.sum_append, List.map_cons,
      List.sum_cons]
    omega

theorem size_lt_of_mem_slots {item : Item} {args : List Arg} (h : item ∈ slots args)
    (func : Func) : item.size < (Item.call func args).size := by
  have hle : item.size ≤ ((slots args).map Item.size).sum :=
    List.le_sum_of_mem (List.mem_map_of_mem h)
  rw [Item.size, sizeOfArgs_eq]
  omega

/-- **What follows for a call from the items in its slots holds of every item**, if it holds of
    constants. -/
theorem Item.induction_on_slots {P : Item → Prop} (const : ∀ constant, P (.const constant))
    (call : ∀ func args, (∀ item ∈ slots args, P item) → P (.call func args)) (item : Item) :
    P item := by
  cases item with
  | const constant => exact const constant
  | call func args =>
    refine call func args fun inner hmem => ?_
    have hless := size_lt_of_mem_slots hmem func
    exact induction_on_slots const call inner
termination_by item.size

/-! ## 2. Collapsing, slot by slot -/

theorem collapseArgs_eq_map (args : List Arg) : collapseArgs args = args.map Arg.collapse := by
  induction args with
  | nil => rfl
  | cons arg args ih => rw [collapseArgs, ih, List.map_cons]

theorem collapseItems_eq_map (items : List Item) :
    collapseItems items = items.map Item.collapse := by
  induction items with
  | nil => rfl
  | cons item items ih => rw [collapseItems, ih, List.map_cons]

theorem collapseFields_eq_map (fields : List (String × Item)) :
    collapseFields fields = fields.map fun field => (field.1, field.2.collapse) := by
  induction fields with
  | nil => rfl
  | cons field fields ih => rw [collapseFields, ih, List.map_cons]

namespace Arg

theorem items_collapse (arg : Arg) : arg.collapse.items = arg.items.map Item.collapse := by
  cases arg with
  | item i => rfl
  | record fields =>
    rw [collapse, collapseFields_eq_map, items, items, List.map_map, List.map_map]
    rfl
  | array is => rw [collapse, collapseItems_eq_map, items, items]

/-- An argument stays as it is if the items in it do. -/
theorem collapse_eq_self {arg : Arg} (h : ∀ i ∈ arg.items, i.collapse = i) :
    arg.collapse = arg := by
  cases arg with
  | item i => rw [collapse, h i (List.mem_singleton_self i)]
  | record fields =>
    have hfields : ∀ field ∈ fields, (field.1, field.2.collapse) = id field :=
      fun field hmem => congrArg (Prod.mk field.1) (h field.2 (List.mem_map_of_mem hmem))
    rw [collapse, collapseFields_eq_map, List.map_congr_left hfields, List.map_id]
  | array is =>
    have his : ∀ i ∈ is, i.collapse = id i := h
    rw [collapse, collapseItems_eq_map, List.map_congr_left his, List.map_id]

end Arg

theorem slots_collapseArgs (args : List Arg) :
    slots (collapseArgs args) = (slots args).map Item.collapse := by
  rw [slots, slots, collapseArgs_eq_map, List.flatMap_map, List.map_flatMap]
  exact List.flatMap_congr fun arg _ => arg.items_collapse

theorem collapseArgs_eq_self {args : List Arg} (h : ∀ i ∈ slots args, i.collapse = i) :
    collapseArgs args = args := by
  have hargs : ∀ arg ∈ args, arg.collapse = id arg := fun arg harg =>
    Arg.collapse_eq_self fun i hi => h i (List.mem_flatMap_of_mem harg hi)
  rw [collapseArgs_eq_map, List.map_congr_left hargs, List.map_id]

/-! ## 3. Only arms -/

/-- The arm of a union or an intersection that has no other. -/
def Item.onlyArm? : Item → Option Item
  | .call .union [.array [arm]] => some arm
  | .call .intersection [.array [arm]] => some arm
  | _ => none

namespace Item

theorem onlyArm?_eq_some_iff {item arm : Item} : item.onlyArm? = some arm ↔
    item = .call .union [.array [arm]] ∨ item = .call .intersection [.array [arm]] := by
  constructor
  · intro h
    unfold onlyArm? at h
    split at h
    · cases h
      exact .inl rfl
    · cases h
      exact .inr rfl
    · cases h
  · rintro (rfl | rfl) <;> rfl

theorem onlyArm?_call (func : Func) (args : List Arg) :
    (Item.call func args).onlyArm? = singleArm? func args := by
  refine Option.ext fun arm => ?_
  rw [onlyArm?_eq_some_iff, singleArm?_eq_some_iff, joinsArms_iff, call.injEq, call.injEq,
    or_and_right]

theorem args_of_onlyArm? {func : Func} {args : List Arg} {arm : Item}
    (h : (Item.call func args).onlyArm? = some arm) : args = [.array [arm]] := by
  rw [onlyArm?_call] at h
  exact (singleArm?_eq_some_iff.mp h).2

theorem mem_slots_of_onlyArm? {func : Func} {args : List Arg} {arm : Item}
    (h : (Item.call func args).onlyArm? = some arm) : arm ∈ slots args := by
  rw [args_of_onlyArm? h]
  exact List.mem_singleton_self arm

/-- An item with an only arm becomes what the arm becomes. -/
theorem collapse_of_onlyArm? {item arm : Item} (h : item.onlyArm? = some arm) :
    item.collapse = arm.collapse := by
  rcases onlyArm?_eq_some_iff.mp h with rfl | rfl <;> rfl

/-- Collapsing makes no only arms: there are as many arguments and arms after it as before. -/
theorem onlyArm?_collapseArgs {func : Func} {args : List Arg}
    (h : (Item.call func args).onlyArm? = none) :
    (Item.call func (collapseArgs args)).onlyArm? = none := by
  refine Option.eq_none_iff_forall_ne_some.mpr fun arm harm => ?_
  rw [onlyArm?_call, singleArm?_eq_some_iff, collapseArgs_eq_map] at harm
  obtain ⟨hjoins, hargs⟩ := harm
  obtain ⟨arg, rfl, harg⟩ := List.map_eq_singleton_iff.mp hargs
  cases arg with
  | item i => cases harg
  | record fields => cases harg
  | array is =>
    rw [Arg.collapse, collapseItems_eq_map, Arg.array.injEq] at harg
    obtain ⟨first, rfl, -⟩ := List.map_eq_singleton_iff.mp harg
    rw [onlyArm?_call, singleArm?_eq_some_iff.mpr ⟨hjoins, rfl⟩] at h
    cases h

/-- A call without an only arm keeps its form. -/
theorem collapse_of_no_onlyArm {func : Func} {args : List Arg}
    (h : (Item.call func args).onlyArm? = none) :
    (Item.call func args).collapse = .call func (collapseArgs args) := by
  have hnone := onlyArm?_collapseArgs h
  rw [onlyArm?_call] at hnone
  rw [collapse, hnone]
  rfl

end Item

/-- Whether an item is a constant, or a chain of only arms down to one. -/
def Item.endsInConstant : Item → Bool
  | .const _ => true
  | .call .union [.array [arm]] => arm.endsInConstant
  | .call .intersection [.array [arm]] => arm.endsInConstant
  | .call _ _ => false

namespace Item

theorem endsInConstant_of_onlyArm? {item arm : Item} (h : item.onlyArm? = some arm) :
    item.endsInConstant = arm.endsInConstant := by
  rcases onlyArm?_eq_some_iff.mp h with rfl | rfl <;> rfl

theorem endsInConstant_of_no_onlyArm {func : Func} {args : List Arg}
    (h : (Item.call func args).onlyArm? = none) :
    (Item.call func args).endsInConstant = false := by
  unfold endsInConstant
  split
  · next heq => cases heq
  · next heq =>
    cases heq
    cases h
  · next heq =>
    cases heq
    cases h
  · rfl

/-- Such a chain is what collapses to a constant. -/
theorem endsInConstant_iff (item : Item) :
    item.endsInConstant = true ↔ ∃ constant, item.collapse = .const constant := by
  induction item using induction_on_slots with
  | const constant => exact ⟨fun _ => ⟨constant, rfl⟩, fun _ => rfl⟩
  | call func args ih =>
    cases harm : (Item.call func args).onlyArm? with
    | some arm =>
      rw [endsInConstant_of_onlyArm? harm, collapse_of_onlyArm? harm]
      exact ih arm (mem_slots_of_onlyArm? harm)
    | none =>
      rw [endsInConstant_of_no_onlyArm harm, collapse_of_no_onlyArm harm]
      constructor
      · intro h
        cases h
      · rintro ⟨constant, heq⟩
        cases heq

end Item

/-! ## 4. All depths -/

mutual

/-- An item and all items inside of it. -/
def Item.within : Item → List Item
  | .call func args => .call func args :: withinArgs args
  | .const constant => [.const constant]

/-- The items in an argument, at all depths. -/
def Arg.within : Arg → List Item
  | .item item => item.within
  | .record fields => withinFields fields
  | .array items => withinItems items

def withinArgs : List Arg → List Item
  | [] => []
  | arg :: args => arg.within ++ withinArgs args

def withinItems : List Item → List Item
  | [] => []
  | item :: items => item.within ++ withinItems items

def withinFields : List (String × Item) → List Item
  | [] => []
  | (_, item) :: fields => item.within ++ withinFields fields

end

theorem withinItems_eq (items : List Item) : withinItems items = items.flatMap Item.within := by
  induction items with
  | nil => rfl
  | cons item items ih => rw [withinItems, ih, List.flatMap_cons]

theorem withinFields_eq (fields : List (String × Item)) :
    withinFields fields = (fields.map Prod.snd).flatMap Item.within := by
  induction fields with
  | nil => rfl
  | cons field fields ih => rw [withinFields, ih, List.map_cons, List.flatMap_cons]

theorem Arg.within_eq (arg : Arg) : arg.within = arg.items.flatMap Item.within := by
  cases arg with
  | item i => rw [within, items, List.flatMap_singleton]
  | record fields => rw [within, items, withinFields_eq]
  | array is => rw [within, items, withinItems_eq]

theorem withinArgs_eq (args : List Arg) : withinArgs args = (slots args).flatMap Item.within := by
  induction args with
  | nil => rfl
  | cons arg args ih =>
    rw [withinArgs, ih, arg.within_eq, slots_cons, List.flatMap_append]

/-- **A settled item**: neither it nor any item inside of it has an only arm. -/
def Item.Settled (item : Item) : Prop := ∀ inner ∈ item.within, inner.onlyArm? = none

theorem settled_const (constant : Constant) : (Item.const constant).Settled :=
  List.forall_mem_singleton.mpr rfl

theorem settled_call_iff {func : Func} {args : List Arg} : (Item.call func args).Settled ↔
    (Item.call func args).onlyArm? = none ∧ ∀ i ∈ slots args, i.Settled := by
  rw [Item.Settled, Item.within, List.forall_mem_cons, withinArgs_eq]
  exact and_congr_right fun _ => List.forall_mem_flatMap

/-- **Collapsed items are settled.** -/
theorem settled_collapse (item : Item) : item.collapse.Settled := by
  induction item using Item.induction_on_slots with
  | const constant => exact settled_const constant
  | call func args ih =>
    cases harm : (Item.call func args).onlyArm? with
    | some arm =>
      -- The arm is what is left, and it stands in a slot of the call.
      rw [Item.collapse_of_onlyArm? harm]
      exact ih arm (Item.mem_slots_of_onlyArm? harm)
    | none =>
      rw [Item.collapse_of_no_onlyArm harm]
      refine settled_call_iff.mpr ⟨Item.onlyArm?_collapseArgs harm, ?_⟩
      rw [slots_collapseArgs]
      exact List.forall_mem_map.mpr ih

/-- **Settled items stay as they are.** -/
theorem Item.Settled.collapse_eq {item : Item} (h : item.Settled) : item.collapse = item := by
  induction item using Item.induction_on_slots with
  | const constant => rfl
  | call func args ih =>
    obtain ⟨harm, hslots⟩ := settled_call_iff.mp h
    rw [Item.collapse_of_no_onlyArm harm,
      collapseArgs_eq_self fun i hi => ih i hi (hslots i hi)]

/-! ## 5. Bodies -/

/-- **A normal body**: an item inside of it has no only arm, and its own only arm, if it has one,
    is a constant. -/
structure Call.Normal (c : Call) : Prop where
  inside : ∀ i ∈ slots c.args, i.Settled
  outside : ∀ arm, c.toItem.onlyArm? = some arm → ∃ constant, arm = .const constant

namespace Call

theorem normal_collapse (c : Call) : c.collapse.Normal := by
  have hsettled : c.toItem.collapse.Settled := settled_collapse c.toItem
  rw [collapse]
  split
  · next func args heq =>
    rw [heq] at hsettled
    obtain ⟨harm, hslots⟩ := settled_call_iff.mp hsettled
    refine ⟨hslots, fun arm hsome => ?_⟩
    rw [toItem, harm] at hsome
    cases hsome
  · next constant heq =>
    refine ⟨List.forall_mem_singleton.mpr (settled_const constant), fun arm hsome => ?_⟩
    cases Item.args_of_onlyArm? hsome
    exact ⟨constant, rfl⟩

theorem Normal.collapse_eq {c : Call} (h : c.Normal) : c.collapse = c := by
  cases harm : c.toItem.onlyArm? with
  | some arm =>
    -- Nothing but the constant is left, and the call is put around it again.
    obtain ⟨constant, rfl⟩ := h.outside arm harm
    have hconst : c.toItem.collapse = .const constant := Item.collapse_of_onlyArm? harm
    rw [collapse, hconst]
    exact congrArg (Call.mk c.func) (Item.args_of_onlyArm? harm).symm
  | none =>
    have hsettled : c.toItem.Settled := settled_call_iff.mpr ⟨harm, h.inside⟩
    rw [collapse, hsettled.collapse_eq]
    rfl

end Call

theorem collapse_eq_of_normal {ds : List Definition} (h : ∀ d ∈ ds, d.body.Normal) :
    collapse ds = ds := by
  have hbodies : ∀ d ∈ ds, { d with body := d.body.collapse } = id d :=
    fun d hd => congrArg (Definition.mk d.name) (h d hd).collapse_eq
  rw [collapse, List.map_congr_left hbodies, List.map_id]

/-- **Collapsing ends in normal bodies, and stops exactly there**: definitions stay as they are iff
    their bodies are normal, so that collapsing once is collapsing for good. -/
theorem collapse_reaches_normal (ds : List Definition) :
    (∀ d ∈ collapse ds, d.body.Normal) ∧ (collapse ds = ds ↔ ∀ d ∈ ds, d.body.Normal) ∧
      collapse (collapse ds) = collapse ds := by
  have hnormal : ∀ d ∈ collapse ds, d.body.Normal :=
    List.forall_mem_map.mpr fun d _ => d.body.normal_collapse
  exact ⟨hnormal, ⟨fun h => h ▸ hnormal, collapse_eq_of_normal⟩, collapse_eq_of_normal hnormal⟩

end SchemaCompiler
