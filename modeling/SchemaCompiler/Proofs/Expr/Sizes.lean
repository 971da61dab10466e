/-
  File:      SchemaCompiler/Proofs/Expr/Sizes.lean
  Subject:   How many nodes the collapsing of single arms takes away.

  * `Item.size_collapse` -- each item with an only arm, at any depth, gives way to the arm, and two
    nodes go: the call and its array;
  * `Call.size_collapse` -- the same of a body, but for one that is a chain of only arms down to a
    constant: it keeps one call around the constant;
  * `Call.normal_of_size_eq` -- a body that loses nothing was normal;
  * **`collapse_size_exact`** -- the balance of all definitions.
-/
import Mathlib.Algebra.BigOperators.Ring.List
import SchemaCompiler.Proofs.Expr.NormalForms

namespace SchemaCompiler

/-! ## 1. Sizes of items -/

/-- The number of items at any depth that have an only arm. -/
def Item.onlyArms (item : Item) : Nat := item.within.countP fun inner => inner.onlyArm?.isSome

theorem onlyArms_call (func : Func) (args : List Arg) :
    (Item.call func args).onlyArms =
      (if (Item.call func args).onlyArm?.isSome then 1 else 0) +
        ((slots args).map Item.onlyArms).sum := by
  rw [Item.onlyArms, Item.within, List.countP_cons, withinArgs_eq, List.countP_flatMap,
    Nat.add_comm]
  rfl

theorem settled_iff_onlyArms {item : Item} : item.Settled ↔ item.onlyArms = 0 := by
  rw [Item.onlyArms, List.countP_eq_zero, Item.Settled]
  exact forall₂_congr fun inner _ => by rw [Option.not_isSome_iff_eq_none]

theorem frames_collapseArgs (args : List Arg) :
    (collapseArgs args).map Arg.frame = args.map Arg.frame := by
  have hframe : ∀ arg : Arg, arg.collapse.frame = arg.frame := by
    intro arg
    cases arg <;> rfl
  rw [collapseArgs_eq_map, List.map_map]
  exact List.map_congr_left fun arg _ => hframe arg

/-- **Each only arm that goes takes two nodes with it**, the call and the array. -/
theorem Item.size_collapse (item : Item) : item.collapse.size + 2 * item.onlyArms = item.size := by
  induction item using Item.induction_on_slots with
  | const constant => rfl
  | call func args ih =>
    have hslots : ((slots args).map fun i => i.collapse.size).sum +
        2 * ((slots args).map Item.onlyArms).sum = ((slots args).map Item.size).sum := by
      rw [← List.sum_map_mul_left, ← List.sum_map_add]
      exact congrArg List.sum (List.map_congr_left ih)
    rw [onlyArms_call, Item.size, sizeOfArgs_eq, ← hslots]
    cases harm : (Item.call func args).onlyArm? with
    | some arm =>
      rw [Item.collapse_of_onlyArm? harm, Item.args_of_onlyArm? harm]
      show arm.collapse.size + 2 * (1 + (arm.onlyArms + 0)) =
        1 + (1 + 0 + (arm.collapse.size + 0 + 2 * (arm.onlyArms + 0)))
      omega
    | none =>
      have hsize : (Item.call func args).collapse.size = 1 + ((args.map Arg.frame).sum +
          ((slots args).map fun i => i.collapse.size).sum) := by
        rw [Item.collapse_of_no_onlyArm harm, Item.size, sizeOfArgs_eq, frames_collapseArgs,
          slots_collapseArgs, List.map_map]
        rfl
      rw [hsize, Option.isSome_none, if_neg Bool.false_ne_true]
      omega

/-! ## 2. Sizes of bodies -/

namespace Call

/-- **A body loses two nodes for each only arm**, but keeps the last one around a constant. -/
theorem size_collapse (c : Call) : c.collapse.size + 2 * c.toItem.onlyArms =
    c.size + 2 * if c.toItem.endsInConstant then 1 else 0 := by
  have hsize : c.toItem.collapse.size + 2 * c.toItem.onlyArms = c.size := c.toItem.size_collapse
  cases hcollapse : c.toItem.collapse with
  | call func args =>
    have hends : ¬ c.toItem.endsInConstant = true := by
      rw [Item.endsInConstant_iff, hcollapse]
      rintro ⟨constant, heq⟩
      cases heq
    have hcall : c.collapse.size = c.toItem.collapse.size := by
      rw [collapse, hcollapse]
      rfl
    rw [if_neg hends, hcall]
    omega
  | const constant =>
    have hends : c.toItem.endsInConstant = true :=
      (Item.endsInConstant_iff _).mpr ⟨constant, hcollapse⟩
    have hcall : c.collapse.size = 3 := by
      rw [collapse, hcollapse]
      rfl
    have hone : c.toItem.collapse.size = 1 := by
      rw [hcollapse]
      rfl
    rw [if_pos hends, hcall]
    omega

theorem size_collapse_le (c : Call) : c.collapse.size ≤ c.size := by
  have hsize := c.size_collapse
  by_cases hends : c.toItem.endsInConstant = true
  · -- A call is no constant, so the chain has a link at least.
    have hlink : 1 ≤ c.toItem.onlyArms := by
      rw [toItem] at hends
      cases harm : (Item.call c.func c.args).onlyArm? with
      | none =>
        rw [Item.endsInConstant_of_no_onlyArm harm] at hends
        cases hends
      | some arm =>
        rw [toItem, onlyArms_call, harm]
        exact Nat.le_add_right 1 _
    rw [if_pos hends] at hsize
    omega
  · rw [if_neg hends] at hsize
    omega

/-- A body that loses no nodes is normal. -/
theorem normal_of_size_eq {c : Call} (h : c.collapse.size = c.size) : c.Normal := by
  have hcount : c.toItem.onlyArms = if c.toItem.endsInConstant then 1 else 0 := by
    have := c.size_collapse
    omega
  rw [toItem, onlyArms_call] at hcount
  have hnone : ((slots c.args).map Item.onlyArms).sum = 0 := by
    cases harm : (Item.call c.func c.args).onlyArm? with
    | none =>
      rw [harm, Item.endsInConstant_of_no_onlyArm harm] at hcount
      exact (Nat.zero_add _).symm.trans hcount
    | some arm =>
      rw [harm, Option.isSome_some, if_pos rfl] at hcount
      split at hcount <;> omega
  have hinside : ∀ i ∈ slots c.args, i.Settled := fun i hi =>
    settled_iff_onlyArms.mpr (List.sum_eq_zero_iff.mp hnone _ (List.mem_map_of_mem hi))
  refine ⟨hinside, fun arm harm => ?_⟩
  rw [toItem] at harm
  have hends : arm.endsInConstant = true := by
    rw [hnone, harm, Item.endsInConstant_of_onlyArm? harm] at hcount
    by_contra hends
    rw [if_neg hends] at hcount
    cases hcount
  obtain ⟨constant, heq⟩ := (Item.endsInConstant_iff arm).mp hends
  rw [(hinside arm (Item.mem_slots_of_onlyArm? harm)).collapse_eq] at heq
  exact ⟨constant, heq⟩

end Call

/-! ## 3. Sizes of definitions -/

/-- The number of nodes of all bodies. -/
def totalSize (ds : List Definition) : Nat := (ds.map fun d => d.body.size).sum

/-- The number of items of all bodies, at any depth, that have an only arm. -/
def totalOnlyArms (ds : List Definition) : Nat := (ds.map fun d => d.body.toItem.onlyArms).sum

/-- The number of bodies that are chains of only arms down to a constant. -/
def constantBodies (ds : List Definition) : Nat := ds.countP fun d => d.body.toItem.endsInConstant

theorem totalSize_collapse (ds : List Definition) :
    totalSize (collapse ds) + 2 * totalOnlyArms ds = totalSize ds + 2 * constantBodies ds := by
  induction ds with
  | nil => rfl
  | cons d ds ih =>
    have hbody := d.body.size_collapse
    show d.body.collapse.size + totalSize (collapse ds) +
        2 * (d.body.toItem.onlyArms + totalOnlyArms ds) =
      d.body.size + totalSize ds + 2 * constantBodies (d :: ds)
    rw [constantBodies, List.countP_cons, ← constantBodies]
    omega

/-- **The size that collapsing takes away, exactly**: two nodes for each only arm, but for one in
    each body that is a chain of only arms down to a constant. So no body grows, and definitions
    that change shrink. -/
theorem collapse_size_exact (ds : List Definition) :
    (totalSize ds : Int) - totalSize (collapse ds) =
        2 * ((totalOnlyArms ds : Int) - constantBodies ds) ∧
      (∀ d ∈ ds, d.body.collapse.size ≤ d.body.size) ∧
      totalSize (collapse ds) ≤ totalSize ds ∧
      (collapse ds ≠ ds ↔ totalSize (collapse ds) < totalSize ds) := by
  have hexact := totalSize_collapse ds
  have hbodies : totalSize (collapse ds) = (ds.map fun d => d.body.collapse.size).sum := by
    rw [totalSize, collapse, List.map_map]
    rfl
  have hle : ∀ d ∈ ds, d.body.collapse.size ≤ d.body.size := fun d _ => d.body.size_collapse_le
  refine ⟨by omega, hle, hbodies ▸ List.sum_le_sum hle, ?_, ?_⟩
  · intro hchanged
    have hless : ∃ d ∈ ds, d.body.collapse.size < d.body.size := by
      by_contra hnone
      refine hchanged (collapse_eq_of_normal fun d hd => Call.normal_of_size_eq ?_)
      exact Nat.le_antisymm (hle d hd) (Nat.le_of_not_lt fun hlt => hnone ⟨d, hd, hlt⟩)
    rw [hbodies]
    exact List.sum_lt_sum _ _ hle hless
  · intro hless heq
    rw [heq] at hless
    exact Nat.lt_irrefl _ hless

end SchemaCompiler
