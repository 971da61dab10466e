/-
  File:      SchemaCompiler/Proofs/Expr/CollapseSteps.lean
  Subject:   Single arms collapsed one by one, in any order.

  A step takes one item with an only arm, anywhere in the definitions, and puts the arm in its slot
  (`Item.Step`). A body is a slot for calls only (`Call.Step`).

  * `Item.Step.collapse_eq` -- a step does not change what an item collapses to; no more does it
    change what a body collapses to, unless nothing but a constant is left of the body: then the
    call around the constant depends on the order (`Call.Step.collapse_eq`);
  * `CollapseStep.totalSize_eq` -- a step takes two nodes away;
  * `Call.exists_step_of_not_normal` -- where a body is not normal, there is a step to take;
  * **`steps_end_at_collapse`** -- so steps come to an end, and all of them in the same one.
-/
import Mathlib.Logic.Relation
import SchemaCompiler.Proofs.Expr.Sizes

namespace SchemaCompiler

open Relation

/-! ## 1. Steps -/

/-- **One step in an item**: the item, or one inside of it, gives its slot to its only arm. -/
inductive Item.Step : Item → Item → Prop where
  | here {item arm : Item} : item.onlyArm? = some arm → Step item arm
  | argument {func : Func} {front back : List Arg} {i j : Item} : Step i j →
      Step (.call func (front ++ .item i :: back)) (.call func (front ++ .item j :: back))
  | field {func : Func} {front back : List Arg} {before after : List (String × Item)}
      {key : String} {i j : Item} : Step i j →
      Step (.call func (front ++ .record (before ++ (key, i) :: after) :: back))
        (.call func (front ++ .record (before ++ (key, j) :: after) :: back))
  | element {func : Func} {front back : List Arg} {before after : List Item} {i j : Item} :
      Step i j →
      Step (.call func (front ++ .array (before ++ i :: after) :: back))
        (.call func (front ++ .array (before ++ j :: after) :: back))

/-- One step in a body, which stays a call: its only arm can take its slot only if it is one. -/
def Call.Step (c next : Call) : Prop := c.toItem.Step next.toItem

/-- **One step in definitions**: a step in one of the bodies. -/
inductive CollapseStep : List Definition → List Definition → Prop where
  | body {front back : List Definition} {d : Definition} {next : Call} : d.body.Step next →
      CollapseStep (front ++ d :: back) (front ++ { d with body := next } :: back)

/-! ## 2. A step in an item -/

namespace Item

theorem collapse_call_congr {func : Func} {front back : List Arg} {a b : Arg}
    (h : a.collapse = b.collapse) :
    (Item.call func (front ++ a :: back)).collapse =
      (Item.call func (front ++ b :: back)).collapse := by
  have hargs : collapseArgs (front ++ a :: back) = collapseArgs (front ++ b :: back) := by
    simp only [collapseArgs_eq_map, List.map_append, List.map_cons, h]
  rw [collapse, collapse, hargs]

/-- **A step does not change what an item collapses to.** -/
theorem Step.collapse_eq {i j : Item} (h : i.Step j) : i.collapse = j.collapse := by
  induction h with
  | here harm => exact collapse_of_onlyArm? harm
  | argument _ ih =>
    apply collapse_call_congr
    rw [Arg.collapse, Arg.collapse, ih]
  | field _ ih =>
    apply collapse_call_congr
    simp only [Arg.collapse, collapseFields_eq_map, List.map_append, List.map_cons, ih]
  | element _ ih =>
    apply collapse_call_congr
    simp only [Arg.collapse, collapseItems_eq_map, List.map_append, List.map_cons, ih]

theorem size_call_of_arg {func : Func} {front back : List Arg} {a b : Arg}
    (h : a.size = b.size + 2) :
    (Item.call func (front ++ a :: back)).size =
      (Item.call func (front ++ b :: back)).size + 2 := by
  have hargs : ∀ front : List Arg,
      sizeOfArgs (front ++ a :: back) = sizeOfArgs (front ++ b :: back) + 2 := by
    intro front
    induction front with
    | nil =>
      rw [List.nil_append, List.nil_append, sizeOfArgs, sizeOfArgs, h]
      omega
    | cons arg front ih =>
      rw [List.cons_append, List.cons_append, sizeOfArgs, sizeOfArgs, ih]
      omega
  rw [size, size, hargs]
  omega

/-- **A step takes two nodes away.** -/
theorem Step.size_eq {i j : Item} (h : i.Step j) : i.size = j.size + 2 := by
  induction h with
  | @here item arm harm =>
    have hsize : item.size = 1 + (1 + (arm.size + 0) + 0) := by
      rcases onlyArm?_eq_some_iff.mp harm with rfl | rfl <;> rfl
    omega
  | argument _ ih => exact size_call_of_arg ih
  | field _ ih =>
    apply size_call_of_arg
    simp only [Arg.size, sizeOfFields_eq, List.map_append, List.map_cons, List.sum_append,
      List.sum_cons, ih]
    omega
  | element _ ih =>
    apply size_call_of_arg
    simp only [Arg.size, sizeOfItems_eq, List.map_append, List.map_cons, List.sum_append,
      List.sum_cons, ih]
    omega

/-- A step in a slot is a step in the call, which stays a call of its function. -/
theorem Step.lift {i j : Item} {args : List Arg} (h : i.Step j) (hmem : i ∈ slots args)
    (func : Func) : ∃ args', (Item.call func args).Step (.call func args') := by
  obtain ⟨arg, harg, hi⟩ := List.mem_flatMap.mp hmem
  obtain ⟨front, back, rfl⟩ := List.append_of_mem harg
  cases arg with
  | item i' =>
    cases List.mem_singleton.mp hi
    exact ⟨_, .argument h⟩
  | record fields =>
    obtain ⟨⟨key, i'⟩, hfield, rfl⟩ := List.mem_map.mp hi
    obtain ⟨before, after, rfl⟩ := List.append_of_mem hfield
    exact ⟨_, .field h⟩
  | array is =>
    obtain ⟨before, after, rfl⟩ := List.append_of_mem hi
    exact ⟨_, .element h⟩

/-- **Where an item is not settled, there is a step to take.** -/
theorem exists_step_of_not_settled (item : Item) (h : ¬ item.Settled) : ∃ next, item.Step next := by
  induction item using induction_on_slots with
  | const constant => exact absurd (settled_const constant) h
  | call func args ih =>
    cases harm : (Item.call func args).onlyArm? with
    | some arm => exact ⟨arm, .here harm⟩
    | none =>
      obtain ⟨i, hmem, hi⟩ : ∃ i ∈ slots args, ¬ i.Settled := by
        by_contra hnone
        push Not at hnone
        exact h (settled_call_iff.mpr ⟨harm, hnone⟩)
      obtain ⟨j, hstep⟩ := ih i hmem hi
      obtain ⟨args', hlifted⟩ := hstep.lift hmem func
      exact ⟨_, hlifted⟩

end Item

/-! ## 3. A step in a body -/

namespace Call

theorem endsInConstant_of_step {c next : Call} (h : c.Step next) :
    next.toItem.endsInConstant = c.toItem.endsInConstant := by
  rw [Bool.eq_iff_iff, Item.endsInConstant_iff, Item.endsInConstant_iff, Item.Step.collapse_eq h]

/-- **A step does not change what a body collapses to**, if more than a constant is left of it. -/
theorem Step.collapse_eq {c next : Call} (h : c.Step next)
    (hcall : c.toItem.endsInConstant = false) : c.collapse = next.collapse := by
  have hitem : c.toItem.collapse = next.toItem.collapse := Item.Step.collapse_eq h
  rw [collapse, collapse, ← hitem]
  cases hcollapse : c.toItem.collapse with
  | call func args => rfl
  | const constant =>
    rw [(Item.endsInConstant_iff _).mpr ⟨constant, hcollapse⟩] at hcall
    cases hcall

/-- **Where a body is not normal, there is a step to take.** -/
theorem exists_step_of_not_normal {c : Call} (h : ¬ c.Normal) : ∃ next, c.Step next := by
  by_cases hinside : ∀ i ∈ slots c.args, i.Settled
  · -- The body has an only arm, and since that is no constant it can take the slot.
    by_contra hnone
    refine h ⟨hinside, fun arm harm => ?_⟩
    cases arm with
    | call func args => exact absurd ⟨⟨func, args⟩, .here harm⟩ hnone
    | const constant => exact ⟨constant, rfl⟩
  · push Not at hinside
    obtain ⟨i, hmem, hi⟩ := hinside
    obtain ⟨j, hstep⟩ := i.exists_step_of_not_settled hi
    obtain ⟨args, hlifted⟩ := hstep.lift hmem c.func
    exact ⟨⟨c.func, args⟩, hlifted⟩

end Call

/-! ## 4. Steps in definitions -/

/-- No body is a chain of only arms down to a constant. -/
def StayCalls (ds : List Definition) : Prop := ∀ d ∈ ds, d.body.toItem.endsInConstant = false

namespace CollapseStep

variable {ds next : List Definition}

theorem totalSize_eq (h : CollapseStep ds next) : totalSize ds = totalSize next + 2 := by
  cases h with
  | @body front back d body hstep =>
    have hsize : d.body.size = body.size + 2 := Item.Step.size_eq hstep
    simp only [totalSize, List.map_append, List.map_cons, List.sum_append, List.sum_cons, hsize]
    omega

theorem stayCalls (h : CollapseStep ds next) (hcalls : StayCalls ds) : StayCalls next := by
  cases h with
  | @body front back d body hstep =>
    obtain ⟨hfront, hrest⟩ := List.forall_mem_append.mp hcalls
    obtain ⟨hd, hback⟩ := List.forall_mem_cons.mp hrest
    have hbody : body.toItem.endsInConstant = false := (Call.endsInConstant_of_step hstep).trans hd
    exact List.forall_mem_append.mpr ⟨hfront, List.forall_mem_cons.mpr ⟨hbody, hback⟩⟩

theorem collapse_eq (h : CollapseStep ds next) (hcalls : StayCalls ds) :
    collapse ds = collapse next := by
  cases h with
  | @body front back d body hstep =>
    have hbody : d.body.collapse = body.collapse :=
      hstep.collapse_eq (hcalls d (List.mem_append_right front List.mem_cons_self))
    simp only [collapse, List.map_append, List.map_cons, hbody]

end CollapseStep

/-- **Steps come to an end**, since each takes nodes away. -/
theorem acc_collapseStep (ds : List Definition) : Acc (fun next ds => CollapseStep ds next) ds := by
  have hless : Subrelation (fun next ds => CollapseStep ds next) (InvImage (· < ·) totalSize) := by
    intro next ds hstep
    have hsize := hstep.totalSize_eq
    show totalSize next < totalSize ds
    omega
  exact (hless.wf (InvImage.wf totalSize Nat.lt_wfRel.wf)).apply ds

/-- Any number of steps does not change what definitions collapse to. -/
theorem collapse_eq_of_steps {ds last : List Definition} (h : ReflTransGen CollapseStep ds last)
    (hcalls : StayCalls ds) : StayCalls last ∧ collapse ds = collapse last := by
  induction h with
  | refl => exact ⟨hcalls, rfl⟩
  | tail _ hstep ih =>
    obtain ⟨hstay, hcollapse⟩ := ih
    exact ⟨hstep.stayCalls hstay, hcollapse.trans (hstep.collapse_eq hstay)⟩

/-- Definitions without a step to take are what they collapse to. -/
theorem collapse_eq_of_no_step {ds : List Definition} (h : ∀ next, ¬ CollapseStep ds next) :
    collapse ds = ds := by
  refine collapse_eq_of_normal fun d hd => ?_
  by_contra hnormal
  obtain ⟨next, hstep⟩ := Call.exists_step_of_not_normal hnormal
  obtain ⟨front, back, rfl⟩ := List.append_of_mem hd
  exact h _ (.body hstep)

theorem exists_last_step (ds : List Definition) :
    ∃ last, ReflTransGen CollapseStep ds last ∧ ∀ next, ¬ CollapseStep last next := by
  induction acc_collapseStep ds with
  | intro ds _ ih =>
    by_cases hstep : ∃ next, CollapseStep ds next
    · obtain ⟨next, hstep⟩ := hstep
      obtain ⟨last, hsteps, hlast⟩ := ih next hstep
      exact ⟨last, .head hstep hsteps, hlast⟩
    · exact ⟨ds, .refl, fun next hnext => hstep ⟨next, hnext⟩⟩

/-- **The order of steps does not matter**: every sequence of steps ends, and it ends, where no step
    is left, in the collapsed definitions and nowhere else. -/
theorem steps_end_at_collapse (ds : List Definition) (hcalls : StayCalls ds) :
    Acc (fun next ds => CollapseStep ds next) ds ∧
      ∀ last, (ReflTransGen CollapseStep ds last ∧ ∀ next, ¬ CollapseStep last next) ↔
        last = collapse ds := by
  have hunique : ∀ last, ReflTransGen CollapseStep ds last → (∀ next, ¬ CollapseStep last next) →
      last = collapse ds := by
    intro last hsteps hlast
    calc last = collapse last := (collapse_eq_of_no_step hlast).symm
      _ = collapse ds := (collapse_eq_of_steps hsteps hcalls).2.symm
  refine ⟨acc_collapseStep ds, fun last => ⟨fun h => hunique last h.1 h.2, ?_⟩⟩
  rintro rfl
  obtain ⟨last, hsteps, hlast⟩ := exists_last_step ds
  rw [← hunique last hsteps hlast]
  exact ⟨hsteps, hlast⟩

/-- Only arms in every kind of slot: two around each other as a body, one around a call in a field
    of a record, one around a constant as an argument, and one as an element of two. -/
def entangled : List Definition :=
  [⟨"Nested", ⟨.union, [.array [.call .intersection [.array [.call .type [.record
     [("a", .call .union [.array [.call .string []]])]]]]]]⟩⟩,
   ⟨"Moved", ⟨.intersection, [.array
     [.call .not [.item (.call .intersection [.array [.const .null]])],
      .call .union [.array [.call .union [.array []]]]]]⟩⟩]

theorem steps_end_entangled :
    StayCalls entangled ∧ Acc (fun next ds => CollapseStep ds next) entangled ∧
      ∀ last, (ReflTransGen CollapseStep entangled last ∧ ∀ next, ¬ CollapseStep last next) ↔
        last =
          [⟨"Nested", ⟨.type, [.record [("a", .call .string [])]]⟩⟩,
           ⟨"Moved", ⟨.intersection, [.array
             [.call .not [.item (.const .null)], .call .union [.array []]]]⟩⟩] := by
  have hcalls : StayCalls entangled :=
    List.forall_mem_cons.mpr ⟨rfl, List.forall_mem_singleton.mpr rfl⟩
  exact ⟨hcalls, steps_end_at_collapse entangled hcalls⟩

end SchemaCompiler
