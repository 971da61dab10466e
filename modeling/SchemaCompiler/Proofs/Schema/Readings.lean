/-
  File:      SchemaCompiler/Proofs/Schema/Readings.lean
  Subject:   Readings that raise warnings and may be refused.

  * `Checked.bind_eq_ok_iff`, `Checked.mapM_eq_ok_iff`: a composed reading gives a value iff its
    parts do; a list is read item by item.
  * `Schema.partsOf_eq_mapM`, `Schema.schemasOf_eq_mapM`, `Schema.entriesOf_eq_mapM`: the lists
    inside a schema are read item by item, so that the lemmas above apply to them.
  * `Node.induction_on_depth`: what stands inside a tree is less deep.
-/
import Mathlib.Data.List.Forall2
import Mathlib.Order.Nat
import SchemaCompiler.Proofs.Json.Grammar
import SchemaCompiler.Schema.OfNode

namespace SchemaCompiler

variable {engines : Engines}

/-- Another relation holds pairwise if it follows for the items of the list. -/
theorem forall₂_imp_of_mem {α β : Type} {R S : α → β → Prop} {xs : List α} {ys : List β}
    (h : List.Forall₂ R xs ys) (himp : ∀ x ∈ xs, ∀ y, R x y → S x y) : List.Forall₂ S xs ys := by
  have hmem := (List.forall₂_and_left xs ys).mpr ⟨fun x hx => hx, h⟩
  exact hmem.imp fun x y hxy => himp x hxy.1 y hxy.2

namespace Checked

variable {α β : Type}

/-! ## 1. The value of a reading -/

/-- A reading that comes after some diagnostics were recorded. -/
def after (earlier : List Diagnostic) (x : Checked α) : Checked α :=
  ⟨earlier ++ x.warnings, x.result⟩

theorem pure_eq_ok_iff {a b : α} : (pure a : Checked α).result = .ok b ↔ a = b := by
  show Except.ok a = Except.ok b ↔ a = b
  exact Except.ok.injEq a b ▸ Iff.rfl

/-- A composed reading gives a value if both of its steps do. -/
theorem bind_eq_ok_iff {x : Checked α} {f : α → Checked β} {b : β} :
    (x >>= f).result = .ok b ↔ ∃ a, x.result = .ok a ∧ (f a).result = .ok b := by
  show (x.andThen f).result = .ok b ↔ _
  unfold andThen
  cases hx : x.result with
  | ok a => simp only [Except.ok.injEq, exists_eq_left']
  | error d => simp only [reduceCtorEq, false_and, exists_false]

theorem refuse_eq_ok_iff {v : Violation} {span : Span} {a : α} :
    (refuse v span : Checked α).result = .ok a ↔ False := by
  show Except.error (v.diagnostic span) = Except.ok a ↔ False
  exact ⟨fun h => (nomatch h), False.elim⟩

theorem warn_eq_ok_iff {c : Caution} {span : Span} {a : Unit} :
    (warn c span).result = .ok a ↔ True :=
  ⟨fun _ => trivial, fun _ => rfl⟩

instance : LawfulMonad Checked := by
  refine LawfulMonad.mk' Checked ?_ ?_ ?_
  · intro α x
    show x.andThen (fun a => ⟨[], .ok a⟩) = x
    obtain ⟨warnings, result⟩ := x
    cases result <;> simp [andThen]
  · intro α β a f
    show Checked.mk ([] ++ (f a).warnings) (f a).result = f a
    rw [List.nil_append]
  · intro α β γ x f g
    show (x.andThen f).andThen g = x.andThen fun a => (f a).andThen g
    obtain ⟨warnings, result⟩ := x
    cases result with
    | error d => rfl
    | ok a =>
      simp only [andThen]
      cases (f a).result <;> simp

/-- **A list is read iff each of its items is**, and gives what they give, in order. -/
theorem mapM_eq_ok_iff {f : α → Checked β} {xs : List α} {ys : List β} :
    (xs.mapM f).result = .ok ys ↔ List.Forall₂ (fun x y => (f x).result = .ok y) xs ys := by
  induction xs generalizing ys with
  | nil =>
    rw [List.mapM_nil, pure_eq_ok_iff, List.forall₂_nil_left_iff]
    exact eq_comm
  | cons x xs ih =>
    simp only [List.mapM_cons, bind_eq_ok_iff, pure_eq_ok_iff, ih, List.forall₂_cons_left_iff]
    constructor
    · intro h
      obtain ⟨y, hy, rest, hrest, heq⟩ := h
      exact ⟨y, rest, hy, hrest, heq.symm⟩
    · intro h
      obtain ⟨y, rest, hy, hrest, heq⟩ := h
      exact ⟨y, hy, rest, hrest, heq.symm⟩

end Checked

/-! ## 2. The lists inside a schema -/

namespace Schema

theorem partsOf_eq_mapM (members : List (Member Node)) :
    partsOf engines members = members.mapM (partOf engines) := by
  induction members with
  | nil => rw [partsOf, List.mapM_nil]
  | cons member members ih => rw [partsOf, List.mapM_cons, ih]

theorem schemasOf_eq_mapM (items : List Node) :
    schemasOf engines items = items.mapM (ofNode engines) := by
  induction items with
  | nil => rw [schemasOf, List.mapM_nil]
  | cons item items ih => rw [schemasOf, List.mapM_cons, ih]

/-- A list of schemas is read item by item. -/
theorem readSchemas_array (k : ListKeyword) (items : List Node) (span : Span) :
    readSchemas engines k (.array items span) = schemasOf engines items := by
  rw [readSchemas]

/-- A map of schemas is read member by member. -/
theorem readEntries_object (k : MapKeyword) (members : List (Member Node)) (span : Span) :
    readEntries engines k (.object members span) = entriesOf engines members := by
  rw [readEntries]

/-- The entry of a member. -/
def entryOf (engines : Engines) (member : Member Node) : Checked (Entry Schema) := do
  let schema ← ofNode engines member.value
  pure ⟨member.key, schema, member.span⟩

theorem entriesOf_eq_mapM (members : List (Member Node)) :
    entriesOf engines members = members.mapM (entryOf engines) := by
  induction members with
  | nil => rw [entriesOf, List.mapM_nil]
  | cons member members ih =>
    rw [entriesOf, List.mapM_cons, ih, entryOf, bind_assoc]
    simp only [pure_bind]

end Schema

/-! ## 3. Trees by their depth -/

namespace Node

/-- The value of a member is less deep than the object. -/
theorem depth_value_lt {members : List (Member Node)} {m : Member Node} (span : Span)
    (hm : m ∈ members) : m.value.depth < (Node.object members span).depth :=
  Nat.lt_succ_of_le (membersDepth_le_iff.mp le_rfl m hm)

/-- An item is less deep than the array. -/
theorem depth_item_lt {items : List Node} {item : Node} (span : Span) (hitem : item ∈ items) :
    item.depth < (Node.array items span).depth :=
  Nat.lt_succ_of_le (itemsDepth_le_iff.mp le_rfl item hitem)

/-- A property holds of every tree if it holds of a tree whenever it holds of the less deep. -/
theorem induction_on_depth {P : Node → Prop}
    (step : ∀ node : Node, (∀ inner : Node, inner.depth < node.depth → P inner) → P node)
    (node : Node) : P node :=
  (measure Node.depth).wf.induction node step

end Node

end SchemaCompiler
