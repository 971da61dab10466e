/-
  File:      SchemaCompiler/Proofs/Expr/Acceptance.lean
  Subject:   Which values an expression accepts.

  `vocabulary` is the interpretation that the functions of an expression are used for: a call
  means a validator, an optional one where `optional` wraps it, and a constant means itself.
  A function that takes a validator and constants accepts what the validator accepts and the
  function allows (`Func.Allows`). The functions `oneOf` and `unique` stand in no expression of a
  schema; they accept nothing here.

  One lemma per way to build a call (`accepts_union`, `accepts_refine`, …): below this module no
  proof looks into `vocabulary`.
-/
import SchemaCompiler.Proofs.Expr.Interpretation
import SchemaCompiler.Proofs.Json.Entries
import SchemaCompiler.Proofs.Schema.Validity

namespace SchemaCompiler

/-! ## 1. Meanings -/

/-- What an item means. -/
inductive Meaning where
  /-- The values that it accepts. -/
  | validator (accepts : Datum → Prop)
  /-- The values that it accepts, of a member that may be absent. -/
  | optional (accepts : Datum → Prop)
  | constant (constant : Constant)

namespace Meaning

def Accepts : Meaning → Datum → Prop
  | .validator accepts => accepts
  | .optional accepts => accepts
  | .constant _ => fun _ => False

/-- Whether the member may be absent. -/
def IsOptional : Meaning → Prop
  | .optional _ => True
  | _ => False

def constant? : Operand Meaning → Option Constant
  | .item (.constant c) => some c
  | _ => none

end Meaning

/-- The options that make a bound exclusive. -/
def Constant.IsExclusive : Constant → Prop
  | .json (.object members) => ("exclusive", .boolean true) ∈ members
  | _ => False

/-- What a function with constants allows of the values that its validator accepts. -/
def Func.Allows (matching : String → String → Prop) : Func → List Constant → Datum → Prop
  | .size, [least, most], .string text =>
    (∀ n, least = .number (.natural n) → n ≤ text.length) ∧
      (∀ n, most = .number (.natural n) → text.length ≤ n)
  | .pattern, [.regex source], .string text => matching source text
  | .multipleOf, [.number n], .number q => ∃ z : ℤ, q = z * n.value
  | .max, [.number n], .number q => q ≤ n.value
  | .max, [.number n, options], .number q =>
    q ≤ n.value ∧ (options.IsExclusive → q ≠ n.value)
  | .min, [.number n], .number q => n.value ≤ q
  | .min, [.number n, options], .number q =>
    n.value ≤ q ∧ (options.IsExclusive → n.value ≠ q)
  | .minProperties, [.number (.natural n)], .object members => n ≤ members.length
  | .maxProperties, [.number (.natural n)], .object members => members.length ≤ n
  | .dependentProperties, [.json (.object table)], .object members =>
    ∀ key names, (key, .array names) ∈ table → key ∈ members.map Prod.fst →
      ∀ name, .string name ∈ names → name ∈ members.map Prod.fst
  | _, _, _ => False

/-- **The meaning of the functions.** -/
def vocabulary (matching : String → String → Prop) : Interpretation Meaning where
  const := .constant
  apply
    | .unknown, [] => .validator fun _ => True
    | .never, [] => .validator fun _ => False
    | .union, [.array arms] => .validator fun v => ∃ arm ∈ arms, arm.Accepts v
    | .intersection, [.array arms] => .validator fun v => ∀ arm ∈ arms, arm.Accepts v
    | .not, [.item m] => .validator fun v => ¬ m.Accepts v
    | .optional, [.item m] => .optional m.Accepts
    | .string, [] => .validator fun v => ∃ text, v = .string text
    | .number, [] => .validator fun v => ∃ q, v = .number q
    | .integer, [] => .validator fun v => ∃ z : ℤ, v = .number z
    | .boolean, [] => .validator fun v => ∃ b, v = .boolean b
    | .literal, [.item (.constant .null)] => .validator fun v => v = .null
    | .array, [.item m] => .validator fun v => ∃ items, v = .array items ∧ ∀ x ∈ items, m.Accepts x
    | .type, [.record fields] => .validator fun v => ∃ members, v = .object members ∧
        ∀ field ∈ fields, (field.2.IsOptional ∨ field.1 ∈ members.map Prod.fst) ∧
          ∀ x, (field.1, x) ∈ members → field.2.Accepts x
    | .object, [.record fields] => .validator fun v => ∃ members, v = .object members ∧
        ∀ m ∈ members, ∃ field ∈ fields, field.1 = m.1 ∧ field.2.Accepts m.2
    | .patternType, [.record fields] => .validator fun v => ∃ members, v = .object members ∧
        ∀ field ∈ fields, ∀ m ∈ members, matching field.1 m.1 → field.2.Accepts m.2
    | .patternObject, [.record fields] => .validator fun v => ∃ members, v = .object members ∧
        ∀ m ∈ members, ∃ field ∈ fields, matching field.1 m.1 ∧ field.2.Accepts m.2
    | .keys, [.item m, .item names] => .validator fun v => m.Accepts v ∧
        ∃ members, v = .object members ∧ ∀ k ∈ members.map Prod.fst, names.Accepts (.string k)
    | func, .item m :: operands => .validator fun v =>
        m.Accepts v ∧ func.Allows matching (operands.filterMap Meaning.constant?) v
    | _, _ => .validator fun _ => False

/-- Whether a call accepts a value. -/
def Call.Accepts (matching : String → String → Prop) (c : Call) : Datum → Prop :=
  ((vocabulary matching).call c).Accepts

/-! ## 2. What calls accept -/

namespace Call

variable {matching : String → String → Prop} {v : Datum}

theorem accepts_unknown : unknown.Accepts matching v := trivial

theorem not_accepts_never : ¬ never.Accepts matching v := id

theorem accepts_union {arms : List Call} :
    (union arms).Accepts matching v ↔ ∃ c ∈ arms, c.Accepts matching v := by
  show (∃ m ∈ (vocabulary matching).items (arms.map toItem), m.Accepts v) ↔ _
  simp only [Interpretation.items_toItem, List.mem_map, exists_exists_and_eq_and]
  exact Iff.rfl

theorem accepts_intersection {arms : List Call} :
    (intersection arms).Accepts matching v ↔ ∀ c ∈ arms, c.Accepts matching v := by
  show (∀ m ∈ (vocabulary matching).items (arms.map toItem), m.Accepts v) ↔ _
  rw [Interpretation.items_toItem]
  exact List.forall_mem_map

theorem accepts_not {c : Call} : (Call.not c).Accepts matching v ↔ ¬ c.Accepts matching v := Iff.rfl

theorem accepts_array {c : Call} :
    Call.Accepts matching ⟨.array, [c.toArg]⟩ v ↔
      ∃ items, v = .array items ∧ ∀ x ∈ items, c.Accepts matching x := Iff.rfl

/-- The functions that take a validator and constants. -/
def refiners : List Func :=
  [.size, .pattern, .multipleOf, .max, .min, .minProperties, .maxProperties, .dependentProperties]

theorem constants_of_operands (matching : String → String → Prop) (constants : List Constant) :
    ((vocabulary matching).operands
      (constants.map fun constant => .item (.const constant))).filterMap Meaning.constant? =
        constants := by
  induction constants with
  | nil => rfl
  | cons constant rest ih => exact congrArg (constant :: ·) ih

/-- **A refined call accepts what the call accepts and the function allows.** -/
theorem accepts_refine {func : Func} (hfunc : func ∈ refiners) {c : Call}
    {constants : List Constant} :
    (c.refine func constants).Accepts matching v ↔
      c.Accepts matching v ∧ func.Allows matching constants v := by
  have happly : ∀ operands, ((vocabulary matching).apply func
      (.item ((vocabulary matching).call c) :: operands)).Accepts v ↔
        c.Accepts matching v ∧
          func.Allows matching (operands.filterMap Meaning.constant?) v := by
    intro operands
    cases func <;> first | exact Iff.rfl | exact absurd hfunc (by decide)
  refine (happly _).trans ?_
  rw [constants_of_operands]

/-! ## 3. Records -/

/-- Only `optional` makes a call optional. -/
theorem not_isOptional {c : Call} (hfunc : c.func ≠ .optional) :
    ¬ ((vocabulary matching).call c).IsOptional := by
  obtain ⟨func, args⟩ := c
  intro h
  change ((vocabulary matching).apply func ((vocabulary matching).operands args)).IsOptional at h
  unfold vocabulary at h
  dsimp only at h
  split at h
  all_goals first | exact h | exact hfunc rfl

theorem isOptional_optional {c : Call} :
    ((vocabulary matching).call ⟨.optional, [c.toArg]⟩).IsOptional := trivial

theorem accepts_optional {c : Call} :
    Call.Accepts matching ⟨.optional, [c.toArg]⟩ v ↔ c.Accepts matching v := Iff.rfl

/-- The fields of a record of calls mean what the calls mean, where no two disagree about a key. -/
theorem mem_recordFields {fields : List (String × Call)} (agree : KeysAgree fields)
    {field : String × Meaning} :
    field ∈ (vocabulary matching).fields
        (collectEntries (fields.map fun field => (field.1, field.2.toItem))) ↔
      ∃ f ∈ fields, (f.1, (vocabulary matching).call f.2) = field := by
  have hagree : KeysAgree (fields.map fun field => (field.1, field.2.toItem)) := by
    intro p hp q hq hkey
    obtain ⟨a, ha, rfl⟩ := List.mem_map.mp hp
    obtain ⟨b, hb, rfl⟩ := List.mem_map.mp hq
    rw [agree a ha b hb hkey]
  simp only [Interpretation.fields_eq, List.mem_map, mem_collectEntries hagree,
    exists_exists_and_eq_and]
  exact Iff.rfl

/-- The members that `type` asks for. -/
theorem accepts_type {fields : List (String × Call)} (agree : KeysAgree fields) :
    (onRecord .type fields).Accepts matching v ↔ ∃ members, v = .object members ∧
      ∀ field ∈ fields, (((vocabulary matching).call field.2).IsOptional ∨
          field.1 ∈ members.map Prod.fst) ∧
        ∀ x, (field.1, x) ∈ members → field.2.Accepts matching x := by
  show (∃ members, v = .object members ∧ ∀ field ∈ (vocabulary matching).fields
    (collectEntries (fields.map fun field => (field.1, field.2.toItem))), _) ↔ _
  simp only [mem_recordFields agree, forall_exists_index, and_imp, forall_apply_eq_imp_iff₂]
  exact Iff.rfl

/-- `object` accepts the objects of which a field describes every member. -/
theorem accepts_closed {fields : List (String × Call)} (agree : KeysAgree fields) :
    (onRecord .object fields).Accepts matching v ↔ ∃ members, v = .object members ∧
      ∀ m ∈ members, ∃ field ∈ fields, field.1 = m.1 ∧ field.2.Accepts matching m.2 := by
  show (∃ members, v = .object members ∧ ∀ m ∈ members, ∃ field ∈ (vocabulary matching).fields
    (collectEntries (fields.map fun field => (field.1, field.2.toItem))), _) ↔ _
  simp only [mem_recordFields agree, exists_exists_and_eq_and]
  exact Iff.rfl

/-- `patternType` asks something of the members that match a pattern. -/
theorem accepts_patternType {fields : List (String × Call)} (agree : KeysAgree fields) :
    (onRecord .patternType fields).Accepts matching v ↔ ∃ members, v = .object members ∧
      ∀ field ∈ fields, ∀ m ∈ members, matching field.1 m.1 → field.2.Accepts matching m.2 := by
  show (∃ members, v = .object members ∧ ∀ field ∈ (vocabulary matching).fields
    (collectEntries (fields.map fun field => (field.1, field.2.toItem))), _) ↔ _
  simp only [mem_recordFields agree, forall_exists_index, and_imp, forall_apply_eq_imp_iff₂]
  exact Iff.rfl

/-- `patternObject` accepts the objects of which a pattern matches every member. -/
theorem accepts_patternObject {fields : List (String × Call)} (agree : KeysAgree fields) :
    (onRecord .patternObject fields).Accepts matching v ↔ ∃ members, v = .object members ∧
      ∀ m ∈ members, ∃ field ∈ fields, matching field.1 m.1 ∧ field.2.Accepts matching m.2 := by
  show (∃ members, v = .object members ∧ ∀ m ∈ members, ∃ field ∈ (vocabulary matching).fields
    (collectEntries (fields.map fun field => (field.1, field.2.toItem))), _) ↔ _
  simp only [mem_recordFields agree, exists_exists_and_eq_and]
  exact Iff.rfl

end Call

end SchemaCompiler
