/-
  File:      SchemaCompiler/Proofs/Schema/Validity.lean
  Subject:   When a value is valid against a schema, by the rules of the keywords.

  * `Datum`: JSON values, with exact numbers.
  * `Keyword.Holds`: what one keyword asks of a value. The rules cover the keywords that become
    part of an expression; a keyword about one type of value asks nothing of the others
    (`Keyword.Admits`).
  * `Schema.Valid`: all keywords of the schema hold.
  * `Schema.UsesOnly kinds`: the schemas whose constraints are among `kinds`, each given once.

  What a schema gives is put together from what its sub-schemas give (`Schema.rebuild`), often from
  the keywords alone (`Schema.fold`).

  Not here: references, and the keywords that the expression of a schema leaves out. `items` is
  read as it is where no `prefixItems` stands beside it.
-/
import Mathlib.Algebra.Order.Ring.Unbundled.Rat
import SchemaCompiler.Schema.Basic

namespace SchemaCompiler

/-! ## 1. Data -/

/-- A JSON value. Numbers are exact; the keys of an object are meant to be distinct, but no rule
    needs it. -/
inductive Datum where
  | null
  | boolean (b : Bool)
  | number (q : ℚ)
  | string (text : String)
  | array (items : List Datum)
  | object (members : List (String × Datum))

namespace Datum

/-- The types of a value. A whole number is an integer and a number. -/
def HasType (v : Datum) : PrimitiveType → Prop
  | .string => ∃ text, v = .string text
  | .number => ∃ q, v = .number q
  | .integer => ∃ z : ℤ, v = .number z
  | .object => ∃ members, v = .object members
  | .array => ∃ items, v = .array items
  | .boolean => ∃ b, v = .boolean b
  | .null => v = .null

theorem exists_hasType (v : Datum) : ∃ type ∈ PrimitiveType.all, v.HasType type := by
  cases v with
  | null => exact ⟨.null, by decide, rfl⟩
  | boolean b => exact ⟨.boolean, by decide, b, rfl⟩
  | number q => exact ⟨.number, by decide, q, rfl⟩
  | string text => exact ⟨.string, by decide, text, rfl⟩
  | array items => exact ⟨.array, by decide, items, rfl⟩
  | object members => exact ⟨.object, by decide, members, rfl⟩

end Datum

/-- The exact value of a double. -/
def Double.value (d : Double) : ℚ :=
  (if d.negative then -1 else 1) * (d.numerator / d.denominator)

/-- The exact value of a number. -/
def Number.value : Number → ℚ
  | .natural n => n
  | .negative n => -n
  | .double d => d.value

/-! ## 2. Keywords -/

/-- What a number keyword with a value asks of a number. -/
def NumberKeyword.Allows (value q : ℚ) : NumberKeyword → Prop
  | .multipleOf => ∃ z : ℤ, q = z * value
  | .maximum => q ≤ value
  | .exclusiveMaximum => q < value
  | .minimum => value ≤ q
  | .exclusiveMinimum => value < q

namespace Keyword

variable {σ τ υ : Type}

/-- Replaces the sub-schemas. -/
def map (f : σ → τ) : Keyword σ → Keyword τ
  | .text k t => .text k t
  | .schema k s => .schema k (f s)
  | .schemas k ss => .schemas k (ss.map f)
  | .entries k es => .entries k (es.map fun e => ⟨e.key, f e.schema, e.span⟩)
  | .types ts => .types ts
  | .enum ns => .enum ns
  | .data k n => .data k n
  | .number k n => .number k n
  | .count k n => .count k n
  | .flag k b => .flag k b
  | .required ns => .required ns
  | .dependentRequired ds => .dependentRequired ds

theorem kind_map (f : σ → τ) (keyword : Keyword σ) : (keyword.map f).kind = keyword.kind := by
  cases keyword <;> rfl

theorem map_map (g : τ → υ) (f : σ → τ) (keyword : Keyword σ) :
    (keyword.map f).map g = keyword.map (g ∘ f) := by
  cases keyword <;> simp only [map, List.map_map, Function.comp_def]

theorem map_eq_entries_iff {f : σ → τ} {keyword : Keyword σ} {k : MapKeyword}
    {es : List (Entry τ)} :
    keyword.map f = .entries k es ↔ ∃ es', keyword = .entries k es' ∧
      es'.map (fun e => ⟨e.key, f e.schema, e.span⟩) = es := by
  cases keyword <;> simp [map]

theorem map_eq_dependentRequired_iff {f : σ → τ} {keyword : Keyword σ} {ds : List Dependency} :
    keyword.map f = .dependentRequired ds ↔ keyword = .dependentRequired ds := by
  cases keyword <;> simp [map]

/-- **What a keyword about one type of value asks of a value**, given what its sub-schemas ask.
    It asks nothing of a value of another type. -/
def Admits (matching : String → String → Prop) (siblings : List (Keyword (Datum → Prop))) :
    Keyword (Datum → Prop) → Datum → Prop
  | .count .minLength n, .string t => n ≤ t.length
  | .count .maxLength n, .string t => t.length ≤ n
  | .text .pattern p, .string t => matching p t
  | .number k n, .number q => k.Allows n.value q
  | .schema .items s, .array items => ∀ x ∈ items, s x
  | .required names, .object members => ∀ name ∈ names, name ∈ members.map Prod.fst
  | .entries .properties es, .object members =>
    ∀ e ∈ es, ∀ x, (e.key, x) ∈ members → e.schema x
  | .count .minProperties n, .object members => n ≤ members.length
  | .count .maxProperties n, .object members => members.length ≤ n
  | .dependentRequired ds, .object members =>
    ∀ d ∈ ds, d.key ∈ members.map Prod.fst → ∀ name ∈ d.required, name ∈ members.map Prod.fst
  | .schema .propertyNames s, .object members => ∀ name ∈ members.map Prod.fst, s (.string name)
  | .entries .patternProperties es, .object members =>
    ∀ e ∈ es, ∀ m ∈ members, matching e.key m.1 → e.schema m.2
  | .schema .additionalProperties s, .object members =>
    -- The other members: neither a property nor a pattern beside this keyword names them.
    ∀ m ∈ members,
      (∀ es, .entries .properties es ∈ siblings → ∀ e ∈ es, e.key ≠ m.1) →
      (∀ es, .entries .patternProperties es ∈ siblings → ∀ e ∈ es, ¬ matching e.key m.1) → s m.2
  | _, _ => True

/-- What a keyword asks of a value, given what its sub-schemas ask. -/
def Holds (matching : String → String → Prop) (siblings : List (Keyword (Datum → Prop))) :
    Keyword (Datum → Prop) → Datum → Prop
  | .types ts, v => ∃ type ∈ ts, v.HasType type
  | .schema .not s, v => ¬ s v
  | keyword, v => keyword.Admits matching siblings v

end Keyword

/-! ## 3. Schemas -/

/-- Changes the keyword and leaves its place. -/
def Located.map {κ κ' : Type} (f : κ → κ') (located : Located κ) : Located κ' :=
  ⟨f located.keyword, located.span⟩

namespace Schema

section Rebuild

variable {α : Type} (assemble : List (Located (Keyword α)) → List Parked → Option Span → α)

mutual

/-- Assembles what a schema gives from all that it holds, the sub-schemas first. -/
def rebuild : Schema → α
  | .mk keywords unsupported span => assemble (rebuildKeywords keywords) unsupported span

def rebuildKeywords : List (Located (Keyword Schema)) → List (Located (Keyword α))
  | [] => []
  | ⟨keyword, span⟩ :: rest =>
    ⟨match keyword with
      | .schema k s => .schema k (rebuild s)
      | .schemas k ss => .schemas k (rebuildList ss)
      | .entries k es => .entries k (rebuildEntries es)
      | .text k t => .text k t
      | .types ts => .types ts
      | .enum ns => .enum ns
      | .data k n => .data k n
      | .number k n => .number k n
      | .count k n => .count k n
      | .flag k b => .flag k b
      | .required ns => .required ns
      | .dependentRequired ds => .dependentRequired ds, span⟩ :: rebuildKeywords rest

def rebuildList : List Schema → List α
  | [] => []
  | s :: ss => rebuild s :: rebuildList ss

def rebuildEntries : List (Entry Schema) → List (Entry α)
  | [] => []
  | ⟨key, s, span⟩ :: es => ⟨key, rebuild s, span⟩ :: rebuildEntries es

end

theorem rebuildList_eq (schemas : List Schema) :
    rebuildList assemble schemas = schemas.map (rebuild assemble) := by
  induction schemas with
  | nil => rfl
  | cons s ss ih => rw [rebuildList, ih, List.map_cons]

theorem rebuildEntries_eq (entries : List (Entry Schema)) :
    rebuildEntries assemble entries =
      entries.map fun e => ⟨e.key, rebuild assemble e.schema, e.span⟩ := by
  induction entries with
  | nil => rfl
  | cons e es ih => rw [rebuildEntries, ih, List.map_cons]

theorem rebuildKeywords_eq (keywords : List (Located (Keyword Schema))) :
    rebuildKeywords assemble keywords =
      keywords.map (Located.map (Keyword.map (rebuild assemble))) := by
  induction keywords with
  | nil => rfl
  | cons l ls ih =>
    obtain ⟨keyword, span⟩ := l
    cases keyword <;>
      simp only [rebuildKeywords, ih, List.map_cons, Located.map, Keyword.map, rebuildList_eq,
        rebuildEntries_eq]

/-- **A schema gives what its parts give.** -/
theorem rebuild_mk (keywords : List (Located (Keyword Schema))) (unsupported : List Parked)
    (span : Option Span) :
    rebuild assemble (.mk keywords unsupported span) =
      assemble (keywords.map (Located.map (Keyword.map (rebuild assemble)))) unsupported span := by
  rw [rebuild, rebuildKeywords_eq]

end Rebuild

section Fold

variable {α : Type} (assemble : List (Keyword α) → α)

/-- Assembles what a schema gives from its keywords alone, without their places. -/
def fold : Schema → α := rebuild fun keywords _ _ => assemble (keywords.map Located.keyword)

theorem fold_mk (keywords : List (Located (Keyword Schema))) (unsupported : List Parked)
    (span : Option Span) :
    fold assemble (.mk keywords unsupported span) =
      assemble ((keywords.map Located.keyword).map (Keyword.map (fold assemble))) := by
  rw [fold, rebuild_mk, List.map_map, List.map_map]
  rfl

end Fold

/-- **A value is valid against a schema: every keyword of the schema holds.** `matching` says which
    texts a regular expression matches. -/
def Valid (matching : String → String → Prop) (schema : Schema) : Datum → Prop :=
  schema.fold fun keywords v => ∀ keyword ∈ keywords, keyword.Holds matching keywords v

end Schema

/-! ## 4. Schemas with few keywords -/

/-- The keywords whose rule becomes part of an expression as it stands. -/
def KeywordKind.lowered : List KeywordKind :=
  [.types, .schema .not, .count .minLength, .count .maxLength, .text .pattern,
   .number .multipleOf, .number .maximum, .number .exclusiveMaximum, .number .minimum,
   .number .exclusiveMinimum, .schema .items, .entries .properties, .required,
   .count .minProperties, .count .maxProperties, .dependentRequired]

/-- Keywords that are given once each, constrain by some kinds only and neither refer nor list
    items; and whose properties and dependencies have distinct keys. -/
structure KeywordsAmong {σ : Type} (kinds : List KeywordKind) (keywords : List (Keyword σ)) :
    Prop where
  once : (keywords.map Keyword.kind).Nodup
  among : ∀ keyword ∈ keywords, keyword.kind.keywordClass = .validation → keyword.kind ∈ kinds
  noReference : ∀ keyword ∈ keywords,
    keyword.kind ≠ .text .ref ∧ keyword.kind ≠ .text .dynamicRef ∧
      keyword.kind ≠ .schemas .prefixItems
  propertyKeys : ∀ es, .entries .properties es ∈ keywords → (es.map Entry.key).Nodup
  dependencyKeys : ∀ ds, .dependentRequired ds ∈ keywords → (ds.map Dependency.key).Nodup

/-- A constraint of another kind does not occur. -/
theorem KeywordsAmong.kind_ne {σ : Type} {kinds : List KeywordKind} {keywords : List (Keyword σ)}
    (h : KeywordsAmong kinds keywords) (kind : KeywordKind)
    (hvalidation : kind.keywordClass = .validation) (hother : kind ∉ kinds) {keyword : Keyword σ}
    (hmem : keyword ∈ keywords) : keyword.kind ≠ kind := by
  intro heq
  subst heq
  exact hother (h.among keyword hmem hvalidation)

/-- What is made of the sub-schemas does not matter. -/
theorem KeywordsAmong.map {σ τ : Type} {kinds : List KeywordKind} {keywords : List (Keyword σ)}
    (h : KeywordsAmong kinds keywords) (f : σ → τ) :
    KeywordsAmong kinds (keywords.map (Keyword.map f)) where
  once := by
    have hkinds : Keyword.kind ∘ Keyword.map f = Keyword.kind := funext (Keyword.kind_map f)
    rw [List.map_map, hkinds]
    exact h.once
  among := by
    simp only [List.forall_mem_map, Keyword.kind_map]
    exact h.among
  noReference := by
    simp only [List.forall_mem_map, Keyword.kind_map]
    exact h.noReference
  propertyKeys := by
    intro es hmem
    obtain ⟨keyword, hkeyword, heq⟩ := List.mem_map.mp hmem
    obtain ⟨es, rfl, rfl⟩ := Keyword.map_eq_entries_iff.mp heq
    rw [List.map_map]
    exact h.propertyKeys es hkeyword
  dependencyKeys := by
    intro ds hmem
    obtain ⟨keyword, hkeyword, heq⟩ := List.mem_map.mp hmem
    rw [Keyword.map_eq_dependentRequired_iff.mp heq] at hkeyword
    exact h.dependencyKeys ds hkeyword

/-- **A schema that constrains by some kinds of keywords only**, and so does every sub-schema under
    a keyword of these kinds. -/
inductive Schema.UsesOnly (kinds : List KeywordKind) : Schema → Prop where
  | mk (keywords : List (Located (Keyword Schema))) (unsupported : List Parked)
      (span : Option Span)
      (here : KeywordsAmong kinds (keywords.map Located.keyword))
      (schemas : ∀ k s, .schema k s ∈ keywords.map Located.keyword →
        .schema k ∈ kinds → s.UsesOnly kinds)
      (entries : ∀ k es, .entries k es ∈ keywords.map Located.keyword →
        .entries k ∈ kinds → ∀ e ∈ es, e.schema.UsesOnly kinds) :
      Schema.UsesOnly kinds (.mk keywords unsupported span)

end SchemaCompiler
