/-
  File:      SchemaCompiler/Proofs/Schema/Parts.lean
  Subject:   The sub-schemas of a keyword, and what the keyword says beside them.

  * `Keyword.parts` -- the sub-schemas, in order;
  * `Keyword.unplaced` -- the keyword without the places of its entries;
  * `Keyword.outline` -- what is left when the sub-schemas go as well: two keywords with one outline
    and with sub-schemas that become the same become the same themselves (`unplaced_map_eq`);
  * `Schema.induction_on_parts` -- what follows for a schema from its sub-schemas holds of all.
-/
import SchemaCompiler.Proofs.Schema.Validity

namespace SchemaCompiler

/-! ## 1. Keywords without places -/

def Entry.unplaced {σ : Type} (e : Entry σ) : Entry σ := { e with span := ⟨0, 0⟩ }

def Dependency.unplaced (d : Dependency) : Dependency := { d with span := ⟨0, 0⟩ }

namespace Keyword

variable {σ τ υ : Type}

/-- The keyword without the places of its entries. -/
def unplaced : Keyword σ → Keyword σ
  | .entries k es => .entries k (es.map Entry.unplaced)
  | .dependentRequired ds => .dependentRequired (ds.map Dependency.unplaced)
  | keyword => keyword

@[simp] theorem kind_unplaced (keyword : Keyword σ) : keyword.unplaced.kind = keyword.kind := by
  cases keyword <;> rfl

/-! ## 2. Keywords without sub-schemas -/

/-- The sub-schemas of a keyword, in order. -/
def parts : Keyword σ → List σ
  | .schema _ s => [s]
  | .schemas _ ss => ss
  | .entries _ es => es.map Entry.schema
  | _ => []

/-- What a keyword says beside its sub-schemas, without the places of its entries. -/
def outline (keyword : Keyword σ) : Keyword Unit := (keyword.map fun _ => ()).unplaced

@[simp] theorem kind_outline (keyword : Keyword σ) : keyword.outline.kind = keyword.kind := by
  rw [outline, kind_unplaced, kind_map]

theorem parts_unplaced (keyword : Keyword σ) : keyword.unplaced.parts = keyword.parts := by
  cases keyword <;> simp [unplaced, parts, Entry.unplaced]

theorem parts_map (f : σ → τ) (keyword : Keyword σ) :
    (keyword.map f).parts = keyword.parts.map f := by
  cases keyword <;> simp [map, parts]

theorem map_congr {f g : σ → τ} {keyword : Keyword σ}
    (h : ∀ part ∈ keyword.parts, f part = g part) : keyword.map f = keyword.map g := by
  cases keyword with
  | schema k s => rw [map, map, h s (List.mem_singleton_self s)]
  | schemas k ss => exact congrArg (Keyword.schemas k) (List.map_congr_left h)
  | entries k es =>
    rw [map, map]
    refine congrArg (Keyword.entries k) (List.map_congr_left fun e he => ?_)
    rw [h e.schema (List.mem_map_of_mem he)]
  | _ => rfl

/-- An outline tells how many sub-schemas there are. -/
theorem length_parts_eq {a : Keyword σ} {b : Keyword τ} (h : a.outline = b.outline) :
    a.parts.length = b.parts.length := by
  have hlength : ∀ {ρ : Type} (keyword : Keyword ρ),
      keyword.outline.parts.length = keyword.parts.length := by
    intro ρ keyword
    rw [outline, parts_unplaced, parts_map, List.length_map]
  rw [← hlength a, ← hlength b, h]

/-- Sub-schemas that become the same one by one become the same list. -/
theorem map_parts_eq {f : σ → υ} {g : τ → υ} {a : Keyword σ} {b : Keyword τ}
    (houtline : a.outline = b.outline)
    (h : ∀ (i : Nat) (x : σ) (y : τ), a.parts[i]? = some x → b.parts[i]? = some y → f x = g y) :
    a.parts.map f = b.parts.map g := by
  refine List.ext_getElem (by rw [List.length_map, List.length_map, length_parts_eq houtline]) ?_
  intro i hi hi'
  rw [List.getElem_map, List.getElem_map]
  exact h i _ _ (List.getElem?_eq_getElem _) (List.getElem?_eq_getElem _)

theorem map_unplaced_entries_eq {f : σ → υ} {g : τ → υ} {es : List (Entry σ)}
    {fs : List (Entry τ)} (hkeys : es.map Entry.key = fs.map Entry.key)
    (hparts : (es.map Entry.schema).map f = (fs.map Entry.schema).map g) :
    (es.map fun e => (⟨e.key, f e.schema, e.span⟩ : Entry υ)).map Entry.unplaced =
      (fs.map fun e => (⟨e.key, g e.schema, e.span⟩ : Entry υ)).map Entry.unplaced := by
  induction es generalizing fs with
  | nil =>
    cases fs with
    | nil => rfl
    | cons => cases hkeys
  | cons e es ih =>
    cases fs with
    | nil => cases hkeys
    | cons e' fs =>
      simp only [List.map_cons, List.cons.injEq] at hkeys hparts ⊢
      refine ⟨?_, ih hkeys.2 hparts.2⟩
      simp only [Entry.unplaced, hkeys.1, hparts.1]

/-- **Keywords with one outline differ in their sub-schemas and in places only.** -/
theorem unplaced_map_eq {f : σ → υ} {g : τ → υ} {a : Keyword σ} {b : Keyword τ}
    (houtline : a.outline = b.outline) (hparts : a.parts.map f = b.parts.map g) :
    (a.map f).unplaced = (b.map g).unplaced := by
  cases a with
  | schema k s =>
    cases b <;> cases houtline
    simp only [parts, List.map_cons, List.map_nil, List.cons.injEq, and_true] at hparts
    simp only [map, unplaced, hparts]
  | schemas k ss =>
    cases b <;> simp only [outline, map, unplaced, reduceCtorEq, schemas.injEq] at houtline
    simp only [parts] at hparts
    simp only [map, unplaced, hparts, houtline.1]
  | entries k es =>
    cases b <;> simp only [outline, map, unplaced, reduceCtorEq, entries.injEq] at houtline
    obtain ⟨rfl, hentries⟩ := houtline
    have hkeys := congrArg (List.map Entry.key) hentries
    simp only [List.map_map, Function.comp_def, Entry.unplaced] at hkeys
    simp only [map, unplaced, map_unplaced_entries_eq hkeys hparts]
  | _ =>
    cases b <;> simp only [outline, map, unplaced, reduceCtorEq] at houtline
    injections
    simp only [map, unplaced, *]

end Keyword

/-! ## 3. The sub-schemas of a schema -/

namespace Schema

/-- A sub-schema is smaller than the schema. -/
theorem sizeOf_part_lt {schema part : Schema} {located : Located (Keyword Schema)}
    (hmem : located ∈ schema.keywords) (hpart : part ∈ located.keyword.parts) :
    sizeOf part < sizeOf schema := by
  obtain ⟨keywords, unsupported, span⟩ := schema
  obtain ⟨keyword, place⟩ := located
  have hkeyword : sizeOf part < sizeOf keyword := by
    cases keyword with
    | schema k s =>
      cases List.mem_singleton.mp hpart
      simp only [Keyword.schema.sizeOf_spec]
      omega
    | schemas k ss =>
      have hlt : sizeOf part < sizeOf ss := List.sizeOf_lt_of_mem hpart
      simp only [Keyword.schemas.sizeOf_spec]
      omega
    | entries k es =>
      obtain ⟨e, he, rfl⟩ := List.mem_map.mp hpart
      have hlt := List.sizeOf_lt_of_mem he
      obtain ⟨key, s, span⟩ := e
      simp only [Entry.mk.sizeOf_spec, Keyword.entries.sizeOf_spec] at hlt ⊢
      omega
    | _ => cases hpart
  have hlist : sizeOf (⟨keyword, place⟩ : Located (Keyword Schema)) < sizeOf keywords :=
    List.sizeOf_lt_of_mem hmem
  simp only [Located.mk.sizeOf_spec, mk.sizeOf_spec] at hlist ⊢
  omega

/-- What follows for a schema from its sub-schemas holds of every schema. -/
theorem induction_on_parts {P : Schema → Prop}
    (step : ∀ schema : Schema,
      (∀ located ∈ schema.keywords, ∀ part ∈ located.keyword.parts, P part) → P schema)
    (schema : Schema) : P schema :=
  step schema fun _ hmem part hpart =>
    have := sizeOf_part_lt hmem hpart
    induction_on_parts step part
termination_by sizeOf schema

end Schema

end SchemaCompiler
