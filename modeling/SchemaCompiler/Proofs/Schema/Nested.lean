/-
  File:      SchemaCompiler/Proofs/Schema/Nested.lean
  Subject:   What holds of every schema that a tree denotes holds at every depth of it.

  * `Schema.Throughout P` -- `P` holds of a schema and of all schemas inside of it, under whatever
    keyword they stand;
  * `tells_of_denotes` -- each keyword of a denoted schema is told by some tree; the one exception
    is the `not` of the schema `false`, which stands in no source;
  * **`throughout_of_denotes`** -- so a schema that a tree denotes has denoted schemas inside, and
    the empty one.
-/
import SchemaCompiler.Proofs.Schema.Parts
import SchemaCompiler.Proofs.Schema.WellFormedness

namespace SchemaCompiler

variable {engines : Engines}

namespace Schema

open Checked Payload

/-- A property of a schema and of all schemas inside of it. -/
inductive Throughout (P : Schema → Prop) : Schema → Prop where
  | mk {schema : Schema} (here : P schema)
      (parts : ∀ located ∈ schema.keywords, ∀ part ∈ located.keyword.parts, Throughout P part) :
      Throughout P schema

theorem Throughout.here {P : Schema → Prop} {schema : Schema} (h : Throughout P schema) :
    P schema := by
  cases h with
  | mk here _ => exact here

theorem Throughout.parts {P : Schema → Prop} {schema : Schema} (h : Throughout P schema) :
    ∀ located ∈ schema.keywords, ∀ part ∈ located.keyword.parts, Throughout P part := by
  cases h with
  | mk _ parts => exact parts

/-- The sub-schemas of a keyword are those of the trees inside the one that tells it. -/
theorem exists_of_tells {R : Node → Schema → Prop} {node : Node} {keyword : Keyword Schema}
    (h : Tells engines R node keyword) {part : Schema} (hpart : part ∈ keyword.parts) :
    ∃ inner, R inner part := by
  cases h with
  | schema hschema =>
    cases List.mem_singleton.mp hpart
    exact ⟨node, hschema⟩
  | schemas hitems =>
    obtain ⟨item, -, hitem⟩ := exists_of_mem_right hitems hpart
    exact ⟨item, hitem⟩
  | entries hmembers =>
    obtain ⟨entry, hentry, rfl⟩ := List.mem_map.mp hpart
    obtain ⟨m, -, hm⟩ := exists_of_mem_right hmembers hentry
    cases hm with
    | mk hschema => exact ⟨_, hschema⟩
  | _ => cases hpart

theorem tells_of_denotes {node : Node} {schema : Schema} (h : Denotes engines node schema)
    {located : Located (Keyword Schema)} (hmem : located ∈ schema.keywords) :
    located.keyword = .schema .not empty ∨
      ∃ inner, Tells engines (Denotes engines) inner located.keyword := by
  cases node with
  | object members span =>
    obtain ⟨parts, hparts, rfl, -⟩ := denotes_object_iff.mp h
    obtain ⟨m, -, hm⟩ := exists_of_mem_right (kept_of_partTold hparts).1 hmem
    cases hm with
    | mk _ htells => exact .inr ⟨_, htells⟩
  | boolean b span =>
    cases b with
    | true =>
      cases pure_eq_ok_iff.mp h
      cases hmem
    | false =>
      cases pure_eq_ok_iff.mp h
      cases List.mem_singleton.mp hmem
      exact .inl rfl
  | array | string | number | null => exact (refuse_eq_ok_iff.mp h).elim

/-- **What holds of every denoted schema, and of the empty one, holds throughout.** -/
theorem throughout_of_denotes {P : Schema → Prop}
    (hdenoted : ∀ node schema, Denotes engines node schema → P schema) (hempty : P empty)
    {node : Node} {schema : Schema} (h : Denotes engines node schema) : Throughout P schema := by
  have hthroughout : Throughout P empty := .mk hempty fun _ hmem => nomatch hmem
  induction schema using induction_on_parts generalizing node with
  | step schema ih =>
    refine .mk (hdenoted node schema h) fun located hmem part hpart => ?_
    obtain heq | ⟨inner, htells⟩ := tells_of_denotes h hmem
    · rw [heq] at hpart
      cases List.mem_singleton.mp hpart
      exact hthroughout
    · obtain ⟨inner, hinner⟩ := exists_of_tells htells hpart
      exact ih located hmem part hpart hinner

end Schema

end SchemaCompiler
