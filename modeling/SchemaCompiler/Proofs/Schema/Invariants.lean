/-
  File:      SchemaCompiler/Proofs/Schema/Invariants.lean
  Subject:   What can be relied on in every schema that is read off a tree.

  What is made of a schema takes its counts, anchors, patterns and divisors as they stand and does
  not look at them again. `Schema.Sound` lists what it relies on, at one level.

  * `span_of_denotes`, `sound_of_denotes` -- a schema that a tree denotes stands where the tree
    stands, and is sound;
  * **`invariants_hold`** -- so is every schema inside of it, under whatever keyword. The only
    schema without a place is the one that the schema `false` refuses.
-/
import SchemaCompiler.Proofs.Schema.Nested
import SchemaCompiler.StandardPlatform

namespace SchemaCompiler

variable {engines : Engines}

/-! ## 1. The invariants -/

/-- What the value of a keyword must be. -/
def Keyword.Sound {σ : Type} : Keyword σ → Prop
  | .text .anchor name => IsAnchorName name.toList
  | .text .dynamicAnchor name => IsAnchorName name.toList
  | .text .pattern source => EndsUnescaped source.toList
  | .count _ n => n ≤ 2 ^ 53 - 1
  | .number .multipleOf n => 0 < n.value
  | .dependentRequired dependencies => ∀ d ∈ dependencies, d.required.Nodup
  | _ => True

/-- The sub-schemas have no part in it. -/
theorem Keyword.sound_map {σ τ : Type} {f : σ → τ} {keyword : Keyword σ} :
    (keyword.map f).Sound ↔ keyword.Sound := by
  cases keyword with
  | text k text => cases k <;> exact Iff.rfl
  | number k n => cases k <;> exact Iff.rfl
  | _ => exact Iff.rfl

namespace Schema

open Checked Payload

/-- **A sound schema**, its sub-schemas left aside but for their places. -/
structure Sound (schema : Schema) : Prop where
  oneAnchor : ¬ (schema.has (.text .anchor) = true ∧ schema.has (.text .dynamicAnchor) = true)
  values : ∀ located ∈ schema.keywords, located.keyword.Sound
  noDirective : ∀ located ∈ schema.keywords, ∀ d, located.keyword.kind ≠ .directive d
  placed : ∀ located ∈ schema.keywords, located.span ≠ none
  /-- A sub-schema has no place iff it is the one inside of `false`. -/
  partsPlaced : ∀ located ∈ schema.keywords, ∀ part ∈ located.keyword.parts,
    part.span = none ↔ ∃ span, schema = never span

/-! ## 2. One level -/

theorem span_of_denotes {node : Node} {schema : Schema} (h : Denotes engines node schema) :
    schema.span = some node.span := by
  cases node with
  | object members span =>
    obtain ⟨parts, -, rfl, -⟩ := denotes_object_iff.mp h
    rfl
  | boolean b span =>
    cases b with
    | true =>
      cases pure_eq_ok_iff.mp h
      rfl
    | false =>
      cases pure_eq_ok_iff.mp h
      rfl
  | array | string | number | null => exact (refuse_eq_ok_iff.mp h).elim

theorem sound_of_tells {R : Node → Schema → Prop} {node : Node} {keyword : Keyword Schema}
    (h : Tells engines R node keyword) : keyword.Sound := by
  cases h with
  | @text k text span hpermits =>
    cases k with
    | anchor | dynamicAnchor | pattern => exact hpermits
    | _ => trivial
  | @number k n span hpositive =>
    cases k with
    | multipleOf => exact hpositive rfl
    | _ => trivial
  | count _ hsafe => exact hsafe
  | dependentRequired hmembers =>
    intro d hd
    obtain ⟨m, -, hm⟩ := exists_of_mem_right hmembers hd
    cases hm with
    | mk _ hunique => exact hunique
  | _ => trivial

theorem kind_ne_directive (keyword : Keyword Schema) (d : Directive) :
    keyword.kind ≠ .directive d := by
  cases keyword <;> exact fun h => nomatch h

/-- A schema without keywords promises nothing. -/
theorem sound_of_no_keywords {schema : Schema} (h : schema.keywords = []) : schema.Sound := by
  have hnone : ∀ located, located ∉ schema.keywords := fun located => h ▸ List.not_mem_nil
  refine ⟨?_, ?_, ?_, ?_, ?_⟩
  · rw [has, h]
    exact fun hanchors => nomatch hanchors.1
  all_goals exact fun located hmem => absurd hmem (hnone located)

theorem sound_never (span : Span) : (never span).Sound where
  oneAnchor := fun h => nomatch h.1
  values := List.forall_mem_singleton.mpr trivial
  noDirective := List.forall_mem_singleton.mpr fun d => kind_ne_directive _ d
  placed := List.forall_mem_singleton.mpr fun h => nomatch h
  partsPlaced := by
    refine List.forall_mem_singleton.mpr (List.forall_mem_singleton.mpr ?_)
    exact ⟨fun _ => ⟨span, rfl⟩, fun _ => rfl⟩

/-- The parts of an object's schema are denoted by trees, so they have places, and for this very
    reason it is not the schema `false`. -/
theorem sound_of_object {members : List (Member Node)} {span : Span} {schema : Schema}
    (h : Denotes engines (.object members span) schema) : schema.Sound := by
  obtain ⟨parts, hparts, rfl, hanchors⟩ := denotes_object_iff.mp h
  have hkept := (kept_of_partTold hparts).1
  have htold : ∀ located ∈ parts.filterMap Part.active?,
      located.span ≠ none ∧ ∃ inner, Tells engines (Denotes engines) inner located.keyword := by
    intro located hmem
    obtain ⟨m, -, hm⟩ := exists_of_mem_right hkept hmem
    cases hm with
    | mk _ htells => exact ⟨fun h => (nomatch h), _, htells⟩
  have hplaced : ∀ located ∈ parts.filterMap Part.active?, ∀ part ∈ located.keyword.parts,
      part.span ≠ none := by
    intro located hmem part hpart
    obtain ⟨-, inner, htells⟩ := htold located hmem
    obtain ⟨node, hnode⟩ := exists_of_tells htells hpart
    rw [span_of_denotes hnode]
    exact fun h => nomatch h
  refine ⟨hanchors, ?_, ?_, ?_, ?_⟩
  · intro located hmem
    obtain ⟨-, inner, htells⟩ := htold located hmem
    exact sound_of_tells htells
  · exact fun located _ d => kind_ne_directive located.keyword d
  · exact fun located hmem => (htold located hmem).1
  · intro located hmem part hpart
    refine ⟨fun hnone => absurd hnone (hplaced located hmem part hpart), fun hnever => ?_⟩
    obtain ⟨span', hnever⟩ := hnever
    rw [never, mk.injEq] at hnever
    have hempty := hplaced ⟨.schema .not empty, some span'⟩ (hnever.1 ▸ List.mem_singleton_self _)
      empty (List.mem_singleton_self _)
    exact absurd rfl hempty

theorem sound_of_denotes (node : Node) (schema : Schema) (h : Denotes engines node schema) :
    schema.Sound := by
  cases node with
  | object members span => exact sound_of_object h
  | boolean b span =>
    cases b with
    | true =>
      cases pure_eq_ok_iff.mp h
      exact sound_of_no_keywords rfl
    | false =>
      cases pure_eq_ok_iff.mp h
      exact sound_never span
  | array | string | number | null => exact (refuse_eq_ok_iff.mp h).elim

/-! ## 3. All levels -/

/-- **The invariants hold at every depth**, and a schema stands where its tree stands. -/
theorem invariants_hold (engines : Engines) (node : Node) (schema : Schema)
    (h : (ofNode engines node).result = .ok schema) :
    schema.span = some node.span ∧ Throughout Sound schema :=
  ⟨span_of_denotes h, throughout_of_denotes sound_of_denotes (sound_of_no_keywords rfl) h⟩

/-- `false` inside of a list and under a key, an anchor, a count written as a double, a divisor,
    and dependencies of which one names nothing. -/
def variedNode : Node :=
  .object
    [⟨"$anchor", ⟨1, 10⟩, .string "a.1" ⟨11, 16⟩, ⟨1, 16⟩⟩,
     ⟨"allOf", ⟨17, 24⟩, .array
       [.boolean false ⟨26, 31⟩,
        .object [⟨"maxItems", ⟨33, 43⟩,
          .number (.double ⟨false, 4503599627370496, -51⟩) ⟨44, 47⟩, ⟨33, 47⟩⟩] ⟨32, 48⟩]
       ⟨25, 49⟩, ⟨17, 49⟩⟩,
     ⟨"$defs", ⟨50, 57⟩, .object
       [⟨"d", ⟨59, 62⟩, .object
         [⟨"not", ⟨64, 69⟩, .boolean false ⟨70, 75⟩, ⟨64, 75⟩⟩,
          ⟨"multipleOf", ⟨76, 88⟩, .number (.natural 5) ⟨89, 90⟩, ⟨76, 90⟩⟩] ⟨63, 91⟩, ⟨59, 91⟩⟩]
       ⟨58, 92⟩, ⟨50, 92⟩⟩,
     ⟨"dependentRequired", ⟨93, 112⟩, .object
       [⟨"x", ⟨114, 117⟩, .array [.string "y" ⟨119, 122⟩, .string "z" ⟨123, 126⟩] ⟨118, 127⟩,
         ⟨114, 127⟩⟩,
        ⟨"x", ⟨128, 131⟩, .array [] ⟨132, 134⟩, ⟨128, 134⟩⟩] ⟨113, 135⟩, ⟨93, 135⟩⟩] ⟨0, 136⟩

theorem invariants_hold_varied :
    ∃ schema, (ofNode .standard variedNode).result = .ok schema ∧ schema.keywords.length = 4 ∧
      schema.span = some ⟨0, 136⟩ ∧ Throughout Sound schema :=
  ⟨_, rfl, rfl, invariants_hold .standard variedNode _ rfl⟩

end Schema

end SchemaCompiler
