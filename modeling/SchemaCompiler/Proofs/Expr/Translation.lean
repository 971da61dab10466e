/-
  File:      SchemaCompiler/Proofs/Expr/Translation.lean
  Subject:   The expression of a schema accepts exactly the valid values.

  * `accepts_ofKeywords`: the call that keywords give accepts a value iff every keyword holds of
    it, each sub-schema asking what its call accepts.
  * **`valid_iff_accepts`**: by induction over the schema, a value is valid iff the expression
    accepts it, for the schemas that use the keywords of `KeywordKind.lowered` only.

  The equivalence goes through `not`, because it is one at every sub-schema.
-/
import SchemaCompiler.Proofs.Expr.Branches

namespace SchemaCompiler

/-! ## 1. The expression of a schema, from its keywords -/

namespace Call

theorem schemaCalls_eq (schemas : List Schema) : schemaCalls schemas = schemas.map ofSchema := by
  induction schemas with
  | nil => rfl
  | cons s ss ih => rw [schemaCalls, ih, List.map_cons]

theorem entryCalls_eq (entries : List (Entry Schema)) :
    entryCalls entries = entries.map fun e => ⟨e.key, ofSchema e.schema, e.span⟩ := by
  induction entries with
  | nil => rfl
  | cons e es ih => rw [entryCalls, ih, List.map_cons]

theorem keywordCalls_eq (keywords : List (Located (Keyword Schema))) :
    keywordCalls keywords = (keywords.map Located.keyword).map (Keyword.map ofSchema) := by
  induction keywords with
  | nil => rfl
  | cons l ls ih =>
    obtain ⟨keyword, span⟩ := l
    cases keyword <;>
      simp only [keywordCalls, ih, List.map_cons, Keyword.map, schemaCalls_eq, entryCalls_eq]

theorem ofSchema_mk (keywords : List (Located (Keyword Schema))) (unsupported : List Parked)
    (span : Option Span) :
    ofSchema (.mk keywords unsupported span) =
      ofKeywords ((keywords.map Located.keyword).map (Keyword.map ofSchema)) := by
  rw [ofSchema, keywordCalls_eq]

end Call

/-! ## 2. No expression of a schema is optional -/

namespace Branch

theorem func_refineBy_ne {α : Type} {func other : Func} {value? : Option α}
    {refine : Call → α → Call} {c : Call} (hc : c.func ≠ func)
    (hrefine : ∀ c a, (refine c a).func = other) (hother : other ≠ func) :
    (refineBy value? refine c).func ≠ func := by
  cases value? with
  | none => exact hc
  | some a =>
    rw [refineBy, hrefine]
    exact hother

theorem func_ofType_ne_optional {anyName : Call} {keywords : List (Keyword Call)}
    {type : PrimitiveType} : (ofType anyName keywords type).func ≠ .optional := by
  cases type with
  | string =>
    refine func_refineBy_ne ?_ (fun _ _ => rfl) (by decide)
    split
    · exact (by decide : Func.size ≠ .optional)
    · exact (by decide : Func.string ≠ .optional)
  | number =>
    iterate 5 refine func_refineBy_ne ?_ (fun _ _ => rfl) (by decide)
    exact (by decide : Func.number ≠ .optional)
  | integer =>
    iterate 5 refine func_refineBy_ne ?_ (fun _ _ => rfl) (by decide)
    exact (by decide : Func.integer ≠ .optional)
  | object =>
    rw [ofType, object]
    split
    · iterate 4 refine func_refineBy_ne ?_ (fun _ _ => rfl) (by decide)
      exact (by decide : Func.type ≠ .optional)
    · exact (by decide : Func.intersection ≠ .optional)
  | array => exact (by decide : Func.array ≠ .optional)
  | boolean => exact (by decide : Func.boolean ≠ .optional)
  | null => exact (by decide : Func.literal ≠ .optional)

end Branch

namespace Call

theorem func_oneOfBranches_ne_optional {branches : List Call}
    (h : ∀ c ∈ branches, c.func ≠ .optional) : (oneOfBranches branches).func ≠ .optional := by
  match branches with
  | [] => exact (by decide : Func.never ≠ .optional)
  | [c] => exact h c (List.mem_singleton_self c)
  | _ :: _ :: _ => exact (by decide : Func.union ≠ .optional)

theorem func_ofSchema_ne_optional (schema : Schema) : (ofSchema schema).func ≠ .optional := by
  obtain ⟨keywords, unsupported, span⟩ := schema
  rw [ofSchema_mk, ofKeywords]
  split
  · split
    · exact (by decide : Func.intersection ≠ .optional)
    · exact func_oneOfBranches_ne_optional
        (List.forall_mem_map.mpr fun _ _ => Branch.func_ofType_ne_optional)
  · exact (by decide : Func.unknown ≠ .optional)

end Call

/-! ## 3. The call of some keywords -/

section Keywords

open Branch Call Keywords

variable {matching : String → String → Prop} {siblings : List (Keyword (Datum → Prop))}
  {keywords : List (Keyword Call)} {v : Datum}

/-- A keyword that does not constrain holds of every value. -/
theorem holds_of_not_validation {keyword : Keyword (Datum → Prop)}
    (h : keyword.kind.keywordClass ≠ .validation) : keyword.Holds matching siblings v := by
  cases keyword with
  | text k _ =>
    cases k with
    | pattern => exact absurd rfl h
    | _ => cases v <;> trivial
  | entries k _ =>
    cases k with
    | defs => cases v <;> trivial
    | _ => exact absurd rfl h
  | schemas | data | flag => cases v <;> trivial
  | _ => exact absurd rfl h

/-- Every keyword holds: the value has one of the types, is not what must not be, and the keywords
    about its type admit it. -/
theorem forall_holds_iff :
    (∀ keyword ∈ keywords, (keyword.map (Call.Accepts matching)).Holds matching siblings v) ↔
      (∀ ts, .types ts ∈ keywords → ∃ type ∈ ts, v.HasType type) ∧
      (∀ c, .schema .not c ∈ keywords → ¬ c.Accepts matching v) ∧
      AllAdmit matching siblings keywords v := by
  constructor
  · intro h
    refine ⟨fun ts hmem => h _ hmem, fun c hmem => h _ hmem, fun keyword hmem => ?_⟩
    have hholds := h keyword hmem
    cases keyword with
    | types ts => cases v <;> trivial
    | schema k c =>
      cases k with
      | not => cases v <;> trivial
      | _ => exact hholds
    | _ => exact hholds
  · intro hparts keyword hmem
    obtain ⟨htypes, hnot, hall⟩ := hparts
    have hadmits := hall keyword hmem
    cases keyword with
    | types ts => exact htypes ts hmem
    | schema k c =>
      cases k with
      | not => exact hnot c hmem
      | _ => exact hadmits
    | _ => exact hadmits

theorem accepts_oneOfBranches {branches : List Call} :
    (oneOfBranches branches).Accepts matching v ↔ ∃ c ∈ branches, c.Accepts matching v := by
  match branches with
  | [] => exact ⟨fun h => absurd h not_accepts_never, fun ⟨_, hmem, _⟩ => (nomatch hmem)⟩
  | [c] =>
    simp only [oneOfBranches, List.mem_singleton, exists_eq_left]
  | _ :: _ :: _ => exact accepts_union

/-- The branches of the types accept the values that have one of the types and meet `P`, if each
    branch accepts the values of its type that meet `P`. -/
theorem accepts_typed {anyName : Call} {P : Prop} (once : (keywords.map Keyword.kind).Nodup)
    (hbranch : ∀ type, (Branch.ofType anyName keywords type).Accepts matching v ↔
      v.HasType type ∧ P) :
    (oneOfBranches (((types? keywords).getD PrimitiveType.all).map
        (Branch.ofType anyName keywords))).Accepts matching v ↔
      (∀ ts, .types ts ∈ keywords → ∃ type ∈ ts, v.HasType type) ∧ P := by
  have htypes : (∃ type ∈ (types? keywords).getD PrimitiveType.all, v.HasType type) ↔
      ∀ ts, .types ts ∈ keywords → ∃ type ∈ ts, v.HasType type := by
    simp only [← types?_eq_some_iff once]
    cases types? keywords with
    | none => exact ⟨fun _ _ h => (nomatch h), fun _ => v.exists_hasType⟩
    | some ts => exact ⟨fun h _ hts => Option.some.inj hts ▸ h, fun h => h ts rfl⟩
  rw [accepts_oneOfBranches, ← htypes]
  simp only [List.mem_map, exists_exists_and_eq_and]
  constructor
  · intro haccepts
    obtain ⟨type, hmem, haccepts⟩ := haccepts
    obtain ⟨htype, hp⟩ := (hbranch type).mp haccepts
    exact ⟨⟨type, hmem, htype⟩, hp⟩
  · intro hboth
    obtain ⟨⟨type, hmem, htype⟩, hp⟩ := hboth
    exact ⟨type, hmem, (hbranch type).mpr ⟨htype, hp⟩⟩

/-- **The call of some keywords accepts a value of one of the types that is not what must not be
    and meets `P`**, if each branch accepts the values of its type that meet `P`. Without a
    constraint `P` has to hold anyway. -/
theorem accepts_ofBranches {P : Prop} (once : (keywords.map Keyword.kind).Nodup)
    (hbranch : ∀ type, (Branch.ofType anyType keywords type).Accepts matching v ↔
      v.HasType type ∧ P)
    (hfree : (∀ keyword ∈ keywords, keyword.kind.keywordClass ≠ .validation) → P) :
    (ofKeywords keywords).Accepts matching v ↔
      (∀ ts, .types ts ∈ keywords → ∃ type ∈ ts, v.HasType type) ∧
      (∀ c, .schema .not c ∈ keywords → ¬ c.Accepts matching v) ∧ P := by
  rw [ofKeywords]
  split
  · simp only [← schema?_eq_some_iff once]
    cases schema? .not keywords with
    | none =>
      rw [accepts_typed once hbranch]
      exact ⟨fun h => ⟨h.1, fun _ hc => (nomatch hc), h.2⟩, fun h => ⟨h.1, h.2.2⟩⟩
    | some c =>
      simp only [accepts_intersection, List.forall_mem_cons, accepts_typed once hbranch,
        accepts_not]
      constructor
      · intro harms
        obtain ⟨⟨htypes, hp⟩, hnot, -⟩ := harms
        exact ⟨htypes, fun _ hc => Option.some.inj hc ▸ hnot, hp⟩
      · intro hparts
        obtain ⟨htypes, hnot, hp⟩ := hparts
        exact ⟨⟨htypes, hp⟩, hnot c rfl, fun _ h => (nomatch h)⟩
  · next hnone =>
    have hclass : ∀ keyword ∈ keywords, keyword.kind.keywordClass ≠ .validation := by
      intro keyword hmem hclass
      exact hnone (List.any_eq_true.mpr ⟨keyword, hmem, decide_eq_true hclass⟩)
    refine ⟨fun _ => ⟨fun ts hmem => ?_, fun c hmem => ?_, hfree hclass⟩, fun _ => accepts_unknown⟩
    · exact absurd rfl (hclass _ hmem)
    · exact absurd rfl (hclass _ hmem)

variable (siblings) in
/-- **The call of some keywords accepts a value iff every keyword holds of it.** -/
theorem accepts_ofKeywords (among : KeywordsAmong KeywordKind.lowered keywords)
    (hplain : ∀ es, .entries .properties es ∈ keywords → ∀ e ∈ es, e.schema.func ≠ .optional) :
    (ofKeywords keywords).Accepts matching v ↔
      ∀ keyword ∈ keywords, (keyword.map (Call.Accepts matching)).Holds matching siblings v := by
  rw [forall_holds_iff]
  refine accepts_ofBranches among.once (fun type => accepts_ofType among hplain) fun hclass => ?_
  refine (forall_holds_iff.mp fun keyword hmem => holds_of_not_validation ?_).2.2
  rw [Keyword.kind_map]
  exact hclass keyword hmem

end Keywords

/-! ## 4. Schemas -/

/-- Only `additionalProperties` looks at the keywords beside it. -/
theorem holds_siblings {matching : String → String → Prop} {keyword : Keyword (Datum → Prop)}
    (h : keyword.kind ≠ .schema .additionalProperties)
    (siblings siblings' : List (Keyword (Datum → Prop))) {v : Datum} :
    keyword.Holds matching siblings v ↔ keyword.Holds matching siblings' v := by
  cases keyword with
  | schema k _ =>
    cases k with
    | additionalProperties => exact absurd rfl h
    | _ => cases v <;> exact Iff.rfl
  | text k _ => cases k <;> cases v <;> exact Iff.rfl
  | count k _ => cases k <;> cases v <;> exact Iff.rfl
  | entries k _ => cases k <;> cases v <;> exact Iff.rfl
  | _ => cases v <;> exact Iff.rfl

/-- A keyword asks the same whichever way its sub-schemas are read, if the two ways agree on the
    sub-schemas under the lowered keywords. -/
theorem holds_map_congr {σ : Type} {matching : String → String → Prop} {keyword : Keyword σ}
    {keywords : List (Keyword σ)} (among : KeywordsAmong KeywordKind.lowered keywords)
    (hmem : keyword ∈ keywords) {f g : σ → Datum → Prop}
    (hschemas : ∀ k s, keyword = .schema k s → .schema k ∈ KeywordKind.lowered → f s = g s)
    (hentries : ∀ k es, keyword = .entries k es → .entries k ∈ KeywordKind.lowered →
      ∀ e ∈ es, f e.schema = g e.schema)
    (siblings siblings' : List (Keyword (Datum → Prop))) {v : Datum} :
    (keyword.map f).Holds matching siblings v ↔ (keyword.map g).Holds matching siblings' v := by
  have hsiblings : (keyword.map g).Holds matching siblings v ↔
      (keyword.map g).Holds matching siblings' v := by
    refine holds_siblings ?_ siblings siblings'
    rw [Keyword.kind_map]
    exact among.kind_ne (.schema .additionalProperties) rfl (by decide) hmem
  refine Iff.trans ?_ hsiblings
  cases keyword with
  | schema k s =>
    have hread : f s = g s := hschemas k s rfl (among.among _ hmem rfl)
    rw [Keyword.map, Keyword.map, hread]
  | schemas k ss =>
    cases k with
    | prefixItems => exact absurd rfl (among.noReference _ hmem).2.2
    | _ => cases v <;> exact Iff.rfl
  | entries k es =>
    cases k with
    | properties =>
      have hread : es.map (fun e => (⟨e.key, f e.schema, e.span⟩ : Entry (Datum → Prop))) =
          es.map fun e => ⟨e.key, g e.schema, e.span⟩ := by
        refine List.map_congr_left fun e he => ?_
        rw [hentries .properties es rfl (by decide) e he]
      rw [Keyword.map, Keyword.map, hread]
    | patternProperties =>
      exact absurd rfl (among.kind_ne (.entries .patternProperties) rfl (by decide) hmem)
    | _ => cases v <;> exact Iff.rfl
  | _ => exact Iff.rfl

/-- **The expression of a schema accepts exactly the values that are valid against it**, for every
    schema that constrains by the lowered keywords only, whatever the regular expressions match. -/
theorem valid_iff_accepts (matching : String → String → Prop) {schema : Schema}
    (hschema : schema.UsesOnly KeywordKind.lowered) (v : Datum) :
    schema.Valid matching v ↔ (Call.ofSchema schema).Accepts matching v := by
  induction hschema generalizing v with
  | mk keywords unsupported span among _ _ hschemas hentries =>
    have hplain : ∀ es, .entries .properties es ∈
        (keywords.map Located.keyword).map (Keyword.map Call.ofSchema) →
        ∀ e ∈ es, e.schema.func ≠ .optional := by
      intro es hmem
      obtain ⟨keyword, -, heq⟩ := List.mem_map.mp hmem
      obtain ⟨es', -, rfl⟩ := Keyword.map_eq_entries_iff.mp heq
      exact List.forall_mem_map.mpr fun e _ => Call.func_ofSchema_ne_optional e.schema
    rw [Call.ofSchema_mk, accepts_ofKeywords [] (among.map Call.ofSchema) hplain, Schema.Valid,
      Schema.fold_mk]
    refine List.forall_mem_map.trans (Iff.trans ?_ List.forall_mem_map.symm)
    refine forall₂_congr fun keyword hmem => ?_
    rw [Keyword.map_map]
    -- The induction hypotheses are about the sub-schemas under lowered keywords, which is all that
    -- a keyword reads of them.
    refine holds_map_congr among hmem ?_ ?_ _ _
    · intro k s heq2 hlowered
      subst heq2
      exact funext fun x => propext (hschemas k s hmem hlowered x)
    · intro k es heq2 hlowered e he
      subst heq2
      exact funext fun x => propext (hentries k es hmem hlowered e he x)

/-- A schema of which the members named `tag` must not be strings, and one must be there. -/
def untexted : Schema :=
  let text : Schema := .mk [⟨.types [.string], none⟩] [] none
  let noText : Schema := .mk [⟨.schema .not text, none⟩] [] none
  .mk [⟨.required ["tag"], none⟩, ⟨.entries .properties [⟨"tag", noText, ⟨0, 0⟩⟩], none⟩] [] none

theorem accepts_untexted :
    untexted.UsesOnly KeywordKind.lowered ∧
      (Call.ofSchema untexted).Accepts (fun _ _ => False) (.object [("tag", .number 1)]) ∧
      ¬ (Call.ofSchema untexted).Accepts (fun _ _ => False) (.object [("tag", .string "1")]) := by
  have hfragment : untexted.UsesOnly KeywordKind.lowered := by
    refine .mk _ _ _ ⟨by decide, by decide, by decide, ?_, ?_⟩ ?_ ?_
    · simp
    · simp
    · simp
    · simp only [List.map_cons, List.map_nil, List.mem_cons, List.not_mem_nil]
      intro k es hmem _ e he
      rcases hmem with h | h | h
      · cases h
      · cases h
        cases List.mem_singleton.mp he
        refine .mk _ _ _ ⟨by decide, by decide, by decide, by simp, by simp⟩ ?_ (by simp)
        intro k s hmem _
        cases List.mem_singleton.mp hmem
        exact .mk _ _ _ ⟨by decide, by decide, by decide, by simp, by simp⟩ (by simp) (by simp)
      · cases h
  refine ⟨hfragment, (valid_iff_accepts _ hfragment _).mp ?_,
    fun h => absurd ((valid_iff_accepts _ hfragment _).mpr h) ?_⟩
  · simp [untexted, Schema.Valid, Schema.fold_mk, Keyword.map, Keyword.Holds, Keyword.Admits,
      Datum.HasType]
  · simp [untexted, Schema.Valid, Schema.fold_mk, Keyword.map, Keyword.Holds, Keyword.Admits,
      Datum.HasType]

end SchemaCompiler
