/-
  File:      SchemaCompiler/Proofs/Schema/Faithfulness.lean
  Subject:   A schema says what its tree says: nothing is lost, made up or reordered.

  * `Schema.Faithful`: at every level, the keywords of the schema are the members with a kept name,
    one by one and in order, each telling what the member tells; all other members are set aside
    as they stand, in order; and each sub-schema is what its own tree denotes.
  * `denotes_object_iff`: what an object denotes is made of what its members become.
  * **`ofNode_faithful`**: every schema is faithful to the tree it is read off.

  Nothing is asked of the names, so a name that stands twice is covered.
-/
import SchemaCompiler.Proofs.Schema.Members
import SchemaCompiler.StandardPlatform

namespace SchemaCompiler

variable {engines : Engines}

namespace Schema

open Checked Payload

/-! ## 1. Faithful schemas -/

/-- Whether members with a name become keywords: the name is recognized and no directive. -/
def isKeptName (name : String) : Bool :=
  (KeywordKind.ofName? name).isSome && name != "$schema" && name != "$vocabulary"

/-- A member set aside: as it stands, with the reason that its name gives. -/
def parkedOf (m : Member Node) : Parked where
  name := m.key
  value := m.value
  span := m.span
  reason := if (KeywordKind.ofName? m.key).isSome then .notYetSupported else .unknown

/-- A member and its keyword: the keyword has the name and the span of the member, and is what the
    value of the member tells. -/
inductive Kept (engines : Engines) (R : Node → Schema → Prop) :
    Member Node → Located (Keyword Schema) → Prop where
  | mk {key : String} {keySpan span : Span} {value : Node} {keyword : Keyword Schema} :
      keyword.kind.name = key → Tells engines R value keyword →
      Kept engines R ⟨key, keySpan, value, span⟩ ⟨keyword, some span⟩

/-- **A schema that says what its tree says, at every level.** -/
inductive Faithful (engines : Engines) : Node → Schema → Prop where
  | always {span : Span} : Faithful engines (.boolean true span) (always span)
  | never {span : Span} : Faithful engines (.boolean false span) (never span)
  | object {members : List (Member Node)} {keywords : List (Located (Keyword Schema))}
      {unsupported : List Parked} {span : Span}
      (alone : (ofNode engines (.object members span)).result =
        .ok (.mk keywords unsupported (some span)))
      (kept : List.Forall₂ (Kept engines (Faithful engines))
        (members.filter fun m => isKeptName m.key) keywords)
      (others : unsupported = (members.filter fun m => !isKeptName m.key).map parkedOf) :
      Faithful engines (.object members span) (.mk keywords unsupported (some span))

/-! ## 2. One level -/

theorem isKeptName_name {kind : KeywordKind} :
    isKeptName kind.name = true ↔ ∀ d, kind ≠ .directive d := by
  have hrecognized : (KeywordKind.ofName? kind.name).isSome = true := by
    rw [KeywordKind.ofName?_eq_some_iff.mpr rfl]
    rfl
  have hdirective : ∀ d : Directive, kind.name ≠ (KeywordKind.directive d).name ↔
      kind ≠ .directive d := by
    intro d
    exact not_congr ⟨KeywordKind.eq_of_name_eq, fun h => h ▸ rfl⟩
  rw [isKeptName, hrecognized, Bool.true_and, Bool.and_eq_true, bne_iff_ne, bne_iff_ne]
  constructor
  · intro h d
    cases d with
    | schema => exact (hdirective .schema).mp h.1
    | vocabulary => exact (hdirective .vocabulary).mp h.2
  · intro h
    exact ⟨(hdirective .schema).mpr (h .schema), (hdirective .vocabulary).mpr (h .vocabulary)⟩

/-- The names that tell no keyword: what is not recognized, and the directives. -/
theorem PartTold.cases {m : Member Node} {part : Part} (h : PartTold engines m part) :
    (isKeptName m.key = true ∧ ∃ l, part = .active l ∧ Kept engines (Denotes engines) m l) ∨
      (isKeptName m.key = false ∧ part = .parked (parkedOf m)) := by
  cases h with
  | unknown hname =>
    have hnone : KeywordKind.ofName? m.key = none :=
      Option.eq_none_iff_forall_ne_some.mpr fun kind h =>
        hname kind (KeywordKind.ofName?_eq_some_iff.mp h)
    refine Or.inr ⟨?_, ?_⟩
    · rw [isKeptName, hnone]
      rfl
    · rw [parkedOf, hnone]
      rfl
  | @directive d hname htext =>
    refine Or.inr ⟨?_, ?_⟩
    · rw [← hname, ← Bool.not_eq_true, isKeptName_name]
      exact fun h => h d rfl
    · rw [parkedOf, KeywordKind.ofName?_eq_some_iff.mpr hname]
      rfl
  | @keyword keyword hname htells =>
    refine Or.inl ⟨?_, _, rfl, .mk hname htells⟩
    rw [← hname, isKeptName_name]
    intro d
    cases keyword <;> exact fun h => (nomatch h)

/-- The members of an object and what they become, the keywords and the rest apart. -/
theorem kept_of_partTold {members : List (Member Node)} {parts : List Part}
    (h : List.Forall₂ (PartTold engines) members parts) :
    List.Forall₂ (Kept engines (Denotes engines)) (members.filter fun m => isKeptName m.key)
        (parts.filterMap Part.active?) ∧
      parts.filterMap Part.parked? =
        (members.filter fun m => !isKeptName m.key).map parkedOf := by
  induction h with
  | nil => exact ⟨.nil, rfl⟩
  | @cons m part members parts hm _ ih =>
    obtain ⟨hkept, hparked⟩ := ih
    rcases hm.cases with ⟨hname, l, rfl, hl⟩ | ⟨hname, rfl⟩
    · simp only [List.filter_cons, hname, ↓reduceIte, Bool.not_true, Bool.false_eq_true]
      exact ⟨.cons hl hkept, hparked⟩
    · simp only [List.filter_cons, hname, ↓reduceIte, Bool.not_false, Bool.false_eq_true,
        List.map_cons, ← hparked]
      exact ⟨hkept, rfl⟩

theorem ofParts_eq_ok_iff {parts : List Part} {span : Span} {schema : Schema} :
    (ofParts parts span).result = .ok schema ↔
      schema = .mk (parts.filterMap Part.active?) (parts.filterMap Part.parked?) (some span) ∧
        ¬ (schema.has (.text .anchor) = true ∧ schema.has (.text .dynamicAnchor) = true) := by
  rw [ofParts, ← Bool.and_eq_true]
  constructor
  · intro h
    split at h
    · exact (refuse_eq_ok_iff.mp h).elim
    · next hanchors =>
      cases pure_eq_ok_iff.mp h
      exact ⟨rfl, hanchors⟩
  · intro h
    obtain ⟨rfl, hanchors⟩ := h
    rw [if_neg hanchors]
    exact pure_eq_ok_iff.mpr rfl

/-- **What an object denotes**: the schema of what its members become, if it does not have anchors
    of both kinds. -/
theorem denotes_object_iff {members : List (Member Node)} {span : Span} {schema : Schema} :
    Denotes engines (.object members span) schema ↔
      ∃ parts, List.Forall₂ (PartTold engines) members parts ∧
      schema = .mk (parts.filterMap Part.active?) (parts.filterMap Part.parked?) (some span) ∧
      ¬ (schema.has (.text .anchor) = true ∧ schema.has (.text .dynamicAnchor) = true) := by
  simp only [Denotes, ofNode, partsOf_eq_mapM, bind_eq_ok_iff, mapM_eq_ok_iff, partOf_eq_ok_iff,
    ofParts_eq_ok_iff]

/-! ## 3. All levels -/

/-- What a tree tells depends on the trees in it only. -/
theorem tells_mono {R R' : Node → Schema → Prop} {node : Node} {keyword : Keyword Schema}
    (h : Tells engines R node keyword)
    (hinner : ∀ inner schema, inner.depth ≤ node.depth → R inner schema → R' inner schema) :
    Tells engines R' node keyword := by
  cases h with
  | text hpermits => exact .text hpermits
  | schema hschema => exact .schema (hinner _ _ le_rfl hschema)
  | @schemas k items span schemas hitems =>
    refine .schemas (forall₂_imp_of_mem hitems fun item hitem schema hschema => ?_)
    exact hinner item schema (Node.depth_item_lt span hitem).le hschema
  | @entries k members span entries hmembers =>
    refine .entries (forall₂_imp_of_mem hmembers fun m hm entry hentry => ?_)
    cases hentry with
    | mk hschema => exact .mk (hinner _ _ (Node.depth_value_lt span hm).le hschema)
  | type => exact .type
  | types hitems => exact .types hitems
  | enum => exact .enum
  | data => exact .data
  | number hpositive => exact .number hpositive
  | count hvalue hsafe => exact .count hvalue hsafe
  | flag => exact .flag
  | required hitems => exact .required hitems
  | dependentRequired hmembers => exact .dependentRequired hmembers

/-- One level more: an object denotes a faithful schema if all that is less deep does. -/
theorem faithful_object {members : List (Member Node)} {span : Span} {schema : Schema}
    (h : Denotes engines (.object members span) schema)
    (ih : ∀ inner : Node, inner.depth < (Node.object members span).depth →
      ∀ schema, Denotes engines inner schema → Faithful engines inner schema) :
    Faithful engines (.object members span) schema := by
  obtain ⟨parts, hparts, rfl, -⟩ := denotes_object_iff.mp h
  obtain ⟨hkept, hothers⟩ := kept_of_partTold hparts
  refine .object h (forall₂_imp_of_mem hkept fun m hm located hlocated => ?_) hothers
  have hdepth := Node.depth_value_lt span (List.mem_of_mem_filter hm)
  cases hlocated with
  | mk hname htells =>
    refine .mk hname (tells_mono htells fun inner schema hinner hdenotes => ?_)
    exact ih inner (hinner.trans_lt hdepth) schema hdenotes

/-- **Every schema is faithful to the tree it is read off**, at every level. -/
theorem ofNode_faithful (engines : Engines) (node : Node) (schema : Schema)
    (h : (ofNode engines node).result = .ok schema) : Faithful engines node schema := by
  induction node using Node.induction_on_depth generalizing schema with
  | step node ih =>
    cases node with
    | object members span => exact faithful_object h ih
    | boolean b span =>
      cases b with
      | true =>
        cases pure_eq_ok_iff.mp h
        exact .always
      | false =>
        cases pure_eq_ok_iff.mp h
        exact .never
    | array | string | number | null => exact (refuse_eq_ok_iff.mp h).elim

/-- A schema with a directive, an unknown member, a repeated type, a repeated property, and a
    sub-schema of each form. -/
def repetitive : Node :=
  .object
    [⟨"$schema", ⟨1, 10⟩, .string "s" ⟨11, 14⟩, ⟨1, 14⟩⟩,
     ⟨"type", ⟨15, 21⟩, .array [.string "null" ⟨23, 29⟩, .string "null" ⟨30, 36⟩] ⟨22, 37⟩,
       ⟨15, 37⟩⟩,
     ⟨"x", ⟨38, 41⟩, .null ⟨42, 46⟩, ⟨38, 46⟩⟩,
     ⟨"properties", ⟨47, 59⟩, .object
       [⟨"a", ⟨61, 64⟩, .boolean false ⟨65, 70⟩, ⟨61, 70⟩⟩,
        ⟨"a", ⟨71, 74⟩, .object [⟨"y", ⟨76, 79⟩, .null ⟨80, 84⟩, ⟨76, 84⟩⟩] ⟨75, 85⟩, ⟨71, 85⟩⟩]
       ⟨60, 86⟩, ⟨47, 86⟩⟩,
     ⟨"maxItems", ⟨87, 97⟩, .number (.natural 2) ⟨98, 99⟩, ⟨87, 99⟩⟩] ⟨0, 100⟩

theorem ofNode_faithful_repetitive :
    ∃ schema, (ofNode .standard repetitive).result = .ok schema ∧ schema.keywords.length = 3 ∧
      schema.unsupported.length = 2 ∧ Faithful .standard repetitive schema := by
  exact ⟨_, rfl, rfl, rfl, ofNode_faithful .standard repetitive _ rfl⟩

end Schema

end SchemaCompiler
