/-
  File:      SchemaCompiler/Proofs/Schema/WellFormedness.lean
  Subject:   Exactly the well-formed trees are schemas.

  * `Schema.Suits`: the rule of each keyword for the tree under it, one constructor a rule.
  * `Schema.IsSchema`: a boolean, or an object whose members all suit the keyword of their name, and
    which does not have anchors of both kinds. A member whose name is no keyword is never looked at.
  * **`accepted_iff_isSchema`**: a tree is accepted iff it is a schema in this sense, whatever was
    recorded before.

  Both directions go by the depth of the tree: what an object asks of its members it asks of trees
  that are less deep.
-/
import SchemaCompiler.Proofs.Schema.Faithfulness

namespace SchemaCompiler

variable {engines : Engines}

/-! ## 1. Pairwise related lists -/

section Pairwise

variable {α β : Type} {R : α → β → Prop} {xs : List α} {ys : List β}

theorem exists_of_mem_right (h : List.Forall₂ R xs ys) {y : β} (hy : y ∈ ys) :
    ∃ x ∈ xs, R x y := by
  induction h with
  | nil => cases hy
  | @cons x z xs ys hxz _ ih =>
    rcases List.mem_cons.mp hy with rfl | hy
    · exact ⟨x, List.mem_cons_self, hxz⟩
    · obtain ⟨x', hx', hR⟩ := ih hy
      exact ⟨x', List.mem_cons_of_mem _ hx', hR⟩

theorem exists_of_mem_left (h : List.Forall₂ R xs ys) {x : α} (hx : x ∈ xs) :
    ∃ y ∈ ys, R x y :=
  exists_of_mem_right h.flip hx

theorem exists_forall₂ (h : ∀ x ∈ xs, ∃ y, R x y) : ∃ ys, List.Forall₂ R xs ys := by
  induction xs with
  | nil => exact ⟨[], .nil⟩
  | cons x xs ih =>
    obtain ⟨hx, hxs⟩ := List.forall_mem_cons.mp h
    obtain ⟨y, hy⟩ := hx
    obtain ⟨ys, hys⟩ := ih hxs
    exact ⟨y :: ys, .cons hy hys⟩

end Pairwise

namespace Schema

open Checked Payload

/-! ## 2. The rules -/

/-- **What a keyword asks of the tree under it**, where `P` is what it asks of a sub-schema. -/
inductive Suits (engines : Engines) (P : Node → Prop) : KeywordKind → Node → Prop where
  | schemaDirective {text : String} {span : Span} :
      Suits engines P (.directive .schema) (.string text span)
  | vocabularyDirective {node : Node} : Suits engines P (.directive .vocabulary) node
  | text {k : TextKeyword} {text : String} {span : Span} :
      k.Permits engines text → Suits engines P (.text k) (.string text span)
  | entries {k : MapKeyword} {members : List (Member Node)} {span : Span} :
      (∀ m ∈ members, P m.value) → Suits engines P (.entries k) (.object members span)
  | schema {k : SchemaKeyword} {node : Node} : P node → Suits engines P (.schema k) node
  | schemas {k : ListKeyword} {items : List Node} {span : Span} :
      (∀ item ∈ items, P item) → Suits engines P (.schemas k) (.array items span)
  | type {type : PrimitiveType} {span : Span} : Suits engines P .types (.string type.name span)
  | types {items : List Node} {span : Span} :
      (∀ item ∈ items, ∃ type : PrimitiveType, item.IsText type.name) →
      Suits engines P .types (.array items span)
  | enum {items : List Node} {span : Span} : Suits engines P .enum (.array items span)
  | data {k : DataKeyword} {node : Node} : Suits engines P (.data k) node
  | multipleOf {n : Number} {span : Span} :
      0 < n.value → Suits engines P (.number .multipleOf) (.number n span)
  | bound {k : NumberKeyword} {n : Number} {span : Span} :
      k ≠ .multipleOf → Suits engines P (.number k) (.number n span)
  | count {k : CountKeyword} {n : Number} {span : Span} {count : Nat} :
      n.value = count → count ≤ 2 ^ 53 - 1 → Suits engines P (.count k) (.number n span)
  | flag {k : FlagKeyword} {b : Bool} {span : Span} : Suits engines P (.flag k) (.boolean b span)
  | required {items : List Node} {span : Span} :
      (∀ item ∈ items, ∃ name, item.IsText name) → Suits engines P .required (.array items span)
  | dependentRequired {members : List (Member Node)} {span : Span} :
      (∀ m ∈ members, ∃ names, m.value.ListsTexts names ∧ names.Nodup) →
      Suits engines P .dependentRequired (.object members span)

/-- **The trees that are schemas.** -/
inductive IsSchema (engines : Engines) : Node → Prop where
  | boolean (b : Bool) (span : Span) : IsSchema engines (.boolean b span)
  | object {members : List (Member Node)} {span : Span}
      (suits : ∀ m ∈ members, ∀ kind : KeywordKind, kind.name = m.key →
        Suits engines (IsSchema engines) kind m.value)
      (anchors : ¬ ((∃ m ∈ members, m.key = "$anchor") ∧
        ∃ m ∈ members, m.key = "$dynamicAnchor")) :
      IsSchema engines (.object members span)

/-! ## 3. Keywords and rules -/

/-- A tree that tells a keyword suits it. -/
theorem suits_of_tells {R : Node → Schema → Prop} {P : Node → Prop} {node : Node}
    {keyword : Keyword Schema} (h : Tells engines R node keyword)
    (hinner : ∀ inner schema, inner.depth ≤ node.depth → R inner schema → P inner) :
    Suits engines P keyword.kind node := by
  cases h with
  | text hpermits => exact .text hpermits
  | schema hschema => exact .schema (hinner _ _ le_rfl hschema)
  | @schemas k items span schemas hitems =>
    refine .schemas fun item hitem => ?_
    obtain ⟨schema, -, hschema⟩ := exists_of_mem_left hitems hitem
    exact hinner item schema (Node.depth_item_lt span hitem).le hschema
  | @entries k members span entries hmembers =>
    refine .entries fun m hm => ?_
    obtain ⟨entry, -, hentry⟩ := exists_of_mem_left hmembers hm
    cases hentry with
    | mk hschema => exact hinner _ _ (Node.depth_value_lt span hm).le hschema
  | type => exact .type
  | types hitems =>
    refine .types fun item hitem => ?_
    obtain ⟨type, -, htype⟩ := exists_of_mem_left hitems hitem
    exact ⟨type, htype⟩
  | enum => exact .enum
  | data => exact .data
  | @number k n span hpositive =>
    by_cases hk : k = .multipleOf
    · subst hk
      exact .multipleOf (hpositive rfl)
    · exact .bound hk
  | count hvalue hsafe => exact .count hvalue hsafe
  | flag => exact .flag
  | required hitems =>
    refine .required fun item hitem => ?_
    obtain ⟨name, -, hname⟩ := exists_of_mem_left hitems hitem
    exact ⟨name, hname⟩
  | dependentRequired hmembers =>
    refine .dependentRequired fun m hm => ?_
    obtain ⟨d, -, hd⟩ := exists_of_mem_left hmembers hm
    cases hd with
    | mk hnames hunique => exact ⟨_, hnames, hunique⟩

/-- A tree that suits a keyword other than the directives tells it. -/
theorem exists_tells_of_suits {R : Node → Schema → Prop} {P : Node → Prop} {node : Node}
    {kind : KeywordKind} (h : Suits engines P kind node) (hkind : ∀ d, kind ≠ .directive d)
    (hinner : ∀ inner : Node, inner.depth ≤ node.depth → P inner → ∃ schema, R inner schema) :
    ∃ keyword : Keyword Schema, keyword.kind = kind ∧ Tells engines R node keyword := by
  cases h with
  | schemaDirective => exact absurd rfl (hkind .schema)
  | vocabularyDirective => exact absurd rfl (hkind .vocabulary)
  | text hpermits => exact ⟨_, rfl, .text hpermits⟩
  | @entries k members span hmembers =>
    have hentries : ∀ m ∈ members, ∃ entry, EntryTold R m entry := by
      intro m hm
      obtain ⟨schema, hschema⟩ :=
        hinner m.value (Node.depth_value_lt span hm).le (hmembers m hm)
      exact ⟨⟨m.key, schema, m.span⟩, .mk hschema⟩
    obtain ⟨entries, hentries⟩ := exists_forall₂ hentries
    exact ⟨.entries k entries, rfl, .entries hentries⟩
  | @schema k _ hnode =>
    obtain ⟨schema, hschema⟩ := hinner node le_rfl hnode
    exact ⟨.schema k schema, rfl, .schema hschema⟩
  | @schemas k items span hitems =>
    obtain ⟨schemas, hschemas⟩ := exists_forall₂ fun item hitem =>
      hinner item (Node.depth_item_lt span hitem).le (hitems item hitem)
    exact ⟨.schemas k schemas, rfl, .schemas hschemas⟩
  | type => exact ⟨_, rfl, .type⟩
  | types hitems =>
    obtain ⟨types, htypes⟩ := exists_forall₂ hitems
    exact ⟨.types types, rfl, .types htypes⟩
  | enum => exact ⟨_, rfl, .enum⟩
  | @data k _ => exact ⟨.data k node, rfl, .data⟩
  | multipleOf hpositive => exact ⟨_, rfl, .number (k := .multipleOf) fun _ => hpositive⟩
  | @bound k n span hk => exact ⟨.number k n, rfl, .number fun h => absurd h hk⟩
  | @count k n span count hvalue hsafe => exact ⟨.count k count, rfl, .count hvalue hsafe⟩
  | @flag k b span => exact ⟨.flag k b, rfl, .flag⟩
  | required hitems =>
    obtain ⟨names, hnames⟩ := exists_forall₂ hitems
    exact ⟨.required names, rfl, .required hnames⟩
  | @dependentRequired members span hmembers =>
    have hdependencies : ∀ m ∈ members, ∃ d, DependencyTold m d := by
      intro m hm
      obtain ⟨names, hnames, hunique⟩ := hmembers m hm
      exact ⟨⟨m.key, names, m.span⟩, .mk hnames hunique⟩
    obtain ⟨ds, hds⟩ := exists_forall₂ hdependencies
    exact ⟨.dependentRequired ds, rfl, .dependentRequired hds⟩

/-! ## 4. Objects -/

/-- A schema has a keyword iff its tree has a member of that name. -/
theorem has_iff_of_kept {R : Node → Schema → Prop} {members : List (Member Node)}
    {keywords : List (Located (Keyword Schema))} {unsupported : List Parked} {span : Option Span}
    (hkept : List.Forall₂ (Kept engines R) (members.filter fun m => isKeptName m.key) keywords)
    {kind : KeywordKind} (hkind : ∀ d, kind ≠ .directive d) :
    (Schema.mk keywords unsupported span).has kind = true ↔
      ∃ m ∈ members, m.key = kind.name := by
  unfold has
  simp only [Schema.keywords, List.any_eq_true, decide_eq_true_iff]
  constructor
  · intro h
    obtain ⟨located, hmem, rfl⟩ := h
    obtain ⟨m, hm, hlocated⟩ := exists_of_mem_right hkept hmem
    refine ⟨m, List.mem_of_mem_filter hm, ?_⟩
    cases hlocated with
    | mk hname _ => exact hname.symm
  · intro h
    obtain ⟨m, hm, hkey⟩ := h
    have hname : isKeptName m.key = true := hkey ▸ isKeptName_name.mpr hkind
    obtain ⟨located, hmem, hlocated⟩ :=
      exists_of_mem_left hkept (List.mem_filter.mpr ⟨hm, hname⟩)
    refine ⟨located, hmem, ?_⟩
    cases hlocated with
    | mk hkeyword _ => exact KeywordKind.eq_of_name_eq (hkeyword.trans hkey)

theorem suits_of_partTold {P : Node → Prop} {m : Member Node} {part : Part}
    (h : PartTold engines m part)
    (hinner : ∀ inner schema, inner.depth ≤ m.value.depth → Denotes engines inner schema → P inner)
    {kind : KeywordKind} (hkind : kind.name = m.key) : Suits engines P kind m.value := by
  cases h with
  | unknown hname => exact absurd hkind (hname kind)
  | @directive d hname htext =>
    cases KeywordKind.eq_of_name_eq (hkind.trans hname.symm)
    cases d with
    | schema =>
      obtain ⟨text, span, heq⟩ := htext rfl
      rw [heq]
      exact .schemaDirective
    | vocabulary => exact .vocabularyDirective
  | @keyword keyword hname htells =>
    cases KeywordKind.eq_of_name_eq (hkind.trans hname.symm)
    exact suits_of_tells htells hinner

theorem exists_partTold_of_suits {P : Node → Prop} {m : Member Node}
    (h : ∀ kind : KeywordKind, kind.name = m.key → Suits engines P kind m.value)
    (hinner : ∀ inner : Node, inner.depth ≤ m.value.depth → P inner →
      ∃ schema, Denotes engines inner schema) :
    ∃ part, PartTold engines m part := by
  by_cases hknown : ∃ kind : KeywordKind, kind.name = m.key
  · obtain ⟨kind, hkind⟩ := hknown
    have hsuits := h kind hkind
    by_cases hdirective : ∃ d, kind = .directive d
    · obtain ⟨d, rfl⟩ := hdirective
      refine ⟨_, .directive hkind fun hd => ?_⟩
      subst hd
      generalize m.value = value at hsuits
      cases hsuits with
      | schemaDirective => exact ⟨_, _, rfl⟩
    · obtain ⟨keyword, rfl, htells⟩ :=
        exists_tells_of_suits hsuits (not_exists.mp hdirective) hinner
      exact ⟨_, .keyword hkind htells⟩
  · exact ⟨_, .unknown (not_exists.mp hknown)⟩

/-! ## 5. Trees -/

theorem isSchema_of_denotes (node : Node) (schema : Schema) (h : Denotes engines node schema) :
    IsSchema engines node := by
  induction node using Node.induction_on_depth generalizing schema with
  | step node ih =>
    cases node with
    | object members span =>
      obtain ⟨parts, hparts, rfl, hanchors⟩ := denotes_object_iff.mp h
      obtain ⟨hkept, -⟩ := kept_of_partTold hparts
      refine .object (fun m hm kind hkind => ?_) ?_
      · obtain ⟨part, -, hpart⟩ := exists_of_mem_left hparts hm
        refine suits_of_partTold hpart (fun inner schema hdepth hinner => ?_) hkind
        exact ih inner (hdepth.trans_lt (Node.depth_value_lt span hm)) schema hinner
      · rw [has_iff_of_kept hkept (by simp), has_iff_of_kept hkept (by simp)] at hanchors
        exact hanchors
    | boolean b span => exact .boolean b span
    | array | string | number | null => exact (refuse_eq_ok_iff.mp h).elim

theorem exists_denotes_of_isSchema (node : Node) (h : IsSchema engines node) :
    ∃ schema, Denotes engines node schema := by
  induction node using Node.induction_on_depth with
  | step node ih =>
    cases h with
    | boolean b span =>
      cases b with
      | true => exact ⟨_, rfl⟩
      | false => exact ⟨_, rfl⟩
    | @object members span hsuits hanchors =>
      obtain ⟨parts, hparts⟩ := exists_forall₂ fun m hm =>
        exists_partTold_of_suits (hsuits m hm) fun inner hdepth hinner =>
          ih inner (hdepth.trans_lt (Node.depth_value_lt span hm)) hinner
      refine ⟨_, denotes_object_iff.mpr ⟨parts, hparts, rfl, ?_⟩⟩
      obtain ⟨hkept, -⟩ := kept_of_partTold hparts
      rw [has_iff_of_kept hkept (by simp), has_iff_of_kept hkept (by simp)]
      exact hanchors

/-- **A tree is accepted iff it is a schema**, whatever diagnostics were recorded before. -/
theorem accepted_iff_isSchema (engines : Engines) (earlier : List Diagnostic) (node : Node) :
    (∃ schema, ((ofNode engines node).after earlier).result = .ok schema) ↔
      IsSchema engines node := by
  constructor
  · intro h
    obtain ⟨schema, hschema⟩ := h
    exact isSchema_of_denotes node schema hschema
  · intro h
    exact exists_denotes_of_isSchema node h

end Schema

end SchemaCompiler
