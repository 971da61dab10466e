/-
  File:      SchemaCompiler/Proofs/Schema/Places.lean
  Subject:   Where things stand does not matter, but for the spans of remarks.

  A tree whose parts stand elsewhere is read in the same way: the schema is the same with its parts
  elsewhere (`Schema.relocated`), and so are the remarks (`Schema.elsewhere_ofNode`). A schema whose
  parts stand elsewhere has the same definition (`Schema.definition_relocated`), since a keyword
  that becomes part of an expression holds places only where the expression does not look
  (`Keyword.unplaced_relocated`).

  So two texts that denote the same tree but for its places (`Node.unplaced`) come to the same:
  **`compile_eq_of_unplaced_eq`**.
-/
import SchemaCompiler.Compiler
import SchemaCompiler.Proofs.Expr.FirstKeywords
import SchemaCompiler.Proofs.Json.Derivations
import SchemaCompiler.Proofs.Schema.Retelling
import SchemaCompiler.StandardPlatform

namespace SchemaCompiler

variable {engines : Engines}

/-! ## 1. Schemas that stand elsewhere -/

def Entry.relocated {σ : Type} (place : Span → Span) (e : Entry σ) : Entry σ :=
  { e with span := place e.span }

def Parked.relocated (place : Span → Span) (member : Parked) : Parked :=
  { member with value := member.value.relocated place, span := place member.span }

namespace Keyword

variable {σ τ : Type}

/-- The keyword with what it says at other spans; its sub-schemas are left. -/
def relocated (place : Span → Span) : Keyword σ → Keyword σ
  | .entries k es => .entries k (es.map (Entry.relocated place))
  | .enum ns => .enum (ns.map (Node.relocated place))
  | .data k n => .data k (n.relocated place)
  | .dependentRequired ds => .dependentRequired (ds.map (Dependency.relocated place))
  | keyword => keyword

@[simp] theorem kind_relocated (place : Span → Span) (keyword : Keyword σ) :
    (keyword.relocated place).kind = keyword.kind := by
  cases keyword <;> rfl

theorem map_relocated (f : σ → τ) (place : Span → Span) (keyword : Keyword σ) :
    (keyword.relocated place).map f = (keyword.map f).relocated place := by
  cases keyword <;> simp [relocated, map, Entry.relocated]

/-- A decisive keyword holds places only in its entries and dependencies. -/
theorem unplaced_relocated (place : Span → Span) {keyword : Keyword σ}
    (h : keyword.kind ∈ KeywordKind.decisive) :
    (keyword.relocated place).unplaced = keyword.unplaced := by
  cases keyword with
  | entries k es => simp [relocated, unplaced, Entry.relocated, Entry.unplaced]
  | dependentRequired ds =>
    simp [relocated, unplaced, Dependency.relocated, Dependency.unplaced]
  | enum ns => simp [kind, KeywordKind.decisive] at h
  | data k n => simp [kind, KeywordKind.decisive] at h
  | _ => rfl

end Keyword

/-- A keyword and its member at other spans. -/
def Located.relocated {σ : Type} (place : Span → Span) (located : Located (Keyword σ)) :
    Located (Keyword σ) :=
  ⟨located.keyword.relocated place, located.span.map place⟩

/-- Keywords of the same kinds, the decisive ones the same but for places. -/
theorem sameFirst_map {ι σ : Type} {f g : ι → Keyword σ} {xs : List ι}
    (hkind : ∀ x ∈ xs, (f x).kind = (g x).kind)
    (hsame : ∀ x ∈ xs, (g x).kind ∈ KeywordKind.decisive → (f x).unplaced = (g x).unplaced) :
    SameFirst (xs.map f) (xs.map g) := by
  induction xs with
  | nil => exact ⟨rfl, rfl, fun _ _ => rfl⟩
  | cons x xs ih =>
    obtain ⟨hkindx, hkindxs⟩ := List.forall_mem_cons.mp hkind
    obtain ⟨hsamex, hsamexs⟩ := List.forall_mem_cons.mp hsame
    have hrest := ih hkindxs hsamexs
    rw [List.map_cons, List.map_cons]
    refine ⟨?_, ?_, fun kind hdecisive => ?_⟩
    · rw [List.any_cons, List.any_cons, hkindx, hrest.validation]
    · rw [List.any_cons, List.any_cons, hkindx, hrest.names]
    · rw [Keywords.first?_cons, Keywords.first?_cons, hkindx]
      by_cases h : (g x).kind = kind
      · rw [if_pos h, if_pos h]
        exact congrArg some (hsamex (h ▸ hdecisive))
      · rw [if_neg h, if_neg h]
        exact hrest.first kind hdecisive

namespace Schema

/-- The schema with all its parts at other spans. -/
def relocated (place : Span → Span) : Schema → Schema :=
  rebuild fun keywords unsupported span =>
    .mk (keywords.map (Located.relocated place)) (unsupported.map (Parked.relocated place))
      (span.map place)

/-- What becomes of a keyword with its sub-schemas. -/
def relocatedKeyword (place : Span → Span) (located : Located (Keyword Schema)) :
    Located (Keyword Schema) :=
  (located.map (Keyword.map (relocated place))).relocated place

theorem relocated_mk (place : Span → Span) (keywords : List (Located (Keyword Schema)))
    (unsupported : List Parked) (span : Option Span) :
    relocated place (.mk keywords unsupported span) =
      .mk (keywords.map (relocatedKeyword place)) (unsupported.map (Parked.relocated place))
        (span.map place) := by
  rw [relocated, rebuild_mk, List.map_map]
  rfl

theorem kind_relocatedKeyword (place : Span → Span) (located : Located (Keyword Schema)) :
    (relocatedKeyword place located).keyword.kind = located.keyword.kind := by
  rw [relocatedKeyword, Located.relocated, Keyword.kind_relocated, Located.map, Keyword.kind_map]

theorem has_relocated (place : Span → Span) (schema : Schema) (kind : KeywordKind) :
    (schema.relocated place).has kind = schema.has kind := by
  obtain ⟨keywords, unsupported, span⟩ := schema
  rw [relocated_mk, has, has, Schema.keywords, Schema.keywords, List.any_map]
  simp only [Function.comp_def, kind_relocatedKeyword]

theorem anchor?_relocated (place : Span → Span) (schema : Schema) :
    (schema.relocated place).anchor? = schema.anchor? := by
  obtain ⟨keywords, unsupported, span⟩ := schema
  rw [relocated_mk, anchor?, anchor?, Schema.keywords, Schema.keywords, List.findSome?_map]
  refine congrArg (List.findSome? · keywords) (funext fun located => ?_)
  obtain ⟨keyword, span⟩ := located
  cases keyword <;> rfl

/-- By induction over the sub-schemas: the keywords with their calls are the same but for places. -/
theorem ofSchema_relocated (place : Span → Span) (schema : Schema) :
    Call.ofSchema (schema.relocated place) = Call.ofSchema schema := by
  induction schema using induction_on_parts with
  | step schema ih =>
    obtain ⟨keywords, unsupported, span⟩ := schema
    rw [relocated_mk, Call.ofSchema_mk, Call.ofSchema_mk, List.map_map, List.map_map, List.map_map]
    have hcalls : ∀ located ∈ keywords,
        (relocatedKeyword place located).keyword.map Call.ofSchema =
          (located.keyword.map Call.ofSchema).relocated place := by
      intro located hmem
      rw [relocatedKeyword, Located.relocated, Located.map, Keyword.map_relocated, Keyword.map_map]
      exact congrArg (Keyword.relocated place) (Keyword.map_congr (ih located hmem))
    refine Call.ofKeywords_congr (sameFirst_map (fun located _ => ?_) fun located hmem hkind => ?_)
    · exact (Keyword.kind_map _ _).trans
        ((kind_relocatedKeyword place located).trans (Keyword.kind_map _ _).symm)
    · exact (congrArg Keyword.unplaced (hcalls located hmem)).trans
        (Keyword.unplaced_relocated place hkind)

theorem definition_relocated (place : Span → Span) (schema : Schema) (alphabet : Alphabet)
    (rootName : String) :
    Definition.ofSchema alphabet (schema.relocated place) rootName =
      Definition.ofSchema alphabet schema rootName := by
  rw [Definition.ofSchema, Definition.ofSchema, anchor?_relocated, ofSchema_relocated]

end Schema

/-! ## 2. The reading of a tree that stands elsewhere -/

/-- All of a reading, at other spans. -/
def Retelling.elsewhere (place : Span → Span) : Retelling where
  place := place
  mentions := fun _ => true
  mentions_of_ne := fun _ _ => rfl

namespace Schema

open Checked Payload Retelling

variable (place : Span → Span)

def Part.relocated : Part → Part
  | .active located => .active (relocatedKeyword place located)
  | .parked member => .parked (member.relocated place)

/-- The entry with its schema at other spans. -/
def relocatedEntry (e : Entry Schema) : Entry Schema :=
  ⟨e.key, e.schema.relocated place, place e.span⟩

theorem elsewhere_ofParts (parts : List Part) (span : Span) :
    (ofParts parts span).retold (elsewhere place) (relocated place) =
      ofParts (parts.map (Part.relocated place)) (place span) := by
  have hactive : (parts.map (Part.relocated place)).filterMap Part.active? =
      (parts.filterMap Part.active?).map (relocatedKeyword place) := by
    rw [List.filterMap_map, List.map_filterMap]
    refine congrArg (List.filterMap · parts) (funext fun part => ?_)
    cases part <;> rfl
  have hparked : (parts.map (Part.relocated place)).filterMap Part.parked? =
      (parts.filterMap Part.parked?).map (Parked.relocated place) := by
    rw [List.filterMap_map, List.map_filterMap]
    refine congrArg (List.filterMap · parts) (funext fun part => ?_)
    cases part <;> rfl
  have hspan : some (place span) = (some span).map place := rfl
  simp only [ofParts, hactive, hparked, hspan, ← relocated_mk, has_relocated]
  exact retold_ite rfl rfl

variable {place}

/-- A keyword is told again if its value is. -/
theorem elsewhere_placed {α β : Type} {x : Checked α} {y : Checked β} {e : α → β}
    {f : α → Keyword Schema} {g : β → Keyword Schema} {span : Span}
    (hx : x.retold (elsewhere place) e = y)
    (hf : ∀ a, ((f a).map (relocated place)).relocated place = g (e a)) :
    (x >>= fun a => pure (placed span (f a))).retold (elsewhere place) (Part.relocated place) =
      y >>= fun b => pure (placed (place span) (g b)) := by
  refine retold_bind hx fun a _ => ?_
  rw [← hf]
  rfl

variable (place)

mutual

theorem elsewhere_ofNode : (node : Node) →
    (ofNode engines node).retold (elsewhere place) (relocated place) =
      ofNode engines (node.relocated place)
  | .object members span => by
    rw [Node.relocated, ofNode, ofNode]
    exact retold_bind (elsewhere_partsOf members) fun parts _ => elsewhere_ofParts place parts span
  | .boolean true _ | .boolean false _ | .array .. | .string .. | .number .. | .null _ => rfl

theorem elsewhere_partsOf : (members : List (Member Node)) →
    (partsOf engines members).retold (elsewhere place) (List.map (Part.relocated place)) =
      partsOf engines (relocatedMembers place members)
  | [] => rfl
  | ⟨key, keySpan, value, span⟩ :: members => by
    rw [relocatedMembers, partsOf, partsOf]
    exact retold_bind (elsewhere_partOf ⟨key, keySpan, value, span⟩) fun _ _ =>
      retold_bind (elsewhere_partsOf members) fun _ _ => rfl

theorem elsewhere_partOf : (m : Member Node) →
    (partOf engines m).retold (elsewhere place) (Part.relocated place) =
      partOf engines (m.relocated place)
  | ⟨key, keySpan, value, span⟩ => by
    rw [Member.relocated, partOf, partOf]
    cases KeywordKind.ofName? key with
    | none => rfl
    | some kind =>
      cases kind with
      | directive d => exact retold_bind (retold_readDirective d value span) fun _ _ => rfl
      | text k => exact elsewhere_placed (retold_readText k value) fun _ => rfl
      | schema k => exact elsewhere_placed (elsewhere_ofNode value) fun _ => rfl
      | schemas k => exact elsewhere_placed (elsewhere_readSchemas k value) fun _ => rfl
      | entries k =>
        refine elsewhere_placed (elsewhere_readEntries k value) fun es => ?_
        exact congrArg (Keyword.entries k) (List.map_map ..)
      | types => exact elsewhere_placed (retold_readTypes value) fun _ => rfl
      | enum => exact elsewhere_placed (retold_readArray _ value) fun _ => rfl
      | data k => rfl
      | number k => exact elsewhere_placed (retold_readBound k value) fun _ => rfl
      | count k => exact elsewhere_placed (retold_readCount k value) fun _ => rfl
      | flag k => exact elsewhere_placed (retold_readBoolean _ value) fun _ => rfl
      | required => exact elsewhere_placed (retold_readNames _ value) fun _ => rfl
      | dependentRequired => exact elsewhere_placed (retold_readDependencies value) fun _ => rfl

theorem elsewhere_readSchemas (k : ListKeyword) : (node : Node) →
    (readSchemas engines k node).retold (elsewhere place) (List.map (relocated place)) =
      readSchemas engines k (node.relocated place)
  | .array items _ => by
    rw [Node.relocated, readSchemas_array, readSchemas_array]
    exact elsewhere_schemasOf items
  | .object .. | .string .. | .number .. | .boolean .. | .null _ => rfl

theorem elsewhere_readEntries (k : MapKeyword) : (node : Node) →
    (readEntries engines k node).retold (elsewhere place) (List.map (relocatedEntry place)) =
      readEntries engines k (node.relocated place)
  | .object members _ => by
    rw [Node.relocated, readEntries_object, readEntries_object]
    exact elsewhere_entriesOf members
  | .array .. | .string .. | .number .. | .boolean .. | .null _ => rfl

theorem elsewhere_schemasOf : (items : List Node) →
    (schemasOf engines items).retold (elsewhere place) (List.map (relocated place)) =
      schemasOf engines (relocatedItems place items)
  | [] => rfl
  | item :: items => by
    rw [relocatedItems, schemasOf, schemasOf]
    exact retold_bind (elsewhere_ofNode item) fun _ _ =>
      retold_bind (elsewhere_schemasOf items) fun _ _ => rfl

theorem elsewhere_entriesOf : (members : List (Member Node)) →
    (entriesOf engines members).retold (elsewhere place) (List.map (relocatedEntry place)) =
      entriesOf engines (relocatedMembers place members)
  | [] => rfl
  | ⟨key, keySpan, value, span⟩ :: members => by
    rw [relocatedMembers, entriesOf, entriesOf]
    exact retold_bind (elsewhere_ofNode value) fun _ _ =>
      retold_bind (elsewhere_entriesOf members) fun _ _ => rfl

end

end Schema

/-! ## 3. Texts that denote the same but for places -/

theorem moduleOf_relocated (alphabet : Alphabet) (settings : Settings) (place : Span → Span)
    (schema : Schema) :
    moduleOf alphabet settings (schema.relocated place) = moduleOf alphabet settings schema := by
  rw [moduleOf, moduleOf, definitionsOf, definitionsOf, Schema.definition_relocated]

theorem Checked.diagnostics_elsewhere {α β : Type} (place : Span → Span) (f : α → β)
    (x : Checked α) :
    (x.retold (.elsewhere place) f).diagnostics =
      x.diagnostics.map (Diagnostic.relocated place) := by
  have hwarnings : (x.retold (.elsewhere place) f).warnings =
      x.warnings.map (Diagnostic.relocated place) := by
    show (x.warnings.filter fun _ => true).map (Diagnostic.relocated place) = _
    rw [List.filter_true]
  unfold diagnostics
  rw [hwarnings]
  unfold retold
  cases x.result with
  | ok a => rfl
  | error d =>
    show x.warnings.map (Diagnostic.relocated place) ++ [d.relocated place] =
      (x.warnings ++ [d]).map (Diagnostic.relocated place)
    rw [List.map_append, List.map_singleton]

/-- Remarks that differ in their spans only. -/
structure Diagnostic.Alike (d d' : Diagnostic) : Prop where
  severity : d.severity = d'.severity
  stage : d.stage = d'.stage
  rule : d.rule = d'.rule
  message : d.message = d'.message

/-- The tree without its places: its kinds, keys and values, in order. -/
def Node.unplaced (node : Node) : Node := node.relocated fun _ => ⟨0, 0⟩

/-- What comes of a text is told by its tree without places. -/
theorem compile_of_parse (platform : Platform) (settings : Settings) {source : String}
    {node : Node} (h : Node.parse source = .ok node) :
    (compile platform settings source).output =
        (Schema.ofNode platform.engines node.unplaced).result.toOption.map
          (moduleOf platform.alphabet settings) ∧
      (compile platform settings source).diagnostics.map (Diagnostic.relocated fun _ => ⟨0, 0⟩) =
        (Schema.ofNode platform.engines node.unplaced).diagnostics := by
  have hanalyze : analyze platform.engines source = Schema.ofNode platform.engines node := by
    rw [analyze, h]
  rw [compile, hanalyze, Node.unplaced, ← Schema.elsewhere_ofNode, Checked.diagnostics_elsewhere]
  refine ⟨?_, rfl⟩
  unfold Checked.retold
  cases (Schema.ofNode platform.engines node).result with
  | error d => rfl
  | ok schema => exact congrArg some (moduleOf_relocated _ settings _ schema).symm

/-- **Layout never matters.** Two texts that denote the same tree but for its places come to the
    same module, or both to none, and to the same remarks in the same order, but for their spans. -/
theorem compile_eq_of_unplaced_eq (platform : Platform) (settings : Settings)
    (source source' : String) (node node' : Node) (h : Node.parse source = .ok node)
    (h' : Node.parse source' = .ok node')
    (hsame : node.unplaced = node'.unplaced) :
    (compile platform settings source).output = (compile platform settings source').output ∧
      List.Forall₂ Diagnostic.Alike (compile platform settings source).diagnostics
        (compile platform settings source').diagnostics := by
  obtain ⟨houtput, hdiagnostics⟩ := compile_of_parse platform settings h
  obtain ⟨houtput', hdiagnostics'⟩ := compile_of_parse platform settings h'
  rw [hsame] at houtput hdiagnostics
  refine ⟨houtput.trans houtput'.symm, ?_⟩
  have hmap := hdiagnostics.trans hdiagnostics'.symm
  rw [← List.forall₂_eq_eq_eq, List.forall₂_map_left_iff, List.forall₂_map_right_iff] at hmap
  refine hmap.imp fun d d' hd => ?_
  injection hd with hseverity hstage hrule hmessage hspan
  exact ⟨hseverity, hstage, hrule, hmessage⟩

/-- A negation and an unknown member, without blanks. -/
def dense : String := "\x7b\"not\":true,\"a\":true\x7d"

/-- The same with blanks, and with an escape in a key. -/
def loose : String := "\x7b \"\\u006eot\" : true, \"a\" :true \x7d"

def denseTree : Node :=
  .object
    [⟨"not", ⟨1, 6⟩, .boolean true ⟨7, 11⟩, ⟨1, 11⟩⟩,
     ⟨"a", ⟨12, 15⟩, .boolean true ⟨16, 20⟩, ⟨12, 20⟩⟩] ⟨0, 21⟩

def looseTree : Node :=
  .object
    [⟨"not", ⟨2, 12⟩, .boolean true ⟨15, 19⟩, ⟨2, 19⟩⟩,
     ⟨"a", ⟨21, 24⟩, .boolean true ⟨26, 30⟩, ⟨21, 30⟩⟩] ⟨0, 32⟩

open Grammar

theorem parse_dense : Node.parse dense = .ok denseTree := by
  have hnot := stringBody_of_all_plain "not" (by decide)
  have ha := stringBody_of_all_plain "a" (by decide)
  have hfirst := @MemberText.mk IsValue 1 _ _ [] [] _ _ hnot (by decide) (by decide) .true
  have hsecond := @MemberText.mk IsValue 12 _ _ [] [] _ _ ha (by decide) (by decide) .true
  have hmembers := @Parts.more _ (MemberText IsValue) 1 [] _ [] _ _ _ (by decide) hfirst (by decide)
    (@Parts.last _ _ 12 [] _ [] _ (by decide) hsecond (by decide))
  have hdocument : IsDocument dense.toList denseTree :=
    @IsDocument.mk [] _ [] _ (by decide) (.object hmembers) (by decide)
  rw [Node.parse]
  exact hdocument.read_eq_ok (by decide)

theorem parse_loose : Node.parse loose = .ok looseTree := by
  have hn : Escape ['u', '0', '0', '6', 'e'] 'n' :=
    .unicode (@HexQuad.mk '0' '0' '6' 'e' 0 0 6 14 (.decimal (by decide) (by decide))
      (.decimal (by decide) (by decide)) (.decimal (by decide) (by decide))
      (.lower (by decide) (by decide)))
  have hot := stringBody_of_all_plain "ot" (by decide)
  have ha := stringBody_of_all_plain "a" (by decide)
  have hfirst := @MemberText.mk IsValue 2 _ _ [' '] [' '] _ _ (.escape hn hot) (by decide)
    (by decide) .true
  have hsecond := @MemberText.mk IsValue 21 _ _ [' '] [] _ _ ha (by decide) (by decide) .true
  have hmembers := @Parts.more _ (MemberText IsValue) 1 [' '] _ [] _ _ _ (by decide) hfirst
    (by decide) (@Parts.last _ _ 20 [' '] _ [' '] _ (by decide) hsecond (by decide))
  have hdocument : IsDocument loose.toList looseTree :=
    @IsDocument.mk [] _ [] _ (by decide) (.object hmembers) (by decide)
  rw [Node.parse]
  exact hdocument.read_eq_ok (by decide)

theorem compile_dense_loose :
    check .standard dense = [(Caution.unknownKeyword "a").diagnostic ⟨12, 20⟩] ∧
      check .standard loose = [(Caution.unknownKeyword "a").diagnostic ⟨21, 30⟩] ∧
      (compile .standard .default dense).output = (compile .standard .default loose).output ∧
      List.Forall₂ Diagnostic.Alike (compile .standard .default dense).diagnostics
        (compile .standard .default loose).diagnostics := by
  refine ⟨?_, ?_, compile_eq_of_unplaced_eq .standard .default dense loose denseTree looseTree
    parse_dense parse_loose rfl⟩
  · rw [check, analyze, parse_dense]
    rfl
  · rw [check, analyze, parse_loose]
    rfl

end SchemaCompiler
