/-
  File:      SchemaCompiler/Proofs/Schema/Severity.lean
  Subject:   How grave the diagnostics of a text are.

  A reading is `Graded` if all it records on the way are warnings, and what ends it is fatal. The
  steps that readers are made of are graded, and to go on after one keeps this; so every reader is
  graded, and by induction on the depth of the tree so is the reading of a schema.

  * `Schema.graded_ofNode`, `graded_analyze`: no fatal diagnostic is recorded while the work goes
    on, at any depth.
  * `Checked.Graded.exists_fatal_iff`, `Checked.Graded.warning_of_mem_dropLast`: so there is a
    fatal diagnostic iff there is no value, and it is the last.
-/
import SchemaCompiler.Compiler
import SchemaCompiler.Proofs.Schema.Readings

namespace SchemaCompiler

variable {engines : Engines}

/-! ## 1. Graded readings -/

namespace Checked

variable {α β : Type}

/-- What is recorded on the way are warnings; what ends the reading is fatal. -/
structure Graded (x : Checked α) : Prop where
  warning : ∀ d ∈ x.warnings, d.severity = .warning
  fatal : ∀ d, x.result = .error d → d.severity = .fatal

/-- A value without remarks is graded. -/
theorem graded_pure (a : α) : (pure a : Checked α).Graded :=
  ⟨fun _ h => (nomatch h), fun _ h => (nomatch h)⟩

/-- Every violation is fatal. -/
theorem graded_refuse (v : Violation) (span : Span) : (refuse v span : Checked α).Graded where
  warning := fun _ h => (nomatch h)
  fatal := by
    intro d h
    cases h
    rfl

/-- Every caution is a warning. -/
theorem graded_warn (c : Caution) (span : Span) : (warn c span).Graded where
  warning := by
    intro d h
    rw [List.mem_singleton.mp h]
    rfl
  fatal := fun _ h => (nomatch h)

/-- To go on after a graded reading with graded ones is graded. -/
theorem Graded.bind {x : Checked α} {f : α → Checked β} (hx : x.Graded)
    (hf : ∀ a, (f a).Graded) : (x >>= f).Graded := by
  show (x.andThen f).Graded
  unfold andThen
  cases hresult : x.result with
  | error d =>
    refine ⟨hx.warning, fun e he => ?_⟩
    cases he
    exact hx.fatal d hresult
  | ok a => exact ⟨List.forall_mem_append.mpr ⟨hx.warning, (hf a).warning⟩, (hf a).fatal⟩

/-- A choice between graded readings is graded. -/
theorem Graded.ite {p : Prop} [Decidable p] {x y : Checked α} (hx : x.Graded) (hy : y.Graded) :
    (if p then x else y).Graded := by
  split
  · exact hx
  · exact hy

/-- Graded readings of all elements of a list are graded together. -/
theorem graded_mapM {f : α → Checked β} {xs : List α} (hf : ∀ x ∈ xs, (f x).Graded) :
    (xs.mapM f).Graded := by
  induction xs with
  | nil =>
    rw [List.mapM_nil]
    exact graded_pure []
  | cons x xs ih =>
    obtain ⟨hx, hxs⟩ := List.forall_mem_cons.mp hf
    rw [List.mapM_cons]
    exact hx.bind fun y => (ih hxs).bind fun ys => graded_pure (y :: ys)

/-- **There is a fatal diagnostic iff there is no value.** -/
theorem Graded.exists_fatal_iff {x : Checked α} (hx : x.Graded) :
    (∃ d ∈ x.diagnostics, d.severity = .fatal) ↔ x.result.toOption = none := by
  unfold diagnostics
  cases hresult : x.result with
  | ok a =>
    refine ⟨fun ⟨d, hd, hfatal⟩ => ?_, fun h => (nomatch h)⟩
    rw [hx.warning d hd] at hfatal
    cases hfatal
  | error e =>
    exact ⟨fun _ => rfl, fun _ => ⟨e, List.mem_append_right _ (List.mem_singleton_self e),
      hx.fatal e hresult⟩⟩

/-- **All diagnostics but the last are warnings.** -/
theorem Graded.warning_of_mem_dropLast {x : Checked α} (hx : x.Graded) {d : Diagnostic}
    (hd : d ∈ x.diagnostics.dropLast) : d.severity = .warning := by
  unfold diagnostics at hd
  cases hresult : x.result with
  | ok a =>
    rw [hresult] at hd
    exact hx.warning d (List.dropLast_subset _ hd)
  | error e =>
    simp only [hresult, List.dropLast_concat] at hd
    exact hx.warning d hd

end Checked

/-! ## 2. The readers -/

namespace Payload

open Checked

/-- A tree of another kind is refused, and that is all a reader of one kind does. -/
theorem graded_readString (keyword : KeywordKind) (node : Node) :
    (readString keyword node).Graded := by
  cases node with
  | string text span => exact graded_pure text
  | _ => exact graded_refuse _ _

theorem graded_readBoolean (keyword : KeywordKind) (node : Node) :
    (readBoolean keyword node).Graded := by
  cases node with
  | boolean b span => exact graded_pure b
  | _ => exact graded_refuse _ _

theorem graded_readNumber (keyword : KeywordKind) (node : Node) :
    (readNumber keyword node).Graded := by
  cases node with
  | number n span => exact graded_pure n
  | _ => exact graded_refuse _ _

theorem graded_readArray (keyword : KeywordKind) (node : Node) :
    (readArray keyword node).Graded := by
  cases node with
  | array items span => exact graded_pure items
  | _ => exact graded_refuse _ _

/-- The members of an object are not looked at yet. -/
theorem graded_readObject (keyword : KeywordKind) (node : Node) :
    (readObject keyword node).Graded := by
  cases node with
  | object members span => exact graded_pure members
  | _ => exact graded_refuse _ _

/-- An empty fragment gets a warning; any other, or what is no identifier, is refused. -/
theorem graded_checkId (text : String) (span : Span) : (checkId engines text span).Graded := by
  unfold checkId
  split
  · exact graded_refuse _ _
  · exact graded_pure ()
  · exact (graded_warn _ _).ite (graded_refuse _ _)

theorem graded_checkReference (text : String) (span : Span) :
    (checkReference engines text span).Graded :=
  (graded_pure ()).ite (graded_refuse _ span)

theorem graded_checkAnchor (text : String) (span : Span) : (checkAnchor text span).Graded :=
  (graded_pure ()).ite (graded_refuse _ span)

/-- A pattern that the engine does not understand gets a warning only. -/
theorem graded_checkPattern (text : String) (span : Span) :
    (checkPattern engines text span).Graded := by
  refine (graded_refuse _ span).ite ?_
  cases engines.patternFault? text with
  | none => exact graded_pure ()
  | some fault => exact graded_warn _ span

/-- Whatever a text is checked for. -/
theorem graded_checkText (k : TextKeyword) (text : String) (span : Span) :
    (checkText engines k text span).Graded := by
  cases k with
  | id => exact graded_checkId text span
  | ref | dynamicRef => exact graded_checkReference text span
  | anchor | dynamicAnchor => exact graded_checkAnchor text span
  | pattern => exact graded_checkPattern text span
  | comment | title | description => exact graded_pure ()

/-- A text is read and then checked. -/
theorem graded_readText (k : TextKeyword) (node : Node) : (readText engines k node).Graded :=
  (graded_readString _ node).bind fun text =>
    (graded_checkText k text node.span).bind fun _ => graded_pure text

theorem graded_readType (node : Node) : (readType node).Graded := by
  refine (graded_readString _ node).bind fun name => ?_
  split
  · exact graded_pure _
  · exact graded_refuse _ _

/-- One type, or a list of them. -/
theorem graded_readTypes (node : Node) : (readTypes node).Graded := by
  cases node with
  | array items span => exact graded_mapM fun item _ => graded_readType item
  | _ => exact (graded_readType _).bind fun type => graded_pure [type]

theorem graded_readNames (keyword : KeywordKind) (node : Node) :
    (readNames keyword node).Graded :=
  (graded_readArray keyword node).bind fun _ =>
    graded_mapM fun item _ => graded_readString keyword item

theorem graded_readDependency (member : Member Node) : (readDependency member).Graded :=
  (graded_readNames _ member.value).bind fun _ => (graded_pure _).ite (graded_refuse _ _)

/-- Each dependency is a list of names. -/
theorem graded_readDependencies (node : Node) : (readDependencies node).Graded :=
  (graded_readObject _ node).bind fun _ => graded_mapM fun member _ => graded_readDependency member

/-- A divisor that is not above zero is refused. -/
theorem graded_readBound (k : NumberKeyword) (node : Node) : (readBound k node).Graded :=
  (graded_readNumber _ node).bind fun n => (graded_refuse _ _).ite (graded_pure n)

theorem graded_readCount (k : CountKeyword) (node : Node) : (readCount k node).Graded := by
  refine (graded_readNumber _ node).bind fun n => ?_
  split
  · exact graded_pure _
  · exact graded_refuse _ _

/-- A directive gets a warning; a `$schema` that is no text is refused before. -/
theorem graded_readDirective (d : Directive) (node : Node) (span : Span) :
    (readDirective d node span).Graded := by
  cases d with
  | schema => exact (graded_readString _ node).bind fun _ => graded_warn _ span
  | vocabulary => exact graded_warn _ span

end Payload

/-! ## 3. Schemas -/

namespace Schema

open Checked Payload

/-- Two anchors are refused when all parts have been read. -/
theorem graded_ofParts (parts : List Part) (span : Span) : (ofParts parts span).Graded :=
  (graded_refuse _ span).ite (graded_pure _)

/-- Schemas in a list are less deep than the list. -/
theorem graded_readSchemas (k : ListKeyword) {node : Node}
    (h : ∀ inner : Node, inner.depth < node.depth → (ofNode engines inner).Graded) :
    (readSchemas engines k node).Graded := by
  cases node with
  | array items span =>
    rw [readSchemas_array, schemasOf_eq_mapM]
    exact graded_mapM fun item hitem => h item (Node.depth_item_lt span hitem)
  | _ => exact graded_refuse _ _

/-- Schemas of entries are less deep than the object. -/
theorem graded_readEntries (k : MapKeyword) {node : Node}
    (h : ∀ inner : Node, inner.depth < node.depth → (ofNode engines inner).Graded) :
    (readEntries engines k node).Graded := by
  cases node with
  | object members span =>
    rw [readEntries_object, entriesOf_eq_mapM]
    refine graded_mapM fun member hmember => ?_
    exact (h member.value (Node.depth_value_lt span hmember)).bind fun schema => graded_pure _
  | _ => exact graded_refuse _ _

/-- A member is graded if the trees in it are: one case for each way a keyword is read. -/
theorem graded_partOf (m : Member Node)
    (h : ∀ inner : Node, inner.depth ≤ m.value.depth → (ofNode engines inner).Graded) :
    (partOf engines m).Graded := by
  obtain ⟨key, keySpan, value, span⟩ := m
  have hinner : ∀ inner : Node, inner.depth < value.depth → (ofNode engines inner).Graded :=
    fun inner hlt => h inner hlt.le
  have hplaced : ∀ {α : Type} {x : Checked α} (f : α → Keyword Schema), x.Graded →
      (x >>= fun a => pure (placed span (f a))).Graded :=
    fun f hx => hx.bind fun a => graded_pure _
  rw [partOf]
  split
  · exact (graded_warn _ span).bind fun _ => graded_pure _
  · exact (graded_readDirective _ value span).bind fun _ => graded_pure _
  · exact hplaced _ (graded_readText _ value)
  · exact hplaced _ (h value le_rfl)
  · exact hplaced _ (graded_readSchemas _ hinner)
  · exact hplaced _ (graded_readEntries _ hinner)
  · exact hplaced _ (graded_readTypes value)
  · exact hplaced _ (graded_readArray _ value)
  · exact graded_pure _
  · exact hplaced _ (graded_readBound _ value)
  · exact hplaced _ (graded_readCount _ value)
  · exact hplaced _ (graded_readBoolean _ value)
  · exact hplaced _ (graded_readNames _ value)
  · exact hplaced _ (graded_readDependencies value)

/-- **The reading of a schema records only warnings before it ends.** -/
theorem graded_ofNode (node : Node) : (ofNode engines node).Graded := by
  induction node using Node.induction_on_depth with
  | step node ih =>
    cases node with
    | object members span =>
      rw [ofNode, partsOf_eq_mapM]
      refine Graded.bind (graded_mapM fun member hmember => ?_) fun parts =>
        graded_ofParts parts span
      refine graded_partOf member fun inner hinner => ?_
      exact ih inner (hinner.trans_lt (Node.depth_value_lt span hmember))
    | boolean b span =>
      cases b <;> rw [ofNode] <;> exact graded_pure _
    | _ =>
      rw [ofNode]
      exact graded_refuse _ _

end Schema

/-- **No fatal diagnostic is recorded while a text is being read**, and what ends the reading is
    fatal. -/
theorem graded_analyze (engines : Engines) (source : String) : (analyze engines source).Graded := by
  unfold analyze
  split
  · exact Schema.graded_ofNode _
  · refine ⟨fun _ h => (nomatch h), fun d h => ?_⟩
    cases h
    rfl

end SchemaCompiler
