/-
  File:      SchemaCompiler/Proofs/Schema/SourceOrder.lean
  Subject:   The diagnostics of a schema come in the order of the text.

  The parts of a tree that was read off a text stand one after the other, each inside the tree
  (`Node.Tidy`). A reading goes through them from left to right, and what it says about a part it
  says at a place in this part. So a later diagnostic stands behind all earlier ones
  (`Diagnostic.Follows`); only that a schema has anchors of both kinds is said of the whole object,
  after what was said about its members.

  * `tidy_of_parse` -- the tree of a document is tidy;
  * `Checked.Ordered` -- what a reading says is said at known places, and in order;
    `Checked.Ordered.bind` and `Checked.ordered_mapM` keep this;
  * `Schema.ordered_ofNode` -- by induction on the depth of the tree, the reading of a schema is
    ordered;
  * **`check_inSourceOrder`** -- so are the remarks about a document.
-/
import SchemaCompiler.Proofs.Schema.Severity
import SchemaCompiler.Proofs.Schema.Sinks
import SchemaCompiler.Proofs.Schema.WellFormedness

namespace SchemaCompiler

open Grammar

variable {engines : Engines}

/-! ## 1. Tidy trees -/

namespace Node

/-- The spans at one tree: its parts stand apart and inside, and the value of a member stands at the
    end of the member. -/
structure Neat (node : Node) : Prop where
  proper : node.span.start < node.span.stop
  apart : node.partSpans.Pairwise fun a b => a.stop < b.start
  inside : ∀ s ∈ node.partSpans, node.span.start < s.start ∧ s.stop < node.span.stop
  values : ∀ m ∈ node.members, m.span.start < m.value.span.start ∧ m.value.span.stop = m.span.stop

/-- All trees in a tree are neat. -/
def Tidy (root : Node) : Prop := ∀ part : Node, part.PartOf root → part.Neat

variable {root : Node}

/-- A tidy tree is neat at its root. -/
theorem Tidy.neat (h : root.Tidy) : root.Neat := h root .whole

theorem Tidy.item {items : List Node} {span : Span} (h : (Node.array items span).Tidy) {item : Node}
    (hitem : item ∈ items) : item.Tidy :=
  fun part hpart => h part (.item hitem hpart)

theorem Tidy.value {members : List (Member Node)} {span : Span}
    (h : (Node.object members span).Tidy) {m : Member Node} (hm : m ∈ members) : m.value.Tidy :=
  fun part hpart => h part (.value hm hpart)

/-- A part of a part is a part. -/
theorem PartOf.trans {inner part : Node} (hinner : inner.PartOf part) (hpart : part.PartOf root) :
    inner.PartOf root := by
  induction hpart with
  | whole => exact hinner
  | item hitem _ ih => exact .item hitem ih
  | value hm _ ih => exact .value hm ih

theorem value_partOf {m : Member Node} (hm : m ∈ root.members) : m.value.PartOf root := by
  cases root with
  | object members span => exact .value hm .whole
  | array | string | number | boolean | null => exact absurd hm List.not_mem_nil

theorem span_mem_partSpans {m : Member Node} (hm : m ∈ root.members) : m.span ∈ root.partSpans := by
  cases root with
  | object members span => exact List.mem_map_of_mem hm
  | array | string | number | boolean | null => exact absurd hm List.not_mem_nil

/-- What stands in a tidy tree stands inside of its span. -/
theorem PartOf.inside {part : Node} (hpart : part.PartOf root) (h : root.Tidy) :
    root.span.start ≤ part.span.start ∧ part.span.stop ≤ root.span.stop := by
  induction hpart with
  | whole => exact ⟨Nat.le_refl _, Nat.le_refl _⟩
  | item hitem _ ih =>
    have hspan := h.neat.inside _ (List.mem_map_of_mem hitem)
    have hpart := ih (h.item hitem)
    omega
  | value hm _ ih =>
    have hspan := h.neat.inside _ (List.mem_map_of_mem hm)
    have hvalue := h.neat.values _ hm
    have hpart := ih (h.value hm)
    omega

end Node

/-- A derived value is neat: its parts stand in order, inside its span. -/
theorem Grammar.IsValue.neat {text : List Char} {start : Nat} {node : Node}
    (h : IsValue text start node) : node.Neat := by
  obtain ⟨c, tail, hcons, -⟩ := begins_isValue _ _ _ h
  obtain ⟨hapart, hinside⟩ := h.partSpans
  refine ⟨?_, hapart, hinside, fun m hm => ?_⟩
  · have hpos := c.utf8Size_pos
    rw [h.span_eq, covering_start, covering_stop, hcons, byteLength_cons]
    omega
  · cases node with
    | object members span =>
      obtain ⟨inner, rfl, hinner⟩ := h.members
      obtain ⟨front, memberText, back, rfl, hmember⟩ := hinner.exists_of_mem hm
      obtain ⟨⟨body, rest, -, hkey, -⟩, hvalue, hspan⟩ := hmember.key
      have hstop : m.keySpan.start ≤ m.keySpan.stop := by
        rw [hkey, covering_start, covering_stop]
        omega
      rw [hspan]
      exact ⟨Nat.lt_of_le_of_lt hstop hvalue, rfl⟩
    | array | string | number | boolean | null => exact absurd hm List.not_mem_nil

/-- **The tree of a document is tidy.** -/
theorem tidy_of_parse {source : String} {root : Node} (h : Node.parse source = .ok root) :
    root.Tidy := by
  obtain ⟨hdocument, -⟩ := isDocument_of_read h
  intro part hpart
  generalize source.toList = text at hdocument
  cases hdocument with
  | mk _ hvalue _ =>
    obtain ⟨⟨front, inner, back, -, hinner⟩, -⟩ := hvalue.exists_part hpart
    exact hinner.neat

/-! ## 2. Places -/

namespace Node

/-- A remark about a tree: it points at a tree or a member in it, and if it is about two anchors,
    then at an object that has them. -/
structure Shows (root : Node) (d : Diagnostic) : Prop where
  place : ∃ part : Node, part.PartOf root ∧
    (d.span = part.span ∨ ∃ m ∈ part.members, d.span = m.span)
  conflict : d.IsConflict → ∃ members, (Node.object members d.span).PartOf root ∧
    (∃ m ∈ members, m.key = "$anchor") ∧ ∃ m ∈ members, m.key = "$dynamicAnchor"

variable {root : Node} {d : Diagnostic}

/-- A refusal is shown where it points. -/
theorem shows_of_refused (h : root.Refused d) : root.Shows d := by
  obtain ⟨part, hpart, v, hv, rfl⟩ := h
  refine ⟨⟨part, hpart, .inl rfl⟩, fun hconflict => ?_⟩
  exact absurd (Violation.isConflict_iff.mp hconflict) hv

theorem shows_caution (root : Node) (c : Caution) : root.Shows (c.diagnostic root.span) :=
  ⟨⟨root, .whole, .inl rfl⟩, fun hconflict => absurd hconflict (c.not_isConflict _)⟩

/-- What is shown at an item is shown in the array. -/
theorem shows_of_item {items : List Node} {span : Span} {item : Node} (hitem : item ∈ items)
    (h : item.Shows d) : (Node.array items span).Shows d where
  place := by
    obtain ⟨part, hpart, hspan⟩ := h.place
    exact ⟨part, .item hitem hpart, hspan⟩
  conflict := by
    intro hconflict
    obtain ⟨members, hpart, hanchors⟩ := h.conflict hconflict
    exact ⟨members, .item hitem hpart, hanchors⟩

/-- What a tidy tree shows stands inside of its span. -/
theorem Shows.inside (h : root.Shows d) (htidy : root.Tidy) :
    root.span.start ≤ d.span.start ∧ d.span.start < d.span.stop ∧
      d.span.stop ≤ root.span.stop := by
  obtain ⟨part, hpart, hspan | ⟨m, hm, hspan⟩⟩ := h.place
  · have hinside := hpart.inside htidy
    have hproper := (htidy part hpart).proper
    rw [hspan]
    omega
  · have hinside := hpart.inside htidy
    have hmember := (htidy part hpart).inside _ (span_mem_partSpans hm)
    have hvalue := (htidy part hpart).values m hm
    have hproper := (htidy m.value ((value_partOf hm).trans hpart)).proper
    rw [hspan]
    omega

end Node

namespace Member

variable {m : Member Node} {d : Diagnostic}

/-- A remark about a member: about all of it, or about its value. -/
def Shows (m : Member Node) (d : Diagnostic) : Prop :=
  (d.span = m.span ∧ ¬ d.IsConflict) ∨ m.value.Shows d

theorem shows_caution (m : Member Node) (c : Caution) : m.Shows (c.diagnostic m.span) :=
  .inl ⟨rfl, c.not_isConflict _⟩

/-- What is shown at a member is shown in the object. -/
theorem Shows.of_members {members : List (Member Node)} {span : Span} (h : m.Shows d)
    (hm : m ∈ members) : (Node.object members span).Shows d := by
  rcases h with ⟨hspan, hconflict⟩ | hvalue
  · exact ⟨⟨_, .whole, .inr ⟨m, hm, hspan⟩⟩, fun h => absurd h hconflict⟩
  · obtain ⟨⟨part, hpart, hspan⟩, hconflict⟩ := hvalue
    refine ⟨⟨part, .value hm hpart, hspan⟩, fun h => ?_⟩
    obtain ⟨members', hpart', hanchors⟩ := hconflict h
    exact ⟨members', .value hm hpart', hanchors⟩

theorem Shows.inside {members : List (Member Node)} {span : Span} (h : m.Shows d)
    (htidy : (Node.object members span).Tidy) (hm : m ∈ members) :
    m.span.start ≤ d.span.start ∧ d.span.stop ≤ m.span.stop := by
  rcases h with ⟨hspan, -⟩ | hvalue
  · rw [hspan]
    exact ⟨Nat.le_refl _, Nat.le_refl _⟩
  · have hinside := hvalue.inside (htidy.value hm)
    have hmember := htidy.neat.values m hm
    omega

end Member

/-! ## 3. Ordered readings -/

/-- The second remark stands behind the first; or it is about two anchors, and the first stands
    inside of the object that has them. -/
def Diagnostic.Follows (a b : Diagnostic) : Prop :=
  a.span.stop < b.span.start ∨
    b.IsConflict ∧ b.span.start < a.span.start ∧ a.span.stop < b.span.stop

namespace Checked

variable {α β : Type} {P Q : Diagnostic → Prop}

/-- What is said is known, and each remark follows all that were made before. -/
structure Ordered (P : Diagnostic → Prop) (x : Checked α) : Prop where
  shown : ∀ d ∈ x.diagnostics, P d
  sorted : x.diagnostics.Pairwise Diagnostic.Follows

/-- After a step that gives a value, the remarks of the next follow. -/
theorem diagnostics_bind_of_ok {x : Checked α} {f : α → Checked β} {a : α}
    (h : x.result = .ok a) : (x >>= f).diagnostics = x.diagnostics ++ (f a).diagnostics := by
  obtain ⟨warnings, result⟩ := x
  cases h
  show diagnostics ⟨warnings ++ (f a).warnings, (f a).result⟩ = warnings ++ (f a).diagnostics
  unfold diagnostics
  cases (f a).result with
  | ok b => rfl
  | error d => exact List.append_assoc ..

/-- After a step that ends the work, nothing follows. -/
theorem diagnostics_bind_of_error {x : Checked α} {f : α → Checked β} {d : Diagnostic}
    (h : x.result = .error d) : (x >>= f).diagnostics = x.diagnostics := by
  obtain ⟨warnings, result⟩ := x
  cases h
  rfl

theorem Ordered.mono {x : Checked α} (hx : x.Ordered P) (h : ∀ d, P d → Q d) : x.Ordered Q :=
  ⟨fun d hd => h d (hx.shown d hd), hx.sorted⟩

theorem ordered_pure (a : α) : (pure a : Checked α).Ordered P :=
  ⟨fun _ hd => absurd hd List.not_mem_nil, .nil⟩

theorem ordered_warn {c : Caution} {span : Span} (h : P (c.diagnostic span)) :
    (warn c span).Ordered P :=
  ⟨List.forall_mem_singleton.mpr h, List.pairwise_singleton _ _⟩

/-- At most one remark is in order. -/
theorem Terse.ordered {x : Checked α} (hx : x.Terse P) : x.Ordered P := by
  obtain ⟨warnings, result⟩ := x
  obtain ⟨hquiet, hrefusal⟩ := hx
  cases hquiet
  cases result with
  | ok a => exact ⟨fun d hd => absurd hd List.not_mem_nil, .nil⟩
  | error d => exact ⟨List.forall_mem_singleton.mpr (hrefusal d rfl), List.pairwise_singleton _ _⟩

/-- To go on keeps the order, if what comes next follows what was said. -/
theorem Ordered.bind {x : Checked α} {f : α → Checked β} (hx : x.Ordered P)
    (hf : ∀ a, x.result = .ok a → (f a).Ordered P)
    (hnext : ∀ a, x.result = .ok a → ∀ d ∈ x.diagnostics, ∀ e ∈ (f a).diagnostics, d.Follows e) :
    (x >>= f).Ordered P := by
  cases hresult : x.result with
  | error d =>
    have hsame := diagnostics_bind_of_error (f := f) hresult
    exact ⟨hsame ▸ hx.shown, hsame ▸ hx.sorted⟩
  | ok a =>
    obtain ⟨hshown, hsorted⟩ := hf a hresult
    have hboth := diagnostics_bind_of_ok (f := f) hresult
    refine ⟨hboth ▸ List.forall_mem_append.mpr ⟨hx.shown, hshown⟩, hboth ▸ ?_⟩
    exact List.pairwise_append.mpr ⟨hx.sorted, hsorted, hnext a hresult⟩

theorem Ordered.bind_pure {x : Checked α} (hx : x.Ordered P) (f : α → β) :
    (x >>= fun a => pure (f a)).Ordered P :=
  hx.bind (fun a _ => ordered_pure (f a)) fun _ _ _ _ _ he => absurd he List.not_mem_nil

theorem Terse.bind_ordered {x : Checked α} {f : α → Checked β} (hx : x.Terse P)
    (hf : ∀ a, (f a).Ordered P) : (x >>= f).Ordered P := by
  refine hx.ordered.bind (fun a _ => hf a) fun a ha d hd => ?_
  unfold diagnostics at hd
  rw [ha, hx.quiet] at hd
  exact absurd hd List.not_mem_nil

/-- **A list is read in order** if its items stand one after the other, and what is said about an
    item is said inside of its span. -/
theorem ordered_mapM (R : α → Diagnostic → Prop) (span : α → Span) {f : α → Checked β}
    {xs : List α} (hf : ∀ x ∈ xs, (f x).Ordered (R x))
    (hinside : ∀ x ∈ xs, ∀ d, R x d → (span x).start ≤ d.span.start ∧ d.span.stop ≤ (span x).stop)
    (hapart : (xs.map span).Pairwise fun a b => a.stop < b.start) :
    (xs.mapM f).Ordered fun d => ∃ x ∈ xs, R x d := by
  induction xs with
  | nil =>
    rw [List.mapM_nil]
    exact ordered_pure []
  | cons x xs ih =>
    obtain ⟨hfx, hfxs⟩ := List.forall_mem_cons.mp hf
    obtain ⟨hinx, hinxs⟩ := List.forall_mem_cons.mp hinside
    obtain ⟨hfirst, hrest⟩ := List.pairwise_cons.mp hapart
    have hxs := ih hfxs hinxs hrest
    rw [List.mapM_cons]
    refine (hfx.mono fun d hd => ⟨x, List.mem_cons_self, hd⟩).bind (fun y _ => ?_)
      fun y _ d hd e he => ?_
    · refine (hxs.mono fun d hd => ?_).bind_pure (y :: ·)
      obtain ⟨x', hx', hd⟩ := hd
      exact ⟨x', List.mem_cons_of_mem x hx', hd⟩
    · obtain ⟨x', hx', he⟩ := (hxs.bind_pure (y :: ·)).shown e he
      have hd := hinx d (hfx.shown d hd)
      have he := hinxs x' hx' e he
      have hlt := hfirst (span x') (List.mem_map_of_mem hx')
      exact .inl (by omega)

end Checked

/-! ## 4. Schemas -/

namespace Payload

open Checked

/-- A terse reader shows its refusal in order. -/
theorem ordered_of_terse {α : Type} {x : Checked α} {node : Node} (h : x.Terse node.Refused) :
    x.Ordered node.Shows :=
  h.ordered.mono fun _ => Node.shows_of_refused

theorem ordered_refuse {α : Type} (node : Node) {v : Violation} (hv : v ≠ .twoAnchors) :
    (refuse v node.span : Checked α).Ordered node.Shows :=
  ordered_of_terse (terse_refuse (node.refused_here hv))

/-- A check makes at most one remark. -/
theorem ordered_checkText (k : TextKeyword) (text : String) (node : Node) :
    (checkText engines k text node.span).Ordered node.Shows := by
  cases k with
  | id =>
    show (checkId engines text node.span).Ordered node.Shows
    unfold checkId
    split
    · exact ordered_refuse node (fun h => (nomatch h))
    · exact ordered_pure ()
    · split
      · exact ordered_warn (node.shows_caution _)
      · exact ordered_refuse node (fun h => (nomatch h))
  | ref | dynamicRef => exact ordered_of_terse (terse_checkReference text node)
  | anchor | dynamicAnchor => exact ordered_of_terse (terse_checkAnchor text node)
  | pattern =>
    show (checkPattern engines text node.span).Ordered node.Shows
    unfold checkPattern
    split
    · exact ordered_refuse node (fun h => (nomatch h))
    · split
      · exact ordered_pure ()
      · exact ordered_warn (node.shows_caution _)
  | comment | title | description => exact ordered_pure ()

theorem ordered_readText (k : TextKeyword) (node : Node) :
    (readText engines k node).Ordered node.Shows :=
  ((terse_readString _ node).mono fun _ => Node.shows_of_refused).bind_ordered fun text =>
    (ordered_checkText k text node).bind_pure fun _ => text

/-- A directive is remarked on at its member, after its value has been read. -/
theorem ordered_readDirective (d : Directive) (m : Member Node) :
    (readDirective d m.value m.span).Ordered m.Shows := by
  cases d with
  | schema =>
    refine ((terse_readString _ m.value).mono fun _ h => ?_).bind_ordered fun _ =>
      ordered_warn (m.shows_caution _)
    exact .inr (Node.shows_of_refused h)
  | vocabulary => exact ordered_warn (m.shows_caution _)

end Payload

namespace Schema

open Checked Payload

/-- Items stand one after the other, and so do the remarks about them. -/
theorem ordered_items {β : Type} {items : List Node} {span : Span}
    (htidy : (Node.array items span).Tidy) {f : Node → Checked β}
    (hf : ∀ item ∈ items, (f item).Ordered item.Shows) :
    (items.mapM f).Ordered (Node.array items span).Shows := by
  refine (ordered_mapM Node.Shows Node.span hf (fun item hitem d hd => ?_)
    htidy.neat.apart).mono fun d hd => ?_
  · have hinside := hd.inside (htidy.item hitem)
    omega
  · obtain ⟨item, hitem, hd⟩ := hd
    exact Node.shows_of_item hitem hd

/-- Members stand one after the other, and so do the remarks about them. -/
theorem ordered_members {β : Type} {members : List (Member Node)} {span : Span}
    (htidy : (Node.object members span).Tidy) {f : Member Node → Checked β}
    (hf : ∀ m ∈ members, (f m).Ordered m.Shows) :
    (members.mapM f).Ordered fun d => ∃ m ∈ members, m.Shows d :=
  ordered_mapM Member.Shows Member.span hf (fun _ hm _ hd => hd.inside htidy hm) htidy.neat.apart

/-- What can be said about an object as a whole. -/
def Conflict (members : List (Member Node)) (span : Span) (d : Diagnostic) : Prop :=
  d = Violation.twoAnchors.diagnostic span ∧ (∃ m ∈ members, m.key = "$anchor") ∧
    ∃ m ∈ members, m.key = "$dynamicAnchor"

theorem terse_ofParts {members : List (Member Node)} {parts : List Part} (span : Span)
    (h : (members.mapM (partOf engines)).result = .ok parts) :
    (ofParts parts span).Terse (Conflict members span) := by
  simp only [mapM_eq_ok_iff, partOf_eq_ok_iff] at h
  obtain ⟨hkept, -⟩ := kept_of_partTold h
  rw [ofParts]
  split
  · rename_i hhas
    rw [Bool.and_eq_true, has_iff_of_kept hkept (by simp), has_iff_of_kept hkept (by simp)] at hhas
    exact terse_refuse ⟨rfl, hhas⟩
  · exact terse_pure _

/-- Two anchors are shown at the object that has them. -/
theorem shows_of_conflict {members : List (Member Node)} {span : Span} {d : Diagnostic}
    (h : Conflict members span d) : (Node.object members span).Shows d := by
  obtain ⟨rfl, hanchors⟩ := h
  exact ⟨⟨_, .whole, .inl rfl⟩, fun _ => ⟨members, .whole, hanchors⟩⟩

theorem ordered_readSchemas (k : ListKeyword) {node : Node} (htidy : node.Tidy)
    (h : ∀ inner : Node, inner.depth < node.depth → inner.Tidy →
      (ofNode engines inner).Ordered inner.Shows) :
    (readSchemas engines k node).Ordered node.Shows := by
  cases node with
  | array items span =>
    rw [readSchemas_array, schemasOf_eq_mapM]
    exact ordered_items htidy fun item hitem =>
      h item (Node.depth_item_lt span hitem) (htidy.item hitem)
  | _ => exact ordered_of_terse (terse_wrongKind _ _ _)

theorem ordered_readEntries (k : MapKeyword) {node : Node} (htidy : node.Tidy)
    (h : ∀ inner : Node, inner.depth < node.depth → inner.Tidy →
      (ofNode engines inner).Ordered inner.Shows) :
    (readEntries engines k node).Ordered node.Shows := by
  cases node with
  | object members span =>
    rw [readEntries_object, entriesOf_eq_mapM]
    refine (ordered_members htidy fun m hm => ?_).mono fun d hd => ?_
    · have hvalue := h m.value (Node.depth_value_lt span hm) (htidy.value hm)
      exact (hvalue.mono fun d hd => .inr hd).bind_pure _
    · obtain ⟨m, hm, hd⟩ := hd
      exact hd.of_members hm
  | _ => exact ordered_of_terse (terse_wrongKind _ _ _)

/-- One case for each way a keyword is read. -/
theorem ordered_partOf (m : Member Node) (htidy : m.value.Tidy)
    (h : ∀ inner : Node, inner.depth ≤ m.value.depth → inner.Tidy →
      (ofNode engines inner).Ordered inner.Shows) :
    (partOf engines m).Ordered m.Shows := by
  obtain ⟨key, keySpan, value, span⟩ := m
  have hinner : ∀ inner : Node, inner.depth < value.depth → inner.Tidy →
      (ofNode engines inner).Ordered inner.Shows := fun inner hlt => h inner hlt.le
  have hplaced : ∀ {α : Type} {x : Checked α} (f : α → Keyword Schema), x.Ordered value.Shows →
      (x >>= fun a => pure (placed span (f a))).Ordered
        (Member.Shows ⟨key, keySpan, value, span⟩) :=
    fun f hx => (hx.mono fun d hd => .inr hd).bind_pure _
  rw [partOf]
  split
  · exact (ordered_warn (Member.shows_caution _ _)).bind_pure _
  · exact (ordered_readDirective _ ⟨key, keySpan, value, span⟩).bind_pure _
  · exact hplaced _ (ordered_readText _ value)
  · exact hplaced _ (h value le_rfl htidy)
  · exact hplaced _ (ordered_readSchemas _ htidy hinner)
  · exact hplaced _ (ordered_readEntries _ htidy hinner)
  · exact hplaced _ (ordered_of_terse (terse_readTypes value))
  · exact hplaced _ (ordered_of_terse (terse_readArray _ value))
  · exact ordered_pure _
  · exact hplaced _ (ordered_of_terse (terse_readBound _ value))
  · exact hplaced _ (ordered_of_terse (terse_readCount _ value))
  · exact hplaced _ (ordered_of_terse (terse_readBoolean _ value))
  · exact hplaced _ (ordered_of_terse (terse_readNames _ value))
  · exact hplaced _ (ordered_of_terse (terse_readDependencies value))

/-- **The reading of a tidy tree is ordered.** -/
theorem ordered_ofNode (node : Node) (htidy : node.Tidy) :
    (ofNode engines node).Ordered node.Shows := by
  induction node using Node.induction_on_depth with
  | step node ih =>
    cases node with
    | object members span =>
      have hmembers :
          (members.mapM (partOf engines)).Ordered fun d => ∃ m ∈ members, m.Shows d := by
        refine ordered_members htidy fun m hm =>
          ordered_partOf m (htidy.value hm) fun inner hle => ?_
        exact ih inner (hle.trans_lt (Node.depth_value_lt span hm))
      rw [ofNode, partsOf_eq_mapM]
      refine (hmembers.mono fun d hd => ?_).bind (fun parts hparts => ?_)
        fun parts hparts d hd e he => ?_
      · obtain ⟨m, hm, hd⟩ := hd
        exact hd.of_members hm
      · exact (terse_ofParts span hparts).ordered.mono fun d => shows_of_conflict
      · -- the object as a whole is around all of its members
        obtain ⟨m, hm, hd⟩ := hmembers.shown d hd
        obtain ⟨rfl, -⟩ := (terse_ofParts span hparts).ordered.shown e he
        have hinside := hd.inside htidy hm
        have hmember := htidy.neat.inside _ (List.mem_map_of_mem hm)
        exact .inr ⟨rfl, hmember.1.trans_le hinside.1, hinside.2.trans_lt hmember.2⟩
    | boolean b span =>
      cases b <;> rw [ofNode] <;> exact ordered_pure _
    | _ =>
      rw [ofNode]
      exact ordered_refuse _ (fun h => (nomatch h))

end Schema

/-! ## 5. Documents -/

/-- The remarks about a document, and where they stand. -/
structure InSourceOrder (root : Node) (remarks : List Diagnostic) : Prop where
  /-- Each is about a tree or a member that stands in the document. -/
  place : ∀ d ∈ remarks, d.span.start < d.span.stop ∧ ∃ part : Node, part.PartOf root ∧
    (d.span = part.span ∨ ∃ m ∈ part.members, d.span = m.span)
  /-- Warnings stand apart, one after the other. -/
  warnings : (Diagnostic.warnings remarks).Pairwise fun a b => a.span.stop < b.span.start
  /-- What is fatal stands behind all warnings. -/
  fatal : ∀ d ∈ remarks, d.isFatal = true → ¬ d.IsConflict →
    ∀ w ∈ Diagnostic.warnings remarks, w.span.stop < d.span.start
  /-- That there are two anchors is said of the object that has them; each warning stands before it
      or in it. -/
  conflict : ∀ d ∈ remarks, d.IsConflict →
    (∃ members, (Node.object members d.span).PartOf root ∧
      (∃ m ∈ members, m.key = "$anchor") ∧ ∃ m ∈ members, m.key = "$dynamicAnchor") ∧
    ∀ w ∈ Diagnostic.warnings remarks, w.span.stop < d.span.start ∨
      d.span.start < w.span.start ∧ w.span.stop < d.span.stop

theorem Diagnostic.IsConflict.isFatal {d : Diagnostic} (h : d.IsConflict) : d.isFatal = true := by
  rw [h]
  rfl

/-- What holds from each remark to the later ones holds from each warning to a fatal one. -/
theorem Checked.Graded.rel_of_fatal {α : Type} {R : Diagnostic → Diagnostic → Prop} {x : Checked α}
    (hx : x.Graded) (h : x.diagnostics.Pairwise R) {d w : Diagnostic} (hd : d ∈ x.diagnostics)
    (hfatal : d.isFatal = true) (hw : w ∈ Diagnostic.warnings x.diagnostics) : R w d := by
  have hwarning : ∀ e ∈ x.warnings, e.isFatal = false := by
    intro e he
    rw [Diagnostic.isFatal, hx.warning e he]
    rfl
  obtain ⟨hw, hmild⟩ := List.mem_filter.mp hw
  unfold diagnostics at h hd hw
  cases hresult : x.result with
  | ok a =>
    simp only [hresult] at hd
    exact absurd hfatal (by simp [hwarning d hd])
  | error e =>
    simp only [hresult, List.mem_append, List.mem_singleton] at h hd hw
    obtain ⟨-, -, hlast⟩ := List.pairwise_append.mp h
    rcases hd with hd | rfl
    · exact absurd hfatal (by simp [hwarning d hd])
    · rcases hw with hw | rfl
      · exact hlast w hw d (List.mem_singleton_self d)
      · exact absurd hmild (by simp [hfatal])

/-- Remarks in order that are graded stand in the order of the source. -/
theorem inSourceOrder_of_ordered {root : Node} {x : Checked Schema} (htidy : root.Tidy)
    (hgraded : x.Graded) (h : x.Ordered root.Shows) : InSourceOrder root x.diagnostics where
  place := fun d hd => ⟨((h.shown d hd).inside htidy).2.1, (h.shown d hd).place⟩
  warnings := by
    refine (h.sorted.filter _).imp_of_mem fun {a b} _ hb hfollows => ?_
    rcases hfollows with hbehind | ⟨hconflict, -⟩
    · exact hbehind
    · have hwarning := (List.mem_filter.mp hb).2
      rw [hconflict.isFatal] at hwarning
      cases hwarning
  fatal := by
    intro d hd hfatal hconflict w hw
    rcases hgraded.rel_of_fatal h.sorted hd hfatal hw with hbehind | ⟨habsurd, -⟩
    · exact hbehind
    · exact absurd habsurd hconflict
  conflict := by
    intro d hd hconflict
    refine ⟨(h.shown d hd).conflict hconflict, fun w hw => ?_⟩
    rcases hgraded.rel_of_fatal h.sorted hd hconflict.isFatal hw with hbehind | ⟨-, hinside⟩
    · exact .inl hbehind
    · exact .inr hinside

/-- **Remarks come in source order and point at what stands in the source.** And one who reads the
    tree with a list of remarks at hand only adds to its end, always the same. -/
theorem check_inSourceOrder (engines : Engines) (source : String) (root : Node)
    (h : Node.parse source = .ok root) :
    InSourceOrder root (check engines source) ∧
      ∀ (node : Node) (sink : List Diagnostic), Recording.node engines node sink =
        ((Schema.ofNode engines node).result, sink ++ (Schema.ofNode engines node).warnings) := by
  have htidy := tidy_of_parse h
  have hanalyze : analyze engines source = Schema.ofNode engines root := by rw [analyze, h]
  refine ⟨?_, Recording.node_eq⟩
  rw [check, hanalyze]
  exact inSourceOrder_of_ordered htidy (Schema.graded_ofNode root)
    (Schema.ordered_ofNode root htidy)

/-- A warning before and one inside of an object with anchors of both kinds. -/
def anchored : String :=
  "\x7b\"a\":true,\"not\":\x7b\"$anchor\":\"a\",\"a\":true,\"$dynamicAnchor\":\"a\"\x7d\x7d"

/-- The tree of that text. -/
def anchoredTree : Node :=
  .object
    [⟨"a", ⟨1, 4⟩, .boolean true ⟨5, 9⟩, ⟨1, 9⟩⟩,
     ⟨"not", ⟨10, 15⟩,
      .object
        [⟨"$anchor", ⟨17, 26⟩, .string "a" ⟨27, 30⟩, ⟨17, 30⟩⟩,
         ⟨"a", ⟨31, 34⟩, .boolean true ⟨35, 39⟩, ⟨31, 39⟩⟩,
         ⟨"$dynamicAnchor", ⟨40, 56⟩, .string "a" ⟨57, 60⟩, ⟨40, 60⟩⟩] ⟨16, 61⟩,
      ⟨10, 61⟩⟩] ⟨0, 62⟩

theorem parse_anchored : Node.parse anchored = .ok anchoredTree := by
  have ha := stringBody_of_all_plain "a" (by decide)
  have hanchor := stringBody_of_all_plain "$anchor" (by decide)
  have hdynamic := stringBody_of_all_plain "$dynamicAnchor" (by decide)
  have hnot := stringBody_of_all_plain "not" (by decide)
  have hinner := @Parts.more _ (MemberText IsValue) 17 [] _ [] _ _ _ (by decide)
    (@MemberText.mk IsValue 17 _ _ [] [] _ _ hanchor (by decide) (by decide) (.string ha))
    (by decide)
    (@Parts.more _ _ 31 [] _ [] _ _ _ (by decide)
      (@MemberText.mk IsValue 31 _ _ [] [] _ _ ha (by decide) (by decide) .true) (by decide)
      (@Parts.last _ _ 40 [] _ [] _ (by decide)
        (@MemberText.mk IsValue 40 _ _ [] [] _ _ hdynamic (by decide) (by decide) (.string ha))
        (by decide)))
  have houter := @Parts.more _ (MemberText IsValue) 1 [] _ [] _ _ _ (by decide)
    (@MemberText.mk IsValue 1 _ _ [] [] _ _ ha (by decide) (by decide) .true) (by decide)
    (@Parts.last _ _ 10 [] _ [] _ (by decide)
      (@MemberText.mk IsValue 10 _ _ [] [] _ _ hnot (by decide) (by decide) (.object hinner))
      (by decide))
  have hdocument : IsDocument anchored.toList anchoredTree :=
    @IsDocument.mk [] _ [] _ (by decide) (.object houter) (by decide)
  rw [Node.parse]
  exact hdocument.read_eq_ok (by decide)

theorem check_anchored :
    Node.parse anchored = .ok anchoredTree ∧
      check .standard anchored =
        [(Caution.unknownKeyword "a").diagnostic ⟨1, 9⟩,
         (Caution.unknownKeyword "a").diagnostic ⟨31, 39⟩,
         Violation.twoAnchors.diagnostic ⟨16, 61⟩] ∧
      InSourceOrder anchoredTree (check .standard anchored) := by
  obtain ⟨horder, -⟩ := check_inSourceOrder .standard anchored anchoredTree parse_anchored
  refine ⟨parse_anchored, ?_, horder⟩
  rw [check, analyze, parse_anchored]
  rfl

end SchemaCompiler
