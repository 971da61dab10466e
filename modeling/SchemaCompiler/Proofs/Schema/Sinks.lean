/-
  File:      SchemaCompiler/Proofs/Schema/Sinks.lean
  Subject:   Readings that write their warnings into a sink.

  A schema can also be read by one who holds a list of remarks and writes each warning to its end as
  it comes up. Such a `Recording` could look at what the list holds already, or change it.

  * `Recording.node` -- the reading of a schema as such a walk;
  * `Checked.onto` -- a result with warnings, written to the end of a list; going on after a result
    is going on after the writing (`Checked.onto_bind`);
  * **`Recording.node_eq`** -- on every list the walk comes to the schema that the tree denotes, and
    adds its warnings to the end.
-/
import SchemaCompiler.Proofs.Schema.Refusals

namespace SchemaCompiler

variable {engines : Engines}

/-! ## 1. Walks with a sink -/

/-- A walk that is given the remarks so far; it comes to a value or ends early, and leaves its own
    remarks behind. -/
abbrev Recording (α : Type) : Type := ExceptT Diagnostic (StateM (List Diagnostic)) α

namespace Recording

open Payload Schema

variable {α : Type}

/-- Looks at nothing but the tree. -/
def answer (result : Except Diagnostic α) : Recording α := fun sink => (result, sink)

/-- Ends the walk. -/
def abort (v : Violation) (span : Span) : Recording α := throw (v.diagnostic span)

/-- Writes a warning to the end of the sink. -/
def record (c : Caution) (span : Span) : Recording Unit := modify (· ++ [c.diagnostic span])

section

variable (engines)

def identifier (text : String) (span : Span) : Recording Unit :=
  match engines.uriFragment? text with
  | none => abort (.notUri text) span
  | some none => pure ()
  | some (some fragment) =>
    if fragment = "" then record .emptyFragment span else abort .fragment span

def pattern (text : String) (span : Span) : Recording Unit :=
  if trailingBackslashes text.toList % 2 = 1 then abort .danglingEscape span
  else
    match engines.patternFault? text with
    | none => pure ()
    | some fault => record (.foreignPattern fault) span

/-- Only an identifier and a pattern may be worth a warning. -/
def check (k : TextKeyword) (text : String) (span : Span) : Recording Unit :=
  match k with
  | .id => identifier engines text span
  | .ref | .dynamicRef => answer (checkReference engines text span).result
  | .anchor | .dynamicAnchor => answer (checkAnchor text span).result
  | .pattern => pattern engines text span
  | .comment | .title | .description => pure ()

def text (k : TextKeyword) (node : Node) : Recording String := do
  let text ← answer (Payload.readString (.text k) node).result
  check engines k text node.span
  return text

def directive (d : Directive) (node : Node) (span : Span) : Recording Unit :=
  match d with
  | .schema => do
    let _ ← answer (Payload.readString (.directive .schema) node).result
    record (.directive .schema) span
  | .vocabulary => record (.directive .vocabulary) span

def parts (parts : List Part) (span : Span) : Recording Schema :=
  let schema := Schema.mk (parts.filterMap Part.active?) (parts.filterMap Part.parked?) (some span)
  if schema.has (.text .anchor) && schema.has (.text .dynamicAnchor) then abort .twoAnchors span
  else pure schema

mutual

/-- The walk through a schema. -/
def node : Node → Recording Schema
  | .object ms span => do parts (← members ms) span
  | .boolean true span => pure (always span)
  | .boolean false span => pure (never span)
  | .array _ span => abort (.notSchema .array) span
  | .string _ span => abort (.notSchema .string) span
  | .number _ span => abort (.notSchema .number) span
  | .null span => abort (.notSchema .null) span

/-- The members of an object, one after the other. -/
def members : List (Member Node) → Recording (List Part)
  | [] => pure []
  | m :: ms => do
    let part ← member m
    let parts ← members ms
    pure (part :: parts)

/-- Keywords that hold no schema are read on the side. -/
def member : Member Node → Recording Part
  | ⟨key, _, value, span⟩ =>
    match KeywordKind.ofName? key with
    | none => do
      record (.unknownKeyword key) span
      pure (.parked ⟨key, value, span, .unknown⟩)
    | some (.directive d) => do
      directive d value span
      pure (.parked ⟨key, value, span, .notYetSupported⟩)
    | some (.text k) => do pure (placed span (.text k (← text engines k value)))
    | some (.schema k) => do pure (placed span (.schema k (← node value)))
    | some (.schemas k) => do pure (placed span (.schemas k (← list k value)))
    | some (.entries k) => do pure (placed span (.entries k (← map k value)))
    | some .types => do pure (placed span (.types (← answer (readTypes value).result)))
    | some .enum => do pure (placed span (.enum (← answer (readArray .enum value).result)))
    | some (.data k) => pure (placed span (.data k value))
    | some (.number k) => do
      pure (placed span (.number k (← answer (readBound k value).result)))
    | some (.count k) => do pure (placed span (.count k (← answer (readCount k value).result)))
    | some (.flag k) => do
      pure (placed span (.flag k (← answer (readBoolean (.flag k) value).result)))
    | some .required => do
      pure (placed span (.required (← answer (readNames .required value).result)))
    | some .dependentRequired => do
      pure (placed span (.dependentRequired (← answer (readDependencies value).result)))

/-- An array of schemas. -/
def list (k : ListKeyword) : Node → Recording (List Schema)
  | .array is _ => items is
  | other => abort (.wrongKind (.schemas k) .array other.kind) other.span

/-- An object of schemas. -/
def map (k : MapKeyword) : Node → Recording (List (Entry Schema))
  | .object ms _ => entries ms
  | other => abort (.wrongKind (.entries k) .object other.kind) other.span

def items : List Node → Recording (List Schema)
  | [] => pure []
  | i :: is => do
    let schema ← node i
    let schemas ← items is
    pure (schema :: schemas)

def entries : List (Member Node) → Recording (List (Entry Schema))
  | [] => pure []
  | ⟨key, _, value, span⟩ :: ms => do
    let schema ← node value
    let rest ← entries ms
    pure (⟨key, schema, span⟩ :: rest)

end

end

end Recording

/-! ## 2. Results written to a sink -/

namespace Checked

open Recording

variable {α β : Type}

/-- Writes the warnings of a result to the end of a sink. -/
def onto (x : Checked α) : Recording α := fun sink => (x.result, sink ++ x.warnings)

/-- A value without warnings leaves the sink as it is. -/
theorem onto_pure (a : α) : (pure a : Checked α).onto = pure a := by
  funext sink
  show (Except.ok a, sink ++ []) = (Except.ok a, sink)
  rw [List.append_nil]

/-- Warnings go to the sink in the order of the readings. -/
theorem onto_bind (x : Checked α) (f : α → Checked β) :
    (x >>= f).onto = x.onto >>= fun a => (f a).onto := by
  funext sink
  obtain ⟨warnings, result⟩ := x
  cases result with
  | ok a =>
    show ((f a).result, sink ++ (warnings ++ (f a).warnings)) =
      ((f a).result, sink ++ warnings ++ (f a).warnings)
    rw [List.append_assoc]
  | error d => rfl

/-- A refusal leaves the sink as it is and ends the work. -/
theorem onto_refuse (v : Violation) (span : Span) :
    (refuse v span : Checked α).onto = abort v span := by
  funext sink
  show (Except.error (v.diagnostic span), sink ++ []) = (Except.error (v.diagnostic span), sink)
  rw [List.append_nil]

theorem onto_warn (c : Caution) (span : Span) : (warn c span).onto = record c span := rfl

theorem onto_ite {p : Prop} [Decidable p] (x y : Checked α) :
    (if p then x else y).onto = if p then x.onto else y.onto := by
  split
  · rfl
  · rfl

/-- What raises no warning only answers. -/
theorem onto_of_quiet {x : Checked α} (h : x.warnings = []) : x.onto = answer x.result := by
  funext sink
  show (x.result, sink ++ x.warnings) = (x.result, sink)
  rw [h, List.append_nil]

end Checked

/-! ## 3. The same reading -/

namespace Recording

open Checked Payload Schema

theorem onto_checkId (text : String) (span : Span) :
    (checkId engines text span).onto = identifier engines text span := by
  unfold checkId identifier
  cases engines.uriFragment? text with
  | none => exact onto_refuse _ span
  | some fragment? =>
    cases fragment? with
    | none => exact onto_pure ()
    | some fragment =>
      show (if fragment = "" then warn .emptyFragment span else refuse .fragment span).onto = _
      rw [onto_ite, onto_warn, onto_refuse]

theorem onto_checkPattern (text : String) (span : Span) :
    (checkPattern engines text span).onto = pattern engines text span := by
  unfold checkPattern pattern
  rw [onto_ite, onto_refuse]
  cases engines.patternFault? text with
  | none => rw [onto_pure]
  | some fault => rw [onto_warn]

/-- The checks of a text put their warnings into the sink. -/
theorem onto_checkText (k : TextKeyword) (text : String) (node : Node) :
    (checkText engines k text node.span).onto = check engines k text node.span := by
  cases k with
  | id => exact onto_checkId text node.span
  | ref | dynamicRef => exact onto_of_quiet (terse_checkReference text node).quiet
  | anchor | dynamicAnchor => exact onto_of_quiet (terse_checkAnchor text node).quiet
  | pattern => exact onto_checkPattern text node.span
  | comment | title | description => exact onto_pure ()

theorem onto_readText (k : TextKeyword) (node : Node) :
    (readText engines k node).onto = text engines k node := by
  unfold readText text
  simp only [onto_bind, onto_of_quiet (terse_readString _ node).quiet, onto_checkText, onto_pure]

theorem onto_readDirective (d : Directive) (node : Node) (span : Span) :
    (readDirective d node span).onto = directive d node span := by
  cases d with
  | schema =>
    have hquiet := onto_of_quiet (terse_readString (.directive .schema) node).quiet
    simp only [readDirective, directive, onto_bind, hquiet, onto_warn]
  | vocabulary => exact onto_warn _ span

/-- Putting the parts together raises no warning. -/
theorem onto_ofParts (ps : List Part) (span : Span) : (ofParts ps span).onto = parts ps span := by
  simp only [ofParts, parts, onto_ite, onto_refuse, onto_pure]

theorem onto_placed {α : Type} {x : Checked α} {y : Recording α} (h : x.onto = y) (span : Span)
    (f : α → Keyword Schema) :
    (x >>= fun a => pure (placed span (f a))).onto = y >>= fun a => pure (placed span (f a)) := by
  simp only [onto_bind, onto_pure, h]

mutual

/-- **A reading poured into a sink is the work done on that sink**, one case for each kind of tree;
    the lemmas below are the other cases of the recursion. -/
theorem onto_ofNode : (tree : Node) → (ofNode engines tree).onto = node engines tree
  | .object ms span => by
    rw [ofNode, node, onto_bind, onto_partsOf ms]
    simp only [onto_ofParts]
  | .boolean true _ | .boolean false _ => by rw [ofNode, node, onto_pure]
  | .array .. | .string .. | .number .. | .null _ => by rw [ofNode, node, onto_refuse]

theorem onto_partsOf : (ms : List (Member Node)) → (partsOf engines ms).onto = members engines ms
  | [] => by rw [partsOf, members, onto_pure]
  | m :: ms => by
    rw [partsOf, members, onto_bind, onto_partOf m]
    simp only [onto_bind, onto_pure, onto_partsOf ms]

theorem onto_partOf : (m : Member Node) → (partOf engines m).onto = member engines m
  | ⟨key, keySpan, value, span⟩ => by
    rw [partOf, member]
    cases KeywordKind.ofName? key with
    | none => simp only [onto_bind, onto_warn, onto_pure]
    | some kind =>
      cases kind with
      | directive d => simp only [onto_bind, onto_readDirective, onto_pure]
      | text k => exact onto_placed (onto_readText k value) span _
      | schema k => exact onto_placed (onto_ofNode value) span _
      | schemas k => exact onto_placed (onto_readSchemas k value) span _
      | entries k => exact onto_placed (onto_readEntries k value) span _
      | types => exact onto_placed (onto_of_quiet (terse_readTypes value).quiet) span _
      | enum => exact onto_placed (onto_of_quiet (terse_readArray .enum value).quiet) span _
      | data k => exact onto_pure _
      | number k => exact onto_placed (onto_of_quiet (terse_readBound k value).quiet) span _
      | count k => exact onto_placed (onto_of_quiet (terse_readCount k value).quiet) span _
      | flag k => exact onto_placed (onto_of_quiet (terse_readBoolean _ value).quiet) span _
      | required => exact onto_placed (onto_of_quiet (terse_readNames _ value).quiet) span _
      | dependentRequired =>
        exact onto_placed (onto_of_quiet (terse_readDependencies value).quiet) span _

theorem onto_readSchemas (k : ListKeyword) :
    (tree : Node) → (readSchemas engines k tree).onto = list engines k tree
  | .array is _ => by rw [readSchemas, list, onto_schemasOf is]
  | .object .. | .string .. | .number .. | .boolean .. | .null _ => by
    simp only [readSchemas, list, wrongKind, onto_refuse]

theorem onto_readEntries (k : MapKeyword) :
    (tree : Node) → (readEntries engines k tree).onto = map engines k tree
  | .object ms _ => by rw [readEntries, map, onto_entriesOf ms]
  | .array .. | .string .. | .number .. | .boolean .. | .null _ => by
    simp only [readEntries, map, wrongKind, onto_refuse]

theorem onto_schemasOf : (is : List Node) → (schemasOf engines is).onto = items engines is
  | [] => by rw [schemasOf, items, onto_pure]
  | i :: is => by
    rw [schemasOf, items, onto_bind, onto_ofNode i]
    simp only [onto_bind, onto_pure, onto_schemasOf is]

theorem onto_entriesOf : (ms : List (Member Node)) →
    (entriesOf engines ms).onto = entries engines ms
  | [] => by rw [entriesOf, entries, onto_pure]
  | ⟨_, _, value, _⟩ :: ms => by
    rw [entriesOf, entries, onto_bind, onto_ofNode value]
    simp only [onto_bind, onto_pure, onto_entriesOf ms]

end

/-- **On every sink the walk through a schema comes to the same and adds the same to the end.** -/
theorem node_eq (tree : Node) (sink : List Diagnostic) :
    node engines tree sink =
      ((ofNode engines tree).result, sink ++ (ofNode engines tree).warnings) :=
  congrFun (onto_ofNode tree).symm sink

end Recording

end SchemaCompiler
