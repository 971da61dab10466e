/-
  File:      SchemaCompiler/Proofs/Schema/Refusals.lean
  Subject:   Where the value of a keyword is refused.

  Most readers of values raise no warnings: they give a value or say why not, and then they point at
  the tree they were given or at a tree in it (`Node.Refused`). Such readers are `Checked.Terse`,
  and what is made of terse readers is terse.
-/
import SchemaCompiler.Proofs.Json.Spans
import SchemaCompiler.Proofs.Schema.Readings

namespace SchemaCompiler

variable {engines : Engines}

/-! ## 1. Refused trees -/

/-- The remark is that a schema has anchors of both kinds. -/
def Diagnostic.IsConflict (d : Diagnostic) : Prop := d = Violation.twoAnchors.diagnostic d.span

theorem head?_toList_append {s t : String} {c : Char} (h : s.toList.head? = some c) :
    (s ++ t).toList.head? = some c := by
  rw [String.toList_append, List.head?_append, h]
  rfl

/-- Only one violation is about two anchors: the remarks of the others read differently. -/
theorem Violation.isConflict_iff {v : Violation} {span : Span} :
    (v.diagnostic span).IsConflict ↔ v = .twoAnchors := by
  refine ⟨fun h => ?_, fun h => h ▸ rfl⟩
  have hrule : v.rule = .semanticViolation := congrArg Diagnostic.rule h
  have hmessage : v.message = Violation.twoAnchors.message := congrArg Diagnostic.message h
  have hquote : v.message.toList.head? = some '"' := by
    rw [hmessage]
    decide
  -- of the messages under this rule, those with a text in it begin with a letter
  have hletter : ∀ {first text : String} {c : Char}, first.toList.head? = some c →
      v.message = first ++ text ++ "\"" → c = '"' := by
    intro first text c hfirst heq
    have hhead := head?_toList_append (t := "\"") (head?_toList_append (t := text) hfirst)
    rw [← heq, hquote] at hhead
    exact (Option.some.inj hhead).symm
  cases v with
  | twoAnchors => rfl
  | notUri text => exact absurd (hletter (c := 'U') (by decide) rfl) (by decide)
  | notReference text => exact absurd (hletter (c := 'U') (by decide) rfl) (by decide)
  | notAnchor text => exact absurd (hletter (c := 'A') (by decide) rfl) (by decide)
  | fragment => exact absurd hmessage (by decide)
  | _ => cases hrule

/-- A warning is never about two anchors. -/
theorem Caution.not_isConflict (c : Caution) (span : Span) : ¬ (c.diagnostic span).IsConflict := by
  intro h
  have hseverity : Severity.warning = .fatal := congrArg Diagnostic.severity h
  cases hseverity

namespace Node

/-- The tree is refused, where it or a part of it stands. -/
def Refused (node : Node) (d : Diagnostic) : Prop :=
  ∃ part : Node, part.PartOf node ∧ ∃ v, v ≠ Violation.twoAnchors ∧ d = v.diagnostic part.span

/-- A tree is refused at its own span. -/
theorem refused_here (node : Node) {v : Violation} (hv : v ≠ .twoAnchors) :
    node.Refused (v.diagnostic node.span) :=
  ⟨node, .whole, v, hv, rfl⟩

/-- What is refused at an item is refused in the array. -/
theorem refused_of_item {items : List Node} {span : Span} {item : Node} (hitem : item ∈ items)
    {d : Diagnostic} (h : item.Refused d) : (Node.array items span).Refused d := by
  obtain ⟨part, hpart, hd⟩ := h
  exact ⟨part, .item hitem hpart, hd⟩

/-- What is refused at the value of a member is refused in the object. -/
theorem refused_of_value {members : List (Member Node)} {span : Span} {m : Member Node}
    (hm : m ∈ members) {d : Diagnostic} (h : m.value.Refused d) :
    (Node.object members span).Refused d := by
  obtain ⟨part, hpart, hd⟩ := h
  exact ⟨part, .value hm hpart, hd⟩

end Node

/-! ## 2. Terse readings -/

namespace Checked

variable {α β : Type} {P Q : Diagnostic → Prop}

/-- No warnings are raised, and what ends the reading is known. -/
structure Terse (P : Diagnostic → Prop) (x : Checked α) : Prop where
  quiet : x.warnings = []
  refusal : ∀ d, x.result = .error d → P d

theorem terse_pure (a : α) : (pure a : Checked α).Terse P := ⟨rfl, fun _ h => (nomatch h)⟩

/-- A refusal is terse. -/
theorem terse_refuse {v : Violation} {span : Span} (h : P (v.diagnostic span)) :
    (refuse v span : Checked α).Terse P := by
  refine ⟨rfl, fun d hd => ?_⟩
  cases hd
  exact h

/-- A terse reader stays terse when more refusals are allowed. -/
theorem Terse.mono {x : Checked α} (hx : x.Terse P) (h : ∀ d, P d → Q d) : x.Terse Q :=
  ⟨hx.quiet, fun d hd => h d (hx.refusal d hd)⟩

/-- To go on after a terse reader with terse ones is terse. -/
theorem Terse.bind {x : Checked α} {f : α → Checked β} (hx : x.Terse P)
    (hf : ∀ a, x.result = .ok a → (f a).Terse P) : (x >>= f).Terse P := by
  show (x.andThen f).Terse P
  unfold andThen
  cases hresult : x.result with
  | error d =>
    refine ⟨hx.quiet, fun e he => ?_⟩
    cases he
    exact hx.refusal d hresult
  | ok a =>
    obtain ⟨hquiet, hrefusal⟩ := hf a hresult
    refine ⟨?_, hrefusal⟩
    show x.warnings ++ (f a).warnings = []
    rw [hx.quiet, hquiet, List.append_nil]

theorem Terse.ite {p : Prop} [Decidable p] {x y : Checked α} (hx : x.Terse P) (hy : y.Terse P) :
    (if p then x else y).Terse P := by
  split
  · exact hx
  · exact hy

/-- Readers of all elements of a list are terse together. -/
theorem terse_mapM {f : α → Checked β} {xs : List α} (hf : ∀ x ∈ xs, (f x).Terse P) :
    (xs.mapM f).Terse P := by
  induction xs with
  | nil =>
    rw [List.mapM_nil]
    exact terse_pure []
  | cons x xs ih =>
    obtain ⟨hx, hxs⟩ := List.forall_mem_cons.mp hf
    rw [List.mapM_cons]
    exact hx.bind fun y _ => (ih hxs).bind fun ys _ => terse_pure (y :: ys)

end Checked

/-! ## 3. The readers -/

namespace Payload

open Checked

variable {α : Type}

/-- A tree of the wrong kind is refused where it stands. -/
theorem terse_wrongKind (keyword : KeywordKind) (expected : Kind) (node : Node) :
    (wrongKind keyword expected node : Checked α).Terse node.Refused :=
  terse_refuse (node.refused_here (fun h => (nomatch h)))

theorem terse_readString (keyword : KeywordKind) (node : Node) :
    (readString keyword node).Terse node.Refused := by
  cases node with
  | string text span => exact terse_pure text
  | _ => exact terse_wrongKind _ _ _

theorem terse_readBoolean (keyword : KeywordKind) (node : Node) :
    (readBoolean keyword node).Terse node.Refused := by
  cases node with
  | boolean b span => exact terse_pure b
  | _ => exact terse_wrongKind _ _ _

theorem terse_readNumber (keyword : KeywordKind) (node : Node) :
    (readNumber keyword node).Terse node.Refused := by
  cases node with
  | number n span => exact terse_pure n
  | _ => exact terse_wrongKind _ _ _

/-- The items of an array are not looked at yet. -/
theorem terse_readArray (keyword : KeywordKind) (node : Node) :
    (readArray keyword node).Terse node.Refused := by
  cases node with
  | array items span => exact terse_pure items
  | _ => exact terse_wrongKind _ _ _

theorem terse_checkReference (text : String) (node : Node) :
    (checkReference engines text node.span).Terse node.Refused :=
  (terse_pure ()).ite (terse_refuse (node.refused_here (fun h => (nomatch h))))

/-- An anchor is accepted or refused at the text. -/
theorem terse_checkAnchor (text : String) (node : Node) :
    (checkAnchor text node.span).Terse node.Refused :=
  (terse_pure ()).ite (terse_refuse (node.refused_here (fun h => (nomatch h))))

theorem terse_readType (node : Node) : (readType node).Terse node.Refused := by
  refine (terse_readString _ node).bind fun name _ => ?_
  split
  · exact terse_pure _
  · exact terse_refuse (node.refused_here (fun h => (nomatch h)))

/-- A list of types is refused at the item that names none. -/
theorem terse_readTypes (node : Node) : (readTypes node).Terse node.Refused := by
  cases node with
  | array items span =>
    exact terse_mapM fun item hitem =>
      (terse_readType item).mono fun d => Node.refused_of_item hitem
  | _ => exact (terse_readType _).bind fun type _ => terse_pure [type]

/-- A list of names is refused at the item that is no text. -/
theorem terse_readNames (keyword : KeywordKind) (node : Node) :
    (readNames keyword node).Terse node.Refused := by
  cases node with
  | array items span =>
    exact terse_mapM fun item hitem =>
      (terse_readString keyword item).mono fun d => Node.refused_of_item hitem
  | _ => exact terse_wrongKind _ _ _

/-- The names of a dependency are refused at an item, or at the list if one is repeated. -/
theorem terse_readDependency (m : Member Node) : (readDependency m).Terse m.value.Refused :=
  (terse_readNames _ m.value).bind fun _ _ =>
    (terse_pure _).ite (terse_refuse (m.value.refused_here (fun h => (nomatch h))))

theorem terse_readDependencies (node : Node) : (readDependencies node).Terse node.Refused := by
  cases node with
  | object members span =>
    exact terse_mapM fun m hm => (terse_readDependency m).mono fun d => Node.refused_of_value hm
  | _ => exact terse_wrongKind _ _ _

theorem terse_readBound (k : NumberKeyword) (node : Node) :
    (readBound k node).Terse node.Refused := by
  refine (terse_readNumber _ node).bind fun n _ => ?_
  split
  · exact terse_refuse (node.refused_here (fun h => (nomatch h)))
  · exact terse_pure n

/-- A count is refused at its number. -/
theorem terse_readCount (k : CountKeyword) (node : Node) :
    (readCount k node).Terse node.Refused := by
  refine (terse_readNumber _ node).bind fun n _ => ?_
  split
  · exact terse_pure _
  · exact terse_refuse (node.refused_here (fun h => (nomatch h)))

end Payload

end SchemaCompiler
