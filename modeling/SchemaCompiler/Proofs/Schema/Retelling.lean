/-
  File:      SchemaCompiler/Proofs/Schema/Retelling.lean
  Subject:   A reading told again: elsewhere, or without some of its warnings.

  A `Retelling` says where what stands at a span stands instead, and which warnings are repeated.
  `Checked.retold` applies it to the warnings and to the refusal of a reading, and maps the value.

  * `Checked.retold_bind`, `Checked.retold_mapM` -- a composed reading is told again part by part;
  * `Payload.retold_readText` and its like -- each reader of a keyword's value, told again, is the
    reader on the relocated tree: it looks at no span, and its warnings are never about unknown
    keywords.

  What a whole schema makes of it is in `Proofs/Schema/UnknownMembers` and `Proofs/Schema/Places`.
-/
import SchemaCompiler.Proofs.Json.Relocation
import SchemaCompiler.Proofs.Schema.Readings

namespace SchemaCompiler

variable {engines : Engines}

/-! ## 1. Readings told again -/

/-- How a reading is told again. All warnings are repeated but those about unknown keywords, which
    may be left out. -/
structure Retelling where
  place : Span → Span
  mentions : Rule → Bool
  mentions_of_ne : ∀ rule, rule ≠ .unsupported → mentions rule = true

/-- The remark about another span. -/
def Diagnostic.relocated (place : Span → Span) (d : Diagnostic) : Diagnostic :=
  { d with span := place d.span }

namespace Checked

variable {α β α' β' : Type} (ρ : Retelling)

/-- A reading told again, with `f` of its value. -/
def retold (f : α → β) (x : Checked α) : Checked β :=
  ⟨(x.warnings.filter fun d => ρ.mentions d.rule).map (Diagnostic.relocated ρ.place),
    match x.result with
    | .ok a => .ok (f a)
    | .error d => .error (d.relocated ρ.place)⟩

variable {ρ}

/-- A warning that is not about an unknown keyword is told again at its new place. -/
theorem retold_warn {c : Caution} (h : c.rule ≠ .unsupported) (f : Unit → Unit) (span : Span) :
    (warn c span).retold ρ f = warn c (ρ.place span) := by
  have hmentions : ρ.mentions (c.diagnostic span).rule = true := ρ.mentions_of_ne c.rule h
  unfold retold warn
  rw [List.filter_singleton, hmentions]
  rfl

/-- A reading and what follows it are told again one after the other. -/
theorem retold_bind {x : Checked α} {y : Checked α'} {g : α → Checked β} {g' : α' → Checked β'}
    {e : α → α'} {f : β → β'} (hx : x.retold ρ e = y)
    (hg : ∀ a, x.result = .ok a → (g a).retold ρ f = g' (e a)) :
    (x >>= g).retold ρ f = y >>= g' := by
  subst hx
  show (x.andThen g).retold ρ f = (x.retold ρ e).andThen g'
  unfold andThen
  obtain ⟨warnings, result⟩ := x
  cases result with
  | error d => rfl
  | ok a =>
    have hga := hg a rfl
    simp only [retold, ← hga, List.filter_append, List.map_append]

/-- The readings of a list are told again one by one. -/
theorem retold_mapM {f : α → Checked β} {f' : α' → Checked β'} {e : α → α'} {r : β → β'}
    {xs : List α} (h : ∀ x ∈ xs, (f x).retold ρ r = f' (e x)) :
    (xs.mapM f).retold ρ (List.map r) = (xs.map e).mapM f' := by
  induction xs with
  | nil =>
    rw [List.map_nil, List.mapM_nil, List.mapM_nil]
    rfl
  | cons x xs ih =>
    obtain ⟨hx, hxs⟩ := List.forall_mem_cons.mp h
    rw [List.map_cons, List.mapM_cons, List.mapM_cons]
    exact retold_bind hx fun _ _ => retold_bind (ih hxs) fun _ _ => rfl

/-- Of a list, an item may be left out. -/
theorem retold_cons {x : Checked α} {xs : Checked (List α)} {y : Checked (Option β)}
    {ys : Checked (List β)} {r : α → Option β} (hx : x.retold ρ r = y)
    (hxs : xs.retold ρ (List.filterMap r) = ys) :
    (x >>= fun a => xs >>= fun as => pure (a :: as)).retold ρ (List.filterMap r) =
      y >>= fun b? => ys >>= fun bs => pure (b?.toList ++ bs) := by
  refine retold_bind hx fun a _ => retold_bind hxs fun as _ => ?_
  show (pure ((a :: as).filterMap r) : Checked (List β)) = _
  cases hr : r a with
  | none => rw [List.filterMap_cons_none hr, Option.toList_none, List.nil_append]
  | some b => rw [List.filterMap_cons_some hr, Option.toList_some, List.singleton_append]

/-- A choice that looks at no span is made again. -/
theorem retold_ite {p : Prop} [Decidable p] {x y : Checked α} {x' y' : Checked β} {f : α → β}
    (hx : x.retold ρ f = x') (hy : y.retold ρ f = y') :
    (if p then x else y).retold ρ f = if p then x' else y' := by
  split
  · exact hx
  · exact hy

end Checked

/-! ## 2. The readers -/

/-- A dependency that stands elsewhere. -/
def Dependency.relocated (place : Span → Span) (d : Dependency) : Dependency :=
  { d with span := place d.span }

namespace Payload

open Checked

variable {ρ : Retelling}

/-- The kind of a tree is the same elsewhere. -/
theorem retold_readString (keyword : KeywordKind) (node : Node) :
    (readString keyword node).retold ρ id = readString keyword (node.relocated ρ.place) := by
  cases node <;> rfl

theorem retold_readBoolean (keyword : KeywordKind) (node : Node) :
    (readBoolean keyword node).retold ρ id = readBoolean keyword (node.relocated ρ.place) := by
  cases node <;> rfl

theorem retold_readNumber (keyword : KeywordKind) (node : Node) :
    (readNumber keyword node).retold ρ id = readNumber keyword (node.relocated ρ.place) := by
  cases node <;> rfl

/-- The items of an array stand elsewhere with it. -/
theorem retold_readArray (keyword : KeywordKind) (node : Node) :
    (readArray keyword node).retold ρ (List.map (Node.relocated ρ.place)) =
      readArray keyword (node.relocated ρ.place) := by
  cases node with
  | array items span =>
    rw [Node.relocated, relocatedItems_eq_map]
    rfl
  | _ => rfl

/-- The members of an object stand elsewhere with it. -/
theorem retold_readObject (keyword : KeywordKind) (node : Node) :
    (readObject keyword node).retold ρ (List.map (Member.relocated ρ.place)) =
      readObject keyword (node.relocated ρ.place) := by
  cases node with
  | object members span =>
    rw [Node.relocated, relocatedMembers_eq_map]
    rfl
  | _ => rfl

/-- A check looks at the text and remarks at the span that it is given. -/
theorem retold_checkId (text : String) (span : Span) :
    (checkId engines text span).retold ρ id = checkId engines text (ρ.place span) := by
  unfold checkId
  split
  · rfl
  · rfl
  · exact retold_ite (retold_warn (by decide) id span) rfl

theorem retold_checkReference (text : String) (span : Span) :
    (checkReference engines text span).retold ρ id = checkReference engines text (ρ.place span) :=
  retold_ite rfl rfl

theorem retold_checkAnchor (text : String) (span : Span) :
    (checkAnchor text span).retold ρ id = checkAnchor text (ρ.place span) :=
  retold_ite rfl rfl

/-- The remark about a pattern keeps what the engine said. -/
theorem retold_checkPattern (text : String) (span : Span) :
    (checkPattern engines text span).retold ρ id = checkPattern engines text (ρ.place span) := by
  refine retold_ite rfl ?_
  cases engines.patternFault? text with
  | none => rfl
  | some fault => exact retold_warn (by simp [Caution.rule]) id span

/-- The same for every keyword with a text. -/
theorem retold_checkText (k : TextKeyword) (text : String) (span : Span) :
    (checkText engines k text span).retold ρ id = checkText engines k text (ρ.place span) := by
  cases k with
  | id => exact retold_checkId text span
  | ref | dynamicRef => exact retold_checkReference text span
  | anchor | dynamicAnchor => exact retold_checkAnchor text span
  | pattern => exact retold_checkPattern text span
  | comment | title | description => rfl

/-- A text is read and checked elsewhere as it is here. -/
theorem retold_readText (k : TextKeyword) (node : Node) :
    (readText engines k node).retold ρ id = readText engines k (node.relocated ρ.place) := by
  refine retold_bind (retold_readString _ node) fun text _ => ?_
  rw [node.span_relocated]
  exact retold_bind (retold_checkText k text node.span) fun _ _ => rfl

theorem retold_readType (node : Node) :
    (readType node).retold ρ id = readType (node.relocated ρ.place) := by
  refine retold_bind (retold_readString _ node) fun name _ => ?_
  rw [node.span_relocated, id]
  cases PrimitiveType.ofName? name <;> rfl

/-- The types of a list are the same elsewhere. -/
theorem retold_readTypes (node : Node) :
    (readTypes node).retold ρ id = readTypes (node.relocated ρ.place) := by
  cases node with
  | array items span =>
    rw [Node.relocated, relocatedItems_eq_map, readTypes, readTypes, ← List.map_id_fun]
    exact retold_mapM fun item _ => retold_readType item
  | _ => exact retold_bind (retold_readType _) fun _ _ => rfl

/-- The names of a list are the same elsewhere. -/
theorem retold_readNames (keyword : KeywordKind) (node : Node) :
    (readNames keyword node).retold ρ id = readNames keyword (node.relocated ρ.place) := by
  refine retold_bind (retold_readArray keyword node) fun items _ => ?_
  rw [← List.map_id_fun]
  exact retold_mapM fun item _ => retold_readString keyword item

/-- A dependency keeps its names and gets another span. -/
theorem retold_readDependency (member : Member Node) :
    (readDependency member).retold ρ (Dependency.relocated ρ.place) =
      readDependency (member.relocated ρ.place) := by
  refine retold_bind (retold_readNames _ member.value) fun names _ => ?_
  rw [Member.relocated, Node.span_relocated]
  exact retold_ite rfl rfl

theorem retold_readDependencies (node : Node) :
    (readDependencies node).retold ρ (List.map (Dependency.relocated ρ.place)) =
      readDependencies (node.relocated ρ.place) :=
  retold_bind (retold_readObject _ node) fun _ _ =>
    retold_mapM fun member _ => retold_readDependency member

theorem retold_readBound (k : NumberKeyword) (node : Node) :
    (readBound k node).retold ρ id = readBound k (node.relocated ρ.place) := by
  refine retold_bind (retold_readNumber _ node) fun n _ => ?_
  rw [node.span_relocated]
  exact retold_ite rfl rfl

/-- A count is read off a number and no span. -/
theorem retold_readCount (k : CountKeyword) (node : Node) :
    (readCount k node).retold ρ id = readCount k (node.relocated ρ.place) := by
  refine retold_bind (retold_readNumber _ node) fun n _ => ?_
  rw [node.span_relocated, id]
  cases countOf? n <;> rfl

/-- The remark about a directive is about its member. -/
theorem retold_readDirective (d : Directive) (node : Node) (span : Span) :
    (readDirective d node span).retold ρ id =
      readDirective d (node.relocated ρ.place) (ρ.place span) := by
  cases d with
  | schema =>
    exact retold_bind (retold_readString _ node) fun _ _ => retold_warn (by decide) id span
  | vocabulary => exact retold_warn (by decide) id span

end Payload

end SchemaCompiler
