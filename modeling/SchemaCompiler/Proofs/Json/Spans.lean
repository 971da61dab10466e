/-
  File:      SchemaCompiler/Proofs/Json/Spans.lean
  Subject:   The spans of a tree are exact.

  A span is exact if the part of the source that it names, read alone, gives the same tree, moved to
  the front (`Exact.again`). Two facts about derivations carry this, and no reader is opened again:

  * `Grammar.IsValue.exists_moved` -- a derivation does not depend on the offset it stands at: at
    another offset the same text denotes the same tree with all its spans moved;
  * `Grammar.IsValue.exists_part` -- what stands in a derived tree is derived from a part of the
    text;
  * `Grammar.Parts.spans` -- the parts between two brackets stand one after the other;
  * **`spans_exact`** -- all spans of the tree of a document are exact, at every depth.
-/
import SchemaCompiler.Proofs.Json.Derivations
import SchemaCompiler.Proofs.Json.Relocation
import SchemaCompiler.Proofs.Json.Slices

namespace SchemaCompiler

open Grammar

/-! ## 1. Derivations at another offset -/

theorem moved_covering (base k : Nat) (text : List Char) :
    (covering base text).moved k = covering (base + k) text := by
  rw [Span.moved, covering_start, covering_stop, covering, Span.mk.injEq]
  exact ⟨rfl, by omega⟩

/-- What is derived at `start` is derived at every earlier offset too, as something that has only to
    be moved. -/
def Movable {α : Type} (rule : Production α) (move : Nat → α → α) : Production α :=
  fun text start a => ∀ base k, start = base + k → ∃ b, rule text base b ∧ move k b = a

section Movable

variable {α : Type} {rule : Production α} {move : Nat → α → α}

theorem Grammar.Parts.mono {rule' : Production α} {body : List Char} {start : Nat} {parts : List α}
    (h : Parts rule body start parts)
    (himp : ∀ text start a, rule text start a → rule' text start a) :
    Parts rule' body start parts := by
  induction h with
  | last hbefore ha hafter => exact .last hbefore (himp _ _ _ ha) hafter
  | more hbefore ha hafter _ ih => exact .more hbefore (himp _ _ _ ha) hafter ih

theorem Grammar.Parts.movable {body : List Char} {start : Nat} {parts : List α}
    (h : Parts (Movable rule move) body start parts) :
    Movable (Parts rule) (fun k => List.map (move k)) body start parts := by
  induction h with
  | @last start before text after a hbefore ha hafter =>
    intro base k hstart
    obtain ⟨b, hb, rfl⟩ := ha (base + byteLength before) k (by omega)
    exact ⟨[b], .last hbefore hb hafter, rfl⟩
  | @more start before text after rest a parts hbefore ha hafter _ ih =>
    intro base k hstart
    obtain ⟨b, hb, rfl⟩ := ha (base + byteLength before) k (by omega)
    obtain ⟨bs, hbs, rfl⟩ :=
      ih (base + byteLength (before ++ (text ++ (after ++ [','])))) k (by omega)
    exact ⟨b :: bs, .more hbefore hb hafter hbs, rfl⟩

theorem BetweenText.movable {closing : Char} {text : List Char} {start : Nat} {parts : List α}
    (h : BetweenText (Movable rule move) closing text start parts) :
    Movable (BetweenText rule closing) (fun k => List.map (move k)) text start parts := by
  intro base k hstart
  obtain ⟨body, rfl, ⟨hblanks, rfl⟩ | hparts⟩ := h
  · exact ⟨[], ⟨body, rfl, .inl ⟨hblanks, rfl⟩⟩, rfl⟩
  · obtain ⟨bs, hbs, rfl⟩ := hparts.movable base k hstart
    exact ⟨bs, ⟨body, rfl, .inr hbs⟩, rfl⟩

theorem BetweenText.mono {rule' : Production α} {closing : Char} {text : List Char} {start : Nat}
    {parts : List α} (h : BetweenText rule closing text start parts)
    (himp : ∀ text start a, rule text start a → rule' text start a) :
    BetweenText rule' closing text start parts := by
  obtain ⟨body, rfl, ⟨hblanks, rfl⟩ | hparts⟩ := h
  · exact ⟨body, rfl, .inl ⟨hblanks, rfl⟩⟩
  · exact ⟨body, rfl, .inr (hparts.mono himp)⟩

end Movable

theorem Grammar.MemberText.mono {rule rule' : Production Node} {text : List Char} {start : Nat}
    {m : Member Node} (h : MemberText rule text start m)
    (himp : ∀ text start a, rule text start a → rule' text start a) :
    MemberText rule' text start m := by
  obtain ⟨hbody, hbefore, hafter, hvalue⟩ := h
  exact .mk hbody hbefore hafter (himp _ _ _ hvalue)

theorem Grammar.MemberText.movable {text : List Char} {start : Nat} {m : Member Node}
    (h : MemberText (Movable IsValue Node.moved) text start m) :
    Movable (MemberText IsValue) Member.moved text start m := by
  intro base k hstart
  subst hstart
  obtain @⟨_, body, key, before, after, text, value, hbody, hbefore, hafter, hvalue⟩ := h
  obtain ⟨small, hsmall, rfl⟩ :=
    hvalue (base + byteLength ('"' :: (body ++ '"' :: (before ++ ':' :: after)))) k (by omega)
  refine ⟨_, .mk hbody hbefore hafter hsmall, ?_⟩
  rw [Member.moved, Member.relocated, moved_covering, moved_covering, Node.moved]

/-- One level: a value is movable if all that is less deep is. -/
theorem movable_of_within {budget : Nat}
    (ih : ∀ b, budget = b + 1 → ∀ text start node, ValueWithin b text start node →
      Movable IsValue Node.moved text start node)
    {text : List Char} {start : Nat} {node : Node} (h : ValueWithin budget text start node) :
    Movable IsValue Node.moved text start node := by
  intro base k hstart
  subst hstart
  cases node with
  | object members span =>
    obtain ⟨b, inner, rfl, rfl, rfl, hinner⟩ := between_of_objectWithin h
    have hmovable := hinner.mono fun _ _ _ hm => (hm.mono (ih b rfl)).movable
    obtain ⟨smalls, hsmalls, rfl⟩ := hmovable.movable (base + 1) k (by omega)
    refine ⟨_, .of_members hsmalls, ?_⟩
    rw [Node.moved, Node.relocated, relocatedMembers_eq_map, moved_covering]
    rfl
  | array items span =>
    obtain ⟨b, inner, rfl, rfl, rfl, hinner⟩ := between_of_arrayWithin h
    have hmovable := hinner.mono (ih b rfl)
    obtain ⟨smalls, hsmalls, rfl⟩ := hmovable.movable (base + 1) k (by omega)
    refine ⟨_, .of_items hsmalls, ?_⟩
    rw [Node.moved, Node.relocated, relocatedItems_eq_map, moved_covering]
    rfl
  | string text span =>
    cases h.1 with
    | string hbody => exact ⟨_, .string hbody, by rw [Node.moved, Node.relocated, moved_covering]⟩
  | number n span =>
    cases h.1 with
    | number htoken => exact ⟨_, .number htoken, by rw [Node.moved, Node.relocated, moved_covering]⟩
  | boolean b span =>
    cases h.1 with
    | true => exact ⟨_, .true, by rw [Node.moved, Node.relocated, moved_covering]⟩
    | false => exact ⟨_, .false, by rw [Node.moved, Node.relocated, moved_covering]⟩
  | null span =>
    cases h.1 with
    | null => exact ⟨_, .null, by rw [Node.moved, Node.relocated, moved_covering]⟩

/-- **A derivation does not depend on the offset it stands at.** -/
theorem Grammar.IsValue.exists_moved {text : List Char} {start : Nat} {node : Node}
    (h : IsValue text start node) : ∃ small, IsValue text 0 small ∧ small.moved start = node := by
  have hwithin : ∀ budget, ∀ text start node, ValueWithin budget text start node →
      Movable IsValue Node.moved text start node := by
    intro budget
    induction budget with
    | zero => exact fun _ _ _ h => movable_of_within (fun b hb => absurd hb (by omega)) h
    | succ b hb =>
      refine fun _ _ _ h => movable_of_within (fun b' hb' => ?_) h
      cases hb'
      exact hb
  exact hwithin node.depth text start node ⟨h, Nat.le_refl _⟩ 0 start (Nat.zero_add start).symm

/-! ## 2. Parts of a tree -/

namespace Node

/-- A tree stands in another: as the whole, or in an item or the value of a member. -/
inductive PartOf (part : Node) : Node → Prop
  | whole : PartOf part part
  | item {item : Node} {items : List Node} {span : Span} :
      item ∈ items → PartOf part item → PartOf part (.array items span)
  | value {m : Member Node} {members : List (Member Node)} {span : Span} :
      m ∈ members → PartOf part m.value → PartOf part (.object members span)

/-- The members of an object; nothing else has any. -/
def members : Node → List (Member Node)
  | .object members _ => members
  | _ => []

/-- The spans of the items or members of a tree. -/
def partSpans : Node → List Span
  | .object members _ => members.map Member.span
  | .array items _ => items.map span
  | _ => []

end Node

section Parts

variable {α : Type} {rule : Production α}

theorem Grammar.Parts.exists_of_mem {body : List Char} {start : Nat} {parts : List α} {a : α}
    (h : Parts rule body start parts) (ha : a ∈ parts) :
    ∃ front text back, body = front ++ (text ++ back) ∧ rule text (start + byteLength front) a := by
  induction h with
  | @last start before text after b hbefore hb hafter =>
    cases List.mem_singleton.mp ha
    exact ⟨before, text, after, rfl, hb⟩
  | @more start before text after rest b parts hbefore hb hafter _ ih =>
    rcases List.mem_cons.mp ha with rfl | ha
    · exact ⟨before, text, after ++ ',' :: rest, rfl, hb⟩
    · obtain ⟨front, text', back, rfl, hrule⟩ := ih ha
      refine ⟨before ++ (text ++ (after ++ [','])) ++ front, text', back, by simp, ?_⟩
      rw [byteLength_append, ← Nat.add_assoc]
      exact hrule

theorem BetweenText.exists_of_mem {closing : Char} {text : List Char} {start : Nat}
    {parts : List α} {a : α} (h : BetweenText rule closing text start parts) (ha : a ∈ parts) :
    ∃ front inner back, text = front ++ (inner ++ back) ∧
      rule inner (start + byteLength front) a := by
  obtain ⟨body, rfl, ⟨-, rfl⟩ | hparts⟩ := h
  · exact absurd ha List.not_mem_nil
  · obtain ⟨front, inner, back, rfl, hrule⟩ := hparts.exists_of_mem ha
    exact ⟨front, inner, back ++ [closing], by simp, hrule⟩

end Parts

/-- **What stands in a derived tree is derived from a part of the text.** -/
theorem Grammar.IsValue.exists_part {part root : Node} (hpart : part.PartOf root) {text : List Char}
    {start : Nat} (h : IsValue text start root) :
    (∃ front inner back, text = front ++ (inner ++ back) ∧
      IsValue inner (start + byteLength front) part) ∧ part.depth ≤ root.depth := by
  induction hpart generalizing text start with
  | whole => exact ⟨⟨[], text, [], by simp, h⟩, Nat.le_refl _⟩
  | @item item items span hitem _ ih =>
    obtain ⟨inner, rfl, hinner⟩ := h.items
    obtain ⟨front, itemText, back, rfl, hitemText⟩ := hinner.exists_of_mem hitem
    obtain ⟨⟨front', partText, back', rfl, hpartText⟩, hdepth⟩ := ih hitemText
    have hle := itemsDepth_le_iff.mp (Nat.le_refl _) item hitem
    refine ⟨⟨'[' :: (front ++ front'), partText, back' ++ back, by simp, ?_⟩, ?_⟩
    · rw [byteLength_cons, byteLength_append, isMark_openBracket.size]
      have e : start + (1 + (byteLength front + byteLength front')) =
          start + 1 + byteLength front + byteLength front' := by omega
      rwa [e]
    · rw [Node.depth]
      omega
  | @value m members span hm _ ih =>
    obtain ⟨inner, rfl, hinner⟩ := h.members
    obtain ⟨front, memberText, back, rfl, hmember⟩ := hinner.exists_of_mem hm
    have hle := membersDepth_le_iff.mp (Nat.le_refl _) m hm
    obtain @⟨_, body, key, before, after, valueText, value, hbody, hbefore, hafter, hvalue⟩ :=
      hmember
    obtain ⟨⟨front', partText, back', rfl, hpartText⟩, hdepth⟩ := ih hvalue
    simp only at hle hdepth
    refine ⟨⟨'\x7b' :: (front ++ ('"' :: (body ++ '"' :: (before ++ ':' :: after))) ++ front'),
      partText, back' ++ back, by simp, ?_⟩, ?_⟩
    · rw [byteLength_cons, byteLength_append, byteLength_append, isMark_openBrace.size]
      have e : ∀ f q g, start + (1 + (f + q + g)) = start + 1 + f + q + g := by omega
      rwa [e]
    · rw [Node.depth]
      omega

/-! ## 3. The spans of parts -/

section Spans

variable {α : Type} {rule : Production α} {span : α → Span}

/-- **Parts between brackets stand one after the other**, inside the text between the brackets. -/
theorem Grammar.Parts.spans
    (hspan : ∀ text start a, rule text start a → span a = covering start text)
    {body : List Char} {start : Nat} {parts : List α} (h : Parts rule body start parts) :
    (parts.map span).Pairwise (fun a b => a.stop < b.start) ∧
      ∀ s ∈ parts.map span, start ≤ s.start ∧ s.stop ≤ start + byteLength body := by
  induction h with
  | @last start before text after a hbefore ha hafter =>
    refine ⟨List.pairwise_singleton _ _, ?_⟩
    rw [List.map_singleton, List.forall_mem_singleton, hspan _ _ _ ha, covering_start,
      covering_stop, byteLength_append, byteLength_append]
    exact ⟨by omega, by omega⟩
  | @more start before text after rest a parts hbefore ha hafter _ ih =>
    obtain ⟨hpairwise, hinside⟩ := ih
    have hlength : byteLength (before ++ (text ++ (after ++ [',']))) =
        byteLength before + byteLength text + byteLength after + 1 := by
      simp only [byteLength_append, byteLength_cons, isMark_comma.size, byteLength_nil]
      omega
    have htotal : byteLength (before ++ (text ++ (after ++ ',' :: rest))) =
        byteLength before + byteLength text + byteLength after + 1 + byteLength rest := by
      simp only [byteLength_append, byteLength_cons, isMark_comma.size]
      omega
    rw [hlength] at hinside
    rw [List.map_cons, List.pairwise_cons, List.forall_mem_cons, hspan _ _ _ ha, covering_start,
      covering_stop, htotal]
    refine ⟨⟨fun s hs => ?_, hpairwise⟩, ⟨by omega, by omega⟩, fun s hs => ?_⟩
    · have := hinside s hs
      omega
    · have := hinside s hs
      omega

/-- The parts stand strictly inside the brackets. -/
theorem BetweenText.spans (hspan : ∀ text start a, rule text start a → span a = covering start text)
    {closing : Char} (hclosing : IsMark closing) {text : List Char} {start : Nat} {parts : List α}
    (h : BetweenText rule closing text (start + 1) parts) :
    (parts.map span).Pairwise (fun a b => a.stop < b.start) ∧
      ∀ s ∈ parts.map span, start < s.start ∧ s.stop < start + 1 + byteLength text := by
  obtain ⟨body, rfl, ⟨-, rfl⟩ | hparts⟩ := h
  · exact ⟨List.Pairwise.nil, fun s hs => absurd hs List.not_mem_nil⟩
  · obtain ⟨hpairwise, hinside⟩ := hparts.spans hspan
    refine ⟨hpairwise, fun s hs => ?_⟩
    have := hinside s hs
    rw [byteLength_append, byteLength_cons, hclosing.size]
    omega

end Spans

theorem Grammar.MemberText.span_eq {text : List Char} {start : Nat} {m : Member Node}
    (h : MemberText IsValue text start m) : m.span = covering start text := by
  cases h
  rfl

theorem Grammar.IsValue.partSpans {text : List Char} {start : Nat} {node : Node}
    (h : IsValue text start node) :
    node.partSpans.Pairwise (fun a b => a.stop < b.start) ∧
      ∀ s ∈ node.partSpans, node.span.start < s.start ∧ s.stop < node.span.stop := by
  have hspan := h.span_eq
  cases node with
  | object members span =>
    obtain ⟨inner, rfl, hinner⟩ := h.members
    have hparts := hinner.spans (fun _ _ _ hm => hm.span_eq) isMark_closeBrace
    rw [hspan, covering, byteLength_cons, isMark_openBrace.size, ← Nat.add_assoc]
    exact hparts
  | array items span =>
    obtain ⟨inner, rfl, hinner⟩ := h.items
    have hparts := hinner.spans (fun _ _ _ hitem => hitem.span_eq) isMark_closeBracket
    rw [hspan, covering, byteLength_cons, isMark_openBracket.size, ← Nat.add_assoc]
    exact hparts
  | string | number | boolean | null =>
    exact ⟨List.Pairwise.nil, fun s hs => absurd hs List.not_mem_nil⟩

/-! ## 4. Documents -/

/-- The spans at a tree in a source are exact. -/
structure Exact (source : List Char) (node : Node) : Prop where
  /-- The span is not empty. -/
  proper : node.span.start < node.span.stop
  /-- It ends within the source. -/
  within : node.span.stop ≤ byteLength source
  /-- It begins and ends between characters; what it names, read alone, is the same tree, moved to
      the front. -/
  again : ∃ text small, slice? source node.span = some text ∧
    Node.parse (String.ofList text) = .ok small ∧ small.moved node.span.start = node
  /-- The span of a key names its string token, and the span of a member runs from there to the end
      of its value. -/
  keys : ∀ m ∈ node.members,
    (∃ body, slice? source m.keySpan = some ('"' :: (body ++ ['"'])) ∧
      StringBody body m.key.toList) ∧
    m.keySpan.stop < m.value.span.start ∧ m.span = ⟨m.keySpan.start, m.value.span.stop⟩
  /-- The parts stand apart, one after the other. -/
  apart : node.partSpans.Pairwise fun a b => a.stop < b.start
  /-- They stand inside the span, clear of its ends. -/
  inside : ∀ s ∈ node.partSpans, node.span.start < s.start ∧ s.stop < node.span.stop

theorem Grammar.MemberText.key {text : List Char} {start : Nat} {m : Member Node}
    (h : MemberText IsValue text start m) :
    (∃ body back, text = ('"' :: (body ++ ['"'])) ++ back ∧
      m.keySpan = covering start ('"' :: (body ++ ['"'])) ∧ StringBody body m.key.toList) ∧
    m.keySpan.stop < m.value.span.start ∧ m.span = ⟨m.keySpan.start, m.value.span.stop⟩ := by
  obtain @⟨_, body, key, before, after, text, value, hbody, hbefore, hafter, hvalue⟩ := h
  have hspan := hvalue.span_eq
  have e : '"' :: (body ++ '"' :: (before ++ ':' :: (after ++ text))) =
      ('"' :: (body ++ ['"'])) ++ (before ++ ':' :: (after ++ text)) := by simp
  refine ⟨⟨body, before ++ ':' :: (after ++ text), e, rfl, ?_⟩, ?_, ?_⟩
  · rw [String.toList_ofList]
    exact hbody
  · have hcolon := isMark_colon.size
    simp only [hspan, covering_start, covering_stop, byteLength_cons, byteLength_append,
      byteLength_nil]
    omega
  · have hend := covering_append start ('"' :: (body ++ '"' :: (before ++ ':' :: after))) text
    simp only [List.cons_append, List.append_assoc] at hend
    simp only [hspan, covering_start, hend]

/-- A derived value within the limit has exact spans wherever it stands in a source. -/
theorem Grammar.IsValue.exact {front text back : List Char} {node : Node}
    (h : IsValue text (byteLength front) node) (hdepth : node.depth ≤ depthLimit) :
    Exact (front ++ (text ++ back)) node := by
  have hspan := h.span_eq
  obtain ⟨c, tail, hcons, -⟩ := begins_isValue _ _ _ h
  obtain ⟨small, hsmall, hmoved⟩ := h.exists_moved
  obtain ⟨hapart, hinside⟩ := h.partSpans
  refine ⟨?_, ?_, ⟨text, small, ?_, ?_, ?_⟩, ?_, hapart, hinside⟩
  · have hpos := c.utf8Size_pos
    rw [hspan, covering_start, covering_stop, hcons, byteLength_cons]
    omega
  · rw [hspan, covering_stop, byteLength_append, byteLength_append]
    omega
  · exact slice?_eq_some_iff.mpr ⟨front, back, rfl, hspan⟩
  · have hdocument : IsDocument ([] ++ (text ++ [])) small :=
      .mk (by decide) hsmall (by decide)
    rw [List.nil_append, List.append_nil] at hdocument
    rw [Node.parse, String.toList_ofList]
    refine hdocument.read_eq_ok ?_
    rwa [← small.depth_relocated, ← Node.moved, hmoved]
  · rw [hspan, covering_start]
    exact hmoved
  · intro m hm
    cases node with
    | object members span =>
      obtain ⟨inner, rfl, hinner⟩ := h.members
      obtain ⟨front', memberText, back', rfl, hmember⟩ := hinner.exists_of_mem hm
      obtain ⟨⟨body, rest, rfl, hkey, hbody⟩, hmemberSpan⟩ := hmember.key
      refine ⟨⟨body, slice?_eq_some_iff.mpr ⟨front ++ '\x7b' :: front', rest ++ back' ++ back,
        by simp, ?_⟩, hbody⟩, hmemberSpan⟩
      rw [hkey, byteLength_append, byteLength_cons, isMark_openBrace.size, Nat.add_assoc]
    | array | string | number | boolean | null => exact absurd hm List.not_mem_nil

theorem isBlank_of_isNumberChar {c : Char} (h : isNumberChar c = true) :
    Cursor.isBlank c = false := by
  cases hblank : Cursor.isBlank c with
  | false => rfl
  | true =>
    rcases Cursor.isBlank_iff.mp hblank with rfl | rfl | rfl | rfl <;> exact absurd h (by decide)

/-- A value does not end with a blank. -/
theorem Grammar.IsValue.ends {text : List Char} {start : Nat} {node : Node}
    (h : IsValue text start node) : ∃ front c, text = front ++ [c] ∧ Cursor.isBlank c = .false := by
  cases h with
  | null => exact ⟨"nul".toList, 'l', rfl, by decide⟩
  | true => exact ⟨"tru".toList, 'e', rfl, by decide⟩
  | false => exact ⟨"fals".toList, 'e', rfl, by decide⟩
  | number htoken =>
    obtain ⟨c, rest, rfl, -⟩ := htoken.head
    have hne := List.cons_ne_nil c rest
    exact ⟨_, _, (List.dropLast_concat_getLast hne).symm,
      isBlank_of_isNumberChar (htoken.isNumberChar _ (List.getLast_mem hne))⟩
  | string | emptyArray | array | emptyObject | object => exact ⟨_ :: _, _, rfl, by decide⟩

/-- **All spans of the tree of a document are exact**, at every depth, and the span of the tree
    itself is the source without the blanks around it. -/
theorem spans_exact (source : String) (root : Node) (h : Node.parse source = .ok root) :
    root.span = trimmedSpan source.toList ∧
      ∀ node : Node, node.PartOf root → Exact source.toList node := by
  obtain ⟨hdocument, hdepth⟩ := isDocument_of_read h
  generalize source.toList = text at hdocument ⊢
  obtain @⟨before, text, after, _, hbefore, hvalue, hafter⟩ := hdocument
  constructor
  · obtain ⟨c, tail, hfirst, hblank, -⟩ := begins_isValue _ _ _ hvalue
    obtain ⟨front, last, hlast, hend⟩ := hvalue.ends
    rw [hvalue.span_eq, trimmedSpan_eq hbefore hafter]
    · rw [hfirst, List.cons_append]
      exact stops_cons.mpr hblank
    · rw [hlast, List.reverse_append, List.reverse_singleton, List.singleton_append,
        List.cons_append]
      exact stops_cons.mpr hend
  · intro node hnode
    obtain ⟨⟨front, inner, back, rfl, hinner⟩, hle⟩ := hvalue.exists_part hnode
    rw [← byteLength_append] at hinner
    have e : before ++ (front ++ (inner ++ back) ++ after) =
        before ++ front ++ (inner ++ (back ++ after)) := by simp
    rw [e]
    exact hinner.exact (hle.trans hdepth)

/-- A source with blanks around it, a key of two bytes, and a number that a bracket ends. -/
def accented : String := " \x7b\"é\" : [true, 10]\x7d\n"

def accentedTree : Node :=
  .object
    [⟨"é", ⟨2, 6⟩, .array [.boolean true ⟨10, 14⟩, .number (.natural 10) ⟨16, 18⟩] ⟨9, 19⟩,
      ⟨2, 19⟩⟩] ⟨1, 20⟩

theorem isDocument_accented : IsDocument accented.toList accentedTree := by
  have hten : IsValue ['1', '0'] 16 (.number (.natural 10) ⟨16, 18⟩) :=
    @IsValue.number 16 ['1', '0'] ⟨false, ['1', '0'], [], none⟩
      (@NumberToken.mk [] ['1', '0'] [] [] [] _ _ .absent
        (.nonzero (by decide) (by decide) (List.forall_mem_singleton.mpr ⟨by decide, by decide⟩))
        .absent .absent)
  have hitems : Parts IsValue ['t', 'r', 'u', 'e', ',', ' ', '1', '0'] 10
      [.boolean true ⟨10, 14⟩, .number (.natural 10) ⟨16, 18⟩] :=
    @Parts.more _ _ 10 [] _ [] _ _ _ (by decide) (@IsValue.true 10) (by decide)
      (@Parts.last _ _ 15 [' '] _ [] _ (by decide) hten (by decide))
  have hmember : MemberText IsValue
      ['"', 'é', '"', ' ', ':', ' ', '[', 't', 'r', 'u', 'e', ',', ' ', '1', '0', ']'] 2
      ⟨"é", ⟨2, 6⟩, .array [.boolean true ⟨10, 14⟩, .number (.natural 10) ⟨16, 18⟩] ⟨9, 19⟩,
        ⟨2, 19⟩⟩ :=
    @MemberText.mk _ 2 ['é'] ['é'] [' '] [' '] _ _
      (.plain (by decide) (by decide) (by decide) .empty) (by decide) (by decide) (.array hitems)
  exact @IsDocument.mk [' '] _ ['\n'] _ (by decide)
    (.object (@Parts.last _ _ 2 [] _ [] _ (by decide) hmember (by decide))) (by decide)

theorem parse_accented : Node.parse accented = .ok accentedTree := by
  rw [Node.parse]
  exact isDocument_accented.read_eq_ok (by decide)

theorem spans_exact_accented :
    Node.parse accented = .ok accentedTree ∧ accentedTree.span = trimmedSpan accented.toList ∧
      Exact accented.toList (.number (.natural 10) ⟨16, 18⟩) := by
  obtain ⟨hroot, hparts⟩ := spans_exact accented accentedTree parse_accented
  refine ⟨parse_accented, hroot, hparts _ (.value List.mem_cons_self (.item ?_ .whole))⟩
  exact List.mem_cons_of_mem _ List.mem_cons_self

end SchemaCompiler
