/-
  File:      SchemaCompiler/Proofs/Json/Derivations.lean
  Subject:   Documents and their trees, whatever the depth.

  * `Grammar.IsValue.of_items`, `Grammar.IsValue.items` -- an array is what stands between its
    brackets, and an object likewise;
  * `Grammar.IsDocument.reads` -- a derived text is read with every budget that its tree needs;
  * `isDocument_of_read` -- what `Node.read` gives is derived, and within the limit;
  * **`Grammar.IsDocument.unique`** -- the grammar is unambiguous: a text is derived as one tree at
    most, since a reader with a budget for both trees gives one answer;
  * `Grammar.IsValue.unique_front` -- an array or an object ends where its bracket closes, whatever
    follows, so that a text begins with one of them at most, also after blanks.
-/
import SchemaCompiler.Proofs.Json.Documents

namespace SchemaCompiler

open Grammar

/-! ## 1. Arrays and objects -/

theorem Grammar.IsValue.of_items {inner : List Char} {start : Nat} {items : List Node}
    (h : BetweenText IsValue ']' inner (start + 1) items) :
    IsValue ('[' :: inner) start (.array items (covering start ('[' :: inner))) := by
  obtain ⟨body, rfl, ⟨hblanks, rfl⟩ | hparts⟩ := h
  · exact .emptyArray hblanks
  · exact .array hparts

theorem Grammar.IsValue.of_members {inner : List Char} {start : Nat}
    {members : List (Member Node)}
    (h : BetweenText (MemberText IsValue) '\x7d' inner (start + 1) members) :
    IsValue ('\x7b' :: inner) start (.object members (covering start ('\x7b' :: inner))) := by
  obtain ⟨body, rfl, ⟨hblanks, rfl⟩ | hparts⟩ := h
  · exact .emptyObject hblanks
  · exact .object hparts

/-- An array is derived from what stands between its brackets. -/
theorem Grammar.IsValue.items {text : List Char} {start : Nat} {items : List Node} {span : Span}
    (h : IsValue text start (.array items span)) :
    ∃ inner, text = '[' :: inner ∧ BetweenText IsValue ']' inner (start + 1) items := by
  cases h with
  | emptyArray hblanks => exact ⟨_, rfl, _, rfl, .inl ⟨hblanks, rfl⟩⟩
  | array hparts => exact ⟨_, rfl, _, rfl, .inr hparts⟩

theorem Grammar.IsValue.members {text : List Char} {start : Nat} {members : List (Member Node)}
    {span : Span} (h : IsValue text start (.object members span)) :
    ∃ inner, text = '\x7b' :: inner ∧
      BetweenText (MemberText IsValue) '\x7d' inner (start + 1) members := by
  cases h with
  | emptyObject hblanks => exact ⟨_, rfl, _, rfl, .inl ⟨hblanks, rfl⟩⟩
  | object hparts => exact ⟨_, rfl, _, rfl, .inr hparts⟩

/-! ## 2. Documents -/

theorem Grammar.IsDocument.reads {source : List Char} {node : Node} {budget : Nat}
    (h : IsDocument source node) (hdepth : node.depth ≤ budget) :
    ∃ last, Reads (readValue budget) (Cursor.skipBlanks ⟨source, 0⟩) node last ∧
      last.skipBlanks.rest = [] := by
  obtain @⟨before, text, after, _, hbefore, hvalue, hafter⟩ := h
  have hc : Cursor.Covers ⟨before ++ (text ++ after), 0⟩ before
      ⟨text ++ after, byteLength before⟩ := ⟨rfl, (Nat.zero_add _).symm⟩
  have hlast : Cursor.Covers ⟨after, byteLength before + byteLength text⟩ after
      ⟨[], byteLength before + byteLength text + byteLength after⟩ :=
    ⟨(List.append_nil after).symm, rfl⟩
  have hstart := Cursor.skipBlanks_complete hc hbefore
    (stops_of_begins (begins_isValue.mono fun _ hc => hc.1) hvalue)
  have hend := Cursor.skipBlanks_complete hlast hafter (stops_nil _)
  have hstop : Stops isNumberChar after := by
    have := stops_blanks hafter (stops_nil isNumberChar)
    rwa [List.append_nil] at this
  refine ⟨⟨after, byteLength before + byteLength text⟩, ?_, by rw [hend]⟩
  rw [hstart]
  exact (follows_readValue budget).complete ⟨rfl, rfl⟩ ⟨hvalue, hdepth⟩ hstop

theorem Grammar.IsDocument.read_eq_ok {source : List Char} {node : Node}
    (h : IsDocument source node) (hdepth : node.depth ≤ depthLimit) :
    Node.read source = .ok node :=
  read_eq_ok_iff.mpr (h.reads hdepth)

theorem isDocument_of_read {source : List Char} {node : Node} (h : Node.read source = .ok node) :
    IsDocument source node ∧ node.depth ≤ depthLimit := by
  obtain ⟨last, hread, hempty⟩ := read_eq_ok_iff.mp h
  obtain ⟨before, hbefore, hc⟩ := Cursor.skipBlanks_sound ⟨source, 0⟩
  obtain ⟨text, htext, hvalue, hdepth⟩ := (follows_readValue depthLimit).sound hread
  obtain ⟨after, hafter, hlast⟩ := last.skipBlanks_sound
  have hsource : source = before ++ (text ++ (after ++ last.skipBlanks.rest)) := by
    rw [← hlast.1, ← htext.1, ← hc.1]
  rw [hempty, List.append_nil] at hsource
  rw [hc.2, Nat.zero_add] at hvalue
  subst hsource
  exact ⟨.mk hbefore hvalue hafter, hdepth⟩

/-- **A text is derived as one tree at most.** -/
theorem Grammar.IsDocument.unique {source : List Char} {node node' : Node}
    (h : IsDocument source node) (h' : IsDocument source node') : node = node' := by
  obtain ⟨last, ⟨_, hread⟩, -⟩ := h.reads (Nat.le_max_left node.depth node'.depth)
  obtain ⟨last', ⟨_, hread'⟩, -⟩ := h'.reads (Nat.le_max_right node.depth node'.depth)
  rw [hread, Except.ok.injEq, Prod.mk.injEq] at hread'
  exact hread'.1

/-! ## 3. What a text begins with -/

/-- The tree of an array or an object. -/
def Node.IsBracketed : Node → Prop
  | .object .. | .array .. => True
  | .string .. | .number .. | .boolean .. | .null _ => False

/-- An array or an object is read whatever follows it. -/
theorem Grammar.IsValue.reads_bracketed {text : List Char} {node : Node} {budget : Nat}
    {c d : Cursor} (h : IsValue text c.offset node) (hbrackets : node.IsBracketed)
    (hdepth : node.depth ≤ budget) (hcovers : c.Covers text d) :
    Reads (readValue budget) c node d := by
  refine readValue_complete (fun b _ => follows_readValue b) hcovers ⟨h, hdepth⟩ ?_
  rintro n span rfl
  exact hbrackets.elim

/-- **A text begins with one array or object at most.** -/
theorem Grammar.IsValue.unique_front {text text' rest rest' : List Char} {start : Nat}
    {node node' : Node} (h : IsValue text start node) (hbrackets : node.IsBracketed)
    (h' : IsValue text' start node') (hbrackets' : node'.IsBracketed)
    (heq : text ++ rest = text' ++ rest') : node = node' ∧ text = text' ∧ rest = rest' := by
  have hcovers : Cursor.Covers ⟨text ++ rest, start⟩ text ⟨rest, start + byteLength text⟩ :=
    ⟨rfl, rfl⟩
  have hcovers' : Cursor.Covers ⟨text ++ rest, start⟩ text' ⟨rest', start + byteLength text'⟩ :=
    ⟨heq, rfl⟩
  obtain ⟨_, hread⟩ :=
    h.reads_bracketed hbrackets (Nat.le_max_left node.depth node'.depth) hcovers
  obtain ⟨_, hread'⟩ :=
    h'.reads_bracketed hbrackets' (Nat.le_max_right node.depth node'.depth) hcovers'
  rw [hread, Except.ok.injEq, Prod.mk.injEq, Subtype.mk.injEq, Cursor.mk.injEq] at hread'
  obtain ⟨hnode, hrest, -⟩ := hread'
  rw [hrest] at heq
  exact ⟨hnode, List.append_cancel_right heq, hrest⟩

/-- The same after blanks, which end where the bracket opens. -/
theorem Grammar.IsValue.unique_after_blanks {before before' text text' rest rest' : List Char}
    {node node' : Node} (hbefore : Blanks before) (h : IsValue text (byteLength before) node)
    (hbrackets : node.IsBracketed) (hbefore' : Blanks before')
    (h' : IsValue text' (byteLength before') node') (hbrackets' : node'.IsBracketed)
    (heq : before ++ (text ++ rest) = before' ++ (text' ++ rest')) :
    node = node' ∧ rest = rest' := by
  have hstop : Stops Cursor.isBlank (text ++ rest) :=
    stops_of_begins (begins_isValue.mono fun _ hc => hc.1) h
  have hstop' : Stops Cursor.isBlank (text' ++ rest') :=
    stops_of_begins (begins_isValue.mono fun _ hc => hc.1) h'
  obtain ⟨rfl, hfront⟩ := run_append_inj (Cursor.isBlank_of_blanks hbefore)
    (Cursor.isBlank_of_blanks hbefore') hstop hstop' heq
  obtain ⟨hnode, -, hrest⟩ := h.unique_front hbrackets h' hbrackets' hfront
  exact ⟨hnode, hrest⟩

end SchemaCompiler
