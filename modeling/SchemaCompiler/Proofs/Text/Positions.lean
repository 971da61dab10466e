/-
  File:      SchemaCompiler/Proofs/Text/Positions.lean
  Subject:   Byte offsets between characters and inside of them, and the positions they get.

  * `Boundary text offset` -- the offset stands between two characters of the text, or at an end of
    it;
  * `Position.ofOffset_append` -- there the column counts characters;
  * `Position.ofOffset_inside` -- inside of a character it counts bytes, from the start of the line.
-/
import SchemaCompiler.Text.Span

namespace SchemaCompiler

/-! ## 1. What stands before an offset -/

theorem before_append (front back : List Char) :
    before (front ++ back) (byteLength front) = (front, 0) := by
  induction front with
  | nil =>
    cases back with
    | nil => rfl
    | cons c back => rw [List.nil_append, byteLength_nil, before, if_pos c.utf8Size_pos]
  | cons c front ih =>
    have hle : ¬ byteLength (c :: front) < c.utf8Size := by
      rw [byteLength_cons]
      omega
    rw [List.cons_append, before, if_neg hle, byteLength_cons, Nat.add_sub_cancel_left, ih]

theorem before_inside (front : List Char) {c : Char} (rest : List Char) {k : Nat}
    (h : k < c.utf8Size) : before (front ++ c :: rest) (byteLength front + k) = (front, k) := by
  induction front with
  | nil => rw [List.nil_append, byteLength_nil, Nat.zero_add, before, if_pos h]
  | cons d front ih =>
    have hle : ¬ byteLength (d :: front) + k < d.utf8Size := by
      rw [byteLength_cons]
      omega
    have hrest : byteLength (d :: front) + k - d.utf8Size = byteLength front + k := by
      rw [byteLength_cons]
      omega
    rw [List.cons_append, before, if_neg hle, hrest, ih]

/-! ## 2. Boundaries -/

/-- A front of the text has as many bytes. -/
def Boundary (text : List Char) (offset : Nat) : Prop :=
  ∃ front back, text = front ++ back ∧ byteLength front = offset

/-- A text is cut in one way only at a number of bytes. -/
theorem append_inj_of_byteLength {front back front' back' : List Char}
    (h : front ++ back = front' ++ back') (hlength : byteLength front = byteLength front') :
    front = front' ∧ back = back' := by
  have hbefore := before_append front back
  rw [h, hlength, before_append, Prod.mk.injEq] at hbefore
  obtain ⟨rfl, -⟩ := hbefore
  exact ⟨rfl, List.append_cancel_left h⟩

theorem not_boundary_inside (front : List Char) {c : Char} (rest : List Char) {k : Nat}
    (hpos : 0 < k) (h : k < c.utf8Size) :
    ¬ Boundary (front ++ c :: rest) (byteLength front + k) := by
  intro hboundary
  obtain ⟨front', back, hsplit, hlength⟩ := hboundary
  have hbefore := before_append front' back
  rw [← hsplit, hlength, before_inside front rest h, Prod.mk.injEq] at hbefore
  omega

/-! ## 3. Positions -/

namespace Position

/-- The position of what follows a text: one more than its line feeds, and one more than the
    characters since the last of them. -/
def following (front : List Char) : Position :=
  ⟨front.count '\n' + 1, (lastLine front).length + 1⟩

theorem ofOffset_append (front back : List Char) :
    ofOffset (front ++ back) (byteLength front) = following front := by
  simp only [ofOffset, before_append, following, ↓reduceIte]

theorem ofOffset_inside (front : List Char) {c : Char} (rest : List Char) {k : Nat} (hpos : 0 < k)
    (h : k < c.utf8Size) :
    ofOffset (front ++ c :: rest) (byteLength front + k) =
      ⟨front.count '\n' + 1, byteLength (lastLine front) + k + 1⟩ := by
  have hne : k ≠ 0 := by omega
  simp only [ofOffset, before_inside front rest h, hne, ↓reduceIte]

/-- The offset is a boundary, and its position is that of what follows the text before it. -/
def CountsCharacters (text : List Char) (offset : Nat) : Prop :=
  ∃ front back, text = front ++ back ∧ byteLength front = offset ∧
    ofOffset text offset = following front

theorem countsCharacters_iff {text : List Char} {offset : Nat} :
    CountsCharacters text offset ↔ Boundary text offset := by
  constructor
  · intro h
    obtain ⟨front, back, hsplit, hlength, -⟩ := h
    exact ⟨front, back, hsplit, hlength⟩
  · intro h
    obtain ⟨front, back, rfl, rfl⟩ := h
    exact ⟨front, back, rfl, rfl, ofOffset_append front back⟩

end Position

end SchemaCompiler
