/-
  File:      SchemaCompiler/Proofs/Json/Slices.lean
  Subject:   The part of a text that a span names.

  Spans count bytes, texts are characters: a span names a part of a text only if both its ends stand
  between two characters or at an end of the text.

  * `slice?_eq_some_iff` -- a slice is what stands between a front of `start` bytes and a back;
  * `trimmedSpan_eq` -- the span of a text without the blanks around it.
-/
import SchemaCompiler.Proofs.Json.Readers

namespace SchemaCompiler

open Grammar

/-! ## 1. Slices -/

@[simp] theorem covering_start (start : Nat) (text : List Char) :
    (covering start text).start = start := rfl

@[simp] theorem covering_stop (start : Nat) (text : List Char) :
    (covering start text).stop = start + byteLength text := rfl

/-- A text cut at a byte offset. There is none past the end or inside a character. -/
def splitBytes? : List Char → Nat → Option (List Char × List Char)
  | text, 0 => some ([], text)
  | [], _ + 1 => none
  | c :: rest, n + 1 =>
    if c.utf8Size ≤ n + 1 then
      (splitBytes? rest (n + 1 - c.utf8Size)).map fun cut => (c :: cut.1, cut.2)
    else none

/-- The part of a text that a span names, if both ends of the span are places to cut. -/
def slice? (source : List Char) (span : Span) : Option (List Char) := do
  let (_, rest) ← splitBytes? source span.start
  let (text, _) ← splitBytes? rest (span.stop - span.start)
  if span.start ≤ span.stop then some text else none

theorem splitBytes?_append (front back : List Char) :
    splitBytes? (front ++ back) (byteLength front) = some (front, back) := by
  induction front with
  | nil => cases back <;> rfl
  | cons c front ih =>
    have hpos := c.utf8Size_pos
    obtain ⟨n, hn⟩ : ∃ n, byteLength (c :: front) = n + 1 := by
      refine ⟨byteLength (c :: front) - 1, ?_⟩
      rw [byteLength_cons]
      omega
    have hrest : n + 1 - c.utf8Size = byteLength front := by
      rw [← hn, byteLength_cons]
      omega
    have hfits : c.utf8Size ≤ n + 1 := by
      rw [← hn, byteLength_cons]
      omega
    rw [List.cons_append, hn, splitBytes?, if_pos hfits, hrest, ih, Option.map_some]

theorem eq_append_of_splitBytes? {text front back : List Char} {n : Nat}
    (h : splitBytes? text n = some (front, back)) :
    text = front ++ back ∧ byteLength front = n := by
  fun_induction splitBytes? text n generalizing front with
  | case1 text => simp_all
  | case2 => simp at h
  | case3 c rest n hfits ih =>
    obtain ⟨cut, hcut, hsplit⟩ := Option.map_eq_some_iff.mp h
    rw [Prod.mk.injEq] at hsplit
    obtain ⟨rfl, rfl⟩ := hsplit
    obtain ⟨rfl, hlength⟩ := ih hcut
    rw [byteLength_cons, hlength]
    exact ⟨rfl, by omega⟩
  | case4 => simp at h

/-- **A slice is what stands between a front and a back.** -/
theorem slice?_eq_some_iff {source text : List Char} {span : Span} :
    slice? source span = some text ↔
      ∃ front back, source = front ++ (text ++ back) ∧ span = covering (byteLength front) text := by
  obtain ⟨start, stop⟩ := span
  constructor
  · intro h
    simp only [slice?, Option.bind_eq_bind, Option.bind_eq_some_iff] at h
    obtain ⟨⟨front, rest⟩, hfront, ⟨text', back⟩, htext, h⟩ := h
    split at h
    · rename_i hle
      simp only [Option.some.injEq] at h
      subst h
      obtain ⟨rfl, rfl⟩ := eq_append_of_splitBytes? hfront
      obtain ⟨rfl, hlength⟩ := eq_append_of_splitBytes? htext
      refine ⟨front, back, rfl, ?_⟩
      rw [covering, Span.mk.injEq]
      exact ⟨rfl, by omega⟩
    · cases h
  · intro h
    obtain ⟨front, back, rfl, hspan⟩ := h
    rw [covering, Span.mk.injEq] at hspan
    obtain ⟨rfl, rfl⟩ := hspan
    simp only [slice?, splitBytes?_append, Option.bind_eq_bind, Option.bind_some,
      Nat.add_sub_cancel_left, Nat.le_add_right, ↓reduceIte]

/-! ## 2. Trimming -/

theorem byteLength_reverse (text : List Char) : byteLength text.reverse = byteLength text := by
  induction text with
  | nil => rfl
  | cons c text ih =>
    rw [List.reverse_cons, byteLength_append, ih, byteLength_cons, byteLength_cons, byteLength_nil]
    omega

/-- The span of a text without the blanks before and after it. -/
def trimmedSpan (source : List Char) : Span where
  start := byteLength (source.takeWhile Cursor.isBlank)
  stop := byteLength source - byteLength (source.reverse.takeWhile Cursor.isBlank)

/-- What neither begins nor ends with a blank is what is left between the blanks. -/
theorem trimmedSpan_eq {before text after : List Char} (hbefore : Blanks before)
    (hafter : Blanks after) (hfirst : Stops Cursor.isBlank (text ++ after))
    (hlast : Stops Cursor.isBlank (text.reverse ++ before.reverse)) :
    trimmedSpan (before ++ (text ++ after)) = covering (byteLength before) text := by
  have hreverse : (before ++ (text ++ after)).reverse =
      after.reverse ++ (text.reverse ++ before.reverse) := by
    simp only [List.reverse_append, List.append_assoc]
  have hblanks : ∀ c ∈ after.reverse, Cursor.isBlank c = true := fun c hc =>
    Cursor.isBlank_of_blanks hafter c (List.mem_reverse.mp hc)
  rw [trimmedSpan, takeWhile_run (Cursor.isBlank_of_blanks hbefore) hfirst, hreverse,
    takeWhile_run hblanks hlast, byteLength_reverse, covering, Span.mk.injEq]
  refine ⟨rfl, ?_⟩
  rw [byteLength_append, byteLength_append]
  omega

end SchemaCompiler
