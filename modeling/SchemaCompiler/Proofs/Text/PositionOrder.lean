/-
  File:      SchemaCompiler/Proofs/Text/PositionOrder.lean
  Subject:   Positions and offsets: what a position counts, and that it grows with the offset.

  `Position.ofBytes?` computes a position in one walk over the bytes before an offset. It keeps the
  offset at which the line begins, counts the characters from there on, and takes the difference of
  the two offsets where the offset is inside a character. The difference may not go below zero; then
  there would be no position.

  * `LineWalk.along_utf8` -- the walk counts line feeds, and ends where the last line begins;
  * `Position.ofBytes?_eq` -- so there is a position for every offset, which is
    `Position.ofOffset`;
  * `Position.following_before` -- with each character the position grows;
  * **`positions_faithful`** -- what positions count, their order, and the offsets past the end.
-/
import Mathlib.Data.List.Induction
import SchemaCompiler.Proofs.Json.Slices
import SchemaCompiler.Proofs.Text.Positions
import SchemaCompiler.Proofs.Text.Utf8

namespace SchemaCompiler

open Grammar

/-! ## 1. Last lines -/

theorem lastLine_concat (front : List Char) (c : Char) :
    lastLine (front ++ [c]) = if c = '\n' then [] else lastLine front ++ [c] := by
  by_cases hc : c = '\n'
  · subst hc
    simp [lastLine]
  · simp [lastLine, hc]

theorem count_concat_of_ne (front : List Char) {c : Char} (hc : c ≠ '\n') :
    (front ++ [c]).count '\n' = front.count '\n' := by
  rw [List.count_append, List.count_cons_of_ne hc, List.count_nil, Nat.add_zero]

/-- A text is its last line after other lines, each with its line feed. -/
theorem exists_lines (front : List Char) :
    ∃ lines, front = lines ++ lastLine front ∧ '\n' ∉ lastLine front ∧
      (lines = [] ∨ ∃ earlier, lines = earlier ++ ['\n']) := by
  induction front using List.reverseRecOn with
  | nil => exact ⟨[], rfl, List.not_mem_nil, .inl rfl⟩
  | append_singleton front c ih =>
    obtain ⟨lines, hfront, hline, hlines⟩ := ih
    rw [lastLine_concat]
    by_cases hc : c = '\n'
    · rw [if_pos hc, hc]
      exact ⟨front ++ ['\n'], (List.append_nil _).symm, List.not_mem_nil, .inr ⟨front, rfl⟩⟩
    · rw [if_neg hc]
      refine ⟨lines, ?_, ?_, hlines⟩
      · rw [← List.append_assoc, ← hfront]
      · rw [List.mem_append, List.mem_singleton, not_or]
        exact ⟨hline, Ne.symm hc⟩

/-! ## 2. Walking along bytes -/

/-- A line, and the offset at which it begins. -/
structure LineWalk where
  line : Nat
  start : Nat
  deriving DecidableEq, Repr

namespace LineWalk

/-- After one more byte, which stands at an offset. -/
def step (walk : LineWalk) (entry : UInt8 × Nat) : LineWalk :=
  if entry.1 = '\n'.toUInt8 then ⟨walk.line + 1, entry.2 + 1⟩ else walk

/-- The walk over some bytes from the first line on. -/
def along (bytes : List UInt8) : LineWalk := bytes.zipIdx.foldl step ⟨1, 0⟩

theorem along_append (bytes more : List UInt8) :
    along (bytes ++ more) = (more.zipIdx bytes.length).foldl step (along bytes) := by
  rw [along, along, List.zipIdx_append, List.foldl_append, Nat.zero_add]

/-- Bytes without a line feed leave the walk where it is. -/
theorem foldl_plain {bytes : List UInt8} (h : ∀ b ∈ bytes, b ≠ '\n'.toUInt8) (walk : LineWalk)
    (offset : Nat) : (bytes.zipIdx offset).foldl step walk = walk := by
  induction bytes generalizing offset with
  | nil => rfl
  | cons b bytes ih =>
    obtain ⟨hb, hbytes⟩ := List.forall_mem_cons.mp h
    have hstep : step walk (b, offset) = walk := if_neg hb
    rw [List.zipIdx_cons, List.foldl_cons, hstep]
    exact ih hbytes _

theorem along_append_plain (bytes : List UInt8) {more : List UInt8}
    (h : ∀ b ∈ more, b ≠ '\n'.toUInt8) : along (bytes ++ more) = along bytes := by
  rw [along_append, foldl_plain h]

end LineWalk

/-- The line feed is the only character with its byte. -/
theorem ne_lineFeed_of_mem {c : Char} (hc : c ≠ '\n') {b : UInt8}
    (hb : b ∈ String.utf8EncodeChar c) : b ≠ '\n'.toUInt8 := by
  rintro rfl
  by_cases hnarrow : c.toNat < 0x80
  · rw [encode_of_narrow hnarrow, List.mem_singleton, ← leadByte_of_narrow hnarrow] at hb
    exact hc ((leadByte_eq_iff (by decide) c).mp hb.symm)
  · exact absurd (byte_of_wide (Nat.le_of_not_lt hnarrow) hb) (by decide)

theorem utf8_concat (front : List Char) (c : Char) :
    utf8 (front ++ [c]) = utf8 front ++ String.utf8EncodeChar c := by
  rw [utf8_append, utf8_cons, utf8_nil, List.append_nil]

theorem count_lineFeed_utf8 (front : List Char) :
    (utf8 front).count '\n'.toUInt8 = front.count '\n' := by
  induction front with
  | nil => rfl
  | cons c front ih =>
    rw [utf8_cons, List.count_append, ih]
    by_cases hc : c = '\n'
    · subst hc
      rw [List.count_cons_self, Nat.add_comm]
      rfl
    · rw [List.count_cons_of_ne hc, List.count_eq_zero.mpr fun hmem =>
        ne_lineFeed_of_mem hc hmem rfl, Nat.zero_add]

/-- **The walk over a text counts its line feeds, and ends where its last line begins.** -/
theorem LineWalk.along_utf8 (front : List Char) :
    (along (utf8 front)).line = front.count '\n' + 1 ∧
      (along (utf8 front)).start + byteLength (lastLine front) = byteLength front := by
  induction front using List.reverseRecOn with
  | nil => exact ⟨rfl, rfl⟩
  | append_singleton front c ih =>
    obtain ⟨hline, hstart⟩ := ih
    rw [utf8_concat, lastLine_concat]
    by_cases hc : c = '\n'
    · subst hc
      have halong : along (utf8 front ++ String.utf8EncodeChar '\n') =
          ⟨(along (utf8 front)).line + 1, byteLength front + 1⟩ := by
        rw [along_append, length_utf8]
        rfl
      rw [halong, if_pos rfl, List.count_append, byteLength_append]
      exact ⟨by rw [hline]; rfl, rfl⟩
    · rw [along_append_plain _ fun b hb => ne_lineFeed_of_mem hc hb, if_neg hc]
      refine ⟨?_, ?_⟩
      · rw [hline, count_concat_of_ne front hc]
      · rw [byteLength_append, byteLength_append, ← hstart, Nat.add_assoc]

/-! ## 3. Positions from bytes -/

/-- An offset is in a character of the text, at its first byte or inside of it, or past the end. -/
theorem offset_cases (text : List Char) (offset : Nat) :
    byteLength text ≤ offset ∨
      ∃ front c rest k, text = front ++ c :: rest ∧ offset = byteLength front + k ∧
        k < c.utf8Size := by
  induction text generalizing offset with
  | nil => exact .inl (Nat.zero_le _)
  | cons c text ih =>
    by_cases hc : offset < c.utf8Size
    · exact .inr ⟨[], c, text, offset, rfl, (Nat.zero_add _).symm, hc⟩
    · rcases ih (offset - c.utf8Size) with hpast | ⟨front, x, rest, k, rfl, hoffset, hk⟩
      · rw [byteLength_cons]
        exact .inl (by omega)
      · refine .inr ⟨c :: front, x, rest, k, rfl, ?_, hk⟩
        rw [byteLength_cons]
        omega

theorem before_past {text : List Char} {offset : Nat} (h : byteLength text ≤ offset) :
    before text offset = (text, 0) := by
  induction text generalizing offset with
  | nil => rfl
  | cons c text ih =>
    rw [byteLength_cons] at h
    rw [before, if_neg (by omega), ih (by omega)]

namespace Position

/-- Every offset past the end has the position of the end. -/
theorem ofOffset_past {text : List Char} {offset : Nat} (h : byteLength text ≤ offset) :
    ofOffset text offset = following text := by
  simp only [ofOffset, before_past h, following, ↓reduceIte]

/-- The position of an offset by a walk over the bytes before it. There is none if the line begins
    after the offset. -/
def ofBytes? (source : List Char) (offset : Nat) : Option Position :=
  let stop := min offset (utf8 source).length
  let walk := LineWalk.along ((utf8 source).take stop)
  if walk.start ≤ stop then
    let characters := (slice? source ⟨walk.start, stop⟩).map List.length
    some ⟨walk.line, characters.getD (stop - walk.start) + 1⟩
  else none

theorem ofBytes?_append (front back : List Char) :
    ofBytes? (front ++ back) (byteLength front) = some (following front) := by
  have hstop : min (byteLength front) (utf8 (front ++ back)).length = byteLength front := by
    rw [length_utf8, byteLength_append]
    omega
  have htake : (utf8 (front ++ back)).take (byteLength front) = utf8 front := by
    rw [utf8_append, ← length_utf8, List.take_left]
  obtain ⟨hline, hstart⟩ := LineWalk.along_utf8 front
  obtain ⟨lines, hfront, -, -⟩ := exists_lines front
  have hlines : byteLength lines = (LineWalk.along (utf8 front)).start := by
    have hlength := congrArg byteLength hfront
    rw [byteLength_append] at hlength
    omega
  have hslice : slice? (front ++ back) ⟨(LineWalk.along (utf8 front)).start, byteLength front⟩ =
      some (lastLine front) := by
    refine slice?_eq_some_iff.mpr ⟨lines, back, ?_, ?_⟩
    · rw [← List.append_assoc, ← hfront]
    · rw [covering, hlines, hstart]
  simp only [ofBytes?, hstop, htake]
  rw [if_pos (by omega), hslice, hline]
  rfl

theorem ofBytes?_inside (front : List Char) {c : Char} (rest : List Char) {k : Nat} (hpos : 0 < k)
    (h : k < c.utf8Size) :
    ofBytes? (front ++ c :: rest) (byteLength front + k) =
      some ⟨front.count '\n' + 1, byteLength (lastLine front) + k + 1⟩ := by
  have hstop : min (byteLength front + k) (utf8 (front ++ c :: rest)).length =
      byteLength front + k := by
    rw [length_utf8, byteLength_append, byteLength_cons]
    omega
  have htake : (utf8 (front ++ c :: rest)).take (byteLength front + k) =
      utf8 front ++ (String.utf8EncodeChar c).take k := by
    rw [utf8_append, utf8_cons, ← length_utf8, List.take_length_add_append,
      List.take_append_of_le_length (by rw [String.length_utf8EncodeChar]; omega)]
  have hne : c ≠ '\n' := by
    rintro rfl
    have hone : '\n'.utf8Size = 1 := rfl
    omega
  have hwalk : LineWalk.along (utf8 front ++ (String.utf8EncodeChar c).take k) =
      LineWalk.along (utf8 front) :=
    LineWalk.along_append_plain _ fun b hb => ne_lineFeed_of_mem hne (List.mem_of_mem_take hb)
  obtain ⟨hline, hstart⟩ := LineWalk.along_utf8 front
  have hslice : slice? (front ++ c :: rest)
      ⟨(LineWalk.along (utf8 front)).start, byteLength front + k⟩ = none := by
    refine Option.eq_none_iff_forall_ne_some.mpr fun text htext => ?_
    obtain ⟨front', back, hsplit, hspan⟩ := slice?_eq_some_iff.mp htext
    refine not_boundary_inside front rest hpos h ⟨front' ++ text, back, ?_, ?_⟩
    · rw [hsplit, List.append_assoc]
    · rw [byteLength_append]
      exact (congrArg Span.stop hspan).symm
  simp only [ofBytes?, hstop, htake, hwalk]
  rw [if_pos (by omega), hslice, hline]
  simp only [Option.map_none, Option.getD_none, Option.some.injEq, Position.mk.injEq, true_and]
  omega

/-- **The walk over the bytes gives the position of every offset**, and never takes more from an
    offset than there is. -/
theorem ofBytes?_eq (source : List Char) (offset : Nat) :
    ofBytes? source offset = some (ofOffset source offset) := by
  rcases offset_cases source offset with hpast | ⟨front, c, rest, k, rfl, rfl, hk⟩
  · have hclamped : ofBytes? source offset = ofBytes? source (byteLength source) := by
      simp only [ofBytes?, length_utf8, Nat.min_eq_right hpast, Nat.min_self]
    have hend := ofBytes?_append source []
    rw [List.append_nil] at hend
    rw [hclamped, hend, ofOffset_past hpast]
  · rcases Nat.eq_zero_or_pos k with rfl | hpos
    · rw [Nat.add_zero, ofBytes?_append, ofOffset_append]
    · rw [ofBytes?_inside front rest hpos hk, ofOffset_inside front rest hpos hk]

/-! ## 4. The order of positions -/

/-- On an earlier line, or earlier on the same line. -/
def Before (p q : Position) : Prop :=
  p.line < q.line ∨ p.line = q.line ∧ p.column < q.column

theorem Before.trans {p q r : Position} (h : p.Before q) (h' : q.Before r) : p.Before r := by
  unfold Before at *
  omega

theorem Before.irrefl (p : Position) : ¬ p.Before p := by
  unfold Before
  omega

/-- **With each character the position grows.** -/
theorem following_concat (front : List Char) (c : Char) :
    (following front).Before (following (front ++ [c])) := by
  rw [following, following, lastLine_concat]
  by_cases hc : c = '\n'
  · subst hc
    refine .inl ?_
    rw [List.count_append]
    exact Nat.lt_succ_self _
  · rw [if_neg hc, count_concat_of_ne front hc, List.length_append]
    exact .inr ⟨rfl, Nat.lt_succ_self _⟩

theorem following_before (front : List Char) {more : List Char} (hne : more ≠ []) :
    (following front).Before (following (front ++ more)) := by
  induction more using List.reverseRecOn with
  | nil => exact absurd rfl hne
  | append_singleton more c ih =>
    rw [← List.append_assoc]
    have hlast := following_concat (front ++ more) c
    rcases more.eq_nil_or_concat with rfl | ⟨_, _, hmore⟩
    · rwa [List.append_nil] at hlast ⊢
    · exact (ih (by rw [hmore]; simp)).trans hlast

/-- Of two fronts of a text the one with fewer bytes is a front of the other. -/
theorem before_of_lt {text : List Char} {a b : Nat} (ha : Boundary text a) (hb : Boundary text b)
    (h : a < b) : (ofOffset text a).Before (ofOffset text b) := by
  obtain ⟨front, back, rfl, rfl⟩ := ha
  obtain ⟨front', back', hsplit, rfl⟩ := hb
  rw [ofOffset_append]
  rcases List.append_eq_append_iff.mp hsplit with ⟨more, rfl, rfl⟩ | ⟨more, rfl, -⟩
  · rw [← List.append_assoc, ofOffset_append]
    refine following_before front fun hnil => ?_
    rw [hnil, List.append_nil] at h
    exact Nat.lt_irrefl _ h
  · rw [byteLength_append] at h
    omega

theorem before_iff_lt {text : List Char} {a b : Nat} (ha : Boundary text a)
    (hb : Boundary text b) : (ofOffset text a).Before (ofOffset text b) ↔ a < b := by
  refine ⟨fun h => ?_, before_of_lt ha hb⟩
  rcases Nat.lt_trichotomy a b with hlt | rfl | hgt
  · exact hlt
  · exact absurd h (Before.irrefl _)
  · exact absurd (h.trans (before_of_lt hb ha hgt)) (Before.irrefl _)

end Position

/-- **Positions are faithful.** At a boundary the line is one more than the line feeds among the
    bytes before it, and the column is one more than the characters since the last of them.
    Positions of boundaries are in the order of their offsets, so that different ones have different
    positions. All offsets past the end have the position of the end. And the walk over the bytes
    gives the position of every offset, inside of a character too: the line never begins after the
    offset. -/
theorem positions_faithful (source : String) :
    (∀ offset, Boundary source.toList offset →
        ∃ lines line back, source.toList = lines ++ (line ++ back) ∧
          byteLength (lines ++ line) = offset ∧ '\n' ∉ line ∧
          (lines = [] ∨ ∃ earlier, lines = earlier ++ ['\n']) ∧
          Position.ofOffset source.toList offset =
            ⟨((utf8 source.toList).take offset).count '\n'.toUInt8 + 1, line.length + 1⟩) ∧
      (∀ a b, Boundary source.toList a → Boundary source.toList b →
        ((Position.ofOffset source.toList a).Before (Position.ofOffset source.toList b) ↔ a < b)) ∧
      (∀ offset, (utf8 source.toList).length ≤ offset →
        Position.ofOffset source.toList offset =
          Position.ofOffset source.toList (utf8 source.toList).length) ∧
      ∀ offset, Position.ofBytes? source.toList offset =
        some (Position.ofOffset source.toList offset) := by
  refine ⟨fun offset hoffset => ?_, fun a b => Position.before_iff_lt, fun offset hoffset => ?_,
    Position.ofBytes?_eq source.toList⟩
  · obtain ⟨front, back, hsource, rfl⟩ := hoffset
    obtain ⟨lines, hfront, hline, hlines⟩ := exists_lines front
    have hcount : ((utf8 source.toList).take (byteLength front)).count '\n'.toUInt8 =
        front.count '\n' := by
      rw [hsource, utf8_append, ← length_utf8, List.take_left, count_lineFeed_utf8]
    refine ⟨lines, lastLine front, back, ?_, by rw [← hfront], hline, hlines, ?_⟩
    · rw [← List.append_assoc, ← hfront, hsource]
    · rw [hcount, hsource, Position.ofOffset_append]
      rfl
  · rw [length_utf8] at hoffset ⊢
    rw [Position.ofOffset_past hoffset, Position.ofOffset_past (Nat.le_refl _)]

/-- Two lines, with characters of one, two and four bytes. -/
def mixedLines : String := "é\n😀x"

/-- The offset 3 is that of the second line, 7 is that of its second character, and 5 splits its
    first one. -/
theorem positions_faithful_mixedLines :
    Boundary mixedLines.toList 3 ∧ Boundary mixedLines.toList 7 ∧
      (Position.ofOffset mixedLines.toList 3).Before (Position.ofOffset mixedLines.toList 7) ∧
      Position.ofOffset mixedLines.toList 7 = ⟨2, 2⟩ ∧
      Position.ofBytes? mixedLines.toList 5 = some ⟨2, 3⟩ ∧
      Position.ofOffset mixedLines.toList 100 = Position.ofOffset mixedLines.toList 8 := by
  have hthree : Boundary mixedLines.toList 3 := ⟨['é', '\n'], ['😀', 'x'], rfl, rfl⟩
  have hseven : Boundary mixedLines.toList 7 := ⟨['é', '\n', '😀'], ['x'], rfl, rfl⟩
  obtain ⟨-, horder, hpast, hwalk⟩ := positions_faithful mixedLines
  refine ⟨hthree, hseven, (horder 3 7 hthree hseven).mpr (by decide), by decide, ?_,
    hpast 100 (by decide)⟩
  rw [hwalk]
  decide

end SchemaCompiler
