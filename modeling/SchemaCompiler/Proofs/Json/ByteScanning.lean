/-
  File:      SchemaCompiler/Proofs/Json/ByteScanning.lean
  Subject:   Runs of bytes and strings, seen from the characters.

  `Stands source depth s c` relates a state of the byte reader to a cursor of the reader of
  characters: the position is the offset of the cursor, and all slices so far are proper.

  * `skipRun_eq` -- runs of ASCII characters are the same in bytes;
  * **`findsEnd_loop`** -- the search for a closing quote agrees with `scanQuoted`, although it may
    stand inside a character after a backslash, or past the end: bytes inside a character are
    neither quotes nor backslashes nor control characters, so it goes on to the end of the
    character.
-/
import SchemaCompiler.Proofs.Json.ByteReader
import SchemaCompiler.Proofs.Text.Positions

namespace SchemaCompiler

namespace ByteReader

open Grammar

variable {source : List Char} {depth : Nat}

/-! ## 1. States at cursors -/

/-- The span of a part of the text that is not empty. -/
structure ProperSlice (source : List Char) (span : Span) : Prop where
  start : Boundary source span.start
  stop : Boundary source span.stop
  nonempty : span.start < span.stop
  within : span.stop ≤ byteLength source

/-- The depth is as it was, and all slices so far are proper. -/
structure Kept (source : List Char) (depth : Nat) (s : State) : Prop where
  depth_eq : s.depth = depth
  proper : ∀ span ∈ s.slices, ProperSlice source span

/-- **The byte reader stands where the cursor is.** -/
structure Stands (source : List Char) (depth : Nat) (s : State) (c : Cursor) : Prop
    extends Kept source depth s where
  pos_eq : s.pos = c.offset
  reached : ∃ front, Cursor.Covers ⟨source, 0⟩ front c

theorem Kept.moveTo {s : State} (h : Kept source depth s) (pos : Nat) :
    Kept source depth (s.moveTo pos) := ⟨h.depth_eq, h.proper⟩

namespace Stands

variable {s : State} {c d : Cursor} {text rest : List Char}

theorem split (h : Stands source depth s c) :
    ∃ front, source = front ++ c.rest ∧ byteLength front = s.pos := by
  obtain ⟨front, hrest, hoffset⟩ := h.reached
  refine ⟨front, hrest, ?_⟩
  rw [h.pos_eq, hoffset, Nat.zero_add]

theorem moveTo (h : Stands source depth s c) (hcovers : c.Covers text d) :
    Stands source depth (s.moveTo (s.pos + byteLength text)) d where
  toKept := h.toKept.moveTo _
  pos_eq := by rw [State.moveTo_pos, h.pos_eq, hcovers.2]
  reached := by
    obtain ⟨front, hfront⟩ := h.reached
    exact ⟨front ++ text, hfront.trans hcovers⟩

/-- Over a character of one byte. -/
theorem step (h : Stands source depth s c) {x : Char} (hx : x.utf8Size = 1)
    (hrest : c.rest = x :: rest) :
    Stands source depth (s.moveTo (s.pos + 1)) ⟨rest, c.offset + 1⟩ := by
  have hcovers : c.Covers [x] ⟨rest, c.offset + 1⟩ :=
    ⟨hrest, by rw [byteLength_cons, hx]; rfl⟩
  have hmoved := h.moveTo hcovers
  rwa [byteLength_cons, hx] at hmoved

theorem limit (h : Stands source depth s c) :
    s.pos + byteLength c.rest = (utf8 source).length := by
  obtain ⟨front, hsource, hpos⟩ := h.split
  rw [length_utf8, hsource, byteLength_append, hpos]

theorem pos_lt (h : Stands source depth s c) {x : Char} (hrest : c.rest = x :: rest) :
    s.pos < (utf8 source).length := by
  have hlimit := h.limit
  have hpos := x.utf8Size_pos
  rw [hrest, byteLength_cons] at hlimit
  omega

/-- Where less text is left, the position is greater. -/
theorem pos_lt_of_shorter {s' : State} (h : Stands source depth s c) (h' : Stands source depth s' d)
    (hless : d.rest.length < c.rest.length) : s.pos < s'.pos := by
  obtain ⟨front, hsource, hpos⟩ := h.split
  obtain ⟨front', hsource', hpos'⟩ := h'.split
  rcases List.append_eq_append_iff.mp (hsource.symm.trans hsource') with
    ⟨between, rfl, hrest⟩ | ⟨between, rfl, hrest⟩
  · cases between with
    | nil =>
      rw [hrest, List.nil_append] at hless
      exact absurd hless (Nat.lt_irrefl _)
    | cons x between =>
      have hsize := x.utf8Size_pos
      rw [byteLength_append, byteLength_cons] at hpos'
      omega
  · rw [hrest, List.length_append] at hless
    omega

/-- The byte at the position is the first of the next character. -/
theorem peek_eq (h : Stands source depth s c) :
    peek source s = c.rest.head?.map leadByte := by
  obtain ⟨front, hsource, hpos⟩ := h.split
  rw [peek, ← hpos, hsource]
  exact getElem?_utf8_append front c.rest

theorem peek_cons (h : Stands source depth s c) {x : Char} (hrest : c.rest = x :: rest) :
    peek source s = some (leadByte x) := by
  rw [h.peek_eq, hrest]
  rfl

theorem peek_eq_some_iff (h : Stands source depth s c) {x : Char} (hx : x.toNat < 0x80) :
    peek source s = some x.toUInt8 ↔ c.rest.head? = some x := by
  rw [h.peek_eq, Option.map_eq_some_iff]
  simp only [leadByte_eq_iff hx, exists_eq_right]

/-- The bytes of the next character. -/
theorem exists_byte (h : Stands source depth s c) {x : Char} (hrest : c.rest = x :: rest) {i : Nat}
    (hi : i < x.utf8Size) :
    ∃ b, (utf8 source)[s.pos + i]? = some b ∧ (String.utf8EncodeChar x)[i]? = some b := by
  obtain ⟨front, hsource, hpos⟩ := h.split
  rw [← String.length_utf8EncodeChar] at hi
  refine ⟨_, ?_, List.getElem?_eq_getElem hi⟩
  rw [← List.getElem?_eq_getElem hi, ← hpos, hsource, hrest]
  exact getElem?_utf8_inside front rest (by rwa [← String.length_utf8EncodeChar])

theorem failHere_eq (h : Stands source depth s c) (cause : SyntaxCause) :
    failHere source s cause = c.fail cause := by
  have hlimit := h.limit
  rw [failHere, Cursor.fail, h.pos_eq, SyntaxError.mk.injEq, Span.mk.injEq]
  refine ⟨rfl, rfl, ?_⟩
  rw [h.pos_eq] at hlimit
  cases hrest : c.rest with
  | nil =>
    rw [hrest, byteLength_nil] at hlimit
    rw [List.isEmpty_nil, if_pos rfl]
    omega
  | cons x rest =>
    have hpos := x.utf8Size_pos
    rw [hrest, byteLength_cons] at hlimit
    rw [List.isEmpty_cons, if_neg Bool.false_ne_true]
    omega

end Stands

/-! ## 2. Runs -/

/-- A kind of bytes and the kind of ASCII characters that they are. -/
structure SameKind (p : UInt8 → Bool) (q : Char → Bool) : Prop where
  lead (c : Char) : p (leadByte c) = q c
  narrow (c : Char) : q c = true → c.utf8Size = 1

theorem decide_leadByte_eq {x : Char} (hx : x.toNat < 0x80) (c : Char) :
    decide (leadByte c = x.toUInt8) = decide (c = x) :=
  decide_eq_decide.mpr (leadByte_eq_iff hx c)

theorem isDigitByte_leadByte (c : Char) : isDigitByte (leadByte c) = isDigit c := by
  have hbyte : isDigitByte (leadByte c) = true ↔
      '0'.toNat ≤ (leadByte c).toNat ∧ (leadByte c).toNat ≤ '9'.toNat := by
    rw [isDigitByte, Bool.and_eq_true, decide_eq_true_iff, decide_eq_true_iff]
    exact and_congr UInt8.le_iff_toNat_le UInt8.le_iff_toNat_le
  rw [Bool.eq_iff_iff, hbyte, isDigit_iff]
  show _ ↔ '0'.toNat ≤ c.toNat ∧ c.toNat ≤ '9'.toNat
  have hnine : '9'.toNat = 57 := rfl
  by_cases hc : c.toNat < 0x80
  · rw [leadByte_of_narrow hc, toNat_toUInt8 hc]
  · have hwide := leadByte_of_wide (Nat.le_of_not_lt hc)
    omega

theorem sameKind_blank : SameKind isBlankByte Cursor.isBlank where
  lead c := by
    simp only [isBlankByte, Cursor.isBlank]
    repeat rw [decide_leadByte_eq (by decide)]
  narrow c h := by
    rcases Cursor.isBlank_iff.mp h with rfl | rfl | rfl | rfl <;> rfl

theorem sameKind_number : SameKind isNumberByte isNumberChar where
  lead c := by
    simp only [isNumberByte, isNumberChar, isDigitByte_leadByte]
    repeat rw [decide_leadByte_eq (by decide)]
  narrow c h := by
    refine utf8Size_of_toNat_lt ?_
    simp only [isNumberChar, Bool.or_eq_true, decide_eq_true_iff] at h
    rcases h with ((((rfl | rfl) | rfl) | rfl) | rfl) | hdigit
    case inr => exact Nat.lt_of_le_of_lt (isDigit_iff.mp hdigit).2 (by decide)
    all_goals decide

/-- **A run of bytes is the run of characters.** -/
theorem skipRun_eq {p : UInt8 → Bool} {q : Char → Bool} (hkind : SameKind p q) {s : State}
    {c : Cursor} (h : Stands source depth s c) :
    skipRun source p s = .done () (s.moveTo (s.pos + byteLength (c.rest.takeWhile q))) := by
  obtain ⟨rest, offset⟩ := c
  simp only
  induction rest generalizing s offset with
  | nil =>
    have hturn : runTurn source p () s = .leave (.done () s) := by rw [runTurn, h.peek_eq]; rfl
    exact loop_leave hturn
  | cons x rest ih =>
    have hpeek := h.peek_cons rfl
    cases hx : q x with
    | false =>
      have hturn : runTurn source p () s = .leave (.done () s) := by
        rw [runTurn, hpeek]
        exact if_neg (by rw [hkind.lead, hx]; exact Bool.false_ne_true)
      rw [List.takeWhile_cons_of_neg (by rw [hx]; exact Bool.false_ne_true)]
      exact loop_leave hturn
    | true =>
      have hturn : runTurn source p () s = .again () (s.moveTo (s.pos + 1)) := by
        rw [runTurn, hpeek]
        exact if_pos (by rw [hkind.lead, hx])
      have hsize := hkind.narrow x hx
      have hmore := ih _ (h.step hsize rfl)
      rw [List.takeWhile_cons_of_pos hx, byteLength_cons, hsize, ← Nat.add_assoc]
      exact (loop_again hturn (Nat.lt_succ_self _) (h.pos_lt rfl)).trans hmore

theorem skipBlanks_eq {s : State} {c : Cursor} (h : Stands source depth s c) :
    ∃ s', skipBlanks source s = .done () s' ∧ Stands source depth s' c.skipBlanks := by
  refine ⟨_, skipRun_eq sameKind_blank h, h.moveTo ⟨?_, ?_⟩⟩
  · exact List.takeWhile_append_dropWhile.symm
  · rw [Cursor.byteLength_blanks fun b hb => Cursor.isBlank_iff.mp (List.mem_takeWhile_imp hb)]
    rfl

/-! ## 3. Strings -/

/-- A byte that the search for the closing quote steps over. -/
structure PlainByte (b : UInt8) : Prop where
  quote : b ≠ '"'.toUInt8
  backslash : b ≠ '\\'.toUInt8
  control : ¬ b < 0x20

theorem plainByte_of_high {b : UInt8} (h : 0x80 ≤ b.toNat) : PlainByte b where
  quote := by
    rintro rfl
    exact absurd h (by decide)
  backslash := by
    rintro rfl
    exact absurd h (by decide)
  control hlt := by
    have hlow : b.toNat < 0x20 := UInt8.lt_iff_toNat_lt.mp hlt
    omega

/-- All bytes of a character that is neither quote, backslash nor control character. -/
theorem plainByte_of_mem {c : Char} (hquote : c ≠ '"') (hback : c ≠ '\\')
    (hcontrol : ¬ c.toNat < 0x20) {b : UInt8} (hb : b ∈ String.utf8EncodeChar c) :
    PlainByte b := by
  by_cases hc : c.toNat < 0x80
  · rw [encode_of_narrow hc, List.mem_singleton] at hb
    subst hb
    refine ⟨fun h => hquote ?_, fun h => hback ?_, fun h => hcontrol ?_⟩
    · exact (leadByte_eq_iff (by decide) c).mp ((leadByte_of_narrow hc).trans h)
    · exact (leadByte_eq_iff (by decide) c).mp ((leadByte_of_narrow hc).trans h)
    · rw [← toNat_toUInt8 hc]
      exact UInt8.lt_iff_toNat_lt.mp h
  · exact plainByte_of_high (byte_of_wide (Nat.le_of_not_lt hc) hb)

/-- The bytes of a character after its first, whatever the character is. -/
theorem plainByte_of_later {c : Char} {i : Nat} {b : UInt8}
    (hb : (String.utf8EncodeChar c)[i + 1]? = some b) : PlainByte b := by
  have hlength := (List.getElem?_eq_some_iff.mp hb).1
  rw [String.length_utf8EncodeChar] at hlength
  have hwide : 0x80 ≤ c.toNat := by
    refine Nat.le_of_not_lt fun hc => ?_
    rw [utf8Size_of_toNat_lt hc] at hlength
    omega
  exact plainByte_of_high (byte_of_wide hwide (List.mem_of_getElem? hb))

section Strings

variable {start : Nat} {s : State}

/-- The search for the closing quote, from a state on. -/
def findEnd (source : List Char) (start : Nat) (s : State) : Outcome Unit :=
  loop (utf8 source).length (stringTurn source start) () s

theorem findEnd_plain {n : Nat}
    (h : ∀ i, i < n → ∃ b, (utf8 source)[s.pos + i]? = some b ∧ PlainByte b) :
    findEnd source start s = findEnd source start (s.moveTo (s.pos + n)) := by
  induction n generalizing s with
  | zero => rfl
  | succ n ih =>
    obtain ⟨b, hpeek, hplain⟩ := h 0 (Nat.succ_pos n)
    rw [Nat.add_zero] at hpeek
    have hturn : stringTurn source start () s = .again () (s.moveTo (s.pos + 1)) := by
      rw [stringTurn, peek, hpeek]
      simp only [if_neg hplain.quote, if_neg hplain.backslash, if_neg hplain.control]
    have hmore : findEnd source start (s.moveTo (s.pos + 1)) =
        findEnd source start (s.moveTo (s.pos + 1 + n)) := by
      refine ih fun i hi => ?_
      have hnext := h (i + 1) (by omega)
      rwa [← Nat.add_assoc, Nat.add_right_comm] at hnext
    rw [Nat.add_comm n 1, ← Nat.add_assoc, ← hmore]
    exact loop_again hturn (Nat.lt_succ_self _) (pos_lt_of_peek hpeek)

theorem ne_backslash {x : Char} {rest : List Char} (hlast : x = '\\' → rest = [] → False)
    (hescape : ∀ y more, x = '\\' → rest = y :: more → False) : x ≠ '\\' := by
  intro e
  cases rest with
  | nil => exact hlast e rfl
  | cons y more => exact hescape y more e rfl

/-- The search ends as the search among the characters does. -/
inductive FindsEnd (source : List Char) (start : Nat) (s : State) :
    QuotedScan → Outcome Unit → Prop
  | closed {token rest : List Char} :
      FindsEnd source start s (.closed token rest)
        (.done () (s.moveTo (s.pos + byteLength token)))
  | control {front : List Char} :
      FindsEnd source start s (.control front)
        (.failed ⟨.controlCharacter,
            ⟨s.pos + byteLength front, s.pos + byteLength front + 1⟩⟩
          (s.moveTo (s.pos + byteLength front)))
  | unterminated {pos : Nat} :
      FindsEnd source start s .unterminated
        (.failed ⟨.unterminatedString, ⟨start, (utf8 source).length⟩⟩ (s.moveTo pos))

theorem FindsEnd.push {front : List Char} {scan : QuotedScan} {outcome : Outcome Unit}
    (h : FindsEnd source start (s.moveTo (s.pos + byteLength front)) scan outcome) :
    FindsEnd source start s (scan.push front) outcome := by
  cases h with
  | @closed token rest =>
    rw [State.moveTo_moveTo, State.moveTo_pos, Nat.add_assoc, ← byteLength_append]
    exact .closed
  | @control seen =>
    rw [State.moveTo_moveTo, State.moveTo_pos, Nat.add_assoc, ← byteLength_append]
    exact .control
  | unterminated => exact .unterminated

/-- A character that is neither quote, backslash nor control character. -/
theorem findEnd_character {c : Cursor} {x : Char} {rest : List Char} (h : Stands source depth s c)
    (hrest : c.rest = x :: rest) (hquote : x ≠ '"') (hback : x ≠ '\\')
    (hcontrol : ¬ x.toNat < 0x20) :
    findEnd source start s = findEnd source start (s.moveTo (s.pos + x.utf8Size)) := by
  refine findEnd_plain fun i hi => ?_
  obtain ⟨b, hbyte, hb⟩ := h.exists_byte hrest hi
  exact ⟨b, hbyte, plainByte_of_mem hquote hback hcontrol (List.mem_of_getElem? hb)⟩

/-- A backslash takes two bytes, wherever the second one leaves the position. -/
theorem findEnd_backslash {c : Cursor} {rest : List Char} (h : Stands source depth s c)
    (hrest : c.rest = '\\' :: rest) :
    findEnd source start s = findEnd source start (s.moveTo (s.pos + 2)) := by
  have hturn : stringTurn source start () s = .again () (s.moveTo (s.pos + 2)) := by
    rw [stringTurn, h.peek_cons hrest]
    rfl
  refine loop_again hturn ?_ (h.pos_lt hrest)
  rw [State.moveTo_pos]
  omega

/-- So it takes the next character: the bytes of that one after its first are plain. -/
theorem findEnd_escape {c : Cursor} {x : Char} {rest : List Char} (h : Stands source depth s c)
    (hrest : c.rest = '\\' :: x :: rest) :
    findEnd source start s = findEnd source start (s.moveTo (s.pos + byteLength ['\\', x])) := by
  have hnext := h.step (x := '\\') rfl hrest
  have hsize := x.utf8Size_pos
  have hlater : findEnd source start (s.moveTo (s.pos + 2)) =
      findEnd source start (s.moveTo (s.pos + 2 + (x.utf8Size - 1))) := by
    refine findEnd_plain fun i hi => ?_
    obtain ⟨b, hbyte, hb⟩ := hnext.exists_byte (i := i + 1) rfl (by omega)
    refine ⟨b, ?_, plainByte_of_later hb⟩
    rw [← hbyte, State.moveTo_pos, State.moveTo_pos]
    congr 1
    omega
  have hlength : s.pos + 2 + (x.utf8Size - 1) = s.pos + byteLength ['\\', x] := by
    have hback : '\\'.utf8Size = 1 := rfl
    rw [byteLength_cons, byteLength_cons, byteLength_nil]
    omega
  rw [findEnd_backslash h hrest, hlater, hlength]

theorem findEnd_past {pos : Nat} (h : (utf8 source).length ≤ pos) :
    findEnd source start (s.moveTo pos) =
      .failed ⟨.unterminatedString, ⟨start, (utf8 source).length⟩⟩ (s.moveTo pos) := by
  refine loop_leave ?_
  rw [stringTurn, peek, State.moveTo_pos, List.getElem?_eq_none h]

/-- **The search for the closing quote finds what `scanQuoted` finds.** Its turns may end inside a
    character, or one byte past the end of the text, but only after a backslash, and then the bytes
    up to the next character are plain ones. -/
theorem findsEnd_loop {c : Cursor} (h : Stands source depth s c) :
    FindsEnd source start s (scanQuoted c.rest) (findEnd source start s) := by
  obtain ⟨rest, offset⟩ := c
  simp only
  fun_induction scanQuoted rest generalizing s offset with
  | case1 =>
    have hend : (utf8 source).length ≤ s.pos := h.limit.ge
    rw [← s.moveTo_self, findEnd_past hend]
    exact .unterminated
  | case2 rest =>
    have hturn : stringTurn source start () s = .leave (.done () (s.moveTo (s.pos + 1))) := by
      rw [stringTurn, h.peek_cons rfl]
      rfl
    rw [findEnd, loop_leave hturn]
    exact .closed
  | case3 =>
    have hlimit : s.pos + 1 = (utf8 source).length := h.limit
    rw [findEnd_backslash h rfl, findEnd_past (by omega)]
    exact .unterminated
  | case4 x rest ih =>
    have hcovers : Cursor.Covers ⟨'\\' :: x :: rest, offset⟩ ['\\', x]
        ⟨rest, offset + byteLength ['\\', x]⟩ := ⟨rfl, rfl⟩
    rw [findEnd_escape h rfl]
    exact (ih _ (h.moveTo hcovers)).push
  | case5 x rest hquote hlast hescape hcontrol =>
    have hback := ne_backslash hlast hescape
    have hplain : x ≠ '"' := hquote
    have hx : x.toNat < 0x80 := Nat.lt_trans hcontrol (by decide)
    have hlow : leadByte x < 0x20 := by
      rw [leadByte_of_narrow hx, UInt8.lt_iff_toNat_lt, toNat_toUInt8 hx]
      exact hcontrol
    have hturn : stringTurn source start () s =
        .leave (.failed (failHere source s .controlCharacter) s) := by
      rw [stringTurn, h.peek_cons rfl]
      simp only [leadByte_eq_iff (by decide : '"'.toNat < 0x80),
        leadByte_eq_iff (by decide : '\\'.toNat < 0x80), hplain, hback, hlow, ↓reduceIte]
    rw [findEnd, loop_leave hturn, h.failHere_eq, Cursor.fail, ← h.pos_eq]
    exact .control
  | case6 x rest hquote hlast hescape hcontrol ih =>
    have hcovers : Cursor.Covers ⟨x :: rest, offset⟩ [x] ⟨rest, offset + byteLength [x]⟩ :=
      ⟨rfl, rfl⟩
    rw [findEnd_character h rfl hquote (ne_backslash hlast hescape) hcontrol]
    exact (ih _ (h.moveTo hcovers)).push

end Strings

end ByteReader

end SchemaCompiler
