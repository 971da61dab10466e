/-
  File:      SchemaCompiler/Proofs/Text/Utf8.lean
  Subject:   The bytes of a text, and which of them can be taken for an ASCII character.

  A character below `0x80` is one byte, its code. All bytes of the other characters are `0x80` or
  more (`byte_of_wide`). So a byte that equals the code of an ASCII character is that character,
  wherever in the text it stands.

  * `getElem?_utf8_inside`, `getElem?_utf8_append` -- the bytes of a character, and the one after a
    front of the text;
  * `leadByte_eq_iff` -- a character begins with the byte of an ASCII character only if it is that
    one.
-/
import SchemaCompiler.Text.Span

namespace SchemaCompiler

/-! ## 1. Characters -/

theorem utf8Size_of_toNat_lt {c : Char} (h : c.toNat < 0x80) : c.utf8Size = 1 :=
  Char.utf8Size_eq_one_iff.mpr (UInt32.le_iff_toNat_le.mpr (Nat.le_of_lt_succ h))

theorem encode_of_narrow {c : Char} (h : c.toNat < 0x80) :
    String.utf8EncodeChar c = [c.toUInt8] :=
  String.utf8EncodeChar_eq_singleton (utf8Size_of_toNat_lt h)

/-- **No byte of a character of several bytes is an ASCII character.** -/
theorem byte_of_wide {c : Char} (h : 0x80 ≤ c.toNat) {b : UInt8}
    (hb : b ∈ String.utf8EncodeChar c) : 0x80 ≤ b.toNat := by
  have hwide : ¬ c.val.toNat ≤ 127 := Nat.not_le_of_gt h
  -- each byte is a remainder plus its marker bits, which come to 128 or more
  have hbyte : ∀ n k : Nat, 0x80 ≤ k → n + k < 0x100 → 0x80 ≤ (UInt8.ofNat (n + k)).toNat := by
    intro n k hk hlt
    rw [UInt8.toNat_ofNat', Nat.mod_eq_of_lt hlt]
    omega
  unfold String.utf8EncodeChar at hb
  simp only [hwide, ↓reduceIte] at hb
  split at hb
  · simp only [List.mem_cons, List.not_mem_nil, or_false] at hb
    rcases hb with rfl | rfl <;> exact hbyte _ _ (by omega) (by omega)
  · split at hb
    · simp only [List.mem_cons, List.not_mem_nil, or_false] at hb
      rcases hb with rfl | rfl | rfl <;> exact hbyte _ _ (by omega) (by omega)
    · simp only [List.mem_cons, List.not_mem_nil, or_false] at hb
      rcases hb with rfl | rfl | rfl | rfl <;> exact hbyte _ _ (by omega) (by omega)

/-- The first byte of a character. -/
def leadByte (c : Char) : UInt8 := (String.utf8EncodeChar c).head String.utf8EncodeChar_ne_nil

theorem head?_encode (c : Char) : (String.utf8EncodeChar c).head? = some (leadByte c) :=
  List.head?_eq_some_head _

theorem leadByte_of_narrow {c : Char} (h : c.toNat < 0x80) : leadByte c = c.toUInt8 := by
  have hhead := head?_encode c
  rw [encode_of_narrow h] at hhead
  exact (Option.some_inj.mp hhead).symm

theorem leadByte_of_wide {c : Char} (h : 0x80 ≤ c.toNat) : 0x80 ≤ (leadByte c).toNat :=
  byte_of_wide h (List.head_mem _)

theorem toNat_toUInt8 {c : Char} (h : c.toNat < 0x80) : c.toUInt8.toNat = c.toNat := by
  show (UInt32.toUInt8 c.val).toNat = c.toNat
  rw [UInt32.toNat_toUInt8]
  exact Nat.mod_eq_of_lt (Nat.lt_trans h (by decide))

/-- **The first byte tells the ASCII characters apart from each other and from all others.** -/
theorem leadByte_eq_iff {x : Char} (hx : x.toNat < 0x80) (c : Char) :
    leadByte c = x.toUInt8 ↔ c = x := by
  constructor
  · intro h
    have hnat := congrArg UInt8.toNat h
    rw [toNat_toUInt8 hx] at hnat
    by_cases hc : c.toNat < 0x80
    · rw [leadByte_of_narrow hc, toNat_toUInt8 hc] at hnat
      exact Char.toNat_inj.mp hnat
    · have hwide := leadByte_of_wide (Nat.le_of_not_lt hc)
      omega
  · rintro rfl
    exact leadByte_of_narrow hx

/-! ## 2. Texts -/

/-- The UTF-8 form of a text. -/
def utf8 (text : List Char) : List UInt8 := text.flatMap String.utf8EncodeChar

/-- They are the bytes that the string is made of. -/
theorem utf8_toList (s : String) : utf8 s.toList = s.toByteArray.data.toList := by
  rw [← String.utf8Encode_toList, List.utf8Encode, List.toList_data_toByteArray]
  rfl

@[simp] theorem utf8_nil : utf8 [] = [] := rfl

@[simp] theorem utf8_cons (c : Char) (rest : List Char) :
    utf8 (c :: rest) = String.utf8EncodeChar c ++ utf8 rest := rfl

@[simp] theorem utf8_append (front rest : List Char) :
    utf8 (front ++ rest) = utf8 front ++ utf8 rest := List.flatMap_append

@[simp] theorem length_utf8 (text : List Char) : (utf8 text).length = byteLength text := by
  induction text with
  | nil => rfl
  | cons c rest ih =>
    rw [utf8_cons, List.length_append, String.length_utf8EncodeChar, ih, byteLength_cons]

/-- The bytes of a character, where it stands. -/
theorem getElem?_utf8_inside (front : List Char) {c : Char} (rest : List Char) {i : Nat}
    (h : i < c.utf8Size) :
    (utf8 (front ++ c :: rest))[byteLength front + i]? = (String.utf8EncodeChar c)[i]? := by
  rw [utf8_append, utf8_cons, List.getElem?_append_right (by rw [length_utf8]; omega), length_utf8,
    Nat.add_sub_cancel_left, List.getElem?_append_left (by rwa [String.length_utf8EncodeChar])]

/-- The byte after a front of the text. -/
theorem getElem?_utf8_append (front rest : List Char) :
    (utf8 (front ++ rest))[byteLength front]? = rest.head?.map leadByte := by
  cases rest with
  | nil => simp
  | cons c rest =>
    have hbyte := getElem?_utf8_inside front rest c.utf8Size_pos
    rw [Nat.add_zero] at hbyte
    rw [hbyte, ← List.head?_eq_getElem?, head?_encode]
    rfl

/-- The bytes of one text begin with those of another only if the one begins with the other. -/
theorem utf8_prefix_iff {text other : List Char} : utf8 text <+: utf8 other ↔ text <+: other := by
  constructor
  · rintro ⟨bytes, hbytes⟩
    refine List.isPrefix_of_utf8Encode_append_eq_utf8Encode bytes.toByteArray ?_
    rw [List.utf8Encode, List.utf8Encode, ← List.toByteArray_append]
    exact congrArg List.toByteArray hbytes
  · rintro ⟨rest, rfl⟩
    exact ⟨utf8 rest, (utf8_append text rest).symm⟩

end SchemaCompiler
