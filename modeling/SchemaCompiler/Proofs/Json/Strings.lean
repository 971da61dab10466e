/-
  File:      SchemaCompiler/Proofs/Json/Strings.lean
  Subject:   The two passes over a string token and the string grammar.

  A string is read twice: `scanQuoted` looks for the closing quote, jumping over the character
  after each backslash, and `unquote` decodes what it found. Neither alone is the grammar. What
  holds them together is `scanQuoted_complete`: on a derived text the first pass stops at the very
  quote the second one stops at, since the digits of an escape are plain characters to it.

  * `unquote_eq_ok_iff` -- decoding accepts exactly what the string grammar derives, up to the
    first quote outside an escape;
  * `scanQuoted_sound`, `scanQuoted_complete` -- the closing quote.
-/
import SchemaCompiler.Proofs.Json.Grammar

namespace SchemaCompiler

open Grammar

/-! ## 1. Escapes -/

/-- The value of a hexadecimal digit is that of the grammar. -/
theorem hexValue?_eq_some_iff {c : Char} {n : Nat} : hexValue? c = some n ↔ HexDigit c n := by
  unfold hexValue?
  constructor
  · intro h
    split at h
    · rename_i hd
      simp only [isDigit, Bool.and_eq_true, decide_eq_true_eq] at hd
      cases h
      exact .decimal hd.1 hd.2
    · split at h
      · rename_i hl
        cases h
        exact .lower hl.1 hl.2
      · split at h
        · rename_i hu
          cases h
          exact .upper hu.1 hu.2
        · cases h
  · intro h
    -- the three ranges do not meet, so the tests before the right one fail
    cases h with
    | decimal h0 h9 => simp [isDigit, digitValue, h0, h9]
    | lower ha hf =>
      have hd : ¬ c ≤ '9' := fun h => absurd (Nat.le_trans ha h) (by decide)
      simp [isDigit, hd, ha, hf]
    | upper ha hf =>
      have hd : ¬ c ≤ '9' := fun h => absurd (Nat.le_trans ha h) (by decide)
      have hl : ¬ 'a' ≤ c := fun h => absurd (Nat.le_trans h hf) (by decide)
      simp [isDigit, hd, hl, ha, hf]

/-- A hexadecimal digit stands for itself in a string. -/
theorem Grammar.HexDigit.plain {c : Char} {n : Nat} (h : HexDigit c n) :
    0x20 ≤ c.toNat ∧ c ≠ '"' ∧ c ≠ '\\' := by
  cases h with
  | decimal h0 h9 =>
    exact ⟨Nat.le_trans (by decide) h0, fun e => absurd (e ▸ h0) (by decide),
      fun e => absurd (e ▸ h9) (by decide)⟩
  | lower ha hf =>
    exact ⟨Nat.le_trans (by decide) ha, fun e => absurd (e ▸ ha) (by decide),
      fun e => absurd (e ▸ ha) (by decide)⟩
  | upper ha hf =>
    exact ⟨Nat.le_trans (by decide) ha, fun e => absurd (e ▸ ha) (by decide),
      fun e => absurd (e ▸ hf) (by decide)⟩

theorem hexQuad?_eq_some_iff {a b c d : Char} {n : Nat} :
    hexQuad? a b c d = some n ↔ HexQuad [a, b, c, d] n := by
  simp only [hexQuad?, Option.bind_eq_bind, Option.bind_eq_some_iff, Option.pure_def,
    Option.some.injEq, hexValue?_eq_some_iff]
  constructor
  · intro hquad
    obtain ⟨w, hw, x, hx, y, hy, z, hz, rfl⟩ := hquad
    have e : ((w * 16 + x) * 16 + y) * 16 + z = w * 4096 + x * 256 + y * 16 + z := by omega
    exact e ▸ .mk hw hx hy hz
  · intro h
    cases h with
    | @mk _ _ _ _ w x y z hw hx hy hz => exact ⟨w, hw, x, hx, y, hy, z, hz, by omega⟩

/-- What is read as four hexadecimal digits is derived. -/
theorem readHex_sound {place : Place} {text rest : List Char} {n : Nat}
    (h : readHex place text = .ok (n, rest)) : ∃ quad, text = quad ++ rest ∧ HexQuad quad n := by
  unfold readHex at h
  split at h
  · split at h
    · rename_i hquad
      cases h
      exact ⟨_, rfl, hexQuad?_eq_some_iff.mp hquad⟩
    · cases h
  · cases h

/-- Four hexadecimal digits are read, whatever follows. -/
theorem readHex_complete {quad : List Char} {n : Nat} (h : HexQuad quad n) (place : Place)
    (rest : List Char) : readHex place (quad ++ rest) = .ok (n, rest) := by
  have hquad := h
  cases h with
  | mk => simp only [List.cons_append, List.nil_append, readHex, hexQuad?_eq_some_iff.mpr hquad]

/-- The table of escape letters is that of the grammar. -/
theorem simpleEscape?_eq_some_iff {l c : Char} : simpleEscape? l = some c ↔ EscapeLetter l c := by
  constructor
  · intro h
    unfold simpleEscape? at h
    iterate 8
      split at h
      · rename_i hl
        cases h
        subst hl
        constructor
    cases h
  · intro h
    cases h <;> rfl

theorem Grammar.EscapeLetter.ne_u {l c : Char} (h : EscapeLetter l c) : l ≠ 'u' := by
  cases h <;> decide

theorem toNat_ofNat_of_valid {n : Nat} (h : n.isValidChar) : (Char.ofNat n).toNat = n := by
  unfold Char.ofNat
  rw [dif_pos h]
  rfl

theorem Grammar.HexDigit.lt {c : Char} {n : Nat} (h : HexDigit c n) : n < 16 := by
  cases h with
  | decimal h0 h9 =>
    have h : c.toNat ≤ 57 := h9
    have e : '0'.toNat = 48 := rfl
    omega
  | lower ha hf =>
    have h : c.toNat ≤ 102 := hf
    have e : 'a'.toNat = 97 := rfl
    omega
  | upper ha hf =>
    have h : c.toNat ≤ 70 := hf
    have e : 'A'.toNat = 65 := rfl
    omega

/-- Four hexadecimal digits have 16 bits. -/
theorem Grammar.HexQuad.lt {quad : List Char} {n : Nat} (h : HexQuad quad n) : n < 0x10000 := by
  cases h with
  | mk hw hx hy hz =>
    have := hw.lt
    have := hx.lt
    have := hy.lt
    have := hz.lt
    omega

theorem isLowSurrogate_iff {n : Nat} : isLowSurrogate n = true ↔ 0xDC00 ≤ n ∧ n ≤ 0xDFFF := by
  simp [isLowSurrogate]

theorem isHighSurrogate_iff {n : Nat} : isHighSurrogate n = true ↔ 0xD800 ≤ n ∧ n ≤ 0xDBFF := by
  simp [isHighSurrogate]

/-- Two surrogates denote a character beyond 16 bits; the sum is always the code point of one. -/
theorem toNat_surrogatePair {high low : Nat} (hh : isHighSurrogate high = true)
    (hl : isLowSurrogate low = true) :
    (surrogatePair high low).toNat = 0x10000 + (high - 0xD800) * 0x400 + (low - 0xDC00) := by
  obtain ⟨_, _⟩ := isHighSurrogate_iff.mp hh
  obtain ⟨_, _⟩ := isLowSurrogate_iff.mp hl
  unfold surrogatePair
  rw [toNat_ofNat_of_valid (Or.inr (by omega))]
  omega

/-- After a high surrogate the escape of a low one is read, and nothing else. -/
theorem readLowSurrogate_sound {place next : Place} {high : Nat} {text rest : List Char} {c : Char}
    (hh : isHighSurrogate high = true)
    (h : readLowSurrogate place high text = .ok (c, next, rest)) :
    ∃ quad low, text = '\\' :: 'u' :: (quad ++ rest) ∧ HexQuad quad low ∧
      0xDC00 ≤ low ∧ low ≤ 0xDFFF ∧
      c.toNat = 0x10000 + (high - 0xD800) * 0x400 + (low - 0xDC00) := by
  unfold readLowSurrogate at h
  split at h
  · cases h
  · cases h
  · split at h
    · cases h
    · rename_i low rest' hhex
      split at h
      · rename_i hl
        simp only [Except.ok.injEq, Prod.mk.injEq] at h
        obtain ⟨rfl, -, rfl⟩ := h
        obtain ⟨quad, rfl, hquad⟩ := readHex_sound hhex
        obtain ⟨hl1, hl2⟩ := isLowSurrogate_iff.mp hl
        exact ⟨quad, low, rfl, hquad, hl1, hl2, toNat_surrogatePair hh hl⟩
      · cases h
  · cases h
  · cases h

/-- The escape of a low surrogate completes a pair. -/
theorem readLowSurrogate_complete {quad : List Char} {high low : Nat} (h : HexQuad quad low)
    (hl : isLowSurrogate low = true) (place : Place) (rest : List Char) :
    readLowSurrogate place high ('\\' :: 'u' :: (quad ++ rest)) =
      .ok (surrogatePair high low, place.skip 6, rest) := by
  simp only [readLowSurrogate, readHex_complete h, hl, ↓reduceIte]

/-- What is read after the letter `u` is one escape: four digits, or those of a pair. -/
theorem readUnicode_sound {place next : Place} {text rest : List Char} {c : Char}
    (h : readUnicode place text = .ok (c, next, rest)) :
    ∃ escape, text = escape ++ rest ∧ Escape ('u' :: escape) c := by
  unfold readUnicode at h
  split at h
  · cases h
  · rename_i n after hhex
    obtain ⟨quad, rfl, hquad⟩ := readHex_sound hhex
    split at h
    · cases h
    · rename_i hlow
      split at h
      · rename_i hhigh
        obtain ⟨quad', low, rfl, hquad', hl1, hl2, hc⟩ := readLowSurrogate_sound hhigh h
        obtain ⟨hh1, hh2⟩ := isHighSurrogate_iff.mp hhigh
        exact ⟨_, by simp, .pair hquad hquad' hh1 hh2 hl1 hl2 hc⟩
      · rename_i hhigh
        simp only [Except.ok.injEq, Prod.mk.injEq] at h
        obtain ⟨rfl, -, rfl⟩ := h
        have hn := hquad.lt
        have hvalid : n.isValidChar := by
          rw [isLowSurrogate_iff] at hlow
          rw [isHighSurrogate_iff] at hhigh
          unfold Nat.isValidChar
          omega
        rw [← toNat_ofNat_of_valid hvalid] at hquad
        exact ⟨quad, rfl, .unicode hquad⟩

/-- What is read after a backslash is an escape. -/
theorem readEscape_sound {place next : Place} {text rest : List Char} {c : Char}
    (h : readEscape place text = .ok (c, next, rest)) :
    ∃ escape, text = escape ++ rest ∧ Escape escape c := by
  unfold readEscape at h
  split at h
  · cases h
  · rename_i l tail
    split at h
    · rename_i hl
      subst hl
      obtain ⟨escape, rfl, hescape⟩ := readUnicode_sound h
      exact ⟨'u' :: escape, rfl, hescape⟩
    · split at h
      · rename_i hletter
        simp only [Except.ok.injEq, Prod.mk.injEq] at h
        obtain ⟨rfl, -, rfl⟩ := h
        exact ⟨[l], rfl, .letter (simpleEscape?_eq_some_iff.mp hletter)⟩
      · cases h

/-- A character is neither half of a surrogate pair. -/
theorem not_surrogate (c : Char) :
    isLowSurrogate c.toNat = false ∧ isHighSurrogate c.toNat = false := by
  have hvalid : c.toNat.isValidChar := c.valid
  unfold Nat.isValidChar at hvalid
  rw [← Bool.not_eq_true, ← Bool.not_eq_true, isLowSurrogate_iff, isHighSurrogate_iff]
  omega

/-- Every escape is read after its backslash. -/
theorem readEscape_complete {escape : List Char} {c : Char} (h : Escape escape c) (place : Place)
    (rest : List Char) : ∃ next, readEscape place (escape ++ rest) = .ok (c, next, rest) := by
  cases h with
  | @letter l c h =>
    simp only [List.singleton_append, readEscape, h.ne_u, ↓reduceIte,
      simpleEscape?_eq_some_iff.mpr h]
    exact ⟨_, rfl⟩
  | @unicode quad c h =>
    obtain ⟨hlow, hhigh⟩ := not_surrogate c
    simp only [List.cons_append, readEscape, ↓reduceIte, readUnicode, readHex_complete h, hlow,
      hhigh, Bool.false_eq_true, Char.ofNat_toNat]
    exact ⟨_, rfl⟩
  | @pair quad quad' high low c hq hq' hh1 hh2 hl1 hl2 hc =>
    have hhigh := isHighSurrogate_iff.mpr ⟨hh1, hh2⟩
    have hlow := isLowSurrogate_iff.mpr ⟨hl1, hl2⟩
    have hhigh' : isLowSurrogate high = false := by
      rw [← Bool.not_eq_true, isLowSurrogate_iff]
      omega
    have e : surrogatePair high low = c :=
      Char.toNat_inj.mp ((toNat_surrogatePair hhigh hlow).trans hc.symm)
    simp only [List.cons_append, List.append_assoc, readEscape, ↓reduceIte, readUnicode,
      readHex_complete hq, hhigh, hhigh', Bool.false_eq_true, readLowSurrogate_complete hq' hlow, e]
    exact ⟨_, rfl⟩

/-! ## 2. Decoding -/

/-- What is decoded up to a quote is the body of a string. -/
theorem unquote_sound {place : Place} {text decoded rest : List Char}
    (h : unquote place text = .ok (decoded, rest)) :
    ∃ body, text = body ++ '"' :: rest ∧ StringBody body decoded := by
  fun_induction unquote place text generalizing decoded rest with
  | case1 => cases h
  | case2 =>
    cases h
    exact ⟨[], rfl, .empty⟩
  | case3 => cases h
  | case4 => cases h
  | case5 place tail c next after hread more after' hmore _ ih =>
    cases h
    obtain ⟨escape, rfl, hescape⟩ := readEscape_sound hread
    obtain ⟨body, rfl, hbody⟩ := ih hmore
    exact ⟨'\\' :: (escape ++ body), by simp, .escape hescape hbody⟩
  | case6 => cases h
  | case7 => cases h
  | case8 place c tail hquote hback hcontrol more after hmore ih =>
    cases h
    obtain ⟨body, rfl, hbody⟩ := ih hmore
    exact ⟨c :: body, rfl, .plain (Nat.le_of_not_lt hcontrol) hquote hback hbody⟩

/-- The body of a string is decoded up to the quote that ends it. -/
theorem unquote_complete {body decoded : List Char} (h : StringBody body decoded) (place : Place)
    (rest : List Char) : unquote place (body ++ '"' :: rest) = .ok (decoded, rest) := by
  induction h generalizing place with
  | empty => simp [unquote]
  | plain hc hquote hback _ ih =>
    rw [List.cons_append, unquote]
    simp only [hquote, hback, Nat.not_lt.mpr hc, ↓reduceIte, ih]
  | @escape c escape text decoded hescape _ ih =>
    obtain ⟨next, hread⟩ := readEscape_complete hescape (place.skip 1) (text ++ '"' :: rest)
    rw [List.cons_append, List.append_assoc, unquote]
    simp only [Char.reduceEq, ↓reduceIte]
    split
    · rename_i e
      rw [hread] at e
      cases e
    · rename_i e
      rw [hread] at e
      cases e
      rw [ih]

/-- **Decoding a string is deriving its body**, up to the first quote that is not escaped. -/
theorem unquote_eq_ok_iff {place : Place} {text decoded rest : List Char} :
    unquote place text = .ok (decoded, rest) ↔
      ∃ body, text = body ++ '"' :: rest ∧ StringBody body decoded :=
  ⟨unquote_sound, fun ⟨_, e, h⟩ => e ▸ unquote_complete h place rest⟩

/-! ## 3. The closing quote -/

/-- A character that is neither a quote, a backslash nor a control is taken and the scan goes on. -/
theorem scanQuoted_plain {c : Char} (hc : 0x20 ≤ c.toNat) (hquote : c ≠ '"') (hback : c ≠ '\\')
    (rest : List Char) : scanQuoted (c :: rest) = (scanQuoted rest).push [c] := by
  rw [scanQuoted, if_neg (Nat.not_lt.mpr hc)]
  · exact hquote
  · intro e
    exact absurd e hback
  · intro d tail e
    exact absurd e hback

theorem QuotedScan.push_push (front later : List Char) (scan : QuotedScan) :
    (scan.push later).push front = scan.push (front ++ later) := by
  cases scan <;> simp [QuotedScan.push]

/-- A token that was found after some characters was found without them. -/
theorem QuotedScan.push_eq_closed {front token rest : List Char} {scan : QuotedScan}
    (h : scan.push front = .closed token rest) :
    ∃ token', scan = .closed token' rest ∧ token = front ++ token' := by
  cases scan with
  | closed token' rest' =>
    simp only [QuotedScan.push, QuotedScan.closed.injEq] at h
    exact ⟨token', by rw [h.2], h.1.symm⟩
  | control => cases h
  | unterminated => cases h

/-- The token and the rest are the text. -/
theorem scanQuoted_sound {text token rest : List Char} (h : scanQuoted text = .closed token rest) :
    text = token ++ rest := by
  fun_induction scanQuoted text generalizing token with
  | case1 => cases h
  | case2 => cases h; rfl
  | case3 => cases h
  | case4 c tail ih =>
    obtain ⟨token', hscan, rfl⟩ := QuotedScan.push_eq_closed h
    rw [ih hscan]
    rfl
  | case5 => cases h
  | case6 c tail _ _ _ _ ih =>
    obtain ⟨token', hscan, rfl⟩ := QuotedScan.push_eq_closed h
    rw [ih hscan]
    rfl

theorem scanQuoted_hexQuad {quad : List Char} {n : Nat} (h : HexQuad quad n) (rest : List Char) :
    scanQuoted (quad ++ rest) = (scanQuoted rest).push quad := by
  have step {c : Char} {n : Nat} (h : HexDigit c n) (rest : List Char) :
      scanQuoted (c :: rest) = (scanQuoted rest).push [c] :=
    scanQuoted_plain h.plain.1 h.plain.2.1 h.plain.2.2 rest
  cases h with
  | mk ha hb hc hd =>
    simp only [List.cons_append, List.nil_append, step ha, step hb, step hc, step hd,
      QuotedScan.push_push]

/-- An escape is taken as a whole: no character in it ends the token. -/
theorem scanQuoted_escape {escape : List Char} {c : Char} (h : Escape escape c)
    (rest : List Char) :
    scanQuoted ('\\' :: (escape ++ rest)) = (scanQuoted rest).push ('\\' :: escape) := by
  cases h with
  | letter => rfl
  | unicode hquad =>
    rw [List.cons_append, scanQuoted, scanQuoted_hexQuad hquad, QuotedScan.push_push]
    rfl
  | pair hquad hquad' =>
    rw [List.cons_append, scanQuoted, List.append_assoc, scanQuoted_hexQuad hquad,
      List.cons_append, List.cons_append, scanQuoted, scanQuoted_hexQuad hquad']
    simp only [QuotedScan.push_push, List.cons_append, List.nil_append]

/-- **The search for the closing quote ends at the quote that ends the string.** -/
theorem scanQuoted_complete {body decoded : List Char} (h : StringBody body decoded)
    (rest : List Char) : scanQuoted (body ++ '"' :: rest) = .closed (body ++ ['"']) rest := by
  induction h with
  | empty => rfl
  | plain hc hquote hback _ ih =>
    rw [List.cons_append, scanQuoted_plain hc hquote hback, ih]
    rfl
  | escape hescape _ ih =>
    rw [List.cons_append, List.append_assoc, scanQuoted_escape hescape, ih]
    simp only [QuotedScan.push, List.cons_append, List.append_assoc]

/-! ## 4. Texts without escapes -/

theorem stringBody_of_plain {text : List Char}
    (h : ∀ c ∈ text, 0x20 ≤ c.toNat ∧ c ≠ '"' ∧ c ≠ '\\') : StringBody text text := by
  induction text with
  | nil => exact .empty
  | cons c text ih =>
    obtain ⟨⟨hcontrol, hquote, hescape⟩, hrest⟩ := List.forall_mem_cons.mp h
    exact .plain hcontrol hquote hescape (ih hrest)

/-- The same for a text whose characters are looked at one by one. -/
theorem stringBody_of_all_plain (text : String) (h : (text.toList.all fun c =>
      decide (0x20 ≤ c.toNat ∧ c ≠ '"' ∧ c ≠ '\\')) = true) :
    StringBody text.toList text.toList :=
  stringBody_of_plain fun c hc => of_decide_eq_true (List.all_eq_true.mp h c hc)

end SchemaCompiler
