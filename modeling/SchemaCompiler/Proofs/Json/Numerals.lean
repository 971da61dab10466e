/-
  File:      SchemaCompiler/Proofs/Json/Numerals.lean
  Subject:   The scan of a number token and the number grammar.

  Each part of the scan is sound (what it takes off the text is derived by the rule of that part)
  and complete (what a rule derives is taken off, if the text stops there). A part stops before a
  digit at most, so no part can take what belongs to the next one.

  * `ofToken?_eq_some_iff` -- a token is a numeral exactly if the number grammar derives it;
  * `scan_complete` -- the same at the front of a longer text;
  * `NumberToken.isNumberChar`, `NumberToken.head` -- what number tokens are made of.
-/
import SchemaCompiler.Proofs.Json.Grammar
import SchemaCompiler.Proofs.Text.Runs

namespace SchemaCompiler

namespace Grammar

/-! ## 1. Digits -/

theorem isDigit_iff {c : Char} : isDigit c = true ↔ Digit c := by
  simp [isDigit, Digit]

theorem Digits.isDigit {ds : List Char} (h : Digits ds) : ∀ c ∈ ds, isDigit c = true :=
  fun c hc => isDigit_iff.mpr (h c hc)

/-- A digit belongs to the characters numbers are made of. -/
theorem Digit.isNumberChar {c : Char} (h : Digit c) : isNumberChar c = true := by
  simp [SchemaCompiler.isNumberChar, isDigit_iff.mpr h]

/-- A digit other than zero can begin a whole part. -/
theorem Digit.one_le {d : Char} (h : Digit d) (h0 : d ≠ '0') : '1' ≤ d := by
  obtain ⟨hlow, -⟩ := h
  rw [Char.le_def, UInt32.le_iff_toNat_le] at *
  have hne : d.val.toNat ≠ '0'.val.toNat := fun e => h0 (Char.toNat_inj.mp e)
  have e0 : '0'.val.toNat = 48 := rfl
  have e1 : '1'.val.toNat = 49 := rfl
  omega

/-- A whole part has digits only. -/
theorem Whole.digits {whole : List Char} (h : Whole whole) : Digits whole := by
  cases h with
  | zero => exact List.forall_mem_singleton.mpr ⟨by decide, by decide⟩
  | nonzero h1 h9 hds => exact List.forall_mem_cons.mpr ⟨⟨Nat.le_trans (by decide) h1, h9⟩, hds⟩

theorem Whole.ne_nil {whole : List Char} (h : Whole whole) : whole ≠ [] := by
  cases h <;> simp

theorem isNumberChar_of_isDigit {c : Char} (h : isDigit c = true) : isNumberChar c = true :=
  (isDigit_iff.mp h).isNumberChar

end Grammar

namespace Numeral

open Grammar

/-- What is scanned as digits is a run of digits, not an empty one. -/
theorem scanDigits_sound {text ds rest : List Char} (h : scanDigits text = .ok (ds, rest)) :
    text = ds ++ rest ∧ ds ≠ [] ∧ Digits ds := by
  unfold scanDigits at h
  split at h
  · cases h
  · rename_i hne
    simp only [Except.ok.injEq, Prod.mk.injEq] at h
    obtain ⟨rfl, rfl⟩ := h
    refine ⟨List.takeWhile_append_dropWhile.symm, by simpa using hne, fun c hc => ?_⟩
    exact isDigit_iff.mp (List.mem_takeWhile_imp hc)

/-- A run of digits is scanned to its end, if no digit follows. -/
theorem scanDigits_complete {ds rest : List Char} (hne : ds ≠ []) (hds : Digits ds)
    (hstop : Stops isDigit rest) : scanDigits (ds ++ rest) = .ok (ds, rest) := by
  unfold scanDigits
  rw [takeWhile_run hds.isDigit hstop, dropWhile_run hds.isDigit hstop]
  simp [hne]

/-! ## 2. The parts of a token -/

/-- The sign is read off the front, whatever follows it. -/
theorem scanSign_sound (text : List Char) :
    ∃ sign, text = sign ++ (scanSign text).2 ∧ Sign sign (scanSign text).1 := by
  unfold scanSign
  split
  · exact ⟨['-'], rfl, .minus⟩
  · exact ⟨[], rfl, .absent⟩

/-- The first character of a whole part is a digit, so it is no sign. -/
theorem scanSign_complete {sign whole : List Char} {negative : Bool} (hs : Sign sign negative)
    (hw : Whole whole) (rest : List Char) :
    scanSign (sign ++ (whole ++ rest)) = (negative, whole ++ rest) := by
  cases hs with
  | minus => rfl
  | absent =>
    cases hw with
    | zero => rfl
    | nonzero h1 h9 hds =>
      unfold scanSign
      split
      · rename_i he
        simp only [List.nil_append, List.cons_append, List.cons.injEq] at he
        rw [he.1] at h1
        exact absurd h1 (by decide)
      · rfl

/-- What is scanned as a whole part is one: a zero stands alone. -/
theorem scanWhole_sound {text whole rest : List Char} (h : scanWhole text = .ok (whole, rest)) :
    text = whole ++ rest ∧ Whole whole := by
  unfold scanWhole at h
  split at h
  · split at h
    · simp only [Except.ok.injEq, Prod.mk.injEq] at h
      obtain ⟨rfl, rfl⟩ := h
      exact ⟨rfl, .zero⟩
    · cases h
  · rename_i hzero
    obtain ⟨rfl, hne, hds⟩ := scanDigits_sound h
    refine ⟨rfl, ?_⟩
    cases whole with
    | nil => exact absurd rfl hne
    | cons d ds =>
      have hd : Digit d := hds d List.mem_cons_self
      have hd0 : d ≠ '0' := fun e => hzero _ (by rw [e]; rfl)
      exact .nonzero (hd.one_le hd0) hd.2 fun c hc => hds c (List.mem_cons_of_mem d hc)

/-- A whole part is scanned to its end, if no digit follows; a digit after a zero would be an error.
    -/
theorem scanWhole_complete {whole rest : List Char} (h : Whole whole)
    (hstop : Stops isDigit rest) : scanWhole (whole ++ rest) = .ok (whole, rest) := by
  have hscan := scanDigits_complete h.ne_nil h.digits hstop
  cases h with
  | zero => simp [scanWhole, hstop.takeWhile_eq]
  | nonzero h1 h9 hds =>
    unfold scanWhole
    split
    · rename_i e
      rw [List.cons_append, List.cons.injEq] at e
      rw [e.1] at h1
      exact absurd h1 (by decide)
    · exact hscan

/-- What is scanned as a fraction is a point with digits, or nothing. -/
theorem scanFraction_sound {text ds rest : List Char} (h : scanFraction text = .ok (ds, rest)) :
    ∃ fraction, text = fraction ++ rest ∧ Fraction fraction ds := by
  unfold scanFraction at h
  split at h
  · obtain ⟨rfl, hne, hds⟩ := scanDigits_sound h
    exact ⟨_, rfl, .present hne hds⟩
  · simp only [Except.ok.injEq, Prod.mk.injEq] at h
    obtain ⟨rfl, rfl⟩ := h
    exact ⟨[], rfl, .absent⟩

/-- A fraction is scanned to its end. Where there is none, no point may follow. -/
theorem scanFraction_complete {fraction ds rest : List Char} (h : Fraction fraction ds)
    (hstop : Stops isDigit rest) (hpoint : Stops (· = '.') rest) :
    scanFraction (fraction ++ rest) = .ok (ds, rest) := by
  cases h with
  | present hne hds => exact scanDigits_complete hne hds hstop
  | absent =>
    unfold scanFraction
    split
    · rename_i e
      rw [List.nil_append] at e
      rw [e] at hpoint
      simp at hpoint
    · rfl

theorem scanExponentSign_sound (text : List Char) :
    ∃ sign, text = sign ++ (scanExponentSign text).2 ∧
      ExponentSign sign (scanExponentSign text).1 := by
  unfold scanExponentSign
  split
  · exact ⟨['+'], rfl, .plus⟩
  · exact ⟨['-'], rfl, .minus⟩
  · exact ⟨[], rfl, .absent⟩

/-- The sign of an exponent is read off, since no digit is a sign. -/
theorem scanExponentSign_complete {sign ds : List Char} {negative : Bool}
    (h : ExponentSign sign negative) (hne : ds ≠ []) (hds : Digits ds) (rest : List Char) :
    scanExponentSign (sign ++ (ds ++ rest)) = (negative, ds ++ rest) := by
  cases h with
  | plus => rfl
  | minus => rfl
  | absent =>
    cases ds with
    | nil => exact absurd rfl hne
    | cons d ds =>
      have hd : Digit d := hds d List.mem_cons_self
      unfold scanExponentSign
      split
      · rename_i e
        simp only [List.nil_append, List.cons_append, List.cons.injEq] at e
        rw [e.1] at hd
        exact absurd hd.1 (by decide)
      · rename_i e
        simp only [List.nil_append, List.cons_append, List.cons.injEq] at e
        rw [e.1] at hd
        exact absurd hd.1 (by decide)
      · rfl

/-- What is scanned as an exponent is a mark, a sign and digits, or nothing. -/
theorem scanExponent_sound {text rest : List Char} {e : Option Exponent}
    (h : scanExponent text = .ok (e, rest)) :
    ∃ exponent, text = exponent ++ rest ∧ ExponentPart exponent e := by
  unfold scanExponent at h
  split at h
  · simp only [Except.ok.injEq, Prod.mk.injEq] at h
    obtain ⟨rfl, rfl⟩ := h
    exact ⟨[], rfl, .absent⟩
  · rename_i mark tail
    split at h
    · rename_i hmark
      obtain ⟨sign, htail, hsign⟩ := scanExponentSign_sound tail
      simp only at h
      split at h
      · cases h
      · rename_i ds rest' hscan
        simp only [Except.ok.injEq, Prod.mk.injEq] at h
        obtain ⟨rfl, rfl⟩ := h
        obtain ⟨hrest, hne, hds⟩ := scanDigits_sound hscan
        refine ⟨mark :: (sign ++ ds), ?_, .present hmark hsign hne hds⟩
        rw [htail, hrest]
        simp
    · simp only [Except.ok.injEq, Prod.mk.injEq] at h
      obtain ⟨rfl, rfl⟩ := h
      exact ⟨[], rfl, .absent⟩

/-- An exponent is scanned to its end. Where there is none, no mark of one may follow. -/
theorem scanExponent_complete {exponent rest : List Char} {e : Option Exponent}
    (h : ExponentPart exponent e) (hstop : Stops isNumberChar rest) :
    scanExponent (exponent ++ rest) = .ok (e, rest) := by
  cases h with
  | @present mark sign ds negative hmark hsign hne hds =>
    have hdigits := scanDigits_complete hne hds (hstop.mono fun _ => isNumberChar_of_isDigit)
    have hs := scanExponentSign_complete hsign hne hds rest
    simp only [scanExponent, List.cons_append, List.append_assoc, hmark, ↓reduceIte, hs, hdigits]
  | absent =>
    cases rest with
    | nil => rfl
    | cons mark rest =>
      have hmark : ¬ (mark = 'e' ∨ mark = 'E') := by
        intro h
        rw [stops_cons] at hstop
        rcases h with rfl | rfl <;> simp [isNumberChar] at hstop
      simp [scanExponent, hmark]

/-! ## 3. The whole token -/

/-- A numeral is scanned part by part, each part from where the one before ended. -/
theorem scan_eq_ok_iff {text rest : List Char} {n : Numeral} :
    scan text = .ok (n, rest) ↔
      ∃ whole afterWhole fraction afterFraction exponent,
        scanWhole (scanSign text).2 = .ok (whole, afterWhole) ∧
        scanFraction afterWhole = .ok (fraction, afterFraction) ∧
        scanExponent afterFraction = .ok (exponent, rest) ∧
        n = ⟨(scanSign text).1, whole, fraction, exponent⟩ := by
  simp only [scan, bind, Except.bind]
  constructor
  · intro h
    split at h
    · cases h
    · rename_i w hw
      split at h
      · cases h
      · rename_i f hf
        split at h
        · cases h
        · rename_i e he
          simp only [Except.ok.injEq, Prod.mk.injEq] at h
          obtain ⟨rfl, rfl⟩ := h
          exact ⟨_, _, _, _, _, hw, hf, he, rfl⟩
  · intro hparts
    obtain ⟨whole, afterWhole, fraction, afterFraction, exponent, hw, hf, he, rfl⟩ := hparts
    simp only [hw, hf, he]

/-- What is scanned as a numeral is derived by the grammar. -/
theorem scan_sound {text rest : List Char} {n : Numeral} (h : scan text = .ok (n, rest)) :
    ∃ token, text = token ++ rest ∧ NumberToken token n := by
  obtain ⟨whole, afterWhole, ds, afterFraction, e, hw, hf, he, rfl⟩ := scan_eq_ok_iff.mp h
  obtain ⟨sign, htext, hsign⟩ := scanSign_sound text
  obtain ⟨hrest, hwhole⟩ := scanWhole_sound hw
  obtain ⟨fraction, rfl, hfraction⟩ := scanFraction_sound hf
  obtain ⟨exponent, rfl, hexponent⟩ := scanExponent_sound he
  refine ⟨sign ++ (whole ++ (fraction ++ exponent)), ?_, .mk hsign hwhole hfraction hexponent⟩
  rw [htext, hrest]
  simp

/-- A fraction does not go on with the digits of the whole part. -/
theorem stops_fraction {fraction ds rest : List Char} (h : Fraction fraction ds)
    (hstop : Stops isDigit rest) : Stops isDigit (fraction ++ rest) := by
  cases h with
  | absent => exact hstop
  | present => exact stops_cons.mpr (by decide)

/-- An exponent goes on neither with digits nor with a point. -/
theorem stops_exponent {exponent rest : List Char} {e : Option Exponent}
    (h : ExponentPart exponent e) (hstop : Stops isNumberChar rest) :
    Stops isDigit (exponent ++ rest) ∧ Stops (· = '.') (exponent ++ rest) := by
  cases h with
  | absent =>
    exact ⟨hstop.mono fun _ => isNumberChar_of_isDigit,
      hstop.mono fun c hc => by simp [isNumberChar, of_decide_eq_true hc]⟩
  | present hmark => rcases hmark with rfl | rfl <;> simp [isDigit]

/-- **A derived token is scanned off the front of a text**, up to where its characters end. -/
theorem scan_complete {token rest : List Char} {n : Numeral} (h : NumberToken token n)
    (hstop : Stops isNumberChar rest) : scan (token ++ rest) = .ok (n, rest) := by
  cases h with
  | @mk sign whole fraction exponent ds negative e hsign hwhole hfraction hexponent =>
    obtain ⟨hdigit, hpoint⟩ := stops_exponent hexponent hstop
    have hs := scanSign_complete hsign hwhole (fraction ++ (exponent ++ rest))
    rw [scan_eq_ok_iff]
    simp only [List.append_assoc, hs]
    exact ⟨whole, _, ds, _, e, scanWhole_complete hwhole (stops_fraction hfraction hdigit),
      scanFraction_complete hfraction hdigit hpoint, scanExponent_complete hexponent hstop, rfl⟩

/-- **A token is the numeral that the grammar derives for it**, all of it. -/
theorem ofToken?_eq_some_iff {token : List Char} {n : Numeral} :
    ofToken? token = some n ↔ NumberToken token n := by
  constructor
  · intro h
    unfold ofToken? at h
    split at h
    · rename_i n' hscan
      simp only [Option.some.injEq] at h
      subst h
      obtain ⟨token', htoken, hn⟩ := scan_sound hscan
      rw [List.append_nil] at htoken
      exact htoken ▸ hn
    · cases h
  · intro h
    have hscan := scan_complete h (stops_nil isNumberChar)
    rw [List.append_nil] at hscan
    simp [ofToken?, hscan]

end Numeral

namespace Grammar

/-! ## 4. The characters of a token -/

theorem Digits.isNumberChar {ds : List Char} (h : Digits ds) :
    ∀ c ∈ ds, isNumberChar c = true :=
  fun c hc => (h c hc).isNumberChar

theorem Fraction.isNumberChar {fraction ds : List Char} (h : Fraction fraction ds) :
    ∀ c ∈ fraction, isNumberChar c = true := by
  cases h with
  | absent => simp
  | present _ hds => exact List.forall_mem_cons.mpr ⟨by decide, hds.isNumberChar⟩

theorem ExponentPart.isNumberChar {exponent : List Char} {e : Option Exponent}
    (h : ExponentPart exponent e) : ∀ c ∈ exponent, isNumberChar c = true := by
  cases h with
  | absent => simp
  | @present mark sign ds negative hmark hsign _ hds =>
    refine List.forall_mem_cons.mpr ⟨by rcases hmark with rfl | rfl <;> decide, ?_⟩
    refine List.forall_mem_append.mpr ⟨?_, hds.isNumberChar⟩
    cases hsign <;> simp [SchemaCompiler.isNumberChar]

/-- A numeral is made of the characters that are taken for a token. -/
theorem NumberToken.isNumberChar {token : List Char} {n : Numeral} (h : NumberToken token n) :
    ∀ c ∈ token, isNumberChar c = true := by
  cases h with
  | @mk sign whole fraction exponent ds negative e hsign hwhole hfraction hexponent =>
    refine List.forall_mem_append.mpr ⟨?_, List.forall_mem_append.mpr
      ⟨hwhole.digits.isNumberChar, List.forall_mem_append.mpr
        ⟨hfraction.isNumberChar, hexponent.isNumberChar⟩⟩⟩
    cases hsign <;> simp [SchemaCompiler.isNumberChar]

/-- A token begins with a minus or a digit. -/
theorem NumberToken.head {token : List Char} {n : Numeral} (h : NumberToken token n) :
    ∃ c rest, token = c :: rest ∧ (c = '-' ∨ isDigit c = true) := by
  cases h with
  | mk hsign hwhole =>
    cases hsign with
    | minus => exact ⟨'-', _, rfl, .inl rfl⟩
    | absent =>
      obtain ⟨d, ds, rfl⟩ := List.exists_cons_of_ne_nil hwhole.ne_nil
      exact ⟨d, _, rfl, .inr (hwhole.digits.isDigit d List.mem_cons_self)⟩

end Grammar

end SchemaCompiler
