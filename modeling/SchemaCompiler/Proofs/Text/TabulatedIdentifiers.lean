/-
  File:      SchemaCompiler/Proofs/Text/TabulatedIdentifiers.lean
  Subject:   The tables of identifiers suit the tables of letters and letter case.

  Everything here is of Unicode 15.0. **`suits_tabulated`** is read off the tables: two runs of
  characters are compared as wholes wherever the table of identifiers holds them in one range
  (`CaseShift.onLetters`), and code by code elsewhere.
-/
import SchemaCompiler.Proofs.Json.Strings
import SchemaCompiler.Proofs.Text.Identifiers
import SchemaCompiler.Proofs.Text.IdentifierTable
import SchemaCompiler.Text.Letters

namespace SchemaCompiler

/-! ## 1. The classes of the tables -/

/-- The classes of the tables. -/
def IdentifierClasses.tabulated : IdentifierClasses where
  isStart c := inRanges identifierStartRanges c.toNat
  isContinue c := inRanges identifierStartRanges c.toNat || inRanges identifierTailRanges c.toNat

open IdentifierClasses (tabulated)
open Tabulated (shiftBy)

/-- Codes of the characters that identifiers begin with. -/
def isStartCode (code : Nat) : Bool :=
  code == '_'.toNat || code == '$'.toNat || inRanges identifierStartRanges code

/-- Codes of the characters that identifiers are made of. -/
def isPartCode (code : Nat) : Bool := isStartCode code || inRanges identifierTailRanges code

theorem toNat_beq_toNat (c d : Char) : (c.toNat == d.toNat) = (c == d) := by
  rw [Bool.eq_iff_iff, beq_iff_eq, beq_iff_eq]
  exact ⟨fun h => Char.ext (UInt32.toNat.inj h), fun h => h ▸ rfl⟩

theorem begins_tabulated (c : Char) : tabulated.begins c = isStartCode c.toNat := by
  rw [isStartCode, toNat_beq_toNat, toNat_beq_toNat]
  rfl

theorem holds_tabulated (c : Char) : tabulated.holds c = isPartCode c.toNat := by
  rw [isPartCode, ← begins_tabulated, IdentifierClasses.begins, Bool.or_assoc]
  rfl

/-! ## 2. Runs of codes and the tables -/

/-- One of the ranges holds all codes of a run. -/
def holdsAll (ranges : List (Nat × Nat)) (first last : Nat) : Bool :=
  ranges.any fun range => Nat.ble range.1 first && Nat.ble last range.2

/-- None of the ranges holds a code of a run. -/
def holdsNone (ranges : List (Nat × Nat)) (first last : Nat) : Bool :=
  ranges.all fun range => Nat.blt range.2 first || Nat.blt last range.1

section Runs

variable {ranges : List (Nat × Nat)} {first last code : Nat}

theorem inRanges_of_holdsAll (h : holdsAll ranges first last = true) (hfirst : first ≤ code)
    (hlast : code ≤ last) : inRanges ranges code = true := by
  obtain ⟨range, hmem, hrange⟩ := List.any_eq_true.mp h
  rw [Bool.and_eq_true, Nat.ble_eq, Nat.ble_eq] at hrange
  refine List.any_eq_true.mpr ⟨range, hmem, ?_⟩
  simp only [Bool.and_eq_true, decide_eq_true_eq]
  omega

theorem inRanges_of_holdsNone (h : holdsNone ranges first last = true) (hfirst : first ≤ code)
    (hlast : code ≤ last) : inRanges ranges code = false := by
  refine Bool.eq_false_iff.mpr fun hin => ?_
  obtain ⟨range, hmem, hrange⟩ := List.any_eq_true.mp hin
  have hout := List.all_eq_true.mp h range hmem
  simp only [Bool.or_eq_true, Nat.blt_eq, Bool.and_eq_true, decide_eq_true_eq] at hout hrange
  omega

/-- A run that only the first ranges can hold. -/
theorem inRanges_eq_take (n : Nat) (h : holdsNone (ranges.drop n) first last = true)
    (hfirst : first ≤ code) (hlast : code ≤ last) :
    inRanges ranges code = inRanges (ranges.take n) code := by
  have hrest := inRanges_of_holdsNone h hfirst hlast
  rw [inRanges] at hrest
  conv => lhs; rw [← List.take_append_drop n ranges, inRanges, List.any_append, hrest]
  rw [Bool.or_false]
  rfl

theorem inRanges_of_sublist {ranges' : List (Nat × Nat)} (h : ranges.Sublist ranges')
    (hin : inRanges ranges code = true) : inRanges ranges' code = true := by
  obtain ⟨range, hmem, hrange⟩ := List.any_eq_true.mp hin
  exact List.any_eq_true.mpr ⟨range, h.subset hmem, hrange⟩

end Runs

theorem casedStartRanges_sublist : casedStartRanges.Sublist identifierStartRanges :=
  List.isSublist_iff_sublist.mp (by decide +kernel)

theorem isStartCode_of_cased {first last code : Nat}
    (h : holdsAll casedStartRanges first last = true) (hfirst : first ≤ code)
    (hlast : code ≤ last) : isStartCode code = true := by
  have hin := inRanges_of_sublist casedStartRanges_sublist (inRanges_of_holdsAll h hfirst hlast)
  rw [isStartCode, hin, Bool.or_true]

theorem isPartCode_of_start {code : Nat} (h : isStartCode code = true) :
    isPartCode code = true := by
  rw [isPartCode, h, Bool.true_or]

/-! ## 3. Runs that are shifted -/

/-- The codes of a run, one by one. -/
def CaseRun.codes (run : CaseRun) : List Nat :=
  (List.range ((run.last - run.first) / run.stride + 1)).map fun n => run.first + run.stride * n

theorem CaseRun.bounds_of_contains {run : CaseRun} {code : Nat} (h : run.contains code = true) :
    run.first ≤ code ∧ code ≤ run.last := by
  simp only [contains, Bool.and_eq_true, decide_eq_true_eq] at h
  exact h.1

theorem CaseRun.mem_codes {run : CaseRun} {code : Nat} (h : run.contains code = true) :
    code ∈ run.codes := by
  obtain ⟨hfirst, hlast⟩ := bounds_of_contains h
  have hstride : (code - run.first) % run.stride = 0 := by
    simp only [contains, Bool.and_eq_true, beq_iff_eq] at h
    exact h.2
  refine List.mem_map.mpr ⟨(code - run.first) / run.stride, ?_, ?_⟩
  · rw [List.mem_range]
    have : (code - run.first) / run.stride ≤ (run.last - run.first) / run.stride :=
      Nat.div_le_div_right (by omega)
    omega
  · have hdiv := Nat.div_add_mod (code - run.first) run.stride
    omega

/-- The code is that of a capital, if it is ASCII. -/
def IsCapitalOrBeyond (code : Nat) : Prop := code < 0x80 → 'A'.toNat ≤ code ∧ code ≤ 'Z'.toNat

/-- A run and the distance to the counterparts of its characters. -/
abbrev CaseShift := CaseRun × Int

namespace CaseShift

/-- The code of a counterpart. -/
def target (shift : CaseShift) (code : Nat) : Nat := (code + shift.2).toNat

/-- The counterparts are characters. -/
def onChars (shift : CaseShift) : Bool :=
  Nat.blt (shift.target shift.1.last) 0xd800 ||
    Nat.blt 0xdfff (shift.target shift.1.first) && Nat.blt (shift.target shift.1.last) 0x110000

/-- The run and the counterparts begin identifiers. -/
def onLetters (shift : CaseShift) : Bool :=
  holdsAll casedStartRanges shift.1.first shift.1.last &&
      holdsAll casedStartRanges (shift.target shift.1.first) (shift.target shift.1.last) ||
    shift.1.codes.all fun code =>
      holdsAll casedStartRanges code code &&
        holdsAll casedStartRanges (shift.target code) (shift.target code)

/-- No code of a run belongs to identifiers. -/
def isForeign (first last : Nat) : Bool :=
  Nat.blt '_'.toNat first && holdsNone identifierStartRanges first last &&
    holdsNone identifierTailRanges first last

/-- Neither the run nor the counterparts belong to identifiers. -/
def onSymbols (shift : CaseShift) : Bool :=
  isForeign shift.1.first shift.1.last &&
    isForeign (shift.target shift.1.first) (shift.target shift.1.last)

/-- The mark that is written as an iota under a vowel, and the letter. -/
def onIota (shift : CaseShift) : Bool :=
  shift.1.first == 0x345 && shift.1.last == 0x345 &&
    holdsAll casedStartRanges (shift.target 0x345) (shift.target 0x345)

/-- The counterparts are beyond ASCII, or capitals. -/
def onCapitals (shift : CaseShift) : Bool :=
  Nat.ble 0x80 (shift.target shift.1.first) ||
    Nat.ble 'A'.toNat (shift.target shift.1.first) && Nat.ble (shift.target shift.1.last) 'Z'.toNat

variable {shift : CaseShift} {code : Nat}

theorem target_bounds (h : shift.1.contains code = true) :
    shift.target shift.1.first ≤ shift.target code ∧
      shift.target code ≤ shift.target shift.1.last := by
  obtain ⟨hfirst, hlast⟩ := CaseRun.bounds_of_contains h
  unfold target
  omega

theorem isValidChar_target (hshift : shift.onChars = true) (h : shift.1.contains code = true) :
    (shift.target code).isValidChar := by
  obtain ⟨hfirst, hlast⟩ := target_bounds h
  simp only [onChars, Bool.or_eq_true, Bool.and_eq_true, Nat.blt_eq] at hshift
  show _ < 0xd800 ∨ 0xdfff < _ ∧ _ < 0x110000
  omega

theorem isStartCode_of_onLetters (hshift : shift.onLetters = true)
    (h : shift.1.contains code = true) :
    isStartCode code = true ∧ isStartCode (shift.target code) = true := by
  rw [onLetters, Bool.or_eq_true, Bool.and_eq_true] at hshift
  rcases hshift with ⟨hrun, htarget⟩ | hcodes
  · obtain ⟨hfirst, hlast⟩ := CaseRun.bounds_of_contains h
    obtain ⟨hfirst', hlast'⟩ := target_bounds h
    exact ⟨isStartCode_of_cased hrun hfirst hlast, isStartCode_of_cased htarget hfirst' hlast'⟩
  · have hcode := List.all_eq_true.mp hcodes code (CaseRun.mem_codes h)
    rw [Bool.and_eq_true] at hcode
    exact ⟨isStartCode_of_cased hcode.1 (Nat.le_refl _) (Nat.le_refl _),
      isStartCode_of_cased hcode.2 (Nat.le_refl _) (Nat.le_refl _)⟩

theorem isPartCode_of_isForeign {first last : Nat} (h : isForeign first last = true)
    (hfirst : first ≤ code) (hlast : code ≤ last) : isPartCode code = false := by
  simp only [isForeign, Bool.and_eq_true, Nat.blt_eq] at h
  obtain ⟨⟨hmarks, hstart⟩, htail⟩ := h
  have hunderscore : code ≠ '_'.toNat := by omega
  have hdollar : code ≠ '$'.toNat := by
    have : '$'.toNat < '_'.toNat := by decide
    omega
  simp only [isPartCode, isStartCode, inRanges_of_holdsNone hstart hfirst hlast,
    inRanges_of_holdsNone htail hfirst hlast, beq_eq_false_iff_ne.mpr hunderscore,
    beq_eq_false_iff_ne.mpr hdollar, Bool.or_self]

theorem isPartCode_of_onSymbols (hshift : shift.onSymbols = true)
    (h : shift.1.contains code = true) :
    isPartCode code = false ∧ isPartCode (shift.target code) = false := by
  rw [onSymbols, Bool.and_eq_true] at hshift
  obtain ⟨hfirst, hlast⟩ := CaseRun.bounds_of_contains h
  obtain ⟨hfirst', hlast'⟩ := target_bounds h
  exact ⟨isPartCode_of_isForeign hshift.1 hfirst hlast,
    isPartCode_of_isForeign hshift.2 hfirst' hlast'⟩

theorem isPartCode_iota : isPartCode 0x345 = true := by
  have htail : inRanges identifierTailRanges 0x345 = true := by decide
  rw [isPartCode, htail, Bool.or_true]

theorem of_onIota (hshift : shift.onIota = true) (h : shift.1.contains code = true) :
    code = 0x345 ∧ isStartCode (shift.target code) = true := by
  simp only [onIota, Bool.and_eq_true, beq_iff_eq] at hshift
  obtain ⟨⟨hfirst, hlast⟩, htarget⟩ := hshift
  obtain ⟨hle, hge⟩ := CaseRun.bounds_of_contains h
  have hcode : code = 0x345 := by omega
  subst hcode
  exact ⟨rfl, isStartCode_of_cased htarget (Nat.le_refl _) (Nat.le_refl _)⟩

theorem isCapitalOrBeyond_target (hshift : shift.onCapitals = true)
    (h : shift.1.contains code = true) : IsCapitalOrBeyond (shift.target code) := by
  intro hascii
  obtain ⟨hfirst, hlast⟩ := target_bounds h
  simp only [onCapitals, Bool.or_eq_true, Bool.and_eq_true, Nat.ble_eq] at hshift
  omega

end CaseShift

/-! ## 4. The tables of letter case -/

theorem upperShifts_sorted_out : ∀ shift : CaseShift, shift ∈ upperShifts →
    shift.onChars = true ∧ shift.onCapitals = true ∧
      (shift.onLetters = true ∨ shift.onSymbols = true ∨ shift.onIota = true) := by
  have h : (upperShifts.all fun shift => CaseShift.onChars shift && (CaseShift.onCapitals shift &&
      (CaseShift.onLetters shift || (CaseShift.onSymbols shift || CaseShift.onIota shift)))) =
        true := by
    decide +kernel
  intro shift hmem
  have hshift := List.all_eq_true.mp h shift hmem
  simpa only [Bool.and_eq_true, Bool.or_eq_true] using hshift

theorem lowerShifts_sorted_out : ∀ shift : CaseShift, shift ∈ lowerShifts →
    shift.onChars = true ∧ (shift.onLetters = true ∨ shift.onSymbols = true) := by
  have h : (lowerShifts.all fun shift => CaseShift.onChars shift &&
      (CaseShift.onLetters shift || CaseShift.onSymbols shift)) = true := by
    decide +kernel
  intro shift hmem
  have hshift := List.all_eq_true.mp h shift hmem
  simpa only [Bool.and_eq_true, Bool.or_eq_true] using hshift

theorem upperSequences_sorted_out : ∀ entry ∈ upperSequences,
    (holdsAll casedStartRanges entry.1 entry.1 = true ∧ entry.2 ≠ []) ∧
      ∀ code ∈ entry.2, code.isValidChar ∧ isPartCode code = true ∧
        (entry.2.head? = some code → isStartCode code = true ∧ IsCapitalOrBeyond code) := by
  have h : (upperSequences.all fun entry =>
      (holdsAll casedStartRanges entry.1 entry.1 && !entry.2.isEmpty) &&
        (entry.2.head?.all fun code => holdsAll casedStartRanges code code &&
          (Nat.ble 0x80 code || Nat.ble 'A'.toNat code && Nat.ble code 'Z'.toNat)) &&
        entry.2.all fun code => Nat.blt code 0xd800 &&
          (holdsAll casedStartRanges code code || holdsAll identifierTailRanges code code)) =
        true := by
    decide +kernel
  intro entry hmem
  have hentry := List.all_eq_true.mp h entry hmem
  simp only [Bool.and_eq_true, Bool.not_eq_true', List.isEmpty_eq_false_iff, List.all_eq_true,
    Nat.blt_eq, Bool.or_eq_true] at hentry
  obtain ⟨⟨hkey, hhead⟩, hcodes⟩ := hentry
  refine ⟨hkey, fun code hcode => ?_⟩
  obtain ⟨hsmall, htables⟩ := hcodes code hcode
  refine ⟨.inl hsmall, ?_, fun hfirst => ?_⟩
  · rcases htables with hstart | htail
    · exact isPartCode_of_start (isStartCode_of_cased hstart (Nat.le_refl _) (Nat.le_refl _))
    · rw [isPartCode, inRanges_of_holdsAll htail (Nat.le_refl _) (Nat.le_refl _), Bool.or_true]
  · rw [hfirst] at hhead
    simp only [Option.all_some, Bool.and_eq_true, Bool.or_eq_true, Nat.ble_eq] at hhead
    refine ⟨isStartCode_of_cased hhead.1 (Nat.le_refl _) (Nat.le_refl _), fun hascii => ?_⟩
    omega

/-! ## 5. The forms of a character -/

/-- A character is moved by a shift whose run holds it, or stays. -/
theorem shiftBy_cases (shifts : List CaseShift) (c : Char) :
    (∃ shift ∈ shifts, shift.1.contains c.toNat = true ∧
        shiftBy shifts c = Char.ofNat (CaseShift.target shift c.toNat)) ∨
      shiftBy shifts c = c ∧ ∀ shift ∈ shifts, shift.1.contains c.toNat = false := by
  unfold shiftBy
  split
  · next run distance hfound =>
    exact .inl ⟨(run, distance), List.mem_of_find?_eq_some hfound,
      by simpa using List.find?_some hfound, rfl⟩
  · next hnone =>
    refine .inr ⟨rfl, fun shift hmem => ?_⟩
    exact Bool.eq_false_iff.mpr (List.find?_eq_none.mp hnone shift hmem)

theorem holds_shiftBy_lower (c : Char) :
    tabulated.holds (shiftBy lowerShifts c) = tabulated.holds c := by
  rcases shiftBy_cases lowerShifts c with ⟨shift, hmem, hcontains, heq⟩ | ⟨heq, -⟩
  · obtain ⟨hchars, hsort⟩ := lowerShifts_sorted_out shift hmem
    rw [heq, holds_tabulated, holds_tabulated,
      toNat_ofNat_of_valid (CaseShift.isValidChar_target hchars hcontains)]
    rcases hsort with hletters | hsymbols
    · obtain ⟨hcode, htarget⟩ := CaseShift.isStartCode_of_onLetters hletters hcontains
      rw [isPartCode_of_start hcode, isPartCode_of_start htarget]
    · obtain ⟨hcode, htarget⟩ := CaseShift.isPartCode_of_onSymbols hsymbols hcontains
      rw [hcode, htarget]
  · rw [heq]

theorem upperShifts_iota : (upperShifts.any fun shift => shift.1.contains 0x345) = true := by
  decide

/-- What a shift to upper case keeps of a character. -/
theorem shiftBy_upper {c : Char} (hascii : isAscii c = false) :
    tabulated.holds (shiftBy upperShifts c) = tabulated.holds c ∧
      (tabulated.begins (shiftBy upperShifts c) = true ↔
        tabulated.begins c = true ∨ c.toNat = 0x345) ∧
      IsCapitalOrBeyond (shiftBy upperShifts c).toNat := by
  rcases shiftBy_cases upperShifts c with ⟨shift, hmem, hcontains, heq⟩ | ⟨heq, hnone⟩
  · obtain ⟨hchars, hcapitals, hsort⟩ := upperShifts_sorted_out shift hmem
    have hcode := toNat_ofNat_of_valid (CaseShift.isValidChar_target hchars hcontains)
    simp only [heq, holds_tabulated, begins_tabulated, hcode]
    refine ⟨?_, ?_, CaseShift.isCapitalOrBeyond_target hcapitals hcontains⟩
    · rcases hsort with hletters | hsymbols | hiota
      · obtain ⟨hstart, htarget⟩ := CaseShift.isStartCode_of_onLetters hletters hcontains
        rw [isPartCode_of_start hstart, isPartCode_of_start htarget]
      · obtain ⟨hpart, htarget⟩ := CaseShift.isPartCode_of_onSymbols hsymbols hcontains
        rw [hpart, htarget]
      · obtain ⟨hiota, htarget⟩ := CaseShift.of_onIota hiota hcontains
        rw [isPartCode_of_start htarget, hiota, CaseShift.isPartCode_iota]
    · rcases hsort with hletters | hsymbols | hiota
      · obtain ⟨hstart, htarget⟩ := CaseShift.isStartCode_of_onLetters hletters hcontains
        exact iff_of_true htarget (.inl hstart)
      · obtain ⟨hpart, htarget⟩ := CaseShift.isPartCode_of_onSymbols hsymbols hcontains
        refine iff_of_false (fun h => ?_) (fun h => ?_)
        · rw [isPartCode_of_start h] at htarget
          cases htarget
        · rcases h with hstart | hiota
          · rw [isPartCode_of_start hstart] at hpart
            cases hpart
          · rw [hiota, CaseShift.isPartCode_iota] at hpart
            cases hpart
      · obtain ⟨hiota, htarget⟩ := CaseShift.of_onIota hiota hcontains
        exact iff_of_true htarget (.inr hiota)
  · rw [heq]
    refine ⟨rfl, ⟨.inl, fun h => ?_⟩, fun hsmall => absurd hsmall (of_decide_eq_false hascii)⟩
    rcases h with hstart | hiota
    · exact hstart
    · obtain ⟨shift, hmem, hcontains⟩ := List.any_eq_true.mp upperShifts_iota
      rw [← hiota, hnone shift hmem] at hcontains
      cases hcontains

/-! ## 6. The theorem -/

/-- The tables at the codes of ASCII. -/
theorem inRanges_ascii {n : Nat} (h : n < 0x80) :
    inRanges identifierStartRanges n = isAsciiLetter (Char.ofNat n) ∧
      inRanges identifierTailRanges n = (isDigit (Char.ofNat n) || Char.ofNat n == '_') := by
  have hranges : ∀ n < 0x80,
      inRanges (identifierStartRanges.take 2) n = isAsciiLetter (Char.ofNat n) ∧
        inRanges (identifierTailRanges.take 2) n =
          (isDigit (Char.ofNat n) || Char.ofNat n == '_') := by
    decide +kernel
  have hstart : holdsNone (identifierStartRanges.drop 2) 0 0x7f = true := by decide +kernel
  have htail : holdsNone (identifierTailRanges.drop 2) 0 0x7f = true := by decide +kernel
  have hlast : n ≤ 0x7f := Nat.le_of_lt_succ h
  rw [inRanges_eq_take 2 hstart (Nat.zero_le n) hlast,
    inRanges_eq_take 2 htail (Nat.zero_le n) hlast]
  exact hranges n h

/-- The dotted capital I and its lower-case form all belong to identifiers. -/
theorem holds_dotted : isStartCode 0x130 = true ∧
    ['i', Char.ofNat 0x307].all tabulated.holds = true := by
  refine ⟨isStartCode_of_cased (by decide) (Nat.le_refl 0x130) (Nat.le_refl _), ?_⟩
  decide +kernel

theorem holds_lowerOf_tabulated {c : Char} (hascii : isAscii c = false) :
    (Tabulated.lowerOf c).all tabulated.holds = tabulated.holds c := by
  rw [Tabulated.lowerOf, hascii, if_neg Bool.false_ne_true]
  split
  · next hdotted =>
    rw [holds_dotted.2, holds_tabulated, hdotted, isPartCode_of_start holds_dotted.1]
  · rw [List.all_cons, holds_shiftBy_lower, List.all_nil, Bool.and_true]

/-- The upper-case form of a character beyond ASCII, a sequence or a shifted character. -/
theorem upperOf_tabulated {c : Char} (hascii : isAscii c = false) :
    (Tabulated.upperOf c).all tabulated.holds = tabulated.holds c ∧
      ∃ first rest, Tabulated.upperOf c = first :: rest ∧
        (tabulated.begins first = true ↔ tabulated.begins c = true ∨ c.toNat = 0x345) ∧
        IsCapitalOrBeyond first.toNat := by
  rw [Tabulated.upperOf, hascii, if_neg Bool.false_ne_true]
  split
  · next codes hcodes =>
    obtain ⟨front, back, htable, -⟩ := List.lookup_eq_some_iff.mp hcodes
    have hmem : (c.toNat, codes) ∈ upperSequences := by
      rw [htable]
      exact List.mem_append_right _ List.mem_cons_self
    obtain ⟨⟨hcased, hne⟩, hforms⟩ := upperSequences_sorted_out _ hmem
    have hstart : isStartCode c.toNat = true :=
      isStartCode_of_cased hcased (Nat.le_refl _) (Nat.le_refl _)
    have hall : (codes.map Char.ofNat).all tabulated.holds = true := by
      refine List.all_eq_true.mpr fun d hd => ?_
      obtain ⟨code, hcode, rfl⟩ := List.mem_map.mp hd
      obtain ⟨hvalid, hpart, -⟩ := hforms code hcode
      rwa [holds_tabulated, toNat_ofNat_of_valid hvalid]
    refine ⟨by rw [hall, holds_tabulated, isPartCode_of_start hstart], ?_⟩
    cases codes with
    | nil => exact absurd rfl hne
    | cons first rest =>
      obtain ⟨hvalid, -, hfirst⟩ := hforms first List.mem_cons_self
      obtain ⟨hfirstStart, hcapital⟩ := hfirst rfl
      rw [← toNat_ofNat_of_valid hvalid] at hfirstStart hcapital
      refine ⟨Char.ofNat first, rest.map Char.ofNat, rfl, ?_, hcapital⟩
      rw [begins_tabulated, begins_tabulated]
      exact iff_of_true hfirstStart (.inl hstart)
  · obtain ⟨hpart, hstart, hcapital⟩ := shiftBy_upper hascii
    refine ⟨?_, _, [], rfl, hstart, hcapital⟩
    rw [List.all_cons, hpart, List.all_nil, Bool.and_true]

/-- **The tables of identifiers suit the alphabet of the tables.** -/
theorem suits_tabulated : tabulated.Suits .tabulated where
  isContinue_of_isStart := fun c h => Bool.or_eq_true_iff.mpr (.inl h)
  isStart_ascii := fun c h => by
    have hforms := inRanges_ascii (of_decide_eq_true h : c.toNat < 0x80)
    rw [Char.ofNat_toNat] at hforms
    exact hforms.1
  isContinue_ascii := fun c h => by
    have hforms := inRanges_ascii (of_decide_eq_true h : c.toNat < 0x80)
    rw [Char.ofNat_toNat] at hforms
    show (inRanges identifierStartRanges c.toNat || inRanges identifierTailRanges c.toNat) = _
    rw [hforms.1, hforms.2, Bool.or_assoc]
  holds_lowerOf := fun c h _ => holds_lowerOf_tabulated h
  holds_upperOf := fun c h _ => (upperOf_tabulated h).1
  upperOf_first := fun c h _ => by
    obtain ⟨-, first, rest, hupper, hbegins, hcapital⟩ := upperOf_tabulated h
    refine ⟨first, rest, hupper, hbegins, fun hascii => ?_⟩
    obtain ⟨hfirst, hlast⟩ := hcapital (of_decide_eq_true hascii)
    simp only [isAsciiUpper, Bool.and_eq_true, decide_eq_true_eq]
    exact ⟨hfirst, hlast⟩

end SchemaCompiler
