/-
  File:      SchemaCompiler/Proofs/Expr/RegexUnits.lean
  Subject:   When a written regular expression means its source.

  A regular expression is read as a sequence of units (`unitsOf`), each of which denotes a character
  or has a meaning of its own (`RegexUnit.denoted`). The writer works character by character; at the
  bounds of units its state holds no open escape, so that it can be followed unit by unit
  (`units_encode`): a unit is written as one that denotes the same, but for a backslash before a
  line terminator. There the terminator is spelled by an escape of its own, whose backslash is taken
  by the one before it.

  **`units_regexLiteral_iff`**: the literal has the units of its source iff no line terminator of
  the source is escaped. Such sources pass the check of a pattern (`escaped_feed_changes`).
-/
import Mathlib.Data.List.Induction
import SchemaCompiler.Proofs.Expr.RegexLexing

namespace SchemaCompiler

open Payload

/-! ## 1. Units -/

/-- A part of a regular expression that is read at once. -/
inductive RegexUnit where
  | char (c : Char)
  /-- A backslash and the character after it. -/
  | escape (c : Char)
  /-- The escape `\u2028`. -/
  | lineSeparator
  /-- The escape `\u2029`. -/
  | paragraphSeparator
  deriving DecidableEq, Repr

/-- The units of a regular expression. A backslash at the very end stands alone. -/
def unitsOf : List Char → List RegexUnit
  | '\\' :: 'u' :: '2' :: '0' :: '2' :: '8' :: rest => .lineSeparator :: unitsOf rest
  | '\\' :: 'u' :: '2' :: '0' :: '2' :: '9' :: rest => .paragraphSeparator :: unitsOf rest
  | '\\' :: c :: rest => .escape c :: unitsOf rest
  | c :: rest => .char c :: unitsOf rest
  | [] => []

namespace RegexUnit

/-- One unit for all that denote the same character. -/
def denoted : RegexUnit → RegexUnit
  | .char c => .char c
  | .escape c =>
    if c = '/' then .char '/'
    else if c = 'n' then .char '\n'
    else if c = 'r' then .char '\r'
    else if c ∈ lineTerminators then .char c
    else .escape c
  | .lineSeparator => .char '\u2028'
  | .paragraphSeparator => .char '\u2029'

/-- What follows the backslash in the escape of a line terminator. -/
def spelling (c : Char) : List RegexUnit :=
  if c = '\n' then [.char 'n']
  else if c = '\r' then [.char 'r']
  else ['u', '2', '0', '2', if c = '\u2028' then '8' else '9'].map .char

/-- What a unit of the source is written as. -/
def written : RegexUnit → List RegexUnit
  | .escape c => if c ∈ lineTerminators then .escape '\\' :: spelling c else [denoted (.escape c)]
  | u => [denoted u]

/-- A unit is written as one that denotes the same, unless it escapes a line terminator; then it is
    written as more than one. -/
theorem written_cases (u : RegexUnit) :
    written u = [denoted u] ∧ (∀ c ∈ lineTerminators, u ≠ .escape c) ∨
      1 < (written u).length ∧ ∃ c ∈ lineTerminators, u = .escape c := by
  cases u with
  | escape c =>
    by_cases hline : c ∈ lineTerminators
    · refine .inr ⟨?_, c, hline, rfl⟩
      rw [written, if_pos hline, List.length_cons]
      have hspelled : 0 < (spelling c).length := by
        unfold spelling
        split
        · exact Nat.one_pos
        · split
          · exact Nat.one_pos
          · exact Nat.succ_pos 4
      omega
    · refine .inl ⟨?_, fun d hd heq => ?_⟩
      · rw [written, if_neg hline]
      · cases heq
        exact hline hd
  | char | lineSeparator | paragraphSeparator =>
    exact .inl ⟨rfl, fun c _ heq => (nomatch heq)⟩

theorem length_le_flatMap_written (units : List RegexUnit) :
    units.length ≤ (units.flatMap written).length := by
  induction units with
  | nil => exact Nat.le_refl 0
  | cons u units ih =>
    have hone : 1 ≤ (written u).length := by
      rcases written_cases u with ⟨hself, -⟩ | ⟨hmore, -⟩
      · rw [hself]
        exact Nat.le_refl 1
      · omega
    rw [List.flatMap_cons, List.length_append, List.length_cons]
    omega

/-- Units are written as ones that denote the same iff none of them escapes a line terminator. -/
theorem flatMap_written_iff (units : List RegexUnit) :
    units.flatMap written = units.map denoted ↔ ∀ c ∈ lineTerminators, .escape c ∉ units := by
  induction units with
  | nil => exact ⟨fun _ _ _ => List.not_mem_nil, fun _ => rfl⟩
  | cons u units ih =>
    rw [List.flatMap_cons, List.map_cons]
    rcases written_cases u with ⟨hself, hu⟩ | ⟨hmore, c, hc, rfl⟩
    · rw [hself, List.singleton_append, List.cons_inj_right, ih]
      refine forall₂_congr fun c hc => ?_
      rw [List.mem_cons, not_or]
      exact ⟨fun h => ⟨fun heq => hu c hc heq.symm, h⟩, fun h => h.2⟩
    · constructor
      · intro heq
        -- One unit has become several, and none has been lost.
        have hlength := congrArg List.length heq
        have hrest := length_le_flatMap_written units
        rw [List.length_append, List.length_cons, List.length_map] at hlength
        omega
      · intro h
        exact absurd List.mem_cons_self (h c hc)

end RegexUnit

/-! ## 2. The writer, unit by unit -/

namespace RegexLiteral

open RegexUnit

theorem unitsOf_char {c : Char} (hc : c ≠ '\\') (rest : List Char) :
    unitsOf (c :: rest) = .char c :: unitsOf rest := by
  rw [unitsOf]
  all_goals
    intros
    exact absurd ‹_› hc

/-- A character that the writer has written as it is was read as it is. -/
theorem encode_eq_cons {state : State} {source text : List Char} {d : Char} (hd : d ≠ '\\')
    (h : encode state source = d :: text) :
    ∃ rest, source = d :: rest ∧ text = encode (state.next d) rest := by
  cases source with
  | nil =>
    rw [encode] at h
    split at h
    · exact absurd (List.cons.inj h).1.symm hd
    · cases h
  | cons c rest =>
    rw [encode] at h
    rcases encodeChar_cases state c with ⟨hescape, -⟩ | ⟨hself, -, -⟩
    · have hescapes : ∀ w ∈ escapes, w.head? = some '\\' := by decide
      have hhead := congrArg List.head? h
      rw [List.head?_append, hescapes _ hescape] at hhead
      exact absurd (Option.some.inj hhead).symm hd
    · rw [hself, List.singleton_append, List.cons.injEq] at h
      obtain ⟨rfl, rfl⟩ := h
      exact ⟨rest, rfl, rfl⟩

/-- The digits of a written escape were read as they are. -/
theorem encode_eq_digits {state : State} {source text : List Char} {d : Char} (hd : d ≠ '\\')
    (h : encode state source = '2' :: '0' :: '2' :: d :: text) :
    ∃ rest, source = '2' :: '0' :: '2' :: d :: rest := by
  obtain ⟨two, rfl, htwo⟩ := encode_eq_cons (by decide) h
  obtain ⟨zero, rfl, hzero⟩ := encode_eq_cons (by decide) htwo.symm
  obtain ⟨again, rfl, hagain⟩ := encode_eq_cons (by decide) hzero.symm
  obtain ⟨rest, rfl, -⟩ := encode_eq_cons hd hagain.symm
  exact ⟨rest, rfl⟩

/-- After a backslash only line terminators are rewritten. -/
theorem encodeChar_of_escaped {c : Char} (hc : c ∉ lineTerminators) (k : Bool) :
    encodeChar ⟨true, k⟩ c = [c] := by
  by_cases hslash : c = '/'
  · subst hslash
    rfl
  · rcases encodeChar_cases ⟨true, k⟩ c with ⟨-, hline | heq⟩ | ⟨hself, -, -⟩
    · exact absurd hline hc
    · exact absurd heq hslash
    · exact hself

theorem trailingBackslashes_concat (front : List Char) (c : Char) :
    trailingBackslashes (front ++ [c]) = if c = '\\' then trailingBackslashes front + 1 else 0 := by
  by_cases hc : c = '\\' <;> simp [trailingBackslashes, hc]

/-- No escape is open after a source iff it ends in an even number of backslashes. -/
theorem escaped_foldl (source : List Char) (state : State) (hstate : state.escaped = false) :
    (source.foldl State.next state).escaped = decide (trailingBackslashes source % 2 = 1) := by
  induction source using List.reverseRecOn with
  | nil => exact hstate
  | append_singleton front c ih =>
    rw [List.foldl_concat, State.next, ih, trailingBackslashes_concat]
    by_cases hc : c = '\\'
    · rw [if_pos hc]
      by_cases hodd : trailingBackslashes front % 2 = 1
      · have heven : ¬ (trailingBackslashes front + 1) % 2 = 1 := by omega
        simp [hodd, heven]
      · have hnext : (trailingBackslashes front + 1) % 2 = 1 := by omega
        simp [hc, hodd, hnext]
    · simp [hc]

/-- A backslash and the next character are one unit, unless they begin a long escape. -/
theorem unitsOf_escape {c : Char} {rest : List Char}
    (h : c = 'u' → ∀ d ∈ ['8', '9'], ∀ more, rest ≠ '2' :: '0' :: '2' :: d :: more) :
    unitsOf ('\\' :: c :: rest) = .escape c :: unitsOf rest := by
  rw [unitsOf]
  · intro more hc hrest
    exact h hc '8' (by decide) more hrest
  · intro more hc hrest
    exact h hc '9' (by decide) more hrest

/-- An escape ends with the character after the backslash, and leaves the class as it is. -/
theorem State.next_escaped (k : Bool) (c : Char) : State.next ⟨true, k⟩ c = ⟨false, k⟩ := by
  simp [State.next]

theorem encode_escape (k : Bool) (c : Char) (rest : List Char) :
    encode ⟨false, k⟩ ('\\' :: c :: rest) =
      '\\' :: (encodeChar ⟨true, k⟩ c ++ encode ⟨false, k⟩ rest) := by
  show '\\' :: (encodeChar ⟨true, k⟩ c ++ encode (State.next ⟨true, k⟩ c) rest) = _
  rw [State.next_escaped]

/-- **A source that leaves no escape open is written unit by unit.** -/
theorem units_encode (source : List Char) (k : Bool)
    (hclosed : (source.foldl State.next ⟨false, k⟩).escaped = false) :
    (unitsOf (encode ⟨false, k⟩ source)).map denoted = (unitsOf source).flatMap written := by
  fun_induction unitsOf source generalizing k with
  | case1 rest ih =>
    show denoted .lineSeparator :: (unitsOf (encode ⟨false, k⟩ rest)).map denoted = _
    rw [ih k hclosed]
    rfl
  | case2 rest ih =>
    show denoted .paragraphSeparator :: (unitsOf (encode ⟨false, k⟩ rest)).map denoted = _
    rw [ih k hclosed]
    rfl
  | case3 c rest hline hparagraph ih =>
    have hrest := ih k (State.next_escaped k c ▸ hclosed)
    rw [encode_escape, List.flatMap_cons, ← hrest]
    by_cases hc : c ∈ lineTerminators
    · -- The escape of the terminator loses its backslash to the one before it.
      simp only [lineTerminators, List.mem_cons, List.not_mem_nil, or_false] at hc
      rcases hc with rfl | rfl | rfl | rfl <;> rfl
    · have hunit : unitsOf ('\\' :: c :: encode ⟨false, k⟩ rest) =
          .escape c :: unitsOf (encode ⟨false, k⟩ rest) := by
        refine unitsOf_escape fun hu d hd more heq => ?_
        have hdigit : d ≠ '\\' := by
          rintro rfl
          exact absurd hd (by decide)
        obtain ⟨more, rfl⟩ := encode_eq_digits hdigit heq
        simp only [List.mem_cons, List.not_mem_nil, or_false] at hd
        rcases hd with rfl | rfl
        · exact hline more hu rfl
        · exact hparagraph more hu rfl
      rw [encodeChar_of_escaped hc, List.singleton_append, hunit, List.map_cons, written,
        if_neg hc, List.singleton_append]
  | case4 c rest _ _ hlone ih =>
    have hc : c ≠ '\\' := by
      rintro rfl
      cases rest with
      | nil => cases hclosed
      | cons d rest => exact hlone d rest rfl rfl
    obtain ⟨k', hnext⟩ : ∃ k', State.next ⟨false, k⟩ c = ⟨false, k'⟩ :=
      ⟨(State.next ⟨false, k⟩ c).inClass, by simp [State.next, hc]⟩
    have hrest := ih k' (hnext ▸ hclosed)
    rw [encode, hnext, List.flatMap_cons, ← hrest]
    by_cases hescaped : c ∈ '/' :: lineTerminators
    · simp only [lineTerminators, List.mem_cons, List.not_mem_nil, or_false] at hescaped
      rcases hescaped with rfl | rfl | rfl | rfl | rfl
      · cases k <;> rfl
      all_goals rfl
    · rcases encodeChar_cases ⟨false, k⟩ c with ⟨-, hline | hslash⟩ | ⟨hself, -, -⟩
      · exact absurd (List.mem_cons_of_mem _ hline) hescaped
      · exact absurd (hslash ▸ List.mem_cons_self) hescaped
      · rw [hself, List.singleton_append, unitsOf_char hc]
        rfl
  | case5 => rfl

end RegexLiteral

/-! ## 3. The literal and its source -/

/-- What follows the first slash of a text. -/
def afterFirstSlash (text : List Char) : List Char := (text.dropWhile (· ≠ '/')).drop 1

/-- What stands between the first slash of a text and the last. -/
def betweenSlashes (text : List Char) : List Char :=
  (afterFirstSlash (afterFirstSlash text).reverse).reverse

theorem betweenSlashes_regexLiteral {source : List Char} (hsource : source ≠ []) :
    betweenSlashes (regexLiteral source) = RegexLiteral.encode .start source := by
  have hliteral : regexLiteral source = '/' :: (RegexLiteral.encode .start source ++ ['/']) := by
    rw [regexLiteral, if_neg (by simpa using hsource)]
    rfl
  have hslash : ∀ text, afterFirstSlash ('/' :: text) = text := by
    intro text
    simp [afterFirstSlash]
  rw [hliteral, betweenSlashes, hslash, List.reverse_append, List.reverse_singleton,
    List.singleton_append, hslash, List.reverse_reverse]

/-- **The literal of a source has the units of the source iff the source escapes no line
    terminator**, where units that denote the same character are the same. -/
theorem units_regexLiteral_iff (source : List Char) (hsource : source ≠ [])
    (heven : trailingBackslashes source % 2 = 0) :
    (unitsOf (betweenSlashes (regexLiteral source))).map RegexUnit.denoted =
        (unitsOf source).map RegexUnit.denoted ↔
      ∀ c ∈ lineTerminators, .escape c ∉ unitsOf source := by
  have hclosed : (source.foldl RegexLiteral.State.next .start).escaped = false := by
    rw [RegexLiteral.escaped_foldl source .start rfl, heven]
    rfl
  rw [betweenSlashes_regexLiteral hsource]
  have hunits := RegexLiteral.units_encode source false hclosed
  rw [show RegexLiteral.State.start = ⟨false, false⟩ from rfl, hunits]
  exact RegexUnit.flatMap_written_iff (unitsOf source)

/-- Slashes inside and outside of a class and after a backslash, line terminators that stand for
    themselves or as escapes, and an even run of backslashes before one of them and at the end. -/
def mixedSource : List Char := "a/[/]\\/\n\\\\\r\u2028\\u2029\\\\".toList

theorem units_mixedSource :
    mixedSource ≠ [] ∧ trailingBackslashes mixedSource % 2 = 0 ∧
      regexLiteral mixedSource = "/a\\/[/]\\/\\n\\\\\\r\\u2028\\u2029\\\\/".toList ∧
      (unitsOf (betweenSlashes (regexLiteral mixedSource))).map RegexUnit.denoted =
        (unitsOf mixedSource).map RegexUnit.denoted := by
  have hnone : (lineTerminators.all fun c =>
      decide (RegexUnit.escape c ∉ unitsOf mixedSource)) = true := by decide
  refine ⟨by decide, by decide, by decide, ?_⟩
  refine (units_regexLiteral_iff mixedSource (by decide) (by decide)).mpr fun c hc => ?_
  exact of_decide_eq_true (List.all_eq_true.mp hnone c hc)

/-- A backslash before a line feed denotes the line feed. The pattern is accepted, and its literal
    denotes a backslash and a letter. -/
theorem escaped_feed_changes :
    (checkPattern .standard "\\\n" ⟨0, 6⟩).result = .ok () ∧
      trailingBackslashes "\\\n".toList % 2 = 0 ∧
      regexLiteral "\\\n".toList = "/\\\\n/".toList ∧
      ¬ (unitsOf (betweenSlashes (regexLiteral "\\\n".toList))).map RegexUnit.denoted =
        (unitsOf "\\\n".toList).map RegexUnit.denoted :=
  ⟨checkPattern_result _ (by decide) _, by decide, by decide, by decide⟩

end SchemaCompiler
