/-
  File:      SchemaCompiler/Proofs/Expr/RegexLexing.lean
  Subject:   When a written regular expression is one complete literal.

  A lexer reads a literal from its opening slash to the first slash that is neither escaped nor
  inside a class (`LexMode`, `afterSlash?`). The writer keeps such a state of its own; the two run
  in step (`afterSlash?_encodeChar`), so the slash that the writer puts last is the slash where the
  lexer stops, unless the lexer stands inside a class there.

  **`isRegexLiteral_regexLiteral_iff`**: the written text is one complete literal iff the source
  does not begin with a star, which would begin a comment, and leaves no class open. Both are
  sources that pass the check of a pattern (`incomplete_literals`).
-/
import Mathlib.Data.List.Basic
import SchemaCompiler.Expr.RegexLiteral
import SchemaCompiler.StandardPlatform

namespace SchemaCompiler

open Payload

/-! ## 1. The lexer -/

/-- Where a lexer stands between the slashes of a literal. -/
inductive LexMode where
  | plain
  /-- After a backslash. -/
  | escape
  | inClass
  /-- After a backslash in a class. -/
  | classEscape
  deriving DecidableEq, Repr

namespace LexMode

/-- The mode after a character. -/
def next : LexMode → Char → LexMode
  | .plain, c => if c = '\\' then .escape else if c = '[' then .inClass else .plain
  | .escape, _ => .plain
  | .inClass, c => if c = '\\' then .classEscape else if c = ']' then .plain else .inClass
  | .classEscape, _ => .inClass

/-- Whether a class is open. -/
def classOpen : LexMode → Bool
  | .inClass | .classEscape => true
  | _ => false

end LexMode

/-- What follows the slash that ends a literal, if one does. -/
def afterSlash? : LexMode → List Char → Option (List Char)
  | _, [] => none
  | mode, c :: rest =>
    if mode = .plain ∧ c = '/' then some rest else afterSlash? (mode.next c) rest

/-- The characters that end a line. -/
def lineTerminators : List Char := ['\n', '\r', '\u2028', '\u2029']

/-- **A text that is one literal of a regular expression.** -/
structure IsRegexLiteral (text : List Char) : Prop where
  opens : text.head? = some '/'
  noComment : text.tail.head? ≠ some '/' ∧ text.tail.head? ≠ some '*'
  oneLine : ∀ c ∈ text, c ∉ lineTerminators
  /-- The slash that ends the literal is the last character. -/
  ends : afterSlash? .plain text.tail = some []

/-! ## 2. Writer and lexer in step -/

namespace RegexLiteral

/-- The mode of a lexer that has read what the writer has written. -/
def State.mode : State → LexMode
  | ⟨false, false⟩ => .plain
  | ⟨true, false⟩ => .escape
  | ⟨false, true⟩ => .inClass
  | ⟨true, true⟩ => .classEscape

theorem State.mode_next (state : State) (c : Char) : (state.next c).mode = state.mode.next c := by
  rcases state with ⟨_ | _, _ | _⟩
  · by_cases hescape : c = '\\'
    · subst hescape
      rfl
    · by_cases hopen : c = '['
      · subst hopen
        rfl
      · simp [State.next, State.mode, LexMode.next, hescape, hopen]
  · by_cases hescape : c = '\\'
    · subst hescape
      rfl
    · by_cases hclose : c = ']'
      · subst hclose
        rfl
      · simp [State.next, State.mode, LexMode.next, hescape, hclose]
  · simp [State.next, State.mode, LexMode.next]
  · simp [State.next, State.mode, LexMode.next]

/-- What a character that cannot stand for itself is written as. -/
def escapes : List (List Char) :=
  [['\\', 'n'], ['\\', 'r'], "\\u2028".toList, "\\u2029".toList, ['\\', '/']]

/-- A line terminator and a slash that would end the literal are escaped; any other character stands
    for itself. -/
theorem encodeChar_cases (state : State) (c : Char) :
    encodeChar state c ∈ escapes ∧ (c ∈ lineTerminators ∨ c = '/') ∨
      encodeChar state c = [c] ∧ c ∉ lineTerminators ∧ ¬ (state.mode = .plain ∧ c = '/') := by
  by_cases hline : c ∈ lineTerminators
  · refine Or.inl ⟨?_, Or.inl hline⟩
    simp only [lineTerminators, List.mem_cons, List.not_mem_nil, or_false] at hline
    rcases hline with rfl | rfl | rfl | rfl <;> simp [encodeChar, escapes]
  · have hencode : encodeChar state c =
        if c = '/' && !state.escaped && !state.inClass then ['\\', '/'] else [c] := by
      simp only [lineTerminators, List.mem_cons, List.not_mem_nil, or_false, not_or] at hline
      obtain ⟨hfeed, hreturn, hseparator, hparagraph⟩ := hline
      rw [encodeChar, if_neg hfeed, if_neg hreturn, if_neg hseparator, if_neg hparagraph]
    by_cases hslash : state.mode = .plain ∧ c = '/'
    · obtain ⟨hmode, rfl⟩ := hslash
      refine Or.inl ⟨?_, Or.inr rfl⟩
      rcases state with ⟨_ | _, _ | _⟩
      · exact (by decide)
      all_goals cases hmode
    · refine Or.inr ⟨?_, hline, hslash⟩
      rw [hencode, if_neg]
      rcases state with ⟨_ | _, _ | _⟩ <;> simp_all [State.mode]

/-- **One character: the lexer reads on to where the writer goes.** -/
theorem afterSlash?_encodeChar (state : State) (c : Char) (rest : List Char) :
    afterSlash? state.mode (encodeChar state c ++ rest) = afterSlash? (state.next c).mode rest := by
  by_cases hescaped : c ∈ '/' :: lineTerminators
  · -- Whether the backslash opens an escape or is escaped itself, what follows it is plain.
    simp only [lineTerminators, List.mem_cons, List.not_mem_nil, or_false] at hescaped
    rcases hescaped with rfl | rfl | rfl | rfl | rfl <;> rcases state with ⟨_ | _, _ | _⟩ <;> rfl
  · rcases encodeChar_cases state c with ⟨-, hline | hslash⟩ | ⟨hself, -, hends⟩
    · exact absurd (List.mem_cons_of_mem _ hline) hescaped
    · exact absurd (hslash ▸ List.mem_cons_self) hescaped
    · rw [hself, List.singleton_append, afterSlash?, if_neg hends, State.mode_next]

/-- **A whole source: the lexer ends in the mode that the source leads to, every escape
    completed.** -/
theorem afterSlash?_encode (state : State) (source rest : List Char) :
    afterSlash? state.mode (encode state source ++ rest) =
      afterSlash? (State.mk false (source.foldl State.next state).inClass).mode rest := by
  induction source generalizing state with
  | nil => rcases state with ⟨_ | _, _ | _⟩ <;> rfl
  | cons c source ih =>
    rw [encode, List.append_assoc, afterSlash?_encodeChar, ih, List.foldl_cons]

theorem classOpen_foldl (state : State) (source : List Char) :
    (source.foldl LexMode.next state.mode).classOpen = (source.foldl State.next state).inClass := by
  induction source generalizing state with
  | nil => rcases state with ⟨_ | _, _ | _⟩ <;> rfl
  | cons c source ih => rw [List.foldl_cons, List.foldl_cons, ← State.mode_next, ih]

/-! ## 3. Lines and comments -/

theorem oneLine_encode (state : State) (source : List Char) :
    ∀ d ∈ encode state source, d ∉ lineTerminators := by
  induction source generalizing state with
  | nil => rcases state with ⟨_ | _, _ | _⟩ <;> simp [encode, lineTerminators]
  | cons c source ih =>
    refine List.forall_mem_append.mpr ⟨?_, ih (state.next c)⟩
    rcases encodeChar_cases state c with ⟨hescape, -⟩ | ⟨hself, hline, -⟩
    · have hescapes : ∀ w ∈ escapes, ∀ d ∈ w, d ∉ lineTerminators := by
        simp [escapes, lineTerminators]
      exact hescapes _ hescape
    · rw [hself]
      exact List.forall_mem_singleton.mpr hline

/-- At the beginning a slash is escaped, so that only a star can make a comment. -/
theorem head?_encode_start (c : Char) (rest : List Char) :
    (encodeChar .start c ++ rest).head? ≠ some '/' ∧
      ((encodeChar .start c ++ rest).head? ≠ some '*' ↔ c ≠ '*') := by
  rcases encodeChar_cases .start c with ⟨hescape, hc⟩ | ⟨hself, -, hends⟩
  · have hescapes : ∀ w ∈ escapes, w.head? = some '\\' := by decide
    have hstar : c ≠ '*' := by
      intro heq
      subst heq
      exact absurd hc (by decide)
    rw [List.head?_append, hescapes _ hescape, Option.some_or]
    exact ⟨by decide, fun _ => hstar, fun _ => by decide⟩
  · rw [hself]
    exact ⟨fun h => hends ⟨rfl, Option.some.inj h⟩, not_congr Option.some_inj⟩

/-- The last slash is the only end that a lexer can find, and it finds that iff no class is open. -/
theorem afterSlash?_encode_start (source : List Char) :
    afterSlash? .plain (encode .start source ++ ['/']) =
      if (source.foldl LexMode.next .plain).classOpen then none else some [] := by
  have hlexer : afterSlash? .plain (encode .start source ++ ['/']) =
      afterSlash? (State.mk false (source.foldl State.next .start).inClass).mode ['/'] :=
    afterSlash?_encode .start source ['/']
  have hopen : (source.foldl LexMode.next .plain).classOpen =
      (source.foldl State.next .start).inClass := classOpen_foldl .start source
  rw [hlexer, hopen]
  cases (source.foldl State.next .start).inClass <;> decide

theorem ends_encode_iff (source : List Char) :
    afterSlash? .plain (encode .start source ++ ['/']) = some [] ↔
      (source.foldl LexMode.next .plain).classOpen = false := by
  rw [afterSlash?_encode_start]
  cases (source.foldl LexMode.next .plain).classOpen <;> decide

end RegexLiteral

/-! ## 4. Complete literals -/

/-- **The literal of a source is one complete literal iff the source neither begins with a star nor
    leaves a class open.** -/
theorem isRegexLiteral_regexLiteral_iff (source : List Char) :
    IsRegexLiteral (regexLiteral source) ↔
      source.head? ≠ some '*' ∧ (source.foldl LexMode.next .plain).classOpen = false := by
  cases source with
  | nil =>
    have hline : ∀ c ∈ regexLiteral [], c ∉ lineTerminators := by
      simp [regexLiteral, lineTerminators]
    exact ⟨fun _ => by decide, fun _ => ⟨by decide, by decide, hline, by decide⟩⟩
  | cons c source =>
    have hwritten : regexLiteral (c :: source) =
        '/' :: (RegexLiteral.encode .start (c :: source) ++ ['/']) := rfl
    obtain ⟨hslash, hstar⟩ := RegexLiteral.head?_encode_start c
      (RegexLiteral.encode (RegexLiteral.State.start.next c) source ++ ['/'])
    rw [← List.append_assoc, ← RegexLiteral.encode] at hslash hstar
    rw [hwritten]
    constructor
    · intro h
      exact ⟨fun e => hstar.mp h.noComment.2 (Option.some.inj e),
        (RegexLiteral.ends_encode_iff _).mp h.ends⟩
    · intro hsource
      obtain ⟨hfirst, hclosed⟩ := hsource
      refine ⟨rfl, ⟨hslash, hstar.mpr fun e => hfirst (congrArg some e)⟩, ?_,
        (RegexLiteral.ends_encode_iff _).mpr hclosed⟩
      have hends : '/' ∉ lineTerminators := by decide
      refine List.forall_mem_cons.mpr ⟨hends, List.forall_mem_append.mpr ⟨?_, ?_⟩⟩
      · exact RegexLiteral.oneLine_encode .start (c :: source)
      · exact List.forall_mem_singleton.mpr hends

/-- A pattern that does not end in an open escape is accepted, with a warning or without. -/
theorem checkPattern_result (engines : Engines) {text : String}
    (h : trailingBackslashes text.toList % 2 ≠ 1) (span : Span) :
    (checkPattern engines text span).result = .ok () := by
  rw [checkPattern, if_neg h]
  split <;> rfl

/-- Patterns that are accepted and whose literals are not complete: the first begins a comment, the
    others never end. The last one is accepted without a warning, its bracket being a comment. -/
theorem incomplete_literals :
    ((checkPattern .standard "*" ⟨0, 3⟩).result = .ok () ∧
      ¬ IsRegexLiteral (regexLiteral "*".toList)) ∧
    ((checkPattern .standard "[" ⟨0, 3⟩).result = .ok () ∧
      ¬ IsRegexLiteral (regexLiteral "[".toList)) ∧
    (checkPattern .standard "(?x)#[" ⟨0, 8⟩ = pure () ∧
      ¬ IsRegexLiteral (regexLiteral "(?x)#[".toList)) := by
  refine ⟨⟨checkPattern_result _ (by decide) _, fun h => ?_⟩,
    ⟨checkPattern_result _ (by decide) _, fun h => ?_⟩, ?_, fun h => ?_⟩
  · exact h.noComment.2 (by decide)
  · exact absurd h.ends (by decide)
  · have hunderstood : Engines.standard.patternFault? "(?x)#[" = none := by
      have hreads : Pattern.isUnderstood "(?x)#[".toList = true := by decide +kernel
      simp only [Engines.standard, hreads, if_true]
    rw [checkPattern, if_neg (by decide), hunderstood]
  · exact absurd h.ends (by decide)

end SchemaCompiler
