/-
  File:      SchemaCompiler/Proofs/Expr/RegexClosing.lean
  Subject:   No source of a regular expression closes its literal early.

  Whatever the source is, a lexer that has read the opening slash finds no end before the last
  character (`afterSlash?_regexLiteral`); that is the end iff no class is open there. The last
  slash would be escaped by an odd run of backslashes before it, so the writer makes such a run
  even (`trailingBackslashes_encode`): all other characters it writes leave the run as it is.

  **`regexLiteral_closes_last`**: the literal is one line and is not closed early, and a backslash
  is added at its end iff the source ends in an odd run, which no accepted pattern does.
-/
import SchemaCompiler.Proofs.Expr.RegexUnits
import SchemaCompiler.Proofs.Schema.Invariants

namespace SchemaCompiler

open Payload

namespace RegexLiteral

/-! ## 1. The run of backslashes at the end -/

/-- What the characters of a source are written as, an open escape not yet completed. -/
def encodeChars (state : State) : List Char → List Char
  | [] => []
  | c :: rest => encodeChar state c ++ encodeChars (state.next c) rest

theorem encode_eq_encodeChars (state : State) (source : List Char) :
    encode state source = encodeChars state source ++
      if (source.foldl State.next state).escaped then ['\\'] else [] := by
  induction source generalizing state with
  | nil => rfl
  | cons c rest ih => rw [encode, encodeChars, ih, List.foldl_cons, List.append_assoc]

theorem encodeChars_concat (state : State) (front : List Char) (c : Char) :
    encodeChars state (front ++ [c]) =
      encodeChars state front ++ encodeChar (front.foldl State.next state) c := by
  induction front generalizing state with
  | nil => exact List.append_nil _
  | cons d front ih =>
    rw [List.cons_append, encodeChars, encodeChars, ih, List.foldl_cons, List.append_assoc]

/-- **The characters of a source are written with the run of backslashes at their end.** By
    induction from the end: only a backslash is written as one, and no escape ends in one. -/
theorem trailingBackslashes_encodeChars (state : State) (source : List Char) :
    trailingBackslashes (encodeChars state source) = trailingBackslashes source := by
  induction source using List.reverseRecOn with
  | nil => rfl
  | append_singleton front c ih =>
    rw [encodeChars_concat, trailingBackslashes_concat]
    rcases encodeChar_cases (front.foldl State.next state) c with ⟨hescape, hc⟩ | ⟨hself, -, -⟩
    · have hletter : c ≠ '\\' := by
        rintro rfl
        exact absurd hc (by decide)
      have hescapes : ∀ w ∈ escapes, w ≠ [] ∧ w.getLast? ≠ some '\\' := by decide
      obtain ⟨hsome, hend⟩ := hescapes _ hescape
      obtain ⟨init, last, hlast⟩ := (List.eq_nil_or_concat' _).resolve_left hsome
      rw [hlast, List.getLast?_concat] at hend
      have hne : last ≠ '\\' := fun heq => hend (congrArg some heq)
      rw [hlast, ← List.append_assoc, trailingBackslashes_concat, if_neg hne, if_neg hletter]
    · rw [hself, trailingBackslashes_concat, ih]

/-- **An odd run of backslashes is made even.** -/
theorem trailingBackslashes_encode (source : List Char) :
    trailingBackslashes (encode .start source) =
      trailingBackslashes source + if trailingBackslashes source % 2 = 1 then 1 else 0 := by
  rw [encode_eq_encodeChars, escaped_foldl source .start rfl]
  by_cases hodd : trailingBackslashes source % 2 = 1
  · rw [if_pos (decide_eq_true hodd), if_pos hodd, trailingBackslashes_concat, if_pos rfl,
      trailingBackslashes_encodeChars]
  · rw [if_neg (by simpa using hodd), if_neg hodd, List.append_nil,
      trailingBackslashes_encodeChars, Nat.add_zero]

end RegexLiteral

/-! ## 2. Literals -/

theorem oneLine_regexLiteral (source : List Char) :
    ∀ c ∈ regexLiteral source, c ∉ lineTerminators := by
  have hslash : '/' ∉ lineTerminators := by decide
  cases source with
  | nil => simp [regexLiteral, lineTerminators]
  | cons c rest =>
    refine List.forall_mem_cons.mpr ⟨hslash, List.forall_mem_append.mpr ⟨?_, ?_⟩⟩
    · exact RegexLiteral.oneLine_encode .start (c :: rest)
    · exact List.forall_mem_singleton.mpr hslash

/-- **A lexer finds no end but the last slash, and that iff it stands in no class there.** -/
theorem afterSlash?_regexLiteral (source : List Char) :
    afterSlash? .plain (regexLiteral source).tail =
      if (source.foldl LexMode.next .plain).classOpen then none else some [] := by
  cases source with
  | nil => decide
  | cons c rest => exact RegexLiteral.afterSlash?_encode_start (c :: rest)

/-- The run of backslashes before the last slash. -/
theorem trailingBackslashes_regexLiteral (source : List Char) :
    trailingBackslashes (betweenSlashes (regexLiteral source)) =
      trailingBackslashes source + if trailingBackslashes source % 2 = 1 then 1 else 0 := by
  cases source with
  | nil => decide
  | cons c rest =>
    rw [betweenSlashes_regexLiteral (List.cons_ne_nil c rest)]
    exact RegexLiteral.trailingBackslashes_encode (c :: rest)

/-! ## 3. Accepted patterns -/

/-- The literals of the patterns of a schema end in the backslashes of the patterns. -/
def Schema.KeepsBackslashes (schema : Schema) : Prop :=
  ∀ located ∈ schema.keywords, ∀ text, located.keyword = .text .pattern text →
    trailingBackslashes (betweenSlashes (regexLiteral text.toList)) =
      trailingBackslashes text.toList

theorem Schema.keepsBackslashes_of_sound {schema : Schema} (h : schema.Sound) :
    schema.KeepsBackslashes := by
  intro located hmem text heq
  have hvalue := h.values located hmem
  rw [heq] at hvalue
  have heven : trailingBackslashes text.toList % 2 ≠ 1 := trailingBackslashes_even_iff.mpr hvalue
  rw [trailingBackslashes_regexLiteral, if_neg heven, Nat.add_zero]

/-- **No source closes its literal early**: the literal is one line, a lexer that has read the first
    slash finds no end before the last character, and finds it there iff the source leaves no class
    open. A backslash is added to the run at the end of the source iff the run is odd; so none is
    added to a pattern, at any depth, of a schema that is read off a tree. -/
theorem regexLiteral_closes_last (engines : Engines) :
    (∀ source : List Char,
      (regexLiteral source).head? = some '/' ∧
      (∀ c ∈ regexLiteral source, c ∉ lineTerminators) ∧
      (∀ rest, afterSlash? .plain (regexLiteral source).tail = some rest → rest = []) ∧
      (afterSlash? .plain (regexLiteral source).tail = some [] ↔
        (source.foldl LexMode.next .plain).classOpen = false) ∧
      trailingBackslashes (betweenSlashes (regexLiteral source)) =
        trailingBackslashes source + if trailingBackslashes source % 2 = 1 then 1 else 0) ∧
    ∀ node schema, (Schema.ofNode engines node).result = .ok schema →
      Schema.Throughout Schema.KeepsBackslashes schema := by
  refine ⟨fun source => ⟨?_, oneLine_regexLiteral source, ?_, ?_,
    trailingBackslashes_regexLiteral source⟩, fun node schema h => ?_⟩
  · cases source <;> rfl
  · intro rest hrest
    rw [afterSlash?_regexLiteral] at hrest
    split at hrest
    · cases hrest
    · exact (Option.some.inj hrest).symm
  · rw [afterSlash?_regexLiteral]
    cases (source.foldl LexMode.next .plain).classOpen <;> decide
  · refine Schema.throughout_of_denotes (fun node schema hdenotes => ?_) ?_ h
    · exact Schema.keepsBackslashes_of_sound (Schema.sound_of_denotes node schema hdenotes)
    · exact Schema.keepsBackslashes_of_sound (Schema.sound_of_no_keywords rfl)

/-- A pattern in a list that ends in two backslashes, with a slash in a class and one outside. -/
def slashedNode : Node :=
  .object
    [⟨"allOf", ⟨1, 8⟩, .array
      [.object [⟨"pattern", ⟨11, 20⟩, .string "/[/]\\\\" ⟨21, 31⟩, ⟨11, 31⟩⟩] ⟨10, 32⟩] ⟨9, 33⟩,
      ⟨1, 33⟩⟩] ⟨0, 34⟩

/-- Beside that pattern, a source that leaves a class and an escape open. -/
theorem closes_last_slashed :
    (∃ schema, (Schema.ofNode .standard slashedNode).result = .ok schema ∧
      schema.keywords.length = 1 ∧
      Schema.Throughout Schema.KeepsBackslashes schema) ∧
    regexLiteral "/[\n/\\".toList = "/\\/[\\n/\\\\/".toList ∧
      (∀ rest, afterSlash? .plain (regexLiteral "/[\n/\\".toList).tail = some rest → rest = []) ∧
      afterSlash? .plain (regexLiteral "/[\n/\\".toList).tail ≠ some [] ∧
      trailingBackslashes (betweenSlashes (regexLiteral "/[\n/\\".toList)) = 2 := by
  obtain ⟨hsources, hpatterns⟩ := regexLiteral_closes_last .standard
  obtain ⟨-, -, hearly, hlast, hrun⟩ := hsources "/[\n/\\".toList
  refine ⟨⟨_, rfl, rfl, hpatterns slashedNode _ rfl⟩, by decide, hearly, fun hend => ?_, hrun⟩
  exact absurd (hlast.mp hend) (by decide)

end SchemaCompiler
