/-
  File:      SchemaCompiler/Proofs/Expr/ModuleSpecifiers.lean
  Subject:   When the name of a library, written between single quotes, is a string literal.

  A string literal of a module is read by the rules of its language (`StringLiteral.read`): an
  escape begins with a backslash, the first quote that belongs to no escape ends the literal, and a
  raw line feed or carriage return makes it none. Its value is a list of UTF-16 code units.

  The writer puts a backslash before every backslash and every quote, and leaves all else as it is,
  line feeds included (`readBody_escaped`).

  **`specifier_literal_iff`**: what is written for a name is one literal with the name as its value
  iff the name has neither a line feed nor a carriage return; with one of them it is none. The
  settings take names of both kinds (`read_specifierFile`, `broken_specifier`).
-/
import SchemaCompiler.Proofs.Expr.RegexLexing
import SchemaCompiler.Proofs.Expr.Unambiguity
import SchemaCompiler.Proofs.Settings.Overrides

namespace SchemaCompiler

open Grammar

namespace StringLiteral

/-! ## 1. Code units -/

/-- The UTF-16 code units of a code point. -/
def codePointUnits (n : Nat) : List Nat :=
  if n < 0x10000 then [n] else [0xD800 + (n - 0x10000) / 0x400, 0xDC00 + (n - 0x10000) % 0x400]

def codeUnits (c : Char) : List Nat := codePointUnits c.toNat

/-! ## 2. Reading a literal -/

/-- A code unit, or several, given by a fixed number of hexadecimal digits. -/
def readHexDigits (count : Nat) (text : List Char) : Option (List Nat × List Char) :=
  let digits := text.take count
  if digits.length = count ∧ digits.all isHexDigit then
    some ([digitsValue 16 digits], text.drop count)
  else none

/-- A code point given by hexadecimal digits before a closing brace. -/
def readCodePoint (text : List Char) : Option (List Nat × List Char) :=
  let digits := text.takeWhile isHexDigit
  match text.dropWhile isHexDigit with
  | '\x7d' :: rest =>
    if digits ≠ [] ∧ digitsValue 16 digits ≤ 0x10FFFF then
      some (codePointUnits (digitsValue 16 digits), rest)
    else none
  | _ => none

/-- The control character that a letter stands for after a backslash. -/
def controlUnit? (c : Char) : Option Nat :=
  [('b', 8), ('t', 9), ('n', 10), ('v', 11), ('f', 12), ('r', 13)].lookup c

/-- One escape, read after its backslash. A line terminator stands for nothing. Of the digits only
    a zero before no further digit is an escape. A character without a meaning of its own stands
    for itself. -/
def readEscape : List Char → Option (List Nat × List Char)
  | [] => none
  | c :: rest =>
    if c = 'x' then readHexDigits 2 rest
    else if c = 'u' then
      if rest.head? = some '\x7b' then readCodePoint rest.tail else readHexDigits 4 rest
    else if isDigit c then
      if c = '0' ∧ rest.head?.all (fun d => !isDigit d) then some ([0], rest) else none
    else if c = '\r' then some ([], if rest.head? = some '\n' then rest.tail else rest)
    else if c ∈ lineTerminators then some ([], rest)
    else some (((controlUnit? c).map fun n => [n]).getD (codeUnits c), rest)

theorem readHexDigits_length {count : Nat} {text rest : List Char} {units : List Nat}
    (h : readHexDigits count text = some (units, rest)) : rest.length ≤ text.length := by
  unfold readHexDigits at h
  simp only at h
  split at h
  · cases h
    rw [List.length_drop]
    omega
  · cases h

theorem readCodePoint_length {text rest : List Char} {units : List Nat}
    (h : readCodePoint text = some (units, rest)) : rest.length ≤ text.length := by
  unfold readCodePoint at h
  have hsub := (List.dropWhile_sublist (l := text) isHexDigit).length_le
  simp only at h
  split at h
  · rename_i rest' hrest
    rw [hrest, List.length_cons] at hsub
    split at h
    · cases h
      omega
    · cases h
  · cases h

/-- An escape leaves less text. -/
theorem readEscape_length {text rest : List Char} {units : List Nat}
    (h : readEscape text = some (units, rest)) : rest.length ≤ text.length := by
  unfold readEscape at h
  split at h
  · cases h
  · rename_i c tail
    have htail : tail.tail.length ≤ tail.length := by
      rw [List.length_tail]
      omega
    rw [List.length_cons]
    split at h
    · exact Nat.le_succ_of_le (readHexDigits_length h)
    · split at h
      · split at h
        · exact Nat.le_succ_of_le ((readCodePoint_length h).trans htail)
        · exact Nat.le_succ_of_le (readHexDigits_length h)
      · split at h
        · split at h
          · cases h
            exact Nat.le_succ _
          · cases h
        · split at h
          · cases h
            split <;> omega
          · split at h
            · cases h
              exact Nat.le_succ _
            · cases h
              exact Nat.le_succ _

/-- What is read, with units before it. -/
def prepend (units : List Nat) (read : List Nat × List Char) : List Nat × List Char :=
  (units ++ read.1, read.2)

/-- What follows the opening quote: the units up to the closing one, and the text after that. -/
def readBody (text : List Char) : Option (List Nat × List Char) :=
  match text with
  | [] => none
  | c :: rest =>
    if c = '\'' then some ([], rest)
    else if c = '\n' ∨ c = '\r' then none
    else if c = '\\' then
      match _h : readEscape rest with
      | none => none
      | some (units, after) => (readBody after).map (prepend units)
    else (readBody rest).map (prepend (codeUnits c))
termination_by text.length
decreasing_by
  · have := readEscape_length _h
    simp only [List.length_cons]
    omega
  · simp

/-- The literal that a text begins with: its value, and the text after it. -/
def read : List Char → Option (List Nat × List Char)
  | '\'' :: rest => readBody rest
  | _ => none

/-! ## 3. Writer and reader in step -/

theorem readEscape_self {c : Char} (h : c = '\\' ∨ c = '\'') (rest : List Char) :
    readEscape (c :: rest) = some (codeUnits c, rest) := by
  rcases h with rfl | rfl <;> rfl

theorem readBody_quote (rest : List Char) : readBody ('\'' :: rest) = some ([], rest) := by
  rw [readBody, if_pos rfl]

theorem readBody_break {c : Char} (h : c = '\n' ∨ c = '\r') (rest : List Char) :
    readBody (c :: rest) = none := by
  have hquote : c ≠ '\'' := by
    rcases h with rfl | rfl <;> decide
  rw [readBody, if_neg hquote, if_pos h]

theorem readBody_escape {c : Char} (h : c = '\\' ∨ c = '\'') (rest : List Char) :
    readBody ('\\' :: c :: rest) = (readBody rest).map (prepend (codeUnits c)) := by
  rw [readBody, if_neg (by decide), if_neg (by decide), if_pos rfl]
  split
  · rename_i hnone
    rw [readEscape_self h] at hnone
    cases hnone
  · rename_i units after hsome
    rw [readEscape_self h] at hsome
    cases hsome
    rfl

theorem readBody_plain {c : Char} (hquote : c ≠ '\'') (hbreak : ¬ (c = '\n' ∨ c = '\r'))
    (hback : c ≠ '\\') (rest : List Char) :
    readBody (c :: rest) = (readBody rest).map (prepend (codeUnits c)) := by
  rw [readBody, if_neg hquote, if_neg hbreak, if_neg hback]

/-- The text has neither a line feed nor a carriage return. -/
def Unbroken (text : List Char) : Prop := ∀ c ∈ text, ¬ (c = '\n' ∨ c = '\r')

instance (text : List Char) : Decidable (Unbroken text) :=
  List.decidableBAll (fun c => ¬ (c = '\n' ∨ c = '\r')) text

/-- **The reader takes the written characters one by one**, up to the first break of the line. -/
theorem readBody_escaped (text rest : List Char) :
    readBody (text.flatMap Render.escapeSingle ++ '\'' :: rest) =
      if Unbroken text then some (text.flatMap codeUnits, rest) else none := by
  induction text with
  | nil => exact readBody_quote rest
  | cons c text ih =>
    have hcons : Unbroken (c :: text) ↔ ¬ (c = '\n' ∨ c = '\r') ∧ Unbroken text :=
      List.forall_mem_cons
    rw [List.flatMap_cons, List.append_assoc]
    by_cases hescape : c = '\\' ∨ c = '\''
    · have hwritten : Render.escapeSingle c = ['\\', c] := by
        rcases hescape with rfl | rfl <;> rfl
      have hbreak : ¬ (c = '\n' ∨ c = '\r') := by
        rcases hescape with rfl | rfl <;> decide
      rw [hwritten, List.cons_append, List.cons_append, List.nil_append, readBody_escape hescape,
        ih]
      simp only [hcons, hbreak, not_false_eq_true, true_and]
      split <;> rfl
    · have hwritten : Render.escapeSingle c = [c] := by
        simpa [Render.escapeSingle] using hescape
      rw [hwritten, List.cons_append, List.nil_append]
      by_cases hbreak : c = '\n' ∨ c = '\r'
      · rw [readBody_break hbreak, if_neg fun hall => (hcons.mp hall).1 hbreak]
      · rw [readBody_plain (fun hc => hescape (.inr hc)) hbreak (fun hc => hescape (.inl hc)), ih]
        simp only [hcons, hbreak, not_false_eq_true, true_and]
        split <;> rfl

theorem read_singleQuoted (text rest : List Char) :
    read (Render.singleQuoted text ++ rest) =
      if Unbroken text then some (text.flatMap codeUnits, rest) else none := by
  rw [Render.singleQuoted_append]
  exact readBody_escaped text rest

end StringLiteral

/-! ## 4. Names from the settings -/

namespace Settings

/-- A member of an object, without blanks. -/
def memberText (key value : List Char) : List Char := '"' :: (key ++ '"' :: ':' :: value)

theorem exists_member {key value : List Char} (hkey : StringBody key key) {P : Node → Prop}
    (hvalue : ∀ start, ∃ node, IsValue value start node ∧ P node) (start : Nat) :
    ∃ m : Member Node, MemberText IsValue (memberText key value) start m ∧
      m.key = String.ofList key ∧ P m.value := by
  obtain ⟨node, hnode, hP⟩ := hvalue (start + byteLength (memberText key []))
  exact ⟨_, @MemberText.mk IsValue start key key [] [] value node hkey (by decide) (by decide)
    hnode, rfl, hP⟩

theorem exists_quoted (text : String) (start : Nat) :
    ∃ node, IsValue (quote text.toList) start node ∧ node.IsText text :=
  ⟨_, .string (stringBody_escaped text.toList), covering start (quote text.toList),
    congrArg₂ _ String.ofList_toList rfl⟩

section Parts

variable {α : Type} {rule : Production α} {text rest : List Char} {start : Nat} {a : α}
  {parts : List α}

theorem parts_single (h : rule text start a) : Parts rule text start [a] := by
  have hlast := @Parts.last _ rule start [] text [] a (by decide) h (by decide)
  rwa [List.append_nil] at hlast

theorem parts_comma (h : rule text start a)
    (hrest : Parts rule rest (start + byteLength (text ++ [','])) parts) :
    Parts rule (text ++ ',' :: rest) start (a :: parts) :=
  @Parts.more _ rule start [] text [] rest a parts (by decide) h (by decide) hrest

end Parts

/-- The names of the two libraries, as a settings file gives them. -/
def librariesText (name : String) : List Char :=
  memberText "superstruct".toList (quote name.toList) ++
    ',' :: memberText "std".toList (quote name.toList)

theorem exists_libraries (name : String) (start : Nat) :
    ∃ node, IsValue ('\x7b' :: (librariesText name ++ ['\x7d'])) start node ∧
      TellsRecord importSlots .default node ⟨name, name⟩ := by
  obtain ⟨combinators, hcombinators, hcombinatorsKey, hcombinatorsValue⟩ :=
    exists_member (stringBody_of_all_plain "superstruct" (by decide)) (exists_quoted name)
      (start + 1)
  obtain ⟨helpers, hhelpers, hhelpersKey, hhelpersValue⟩ :=
    exists_member (stringBody_of_all_plain "std" (by decide)) (exists_quoted name)
      (start + 1 + byteLength (memberText "superstruct".toList (quote name.toList) ++ [',']))
  rw [String.ofList_toList] at hcombinatorsKey hhelpersKey
  have hparts := parts_comma hcombinators (parts_single hhelpers)
  refine ⟨_, .object hparts, told_imports_iff.mpr ⟨?_, ?_, ?_, ?_⟩⟩
  · simp [hcombinatorsKey, hhelpersKey]
  · simp [hcombinatorsKey, hhelpersKey]
  · constructor <;> simp [hcombinatorsKey, hhelpersKey, hcombinatorsValue]
  · constructor <;> simp [hcombinatorsKey, hhelpersKey, hhelpersValue]

/-- A settings file that gives one name to both libraries. -/
def specifierFile (name : String) : String :=
  String.ofList ('\x7b' ::
    (memberText "imports".toList ('\x7b' :: (librariesText name ++ ['\x7d'])) ++ ['\x7d']))

theorem isDocument_of_isValue {text : List Char} {node : Node} (h : IsValue text 0 node) :
    IsDocument text node := by
  have hwhole := @IsDocument.mk [] text [] node (by decide) h (by decide)
  rwa [List.append_nil] at hwhole

/-- **Every text can be given as the name of a library.** -/
theorem read_specifierFile (name : String) :
    Settings.read (specifierFile name) = .ok { Settings.default with imports := ⟨name, name⟩ } := by
  obtain ⟨imports, himports, hkey, hvalue⟩ :=
    exists_member (stringBody_of_all_plain "imports" (by decide)) (exists_libraries name) 1
  rw [String.ofList_toList] at hkey
  have hdocument := isDocument_of_isValue (.object (parts_single himports))
  rw [← String.toList_ofList (l := _ :: _)] at hdocument
  refine (read_object_iff hdocument).mpr (told_settings_iff.mpr ⟨?_, ?_, ?_, ?_, ?_⟩)
  · simp
  · simp [hkey]
  · constructor <;> simp [hkey, Settings.default]
  · constructor <;> simp [hkey, Settings.default]
  · constructor <;> simp [hkey, hvalue]

end Settings

/-! ## 5. Names and literals -/

/-- **Which names survive.** Every text can be the name of a library in the settings. What is
    written for it is one string literal, closed by its last character, with the name as its value,
    iff the name has no line feed and no carriage return; otherwise it is no literal at all. -/
theorem specifier_literal_iff (name : String) :
    Settings.read (Settings.specifierFile name) =
        .ok { Settings.default with imports := ⟨name, name⟩ } ∧
      ∀ rest : List Char,
        (StringLiteral.read (Render.singleQuoted name.toList ++ rest) =
            some (name.toList.flatMap StringLiteral.codeUnits, rest) ↔
          StringLiteral.Unbroken name.toList) ∧
        (¬ StringLiteral.Unbroken name.toList →
          StringLiteral.read (Render.singleQuoted name.toList ++ rest) = none) := by
  refine ⟨Settings.read_specifierFile name, fun rest => ?_⟩
  rw [StringLiteral.read_singleQuoted]
  by_cases hname : StringLiteral.Unbroken name.toList
  · rw [if_pos hname]
    exact ⟨iff_of_true rfl hname, fun hbroken => absurd hname hbroken⟩
  · rw [if_neg hname]
    exact ⟨iff_of_false (fun h => by cases h) hname, fun _ => rfl⟩

/-- A name of two lines is taken from the settings, and what is written for it is no literal. -/
theorem broken_specifier :
    Settings.read (Settings.specifierFile "a\nb") =
        .ok { Settings.default with imports := ⟨"a\nb", "a\nb"⟩ } ∧
      Render.singleQuoted "a\nb".toList = ['\'', 'a', '\n', 'b', '\''] ∧
      StringLiteral.read ['\'', 'a', '\n', 'b', '\''] = none := by
  have hwritten : Render.singleQuoted "a\nb".toList = ['\'', 'a', '\n', 'b', '\''] := by decide
  refine ⟨Settings.read_specifierFile _, hwritten, ?_⟩
  rw [← hwritten, ← List.append_nil (Render.singleQuoted _), StringLiteral.read_singleQuoted]
  exact if_neg (by decide)

end SchemaCompiler
