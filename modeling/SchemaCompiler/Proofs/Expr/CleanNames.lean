/-
  File:      SchemaCompiler/Proofs/Expr/CleanNames.lean
  Subject:   What the name made of an ASCII text looks like, and what it keeps of the text.

  A marked word is a row of letters and digits, with an underscore before its first character if
  that is a digit (`digitMarked_markedWord`). A name is such words one after the other.

  **`ascii_names_clean`**: the name of an ASCII text is the underscore alone iff the text has no
  letter and no digit. Otherwise it begins with a capital or an underscore, and every underscore in
  it stands before a digit. The letters and digits of the text are all there, in order, up to case.
  Anchors are such texts.
-/
import SchemaCompiler.Proofs.Expr.ExportNames

namespace SchemaCompiler

variable {alphabet : Alphabet}

/-! ## 1. Letters and digits -/

/-- `[A-Za-z0-9]` -/
def isAsciiWordChar (c : Char) : Bool := isAsciiLetter c || isDigit c

section Characters

variable {c : Char}

theorem isAsciiWordChar_of_isDigit (h : isDigit c = true) : isAsciiWordChar c = true := by
  rw [isAsciiWordChar, h, Bool.or_true]

theorem ne_underscore_of_isAsciiWordChar (h : isAsciiWordChar c = true) : c ≠ '_' := by
  rintro rfl
  exact absurd h (by decide)

theorem isAscii_of_isAsciiWordChar (h : isAsciiWordChar c = true) : isAscii c = true := by
  rw [isAsciiWordChar, Bool.or_eq_true] at h
  exact h.elim isAscii_of_isAsciiLetter isAscii_of_isDigit

theorem ascii_case_forms : ∀ n < 0x80, isAsciiWordChar (Char.ofNat n) = true →
    (isDigit (Char.ofNat n) = false → isAsciiUpper (asciiUpper (Char.ofNat n)) = true) ∧
      isAsciiWordChar (asciiUpper (Char.ofNat n)) = true ∧
      isAsciiWordChar (asciiLower (Char.ofNat n)) = true ∧
      asciiLower (asciiUpper (Char.ofNat n)) = asciiLower (Char.ofNat n) ∧
      asciiLower (asciiLower (Char.ofNat n)) = asciiLower (Char.ofNat n) := by
  decide +kernel

/-- What a change of case does to a letter or digit. -/
theorem case_forms (h : isAsciiWordChar c = true) :
    (isDigit c = false → isAsciiUpper (asciiUpper c) = true) ∧
      isAsciiWordChar (asciiUpper c) = true ∧ isAsciiWordChar (asciiLower c) = true ∧
      asciiLower (asciiUpper c) = asciiLower c ∧ asciiLower (asciiLower c) = asciiLower c := by
  have hforms := ascii_case_forms c.toNat (of_decide_eq_true (isAscii_of_isAsciiWordChar h))
  rw [Char.ofNat_toNat] at hforms
  exact hforms h

theorem asciiUpper_of_isDigit (h : isDigit c = true) : asciiUpper c = c := by
  have hforms := ascii_digit_forms c.toNat (of_decide_eq_true (isAscii_of_isDigit h))
  rw [Char.ofNat_toNat] at hforms
  exact (hforms h).1

theorem keepsDigit_of_isAscii (h : isAscii c = true) (hc : alphabet.isAlphanumeric c = true) :
    alphabet.KeepsDigit c := by
  rw [alphabet.isAlphanumeric_ascii c h] at hc
  exact ⟨asciiUpper c, [], alphabet.upperOf_ascii c h, (asciiUpper_forms hc).2⟩

end Characters

/-! ## 2. Rows with marked digits -/

/-- A row of letters and digits, with single underscores before some of the digits. -/
inductive DigitMarked : List Char → Prop
  | nil : DigitMarked []
  | plain {c : Char} {rest : List Char} :
      isAsciiWordChar c = true → DigitMarked rest → DigitMarked (c :: rest)
  | marked {d : Char} {rest : List Char} :
      isDigit d = true → DigitMarked rest → DigitMarked ('_' :: d :: rest)

namespace DigitMarked

variable {name front rest : List Char}

theorem append (hfront : DigitMarked front) (hrest : DigitMarked rest) :
    DigitMarked (front ++ rest) := by
  induction hfront with
  | nil => exact hrest
  | plain hc _ ih => exact .plain hc ih
  | marked hd _ ih => exact .marked hd ih

theorem of_all (h : ∀ c ∈ name, isAsciiWordChar c = true) : DigitMarked name := by
  induction name with
  | nil => exact .nil
  | cons c rest ih =>
    obtain ⟨hc, hrest⟩ := List.forall_mem_cons.mp h
    exact .plain hc (ih hrest)

theorem flatMap {α : Type} {f : α → List Char} {parts : List α}
    (h : ∀ part ∈ parts, DigitMarked (f part)) : DigitMarked (parts.flatMap f) := by
  induction parts with
  | nil => exact .nil
  | cons part parts ih =>
    obtain ⟨hpart, hparts⟩ := List.forall_mem_cons.mp h
    rw [List.flatMap_cons]
    exact hpart.append (ih hparts)

theorem char_of_mem (h : DigitMarked name) :
    ∀ c ∈ name, isAsciiWordChar c = true ∨ c = '_' := by
  induction h with
  | nil => exact fun c hc => absurd hc List.not_mem_nil
  | plain hc _ ih => exact List.forall_mem_cons.mpr ⟨.inl hc, ih⟩
  | marked hd _ ih =>
    have hrest := List.forall_mem_cons.mpr ⟨.inl (isAsciiWordChar_of_isDigit hd), ih⟩
    exact List.forall_mem_cons.mpr ⟨.inr rfl, hrest⟩

/-- Every underscore stands before a digit. -/
theorem digit_after (h : DigitMarked name) {front rest : List Char}
    (hname : name = front ++ '_' :: rest) : ∃ d more, rest = d :: more ∧ isDigit d = true := by
  -- the underscore is in the rest of the row, unless it is the mark at its beginning
  induction h generalizing front with
  | nil => cases front <;> cases hname
  | plain hc _ ih =>
    cases front with
    | nil =>
      cases hname
      exact absurd rfl (ne_underscore_of_isAsciiWordChar hc)
    | cons x front => exact ih (List.cons.inj hname).2
  | marked hd _ ih =>
    cases front with
    | nil =>
      cases hname
      exact ⟨_, _, rfl, hd⟩
    | cons x front =>
      cases front with
      | nil =>
        cases hname
        exact absurd hd (by decide)
      | cons y front => exact ih (List.cons.inj (List.cons.inj hname).2).2

end DigitMarked

/-! ## 3. Words -/

section Words

variable {first : Char} {rest word text : List Char}

/-- The marked form of a word. -/
theorem markedWord_of_ascii (h : ∀ c ∈ first :: rest, isAsciiWordChar c = true) :
    markedWord alphabet (first :: rest) =
      (if isDigit first = true then ['_'] else []) ++ asciiUpper first :: rest.map asciiLower := by
  obtain ⟨hfirst, hrest⟩ := List.forall_mem_cons.mp h
  have hlower : rest.flatMap alphabet.lowerOf = rest.map asciiLower := by
    rw [← List.flatMap_pure_eq_map]
    refine List.flatMap_congr fun c hc => ?_
    exact alphabet.lowerOf_ascii c (isAscii_of_isAsciiWordChar (hrest c hc))
  rw [markedWord, capitalize, alphabet.upperOf_ascii first (isAscii_of_isAsciiWordChar hfirst),
    hlower]
  rfl

theorem word_lower (h : ∀ c ∈ word, isAsciiWordChar c = true) :
    ∀ c ∈ word.map asciiLower, isAsciiWordChar c = true := by
  intro c hc
  obtain ⟨d, hd, rfl⟩ := List.mem_map.mp hc
  exact (case_forms (h d hd)).2.2.1

/-- A marked word begins with a capital or an underscore. -/
theorem head_markedWord (h : ∀ c ∈ first :: rest, isAsciiWordChar c = true) :
    ∃ c more, markedWord alphabet (first :: rest) = c :: more ∧
      (isAsciiUpper c = true ∨ c = '_') := by
  rw [markedWord_of_ascii h]
  by_cases hdigit : isDigit first = true
  · rw [if_pos hdigit]
    exact ⟨_, _, rfl, .inr rfl⟩
  · rw [if_neg hdigit]
    have hupper := (case_forms (h first List.mem_cons_self)).1 (Bool.eq_false_iff.mpr hdigit)
    exact ⟨_, _, rfl, .inl hupper⟩

theorem digitMarked_markedWord (h : ∀ c ∈ word, isAsciiWordChar c = true) :
    DigitMarked (markedWord alphabet word) := by
  cases word with
  | nil => exact .nil
  | cons first rest =>
    obtain ⟨hfirst, hrest⟩ := List.forall_mem_cons.mp h
    have htail := DigitMarked.of_all (word_lower hrest)
    rw [markedWord_of_ascii h]
    by_cases hdigit : isDigit first = true
    · rw [if_pos hdigit, asciiUpper_of_isDigit hdigit]
      exact .marked hdigit htail
    · rw [if_neg hdigit]
      exact .plain (case_forms hfirst).2.1 htail

/-- A text without its underscores, all of it in lower case. -/
def folded (text : List Char) : List Char := (text.filter (· != '_')).map asciiLower

theorem folded_append (front rest : List Char) :
    folded (front ++ rest) = folded front ++ folded rest := by
  rw [folded, List.filter_append, List.map_append]
  rfl

theorem folded_of_all (h : ∀ c ∈ word, isAsciiWordChar c = true) :
    folded word = word.map asciiLower := by
  have hfilter : word.filter (· != '_') = word :=
    List.filter_eq_self.mpr fun c hc => bne_iff_ne.mpr (ne_underscore_of_isAsciiWordChar (h c hc))
  rw [folded, hfilter]

/-- A marked word is the word, but for its mark and for case. -/
theorem folded_markedWord (h : ∀ c ∈ word, isAsciiWordChar c = true) :
    folded (markedWord alphabet word) = word.map asciiLower := by
  cases word with
  | nil => rfl
  | cons first rest =>
    obtain ⟨hfirst, hrest⟩ := List.forall_mem_cons.mp h
    obtain ⟨-, hupper, -, hfold, -⟩ := case_forms hfirst
    have hmark : folded (if isDigit first = true then ['_'] else []) = [] := by
      split <;> rfl
    have hbody : folded (asciiUpper first :: rest.map asciiLower) =
        (asciiUpper first :: rest.map asciiLower).map asciiLower :=
      folded_of_all (List.forall_mem_cons.mpr ⟨hupper, word_lower hrest⟩)
    have htwice : (rest.map asciiLower).map asciiLower = rest.map asciiLower := by
      rw [List.map_map]
      exact List.map_congr_left fun c hc => (case_forms (hrest c hc)).2.2.2.2
    rw [markedWord_of_ascii h, folded_append, hmark, List.nil_append, hbody, List.map_cons, hfold,
      htwice, List.map_cons]

end Words

/-! ## 4. Names -/

/-- `[A-Z_][A-Za-z0-9_]*`, with a digit after every underscore. -/
structure CleanName (name : List Char) : Prop where
  first : ∃ c rest, name = c :: rest ∧ (isAsciiUpper c = true ∨ c = '_')
  chars : ∀ c ∈ name, isAsciiWordChar c = true ∨ c = '_'
  marks : ∀ front rest, name = front ++ '_' :: rest →
    ∃ d more, rest = d :: more ∧ isDigit d = true

/-- The name is clean, or the underscore alone if the text has no letter and no digit. Without its
    underscores, and with case ignored, it is the letters and digits of the text. -/
structure NamedAfter (text name : List Char) : Prop where
  blank : name = ['_'] ↔ ∀ c ∈ text, isAsciiWordChar c = false
  clean : name ≠ ['_'] → CleanName name
  kept : (name.filter (· != '_')).map asciiLower = (text.filter isAsciiWordChar).map asciiLower

section Names

variable {text : List Char}

theorem filter_isAlphanumeric (h : ∀ c ∈ text, isAscii c = true) :
    text.filter alphabet.isAlphanumeric = text.filter isAsciiWordChar :=
  List.filter_congr fun c hc => alphabet.isAlphanumeric_ascii c (h c hc)

theorem exists_first_word (h : wordsOf alphabet text ≠ []) :
    ∃ first rest words, wordsOf alphabet text = (first :: rest) :: words ∧
      first :: rest ∈ wordsOf alphabet text := by
  obtain ⟨word, words, heq⟩ := List.exists_cons_of_ne_nil h
  have hword : word ∈ wordsOf alphabet text := heq ▸ List.mem_cons_self
  obtain ⟨first, rest, rfl⟩ := List.exists_cons_of_ne_nil (ne_nil_of_mem_wordsOf hword)
  exact ⟨first, rest, words, heq, hword⟩

theorem isAsciiWordChar_of_mem_wordsOf (h : ∀ c ∈ text, isAscii c = true) {word : List Char}
    (hword : word ∈ wordsOf alphabet text) : ∀ c ∈ word, isAsciiWordChar c = true := by
  intro c hc
  obtain ⟨hmem, halphanumeric⟩ := of_mem_wordsOf hword hc
  rw [alphabet.isAlphanumeric_ascii c (h c hmem)] at halphanumeric
  exact halphanumeric

theorem folded_words {words : List (List Char)}
    (h : ∀ word ∈ words, ∀ c ∈ word, isAsciiWordChar c = true) :
    folded (words.flatMap (markedWord alphabet)) = words.flatten.map asciiLower := by
  induction words with
  | nil => rfl
  | cons word words ih =>
    obtain ⟨hword, hwords⟩ := List.forall_mem_cons.mp h
    rw [List.flatMap_cons, folded_append, folded_markedWord hword, ih hwords, List.flatten_cons,
      List.map_append]

/-- The name of a text that has words is made of them. -/
theorem pascalCase_of_words (h : ∀ c ∈ text, isAscii c = true)
    (hwords : wordsOf alphabet text ≠ []) :
    pascalCase alphabet text = (wordsOf alphabet text).flatMap (markedWord alphabet) ∧
      ∃ c rest, pascalCase alphabet text = c :: rest ∧ (isAsciiUpper c = true ∨ c = '_') := by
  have hname := pascalCase_eq_flatMap hwords fun c hc => keepsDigit_of_isAscii (h c hc)
  obtain ⟨first, rest, words, heq, hword⟩ := exists_first_word hwords
  obtain ⟨c, more, hmarked, hhead⟩ := head_markedWord (isAsciiWordChar_of_mem_wordsOf h hword)
  refine ⟨hname, c, more ++ words.flatMap (markedWord alphabet), ?_, hhead⟩
  rw [hname, heq, List.flatMap_cons, hmarked, List.cons_append]

/-- A text without words is named by the underscore alone. -/
theorem namedAfter_blank (h : ∀ c ∈ text, isAscii c = true)
    (hwords : wordsOf alphabet text = []) : NamedAfter text (pascalCase alphabet text) := by
  have hnone : text.filter isAsciiWordChar = [] := by
    have hfilter : text.filter alphabet.isAlphanumeric = [] := by
      rw [← flatten_wordsOf, hwords]
      rfl
    rwa [filter_isAlphanumeric h] at hfilter
  rw [pascalCase_of_no_words hwords]
  refine ⟨iff_of_true rfl fun c hc => ?_, fun hne => absurd rfl hne, ?_⟩
  · exact Bool.eq_false_iff.mpr (List.filter_eq_nil_iff.mp hnone c hc)
  · rw [hnone]
    rfl

theorem namedAfter_words (h : ∀ c ∈ text, isAscii c = true)
    (hwords : wordsOf alphabet text ≠ []) : NamedAfter text (pascalCase alphabet text) := by
  have hchars : ∀ word ∈ wordsOf alphabet text, ∀ c ∈ word, isAsciiWordChar c = true :=
    fun _ => isAsciiWordChar_of_mem_wordsOf h
  obtain ⟨hname, hhead⟩ := pascalCase_of_words h hwords
  have hmarked : DigitMarked (pascalCase alphabet text) :=
    hname ▸ DigitMarked.flatMap fun word hword => digitMarked_markedWord (hchars word hword)
  have hkept : folded (pascalCase alphabet text) =
      (text.filter isAsciiWordChar).map asciiLower := by
    rw [hname, folded_words hchars, flatten_wordsOf, filter_isAlphanumeric h]
  refine ⟨iff_of_false (fun hblank => ?_) fun hnone => ?_, fun _ => ?_, hkept⟩
  · -- an underscore alone stands before no digit
    obtain ⟨d, more, hrest, -⟩ := @DigitMarked.digit_after _ hmarked [] [] hblank
    cases hrest
  · obtain ⟨first, rest, words, -, hword⟩ := exists_first_word hwords
    have hfirst := hnone first (of_mem_wordsOf hword List.mem_cons_self).1
    rw [hchars _ hword first List.mem_cons_self] at hfirst
    cases hfirst
  · exact ⟨hhead, hmarked.char_of_mem, fun front rest => hmarked.digit_after⟩

end Names

/-- **Names of ASCII texts are clean and lose nothing**, the names of anchors among them. -/
theorem ascii_names_clean (engines : Engines) (alphabet : Alphabet) :
    (∀ text : List Char, (∀ c ∈ text, isAscii c = true) →
        NamedAfter text (pascalCase alphabet text)) ∧
      ∀ (node : Node) (schema : Schema) (name rootName : String),
        (Schema.ofNode engines node).result = .ok schema → schema.anchor? = some name →
          NamedAfter name.toList (Definition.ofSchema alphabet schema rootName).name.toList := by
  have hclean : ∀ text : List Char, (∀ c ∈ text, isAscii c = true) →
      NamedAfter text (pascalCase alphabet text) := by
    intro text htext
    by_cases hwords : wordsOf alphabet text = []
    · exact namedAfter_blank htext hwords
    · exact namedAfter_words htext hwords
  refine ⟨hclean, fun node schema name rootName hnode hanchor => ?_⟩
  rw [Definition.ofSchema, String.toList_ofList, hanchor]
  exact hclean name.toList (isAscii_of_isAnchorName (isAnchorName_of_anchor? hnode hanchor))

/-- A schema with an anchor whose second word begins with a digit. -/
def anchoredNode : Node :=
  .object [⟨"$anchor", ⟨1, 10⟩, .string "v1.2" ⟨11, 17⟩, ⟨1, 17⟩⟩] ⟨0, 18⟩

theorem ascii_names_clean_anchored :
    (∃ schema, (Schema.ofNode .standard anchoredNode).result = .ok schema ∧
      (Definition.ofSchema .tabulated schema "root").name = "V1_2" ∧
      NamedAfter "v1.2".toList (Definition.ofSchema .tabulated schema "root").name.toList) ∧
    pascalCase .tabulated "2FA--userId".toList = "_2faUserId".toList ∧
      NamedAfter "2FA--userId".toList (pascalCase .tabulated "2FA--userId".toList) := by
  have hclean := ascii_names_clean .standard .tabulated
  refine ⟨⟨_, rfl, by decide, hclean.2 anchoredNode _ "v1.2" "root" rfl rfl⟩, by decide,
    hclean.1 _ ?_⟩
  exact List.all_eq_true.mp (by decide)

end SchemaCompiler
