/-
  File:      SchemaCompiler/Proofs/Expr/ExportNames.lean
  Subject:   When the name of an export can be used in a module.

  A name is made of the alphanumeric characters of a text, word by word, and every word that begins
  with a digit is marked by an underscore (`pascalCase_eq_flatMap`). Some of these characters do not
  belong to identifiers, and others, such as digits beyond ASCII, do not begin one; neither is
  looked at when a name is made. So a name is an identifier iff the text is `Nameable`
  (`isIdentifier_pascalCase_iff`). An anchor is, being ASCII.

  **`exportName_usable_iff`**: the name of a definition is an identifier iff the schema has an
  anchor or the root name is nameable. It is never a word that begins with a small ASCII letter, so
  neither one of the two bindings of the imports nor a reserved word. Root names that are not
  nameable are taken (`unusable_names`).
-/
import SchemaCompiler.Proofs.Schema.Invariants
import SchemaCompiler.Proofs.Text.TabulatedIdentifiers

namespace SchemaCompiler

variable {alphabet : Alphabet} {classes : IdentifierClasses}

/-! ## 1. Words -/

/-- A character begins the first word or a word of its own. -/
theorem wordsOf_cons {c : Char} (h : alphabet.isAlphanumeric c = true) (rest : List Char) :
    (∃ word words, wordsOf alphabet rest = word :: words ∧
        wordsOf alphabet (c :: rest) = (c :: word) :: words) ∨
      wordsOf alphabet (c :: rest) = [c] :: wordsOf alphabet rest := by
  rw [wordsOf, if_pos h]
  split
  · next word words _ hwords => exact .inl ⟨word, words, hwords, rfl⟩
  · exact .inr rfl

theorem wordsOf_cons_of_not {c : Char} (h : alphabet.isAlphanumeric c = false) (rest : List Char) :
    wordsOf alphabet (c :: rest) = wordsOf alphabet rest := by
  rw [wordsOf, h]
  rfl

/-- The words hold the alphanumeric characters of the text, in order. -/
theorem flatten_wordsOf (text : List Char) :
    (wordsOf alphabet text).flatten = text.filter alphabet.isAlphanumeric := by
  induction text with
  | nil => rfl
  | cons c rest ih =>
    by_cases hc : alphabet.isAlphanumeric c = true
    · rw [List.filter_cons_of_pos hc, ← ih]
      rcases wordsOf_cons hc rest with ⟨word, words, hwords, heq⟩ | heq
      · rw [heq, hwords]
        rfl
      · rw [heq]
        rfl
    · rw [wordsOf_cons_of_not (Bool.eq_false_iff.mpr hc), List.filter_cons_of_neg hc, ih]

theorem ne_nil_of_mem_wordsOf {text word : List Char} (h : word ∈ wordsOf alphabet text) :
    word ≠ [] := by
  induction text generalizing word with
  | nil => cases h
  | cons c rest ih =>
    by_cases hc : alphabet.isAlphanumeric c = true
    · rcases wordsOf_cons hc rest with ⟨front, words, hwords, heq⟩ | heq
      · rw [heq] at h
        rcases List.mem_cons.mp h with rfl | hmem
        · exact List.cons_ne_nil c front
        · exact ih (hwords ▸ List.mem_cons_of_mem front hmem)
      · rw [heq] at h
        rcases List.mem_cons.mp h with rfl | hmem
        · exact List.cons_ne_nil c []
        · exact ih hmem
    · rw [wordsOf_cons_of_not (Bool.eq_false_iff.mpr hc)] at h
      exact ih h

/-- The characters of a word are alphanumeric characters of the text. -/
theorem of_mem_wordsOf {text word : List Char} (h : word ∈ wordsOf alphabet text) {c : Char}
    (hc : c ∈ word) : c ∈ text ∧ alphabet.isAlphanumeric c = true := by
  have hmem : c ∈ text.filter alphabet.isAlphanumeric := by
    rw [← flatten_wordsOf]
    exact List.mem_flatten.mpr ⟨word, h, hc⟩
  exact List.mem_filter.mp hmem

/-! ## 2. Marked words -/

/-- A capitalized word, marked if it begins with a digit. -/
def markedWord (alphabet : Alphabet) (word : List Char) : List Char :=
  (if startsWithDigit word then ['_'] else []) ++ capitalize alphabet word

/-- Upper case begins with a digit iff the character is one. -/
def Alphabet.KeepsDigit (alphabet : Alphabet) (c : Char) : Prop :=
  ∃ first rest, alphabet.upperOf c = first :: rest ∧ isDigit first = isDigit c

/-- Once there is a name, all further words are marked. -/
theorem foldl_joinWord {name : List Char} (h : name ≠ []) (words : List (List Char)) :
    words.foldl (joinWord alphabet) name = name ++ words.flatMap (markedWord alphabet) := by
  induction words generalizing name with
  | nil => rw [List.foldl_nil, List.flatMap_nil, List.append_nil]
  | cons word words ih =>
    have hjoin : joinWord alphabet name word = name ++ markedWord alphabet word := by
      rw [joinWord, markedWord, List.isEmpty_eq_false_iff.mpr h, Bool.not_false, Bool.and_true,
        ← List.append_assoc]
      split
      · rfl
      · rw [List.append_nil]
    rw [List.foldl_cons, hjoin, ih (List.append_ne_nil_of_left_ne_nil h _), List.flatMap_cons,
      List.append_assoc]

/-- **A name is its words, each of them capitalized and, if it begins with a digit, marked.** The
    mark in front of the name is that of its first word. -/
theorem pascalCase_eq_flatMap {text : List Char} (hwords : wordsOf alphabet text ≠ [])
    (h : ∀ c ∈ text, alphabet.isAlphanumeric c = true → alphabet.KeepsDigit c) :
    pascalCase alphabet text = (wordsOf alphabet text).flatMap (markedWord alphabet) := by
  obtain ⟨word, words, heq⟩ := List.exists_cons_of_ne_nil hwords
  have hmem : word ∈ wordsOf alphabet text := heq ▸ List.mem_cons_self
  obtain ⟨c, rest, rfl⟩ := List.exists_cons_of_ne_nil (ne_nil_of_mem_wordsOf hmem)
  obtain ⟨hc, halphanumeric⟩ := of_mem_wordsOf hmem List.mem_cons_self
  obtain ⟨first, more, hupper, hdigit⟩ := h c hc halphanumeric
  have hcapital : capitalize alphabet (c :: rest) =
      first :: (more ++ rest.flatMap alphabet.lowerOf) := by
    rw [capitalize, hupper, List.cons_append]
  have hjoin : joinWord alphabet [] (c :: rest) = capitalize alphabet (c :: rest) := by
    rw [joinWord, List.isEmpty_nil, Bool.not_true, Bool.and_false, if_neg Bool.false_ne_true,
      List.nil_append]
  have hfold : (wordsOf alphabet text).foldl (joinWord alphabet) [] =
      capitalize alphabet (c :: rest) ++ words.flatMap (markedWord alphabet) := by
    rw [heq, List.foldl_cons, hjoin, foldl_joinWord]
    rw [hcapital]
    exact List.cons_ne_nil _ _
  rw [pascalCase, hfold, heq, List.flatMap_cons, markedWord, hcapital, List.cons_append,
    List.isEmpty_cons, Bool.false_or, startsWithDigit, startsWithDigit, hdigit]
  split
  · rfl
  · rfl

theorem pascalCase_of_no_words {text : List Char} (h : wordsOf alphabet text = []) :
    pascalCase alphabet text = ['_'] := by
  rw [pascalCase, h]
  rfl

/-! ## 3. Names -/

theorem all_flatMap_eq_all {α β : Type} {f : α → List β} {p : β → Bool} {q : α → Bool} {xs : List α}
    (h : ∀ x ∈ xs, (f x).all p = q x) : (xs.flatMap f).all p = xs.all q := by
  rw [List.all_flatMap, Bool.eq_iff_iff, List.all_eq_true, List.all_eq_true]
  exact forall₂_congr fun x hx => by rw [h x hx]

/-- **A text that names can be made of**: its alphanumeric characters belong to identifiers, and the
    first of them begins one or is an ASCII digit, which is marked. The iota under a vowel becomes a
    letter. -/
structure Nameable (alphabet : Alphabet) (classes : IdentifierClasses) (text : List Char) :
    Prop where
  parts : ∀ c ∈ text, alphabet.isAlphanumeric c = true → classes.holds c = true
  first : ∀ c, text.find? alphabet.isAlphanumeric = some c →
    isDigit c = true ∨ classes.begins c = true ∨ c.toNat = 0x345

section Names

variable (hsuits : classes.Suits alphabet)

include hsuits

theorem keepsDigit_of_suits {c : Char} (h : alphabet.isAlphanumeric c = true) :
    alphabet.KeepsDigit c := by
  obtain ⟨first, rest, hupper, -, -, -, hdigit⟩ := hsuits.upperOf_forms h
  exact ⟨first, rest, hupper, hdigit⟩

/-- The letters of a word belong to identifiers iff those of the capitalized word do. -/
theorem all_markedWord {word : List Char} (h : ∀ c ∈ word, alphabet.isAlphanumeric c = true) :
    (markedWord alphabet word).all classes.holds = word.all classes.holds := by
  cases word with
  | nil => rfl
  | cons first rest =>
    obtain ⟨hfirst, hrest⟩ := List.forall_mem_cons.mp h
    obtain ⟨-, -, -, hupper, -⟩ := hsuits.upperOf_forms hfirst
    have hmark : (if startsWithDigit (first :: rest) = true then ['_'] else []).all classes.holds =
        true := by
      split <;> rfl
    have hlower : (rest.flatMap alphabet.lowerOf).all classes.holds = rest.all classes.holds :=
      all_flatMap_eq_all fun c hc => hsuits.all_holds_lowerOf (hrest c hc)
    rw [markedWord, capitalize, List.all_append, List.all_append, hmark, hupper, hlower,
      List.all_cons, Bool.true_and]

/-- The first character of a name, by the first character of its first word. -/
theorem markedWord_cons {first : Char} (h : alphabet.isAlphanumeric first = true)
    (rest : List Char) :
    ∃ c more, markedWord alphabet (first :: rest) = c :: more ∧
      (classes.begins c = true ↔
        isDigit first = true ∨ classes.begins first = true ∨ first.toNat = 0x345) ∧
      isAsciiLower c = false := by
  obtain ⟨c, more, hupper, -, hbegins, hlower, -⟩ := hsuits.upperOf_forms h
  rw [markedWord, capitalize, hupper, startsWithDigit]
  by_cases hdigit : isDigit first = true
  · rw [if_pos hdigit]
    exact ⟨'_', _, rfl, iff_of_true rfl (.inl hdigit), by decide⟩
  · rw [if_neg hdigit]
    refine ⟨c, _, rfl, ?_, hlower⟩
    rw [hbegins]
    exact ⟨.inr, fun hany => hany.resolve_left hdigit⟩

/-- A name is the underscore alone, or begins as its first word does. -/
theorem pascalCase_cases (text : List Char) :
    text.filter alphabet.isAlphanumeric = [] ∧ pascalCase alphabet text = ['_'] ∨
      ∃ first c more, text.find? alphabet.isAlphanumeric = some first ∧
        pascalCase alphabet text = c :: more ∧
        (classes.begins c = true ↔
          isDigit first = true ∨ classes.begins first = true ∨ first.toNat = 0x345) ∧
        isAsciiLower c = false ∧
        ((c :: more).all classes.holds = true ↔
          ∀ d ∈ text, alphabet.isAlphanumeric d = true → classes.holds d = true) := by
  have hflat : (wordsOf alphabet text).flatten = text.filter alphabet.isAlphanumeric :=
    flatten_wordsOf text
  have hall : ((wordsOf alphabet text).flatMap (markedWord alphabet)).all classes.holds =
      (text.filter alphabet.isAlphanumeric).all classes.holds := by
    rw [← hflat, List.all_flatten]
    refine all_flatMap_eq_all fun word hword => ?_
    exact all_markedWord hsuits fun c hc => (of_mem_wordsOf hword hc).2
  by_cases hnone : wordsOf alphabet text = []
  · rw [hnone] at hflat
    exact .inl ⟨hflat.symm, pascalCase_of_no_words hnone⟩
  · have hname := pascalCase_eq_flatMap hnone fun c _ => keepsDigit_of_suits hsuits
    obtain ⟨word, words, hwords⟩ := List.exists_cons_of_ne_nil hnone
    have hmem : word ∈ wordsOf alphabet text := hwords ▸ List.mem_cons_self
    obtain ⟨first, rest, rfl⟩ := List.exists_cons_of_ne_nil (ne_nil_of_mem_wordsOf hmem)
    have hfirst := (of_mem_wordsOf hmem List.mem_cons_self).2
    obtain ⟨c, more, hmarked, hbegins, hlower⟩ := markedWord_cons hsuits hfirst rest
    rw [hwords, List.flatMap_cons, hmarked, List.cons_append] at hall hname
    refine .inr ⟨first, c, _, ?_, hname, hbegins, hlower, ?_⟩
    · rw [← List.head?_filter, ← hflat, hwords]
      rfl
    · rw [hall, List.all_eq_true]
      simp only [List.mem_filter, and_imp]

/-- **The name made of a text is an identifier iff the text is nameable.** -/
theorem isIdentifier_pascalCase_iff (text : List Char) :
    classes.isIdentifier (pascalCase alphabet text) = true ↔ Nameable alphabet classes text := by
  rcases pascalCase_cases hsuits text with
    ⟨hnone, hname⟩ | ⟨first, c, more, hfirst, hname, hbegins, -, hall⟩
  · rw [hname]
    refine iff_of_true rfl ⟨fun c hc halpha => ?_, fun c hc => ?_⟩
    · have hmem := List.mem_filter.mpr ⟨hc, halpha⟩
      rw [hnone] at hmem
      cases hmem
    · rw [← List.head?_filter, hnone] at hc
      cases hc
  · rw [hname, IdentifierClasses.isIdentifier, Bool.and_eq_true]
    constructor
    · intro h
      obtain ⟨hc, hmore⟩ := h
      refine ⟨hall.mp ?_, fun d hd => ?_⟩
      · rw [List.all_cons, hsuits.holds_of_begins hc, hmore]
        rfl
      · rw [hfirst, Option.some_inj] at hd
        exact hd ▸ hbegins.mp hc
    · intro h
      have hparts := hall.mpr h.parts
      rw [List.all_cons, Bool.and_eq_true] at hparts
      exact ⟨hbegins.mpr (h.first first hfirst), hparts.2⟩

theorem head?_pascalCase {text : List Char} {c : Char}
    (h : (pascalCase alphabet text).head? = some c) : isAsciiLower c = false := by
  rcases pascalCase_cases hsuits text with ⟨-, hname⟩ | ⟨first, d, more, -, hname, -, hlower, -⟩
  · rw [hname] at h
    cases h
    decide
  · rw [hname] at h
    cases h
    exact hlower

end Names

/-! ## 4. Definitions -/

theorem isAscii_of_isAnchorName {text : List Char} (h : IsAnchorName text) :
    ∀ c ∈ text, isAscii c = true := by
  obtain ⟨first, rest, rfl, hfirst, hrest⟩ := h
  refine List.forall_mem_cons.mpr
    ⟨isAscii_of_isAsciiLetter (Payload.isAsciiLetter_iff.mpr hfirst), fun c hc => ?_⟩
  rcases hrest c hc with rfl | rfl | rfl | ⟨-, hnine⟩ | hletter
  · decide
  · decide
  · decide
  · exact decide_eq_true (Nat.lt_of_le_of_lt hnine (by decide))
  · exact isAscii_of_isAsciiLetter (Payload.isAsciiLetter_iff.mpr hletter)

/-- Names can be made of anchors, since they are ASCII and begin with a letter. -/
theorem nameable_of_isAnchorName (hsuits : classes.Suits alphabet) {text : List Char}
    (h : IsAnchorName text) : Nameable alphabet classes text := by
  have hascii := isAscii_of_isAnchorName h
  obtain ⟨first, rest, rfl, hfirst, -⟩ := h
  have hletter := Payload.isAsciiLetter_iff.mpr hfirst
  refine ⟨fun c hc halpha => ?_, fun c hc => ?_⟩
  · rw [alphabet.isAlphanumeric_ascii c (hascii c hc)] at halpha
    exact hsuits.holds_of_ascii halpha
  · have halpha : alphabet.isAlphanumeric first = true := by
      rw [alphabet.isAlphanumeric_ascii first (hascii first List.mem_cons_self), hletter,
        Bool.true_or]
    rw [List.find?_cons_of_pos halpha, Option.some_inj] at hc
    exact .inr (.inl (hc ▸ hsuits.begins_of_isAsciiLetter hletter))

/-- The anchor of a schema that a tree denotes has passed the check of anchors. -/
theorem isAnchorName_of_anchor? {engines : Engines} {node : Node} {schema : Schema} {name : String}
    (h : Schema.Denotes engines node schema) (hanchor : schema.anchor? = some name) :
    IsAnchorName name.toList := by
  obtain ⟨⟨keyword, span⟩, hmem, hlocated⟩ := List.exists_of_findSome?_eq_some hanchor
  have hsound := (Schema.sound_of_denotes node schema h).values _ hmem
  cases keyword with
  | text k text =>
    cases k with
    | anchor =>
      cases hlocated
      exact hsound
    | _ => cases hlocated
  | _ => cases hlocated

/-- **The name of a definition can be used iff the schema has an anchor or the root name is
    nameable.** It never begins with a small ASCII letter, so it is not one of the bindings of the
    imports. -/
theorem exportName_usable_iff (engines : Engines) (alphabet : Alphabet)
    (classes : IdentifierClasses) (hsuits : classes.Suits alphabet) (node : Node) (schema : Schema)
    (h : (Schema.ofNode engines node).result = .ok schema) (rootName : String) :
    (classes.isIdentifier (Definition.ofSchema alphabet schema rootName).name.toList = true ↔
      schema.anchor? ≠ none ∨ Nameable alphabet classes rootName.toList) ∧
    (∀ c, (Definition.ofSchema alphabet schema rootName).name.toList.head? = some c →
      isAsciiLower c = false) ∧
    (Definition.ofSchema alphabet schema rootName).name ≠ "ss" ∧
    (Definition.ofSchema alphabet schema rootName).name ≠ "std" := by
  have hname : (Definition.ofSchema alphabet schema rootName).name.toList =
      pascalCase alphabet (schema.anchor?.getD rootName).toList := by
    rw [Definition.ofSchema, String.toList_ofList]
  have hhead : ∀ c, (Definition.ofSchema alphabet schema rootName).name.toList.head? = some c →
      isAsciiLower c = false := by
    rw [hname]
    exact fun c => head?_pascalCase hsuits
  refine ⟨?_, hhead, fun heq => ?_, fun heq => ?_⟩
  · rw [hname, isIdentifier_pascalCase_iff hsuits]
    cases hanchor : schema.anchor? with
    | none => exact ⟨.inr, fun h => h.resolve_left fun hne => hne rfl⟩
    | some name =>
      refine iff_of_true ?_ (.inl (Option.some_ne_none name))
      exact nameable_of_isAnchorName hsuits (isAnchorName_of_anchor? h hanchor)
  · have hsmall := hhead 's' (by rw [heq]; rfl)
    exact absurd hsmall (by decide)
  · have hsmall := hhead 's' (by rw [heq]; rfl)
    exact absurd hsmall (by decide)

/-- A capital of two letters, a word that begins with a digit, and a letter of another script. -/
theorem nameable_gross : Nameable .tabulated .tabulated "ßß-2я".toList := by
  have hparts : ("ßß-2я".toList.all fun c => decide
      (Alphabet.tabulated.isAlphanumeric c = true →
        IdentifierClasses.tabulated.holds c = true)) = true := by decide +kernel
  refine ⟨fun c hc => of_decide_eq_true (List.all_eq_true.mp hparts c hc), fun c hc => ?_⟩
  have hfirst : "ßß-2я".toList.find? Alphabet.tabulated.isAlphanumeric = some 'ß' := by
    decide +kernel
  rw [hfirst, Option.some_inj] at hc
  subst hc
  exact .inr (.inl (by decide +kernel))

theorem exportName_usable_gross :
    (Schema.ofNode .standard (.boolean true ⟨0, 4⟩)).result = .ok (.always ⟨0, 4⟩) ∧
      (Definition.ofSchema .tabulated (.always ⟨0, 4⟩) "ßß-2я").name = "SSß_2я" ∧
      IdentifierClasses.tabulated.isIdentifier
        (Definition.ofSchema .tabulated (.always ⟨0, 4⟩) "ßß-2я").name.toList = true := by
  have hnode : (Schema.ofNode .standard (.boolean true ⟨0, 4⟩)).result = .ok (.always ⟨0, 4⟩) := rfl
  have husable := exportName_usable_iff .standard .tabulated .tabulated suits_tabulated _ _ hnode
    "ßß-2я"
  exact ⟨hnode, by decide +kernel, husable.1.mpr (.inr nameable_gross)⟩

/-- The names of a superscript, of a digit beyond ASCII and of a letter in a circle are no
    identifiers. -/
theorem unusable_names :
    (Schema.ofNode .standard (.boolean true ⟨0, 4⟩)).result = .ok (.always ⟨0, 4⟩) ∧
      ((Definition.ofSchema .tabulated (.always ⟨0, 4⟩) "x²").name = "X²" ∧
        IdentifierClasses.tabulated.isIdentifier "X²".toList = false) ∧
      ((Definition.ofSchema .tabulated (.always ⟨0, 4⟩) "٣").name = "٣" ∧
        IdentifierClasses.tabulated.isIdentifier "٣".toList = false) ∧
      ((Definition.ofSchema .tabulated (.always ⟨0, 4⟩) "ⓐ").name = "Ⓐ" ∧
        IdentifierClasses.tabulated.isIdentifier "Ⓐ".toList = false) := by
  refine ⟨rfl, ⟨?_, ?_⟩, ⟨?_, ?_⟩, ⟨?_, ?_⟩⟩ <;> decide +kernel

end SchemaCompiler
