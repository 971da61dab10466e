/-
  File:      SchemaCompiler/Proofs/Expr/SinglePass.lean
  Subject:   Branches, words and quoted names, each gathered in one pass.

  The branches of a schema are defined by what the first keyword of each kind says, and the words of
  a text by looking one character ahead. Both can be had in one pass that carries a state and looks
  at nothing twice. For each pass there is what one turn does to the state, and from it by induction
  what the whole pass gathers:

  * `Branch.string_eq_build`, `Branch.number_eq_build` -- slots that are filled if they are empty
    (`foldl_fills`);
  * `Branch.object_eq_build` -- slots that are overwritten, by the keywords whose kind has not been
    seen before (`foldl_overwrites`);
  * `wordsOf_eq_scan` -- the word so far and the character before it goes on;
  * `Render.singleQuoted_eq_replaced` -- two replacements, one after the other.
-/
import SchemaCompiler.Expr.OfSchema
import SchemaCompiler.Expr.Render

namespace SchemaCompiler

/-! ## 1. Slots -/

/-- A search that gives what the first element has that has something. -/
structure FindsFirst {κ α : Type} (find : List κ → Option α) : Prop where
  nil : find [] = none
  cons : ∀ k ks, find (k :: ks) = (find [k]).or (find ks)

section Slots

variable {κ α β τ : Type} {find : List κ → Option α}

theorem findsFirst_findSome? (f : κ → Option α) : FindsFirst (List.findSome? f) where
  nil := rfl
  cons k ks := (List.findSome?_append : ([k] ++ ks).findSome? f = _)

theorem FindsFirst.map (h : FindsFirst find) (f : α → β) :
    FindsFirst fun ks => (find ks).map f where
  nil := by rw [h.nil, Option.map_none]
  cons k ks := by
    rw [h.cons]
    cases find [k] <;> rfl

/-- **A slot that is filled if it is empty** holds the first find in the end, or what it held. -/
theorem foldl_fills (hfind : FindsFirst find) {turn : τ → κ → τ} (slot : τ → Option α)
    (hturn : ∀ s k, slot (turn s k) = (slot s).or (find [k])) (ks : List κ) (s : τ) :
    slot (ks.foldl turn s) = (slot s).or (find ks) := by
  induction ks generalizing s with
  | nil => rw [List.foldl_nil, hfind.nil, Option.or_none]
  | cons k ks ih => rw [List.foldl_cons, ih, hturn, hfind.cons k ks, Option.or_assoc]

/-- One turn of a pass that skips the kinds it has seen. -/
def unlessSeen {σ : Type} (assign : τ → Keyword σ → τ) (state : List KeywordKind × τ)
    (keyword : Keyword σ) : List KeywordKind × τ :=
  if keyword.kind ∈ state.1 then state else (keyword.kind :: state.1, assign state.2 keyword)

/-- **A slot that is overwritten, but by unseen kinds only**, holds the first find in the end, or
    what it held. -/
theorem foldl_overwrites {σ : Type} {find : List (Keyword σ) → Option α} (hfind : FindsFirst find)
    {kind : KeywordKind} (hkind : ∀ keyword, (find [keyword]).isSome ↔ keyword.kind = kind)
    {assign : τ → Keyword σ → τ} (slot : τ → α)
    (hassign : ∀ s keyword, slot (assign s keyword) = (find [keyword]).getD (slot s))
    (keywords : List (Keyword σ)) (seen : List KeywordKind) (s : τ) :
    slot (keywords.foldl (unlessSeen assign) (seen, s)).2 =
      if kind ∈ seen then slot s else (find keywords).getD (slot s) := by
  induction keywords generalizing seen s with
  | nil => rw [List.foldl_nil, hfind.nil, Option.getD_none, ite_self]
  | cons keyword rest ih =>
    have hnone : keyword.kind ≠ kind → find [keyword] = none := fun hne =>
      Option.not_isSome_iff_eq_none.mp fun h => hne ((hkind keyword).mp h)
    rw [List.foldl_cons, unlessSeen, hfind.cons]
    by_cases hseen : keyword.kind ∈ seen
    · rw [if_pos hseen, ih]
      split
      · rfl
      · rename_i hunseen
        rw [hnone fun h => hunseen (h ▸ hseen), Option.none_or]
    · rw [if_neg hseen, ih, hassign]
      by_cases hsame : keyword.kind = kind
      · obtain ⟨a, ha⟩ := Option.isSome_iff_exists.mp ((hkind keyword).mpr hsame)
        subst hsame
        rw [if_pos List.mem_cons_self, if_neg hseen, ha, Option.some_or, Option.getD_some]
      · have hmem : kind ∈ keyword.kind :: seen ↔ kind ∈ seen :=
          List.mem_cons.trans (or_iff_right fun h => hsame h.symm)
        simp only [hmem, hnone hsame, Option.none_or, Option.getD_none]

end Slots

namespace Branch

open Keywords

/-! ## 2. Strings -/

/-- What the strings of a schema are built from. -/
structure StringSlots where
  least : Option Nat
  most : Option Nat
  pattern : Option String

namespace StringSlots

/-- One keyword fills its slot, if that is empty. -/
def fill {σ : Type} (slots : StringSlots) : Keyword σ → StringSlots
  | .count .minLength n => if slots.least.isNone then { slots with least := some n } else slots
  | .count .maxLength n => if slots.most.isNone then { slots with most := some n } else slots
  | .text .pattern p => if slots.pattern.isNone then { slots with pattern := some p } else slots
  | _ => slots

/-- One pass over the keywords, from empty slots. -/
def gather {σ : Type} (keywords : List (Keyword σ)) : StringSlots :=
  keywords.foldl fill ⟨none, none, none⟩

/-- The branch of what was gathered. -/
def build (slots : StringSlots) : Call :=
  let sized :=
    if slots.least.isSome || slots.most.isSome then
      Call.refine .size (.nullary .string) [.ofCount? slots.least, .ofCount? slots.most]
    else .nullary .string
  refineBy slots.pattern (fun c p => c.refine .pattern [.regex p]) sized

theorem fill_eq {σ : Type} (slots : StringSlots) (keyword : Keyword σ) :
    slots.fill keyword =
      ⟨slots.least.or (count? .minLength [keyword]), slots.most.or (count? .maxLength [keyword]),
        slots.pattern.or (text? .pattern [keyword])⟩ := by
  obtain ⟨least, most, pattern⟩ := slots
  cases keyword with
  | count k n => cases k <;> cases least <;> cases most <;> cases pattern <;> rfl
  | text k p => cases k <;> cases least <;> cases most <;> cases pattern <;> rfl
  | _ => cases least <;> cases most <;> cases pattern <;> rfl

theorem gather_eq {σ : Type} (keywords : List (Keyword σ)) :
    gather keywords =
      ⟨count? .minLength keywords, count? .maxLength keywords, text? .pattern keywords⟩ := by
  have hcount (k : CountKeyword) : FindsFirst (κ := Keyword σ) (count? k) :=
    findsFirst_findSome? _
  have htext : FindsFirst (κ := Keyword σ) (text? .pattern) := findsFirst_findSome? _
  have hleast := foldl_fills (hcount .minLength) least
    (fun s k => congrArg least (fill_eq s k)) keywords ⟨none, none, none⟩
  have hmost := foldl_fills (hcount .maxLength) most
    (fun s k => congrArg most (fill_eq s k)) keywords ⟨none, none, none⟩
  have hpattern := foldl_fills htext pattern
    (fun s k => congrArg pattern (fill_eq s k)) keywords ⟨none, none, none⟩
  simp only [Option.none_or] at hleast hmost hpattern
  rw [← hleast, ← hmost, ← hpattern, gather]

end StringSlots

/-- **The strings are gathered in one pass.** -/
theorem string_eq_build (keywords : List (Keyword Call)) :
    string keywords = (StringSlots.gather keywords).build := by
  rw [StringSlots.gather_eq]
  rfl

/-! ## 3. Numbers -/

/-- What the numbers of a schema are built from. -/
structure NumberSlots where
  multipleOf : Option Number
  maximum : Option Number
  exclusiveMaximum : Option Number
  minimum : Option Number
  exclusiveMinimum : Option Number

namespace NumberSlots

/-- One keyword fills its slot with what the slot holds, or else with its own number. -/
def fill {σ : Type} (slots : NumberSlots) : Keyword σ → NumberSlots
  | .number .multipleOf n => { slots with multipleOf := some (slots.multipleOf.getD n) }
  | .number .maximum n => { slots with maximum := some (slots.maximum.getD n) }
  | .number .exclusiveMaximum n =>
    { slots with exclusiveMaximum := some (slots.exclusiveMaximum.getD n) }
  | .number .minimum n => { slots with minimum := some (slots.minimum.getD n) }
  | .number .exclusiveMinimum n =>
    { slots with exclusiveMinimum := some (slots.exclusiveMinimum.getD n) }
  | _ => slots

/-- One pass over the keywords, from empty slots. -/
def gather {σ : Type} (keywords : List (Keyword σ)) : NumberSlots :=
  keywords.foldl fill ⟨none, none, none, none, none⟩

/-- The branch of what was gathered. -/
def build (base : Func) (slots : NumberSlots) : Call :=
  Call.nullary base
    |> refineBy slots.multipleOf (fun c n => c.refine .multipleOf [.number n])
    |> refineBy slots.maximum (fun c n => c.refine .max [.number n])
    |> refineBy slots.exclusiveMaximum (fun c n => c.refine .max [.number n, exclusive])
    |> refineBy slots.minimum (fun c n => c.refine .min [.number n])
    |> refineBy slots.exclusiveMinimum (fun c n => c.refine .min [.number n, exclusive])

/-- The slot of a keyword. -/
def slot (slots : NumberSlots) : NumberKeyword → Option Number
  | .multipleOf => slots.multipleOf
  | .maximum => slots.maximum
  | .exclusiveMaximum => slots.exclusiveMaximum
  | .minimum => slots.minimum
  | .exclusiveMinimum => slots.exclusiveMinimum

theorem slot_fill {σ : Type} (k : NumberKeyword) (slots : NumberSlots) (keyword : Keyword σ) :
    (slots.fill keyword).slot k = (slots.slot k).or (number? k [keyword]) := by
  cases keyword with
  | number j n =>
    by_cases hj : j = k
    · subst hj
      cases j <;> simp [fill, slot, number?, Option.or_some]
    · cases j <;> cases k <;> simp_all [fill, slot, number?]
  | _ => simp [fill, number?]

theorem slot_gather {σ : Type} (k : NumberKeyword) (keywords : List (Keyword σ)) :
    (gather keywords).slot k = number? k keywords := by
  have hnumber : FindsFirst (κ := Keyword σ) (number? k) := findsFirst_findSome? _
  have hslot := foldl_fills hnumber (fun slots => slot slots k) (slot_fill k) keywords
    ⟨none, none, none, none, none⟩
  rw [gather, hslot]
  cases k <;> exact Option.none_or

end NumberSlots

/-- **The numbers are gathered in one pass.** -/
theorem number_eq_build (base : Func) (keywords : List (Keyword Call)) :
    number base keywords = (NumberSlots.gather keywords).build base := by
  simp only [number, ← NumberSlots.slot_gather]
  rfl

/-! ## 4. Objects -/

/-- What the objects of a schema are built from. -/
@[ext]
structure ObjectSlots where
  required : List String
  properties : List (Entry Call)
  patterns : Option (List (Entry Call))
  additional : Option Call
  names : Option Call
  dependencies : Option Value
  least : Option Nat
  most : Option Nat

namespace ObjectSlots

/-- One keyword overwrites its slot. -/
def assign (slots : ObjectSlots) : Keyword Call → ObjectSlots
  | .required names => { slots with required := names }
  | .entries .properties entries => { slots with properties := entries }
  | .entries .patternProperties entries => { slots with patterns := some entries }
  | .schema .additionalProperties sub => { slots with additional := some sub }
  | .schema .propertyNames sub => { slots with names := some sub }
  | .dependentRequired ds => { slots with dependencies := some (dependencyTable ds) }
  | .count .minProperties n => { slots with least := some n }
  | .count .maxProperties n => { slots with most := some n }
  | _ => slots

def empty : ObjectSlots := ⟨[], [], none, none, none, none, none, none⟩

/-- One pass over the keywords, with no kind seen and empty slots. -/
def gather (keywords : List (Keyword Call)) : ObjectSlots :=
  (keywords.foldl (unlessSeen assign) ([], empty)).2

/-- The branch of what was gathered. -/
def build (anyName : Call) (slots : ObjectSlots) : Call :=
  let c := shape slots.required slots.properties
    |> refineBy slots.least (fun c n => c.refine .minProperties [.number (.natural n)])
    |> refineBy slots.most (fun c n => c.refine .maxProperties [.number (.natural n)])
    |> refineBy slots.dependencies (fun c table => c.refine .dependentProperties [.json table])
    |> refineBy slots.names (fun c _ => ⟨.keys, [c.toArg, anyName.toArg]⟩)
  match surplusArms slots.required slots.properties slots.patterns slots.additional with
  | [] => c
  | arms => .intersection [c, .union arms]

theorem assign_eq (slots : ObjectSlots) (keyword : Keyword Call) :
    slots.assign keyword =
      { required := (required? [keyword]).getD slots.required
        properties := (entries? .properties [keyword]).getD slots.properties
        patterns := (entries? .patternProperties [keyword]).or slots.patterns
        additional := (schema? .additionalProperties [keyword]).or slots.additional
        names := (schema? .propertyNames [keyword]).or slots.names
        dependencies := ((dependencies? [keyword]).map dependencyTable).or slots.dependencies
        least := (count? .minProperties [keyword]).or slots.least
        most := (count? .maxProperties [keyword]).or slots.most } := by
  cases keyword with
  | entries k es => cases k <;> rfl
  | schema k sub => cases k <;> rfl
  | count k n => cases k <;> rfl
  | _ => rfl

section Gather

variable {α : Type} {find : List (Keyword Call) → Option α} {kind : KeywordKind}

/-- A slot with a default holds the first find, or the default. -/
theorem slot_gather (slot : ObjectSlots → α) (hfind : FindsFirst find)
    (hkind : ∀ keyword, (find [keyword]).isSome ↔ keyword.kind = kind)
    (hassign : ∀ s keyword, slot (assign s keyword) = (find [keyword]).getD (slot s))
    (keywords : List (Keyword Call)) :
    slot (gather keywords) = (find keywords).getD (slot empty) := by
  rw [gather, foldl_overwrites hfind hkind slot hassign, if_neg List.not_mem_nil]

/-- A slot without a default holds the first find, if there is one. -/
theorem slot?_gather (slot : ObjectSlots → Option α) (hempty : slot empty = none)
    (hfind : FindsFirst find)
    (hkind : ∀ keyword, (find [keyword]).isSome ↔ keyword.kind = kind)
    (hassign : ∀ s keyword, slot (assign s keyword) = (find [keyword]).or (slot s))
    (keywords : List (Keyword Call)) : slot (gather keywords) = find keywords := by
  have hslot := slot_gather slot (hfind.map some)
    (fun keyword => by rw [Option.isSome_map, hkind])
    (fun s keyword => by rw [hassign]; cases find [keyword] <;> rfl) keywords
  rw [hslot, hempty]
  cases find keywords <;> rfl

end Gather

theorem gather_eq (keywords : List (Keyword Call)) :
    gather keywords =
      { required := (required? keywords).getD []
        properties := (entries? .properties keywords).getD []
        patterns := entries? .patternProperties keywords
        additional := schema? .additionalProperties keywords
        names := schema? .propertyNames keywords
        dependencies := (dependencies? keywords).map dependencyTable
        least := count? .minProperties keywords
        most := count? .maxProperties keywords } := by
  have hentries (k : MapKeyword) (keyword : Keyword Call) :
      (entries? k [keyword]).isSome ↔ keyword.kind = .entries k := by
    cases keyword <;> simp [entries?, Keyword.kind]
  have hschema (k : SchemaKeyword) (keyword : Keyword Call) :
      (schema? k [keyword]).isSome ↔ keyword.kind = .schema k := by
    cases keyword <;> simp [schema?, Keyword.kind]
  have hcount (k : CountKeyword) (keyword : Keyword Call) :
      (count? k [keyword]).isSome ↔ keyword.kind = .count k := by
    cases keyword <;> simp [count?, Keyword.kind]
  have hrequired (keyword : Keyword Call) :
      (required? [keyword]).isSome ↔ keyword.kind = .required := by
    cases keyword <;> simp [required?, Keyword.kind]
  have hdependencies (keyword : Keyword Call) :
      (dependencies? [keyword]).isSome ↔ keyword.kind = .dependentRequired := by
    cases keyword <;> simp [dependencies?, Keyword.kind]
  refine ObjectSlots.ext ?_ ?_ ?_ ?_ ?_ ?_ ?_ ?_
  · exact slot_gather required (findsFirst_findSome? _) hrequired
      (fun s k => congrArg required (assign_eq s k)) keywords
  · exact slot_gather properties (findsFirst_findSome? _) (hentries .properties)
      (fun s k => congrArg properties (assign_eq s k)) keywords
  · exact slot?_gather patterns rfl (findsFirst_findSome? _) (hentries .patternProperties)
      (fun s k => congrArg patterns (assign_eq s k)) keywords
  · exact slot?_gather additional rfl (findsFirst_findSome? _) (hschema .additionalProperties)
      (fun s k => congrArg additional (assign_eq s k)) keywords
  · exact slot?_gather names rfl (findsFirst_findSome? _) (hschema .propertyNames)
      (fun s k => congrArg names (assign_eq s k)) keywords
  · exact slot?_gather dependencies rfl ((findsFirst_findSome? _).map dependencyTable)
      (fun keyword => by rw [Option.isSome_map]; exact hdependencies keyword)
      (fun s k => congrArg dependencies (assign_eq s k)) keywords
  · exact slot?_gather least rfl (findsFirst_findSome? _) (hcount .minProperties)
      (fun s k => congrArg least (assign_eq s k)) keywords
  · exact slot?_gather most rfl (findsFirst_findSome? _) (hcount .maxProperties)
      (fun s k => congrArg most (assign_eq s k)) keywords

end ObjectSlots

theorem refineBy_map {α β : Type} (value? : Option α) (f : α → β) (refine : Call → β → Call)
    (c : Call) :
    refineBy (value?.map f) refine c = refineBy value? (fun c a => refine c (f a)) c := by
  cases value? <;> rfl

/-- **The objects are gathered in one pass.** -/
theorem object_eq_build (anyName : Call) (keywords : List (Keyword Call)) :
    object anyName keywords = (ObjectSlots.gather keywords).build anyName := by
  rw [ObjectSlots.gather_eq, ObjectSlots.build, refineBy_map]
  rfl

end Branch

/-! ## 5. Words -/

/-- The words that are complete, the word so far, and the character before if it is in a word. -/
structure WordScan where
  words : List (List Char)
  current : List Char
  previous : Option Char

section Words

variable (alphabet : Alphabet)

namespace WordScan

/-- The word so far ends here. -/
def close (s : WordScan) : List (List Char) :=
  if s.current.isEmpty then s.words else s.words ++ [s.current]

/-- A small letter is followed by a capital. -/
def atBoundary (s : WordScan) (c : Char) : Bool :=
  s.previous.any fun p => alphabet.isLowercase p && alphabet.isUppercase c

/-- One character more. -/
def next (s : WordScan) (c : Char) : WordScan :=
  if !alphabet.isAlphanumeric c then ⟨s.close, [], none⟩
  else if s.atBoundary alphabet c && !s.current.isEmpty then ⟨s.words ++ [s.current], [c], some c⟩
  else ⟨s.words, s.current ++ [c], some c⟩

end WordScan

/-- A word, or the beginning of one, and its last character. -/
inductive WordRun : List Char → Char → Prop
  | single {c : Char} : alphabet.isAlphanumeric c = true → WordRun [c] c
  | longer {word : List Char} {p c : Char} : WordRun word p → wordGoesOn alphabet p [c] = true →
      WordRun (word ++ [c]) c

/-- Puts a word in front of others, as the beginning of the first of them if it goes on. -/
def resume (word : List Char) : Bool → List (List Char) → List (List Char)
  | true, first :: words => (word ++ first) :: words
  | _, words => word :: words

variable {alphabet}

theorem resume_true_resume (word : List Char) (c : Char) (goesOn : Bool)
    (words : List (List Char)) :
    resume word true (resume [c] goesOn words) = resume (word ++ [c]) goesOn words := by
  cases goesOn <;> cases words <;> simp [resume]

theorem wordsOf_cons_eq_resume {c : Char} (h : alphabet.isAlphanumeric c = true)
    (rest : List Char) :
    wordsOf alphabet (c :: rest) =
      resume [c] (wordGoesOn alphabet c rest) (wordsOf alphabet rest) := by
  rw [wordsOf, if_pos h]
  cases wordGoesOn alphabet c rest <;> cases wordsOf alphabet rest <;> rfl

theorem isAlphanumeric_of_wordGoesOn {p c : Char} (h : wordGoesOn alphabet p [c] = true) :
    alphabet.isAlphanumeric c = true := by
  simp only [wordGoesOn, Bool.and_eq_true] at h
  exact h.1

/-- A word that is read is one of the words, as far as it goes. -/
theorem WordRun.wordsOf_append {word : List Char} {p : Char} (h : WordRun alphabet word p)
    (rest : List Char) :
    wordsOf alphabet (word ++ rest) =
      resume word (wordGoesOn alphabet p rest) (wordsOf alphabet rest) := by
  induction h generalizing rest with
  | single hc => exact wordsOf_cons_eq_resume hc rest
  | @longer word p c _ hgoesOn ih =>
    have hcons : wordGoesOn alphabet p (c :: rest) = true := hgoesOn
    rw [List.append_assoc, List.singleton_append, ih, hcons,
      wordsOf_cons_eq_resume (isAlphanumeric_of_wordGoesOn hgoesOn), resume_true_resume]

theorem WordRun.isEmpty_eq {word : List Char} {p : Char} (h : WordRun alphabet word p) :
    word.isEmpty = false := by
  cases h with
  | single => rfl
  | longer => simp

namespace WordScan

variable (alphabet) in
/-- The word so far is one, and the character before is its last. -/
inductive Sound : WordScan → Prop
  | between {words : List (List Char)} : Sound ⟨words, [], none⟩
  | inside {words : List (List Char)} {word : List Char} {p : Char} :
      WordRun alphabet word p → Sound ⟨words, word, some p⟩

variable (alphabet) in
/-- The words that a scan will have found at the end of a text. -/
def found (s : WordScan) (rest : List Char) : List (List Char) :=
  s.words ++ wordsOf alphabet (s.current ++ rest)

/-- Where the word so far does not go on, it is the next of the words. -/
theorem Sound.found_eq {s : WordScan} (h : s.Sound alphabet) {rest : List Char}
    (hend : ∀ p ∈ s.previous, wordGoesOn alphabet p rest = false) :
    s.found alphabet rest = s.close ++ wordsOf alphabet rest := by
  cases h with
  | between => rfl
  | @inside words word p hrun =>
    have hclose : close ⟨words, word, some p⟩ = words ++ [word] := by
      simp only [close, hrun.isEmpty_eq, Bool.false_eq_true, if_false]
    rw [hclose, found, hrun.wordsOf_append, hend p rfl, resume, List.append_assoc,
      List.singleton_append]
    exact fun _ _ h => absurd h Bool.false_ne_true

/-- **One character more leaves the words that will have been found.** -/
theorem Sound.next {s : WordScan} (h : s.Sound alphabet) (c : Char) (rest : List Char) :
    (s.next alphabet c).Sound alphabet ∧
      (s.next alphabet c).found alphabet rest = s.found alphabet (c :: rest) := by
  unfold WordScan.next
  cases hc : alphabet.isAlphanumeric c with
  | false =>
    rw [if_pos (by rfl)]
    refine ⟨.between, ?_⟩
    have hend : ∀ p ∈ s.previous, wordGoesOn alphabet p (c :: rest) = false :=
      fun p _ => by rw [wordGoesOn, hc, Bool.false_and]
    rw [h.found_eq hend, wordsOf, if_neg (by rw [hc]; exact Bool.false_ne_true)]
    rfl
  | true =>
    rw [if_neg (by decide)]
    split
    · rename_i hboundary
      obtain ⟨hboundary, hcurrent⟩ := Bool.and_eq_true_iff.mp hboundary
      refine ⟨.inside (.single hc), ?_⟩
      have hend : ∀ p ∈ s.previous, wordGoesOn alphabet p (c :: rest) = false := by
        intro p hp
        rw [atBoundary, Option.mem_def.mp hp, Option.any_some] at hboundary
        rw [wordGoesOn, hboundary, Bool.not_true, Bool.and_false]
      have hclose : s.close = s.words ++ [s.current] := by
        rw [close, if_neg (by simpa using hcurrent)]
      rw [h.found_eq hend, hclose]
      rfl
    · rename_i hinside
      refine ⟨?_, by rw [found, found, List.append_assoc, List.singleton_append]⟩
      cases h with
      | between => exact .inside (.single hc)
      | @inside words word p hrun =>
        refine .inside (.longer hrun ?_)
        have hgoesOn : (alphabet.isLowercase p && alphabet.isUppercase c) = false := by
          rw [hrun.isEmpty_eq, Bool.not_false, Bool.and_true] at hinside
          exact Bool.eq_false_iff.mpr hinside
        rw [wordGoesOn, hc, hgoesOn]
        rfl

theorem Sound.close_foldl {s : WordScan} (h : s.Sound alphabet) (text : List Char) :
    (text.foldl (WordScan.next alphabet) s).close = s.found alphabet text := by
  induction text generalizing s with
  | nil => rw [List.foldl_nil, h.found_eq fun _ _ => rfl, wordsOf, List.append_nil]
  | cons c rest ih =>
    obtain ⟨hsound, hfound⟩ := h.next c rest
    rw [List.foldl_cons, ih hsound, hfound]

end WordScan

/-- **The words of a text are found in one pass.** -/
theorem wordsOf_eq_scan (text : List Char) :
    wordsOf alphabet text = (text.foldl (WordScan.next alphabet) ⟨[], [], none⟩).close := by
  have hstart : WordScan.Sound alphabet ⟨[], [], none⟩ := .between
  rw [hstart.close_foldl]
  rfl

end Words

/-! ## 6. Quoted names -/

/-- A text with every occurrence of a character replaced. -/
def replaced (old : Char) (new : List Char) (text : List Char) : List Char :=
  text.flatMap fun c => if c = old then new else [c]

/-- **A name is quoted by two replacements**: backslashes first, so that those before a quote stay
    as they are. -/
theorem Render.singleQuoted_eq_replaced (text : List Char) :
    singleQuoted text =
      '\'' :: replaced '\'' ['\\', '\''] (replaced '\\' ['\\', '\\'] text) ++ ['\''] := by
  have hchar : ∀ c : Char, (if c = '\\' || c = '\'' then ['\\', c] else [c]) =
      replaced '\'' ['\\', '\''] (if c = '\\' then ['\\', '\\'] else [c]) := by
    intro c
    by_cases hbackslash : c = '\\'
    · subst hbackslash
      rfl
    · by_cases hquote : c = '\''
      · subst hquote
        rfl
      · simp [replaced, hbackslash, hquote]
  rw [singleQuoted, replaced, replaced, List.flatMap_assoc]
  simp only [hchar, replaced]

end SchemaCompiler
