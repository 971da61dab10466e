/-
  File:      SchemaCompiler/Proofs/Schema/Members.lean
  Subject:   What a member of a schema object becomes.

  Each reader of a value gets one statement: when it gives a value, and which. Together they say
  which keyword the tree under a name tells (`Payload.Tells`), and so what a whole member becomes
  (**`partOf_eq_ok_iff`**). Numbers are compared by their exact value, texts by rules that are
  stated on the characters.

  `Tells` is generic in the relation between a tree and the schema it stands for: the statements
  about a member do not depend on how its sub-schemas are read.
-/
import Mathlib.Tactic.Linarith
import Mathlib.Tactic.Positivity
import SchemaCompiler.Proofs.Schema.Readings
import SchemaCompiler.Proofs.Schema.Validity
import SchemaCompiler.Proofs.Text.Runs

namespace SchemaCompiler

open Checked

variable {engines : Engines}

/-! ## 1. Names -/

/-- A name is looked up in the table of all kinds; no two kinds have one name. -/
theorem KeywordKind.ofName?_eq_some_iff {name : String} {kind : KeywordKind} :
    KeywordKind.ofName? name = some kind ↔ kind.name = name := by
  constructor
  · intro h
    have hname := List.find?_some h
    exact of_decide_eq_true hname
  · intro h
    subst h
    cases kind with
    | types | enum | required | dependentRequired => rfl
    | _ k => cases k <;> rfl

theorem KeywordKind.eq_of_name_eq {kind kind' : KeywordKind} (h : kind.name = kind'.name) :
    kind = kind' := by
  have hkind := KeywordKind.ofName?_eq_some_iff.mpr h
  rw [KeywordKind.ofName?_eq_some_iff.mpr rfl] at hkind
  exact (Option.some.inj hkind).symm

theorem PrimitiveType.ofName?_eq_some_iff {name : String} {type : PrimitiveType} :
    PrimitiveType.ofName? name = some type ↔ type.name = name := by
  constructor
  · intro h
    have hname := List.find?_some h
    exact of_decide_eq_true hname
  · intro h
    subst h
    cases type <;> rfl

/-! ## 2. Numbers -/

namespace Double

theorem denominator_pos (d : Double) : 0 < d.denominator := Nat.two_pow_pos _

theorem numerator_eq_zero_iff {d : Double} : d.numerator = 0 ↔ d.mantissa = 0 := by
  have hpower : twoPow d.exponent.toNat ≠ 0 := (Nat.two_pow_pos _).ne'
  rw [numerator, Nat.mul_eq_zero]
  exact or_iff_left hpower

/-- A double above zero has no sign, and its mantissa is not zero. -/
theorem isPositive_iff {d : Double} : d.isPositive = true ↔ 0 < d.value := by
  have hdenominator : (0 : ℚ) < d.denominator := Nat.cast_pos.mpr d.denominator_pos
  have hmagnitude : 0 < (d.numerator : ℚ) / d.denominator ↔ d.mantissa ≠ 0 := by
    rw [div_pos_iff_of_pos_right hdenominator, Nat.cast_pos, Nat.pos_iff_ne_zero, Ne,
      numerator_eq_zero_iff]
  have hnonneg : 0 ≤ (d.numerator : ℚ) / d.denominator := by positivity
  unfold isPositive value
  cases d.negative with
  | false => simpa using hmagnitude.symm
  | true => simpa using hnonneg

/-- A double is whole if the denominator divides the numerator. -/
theorem wholeMagnitude?_eq_some_iff {d : Double} {n : Nat} :
    d.wholeMagnitude? = some n ↔ (d.numerator : ℚ) / d.denominator = n := by
  have hdenominator : (d.denominator : ℚ) ≠ 0 := Nat.cast_ne_zero.mpr d.denominator_pos.ne'
  rw [div_eq_iff hdenominator, ← Nat.cast_mul, Nat.cast_inj]
  unfold wholeMagnitude?
  constructor
  · intro h
    split at h
    · next hwhole =>
      rw [← Option.some.inj h]
      exact (Nat.div_mul_cancel (Nat.dvd_of_mod_eq_zero hwhole)).symm
    · cases h
  · intro h
    rw [h, Nat.mul_mod_left, if_pos rfl, Nat.mul_div_cancel n d.denominator_pos]

/-- A double is a count iff its exact value is one; the sign of zero does not matter. -/
theorem toNat?_eq_some_iff {d : Double} {n : Nat} : d.toNat? = some n ↔ d.value = n := by
  have hmagnitude : ∀ m : Nat, d.wholeMagnitude? = some m ↔
      (d.numerator : ℚ) / d.denominator = m := fun _ => wholeMagnitude?_eq_some_iff
  have hnonneg : 0 ≤ (d.numerator : ℚ) / d.denominator := by positivity
  unfold toNat? value
  generalize (d.numerator : ℚ) / d.denominator = q at hmagnitude hnonneg
  cases d.negative with
  | false =>
    have hsign : (if false = true then -1 else 1) * q = q := by simp
    rw [hsign, ← hmagnitude n]
    cases d.wholeMagnitude? <;> simp
  | true =>
    have hsign : (if true = true then -1 else 1) * q = -q := by simp
    rw [hsign]
    constructor
    · intro h
      split at h
      · next m hwhole =>
        split at h
        · cases h
        · next hzero =>
          have hm : m = 0 := by
            by_contra hne
            exact hzero ⟨rfl, hne⟩
          subst hm
          rw [← Option.some.inj h, (hmagnitude 0).mp hwhole, Nat.cast_zero, neg_zero]
      · cases h
    · intro h
      -- A magnitude whose negation is a count is zero, and so is the count.
      have hn : (0 : ℚ) ≤ n := Nat.cast_nonneg n
      have hzero : q = 0 := by linarith
      have hcount : n = 0 := by
        rw [hzero, neg_zero] at h
        exact Nat.cast_eq_zero.mp h.symm
      have hwhole : d.wholeMagnitude? = some 0 := by
        rw [hmagnitude 0, hzero, Nat.cast_zero]
      rw [hwhole, hcount]
      rfl

end Double

/-- The same for every representation of a number. -/
theorem Number.isPositive_iff {n : Number} : n.isPositive = true ↔ 0 < n.value := by
  cases n with
  | natural n => simp [Number.isPositive, Number.value, Nat.pos_iff_ne_zero]
  | negative n => simp [Number.isPositive, Number.value]
  | double d => exact Double.isPositive_iff

/-- A number is a count by its value, however it is represented. -/
theorem Number.toNat?_eq_some_iff {n : Number} {count : Nat} :
    n.toNat? = some count ↔ n.value = count := by
  cases n with
  | natural n => simp [Number.toNat?, Number.value]
  | negative n =>
    have hn : (0 : ℚ) ≤ n := Nat.cast_nonneg n
    have hcount : (0 : ℚ) ≤ count := Nat.cast_nonneg count
    show (if n = 0 then some 0 else none) = some count ↔ -(n : ℚ) = count
    constructor
    · intro h
      split at h
      · next hzero =>
        rw [← Option.some.inj h, hzero, Nat.cast_zero, neg_zero]
      · cases h
    · intro h
      have hzero : n = 0 := Nat.cast_eq_zero.mp (by linarith : (n : ℚ) = 0)
      have hcount : count = 0 := Nat.cast_eq_zero.mp (by linarith : (count : ℚ) = 0)
      rw [if_pos hzero, hcount]
  | double d => exact Double.toNat?_eq_some_iff

namespace Payload

/-- **A number is a count iff its exact value is a whole number within the safe range.** -/
theorem countOf?_eq_some_iff {n : Number} {count : Nat} :
    countOf? n = some count ↔ n.value = count ∧ count ≤ maxSafeInteger := by
  rw [countOf?, Option.filter_eq_some_iff, Number.toNat?_eq_some_iff, decide_eq_true_iff]

end Payload

/-! ## 3. Texts -/

/-- A letter of ASCII. -/
def IsLetter (c : Char) : Prop := ('A' ≤ c ∧ c ≤ 'Z') ∨ ('a' ≤ c ∧ c ≤ 'z')

/-- The names of anchors, `[A-Za-z][-_.0-9a-zA-Z]*`. -/
def IsAnchorName (text : List Char) : Prop :=
  ∃ first rest, text = first :: rest ∧ IsLetter first ∧
    ∀ c ∈ rest, c = '-' ∨ c = '_' ∨ c = '.' ∨ ('0' ≤ c ∧ c ≤ '9') ∨ IsLetter c

/-- The text ends in an even run of backslashes, maybe an empty one. -/
def EndsUnescaped (text : List Char) : Prop :=
  ∃ front n, text = front ++ List.replicate (2 * n) '\\' ∧ front.getLast? ≠ some '\\'

/-- What a text keyword asks of its text. -/
def TextKeyword.Permits (engines : Engines) (text : String) : TextKeyword → Prop
  | .id => ∃ fragment, engines.uriFragment? text = some fragment ∧
      (fragment = none ∨ fragment = some "")
  | .ref | .dynamicRef => engines.isReference text = true
  | .anchor | .dynamicAnchor => IsAnchorName text.toList
  | .pattern => EndsUnescaped text.toList
  | .comment | .title | .description => True

namespace Payload

theorem isAsciiLetter_iff {c : Char} : isAsciiLetter c = true ↔ IsLetter c := by
  unfold isAsciiLetter isAsciiLower isAsciiUpper IsLetter
  simp only [Bool.or_eq_true, Bool.and_eq_true, decide_eq_true_iff]
  exact or_comm

theorem isAnchor_iff {text : List Char} : isAnchor text = true ↔ IsAnchorName text := by
  have hchar : ∀ c, isAnchorChar c = true ↔
      c = '-' ∨ c = '_' ∨ c = '.' ∨ ('0' ≤ c ∧ c ≤ '9') ∨ IsLetter c := by
    intro c
    unfold isAnchorChar isDigit
    simp only [Bool.or_eq_true, Bool.and_eq_true, decide_eq_true_iff, isAsciiLetter_iff]
    tauto
  cases text with
  | nil => simp [isAnchor, IsAnchorName]
  | cons first rest =>
    unfold isAnchor IsAnchorName
    simp only [Bool.and_eq_true, List.all_eq_true, isAsciiLetter_iff, hchar, List.cons.injEq]
    constructor
    · intro h
      exact ⟨first, rest, ⟨rfl, rfl⟩, h⟩
    · intro h
      obtain ⟨_, _, ⟨rfl, rfl⟩, hname⟩ := h
      exact hname

/-- A run of backslashes after another character, or at the beginning, is counted as a whole. -/
theorem trailingBackslashes_append {front : List Char} (hfront : front.getLast? ≠ some '\\')
    (n : Nat) : trailingBackslashes (front ++ List.replicate n '\\') = n := by
  have hrun : ∀ c ∈ List.replicate n '\\', decide (c = '\\') = true :=
    fun c hc => decide_eq_true (List.eq_of_mem_replicate hc)
  have hstop : Stops (fun c => decide (c = '\\')) front.reverse := by
    intro c hc
    rw [List.head?_reverse] at hc
    exact decide_eq_false fun e => hfront (e ▸ hc)
  rw [trailingBackslashes, List.reverse_append, List.reverse_replicate, takeWhile_run hrun hstop,
    List.length_replicate]

/-- The backslashes at the end of a text are split off. -/
theorem exists_front (text : List Char) :
    ∃ front, text = front ++ List.replicate (trailingBackslashes text) '\\' ∧
      front.getLast? ≠ some '\\' := by
  let isBackslash : Char → Bool := fun c => decide (c = '\\')
  refine ⟨(text.reverse.dropWhile isBackslash).reverse, ?_, ?_⟩
  · have hrun : text.reverse.takeWhile isBackslash =
        List.replicate (trailingBackslashes text) '\\' := by
      refine List.eq_replicate_iff.mpr ⟨rfl, fun c hc => ?_⟩
      have hc := List.mem_takeWhile_imp hc
      exact of_decide_eq_true hc
    rw [← List.reverse_inj, List.reverse_append, List.reverse_reverse, List.reverse_replicate,
      ← hrun, List.takeWhile_append_dropWhile]
  · rw [List.getLast?_reverse]
    intro h
    have hhead := List.head?_dropWhile_not isBackslash text.reverse
    rw [h] at hhead
    exact absurd hhead (by decide)

/-- An even number of backslashes at the end escape one another. -/
theorem trailingBackslashes_even_iff {text : List Char} :
    trailingBackslashes text % 2 ≠ 1 ↔ EndsUnescaped text := by
  constructor
  · intro h
    obtain ⟨front, htext, hfront⟩ := exists_front text
    refine ⟨front, trailingBackslashes text / 2, ?_, hfront⟩
    have heven : 2 * (trailingBackslashes text / 2) = trailingBackslashes text := by omega
    rw [heven]
    exact htext
  · intro h
    obtain ⟨front, n, rfl, hfront⟩ := h
    rw [trailingBackslashes_append hfront]
    omega

/-- An identifier is accepted iff it is one and has no fragment but an empty one. -/
theorem checkId_eq_ok_iff {text : String} {span : Span} {a : Unit} :
    (checkId engines text span).result = .ok a ↔ TextKeyword.id.Permits engines text := by
  unfold checkId TextKeyword.Permits
  cases hfragment : engines.uriFragment? text with
  | none => simp [refuse_eq_ok_iff]
  | some fragment? =>
    cases fragment? with
    | none => simp [pure_eq_ok_iff]
    | some fragment =>
      simp only [Option.some.injEq, exists_eq_left', reduceCtorEq, false_or]
      split <;> simp [refuse_eq_ok_iff, warn_eq_ok_iff, *]

/-- A pattern is accepted iff it does not end within an escape, whatever the engine makes of it. -/
theorem checkPattern_eq_ok_iff {text : String} {span : Span} {a : Unit} :
    (checkPattern engines text span).result = .ok a ↔ EndsUnescaped text.toList := by
  rw [← trailingBackslashes_even_iff]
  unfold checkPattern
  split
  · next hodd => simp [refuse_eq_ok_iff, hodd]
  · next heven =>
    split <;> simp [warn_eq_ok_iff, pure_eq_ok_iff, heven]

/-- **A text passes iff its keyword permits it.** -/
theorem checkText_eq_ok_iff {k : TextKeyword} {text : String} {span : Span} {a : Unit} :
    (checkText engines k text span).result = .ok a ↔ k.Permits engines text := by
  have hreference : (checkReference engines text span).result = .ok a ↔
      engines.isReference text = true := by
    unfold checkReference
    split <;> simp [refuse_eq_ok_iff, pure_eq_ok_iff, *]
  have hanchor : (checkAnchor text span).result = .ok a ↔ IsAnchorName text.toList := by
    rw [← isAnchor_iff]
    unfold checkAnchor
    split <;> simp [refuse_eq_ok_iff, pure_eq_ok_iff, *]
  cases k with
  | id => exact checkId_eq_ok_iff
  | ref | dynamicRef => exact hreference
  | anchor | dynamicAnchor => exact hanchor
  | pattern => exact checkPattern_eq_ok_iff
  | comment | title | description => exact pure_eq_ok_iff.trans (iff_of_true rfl trivial)

/-! ## 4. Values by their kind -/

theorem readString_eq_ok_iff {keyword : KeywordKind} {node : Node} {text : String} :
    (readString keyword node).result = .ok text ↔ ∃ span, node = .string text span := by
  cases node <;> simp [readString, wrongKind, refuse_eq_ok_iff, pure_eq_ok_iff]

theorem readBoolean_eq_ok_iff {keyword : KeywordKind} {node : Node} {b : Bool} :
    (readBoolean keyword node).result = .ok b ↔ ∃ span, node = .boolean b span := by
  cases node <;> simp [readBoolean, wrongKind, refuse_eq_ok_iff, pure_eq_ok_iff]

theorem readNumber_eq_ok_iff {keyword : KeywordKind} {node : Node} {n : Number} :
    (readNumber keyword node).result = .ok n ↔ ∃ span, node = .number n span := by
  cases node <;> simp [readNumber, wrongKind, refuse_eq_ok_iff, pure_eq_ok_iff]

theorem readArray_eq_ok_iff {keyword : KeywordKind} {node : Node} {items : List Node} :
    (readArray keyword node).result = .ok items ↔ ∃ span, node = .array items span := by
  cases node <;> simp [readArray, wrongKind, refuse_eq_ok_iff, pure_eq_ok_iff]

theorem readObject_eq_ok_iff {keyword : KeywordKind} {node : Node}
    {members : List (Member Node)} :
    (readObject keyword node).result = .ok members ↔ ∃ span, node = .object members span := by
  cases node <;> simp [readObject, wrongKind, refuse_eq_ok_iff, pure_eq_ok_iff]

end Payload

/-! ## 5. The tree under a keyword -/

/-- The tree is a list of texts. -/
def Node.ListsTexts (node : Node) (texts : List String) : Prop :=
  ∃ items span, node = .array items span ∧ List.Forall₂ Node.IsText items texts

namespace Payload

/-- The entry that a member tells: its own key and span, and the schema of its value. -/
inductive EntryTold (R : Node → Schema → Prop) : Member Node → Entry Schema → Prop where
  | mk {key : String} {keySpan span : Span} {value : Node} {schema : Schema} :
      R value schema → EntryTold R ⟨key, keySpan, value, span⟩ ⟨key, schema, span⟩

/-- The dependency that a member tells; no name stands twice in it. -/
inductive DependencyTold : Member Node → Dependency → Prop where
  | mk {key : String} {keySpan span : Span} {value : Node} {names : List String} :
      value.ListsTexts names → names.Nodup →
      DependencyTold ⟨key, keySpan, value, span⟩ ⟨key, names, span⟩

/-- **Which keyword a tree tells**, where `R` relates a tree to the schema it stands for. What is no
    sub-schema is taken over as it stands; a count is the exact value of its number. -/
inductive Tells (engines : Engines) (R : Node → Schema → Prop) : Node → Keyword Schema → Prop where
  | text {k : TextKeyword} {text : String} {span : Span} :
      k.Permits engines text → Tells engines R (.string text span) (.text k text)
  | schema {k : SchemaKeyword} {node : Node} {schema : Schema} :
      R node schema → Tells engines R node (.schema k schema)
  | schemas {k : ListKeyword} {items : List Node} {span : Span} {schemas : List Schema} :
      List.Forall₂ R items schemas → Tells engines R (.array items span) (.schemas k schemas)
  | entries {k : MapKeyword} {members : List (Member Node)} {span : Span}
      {entries : List (Entry Schema)} :
      List.Forall₂ (EntryTold R) members entries →
      Tells engines R (.object members span) (.entries k entries)
  | type {type : PrimitiveType} {span : Span} :
      Tells engines R (.string type.name span) (.types [type])
  | types {items : List Node} {span : Span} {types : List PrimitiveType} :
      List.Forall₂ (fun item type => item.IsText (PrimitiveType.name type)) items types →
      Tells engines R (.array items span) (.types types)
  | enum {items : List Node} {span : Span} : Tells engines R (.array items span) (.enum items)
  | data {k : DataKeyword} {node : Node} : Tells engines R node (.data k node)
  | number {k : NumberKeyword} {n : Number} {span : Span} :
      (k = .multipleOf → 0 < n.value) → Tells engines R (.number n span) (.number k n)
  | count {k : CountKeyword} {n : Number} {span : Span} {count : Nat} :
      n.value = count → count ≤ maxSafeInteger → Tells engines R (.number n span) (.count k count)
  | flag {k : FlagKeyword} {b : Bool} {span : Span} : Tells engines R (.boolean b span) (.flag k b)
  | required {items : List Node} {span : Span} {names : List String} :
      List.Forall₂ Node.IsText items names → Tells engines R (.array items span) (.required names)
  | dependentRequired {members : List (Member Node)} {span : Span}
      {dependencies : List Dependency} :
      List.Forall₂ DependencyTold members dependencies →
      Tells engines R (.object members span) (.dependentRequired dependencies)

/-- A text is read off a string, and must be permitted. -/
theorem readText_eq_ok_iff {k : TextKeyword} {node : Node} {text : String} :
    (readText engines k node).result = .ok text ↔ node.IsText text ∧ k.Permits engines text := by
  simp only [readText, bind_eq_ok_iff, pure_eq_ok_iff, readString_eq_ok_iff, checkText_eq_ok_iff]
  constructor
  · intro h
    obtain ⟨text', htext, -, hpermits, rfl⟩ := h
    exact ⟨htext, hpermits⟩
  · intro h
    exact ⟨text, h.1, (), h.2, rfl⟩

theorem readType_eq_ok_iff {node : Node} {type : PrimitiveType} :
    (readType node).result = .ok type ↔ node.IsText type.name := by
  simp only [readType, bind_eq_ok_iff, readString_eq_ok_iff]
  constructor
  · intro h
    obtain ⟨name, htext, h⟩ := h
    split at h
    · next type' hname =>
      rw [pure_eq_ok_iff] at h
      subst h
      rw [PrimitiveType.ofName?_eq_some_iff.mp hname]
      exact htext
    · exact (refuse_eq_ok_iff.mp h).elim
  · intro h
    refine ⟨type.name, h, ?_⟩
    rw [PrimitiveType.ofName?_eq_some_iff.mpr rfl]
    exact pure_eq_ok_iff.mpr rfl

/-- One type or a list of types, each by its name. -/
theorem readTypes_eq_ok_iff {R : Node → Schema → Prop} {node : Node}
    {types : List PrimitiveType} :
    (readTypes node).result = .ok types ↔ Tells engines R node (.types types) := by
  have hsingle : (∃ type, (readType node).result = .ok type ∧ [type] = types) →
      Tells engines R node (.types types) := by
    intro h
    obtain ⟨type, htype, rfl⟩ := h
    obtain ⟨span, rfl⟩ := readType_eq_ok_iff.mp htype
    exact .type
  constructor
  · intro h
    unfold readTypes at h
    split at h
    · rw [mapM_eq_ok_iff] at h
      exact .types (h.imp fun _ _ => readType_eq_ok_iff.mp)
    · simp only [bind_eq_ok_iff, pure_eq_ok_iff] at h
      exact hsingle h
  · intro h
    cases h with
    | @type type span =>
      show (readType (.string type.name span) >>= fun type => pure [type]).result = .ok [type]
      simp only [bind_eq_ok_iff, pure_eq_ok_iff]
      exact ⟨type, readType_eq_ok_iff.mpr ⟨span, rfl⟩, rfl⟩
    | types hitems => exact mapM_eq_ok_iff.mpr (hitems.imp fun _ _ => readType_eq_ok_iff.mpr)

theorem readNames_eq_ok_iff {keyword : KeywordKind} {node : Node} {names : List String} :
    (readNames keyword node).result = .ok names ↔ node.ListsTexts names := by
  simp only [readNames, bind_eq_ok_iff, readArray_eq_ok_iff, mapM_eq_ok_iff, readString_eq_ok_iff]
  constructor
  · intro h
    obtain ⟨items, ⟨span, rfl⟩, hitems⟩ := h
    exact ⟨items, span, rfl, hitems⟩
  · intro h
    obtain ⟨items, span, rfl, hitems⟩ := h
    exact ⟨items, ⟨span, rfl⟩, hitems⟩

/-- The test for repeated names compares all pairs. -/
theorem areUnique_iff {names : List String} : areUnique names = true ↔ names.Nodup := by
  induction names with
  | nil => simp [areUnique]
  | cons name names ih => simp [areUnique, ih]

/-- A dependency lists names, none of them twice. -/
theorem readDependency_eq_ok_iff {m : Member Node} {d : Dependency} :
    (readDependency m).result = .ok d ↔ DependencyTold m d := by
  simp only [readDependency, bind_eq_ok_iff, readNames_eq_ok_iff]
  constructor
  · intro h
    obtain ⟨names, hnames, h⟩ := h
    split at h
    · next hunique =>
      rw [pure_eq_ok_iff] at h
      subst h
      exact .mk hnames (areUnique_iff.mp hunique)
    · exact (refuse_eq_ok_iff.mp h).elim
  · intro h
    obtain ⟨hnames, hunique⟩ := h
    refine ⟨_, hnames, ?_⟩
    rw [if_pos (areUnique_iff.mpr hunique)]
    exact pure_eq_ok_iff.mpr rfl

theorem readDependencies_eq_ok_iff {node : Node} {ds : List Dependency} :
    (readDependencies node).result = .ok ds ↔
      ∃ members span, node = .object members span ∧ List.Forall₂ DependencyTold members ds := by
  simp only [readDependencies, bind_eq_ok_iff, readObject_eq_ok_iff, mapM_eq_ok_iff,
    readDependency_eq_ok_iff]
  constructor
  · intro h
    obtain ⟨members, ⟨span, rfl⟩, hmembers⟩ := h
    exact ⟨members, span, rfl, hmembers⟩
  · intro h
    obtain ⟨members, span, rfl, hmembers⟩ := h
    exact ⟨members, ⟨span, rfl⟩, hmembers⟩

/-- A bound is any number; a divisor is above zero. -/
theorem readBound_eq_ok_iff {k : NumberKeyword} {node : Node} {n : Number} :
    (readBound k node).result = .ok n ↔
      ∃ span, node = .number n span ∧ (k = .multipleOf → 0 < n.value) := by
  have hrule : ∀ n : Number, (k = .multipleOf && !n.isPositive) = true ↔
      ¬ (k = .multipleOf → 0 < n.value) := by
    intro n
    rw [← Number.isPositive_iff]
    simp
  simp only [readBound, bind_eq_ok_iff, readNumber_eq_ok_iff, hrule]
  constructor
  · intro h
    obtain ⟨n', ⟨span, rfl⟩, h⟩ := h
    split at h
    · exact (refuse_eq_ok_iff.mp h).elim
    · next hpositive =>
      rw [pure_eq_ok_iff] at h
      subst h
      exact ⟨span, rfl, Classical.not_not.mp hpositive⟩
  · intro h
    obtain ⟨span, rfl, hpositive⟩ := h
    refine ⟨n, ⟨span, rfl⟩, ?_⟩
    rw [if_neg (Classical.not_not.mpr hpositive)]
    exact pure_eq_ok_iff.mpr rfl

/-- A count is a whole number up to the limit, by its value. -/
theorem readCount_eq_ok_iff {k : CountKeyword} {node : Node} {count : Nat} :
    (readCount k node).result = .ok count ↔
      ∃ n span, node = .number n span ∧ n.value = count ∧ count ≤ maxSafeInteger := by
  simp only [readCount, bind_eq_ok_iff, readNumber_eq_ok_iff, ← countOf?_eq_some_iff]
  constructor
  · intro h
    obtain ⟨n, ⟨span, rfl⟩, h⟩ := h
    split at h
    · next count' hcount =>
      rw [pure_eq_ok_iff] at h
      subst h
      exact ⟨n, span, rfl, hcount⟩
    · exact (refuse_eq_ok_iff.mp h).elim
  · intro h
    obtain ⟨n, span, rfl, hcount⟩ := h
    refine ⟨n, ⟨span, rfl⟩, ?_⟩
    rw [hcount]
    exact pure_eq_ok_iff.mpr rfl

/-- Of the directives only `$schema` asks for something, namely a text. -/
theorem readDirective_eq_ok_iff {d : Directive} {node : Node} {span : Span} {a : Unit} :
    (readDirective d node span).result = .ok a ↔ (d = .schema → ∃ text, node.IsText text) := by
  cases d with
  | schema =>
    simp only [readDirective, bind_eq_ok_iff, readString_eq_ok_iff, warn_eq_ok_iff]
    simp [Node.IsText]
  | vocabulary => simp [readDirective, warn_eq_ok_iff]

end Payload

/-! ## 6. Members -/

namespace Schema

open Payload

/-- A tree and the schema it denotes. -/
def Denotes (engines : Engines) (node : Node) (schema : Schema) : Prop :=
  (ofNode engines node).result = .ok schema

/-- What a member becomes: it is set aside if its name is not recognized or a directive, else it
    is the keyword of its name that its value tells. -/
inductive PartTold (engines : Engines) : Member Node → Part → Prop where
  | unknown {m : Member Node} :
      (∀ kind : KeywordKind, kind.name ≠ m.key) →
      PartTold engines m (.parked ⟨m.key, m.value, m.span, .unknown⟩)
  | directive {m : Member Node} {d : Directive} :
      (KeywordKind.directive d).name = m.key → (d = .schema → ∃ text, m.value.IsText text) →
      PartTold engines m (.parked ⟨m.key, m.value, m.span, .notYetSupported⟩)
  | keyword {m : Member Node} {keyword : Keyword Schema} :
      keyword.kind.name = m.key → Tells engines (Denotes engines) m.value keyword →
      PartTold engines m (.active ⟨keyword, some m.span⟩)

theorem readSchemas_eq_ok_iff {k : ListKeyword} {node : Node} {schemas : List Schema} :
    (readSchemas engines k node).result = .ok schemas ↔
      ∃ items span, node = .array items span ∧ List.Forall₂ (Denotes engines) items schemas := by
  cases node with
  | array items span =>
    rw [readSchemas, schemasOf_eq_mapM, mapM_eq_ok_iff]
    constructor
    · intro h
      exact ⟨items, span, rfl, h⟩
    · intro h
      obtain ⟨_, _, heq, h⟩ := h
      cases heq
      exact h
  | _ => simp [readSchemas, wrongKind, refuse_eq_ok_iff]

theorem readEntries_eq_ok_iff {k : MapKeyword} {node : Node} {entries : List (Entry Schema)} :
    (readEntries engines k node).result = .ok entries ↔
      ∃ members span, node = .object members span ∧
        List.Forall₂ (EntryTold (Denotes engines)) members entries := by
  have hentry : ∀ m e, (entryOf engines m).result = .ok e ↔ EntryTold (Denotes engines) m e := by
    intro m e
    simp only [entryOf, bind_eq_ok_iff, pure_eq_ok_iff]
    constructor
    · intro h
      obtain ⟨schema, hschema, rfl⟩ := h
      exact .mk hschema
    · intro h
      obtain ⟨hschema⟩ := h
      exact ⟨_, hschema, rfl⟩
  cases node with
  | object members span =>
    simp only [readEntries, entriesOf_eq_mapM, mapM_eq_ok_iff, hentry]
    constructor
    · intro h
      exact ⟨members, span, rfl, h⟩
    · intro h
      obtain ⟨_, _, heq, h⟩ := h
      cases heq
      exact h
  | _ => simp [readEntries, wrongKind, refuse_eq_ok_iff]

/-- A keyword gets the span of its member. -/
theorem placed_eq_ok_iff {α : Type} {x : Checked α} {make : α → Keyword Schema} {span : Span}
    {part : Part} :
    (x >>= fun a => pure (placed span (make a))).result = .ok part ↔
      ∃ a, x.result = .ok a ∧ .active ⟨make a, some span⟩ = part := by
  simp only [bind_eq_ok_iff, pure_eq_ok_iff]
  exact Iff.rfl

/-- What is read off a member is told by it. -/
theorem partTold_of_partOf {m : Member Node} {part : Part}
    (h : (partOf engines m).result = .ok part) :
    PartTold engines m part := by
  obtain ⟨key, keySpan, value, span⟩ := m
  rw [partOf] at h
  cases hname : KeywordKind.ofName? key with
  | none =>
    rw [hname] at h
    obtain ⟨_, -, h⟩ := bind_eq_ok_iff.mp h
    cases pure_eq_ok_iff.mp h
    refine .unknown fun kind hkind => ?_
    rw [KeywordKind.ofName?_eq_some_iff.mpr hkind] at hname
    cases hname
  | some kind =>
    have hkind : kind.name = key := KeywordKind.ofName?_eq_some_iff.mp hname
    rw [hname] at h
    cases kind with
    | directive d =>
      obtain ⟨_, hd, h⟩ := bind_eq_ok_iff.mp h
      cases pure_eq_ok_iff.mp h
      exact .directive hkind (readDirective_eq_ok_iff.mp hd)
    | text k =>
      obtain ⟨text, htext, rfl⟩ := placed_eq_ok_iff.mp h
      obtain ⟨⟨_, rfl⟩, hpermits⟩ := readText_eq_ok_iff.mp htext
      exact .keyword hkind (.text hpermits)
    | schema k =>
      obtain ⟨schema, hschema, rfl⟩ := placed_eq_ok_iff.mp h
      exact .keyword hkind (.schema hschema)
    | schemas k =>
      obtain ⟨schemas, hschemas, rfl⟩ := placed_eq_ok_iff.mp h
      obtain ⟨_, _, rfl, hitems⟩ := readSchemas_eq_ok_iff.mp hschemas
      exact .keyword hkind (.schemas hitems)
    | entries k =>
      obtain ⟨entries, hentries, rfl⟩ := placed_eq_ok_iff.mp h
      obtain ⟨_, _, rfl, hmembers⟩ := readEntries_eq_ok_iff.mp hentries
      exact .keyword hkind (.entries hmembers)
    | types =>
      obtain ⟨types, htypes, rfl⟩ := placed_eq_ok_iff.mp h
      exact .keyword hkind (readTypes_eq_ok_iff.mp htypes)
    | enum =>
      obtain ⟨items, hitems, rfl⟩ := placed_eq_ok_iff.mp h
      obtain ⟨_, rfl⟩ := readArray_eq_ok_iff.mp hitems
      exact .keyword hkind .enum
    | data k =>
      cases pure_eq_ok_iff.mp h
      exact .keyword hkind .data
    | number k =>
      obtain ⟨n, hn, rfl⟩ := placed_eq_ok_iff.mp h
      obtain ⟨_, rfl, hpositive⟩ := readBound_eq_ok_iff.mp hn
      exact .keyword hkind (.number hpositive)
    | count k =>
      obtain ⟨count, hcount, rfl⟩ := placed_eq_ok_iff.mp h
      obtain ⟨_, _, rfl, hvalue, hsafe⟩ := readCount_eq_ok_iff.mp hcount
      exact .keyword hkind (.count hvalue hsafe)
    | flag k =>
      obtain ⟨b, hb, rfl⟩ := placed_eq_ok_iff.mp h
      obtain ⟨_, rfl⟩ := readBoolean_eq_ok_iff.mp hb
      exact .keyword hkind .flag
    | required =>
      obtain ⟨names, hnames, rfl⟩ := placed_eq_ok_iff.mp h
      obtain ⟨_, _, rfl, hitems⟩ := readNames_eq_ok_iff.mp hnames
      exact .keyword hkind (.required hitems)
    | dependentRequired =>
      obtain ⟨ds, hds, rfl⟩ := placed_eq_ok_iff.mp h
      obtain ⟨_, _, rfl, hmembers⟩ := readDependencies_eq_ok_iff.mp hds
      exact .keyword hkind (.dependentRequired hmembers)

/-- What a member tells is read off it. -/
theorem partOf_of_partTold {m : Member Node} {part : Part} (h : PartTold engines m part) :
    (partOf engines m).result = .ok part := by
  obtain ⟨key, keySpan, value, span⟩ := m
  cases h with
  | unknown hname =>
    have hnone : KeywordKind.ofName? key = none :=
      Option.eq_none_iff_forall_ne_some.mpr fun kind h =>
        hname kind (KeywordKind.ofName?_eq_some_iff.mp h)
    rw [partOf, hnone]
    rfl
  | @directive d hname htext =>
    rw [partOf, KeywordKind.ofName?_eq_some_iff.mpr hname]
    exact bind_eq_ok_iff.mpr ⟨(), readDirective_eq_ok_iff.mpr htext, rfl⟩
  | @keyword keyword hname htells =>
    rw [partOf, KeywordKind.ofName?_eq_some_iff.mpr hname]
    cases htells with
    | text hpermits =>
      exact placed_eq_ok_iff.mpr ⟨_, readText_eq_ok_iff.mpr ⟨⟨_, rfl⟩, hpermits⟩, rfl⟩
    | schema hschema => exact placed_eq_ok_iff.mpr ⟨_, hschema, rfl⟩
    | schemas hitems =>
      exact placed_eq_ok_iff.mpr ⟨_, readSchemas_eq_ok_iff.mpr ⟨_, _, rfl, hitems⟩, rfl⟩
    | entries hmembers =>
      exact placed_eq_ok_iff.mpr ⟨_, readEntries_eq_ok_iff.mpr ⟨_, _, rfl, hmembers⟩, rfl⟩
    | @type type span =>
      have htells : Tells engines (Denotes engines) (.string type.name span) (.types [type]) :=
        .type
      exact placed_eq_ok_iff.mpr ⟨_, readTypes_eq_ok_iff.mpr htells, rfl⟩
    | @types items span types hitems =>
      have htells : Tells engines (Denotes engines) (.array items span) (.types types) :=
        .types hitems
      exact placed_eq_ok_iff.mpr ⟨_, readTypes_eq_ok_iff.mpr htells, rfl⟩
    | enum => exact placed_eq_ok_iff.mpr ⟨_, readArray_eq_ok_iff.mpr ⟨_, rfl⟩, rfl⟩
    | data => rfl
    | number hpositive =>
      exact placed_eq_ok_iff.mpr ⟨_, readBound_eq_ok_iff.mpr ⟨_, rfl, hpositive⟩, rfl⟩
    | count hvalue hsafe =>
      exact placed_eq_ok_iff.mpr ⟨_, readCount_eq_ok_iff.mpr ⟨_, _, rfl, hvalue, hsafe⟩, rfl⟩
    | flag => exact placed_eq_ok_iff.mpr ⟨_, readBoolean_eq_ok_iff.mpr ⟨_, rfl⟩, rfl⟩
    | required hitems =>
      exact placed_eq_ok_iff.mpr ⟨_, readNames_eq_ok_iff.mpr ⟨_, _, rfl, hitems⟩, rfl⟩
    | dependentRequired hmembers =>
      exact placed_eq_ok_iff.mpr ⟨_, readDependencies_eq_ok_iff.mpr ⟨_, _, rfl, hmembers⟩, rfl⟩

/-- **What a member becomes**, if it is not refused. -/
theorem partOf_eq_ok_iff {m : Member Node} {part : Part} :
    (partOf engines m).result = .ok part ↔ PartTold engines m part :=
  ⟨partTold_of_partOf, partOf_of_partTold⟩

end Schema

end SchemaCompiler
