/-
  File:      SchemaCompiler/Proofs/Expr/Surplus.lean
  Subject:   What the expression of a schema asks of surplus members.

  `patternProperties` and `additionalProperties` are rules about single members. The expression
  has no validator for one member of an object, so it joins validators of whole objects: one arm
  for the patterns, one that negates the known keys and applies the additional schema, and a union
  of the two. What this asks is `Keywords.Surplus`, a rule about all members at once.

  * `Branch.accepts_surplusArms`, `Branch.accepts_object_surplus`: what the arms accept, and the
    branch of the objects with them.
  * `Schema.Enforced`: the rules of `Schema.Valid`, with `Keywords.Surplus` in the place of the
    two keywords.
  * **`accepts_iff_enforced`**: the expression of a schema accepts exactly the values of which
    these rules hold. Patterns alone are enforced as they should be; so without additional
    properties the expression accepts exactly the valid values.
  * `closed_rejects_prefixed_accepts`: with them it may reject what is valid and accept what is not.
-/
import SchemaCompiler.Proofs.Expr.Translation

namespace SchemaCompiler

/-! ## 1. The rule for surplus members -/

/-- The keywords about members that no property describes. -/
def KeywordKind.surplus : List KeywordKind :=
  [.entries .patternProperties, .schema .additionalProperties]

/-- The lowered keywords and those about surplus members. -/
def KeywordKind.extended : List KeywordKind := lowered ++ surplus

/-- The extended keywords without additional properties. -/
def KeywordKind.patterned : List KeywordKind := lowered ++ [.entries .patternProperties]

/-- Of the keywords with entries, only `$defs` does not constrain. -/
theorem KeywordKind.class_of_entries_mem {k : MapKeyword} (h : .entries k ∈ extended) :
    (KeywordKind.entries k).keywordClass = .validation := by
  cases k with
  | defs => exact absurd h (by decide)
  | _ => rfl

namespace Keywords

variable {σ : Type}

/-- The names of the properties and the required names. -/
def Lists (keywords : List (Keyword σ)) (name : String) : Prop :=
  (∃ es, .entries .properties es ∈ keywords ∧ name ∈ es.map Entry.key) ∨
    ∃ names, .required names ∈ keywords ∧ name ∈ names

def HasPattern (keywords : List (Keyword σ)) (pattern : String) : Prop :=
  ∃ es, .entries .patternProperties es ∈ keywords ∧ pattern ∈ es.map Entry.key

/-- All names are listed, or all match a pattern. With nothing listed and no pattern, not even
    the names of an empty object are known. -/
def AllKnown (matching : String → String → Prop) (keywords : List (Keyword σ))
    (names : List String) : Prop :=
  (∃ name, Lists keywords name) ∧ (∀ name ∈ names, Lists keywords name) ∨
    (∃ p, HasPattern keywords p) ∧ ∀ name ∈ names, ∃ p, HasPattern keywords p ∧ matching p name

/-- **What is asked of an object for its surplus members:** the members that match a pattern are
    as the pattern asks, or not all members are known and the object, itself, is what an
    additional member should be. -/
def Surplus (matching : String → String → Prop) (keywords : List (Keyword (Datum → Prop)))
    (members : List (String × Datum)) : Prop :=
  (∃ es, .entries .patternProperties es ∈ keywords ∧
      ∀ e ∈ es, ∀ m ∈ members, matching e.key m.1 → e.schema m.2) ∨
    ∃ s, .schema .additionalProperties s ∈ keywords ∧
      ¬ AllKnown matching keywords (members.map Prod.fst) ∧ s (.object members)

/-- An object meets the rule for surplus members if a keyword is about them, where `f` is what the
    sub-schemas ask. -/
def MeetsSurplus (matching : String → String → Prop) (f : σ → Datum → Prop)
    (keywords : List (Keyword σ)) (v : Datum) : Prop :=
  ∀ keyword ∈ keywords, keyword.kind ∈ KeywordKind.surplus → ∀ members, v = .object members →
    Surplus matching (keywords.map (Keyword.map f)) members

end Keywords

/-- What the expression of a schema asks of a value for a keyword. -/
def Keyword.Enforced (matching : String → String → Prop)
    (siblings : List (Keyword (Datum → Prop))) : Keyword (Datum → Prop) → Datum → Prop
  | .entries .patternProperties _, .object members => Keywords.Surplus matching siblings members
  | .schema .additionalProperties _, .object members => Keywords.Surplus matching siblings members
  | keyword, v => keyword.Holds matching siblings v

/-- **What the expression of a schema asks of a value.** -/
def Schema.Enforced (matching : String → String → Prop) (schema : Schema) : Datum → Prop :=
  schema.fold fun keywords v => ∀ keyword ∈ keywords, keyword.Enforced matching keywords v

/-- A schema that constrains by some kinds of keywords only, as `Schema.UsesOnly`, and of which no
    pattern is given twice. -/
inductive Schema.UsesDistinctly (kinds : List KeywordKind) : Schema → Prop where
  | mk (keywords : List (Located (Keyword Schema))) (unsupported : List Parked)
      (span : Option Span)
      (here : KeywordsAmong kinds (keywords.map Located.keyword))
      (patternKeys : ∀ es, .entries .patternProperties es ∈ keywords.map Located.keyword →
        (es.map Entry.key).Nodup)
      (schemas : ∀ k s, .schema k s ∈ keywords.map Located.keyword →
        .schema k ∈ kinds → s.UsesDistinctly kinds)
      (entries : ∀ k es, .entries k es ∈ keywords.map Located.keyword →
        .entries k ∈ kinds → ∀ e ∈ es, e.schema.UsesDistinctly kinds) :
      Schema.UsesDistinctly kinds (.mk keywords unsupported span)

/-! ## 2. What the arms accept -/

namespace Branch

open Call Keywords

variable {matching : String → String → Prop} {siblings : List (Keyword (Datum → Prop))}
  {keywords : List (Keyword Call)} {members : List (String × Datum)} {v : Datum}

/-- A call that stands in a list iff another list is not empty. -/
theorem exists_mem_unless_empty {α : Type} {xs : List α} {c : Call} :
    (∃ d ∈ (if xs.isEmpty then [] else [c]), d.Accepts matching v) ↔
      (∃ x, x ∈ xs) ∧ c.Accepts matching v := by
  cases xs with
  | nil => exact ⟨fun ⟨_, hmem, _⟩ => (nomatch hmem), fun ⟨⟨_, hmem⟩, _⟩ => (nomatch hmem)⟩
  | cons x xs =>
    constructor
    · intro h
      obtain ⟨d, hmem, haccepts⟩ := h
      rw [List.mem_singleton.mp hmem] at haccepts
      exact ⟨⟨x, List.mem_cons_self⟩, haccepts⟩
    · intro h
      exact ⟨c, List.mem_singleton_self c, h.2⟩

variable (matching) in
/-- The matcher of listed names, if a name is listed. -/
theorem accepts_byName {names : List String} :
    (∃ c ∈ (if (distinct names).isEmpty then []
        else [onRecord .object ((distinct names).map fun name => (name, unknown))]),
        c.Accepts matching (.object members)) ↔
      (∃ name, name ∈ names) ∧ ∀ name ∈ members.map Prod.fst, name ∈ names := by
  rw [exists_mem_unless_empty, accepts_closed (keysAgree_map_const _ unknown),
    List.forall_mem_map]
  simp only [Datum.object.injEq, exists_eq_left', List.mem_map, exists_exists_and_eq_and,
    accepts_unknown, and_true, exists_eq_right, mem_distinct]

/-- The matcher of patterns, if there is a pattern. -/
theorem accepts_byPattern {patterns : List (Entry Call)} :
    (∃ c ∈ (if patterns.isEmpty then []
        else [onRecord .patternObject (patterns.map fun p => (p.key, unknown))]),
        c.Accepts matching (.object members)) ↔
      (∃ p, p ∈ patterns.map Entry.key) ∧
        ∀ name ∈ members.map Prod.fst, ∃ p ∈ patterns.map Entry.key, matching p name := by
  have hagree : KeysAgree (patterns.map fun p => (p.key, unknown)) := by
    have h := keysAgree_map_const (patterns.map Entry.key) unknown
    rw [List.map_map] at h
    exact h
  have hsome : (∃ p, p ∈ patterns.map Entry.key) ↔ ∃ e, e ∈ patterns := by
    simp only [List.mem_map]
    exact ⟨fun ⟨_, e, he, _⟩ => ⟨e, he⟩, fun ⟨e, he⟩ => ⟨e.key, e, he, rfl⟩⟩
  rw [exists_mem_unless_empty, accepts_patternObject hagree, hsome, List.forall_mem_map]
  simp only [Datum.object.injEq, exists_eq_left', List.mem_map, exists_exists_and_eq_and,
    accepts_unknown, and_true]

/-- The matchers of the known keys are about all members together. -/
theorem accepts_knownKeys {required : List String} {properties patterns : List (Entry Call)} :
    (∃ c ∈ knownKeys required properties patterns, c.Accepts matching (.object members)) ↔
      (∃ name, name ∈ properties.map Entry.key ++ required) ∧
          (∀ name ∈ members.map Prod.fst, name ∈ properties.map Entry.key ++ required) ∨
        (∃ p, p ∈ patterns.map Entry.key) ∧
          ∀ name ∈ members.map Prod.fst, ∃ p ∈ patterns.map Entry.key, matching p name := by
  refine Iff.trans ?_ (or_congr (accepts_byName matching) accepts_byPattern)
  rw [← exists_or, knownKeys]
  simp only [← or_and_right, ← List.mem_append]
  split
  · next hnone =>
    -- Nothing is known: `never` stands for the empty union.
    rw [hnone]
    exact ⟨fun ⟨c, hmem, h⟩ => absurd (List.mem_singleton.mp hmem ▸ h) not_accepts_never,
      fun ⟨_, hmem, _⟩ => (nomatch hmem)⟩
  · exact Iff.rfl

/-- **The arms accept an object iff the patterns do, or it has not only known members and the
    additional schema accepts the object.** -/
theorem accepts_surplusArms {required : List String} {properties : List (Entry Call)}
    {patterns? : Option (List (Entry Call))} {additional? : Option Call}
    (hkeys : ∀ ps, patterns? = some ps → (ps.map Entry.key).Nodup) :
    (∃ c ∈ surplusArms required properties patterns? additional?,
        c.Accepts matching (.object members)) ↔
      (∃ ps, patterns? = some ps ∧
        ∀ p ∈ ps, ∀ m ∈ members, matching p.key m.1 → p.schema.Accepts matching m.2) ∨
      ∃ c, additional? = some c ∧
        (¬ ∃ k ∈ knownKeys required properties (patterns?.getD []),
          k.Accepts matching (.object members)) ∧ c.Accepts matching (.object members) := by
  simp only [surplusArms, List.mem_append, or_and_right, exists_or, List.mem_map,
    Option.mem_toList, exists_exists_and_eq_and, accepts_intersection, List.forall_mem_cons,
    accepts_not, accepts_union, List.not_mem_nil, false_imp_iff, implies_true, and_true]
  refine or_congr (exists_congr fun ps => and_congr_right fun hps => ?_) Iff.rfl
  have hagree : KeysAgree (ps.map fun p => (p.key, p.schema)) := by
    refine DistinctKeys.keysAgree ?_
    rw [DistinctKeys, List.map_map]
    exact hkeys ps hps
  rw [accepts_patternType hagree]
  simp only [Datum.object.injEq, exists_eq_left', List.forall_mem_map]

end Branch

/-! ## 3. Keywords without those about surplus members -/

namespace Keywords

variable {σ : Type} {keywords : List (Keyword σ)}

/-- The keywords that are not about surplus members. -/
def plain (keywords : List (Keyword σ)) : List (Keyword σ) :=
  keywords.filter fun keyword => decide (keyword.kind ∉ KeywordKind.surplus)

theorem mem_plain {keyword : Keyword σ} :
    keyword ∈ plain keywords ↔ keyword ∈ keywords ∧ keyword.kind ∉ KeywordKind.surplus := by
  rw [plain, List.mem_filter, decide_eq_true_eq]

theorem kind_mem_surplus_iff {keyword : Keyword σ} :
    keyword.kind ∈ KeywordKind.surplus ↔ (∃ es, keyword = .entries .patternProperties es) ∨
      ∃ s, keyword = .schema .additionalProperties s := by
  cases keyword <;> simp [Keyword.kind, KeywordKind.surplus]

/-- What reads nothing off the keywords about surplus members finds the same without them. -/
theorem findSome?_plain {α : Type} {extract : Keyword σ → Option α}
    (hpatterns : ∀ es, extract (.entries .patternProperties es) = none)
    (hadditional : ∀ s, extract (.schema .additionalProperties s) = none) :
    (plain keywords).findSome? extract = keywords.findSome? extract := by
  induction keywords with
  | nil => rfl
  | cons keyword rest ih =>
    rw [plain] at ih
    rw [plain, List.filter_cons]
    split
    · rw [List.findSome?_cons, List.findSome?_cons, ih]
    · next hsurplus =>
      rw [decide_eq_true_eq, not_not, kind_mem_surplus_iff] at hsurplus
      rcases hsurplus with ⟨es, rfl⟩ | ⟨s, rfl⟩
      · rw [List.findSome?_cons, hpatterns, ih]
      · rw [List.findSome?_cons, hadditional, ih]

theorem text?_plain (k : TextKeyword) : text? k (plain keywords) = text? k keywords :=
  findSome?_plain (fun _ => rfl) (fun _ => rfl)

theorem number?_plain (k : NumberKeyword) : number? k (plain keywords) = number? k keywords :=
  findSome?_plain (fun _ => rfl) (fun _ => rfl)

theorem count?_plain (k : CountKeyword) : count? k (plain keywords) = count? k keywords :=
  findSome?_plain (fun _ => rfl) (fun _ => rfl)

theorem items?_plain : schema? .items (plain keywords) = schema? .items keywords :=
  findSome?_plain (fun _ => rfl) (fun _ => rfl)

theorem properties?_plain : entries? .properties (plain keywords) = entries? .properties keywords :=
  findSome?_plain (fun _ => rfl) (fun _ => rfl)

theorem required?_plain : required? (plain keywords) = required? keywords :=
  findSome?_plain (fun _ => rfl) (fun _ => rfl)

theorem dependencies?_plain : dependencies? (plain keywords) = dependencies? keywords :=
  findSome?_plain (fun _ => rfl) (fun _ => rfl)

end Keywords

theorem KeywordsAmong.mono {σ : Type} {kinds kinds' : List KeywordKind}
    {keywords : List (Keyword σ)} (h : KeywordsAmong kinds keywords) (hkinds : kinds ⊆ kinds') :
    KeywordsAmong kinds' keywords :=
  { h with among := fun keyword hmem hclass => hkinds (h.among keyword hmem hclass) }

open Keywords in
/-- Without the keywords about surplus members, extended keywords are lowered ones. -/
theorem KeywordsAmong.plain {σ : Type} {keywords : List (Keyword σ)}
    (h : KeywordsAmong KeywordKind.extended keywords) :
    KeywordsAmong KeywordKind.lowered (plain keywords) where
  once := h.once.sublist (List.filter_sublist.map _)
  among := by
    intro keyword hmem hvalidation
    obtain ⟨hmem, hplain⟩ := mem_plain.mp hmem
    exact (List.mem_append.mp (h.among keyword hmem hvalidation)).resolve_right hplain
  noReference := fun keyword hmem => h.noReference keyword (mem_plain.mp hmem).1
  propertyKeys := fun es hmem => h.propertyKeys es (mem_plain.mp hmem).1
  dependencyKeys := fun ds hmem => h.dependencyKeys ds (mem_plain.mp hmem).1

/-! ## 4. Objects with surplus members -/

namespace Keywords

variable {σ : Type} {keywords : List (Keyword σ)} {matching : String → String → Prop}

theorem lists_iff (once : (keywords.map Keyword.kind).Nodup) {name : String} :
    Lists keywords name ↔ name ∈ ((entries? .properties keywords).getD []).map Entry.key ++
      (required? keywords).getD [] := by
  rw [Lists, List.mem_append]
  simp only [← entries?_eq_some_iff once, ← required?_eq_some_iff once]
  cases entries? .properties keywords <;> cases required? keywords <;> simp

theorem hasPattern_iff (once : (keywords.map Keyword.kind).Nodup) {p : String} :
    HasPattern keywords p ↔
      p ∈ ((entries? .patternProperties keywords).getD []).map Entry.key := by
  rw [HasPattern]
  simp only [← entries?_eq_some_iff once]
  cases entries? .patternProperties keywords <;> simp

theorem entries_mem_map {τ : Type} {f : σ → τ} {k : MapKeyword} {es : List (Entry τ)} :
    .entries k es ∈ keywords.map (Keyword.map f) ↔ ∃ es', .entries k es' ∈ keywords ∧
      es'.map (fun e => ⟨e.key, f e.schema, e.span⟩) = es := by
  rw [List.mem_map]
  constructor
  · intro h
    obtain ⟨keyword, hmem, heq⟩ := h
    obtain ⟨es', rfl, hes⟩ := Keyword.map_eq_entries_iff.mp heq
    exact ⟨es', hmem, hes⟩
  · intro h
    obtain ⟨es', hmem, hes⟩ := h
    exact ⟨.entries k es', hmem, Keyword.map_eq_entries_iff.mpr ⟨es', rfl, hes⟩⟩

theorem schema_mem_map {τ : Type} {f : σ → τ} {k : SchemaKeyword} {t : τ} :
    .schema k t ∈ keywords.map (Keyword.map f) ↔ ∃ s, .schema k s ∈ keywords ∧ f s = t := by
  have hmap : ∀ keyword : Keyword σ, keyword.map f = .schema k t ↔
      ∃ s, keyword = .schema k s ∧ f s = t := by
    intro keyword
    cases keyword <;> simp [Keyword.map]
  simp only [List.mem_map, hmap]
  constructor
  · intro h
    obtain ⟨_, hmem, s, rfl, hs⟩ := h
    exact ⟨s, hmem, hs⟩
  · intro h
    obtain ⟨s, hmem, hs⟩ := h
    exact ⟨_, hmem, s, rfl, hs⟩

theorem required_mem_map {τ : Type} {f : σ → τ} {names : List String} :
    .required names ∈ keywords.map (Keyword.map f) ↔ .required names ∈ keywords := by
  have hmap : ∀ keyword : Keyword σ, keyword.map f = .required names ↔
      keyword = .required names := by
    intro keyword
    cases keyword <;> simp [Keyword.map]
  simp only [List.mem_map, hmap, exists_eq_right]

/-- Which members are known does not depend on what the sub-schemas ask. -/
theorem allKnown_map {τ : Type} {f : σ → τ} {names : List String} :
    AllKnown matching (keywords.map (Keyword.map f)) names ↔ AllKnown matching keywords names := by
  have hlists : ∀ name, Lists (keywords.map (Keyword.map f)) name ↔ Lists keywords name := by
    intro name
    simp only [Lists, entries_mem_map, required_mem_map, exists_exists_and_eq_and, List.map_map,
      Function.comp_def]
  have hpattern : ∀ p, HasPattern (keywords.map (Keyword.map f)) p ↔ HasPattern keywords p := by
    intro p
    simp only [HasPattern, entries_mem_map, exists_exists_and_eq_and, List.map_map,
      Function.comp_def]
  simp only [AllKnown, hlists, hpattern]

theorem surplus_map {f : σ → Datum → Prop} {members : List (String × Datum)} :
    Surplus matching (keywords.map (Keyword.map f)) members ↔
      (∃ es, .entries .patternProperties es ∈ keywords ∧
        ∀ e ∈ es, ∀ m ∈ members, matching e.key m.1 → f e.schema m.2) ∨
      ∃ s, .schema .additionalProperties s ∈ keywords ∧
        ¬ AllKnown matching keywords (members.map Prod.fst) ∧ f s (.object members) := by
  simp only [Surplus, allKnown_map, entries_mem_map, schema_mem_map, exists_exists_and_eq_and,
    List.forall_mem_map]

end Keywords

namespace Branch

open Call Keywords

variable {matching : String → String → Prop} {siblings : List (Keyword (Datum → Prop))}
  {keywords : List (Keyword Call)} {members : List (String × Datum)} {v : Datum}

/-- **The arms of some keywords accept an object iff it meets the rule for surplus members.** -/
theorem accepts_arms_iff_surplus (once : (keywords.map Keyword.kind).Nodup)
    (hkeys : ∀ es, .entries .patternProperties es ∈ keywords → (es.map Entry.key).Nodup) :
    (∃ c ∈ surplusArms ((required? keywords).getD []) ((entries? .properties keywords).getD [])
        (entries? .patternProperties keywords) (schema? .additionalProperties keywords),
        c.Accepts matching (.object members)) ↔
      Surplus matching (keywords.map (Keyword.map (Call.Accepts matching))) members := by
  have hknown : (∃ c ∈ knownKeys ((required? keywords).getD [])
      ((entries? .properties keywords).getD []) ((entries? .patternProperties keywords).getD []),
      c.Accepts matching (.object members)) ↔
        AllKnown matching keywords (members.map Prod.fst) := by
    rw [accepts_knownKeys]
    simp only [AllKnown, lists_iff once, hasPattern_iff once]
  rw [accepts_surplusArms fun ps hps => hkeys ps ((entries?_eq_some_iff once).mp hps), hknown,
    surplus_map]
  simp only [entries?_eq_some_iff once, schema?_eq_some_iff once]

/-- There are arms iff there is a keyword about surplus members. -/
theorem surplusArms_eq_nil_iff (once : (keywords.map Keyword.kind).Nodup) {required : List String}
    {properties : List (Entry Call)} :
    surplusArms required properties (entries? .patternProperties keywords)
        (schema? .additionalProperties keywords) = [] ↔
      ∀ keyword ∈ keywords, keyword.kind ∉ KeywordKind.surplus := by
  have hnil : ∀ patterns? additional?, surplusArms required properties patterns? additional? = [] ↔
      (∀ es, patterns? ≠ some es) ∧ ∀ c, additional? ≠ some c := by
    intro patterns? additional?
    cases patterns? <;> cases additional? <;> simp [surplusArms]
  simp only [hnil, ne_eq, entries?_eq_some_iff once, schema?_eq_some_iff once,
    kind_mem_surplus_iff, not_or, not_exists]
  constructor
  · intro h keyword hmem
    exact ⟨fun es heq => h.1 es (heq ▸ hmem), fun s heq => h.2 s (heq ▸ hmem)⟩
  · intro h
    exact ⟨fun es hmem => (h _ hmem).1 es rfl, fun s hmem => (h _ hmem).2 s rfl⟩

/-- The branch of the objects is the one without the keywords about surplus members, and the
    union of their arms. -/
theorem object_eq_arms (among : KeywordsAmong KeywordKind.extended keywords) (anyName : Call) :
    object anyName keywords =
      match surplusArms ((required? keywords).getD []) ((entries? .properties keywords).getD [])
        (entries? .patternProperties keywords) (schema? .additionalProperties keywords) with
      | [] => object anyName (plain keywords)
      | arms => .intersection [object anyName (plain keywords), .union arms] := by
  have hnames : schema? .propertyNames keywords = none := by
    refine Option.eq_none_iff_forall_ne_some.mpr fun s h => ?_
    exact among.kind_ne (.schema .propertyNames) rfl (by decide)
      ((schema?_eq_some_iff among.once).mp h) rfl
  rw [object_eq among.plain, required?_plain, properties?_plain, count?_plain, count?_plain,
    dependencies?_plain, object, hnames]
  rfl

/-- **The branch of the objects accepts the objects that the other keywords admit and that meet the
    rule for surplus members**, if a keyword is about them. -/
theorem accepts_object_surplus (among : KeywordsAmong KeywordKind.extended keywords)
    (hkeys : ∀ es, .entries .patternProperties es ∈ keywords → (es.map Entry.key).Nodup)
    (hplain : ∀ es, .entries .properties es ∈ keywords → ∀ e ∈ es, e.schema.func ≠ .optional)
    {anyName : Call} :
    (object anyName keywords).Accepts matching v ↔ v.HasType .object ∧
      AllAdmit matching siblings (plain keywords) v ∧
        MeetsSurplus matching (Call.Accepts matching) keywords v := by
  have hobject : (object anyName (plain keywords)).Accepts matching v ↔
      v.HasType .object ∧ AllAdmit matching siblings (plain keywords) v :=
    accepts_object among.plain fun es hmem => hplain es (mem_plain.mp hmem).1
  have harms : ∀ members, (∃ c ∈ surplusArms ((required? keywords).getD [])
      ((entries? .properties keywords).getD []) (entries? .patternProperties keywords)
      (schema? .additionalProperties keywords), c.Accepts matching (.object members)) ↔
        Surplus matching (keywords.map (Keyword.map (Call.Accepts matching))) members :=
    fun members => accepts_arms_iff_surplus among.once hkeys
  rw [object_eq_arms among, ← and_assoc, ← hobject]
  split
  · next hnil =>
    -- Without arms no keyword is about surplus members.
    have hnone := (surplusArms_eq_nil_iff among.once).mp hnil
    exact ⟨fun h => ⟨h, fun keyword hmem hsurplus => absurd hsurplus (hnone keyword hmem)⟩,
      fun h => h.1⟩
  · next hne =>
    rw [accepts_intersection, List.forall_mem_cons, List.forall_mem_singleton, accepts_union]
    refine and_congr_right fun haccepts => ?_
    obtain ⟨members, rfl⟩ := (hobject.mp haccepts).1
    rw [harms]
    constructor
    · intro h keyword _ _ members' heq
      cases heq
      exact h
    · intro h
      have hsome : ∃ keyword ∈ keywords, keyword.kind ∈ KeywordKind.surplus := by
        by_contra hnone
        refine hne ((surplusArms_eq_nil_iff among.once).mpr fun keyword hmem hsurplus => ?_)
        exact hnone ⟨keyword, hmem, hsurplus⟩
      obtain ⟨keyword, hmem, hsurplus⟩ := hsome
      exact h keyword hmem hsurplus members rfl

/-- Only the branch of the objects reads the keywords about surplus members. -/
theorem ofType_plain {anyName : Call} {type : PrimitiveType} (htype : type ≠ .object) :
    ofType anyName (plain keywords) type = ofType anyName keywords type := by
  cases type with
  | object => exact absurd rfl htype
  | string => simp only [ofType, string, count?_plain, text?_plain]
  | number => simp only [ofType, number, number?_plain]
  | integer => simp only [ofType, number, number?_plain]
  | array => simp only [ofType, array, items?_plain]
  | boolean => rfl
  | null => rfl

/-- The branch of a type, with keywords about surplus members. -/
theorem accepts_ofType_surplus (among : KeywordsAmong KeywordKind.extended keywords)
    (hkeys : ∀ es, .entries .patternProperties es ∈ keywords → (es.map Entry.key).Nodup)
    (hplain : ∀ es, .entries .properties es ∈ keywords → ∀ e ∈ es, e.schema.func ≠ .optional)
    {anyName : Call} {type : PrimitiveType} :
    (ofType anyName keywords type).Accepts matching v ↔ v.HasType type ∧
      AllAdmit matching siblings (plain keywords) v ∧
        MeetsSurplus matching (Call.Accepts matching) keywords v := by
  by_cases htype : type = .object
  · subst htype
    exact accepts_object_surplus among hkeys hplain
  · rw [← ofType_plain htype,
      accepts_ofType among.plain fun es hmem => hplain es (mem_plain.mp hmem).1]
    refine and_congr_right fun hv => (and_iff_left ?_).symm
    -- A value of another type is no object.
    intro keyword _ _ members heq
    subst heq
    cases type with
    | object => exact absurd rfl htype
    | string | number | integer | array | boolean =>
      obtain ⟨_, h⟩ := hv
      cases h
    | null => cases hv

end Branch

/-! ## 5. Schemas with surplus members -/

section Enforced

open Branch Call Keywords

variable {matching : String → String → Prop} {v : Datum}

theorem enforced_of_plain {keyword : Keyword (Datum → Prop)}
    {siblings : List (Keyword (Datum → Prop))} (h : keyword.kind ∉ KeywordKind.surplus) :
    keyword.Enforced matching siblings v ↔ keyword.Holds matching siblings v := by
  unfold Keyword.Enforced
  split
  · exact absurd (kind_mem_surplus_iff.mpr (Or.inl ⟨_, rfl⟩)) h
  · exact absurd (kind_mem_surplus_iff.mpr (Or.inr ⟨_, rfl⟩)) h
  · exact Iff.rfl

theorem enforced_of_surplus {keyword : Keyword (Datum → Prop)}
    {siblings : List (Keyword (Datum → Prop))} (h : keyword.kind ∈ KeywordKind.surplus) :
    keyword.Enforced matching siblings v ↔
      ∀ members, v = .object members → Surplus matching siblings members := by
  rcases kind_mem_surplus_iff.mp h with ⟨es, rfl⟩ | ⟨s, rfl⟩
  all_goals
    cases v with
    | object members =>
      refine ⟨fun hsurplus members' heq => ?_, fun hsurplus => hsurplus members rfl⟩
      cases heq
      exact hsurplus
    | _ => exact ⟨fun _ _ heq => (nomatch heq), fun _ => trivial⟩

/-- All keywords are enforced: those that are not about surplus members hold, and the object meets
    the rule for surplus members if a keyword is about them. -/
theorem forall_enforced_iff {σ : Type} {f : σ → Datum → Prop} {keywords : List (Keyword σ)}
    (siblings : List (Keyword (Datum → Prop))) :
    (∀ keyword ∈ keywords, (keyword.map f).Enforced matching (keywords.map (Keyword.map f)) v) ↔
      (∀ keyword ∈ plain keywords, (keyword.map f).Holds matching siblings v) ∧
        MeetsSurplus matching f keywords v := by
  have hholds : ∀ keyword : Keyword σ, keyword.kind ∉ KeywordKind.surplus →
      ((keyword.map f).Enforced matching (keywords.map (Keyword.map f)) v ↔
        (keyword.map f).Holds matching siblings v) := by
    intro keyword hplain
    rw [← keyword.kind_map f] at hplain
    refine (enforced_of_plain hplain).trans (holds_siblings ?_ _ siblings)
    intro heq
    rw [heq] at hplain
    exact hplain (by decide)
  have hsurplus : ∀ keyword : Keyword σ, keyword.kind ∈ KeywordKind.surplus →
      ((keyword.map f).Enforced matching (keywords.map (Keyword.map f)) v ↔
        ∀ members, v = .object members →
          Surplus matching (keywords.map (Keyword.map f)) members) := by
    intro keyword hkind
    rw [← keyword.kind_map f] at hkind
    exact enforced_of_surplus hkind
  constructor
  · intro h
    refine ⟨fun keyword hmem => ?_, fun keyword hmem hkind => ?_⟩
    · obtain ⟨hmem, hplain⟩ := mem_plain.mp hmem
      exact (hholds keyword hplain).mp (h keyword hmem)
    · exact (hsurplus keyword hkind).mp (h keyword hmem)
  · intro h keyword hmem
    by_cases hkind : keyword.kind ∈ KeywordKind.surplus
    · exact (hsurplus keyword hkind).mpr (h.2 keyword hmem hkind)
    · exact (hholds keyword hkind).mpr (h.1 keyword (mem_plain.mpr ⟨hmem, hkind⟩))

/-- **The call of some keywords accepts a value iff every keyword is enforced.** -/
theorem accepts_ofKeywords_surplus {keywords : List (Keyword Call)}
    (among : KeywordsAmong KeywordKind.extended keywords)
    (hkeys : ∀ es, .entries .patternProperties es ∈ keywords → (es.map Entry.key).Nodup)
    (hplain : ∀ es, .entries .properties es ∈ keywords → ∀ e ∈ es, e.schema.func ≠ .optional) :
    (ofKeywords keywords).Accepts matching v ↔
      ∀ keyword ∈ keywords, (keyword.map (Call.Accepts matching)).Enforced matching
        (keywords.map (Keyword.map (Call.Accepts matching))) v := by
  have hfree : (∀ keyword ∈ keywords, keyword.kind.keywordClass ≠ .validation) →
      AllAdmit matching [] (plain keywords) v ∧
        MeetsSurplus matching (Call.Accepts matching) keywords v := by
    intro hclass
    refine ⟨(forall_holds_iff.mp fun keyword hmem => holds_of_not_validation ?_).2.2, ?_⟩
    · rw [Keyword.kind_map]
      exact hclass keyword (mem_plain.mp hmem).1
    · intro keyword hmem hkind
      refine absurd ?_ (hclass keyword hmem)
      rcases kind_mem_surplus_iff.mp hkind with ⟨es, rfl⟩ | ⟨s, rfl⟩ <;> rfl
  have htypes : ∀ ts, .types ts ∈ plain keywords ↔ .types ts ∈ keywords := fun _ =>
    mem_plain.trans (and_iff_left (by decide : KeywordKind.types ∉ KeywordKind.surplus))
  have hnot : ∀ c, .schema .not c ∈ plain keywords ↔ .schema .not c ∈ keywords := fun _ =>
    mem_plain.trans (and_iff_left (by decide : KeywordKind.schema .not ∉ KeywordKind.surplus))
  rw [accepts_ofBranches among.once (fun type => accepts_ofType_surplus among hkeys hplain) hfree,
    forall_enforced_iff [], forall_holds_iff]
  simp only [htypes, hnot, and_assoc]

/-- Keywords are enforced the same whichever way their sub-schemas are read, if the two ways agree
    on the sub-schemas under the keywords in use. -/
theorem forall_enforced_congr {σ : Type} {kinds : List KeywordKind} {keywords : List (Keyword σ)}
    (among : KeywordsAmong kinds keywords) (hkinds : kinds ⊆ KeywordKind.extended)
    {f g : σ → Datum → Prop}
    (hschemas : ∀ k s, .schema k s ∈ keywords → .schema k ∈ kinds → f s = g s)
    (hentries : ∀ k es, .entries k es ∈ keywords → .entries k ∈ kinds →
      ∀ e ∈ es, f e.schema = g e.schema) :
    (∀ keyword ∈ keywords, (keyword.map f).Enforced matching (keywords.map (Keyword.map f)) v) ↔
      ∀ keyword ∈ keywords,
        (keyword.map g).Enforced matching (keywords.map (Keyword.map g)) v := by
  have hschema : ∀ k s, .schema k s ∈ keywords → f s = g s :=
    fun k s hmem => hschemas k s hmem (among.among _ hmem rfl)
  have hpattern : ∀ es, .entries .patternProperties es ∈ keywords →
      ∀ e ∈ es, f e.schema = g e.schema :=
    fun es hmem => hentries _ es hmem (among.among _ hmem rfl)
  rw [forall_enforced_iff [], forall_enforced_iff []]
  refine and_congr (forall₂_congr fun keyword hmem => ?_) ?_
  · have hkeyword := (mem_plain.mp hmem).1
    refine holds_map_congr (among.mono hkinds).plain hmem ?_ ?_ [] []
    · intro k s heq _
      subst heq
      exact hschema k s hkeyword
    · intro k es heq hlowered
      subst heq
      have hclass := KeywordKind.class_of_entries_mem (List.mem_append_left _ hlowered)
      exact hentries k es hkeyword (among.among _ hkeyword hclass)
  · refine forall₂_congr fun keyword _ => forall_congr' fun _ => forall₂_congr fun members _ => ?_
    rw [surplus_map, surplus_map]
    refine or_congr (exists_congr fun es => and_congr_right fun hmem => ?_)
      (exists_congr fun s => and_congr_right fun hmem => and_congr_right fun _ => ?_)
    · refine forall₂_congr fun e he => ?_
      rw [hpattern es hmem e he]
    · rw [hschema _ s hmem]

/-- Without additional properties, keywords are enforced iff they hold. -/
theorem enforced_iff_holds {keywords : List (Keyword (Datum → Prop))}
    (once : (keywords.map Keyword.kind).Nodup)
    (hnone : ∀ s, .schema .additionalProperties s ∉ keywords) {keyword : Keyword (Datum → Prop)}
    (hmem : keyword ∈ keywords) :
    keyword.Enforced matching keywords v ↔ keyword.Holds matching keywords v := by
  by_cases hkind : keyword.kind ∈ KeywordKind.surplus
  · rcases kind_mem_surplus_iff.mp hkind with ⟨es, rfl⟩ | ⟨s, rfl⟩
    · cases v with
      | object members =>
        constructor
        · intro h
          rcases h with ⟨es', hmem', h⟩ | ⟨s, hmem', -⟩
          · cases List.inj_on_of_nodup_map once hmem' hmem rfl
            exact h
          · exact absurd hmem' (hnone s)
        · intro h
          exact Or.inl ⟨es, hmem, h⟩
      | _ => exact Iff.rfl
    · exact absurd hmem (hnone s)
  · exact enforced_of_plain hkind

/-- The expression of a schema accepts exactly the values of which its rules are enforced. -/
theorem accepts_enforced {schema : Schema} (hschema : schema.UsesDistinctly KeywordKind.extended)
    (v : Datum) : (ofSchema schema).Accepts matching v ↔ schema.Enforced matching v := by
  induction hschema generalizing v with
  | mk located unsupported span among patternKeys _ _ hschemas hentries =>
    rw [ofSchema_mk, Schema.Enforced, Schema.fold_mk]
    generalize located.map Located.keyword = keywords at *
    have hplain : ∀ es, .entries .properties es ∈ keywords.map (Keyword.map ofSchema) →
        ∀ e ∈ es, e.schema.func ≠ .optional := by
      intro es hmem
      obtain ⟨es', -, rfl⟩ := entries_mem_map.mp hmem
      exact List.forall_mem_map.mpr fun e _ => func_ofSchema_ne_optional e.schema
    have hkeys : ∀ es, .entries .patternProperties es ∈ keywords.map (Keyword.map ofSchema) →
        (es.map Entry.key).Nodup := by
      intro es hmem
      obtain ⟨es', hmem', rfl⟩ := entries_mem_map.mp hmem
      rw [List.map_map]
      exact patternKeys es' hmem'
    rw [accepts_ofKeywords_surplus (among.map ofSchema) hkeys hplain, List.map_map]
    simp only [List.forall_mem_map, Keyword.map_map, Function.comp_def]
    exact forall_enforced_congr among (fun _ h => h)
      (fun k s hmem hk => funext fun x => propext (hschemas k s hmem hk x))
      (fun k es hmem hk e he => funext fun x => propext (hentries k es hmem hk e he x))

/-- Without additional properties the rules that are enforced are those of validity. -/
theorem valid_enforced {schema : Schema} (hschema : schema.UsesDistinctly KeywordKind.patterned)
    (v : Datum) : schema.Valid matching v ↔ schema.Enforced matching v := by
  induction hschema generalizing v with
  | mk located unsupported span among _ _ _ hschemas hentries =>
    rw [Schema.Valid, Schema.fold_mk, Schema.Enforced, Schema.fold_mk]
    generalize located.map Located.keyword = keywords at *
    have hread := among.map (Schema.Valid matching)
    have hnone : ∀ s, .schema .additionalProperties s ∉
        keywords.map (Keyword.map (Schema.Valid matching)) := by
      intro s hmem
      exact hread.kind_ne (.schema .additionalProperties) rfl (by decide) hmem rfl
    have hholds : (∀ keyword ∈ keywords.map (Keyword.map (Schema.Valid matching)),
        keyword.Holds matching (keywords.map (Keyword.map (Schema.Valid matching))) v) ↔
          ∀ keyword ∈ keywords, (keyword.map (Schema.Valid matching)).Enforced matching
            (keywords.map (Keyword.map (Schema.Valid matching))) v := by
      refine List.forall_mem_map.trans (forall₂_congr fun keyword hmem => ?_)
      exact (enforced_iff_holds hread.once hnone (List.mem_map_of_mem hmem)).symm
    refine hholds.trans (Iff.trans ?_ List.forall_mem_map.symm)
    exact forall_enforced_congr among (by decide)
      (fun k s hmem hk => funext fun x => propext (hschemas k s hmem hk x))
      (fun k es hmem hk e he => funext fun x => propext (hentries k es hmem hk e he x))

/-- A keyword that may be used but is not changes nothing. -/
theorem usesDistinctly_extended {schema : Schema}
    (hschema : schema.UsesDistinctly KeywordKind.patterned) :
    schema.UsesDistinctly KeywordKind.extended := by
  induction hschema with
  | mk located unsupported span among patternKeys _ _ hschemas hentries =>
    refine .mk _ _ _ (among.mono (by decide)) patternKeys (fun k s hmem _ => ?_)
      (fun k es hmem hk => ?_)
    · exact hschemas k s hmem (among.among _ hmem rfl)
    · exact hentries k es hmem (among.among _ hmem (KeywordKind.class_of_entries_mem hk))

end Enforced

/-! ## 6. What the expression accepts -/

/-- **The expression of a schema accepts exactly the values of which its rules are enforced**: for
    every schema that constrains by the lowered keywords, patterns and additional properties. If
    it has no additional properties, these are the valid values. -/
theorem accepts_iff_enforced (matching : String → String → Prop) (schema : Schema) (v : Datum) :
    (schema.UsesDistinctly KeywordKind.extended →
      ((Call.ofSchema schema).Accepts matching v ↔ schema.Enforced matching v)) ∧
    (schema.UsesDistinctly KeywordKind.patterned →
      ((Call.ofSchema schema).Accepts matching v ↔ schema.Valid matching v)) := by
  refine ⟨fun h => accepts_enforced h v, fun h => ?_⟩
  rw [accepts_enforced (usesDistinctly_extended h), valid_enforced h]

/-- The names that the pattern `^x-` matches, whichever pattern is asked for. -/
def StartsWithX (_ name : String) : Prop := name.toList.take 2 = ['x', '-']

/-- The schema `false`. -/
def nothing : Schema := .mk [⟨.schema .not .empty, none⟩] [] none

/-- The strings. -/
def anyText : Schema := .mk [⟨.types [.string], none⟩] [] none

/-- The members that start with `x-` are strings. -/
def headed : Schema :=
  .mk [⟨.entries .patternProperties [⟨"^x-", anyText, ⟨0, 0⟩⟩], none⟩] [] none

/-- The objects of which every member starts with `x-` and is a string. -/
def prefixed : Schema :=
  .mk [⟨.types [.object], none⟩, ⟨.entries .patternProperties [⟨"^x-", anyText, ⟨0, 0⟩⟩], none⟩,
    ⟨.schema .additionalProperties nothing, none⟩] [] none

/-- The objects with at most the member `a`. -/
def closed : Schema :=
  .mk [⟨.types [.object], none⟩, ⟨.schema .additionalProperties nothing, none⟩,
    ⟨.entries .properties [⟨"a", .empty, ⟨0, 0⟩⟩], none⟩] [] none

theorem usesDistinctly_empty (kinds : List KeywordKind) : Schema.empty.UsesDistinctly kinds :=
  .mk _ _ _ ⟨by simp, by simp, by simp, by simp, by simp⟩ (by simp) (by simp) (by simp)

theorem usesDistinctly_nothing : nothing.UsesDistinctly KeywordKind.extended := by
  refine .mk _ _ _ ⟨by decide, by decide, by decide, by simp, by simp⟩ (by simp) ?_ (by simp)
  intro k s hmem _
  cases List.mem_singleton.mp hmem
  exact usesDistinctly_empty _

theorem usesDistinctly_anyText : anyText.UsesDistinctly KeywordKind.patterned :=
  .mk _ _ _ ⟨by decide, by decide, by decide, by simp, by simp⟩ (by simp) (by simp) (by simp)

theorem usesDistinctly_headed : headed.UsesDistinctly KeywordKind.patterned := by
  refine .mk _ _ _ ⟨by decide, by decide, by decide, by simp, by simp⟩ (by simp) (by simp) ?_
  intro k es hmem _ e he
  cases List.mem_singleton.mp hmem
  rw [List.mem_singleton.mp he]
  exact usesDistinctly_anyText

theorem usesDistinctly_prefixed : prefixed.UsesDistinctly KeywordKind.extended := by
  refine .mk _ _ _ ⟨by decide, by decide, by decide, by simp, by simp⟩ (by simp) ?_ ?_
  · intro k s hmem _
    obtain ⟨-, rfl⟩ : k = .additionalProperties ∧ s = nothing := by simpa using hmem
    exact usesDistinctly_nothing
  · intro k es hmem _ e he
    obtain ⟨-, rfl⟩ : k = .patternProperties ∧ es = [⟨"^x-", anyText, ⟨0, 0⟩⟩] := by
      simpa using hmem
    rw [List.mem_singleton.mp he]
    exact usesDistinctly_extended usesDistinctly_anyText

theorem usesDistinctly_closed : closed.UsesDistinctly KeywordKind.extended := by
  refine .mk _ _ _ ⟨by decide, by decide, by decide, by simp, by simp⟩ (by simp) ?_ ?_
  · intro k s hmem _
    obtain ⟨-, rfl⟩ : k = .additionalProperties ∧ s = nothing := by simpa using hmem
    exact usesDistinctly_nothing
  · intro k es hmem _ e he
    obtain ⟨-, rfl⟩ : k = .properties ∧ es = [⟨"a", .empty, ⟨0, 0⟩⟩] := by simpa using hmem
    rw [List.mem_singleton.mp he]
    exact usesDistinctly_empty _

section Samples

variable {matching : String → String → Prop} {members : List (String × Datum)} {v : Datum}

theorem valid_empty : Schema.empty.Valid matching v := by
  rw [Schema.empty, Schema.Valid, Schema.fold_mk]
  exact fun _ h => absurd h List.not_mem_nil

theorem not_valid_nothing : ¬ nothing.Valid matching v := by
  rw [nothing, Schema.Valid, Schema.fold_mk]
  exact fun h => h _ List.mem_cons_self valid_empty

theorem valid_anyText : anyText.Valid matching v ↔ v.HasType .string := by
  rw [anyText, Schema.Valid, Schema.fold_mk]
  constructor
  · intro h
    obtain ⟨type, hmem, htype⟩ := h _ List.mem_cons_self
    rw [List.mem_singleton.mp hmem] at htype
    exact htype
  · intro h keyword hmem
    rw [List.mem_singleton.mp hmem]
    exact ⟨.string, List.mem_cons_self, h⟩

/-- Members that no pattern matches do not matter, if the others are as they should be. -/
theorem enforced_prefixed (h : ∀ m ∈ members, matching "^x-" m.1 → m.2.HasType .string) :
    prefixed.Enforced matching (.object members) := by
  rw [prefixed, Schema.Enforced, Schema.fold_mk]
  have hsurplus : Keywords.Surplus matching ((prefixed.keywords.map Located.keyword).map
      (Keyword.map (Schema.Enforced matching))) members := by
    refine Or.inl ⟨_, List.mem_cons_of_mem _ List.mem_cons_self, fun e he m hm hmatch => ?_⟩
    rw [List.mem_singleton.mp he] at hmatch ⊢
    exact (valid_enforced usesDistinctly_anyText _).mp (valid_anyText.mpr (h m hm hmatch))
  refine List.forall_mem_cons.mpr ⟨?_, List.forall_mem_cons.mpr ⟨hsurplus,
    List.forall_mem_singleton.mpr hsurplus⟩⟩
  exact ⟨.object, List.mem_cons_self, members, rfl⟩

/-- An object of which all members are known is refused: there is no additional member in it. -/
theorem not_enforced_closed (h : ∀ m ∈ members, m.1 = "a") :
    ¬ closed.Enforced matching (.object members) := by
  rw [closed, Schema.Enforced, Schema.fold_mk]
  intro hall
  have hlists : Keywords.Lists ((closed.keywords.map Located.keyword).map
      (Keyword.map (Schema.Enforced matching))) "a" :=
    Or.inl ⟨_, List.mem_cons_of_mem _ (List.mem_cons_of_mem _ List.mem_cons_self),
      List.mem_cons_self⟩
  have hsurplus : Keywords.Surplus matching _ members :=
    hall _ (List.mem_cons_of_mem _ List.mem_cons_self)
  rcases hsurplus with ⟨es, hpatterns, -⟩ | ⟨s, -, hunknown, -⟩
  · simp [Keyword.map] at hpatterns
  · refine hunknown (Or.inl ⟨⟨"a", hlists⟩, List.forall_mem_map.mpr fun m hm => ?_⟩)
    rw [h m hm]
    exact hlists

end Samples

/-- Patterns alone are enforced, and beside additional properties they are one way to be
    accepted. -/
theorem accepts_headed_prefixed :
    headed.UsesDistinctly KeywordKind.patterned ∧
    ¬ (Call.ofSchema headed).Accepts StartsWithX (.object [("x-a", .number 1)]) ∧
    prefixed.UsesDistinctly KeywordKind.extended ∧
    (Call.ofSchema prefixed).Accepts StartsWithX (.object [("x-a", .string "1")]) := by
  refine ⟨usesDistinctly_headed, ?_, usesDistinctly_prefixed, ?_⟩
  · rw [(accepts_iff_enforced _ _ _).2 usesDistinctly_headed, headed, Schema.Valid, Schema.fold_mk]
    intro h
    have hpattern := h _ List.mem_cons_self _ List.mem_cons_self _ List.mem_cons_self rfl
    obtain ⟨_, htext⟩ := valid_anyText.mp hpattern
    cases htext
  · rw [(accepts_iff_enforced _ _ _).1 usesDistinctly_prefixed]
    refine enforced_prefixed fun m hm _ => ?_
    rw [List.mem_singleton.mp hm]
    exact ⟨"1", rfl⟩

/-- **The rules differ both ways**: an object with nothing but `a` is valid and rejected, and one
    with a member that no pattern matches is accepted and not valid. -/
theorem closed_rejects_prefixed_accepts :
    closed.UsesDistinctly KeywordKind.extended ∧
    closed.Valid StartsWithX (.object [("a", .number 1)]) ∧
    ¬ (Call.ofSchema closed).Accepts StartsWithX (.object [("a", .number 1)]) ∧
    prefixed.UsesDistinctly KeywordKind.extended ∧
    ¬ prefixed.Valid StartsWithX (.object [("y", .number 1)]) ∧
    (Call.ofSchema prefixed).Accepts StartsWithX (.object [("y", .number 1)]) := by
  refine ⟨usesDistinctly_closed, ?_, ?_, usesDistinctly_prefixed, ?_, ?_⟩
  · rw [closed, Schema.Valid, Schema.fold_mk]
    refine List.forall_mem_cons.mpr ⟨⟨.object, List.mem_cons_self, _, rfl⟩,
      List.forall_mem_cons.mpr ⟨?_, List.forall_mem_singleton.mpr ?_⟩⟩
    · -- No other member is there.
      intro m hm hproperties _
      rw [List.mem_singleton.mp hm] at hproperties
      exact absurd rfl (hproperties _ (List.mem_cons_of_mem _ (List.mem_cons_of_mem _
        List.mem_cons_self)) _ List.mem_cons_self)
    · intro e he x _
      rw [List.mem_singleton.mp he]
      exact valid_empty
  · rw [accepts_enforced usesDistinctly_closed]
    refine not_enforced_closed fun m hm => ?_
    rw [List.mem_singleton.mp hm]
  · rw [prefixed, Schema.Valid, Schema.fold_mk]
    intro hall
    have hadditional := hall _ (List.mem_cons_of_mem _ (List.mem_cons_of_mem _ List.mem_cons_self))
      ("y", .number 1) List.mem_cons_self
    refine not_valid_nothing (hadditional (fun es hmem => ?_) fun es hmem e he => ?_)
    · simp [Keyword.map] at hmem
    · intro hmatch
      exact absurd hmatch (by decide : ¬ "y".toList.take 2 = ['x', '-'])
  · rw [accepts_enforced usesDistinctly_prefixed]
    refine enforced_prefixed fun m hm hmatch => ?_
    rw [List.mem_singleton.mp hm] at hmatch
    exact absurd hmatch (by decide : ¬ "y".toList.take 2 = ['x', '-'])

end SchemaCompiler
