/-
  File:      SchemaCompiler/Proofs/Expr/Branches.lean
  Subject:   What the branch of each type accepts.

  A branch reads the first keyword of a kind; where every kind is given once, that is the only
  one. Then each branch accepts exactly the values of its type that all keywords admit
  (**`accepts_ofType`**): the keywords about other types admit these values anyway.

  For objects the keywords are those of `KeywordKind.lowered`, and no sub-expression is optional
  by itself: `type` would not ask for a required member then.
-/
import SchemaCompiler.Expr.OfSchema
import SchemaCompiler.Proofs.Expr.Acceptance

namespace SchemaCompiler

/-! ## 1. Keywords that are given once -/

namespace Keywords

variable {σ : Type} {keywords : List (Keyword σ)}

/-- The first keyword that `extract` reads is the only one that `make` makes. -/
theorem findSome?_eq_some_iff_mem {α : Type} {extract : Keyword σ → Option α}
    (make : α → Keyword σ) (once : (keywords.map Keyword.kind).Nodup)
    (reads : ∀ keyword a, extract keyword = some a ↔ keyword = make a)
    (hkind : ∀ a b, (make a).kind = (make b).kind) {a : α} :
    keywords.findSome? extract = some a ↔ make a ∈ keywords := by
  constructor
  · intro h
    obtain ⟨keyword, hmem, hread⟩ := List.exists_of_findSome?_eq_some h
    rw [(reads keyword a).mp hread] at hmem
    exact hmem
  · intro hmem
    have hread : extract (make a) = some a := (reads _ a).mpr rfl
    cases hfind : keywords.findSome? extract with
    | none =>
      have hnone := List.findSome?_eq_none_iff.mp hfind _ hmem
      rw [hread] at hnone
      cases hnone
    | some b =>
      obtain ⟨keyword, hb, hreadb⟩ := List.exists_of_findSome?_eq_some hfind
      have hkeyword : keyword = make b := (reads keyword b).mp hreadb
      have hsame : keyword = make a := by
        refine List.inj_on_of_nodup_map once hb hmem ?_
        rw [hkeyword, hkind b a]
      rw [← hreadb, hsame, hread]

theorem text?_eq_some_iff (once : (keywords.map Keyword.kind).Nodup) {k : TextKeyword}
    {text : String} : text? k keywords = some text ↔ .text k text ∈ keywords :=
  findSome?_eq_some_iff_mem (.text k) once (fun keyword _ => by cases keyword <;> simp)
    (fun _ _ => rfl)

theorem schema?_eq_some_iff (once : (keywords.map Keyword.kind).Nodup) {k : SchemaKeyword}
    {s : σ} : schema? k keywords = some s ↔ .schema k s ∈ keywords :=
  findSome?_eq_some_iff_mem (.schema k) once (fun keyword _ => by cases keyword <;> simp)
    (fun _ _ => rfl)

theorem entries?_eq_some_iff (once : (keywords.map Keyword.kind).Nodup) {k : MapKeyword}
    {es : List (Entry σ)} : entries? k keywords = some es ↔ .entries k es ∈ keywords :=
  findSome?_eq_some_iff_mem (.entries k) once (fun keyword _ => by cases keyword <;> simp)
    (fun _ _ => rfl)

theorem types?_eq_some_iff (once : (keywords.map Keyword.kind).Nodup)
    {ts : List PrimitiveType} : types? keywords = some ts ↔ .types ts ∈ keywords :=
  findSome?_eq_some_iff_mem .types once (fun keyword _ => by cases keyword <;> simp)
    (fun _ _ => rfl)

theorem number?_eq_some_iff (once : (keywords.map Keyword.kind).Nodup) {k : NumberKeyword}
    {n : Number} : number? k keywords = some n ↔ .number k n ∈ keywords :=
  findSome?_eq_some_iff_mem (.number k) once (fun keyword _ => by cases keyword <;> simp)
    (fun _ _ => rfl)

theorem count?_eq_some_iff (once : (keywords.map Keyword.kind).Nodup) {k : CountKeyword}
    {n : Nat} : count? k keywords = some n ↔ .count k n ∈ keywords :=
  findSome?_eq_some_iff_mem (.count k) once (fun keyword _ => by cases keyword <;> simp)
    (fun _ _ => rfl)

theorem required?_eq_some_iff (once : (keywords.map Keyword.kind).Nodup)
    {names : List String} : required? keywords = some names ↔ .required names ∈ keywords :=
  findSome?_eq_some_iff_mem .required once (fun keyword _ => by cases keyword <;> simp)
    (fun _ _ => rfl)

theorem dependencies?_eq_some_iff (once : (keywords.map Keyword.kind).Nodup)
    {ds : List Dependency} :
    dependencies? keywords = some ds ↔ .dependentRequired ds ∈ keywords :=
  findSome?_eq_some_iff_mem .dependentRequired once (fun keyword _ => by cases keyword <;> simp)
    (fun _ _ => rfl)

end Keywords

namespace Branch

open Call Keywords

variable {matching : String → String → Prop} {siblings : List (Keyword (Datum → Prop))}
  {keywords : List (Keyword Call)} {v : Datum}

/-- All keywords admit a value, each sub-schema asking what its call accepts. -/
def AllAdmit (matching : String → String → Prop) (siblings : List (Keyword (Datum → Prop)))
    (keywords : List (Keyword Call)) (v : Datum) : Prop :=
  ∀ keyword ∈ keywords, (keyword.map (Call.Accepts matching)).Admits matching siblings v

/-! ## 2. Strings -/

theorem accepts_refineBy {func : Func} (hfunc : func ∈ refiners) {α : Type} {value? : Option α}
    {constants : α → List Constant} {c : Call} :
    (refineBy value? (fun c a => c.refine func (constants a)) c).Accepts matching v ↔
      c.Accepts matching v ∧ ∀ a, value? = some a → func.Allows matching (constants a) v := by
  cases value? with
  | none => exact ⟨fun h => ⟨h, fun a ha => nomatch ha⟩, fun h => h.1⟩
  | some a =>
    rw [refineBy, accepts_refine hfunc]
    refine and_congr_right fun _ => ⟨?_, fun h => h a rfl⟩
    intro h b heq
    cases heq
    exact h

theorem ofCount?_eq_natural_iff {count? : Option Nat} {n : Nat} :
    Constant.ofCount? count? = .number (.natural n) ↔ count? = some n := by
  cases count? <;> simp [Constant.ofCount?]

theorem allAdmit_string {text : String} :
    AllAdmit matching siblings keywords (.string text) ↔
      (∀ n, .count .minLength n ∈ keywords → n ≤ text.length) ∧
      (∀ n, .count .maxLength n ∈ keywords → text.length ≤ n) ∧
      (∀ p, .text .pattern p ∈ keywords → matching p text) := by
  constructor
  · intro h
    exact ⟨fun n hn => h _ hn, fun n hn => h _ hn, fun p hp => h _ hp⟩
  · intro hbounds keyword hmem
    obtain ⟨hleast, hmost, hpattern⟩ := hbounds
    cases keyword with
    | count k n =>
      cases k with
      | minLength => exact hleast n hmem
      | maxLength => exact hmost n hmem
      | _ => trivial
    | text k p =>
      cases k with
      | pattern => exact hpattern p hmem
      | _ => trivial
    | schema k _ => cases k <;> trivial
    | entries k _ => cases k <;> trivial
    | _ => trivial

/-- A missing bound allows every length, so the call with both bounds missing may be left out. -/
theorem accepts_sized {least most : Option Nat} :
    Call.Accepts matching
        (if least.isSome || most.isSome then
          Call.refine .size (.nullary .string) [.ofCount? least, .ofCount? most]
        else .nullary .string) v ↔
      ∃ text, v = .string text ∧ (∀ n, least = some n → n ≤ text.length) ∧
        ∀ n, most = some n → text.length ≤ n := by
  split
  · rw [accepts_refine (by decide)]
    constructor
    · intro h
      obtain ⟨⟨text, rfl⟩, hleast, hmost⟩ := h
      exact ⟨text, rfl, fun n hn => hleast n (ofCount?_eq_natural_iff.mpr hn),
        fun n hn => hmost n (ofCount?_eq_natural_iff.mpr hn)⟩
    · intro h
      obtain ⟨text, rfl, hleast, hmost⟩ := h
      exact ⟨⟨text, rfl⟩, fun n hn => hleast n (ofCount?_eq_natural_iff.mp hn),
        fun n hn => hmost n (ofCount?_eq_natural_iff.mp hn)⟩
  · next hnone =>
    cases least <;> cases most <;> first | exact absurd rfl hnone | skip
    constructor
    · intro h
      obtain ⟨text, rfl⟩ := h
      exact ⟨text, rfl, (fun n hn => nomatch hn), (fun n hn => nomatch hn)⟩
    · intro h
      obtain ⟨text, rfl, -⟩ := h
      exact ⟨text, rfl⟩

theorem accepts_string (once : (keywords.map Keyword.kind).Nodup) :
    (string keywords).Accepts matching v ↔
      v.HasType .string ∧ AllAdmit matching siblings keywords v := by
  rw [string, accepts_refineBy (by decide), accepts_sized]
  simp only [count?_eq_some_iff once, text?_eq_some_iff once]
  constructor
  · intro h
    obtain ⟨⟨text, rfl, hleast, hmost⟩, hpattern⟩ := h
    exact ⟨⟨text, rfl⟩, allAdmit_string.mpr ⟨hleast, hmost, hpattern⟩⟩
  · intro h
    obtain ⟨⟨text, rfl⟩, hall⟩ := h
    obtain ⟨hleast, hmost, hpattern⟩ := allAdmit_string.mp hall
    exact ⟨⟨text, rfl, hleast, hmost⟩, hpattern⟩

/-! ## 3. Numbers, booleans and null -/

theorem allAdmit_number {q : ℚ} :
    AllAdmit matching siblings keywords (.number q) ↔
      ∀ k n, .number k n ∈ keywords → k.Allows n.value q := by
  constructor
  · intro h k n hmem
    exact h _ hmem
  · intro h keyword hmem
    cases keyword with
    | number k n => exact h k n hmem
    | count k _ => cases k <;> trivial
    | text k _ => cases k <;> trivial
    | schema k _ => cases k <;> trivial
    | entries k _ => cases k <;> trivial
    | _ => trivial

theorem isExclusive_exclusive : exclusive.IsExclusive := List.mem_singleton_self _

theorem allows_max_exclusive {n : Number} {q : ℚ} :
    Func.Allows matching .max [.number n, exclusive] (.number q) ↔ q < n.value :=
  ⟨fun h => lt_of_le_of_ne h.1 (h.2 isExclusive_exclusive), fun h => ⟨h.le, fun _ => h.ne⟩⟩

theorem allows_min_exclusive {n : Number} {q : ℚ} :
    Func.Allows matching .min [.number n, exclusive] (.number q) ↔ n.value < q :=
  ⟨fun h => lt_of_le_of_ne h.1 (h.2 isExclusive_exclusive), fun h => ⟨h.le, fun _ => h.ne⟩⟩

/-- The branch of the numbers that `base` accepts. -/
theorem accepts_number (once : (keywords.map Keyword.kind).Nodup) {base : Func}
    (hbase : (nullary base).Accepts matching v → ∃ q, v = .number q) :
    (number base keywords).Accepts matching v ↔
      (nullary base).Accepts matching v ∧ AllAdmit matching siblings keywords v := by
  rw [number, accepts_refineBy (by decide), accepts_refineBy (by decide),
    accepts_refineBy (by decide), accepts_refineBy (by decide), accepts_refineBy (by decide)]
  simp only [number?_eq_some_iff once]
  constructor
  · intro hrefined
    obtain ⟨⟨⟨⟨⟨haccepts, hmultiple⟩, hmax⟩, hbelow⟩, hmin⟩, habove⟩ := hrefined
    obtain ⟨q, rfl⟩ := hbase haccepts
    refine ⟨haccepts, allAdmit_number.mpr fun k n hmem => ?_⟩
    cases k with
    | multipleOf => exact hmultiple n hmem
    | maximum => exact hmax n hmem
    | exclusiveMaximum => exact allows_max_exclusive.mp (hbelow n hmem)
    | minimum => exact hmin n hmem
    | exclusiveMinimum => exact allows_min_exclusive.mp (habove n hmem)
  · intro hboth
    obtain ⟨haccepts, hall⟩ := hboth
    obtain ⟨q, rfl⟩ := hbase haccepts
    have h := allAdmit_number.mp hall
    exact ⟨⟨⟨⟨⟨haccepts, h .multipleOf⟩, h .maximum⟩,
      fun n hmem => allows_max_exclusive.mpr (h .exclusiveMaximum n hmem)⟩, h .minimum⟩,
      fun n hmem => allows_min_exclusive.mpr (h .exclusiveMinimum n hmem)⟩

/-- No keyword is about booleans or null. -/
theorem allAdmit_boolean_or_null (h : v.HasType .boolean ∨ v.HasType .null) :
    AllAdmit matching siblings keywords v := by
  intro keyword _
  rcases h with ⟨b, rfl⟩ | rfl
  all_goals
    cases keyword with
    | count k _ => cases k <;> trivial
    | text k _ => cases k <;> trivial
    | schema k _ => cases k <;> trivial
    | entries k _ => cases k <;> trivial
    | _ => trivial

/-! ## 4. Arrays -/

theorem allAdmit_array {items : List Datum} :
    AllAdmit matching siblings keywords (.array items) ↔
      ∀ c, .schema .items c ∈ keywords → ∀ x ∈ items, c.Accepts matching x := by
  constructor
  · intro h c hmem
    exact h _ hmem
  · intro h keyword hmem
    cases keyword with
    | schema k c =>
      cases k with
      | items => exact h c hmem
      | _ => trivial
    | count k _ => cases k <;> trivial
    | text k _ => cases k <;> trivial
    | entries k _ => cases k <;> trivial
    | _ => trivial

theorem accepts_array (once : (keywords.map Keyword.kind).Nodup) :
    (array keywords).Accepts matching v ↔
      v.HasType .array ∧ AllAdmit matching siblings keywords v := by
  have hitems : ∀ x, ((schema? .items keywords).getD .unknown).Accepts matching x ↔
      ∀ c, .schema .items c ∈ keywords → c.Accepts matching x := by
    intro x
    simp only [← schema?_eq_some_iff once]
    cases schema? .items keywords with
    | none => exact ⟨fun _ c hc => (nomatch hc), fun _ => accepts_unknown⟩
    | some c => exact ⟨fun h d hd => Option.some.inj hd ▸ h, fun h => h c rfl⟩
  rw [array, Call.accepts_array]
  simp only [hitems]
  constructor
  · intro harray
    obtain ⟨items, rfl, h⟩ := harray
    exact ⟨⟨items, rfl⟩, allAdmit_array.mpr fun c hmem x hx => h x hx c hmem⟩
  · intro hboth
    obtain ⟨⟨items, rfl⟩, hall⟩ := hboth
    exact ⟨items, rfl, fun x hx c hmem => allAdmit_array.mp hall c hmem x hx⟩

/-! ## 5. Objects -/

/-- The record of a shape: the properties have distinct keys, and no required name beside them is
    one of theirs. -/
theorem keysAgree_shape {required : List String} {properties : List (Entry Call)}
    (hkeys : (properties.map Entry.key).Nodup) (call : Entry Call → Call) :
    KeysAgree
      ((required.filter fun name => !properties.any fun p => p.key = name).map
        (fun name => (name, Call.unknown)) ++ properties.map fun p => (p.key, call p)) := by
  refine KeysAgree.append (keysAgree_map_const _ _) ?_ ?_
  · refine DistinctKeys.keysAgree ?_
    rw [DistinctKeys, List.map_map]
    exact hkeys
  · intro p hp q hq hkey
    obtain ⟨name, hname, rfl⟩ := List.mem_map.mp hp
    obtain ⟨e, he, rfl⟩ := List.mem_map.mp hq
    have hnot := (List.mem_filter.mp hname).2
    rw [Bool.not_eq_true', List.any_eq_false] at hnot
    exact hnot e he (decide_eq_true hkey.symm)

/-- **The shape of an object: the required members are there, and the properties that are there are
    as they should be.** -/
theorem accepts_shape {required : List String} {properties : List (Entry Call)}
    (hkeys : (properties.map Entry.key).Nodup)
    (hplain : ∀ p ∈ properties, p.schema.func ≠ .optional) :
    (shape required properties).Accepts matching v ↔ ∃ members, v = .object members ∧
      (∀ name ∈ required, name ∈ members.map Prod.fst) ∧
      ∀ p ∈ properties, ∀ x, (p.key, x) ∈ members → p.schema.Accepts matching x := by
  rw [shape, accepts_type (keysAgree_shape hkeys _)]
  refine exists_congr fun members => and_congr_right fun _ => ?_
  simp only [List.forall_mem_append, List.forall_mem_map]
  constructor
  · intro h
    obtain ⟨hbare, hproperties⟩ := h
    refine ⟨fun name hname => ?_, fun p hp x hx => ?_⟩
    · by_cases hproperty : ∃ p ∈ properties, p.key = name
      · obtain ⟨p, hp, rfl⟩ := hproperty
        have hpresent := (hproperties p hp).1
        rw [if_pos (List.contains_iff_mem.mpr hname)] at hpresent
        exact hpresent.resolve_left (not_isOptional (hplain p hp))
      · have hmem : name ∈ required.filter fun name => !properties.any fun p => p.key = name := by
          refine List.mem_filter.mpr ⟨hname, ?_⟩
          rw [Bool.not_eq_true', List.any_eq_false]
          intro p hp hkey
          exact hproperty ⟨p, hp, of_decide_eq_true hkey⟩
        exact (hbare name hmem).1.resolve_left (not_isOptional (by decide))
    · have haccepts := (hproperties p hp).2 x hx
      split at haccepts
      · exact haccepts
      · exact accepts_optional.mp haccepts
  · intro h
    obtain ⟨hrequired, hproperties⟩ := h
    refine ⟨fun name hname => ?_, fun p hp => ?_⟩
    · exact ⟨Or.inr (hrequired name (List.mem_filter.mp hname).1), fun _ _ => accepts_unknown⟩
    · split
      · next hcontains =>
        exact ⟨Or.inr (hrequired p.key (List.contains_iff_mem.mp hcontains)), hproperties p hp⟩
      · exact ⟨Or.inl isOptional_optional, hproperties p hp⟩

/-- The table of the dependencies says what the dependencies say. -/
theorem allows_dependencies {ds : List Dependency} (hkeys : (ds.map Dependency.key).Nodup)
    {members : List (String × Datum)} :
    Func.Allows matching .dependentProperties [.json (dependencyTable ds)] (.object members) ↔
      ∀ d ∈ ds, d.key ∈ members.map Prod.fst →
        ∀ name ∈ d.required, name ∈ members.map Prod.fst := by
  have hdistinct : DistinctKeys (ds.map fun d => (d.key, Value.ofStrings d.required)) := by
    rw [DistinctKeys, List.map_map]
    exact hkeys
  show (∀ key names, (key, .array names) ∈
    collectEntries (ds.map fun d => (d.key, Value.ofStrings d.required)) → _) ↔ _
  simp only [mem_collectEntries hdistinct.keysAgree, List.mem_map]
  constructor
  · intro h d hd hkey name hname
    exact h d.key _ ⟨d, hd, rfl⟩ hkey name (List.mem_map_of_mem hname)
  · intro h key names hentry' hkey name hname
    obtain ⟨d, hd, hentry⟩ := hentry'
    cases hentry
    obtain ⟨other, hother, heq⟩ := List.mem_map.mp hname
    cases heq
    exact h d hd hkey name hother

theorem allAdmit_object (among : KeywordsAmong KeywordKind.lowered keywords)
    {members : List (String × Datum)} :
    AllAdmit matching siblings keywords (.object members) ↔
      (∀ names, .required names ∈ keywords → ∀ name ∈ names, name ∈ members.map Prod.fst) ∧
      (∀ es, .entries .properties es ∈ keywords →
        ∀ e ∈ es, ∀ x, (e.key, x) ∈ members → e.schema.Accepts matching x) ∧
      (∀ n, .count .minProperties n ∈ keywords → n ≤ members.length) ∧
      (∀ n, .count .maxProperties n ∈ keywords → members.length ≤ n) ∧
      ∀ ds, .dependentRequired ds ∈ keywords → ∀ d ∈ ds, d.key ∈ members.map Prod.fst →
        ∀ name ∈ d.required, name ∈ members.map Prod.fst := by
  constructor
  · intro h
    refine ⟨fun names hmem => h _ hmem, fun es hmem e he => ?_, fun n hmem => h _ hmem,
      fun n hmem => h _ hmem, fun ds hmem => h _ hmem⟩
    exact h _ hmem _ (List.mem_map_of_mem he)
  · intro hrules keyword hmem
    obtain ⟨hrequired, hproperties, hleast, hmost, hdependencies⟩ := hrules
    cases keyword with
    | required names => exact hrequired names hmem
    | dependentRequired ds => exact hdependencies ds hmem
    | count k n =>
      cases k with
      | minProperties => exact hleast n hmem
      | maxProperties => exact hmost n hmem
      | _ => trivial
    | entries k es =>
      cases k with
      | properties => exact List.forall_mem_map.mpr (hproperties es hmem)
      | patternProperties =>
        exact absurd rfl (among.kind_ne (.entries .patternProperties) rfl (by decide) hmem)
      | _ => trivial
    | schema k c =>
      cases k with
      | propertyNames =>
        exact absurd rfl (among.kind_ne (.schema .propertyNames) rfl (by decide) hmem)
      | additionalProperties =>
        exact absurd rfl (among.kind_ne (.schema .additionalProperties) rfl (by decide) hmem)
      | _ => trivial
    | text k _ => cases k <;> trivial
    | _ => trivial

/-- A list that may be missing is empty then. -/
theorem forall_mem_getD {α : Type} {list? : Option (List α)} {P : α → Prop} :
    (∀ a ∈ list?.getD [], P a) ↔ ∀ list, list? = some list → ∀ a ∈ list, P a := by
  cases list? with
  | none => exact ⟨fun _ _ h => (nomatch h), fun _ _ h => (nomatch h)⟩
  | some list => exact ⟨fun h _ hlist => Option.some.inj hlist ▸ h, fun h => h list rfl⟩

/-- Without patterns, additional properties and property names, the branch of the objects is a
    refined shape. -/
theorem object_eq (among : KeywordsAmong KeywordKind.lowered keywords) (anyName : Call) :
    object anyName keywords =
      (shape ((required? keywords).getD []) ((entries? .properties keywords).getD [])
        |> refineBy (count? .minProperties keywords)
            (fun c n => c.refine .minProperties [.number (.natural n)])
        |> refineBy (count? .maxProperties keywords)
            (fun c n => c.refine .maxProperties [.number (.natural n)])
        |> refineBy (dependencies? keywords)
            (fun c ds => c.refine .dependentProperties [.json (dependencyTable ds)])) := by
  have hpatterns : entries? .patternProperties keywords = none := by
    refine Option.eq_none_iff_forall_ne_some.mpr fun es h => ?_
    exact among.kind_ne (.entries .patternProperties) rfl (by decide)
      ((entries?_eq_some_iff among.once).mp h) rfl
  have hadditional : schema? .additionalProperties keywords = none := by
    refine Option.eq_none_iff_forall_ne_some.mpr fun s h => ?_
    exact among.kind_ne (.schema .additionalProperties) rfl (by decide)
      ((schema?_eq_some_iff among.once).mp h) rfl
  have hnames : schema? .propertyNames keywords = none := by
    refine Option.eq_none_iff_forall_ne_some.mpr fun s h => ?_
    exact among.kind_ne (.schema .propertyNames) rfl (by decide)
      ((schema?_eq_some_iff among.once).mp h) rfl
  rw [object, hpatterns, hadditional, hnames]
  rfl

theorem accepts_object (among : KeywordsAmong KeywordKind.lowered keywords)
    (hplain : ∀ es, .entries .properties es ∈ keywords → ∀ e ∈ es, e.schema.func ≠ .optional)
    {anyName : Call} :
    (object anyName keywords).Accepts matching v ↔
      v.HasType .object ∧ AllAdmit matching siblings keywords v := by
  have hkeys : (((entries? .properties keywords).getD []).map Entry.key).Nodup := by
    cases hproperties : entries? .properties keywords with
    | none => exact List.nodup_nil
    | some es => exact among.propertyKeys es ((entries?_eq_some_iff among.once).mp hproperties)
  have hplain' : ∀ p ∈ (entries? .properties keywords).getD [], p.schema.func ≠ .optional :=
    forall_mem_getD.mpr fun es h => hplain es ((entries?_eq_some_iff among.once).mp h)
  rw [object_eq among, accepts_refineBy (by decide), accepts_refineBy (by decide),
    accepts_refineBy (by decide), accepts_shape hkeys hplain']
  simp only [forall_mem_getD, required?_eq_some_iff among.once, entries?_eq_some_iff among.once,
    count?_eq_some_iff among.once, dependencies?_eq_some_iff among.once]
  constructor
  · intro hrefined
    obtain ⟨⟨⟨⟨members, rfl, hrequired, hproperties⟩, hleast⟩, hmost⟩, htables⟩ := hrefined
    refine ⟨⟨members, rfl⟩, (allAdmit_object among).mpr
      ⟨hrequired, hproperties, hleast, hmost, fun ds hmem => ?_⟩⟩
    exact (allows_dependencies (among.dependencyKeys ds hmem)).mp (htables ds hmem)
  · intro hboth
    obtain ⟨⟨members, rfl⟩, hall⟩ := hboth
    obtain ⟨hrequired, hproperties, hleast, hmost, hdependencies⟩ :=
      (allAdmit_object among).mp hall
    refine ⟨⟨⟨⟨members, rfl, hrequired, hproperties⟩, hleast⟩, hmost⟩, fun ds hmem => ?_⟩
    exact (allows_dependencies (among.dependencyKeys ds hmem)).mpr (hdependencies ds hmem)

/-! ## 6. All types -/

/-- **The branch of a type accepts the values of that type that all keywords admit.** -/
theorem accepts_ofType (among : KeywordsAmong KeywordKind.lowered keywords)
    (hplain : ∀ es, .entries .properties es ∈ keywords → ∀ e ∈ es, e.schema.func ≠ .optional)
    {anyName : Call} {type : PrimitiveType} :
    (ofType anyName keywords type).Accepts matching v ↔
      v.HasType type ∧ AllAdmit matching siblings keywords v := by
  cases type with
  | string => exact accepts_string among.once
  | number => exact accepts_number among.once id
  | integer => exact accepts_number among.once fun ⟨z, h⟩ => ⟨z, h⟩
  | object => exact accepts_object among hplain
  | array => exact accepts_array among.once
  | boolean => exact ⟨fun h => ⟨h, allAdmit_boolean_or_null (Or.inl h)⟩, fun h => h.1⟩
  | null => exact ⟨fun h => ⟨h, allAdmit_boolean_or_null (Or.inr h)⟩, fun h => h.1⟩

end Branch

end SchemaCompiler
