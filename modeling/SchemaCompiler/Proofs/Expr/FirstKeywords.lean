/-
  File:      SchemaCompiler/Proofs/Expr/FirstKeywords.lean
  Subject:   Of a schema, its expression depends on the first keyword of each decisive kind.

  Two schemas AGREE (`Schema.Agree`) if both or neither constrain values, both or neither ask
  something of the names of members, and the first keywords of every decisive kind are the same,
  sub-schemas agreeing again and places left out.

  * `Call.ofKeywords_congr` -- one level: keywords with the same first ones give the same call;
  * `Schema.Incidental` -- the changes that are meant not to matter: repeated keywords, their order,
    places, what was set aside, what a keyword of another kind says, all this at any depth;
  * **`first_keywords_decide`** -- schemas that agree have the same expression, schemas that differ
    incidentally agree, and names of members are checked by one expression whatever is asked of
    them.
-/
import SchemaCompiler.Proofs.Expr.Translation
import SchemaCompiler.Proofs.Schema.Parts

namespace SchemaCompiler

/-! ## 1. The first keyword of a kind -/

namespace Keywords

variable {σ τ : Type}

/-- The first keyword of a kind. -/
def first? (kind : KeywordKind) (keywords : List (Keyword σ)) : Option (Keyword σ) :=
  keywords.find? fun keyword => keyword.kind = kind

theorem first?_map {f : Keyword σ → Keyword τ} (hkind : ∀ keyword, (f keyword).kind = keyword.kind)
    (kind : KeywordKind) (keywords : List (Keyword σ)) :
    first? kind (keywords.map f) = (first? kind keywords).map f := by
  rw [first?, List.find?_map, first?]
  simp only [Function.comp_def, hkind]

theorem first?_append (kind : KeywordKind) (earlier later : List (Keyword σ)) :
    first? kind (earlier ++ later) = (first? kind earlier).or (first? kind later) :=
  List.find?_append

theorem first?_cons (kind : KeywordKind) (keyword : Keyword σ) (rest : List (Keyword σ)) :
    first? kind (keyword :: rest) =
      if keyword.kind = kind then some keyword else first? kind rest := by
  by_cases hkind : keyword.kind = kind <;> simp [first?, hkind]

/-- What reads the keywords of one kind only reads the first of them. -/
theorem findSome?_eq_bind_first? {α : Type} {extract : Keyword σ → Option α} {kind : KeywordKind}
    (hreads : ∀ keyword, (extract keyword).isSome ↔ keyword.kind = kind)
    (keywords : List (Keyword σ)) :
    keywords.findSome? extract = (first? kind keywords).bind extract := by
  induction keywords with
  | nil => rfl
  | cons keyword rest ih =>
    by_cases hkind : keyword.kind = kind
    · obtain ⟨a, ha⟩ := Option.isSome_iff_exists.mp ((hreads keyword).mpr hkind)
      rw [List.findSome?_cons, ha, first?_cons, if_pos hkind, Option.bind_some, ha]
    · have hnone : extract keyword = none :=
        Option.not_isSome_iff_eq_none.mp fun h => hkind ((hreads keyword).mp h)
      rw [List.findSome?_cons, hnone, ih, first?_cons, if_neg hkind]

section Congruence

variable {keywords keywords' : List (Keyword σ)}

/-- Keywords whose first ones of a kind are the same but for places are read alike, but for what
    `f` forgets. -/
theorem findSome?_congr {α : Type} {extract : Keyword σ → Option α} {f : α → α}
    (kind : KeywordKind) (hreads : ∀ keyword, (extract keyword).isSome ↔ keyword.kind = kind)
    (hforgets : ∀ keyword : Keyword σ, extract keyword.unplaced = (extract keyword).map f)
    (h : (first? kind keywords).map Keyword.unplaced =
      (first? kind keywords').map Keyword.unplaced) :
    (keywords.findSome? extract).map f = (keywords'.findSome? extract).map f := by
  have hread : ∀ list : List (Keyword σ), (list.findSome? extract).map f =
      ((first? kind list).map Keyword.unplaced).bind extract := by
    intro list
    rw [findSome?_eq_bind_first? hreads, Option.map_bind, Option.bind_map]
    exact congrArg (Option.bind (first? kind list)) (funext fun keyword => (hforgets keyword).symm)
  rw [hread, hread, h]

/-- What does not look at places reads the same. -/
theorem findSome?_congr_of_blind {α : Type} {extract : Keyword σ → Option α} (kind : KeywordKind)
    (hreads : ∀ keyword, (extract keyword).isSome ↔ keyword.kind = kind)
    (hblind : ∀ keyword : Keyword σ, extract keyword.unplaced = extract keyword)
    (h : (first? kind keywords).map Keyword.unplaced =
      (first? kind keywords').map Keyword.unplaced) :
    keywords.findSome? extract = keywords'.findSome? extract := by
  have hmap := findSome?_congr kind hreads (fun keyword => by rw [hblind, Option.map_id']) h
  rwa [Option.map_id', Option.map_id'] at hmap

theorem text?_congr {k : TextKeyword}
    (h : (first? (.text k) keywords).map Keyword.unplaced =
      (first? (.text k) keywords').map Keyword.unplaced) :
    text? k keywords = text? k keywords' :=
  findSome?_congr_of_blind (.text k) (fun keyword => by cases keyword <;> simp [Keyword.kind])
    (fun keyword => by cases keyword <;> rfl) h

theorem schema?_congr {k : SchemaKeyword}
    (h : (first? (.schema k) keywords).map Keyword.unplaced =
      (first? (.schema k) keywords').map Keyword.unplaced) :
    schema? k keywords = schema? k keywords' :=
  findSome?_congr_of_blind (.schema k) (fun keyword => by cases keyword <;> simp [Keyword.kind])
    (fun keyword => by cases keyword <;> rfl) h

theorem types?_congr
    (h : (first? .types keywords).map Keyword.unplaced =
      (first? .types keywords').map Keyword.unplaced) :
    types? keywords = types? keywords' :=
  findSome?_congr_of_blind .types (fun keyword => by cases keyword <;> simp [Keyword.kind])
    (fun keyword => by cases keyword <;> rfl) h

theorem number?_congr {k : NumberKeyword}
    (h : (first? (.number k) keywords).map Keyword.unplaced =
      (first? (.number k) keywords').map Keyword.unplaced) :
    number? k keywords = number? k keywords' :=
  findSome?_congr_of_blind (.number k) (fun keyword => by cases keyword <;> simp [Keyword.kind])
    (fun keyword => by cases keyword <;> rfl) h

theorem count?_congr {k : CountKeyword}
    (h : (first? (.count k) keywords).map Keyword.unplaced =
      (first? (.count k) keywords').map Keyword.unplaced) :
    count? k keywords = count? k keywords' :=
  findSome?_congr_of_blind (.count k) (fun keyword => by cases keyword <;> simp [Keyword.kind])
    (fun keyword => by cases keyword <;> rfl) h

theorem required?_congr
    (h : (first? .required keywords).map Keyword.unplaced =
      (first? .required keywords').map Keyword.unplaced) :
    required? keywords = required? keywords' :=
  findSome?_congr_of_blind .required (fun keyword => by cases keyword <;> simp [Keyword.kind])
    (fun keyword => by cases keyword <;> rfl) h

theorem entries?_congr {k : MapKeyword}
    (h : (first? (.entries k) keywords).map Keyword.unplaced =
      (first? (.entries k) keywords').map Keyword.unplaced) :
    (entries? k keywords).map (List.map Entry.unplaced) =
      (entries? k keywords').map (List.map Entry.unplaced) :=
  findSome?_congr (.entries k) (fun keyword => by cases keyword <;> simp [Keyword.kind])
    (fun keyword => by cases keyword <;> simp [Keyword.unplaced, apply_ite]) h

theorem dependencies?_congr
    (h : (first? .dependentRequired keywords).map Keyword.unplaced =
      (first? .dependentRequired keywords').map Keyword.unplaced) :
    (dependencies? keywords).map (List.map Dependency.unplaced) =
      (dependencies? keywords').map (List.map Dependency.unplaced) :=
  findSome?_congr .dependentRequired (fun keyword => by cases keyword <;> simp [Keyword.kind])
    (fun keyword => by cases keyword <;> rfl) h

end Congruence

/-- A keyword with a sub-schema is there or not. -/
theorem isSome_schema? {k : SchemaKeyword} {keywords : List (Keyword σ)} :
    (schema? k keywords).isSome = keywords.any fun keyword => keyword.kind = .schema k := by
  rw [schema?, Bool.eq_iff_iff, List.findSome?_isSome_iff, List.any_eq_true]
  refine exists_congr fun keyword => and_congr_right fun _ => ?_
  cases keyword <;> simp [Keyword.kind]

end Keywords

/-! ## 2. One level: the call of some keywords -/

/-- The kinds of keywords that become part of an expression. -/
def KeywordKind.decisive : List KeywordKind :=
  [.types, .schema .not, .required, .entries .properties, .entries .patternProperties,
   .schema .additionalProperties, .count .minProperties, .count .maxProperties, .dependentRequired,
   .count .minLength, .count .maxLength, .text .pattern, .number .multipleOf, .number .maximum,
   .number .exclusiveMaximum, .number .minimum, .number .exclusiveMinimum, .schema .items]

/-- Keywords that constrain or not alike, ask something of names or not alike, and of which the
    first of every decisive kind is the same but for places. -/
structure SameFirst {σ : Type} (keywords keywords' : List (Keyword σ)) : Prop where
  validation : (keywords.any fun keyword => keyword.kind.keywordClass = .validation) =
    keywords'.any fun keyword => keyword.kind.keywordClass = .validation
  names : (keywords.any fun keyword => keyword.kind = .schema .propertyNames) =
    keywords'.any fun keyword => keyword.kind = .schema .propertyNames
  first : ∀ kind ∈ KeywordKind.decisive,
    (Keywords.first? kind keywords).map Keyword.unplaced =
      (Keywords.first? kind keywords').map Keyword.unplaced

namespace Branch

open Keywords

variable {properties properties' : List (Entry Call)}

theorem shape_congr (h : properties.map Entry.unplaced = properties'.map Entry.unplaced)
    (required : List String) : shape required properties = shape required properties' := by
  have hplace : ∀ es : List (Entry Call),
      shape required (es.map Entry.unplaced) = shape required es := by
    intro es
    rw [shape, shape, List.map_map]
    simp only [List.any_map]
    rfl
  rw [← hplace, h, hplace]

theorem dependencyTable_congr {dependencies dependencies' : List Dependency}
    (h : dependencies.map Dependency.unplaced = dependencies'.map Dependency.unplaced) :
    dependencyTable dependencies = dependencyTable dependencies' := by
  have hplace : ∀ ds : List Dependency,
      dependencyTable (ds.map Dependency.unplaced) = dependencyTable ds :=
    fun ds => by simp [dependencyTable, Dependency.unplaced, Function.comp_def]
  rw [← hplace, h, hplace]

theorem knownKeys_unplaced (required : List String) (properties patterns : List (Entry Call)) :
    knownKeys required (properties.map Entry.unplaced) (patterns.map Entry.unplaced) =
      knownKeys required properties patterns := by
  simp [knownKeys, Entry.unplaced, Function.comp_def]

theorem surplusArms_congr {patterns? patterns?' : Option (List (Entry Call))}
    (h : properties.map Entry.unplaced = properties'.map Entry.unplaced)
    (hpatterns : patterns?.map (List.map Entry.unplaced) = patterns?'.map (List.map Entry.unplaced))
    (required : List String) (additional? : Option Call) :
    surplusArms required properties patterns? additional? =
      surplusArms required properties' patterns?' additional? := by
  have hplace : ∀ (es : List (Entry Call)) (ps? : Option (List (Entry Call))),
      surplusArms required (es.map Entry.unplaced) (ps?.map (List.map Entry.unplaced)) additional? =
        surplusArms required es ps? additional? := by
    intro es ps?
    cases ps? with
    | none =>
      rw [surplusArms, Option.map_none, Option.getD_none, ← List.map_nil, knownKeys_unplaced]
      rfl
    | some ps =>
      simp only [surplusArms, Option.map_some, Option.getD_some, knownKeys_unplaced]
      simp [Entry.unplaced, Function.comp_def]
  rw [← hplace, h, hpatterns, hplace]

theorem getD_map_congr {es? es?' : Option (List (Entry Call))}
    (h : es?.map (List.map Entry.unplaced) = es?'.map (List.map Entry.unplaced)) :
    (es?.getD []).map Entry.unplaced = (es?'.getD []).map Entry.unplaced := by
  have hgetD : ∀ es? : Option (List (Entry Call)), (es?.getD []).map Entry.unplaced =
      (es?.map (List.map Entry.unplaced)).getD [] := by
    intro es?
    cases es? <;> rfl
  rw [hgetD, hgetD, h]

theorem refineBy_congr {α : Type} {f : α → α} {value? value?' : Option α} {refine : Call → α → Call}
    {c : Call} (h : value?.map f = value?'.map f)
    (hrefine : ∀ c a b, f a = f b → refine c a = refine c b) :
    refineBy value? refine c = refineBy value?' refine c := by
  cases value? with
  | none =>
    cases value?' with
    | none => rfl
    | some => cases h
  | some a =>
    cases value?' with
    | none => cases h
    | some b => exact hrefine c a b (Option.some.inj h)

variable {keywords keywords' : List (Keyword Call)}

theorem number_congr (h : SameFirst keywords keywords') (base : Func) :
    number base keywords = number base keywords' := by
  rw [number, number, number?_congr (h.first _ (by decide)), number?_congr (h.first _ (by decide)),
    number?_congr (h.first _ (by decide)), number?_congr (h.first _ (by decide)),
    number?_congr (h.first _ (by decide))]

theorem object_congr (h : SameFirst keywords keywords') (anyName : Call) :
    object anyName keywords = object anyName keywords' := by
  have hproperties := entries?_congr (h.first (.entries .properties) (by decide))
  have hpatterns := entries?_congr (h.first (.entries .patternProperties) (by decide))
  have hdependencies := dependencies?_congr (h.first .dependentRequired (by decide))
  -- Of what is asked of names, the branch sees whether it is asked.
  have hnames : (schema? .propertyNames keywords).map (fun _ => Call.unknown) =
      (schema? .propertyNames keywords').map (fun _ => Call.unknown) := by
    have hpresent := h.names
    rw [← isSome_schema?, ← isSome_schema?] at hpresent
    cases hs : schema? .propertyNames keywords <;> cases hs' : schema? .propertyNames keywords' <;>
      simp_all
  rw [object, object, required?_congr (h.first _ (by decide)),
    shape_congr (getD_map_congr hproperties),
    count?_congr (h.first (.count .minProperties) (by decide)),
    count?_congr (h.first (.count .maxProperties) (by decide)),
    refineBy_congr hdependencies (fun c ds ds' heq => by rw [dependencyTable_congr heq]),
    refineBy_congr hnames (fun _ _ _ _ => rfl),
    surplusArms_congr (getD_map_congr hproperties) hpatterns,
    schema?_congr (h.first (.schema .additionalProperties) (by decide))]

theorem ofType_congr (h : SameFirst keywords keywords') (anyName : Call) (type : PrimitiveType) :
    ofType anyName keywords type = ofType anyName keywords' type := by
  cases type with
  | string =>
    rw [ofType, ofType, string, string, count?_congr (h.first _ (by decide)),
      count?_congr (h.first _ (by decide)), text?_congr (h.first _ (by decide))]
  | number => exact number_congr h .number
  | integer => exact number_congr h .integer
  | object => exact object_congr h anyName
  | array => rw [ofType, ofType, array, array, schema?_congr (h.first _ (by decide))]
  | boolean => rfl
  | null => rfl

end Branch

namespace Call

/-- **Keywords with the same first ones give the same call.** -/
theorem ofKeywords_congr {keywords keywords' : List (Keyword Call)}
    (h : SameFirst keywords keywords') : ofKeywords keywords = ofKeywords keywords' := by
  rw [ofKeywords, ofKeywords, h.validation, Keywords.types?_congr (h.first _ (by decide)),
    Keywords.schema?_congr (h.first _ (by decide)),
    funext (Branch.ofType_congr h anyType)]

end Call

/-! ## 3. Schemas that agree -/

namespace Schema

/-- The first keyword of a kind. -/
def first? (schema : Schema) (kind : KeywordKind) : Option (Keyword Schema) :=
  Keywords.first? kind (schema.keywords.map Located.keyword)

/-- **Schemas that agree.** Both or neither constrain values and ask something of names; the first
    keywords of a decisive kind say the same beside their sub-schemas, and these agree in turn. -/
inductive Agree : Schema → Schema → Prop where
  | mk {s t : Schema}
      (validation : s.hasValidation = t.hasValidation)
      (names : s.has (.schema .propertyNames) = t.has (.schema .propertyNames))
      (first : ∀ kind ∈ KeywordKind.decisive,
        (s.first? kind).map Keyword.outline = (t.first? kind).map Keyword.outline)
      (parts : ∀ kind ∈ KeywordKind.decisive, ∀ a b, s.first? kind = some a →
        t.first? kind = some b → ∀ (i : Nat) (x y : Schema),
          a.parts[i]? = some x → b.parts[i]? = some y → Agree x y) :
      Agree s t

theorem Agree.refl (schema : Schema) : schema.Agree schema := by
  induction schema using induction_on_parts with
  | step schema ih =>
    refine .mk rfl rfl (fun _ _ => rfl) fun kind _ a b ha hb i x y hx hy => ?_
    cases ha.symm.trans hb
    cases hx.symm.trans hy
    obtain ⟨located, hmem, rfl⟩ := List.mem_map.mp (List.mem_of_find?_eq_some ha)
    exact ih located hmem x (List.mem_of_getElem? hx)

theorem Agree.symm {s t : Schema} (h : s.Agree t) : t.Agree s := by
  induction h with
  | mk validation names first _ ih =>
    exact .mk validation.symm names.symm (fun kind hkind => (first kind hkind).symm)
      fun kind hkind a b ha hb i x y hx hy => ih kind hkind b a hb ha i y x hy hx

theorem Agree.trans {s t u : Schema} (h : s.Agree t) (h' : t.Agree u) : s.Agree u := by
  induction h generalizing u with
  | @mk s t validation names first _ ih =>
    obtain ⟨validation', names', first', parts'⟩ := h'
    refine .mk (validation.trans validation') (names.trans names')
      (fun kind hkind => (first kind hkind).trans (first' kind hkind)) ?_
    intro kind hkind a c ha hc i x z hx hz
    -- The keyword in between has as many sub-schemas as the other two.
    have hab := first kind hkind
    rw [ha, Option.map_some, eq_comm, Option.map_eq_some_iff] at hab
    obtain ⟨b, hb, hab⟩ := hab
    have hi : i < b.parts.length := by
      rw [Keyword.length_parts_eq hab]
      exact (List.getElem?_eq_some_iff.mp hx).1
    have hy := List.getElem?_eq_getElem hi
    exact ih kind hkind a b ha hb i x _ hx hy (parts' kind hkind b c hb hc i _ z hy hz)

/-- By induction over the agreement: the sub-schemas become the same calls, so the keywords with
    these calls have the same first ones. -/
theorem Agree.ofSchema_eq {s t : Schema} (h : s.Agree t) : Call.ofSchema s = Call.ofSchema t := by
  induction h with
  | @mk s t validation names first _ ih =>
    obtain ⟨keywords, unsupported, span⟩ := s
    obtain ⟨keywords', unsupported', span'⟩ := t
    rw [Call.ofSchema_mk, Call.ofSchema_mk]
    refine Call.ofKeywords_congr ⟨?_, ?_, ?_⟩
    · simpa [hasValidation, Schema.keywords, Function.comp_def, Keyword.kind_map] using validation
    · simpa [has, Schema.keywords, Function.comp_def, Keyword.kind_map] using names
    · intro kind hkind
      have hfirst := first kind hkind
      have hparts := ih kind hkind
      rw [Keywords.first?_map (Keyword.kind_map _), Keywords.first?_map (Keyword.kind_map _)]
      rw [first?, first?, Schema.keywords, Schema.keywords] at hfirst hparts
      cases hs : Keywords.first? kind (keywords.map Located.keyword) with
      | none =>
        rw [hs, Option.map_none, eq_comm, Option.map_eq_none_iff] at hfirst
        rw [hfirst]
      | some a =>
        rw [hs, Option.map_some, eq_comm, Option.map_eq_some_iff] at hfirst
        obtain ⟨b, hb, houtline⟩ := hfirst
        rw [hb]
        exact congrArg some (Keyword.unplaced_map_eq houtline.symm
          (Keyword.map_parts_eq houtline.symm (hparts a b hs hb)))

end Schema

/-! ## 4. Incidental changes -/

namespace Schema

/-- **Schemas that differ in what is meant not to matter.** -/
inductive Incidental : Schema → Schema → Prop where
  | refl (s : Schema) : Incidental s s
  | symm {s t : Schema} : Incidental s t → Incidental t s
  | trans {s t u : Schema} : Incidental s t → Incidental t u → Incidental s u
  /-- Where the schema stands, and what was set aside. -/
  | aside {keywords : List (Located (Keyword Schema))} {unsupported unsupported' : List Parked}
      {span span' : Option Span} :
      Incidental (.mk keywords unsupported span) (.mk keywords unsupported' span')
  /-- A later keyword of a kind. -/
  | repeated {earlier later : List (Located (Keyword Schema))} {a : Located (Keyword Schema)}
      {unsupported : List Parked} {span : Option Span} :
      a.keyword.kind ∈ earlier.map (fun located => located.keyword.kind) →
      Incidental (.mk (earlier ++ a :: later) unsupported span)
        (.mk (earlier ++ later) unsupported span)
  /-- The order of two keywords of different kinds. -/
  | swapped {earlier later : List (Located (Keyword Schema))} {a b : Located (Keyword Schema)}
      {unsupported : List Parked} {span : Option Span} :
      a.keyword.kind ≠ b.keyword.kind →
      Incidental (.mk (earlier ++ a :: b :: later) unsupported span)
        (.mk (earlier ++ b :: a :: later) unsupported span)
  /-- All that a keyword says whose kind is not decisive. -/
  | content {earlier later : List (Located (Keyword Schema))} {a b : Located (Keyword Schema)}
      {unsupported : List Parked} {span : Option Span} :
      a.keyword.kind = b.keyword.kind → a.keyword.kind ∉ KeywordKind.decisive →
      Incidental (.mk (earlier ++ a :: later) unsupported span)
        (.mk (earlier ++ b :: later) unsupported span)
  /-- Where a keyword and its entries stand, and such changes inside of it. -/
  | within {earlier later : List (Located (Keyword Schema))} {a b : Located (Keyword Schema)}
      {unsupported : List Parked} {span : Option Span} :
      a.keyword.outline = b.keyword.outline →
      (∀ (i : Nat) (x y : Schema), a.keyword.parts[i]? = some x → b.keyword.parts[i]? = some y →
        Incidental x y) →
      Incidental (.mk (earlier ++ a :: later) unsupported span)
        (.mk (earlier ++ b :: later) unsupported span)

variable {s t : Schema}

/-- The kinds of the keywords. -/
def kinds (schema : Schema) : List KeywordKind :=
  schema.keywords.map fun located => located.keyword.kind

theorem any_kind_congr (hkinds : ∀ kind, kind ∈ s.kinds ↔ kind ∈ t.kinds)
    (p : KeywordKind → Bool) :
    (s.keywords.any fun located => p located.keyword.kind) =
      t.keywords.any fun located => p located.keyword.kind := by
  have hany : ∀ schema : Schema, (schema.keywords.any fun located => p located.keyword.kind) =
      schema.kinds.any p := fun schema => by rw [kinds, List.any_map]; rfl
  rw [hany, hany, Bool.eq_iff_iff, List.any_eq_true, List.any_eq_true]
  exact exists_congr fun kind => and_congr_left fun _ => hkinds kind

/-- Schemas with the same kinds of keywords constrain values and names alike. -/
theorem Agree.of_kinds (hkinds : ∀ kind, kind ∈ s.kinds ↔ kind ∈ t.kinds)
    (first : ∀ kind ∈ KeywordKind.decisive,
      (s.first? kind).map Keyword.outline = (t.first? kind).map Keyword.outline)
    (parts : ∀ kind ∈ KeywordKind.decisive, ∀ a b, s.first? kind = some a →
      t.first? kind = some b → ∀ (i : Nat) (x y : Schema),
        a.parts[i]? = some x → b.parts[i]? = some y → Agree x y) : s.Agree t :=
  .mk (any_kind_congr hkinds fun kind => kind.keywordClass = .validation)
    (any_kind_congr hkinds fun kind => kind = .schema .propertyNames) first parts

/-- Schemas with the same first keywords agree, since every sub-schema agrees with itself. -/
theorem Agree.of_first_eq (hkinds : ∀ kind, kind ∈ s.kinds ↔ kind ∈ t.kinds)
    (h : ∀ kind ∈ KeywordKind.decisive, s.first? kind = t.first? kind) : s.Agree t := by
  refine .of_kinds hkinds (fun kind hkind => by rw [h kind hkind]) ?_
  intro kind hkind a b ha hb i x y hx hy
  cases (ha.symm.trans (h kind hkind)).trans hb
  cases hx.symm.trans hy
  exact .refl x

theorem first?_mk (keywords : List (Located (Keyword Schema))) (unsupported : List Parked)
    (span : Option Span) (kind : KeywordKind) :
    (mk keywords unsupported span).first? kind =
      Keywords.first? kind (keywords.map Located.keyword) := rfl

/-- Where keywords of one kind are exchanged, the first keyword of a kind is the one exchanged or
    stays as it is. -/
theorem first?_exchange {earlier later : List (Located (Keyword Schema))}
    {a b : Located (Keyword Schema)} {unsupported : List Parked} {span : Option Span}
    (hkind : a.keyword.kind = b.keyword.kind) (kind : KeywordKind) :
    (mk (earlier ++ a :: later) unsupported span).first? kind =
        (mk (earlier ++ b :: later) unsupported span).first? kind ∨
      a.keyword.kind = kind ∧
        (mk (earlier ++ a :: later) unsupported span).first? kind = some a.keyword ∧
        (mk (earlier ++ b :: later) unsupported span).first? kind = some b.keyword := by
  simp only [first?_mk, List.map_append, List.map_cons, Keywords.first?_append,
    Keywords.first?_cons]
  cases Keywords.first? kind (earlier.map Located.keyword) with
  | some found => exact .inl rfl
  | none =>
    by_cases h : a.keyword.kind = kind
    · rw [if_pos h, if_pos (hkind ▸ h)]
      exact .inr ⟨h, rfl, rfl⟩
    · rw [if_neg h, if_neg (hkind ▸ h)]
      exact .inl rfl

theorem kinds_exchange {earlier later : List (Located (Keyword Schema))}
    {a b : Located (Keyword Schema)} {unsupported : List Parked} {span : Option Span}
    (hkind : a.keyword.kind = b.keyword.kind) :
    (mk (earlier ++ a :: later) unsupported span).kinds =
      (mk (earlier ++ b :: later) unsupported span).kinds := by
  simp only [kinds, keywords, List.map_append, List.map_cons, hkind]

/-- **Incidental changes leave schemas in agreement.** -/
theorem Incidental.agree (h : s.Incidental t) : s.Agree t := by
  induction h with
  | refl s => exact .refl s
  | symm _ ih => exact ih.symm
  | trans _ _ ih ih' => exact ih.trans ih'
  | aside => exact .of_first_eq (fun _ => Iff.rfl) fun _ _ => rfl
  | @repeated earlier later a unsupported span hmem =>
    refine .of_first_eq (fun kind => ?_) fun kind _ => ?_
    · simp only [kinds, keywords, List.map_append, List.map_cons, List.mem_append, List.mem_cons]
      constructor
      · rintro (h | rfl | h)
        · exact .inl h
        · exact .inl hmem
        · exact .inr h
      · rintro (h | h)
        · exact .inl h
        · exact .inr (.inr h)
    · simp only [first?_mk, List.map_append, List.map_cons, Keywords.first?_append,
        Keywords.first?_cons]
      by_cases hkind : a.keyword.kind = kind
      · -- An earlier keyword is of this kind.
        obtain ⟨located, hlocated, heq⟩ := List.mem_map.mp hmem
        have hfound : (Keywords.first? kind (earlier.map Located.keyword)).isSome := by
          rw [Keywords.first?, List.find?_isSome]
          exact ⟨_, List.mem_map_of_mem hlocated, by simp [heq, hkind]⟩
        obtain ⟨b, hb⟩ := Option.isSome_iff_exists.mp hfound
        rw [hb, Option.some_or, Option.some_or]
      · rw [if_neg hkind]
  | @swapped earlier later a b unsupported span hne =>
    refine .of_first_eq (fun kind => ?_) fun kind _ => ?_
    · simp only [kinds, keywords, List.map_append, List.map_cons, List.mem_append, List.mem_cons]
      rw [or_left_comm (b := kind = b.keyword.kind)]
    · simp only [first?_mk, List.map_append, List.map_cons, Keywords.first?_append,
        Keywords.first?_cons]
      by_cases ha : a.keyword.kind = kind
      · rw [if_pos ha, if_neg (ha ▸ hne.symm), if_pos ha]
      · rw [if_neg ha, if_neg ha]
  | content hkind hother =>
    refine .of_first_eq (fun kind => by rw [kinds_exchange hkind]) fun kind hdecisive => ?_
    obtain heq | ⟨rfl, -⟩ := first?_exchange hkind kind
    · exact heq
    · exact absurd hdecisive hother
  | @within earlier later a b unsupported span houtline _ ih =>
    have hkind : a.keyword.kind = b.keyword.kind := by
      rw [← Keyword.kind_outline, houtline, Keyword.kind_outline]
    refine .of_kinds (fun kind => by rw [kinds_exchange hkind]) (fun kind _ => ?_) ?_
    · obtain heq | ⟨-, ha, hb⟩ := first?_exchange hkind kind
      · rw [heq]
      · rw [ha, hb, Option.map_some, Option.map_some, houtline]
    · intro kind _ c d hc hd i x y hx hy
      obtain heq | ⟨-, ha, hb⟩ := first?_exchange hkind kind
      · cases (hc.symm.trans heq).trans hd
        cases hx.symm.trans hy
        exact .refl x
      · cases hc.symm.trans ha
        cases hd.symm.trans hb
        exact ih i x y hx hy

end Schema

/-! ## 5. The theorem -/

/-- The schema of names of members: texts that satisfy `names`. -/
def Schema.ofNames (names : Schema) : Schema :=
  .mk [⟨.schemas .allOf [.mk [⟨.types [.string], none⟩] [] none, names], none⟩] [] none

/-- **The first keywords decide.** Schemas that agree have the same expression, and incidental
    changes leave schemas in agreement. What is asked of the names of members does not matter
    because every schema of names has the expression of all types. -/
theorem first_keywords_decide :
    (∀ s t : Schema, s.Agree t → Call.ofSchema s = Call.ofSchema t) ∧
      (∀ s t : Schema, s.Incidental t → s.Agree t) ∧
      ∀ names : Schema, Call.ofSchema (.ofNames names) = Call.anyType :=
  ⟨fun _ _ h => h.ofSchema_eq, fun _ _ h => h.agree, fun _ => by
    rw [Schema.ofNames, Call.ofSchema_mk]
    rfl⟩

/-- A member `a` that is a text of some least lengths. -/
def memberA (bounds : List Nat) (place : Span) : Located (Keyword Schema) :=
  ⟨.entries .properties
    [⟨"a", .mk (bounds.map fun n => ⟨.count .minLength n, none⟩) [] none, place⟩], some place⟩

/-- An object with such a member. -/
def tidy : Schema :=
  .mk [⟨.types [.object], none⟩, memberA [1] ⟨0, 0⟩, ⟨.schema .propertyNames .empty, none⟩] [] none

/-- The same in another order and at other places, with a second bound for the text and another
    schema for names. -/
def untidy : Schema :=
  .mk [memberA [1, 2] ⟨3, 9⟩, ⟨.types [.object], none⟩,
    ⟨.schema .propertyNames (.mk [⟨.types [.null], none⟩] [] none), none⟩] [] (some ⟨0, 40⟩)

theorem first_keywords_decide_untidy :
    untidy.Incidental tidy ∧ untidy.Agree tidy ∧ Call.ofSchema untidy = Call.ofSchema tidy := by
  have hbound : ∀ (i : Nat) (x y : Schema), (memberA [1, 2] ⟨3, 9⟩).keyword.parts[i]? = some x →
      (memberA [1] ⟨0, 0⟩).keyword.parts[i]? = some y → x.Incidental y := by
    intro i x y hx hy
    obtain ⟨hi, rfl⟩ := List.getElem?_eq_some_iff.mp hx
    cases Nat.lt_one_iff.mp hi
    cases hy
    exact @Schema.Incidental.repeated [⟨.count .minLength 1, none⟩] [] ⟨.count .minLength 2, none⟩
      [] none (by decide)
  have hinside : untidy.Incidental (.mk [memberA [1] ⟨0, 0⟩, ⟨.types [.object], none⟩,
      ⟨.schema .propertyNames (.mk [⟨.types [.null], none⟩] [] none), none⟩] [] (some ⟨0, 40⟩)) :=
    @Schema.Incidental.within [] _ (memberA [1, 2] ⟨3, 9⟩) (memberA [1] ⟨0, 0⟩) _ _ rfl hbound
  have horder := @Schema.Incidental.swapped []
    [⟨.schema .propertyNames (.mk [⟨.types [.null], none⟩] [] none), none⟩]
    (memberA [1] ⟨0, 0⟩) ⟨.types [.object], none⟩ [] (some ⟨0, 40⟩) (by decide)
  have hnames := @Schema.Incidental.content [⟨.types [.object], none⟩, memberA [1] ⟨0, 0⟩] []
    ⟨.schema .propertyNames (.mk [⟨.types [.null], none⟩] [] none), none⟩
    ⟨.schema .propertyNames .empty, none⟩ [] (some ⟨0, 40⟩) rfl (by decide)
  have h : untidy.Incidental tidy := ((hinside.trans horder).trans hnames).trans .aside
  exact ⟨h, first_keywords_decide.2.1 _ _ h,
    first_keywords_decide.1 _ _ (first_keywords_decide.2.1 _ _ h)⟩

end SchemaCompiler
