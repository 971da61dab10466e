/-
  File:      SchemaCompiler/Proofs/Expr/ObjectKeys.lean
  Subject:   The keys that the object branch of a schema knows.

  The keys of an object are listed twice: in the record of its shape, where a name that is only
  required comes before the properties, and in the matcher of the keys that additional properties
  do not have, where the properties come first. The two lists are built apart from each other, from
  lists in which names may repeat and overlap.

  * `ShapeRecord`: the record has each key once, at its first place, with what the last property of
    that name says (`shapeRecord_collected`);
  * `KnownArms`: the matcher has the keys once, at their first place, and an arm in any case
    (`knownArms_knownKeys`);
  * **`shape_known_keys_agree`**: in the expression of every schema, both have the same keys.
-/
import SchemaCompiler.Proofs.Expr.Translation

namespace SchemaCompiler

open Keywords

/-! ## 1. What the branch is to be -/

/-- What the shape of an object says of a name: anything for a name that no property describes,
    and else what the last property of that name says, optional unless the name is required. -/
def memberItem (required : List String) (properties : List (Entry Schema)) (name : String) :
    Item :=
  match properties.reverse.find? fun property => property.key = name with
  | none => Call.unknown.toItem
  | some property =>
    if name ∈ required then (Call.ofSchema property.schema).toItem
    else .call .optional [(Call.ofSchema property.schema).toArg]

/-- The record of a shape: the required names that no property describes, then the properties. -/
structure ShapeRecord (required : List String) (properties : List (Entry Schema))
    (fields : List (String × Item)) : Prop where
  once : (fields.map Prod.fst).Nodup
  same : ∀ name, name ∈ fields.map Prod.fst ↔ name ∈ required ∨ name ∈ properties.map Entry.key
  order : ∃ bare described, fields.map Prod.fst = bare ++ described ∧
    ListsFirst (required.filter fun name => name ∉ properties.map Entry.key) bare ∧
    ListsFirst (properties.map Entry.key) described
  values : ∀ field ∈ fields, field.2 = memberItem required properties field.1

/-- The matcher of some keys, if there are any. -/
def keyMatcher (func : Func) (keys : List String) : List Call :=
  if keys = [] then [] else [⟨func, [.record (keys.map fun key => (key, Call.unknown.toItem))]⟩]

/-- The arms that match the known keys: those of the names and those of the patterns, or the arm
    that matches nothing if there are neither. -/
structure KnownArms (names patterns : List String) (arms : List Call) : Prop where
  some_arm : arms ≠ []
  arms_eq : ¬ (names = [] ∧ patterns = []) →
    arms = keyMatcher .object names ++ keyMatcher .patternObject patterns
  never_iff : arms = [Call.never] ↔ names = [] ∧ patterns = []

/-- The functions that refine the shape of an object. -/
def Func.ofObjects : List Func := [.minProperties, .maxProperties, .dependentProperties, .keys]

/-- A call with refinements of objects around it. -/
inductive Refined (c : Call) : Call → Prop
  | here : Refined c c
  | by {d : Call} {func : Func} {args : List Arg} :
      Refined c d → func ∈ Func.ofObjects → Refined c ⟨func, d.toArg :: args⟩

/-- A call, beside the alternative of some arms if there are any. -/
def Call.besideArms (c : Call) : List Call → Call
  | [] => c
  | arms => .intersection [c, .union arms]

/-- The branch of the objects: the `type` call of the record `fields`, refined, beside `arms`; the
    last arm is that of the additional properties, if the keyword is there. -/
structure ObjectBranch (keywords : List (Keyword Schema)) (fields : List (String × Item))
    (arms : List Call) (branch : Call) : Prop where
  shape : ShapeRecord ((required? keywords).getD [])
    ((entries? .properties keywords).getD []) fields
  stands : ∃ core, Refined ⟨.type, [.record fields]⟩ core ∧ branch = core.besideArms arms
  additional : ∀ sub, schema? .additionalProperties keywords = some sub →
    ∃ patternArms names patterns known,
      arms = patternArms ++ [.intersection [.not (.union known), Call.ofSchema sub]] ∧
      (∀ arm ∈ patternArms, arm.func = .patternType) ∧
      ListsFirst (((entries? .properties keywords).getD []).map Entry.key ++
        (required? keywords).getD []) names ∧
      (∀ name, name ∈ names ↔ name ∈ fields.map Prod.fst) ∧
      ListsFirst (((entries? .patternProperties keywords).getD []).map Entry.key) patterns ∧
      KnownArms names patterns known

/-! ## 2. The shape -/

section Shape

variable {required : List String} {properties : List (Entry Schema)}

/-- A property with the call of its schema. -/
def Entry.call (property : Entry Schema) : Entry Call :=
  ⟨property.key, Call.ofSchema property.schema, property.span⟩

theorem map_key_call (properties : List (Entry Schema)) :
    (properties.map Entry.call).map Entry.key = properties.map Entry.key := by
  rw [List.map_map]
  rfl

/-- What a property puts into the record of a shape. -/
def propertyPair (required : List String) (property : Entry Schema) : String × Item :=
  (property.key, if property.key ∈ required then (Call.ofSchema property.schema).toItem
    else .call .optional [(Call.ofSchema property.schema).toArg])

/-- The required names that no property describes. -/
def bareNames (required : List String) (properties : List (Entry Schema)) : List String :=
  required.filter fun name => name ∉ properties.map Entry.key

/-- All that is put into the record of a shape, repeated names too. -/
def shapePairs (required : List String) (properties : List (Entry Schema)) :
    List (String × Item) :=
  (bareNames required properties).map (fun name => (name, Call.unknown.toItem)) ++
    properties.map (propertyPair required)

theorem mem_bareNames {name : String} :
    name ∈ bareNames required properties ↔
      name ∈ required ∧ name ∉ properties.map Entry.key := by
  rw [bareNames, List.mem_filter, decide_eq_true_iff]

theorem shape_eq (required : List String) (properties : List (Entry Schema)) :
    Branch.shape required (properties.map Entry.call) =
      ⟨.type, [.record (collectEntries (shapePairs required properties))]⟩ := by
  have hbare : (required.filter fun name =>
      !(properties.map Entry.call).any fun p => p.key = name) = bareNames required properties := by
    refine List.filter_congr fun name _ => ?_
    rw [← map_key_call, Bool.eq_iff_iff]
    simp [List.mem_map]
  have hproperty : ∀ property : Entry Schema,
      (property.key, (if required.contains property.key then Call.ofSchema property.schema
        else (⟨.optional, [(Call.ofSchema property.schema).toArg]⟩ : Call)).toItem) =
        propertyPair required property := by
    intro property
    by_cases hmem : property.key ∈ required
    · rw [propertyPair, if_pos hmem, if_pos (List.contains_iff_mem.mpr hmem)]
    · rw [propertyPair, if_neg hmem, if_neg fun h => hmem (List.contains_iff_mem.mp h)]
      rfl
  simp only [Branch.shape, hbare, Call.onRecord, shapePairs, List.map_append, List.map_map]
  congr 5
  exact List.map_congr_left fun property _ => hproperty property

theorem keys_shapePairs (required : List String) (properties : List (Entry Schema)) :
    (shapePairs required properties).map Prod.fst =
      bareNames required properties ++ properties.map Entry.key := by
  rw [shapePairs, List.map_append, List.map_map, List.map_map]
  have hbare : (bareNames required properties).map
      (Prod.fst ∘ fun name => (name, Call.unknown.toItem)) = bareNames required properties :=
    List.map_id _
  rw [hbare]
  rfl

/-- The last pair of a name is that of its last property, or else that of a bare name. -/
theorem last_shapePairs {pair : String × Item}
    (h : (shapePairs required properties).reverse.find? (fun other => other.1 = pair.1) =
      some pair) : pair.2 = memberItem required properties pair.1 := by
  have hreverse : (shapePairs required properties).reverse =
      properties.reverse.map (propertyPair required) ++
        (bareNames required properties).reverse.map fun name => (name, Call.unknown.toItem) := by
    rw [shapePairs, List.reverse_append, List.map_reverse, List.map_reverse]
  have hfind : (properties.reverse.map (propertyPair required)).find?
      (fun other => other.1 = pair.1) =
      (properties.reverse.find? fun property => property.key = pair.1).map
        (propertyPair required) := by
    rw [List.find?_map]
    rfl
  rw [hreverse, List.find?_append, hfind] at h
  unfold memberItem
  cases hlast : properties.reverse.find? fun property => property.key = pair.1 with
  | some property =>
    have hkey : property.key = pair.1 := by simpa using List.find?_some hlast
    rw [hlast, Option.map_some, Option.some_or] at h
    rw [← Option.some.inj h]
    show (propertyPair required property).2 = if property.key ∈ required then _ else _
    rfl
  | none =>
    rw [hlast, Option.map_none, Option.none_or] at h
    obtain ⟨name, -, rfl⟩ := List.mem_map.mp (List.mem_of_find?_eq_some h)
    rfl

/-- **The record of the shape has each key once, at its first place, with what comes last.** -/
theorem shapeRecord_collected (required : List String) (properties : List (Entry Schema)) :
    ShapeRecord required properties (collectEntries (shapePairs required properties)) := by
  have hapart : ∀ name ∈ properties.map Entry.key, name ∉ bareNames required properties :=
    fun name hname hbare => (mem_bareNames.mp hbare).2 hname
  have hkeys : (collectEntries (shapePairs required properties)).map Prod.fst =
      distinct (bareNames required properties) ++ distinct (properties.map Entry.key) := by
    rw [keys_collectEntries, keys_shapePairs, distinct_append hapart]
  refine ⟨distinctKeys_collectEntries _, fun name => ?_, ?_, fun field hfield => ?_⟩
  · rw [hkeys, List.mem_append, mem_distinct, mem_distinct, mem_bareNames]
    by_cases hname : name ∈ properties.map Entry.key
    · exact ⟨fun _ => Or.inr hname, fun _ => Or.inr hname⟩
    · constructor
      · intro h
        rcases h with ⟨hrequired, -⟩ | hdescribed
        · exact Or.inl hrequired
        · exact Or.inr hdescribed
      · intro h
        rcases h with hrequired | hdescribed
        · exact Or.inl ⟨hrequired, hname⟩
        · exact Or.inr hdescribed
  · exact ⟨_, _, hkeys, listsFirst_distinct _, listsFirst_distinct _⟩
  · exact last_shapePairs (mem_collectEntries_iff_last.mp hfield)

end Shape

/-! ## 3. The known keys -/

theorem distinct_eq_nil_iff {names : List String} : distinct names = [] ↔ names = [] := by
  simp only [List.eq_nil_iff_forall_not_mem, mem_distinct]

theorem distinct_of_nodup {names : List String} (h : names.Nodup) : distinct names = names := by
  have hid : (names.map fun name => (name, ())).map Prod.fst = names := by
    rw [List.map_map]
    exact List.map_id names
  have hkeys : DistinctKeys (names.map fun name => (name, ())) := by
    rw [DistinctKeys, hid]
    exact h
  rw [distinct, hkeys.collectEntries_eq, hid]

/-- A record that says the same of each of its keys. -/
theorem onRecord_unknown (func : Func) (keys : List String) :
    Call.onRecord func (keys.map fun key => (key, .unknown)) =
      ⟨func, [.record ((distinct keys).map fun key => (key, Call.unknown.toItem))]⟩ := by
  have hkeys : (keys.map fun key => (key, Call.unknown.toItem)).map Prod.fst = keys := by
    rw [List.map_map]
    exact List.map_id keys
  have hlast : ∀ pair : String × Item,
      (keys.map fun key => (key, Call.unknown.toItem)).reverse.find?
        (fun other => other.1 = pair.1) = some pair → pair.2 = Call.unknown.toItem := by
    intro pair hpair
    obtain ⟨key, -, rfl⟩ := List.mem_map.mp (List.mem_reverse.mp (List.mem_of_find?_eq_some hpair))
    rfl
  have hcollected := collectEntries_eq_map (f := fun _ => Call.unknown.toItem) hlast
  rw [hkeys] at hcollected
  rw [Call.onRecord, List.map_map]
  exact congrArg (fun fields => Call.mk func [.record fields]) hcollected

theorem keyMatcher_eq (func : Func) (keys : List String) :
    (if keys = [] then [] else [Call.onRecord func (keys.map fun key => (key, .unknown))]) =
      keyMatcher func (distinct keys) := by
  by_cases hkeys : keys = []
  · rw [if_pos hkeys, keyMatcher, if_pos (distinct_eq_nil_iff.mpr hkeys)]
  · rw [if_neg hkeys, keyMatcher, if_neg fun h => hkeys (distinct_eq_nil_iff.mp h),
      onRecord_unknown]

theorem keyMatcher_eq_nil_iff {func : Func} {keys : List String} :
    keyMatcher func keys = [] ↔ keys = [] := by
  by_cases hkeys : keys = []
  · rw [keyMatcher, if_pos hkeys]
    exact ⟨fun _ => hkeys, fun _ => rfl⟩
  · rw [keyMatcher, if_neg hkeys]
    exact ⟨fun h => absurd h (List.cons_ne_nil _ _), fun h => absurd h hkeys⟩

theorem func_of_mem_keyMatcher {func : Func} {keys : List String} {arm : Call}
    (h : arm ∈ keyMatcher func keys) : arm.func = func := by
  by_cases hkeys : keys = []
  · rw [keyMatcher, if_pos hkeys] at h
    exact absurd h List.not_mem_nil
  · rw [keyMatcher, if_neg hkeys] at h
    rw [List.mem_singleton.mp h]

theorem knownKeys_eq (required : List String) (properties patterns : List (Entry Call)) :
    Branch.knownKeys required properties patterns =
      match keyMatcher .object (distinct (properties.map Entry.key ++ required)) ++
        keyMatcher .patternObject (distinct (patterns.map Entry.key)) with
      | [] => [.never]
      | known => known := by
  have hnames := keyMatcher_eq .object (distinct (properties.map Entry.key ++ required))
  have hpatterns := keyMatcher_eq .patternObject (patterns.map Entry.key)
  rw [distinct_of_nodup (listsFirst_distinct _).once] at hnames
  rw [← hnames, ← hpatterns]
  simp only [Branch.knownKeys, List.isEmpty_iff, List.map_map, List.map_eq_nil_iff]
  rfl

/-- **The matcher of the known keys has each of them once, at its first place.** -/
theorem knownArms_knownKeys (required : List String) (properties patterns : List (Entry Call)) :
    KnownArms (distinct (properties.map Entry.key ++ required)) (distinct (patterns.map Entry.key))
      (Branch.knownKeys required properties patterns) := by
  rw [knownKeys_eq]
  generalize distinct (properties.map Entry.key ++ required) = names
  generalize distinct (patterns.map Entry.key) = others
  have hnil : keyMatcher .object names ++ keyMatcher .patternObject others = [] ↔
      names = [] ∧ others = [] := by
    rw [List.append_eq_nil_iff, keyMatcher_eq_nil_iff, keyMatcher_eq_nil_iff]
  have hnever : Call.never ∉ keyMatcher .object names ++ keyMatcher .patternObject others := by
    intro hmem
    rcases List.mem_append.mp hmem with hmem | hmem
    · cases func_of_mem_keyMatcher hmem
    · cases func_of_mem_keyMatcher hmem
  cases hknown : keyMatcher .object names ++ keyMatcher .patternObject others with
  | nil =>
    have hnone := hnil.mp hknown
    exact ⟨List.cons_ne_nil _ _, fun h => absurd hnone h, fun _ => hnone, fun _ => rfl⟩
  | cons arm arms =>
    rw [hknown] at hnil hnever
    refine ⟨List.cons_ne_nil _ _, fun _ => hknown.symm, fun h => ?_, fun h => ?_⟩
    · have harms : arm :: arms = [Call.never] := h
      exact absurd (harms ▸ List.mem_singleton_self Call.never) hnever
    · exact absurd (hnil.mpr h) (List.cons_ne_nil _ _)

/-! ## 4. The branch -/

section Branch

variable {keywords : List (Keyword Schema)}

theorem findSome?_map_keywords {α β : Type} {keep : Keyword Schema → Option α}
    {keep' : Keyword Call → Option β} {f : α → β}
    (h : ∀ keyword, keep' (keyword.map Call.ofSchema) = (keep keyword).map f) :
    (keywords.map (Keyword.map Call.ofSchema)).findSome? keep' =
      (keywords.findSome? keep).map f := by
  induction keywords with
  | nil => rfl
  | cons keyword keywords ih =>
    rw [List.map_cons, List.findSome?_cons, List.findSome?_cons, h, ih]
    cases keep keyword with
    | none => rfl
    | some a => rfl

theorem required?_calls :
    required? (keywords.map (Keyword.map Call.ofSchema)) = required? keywords := by
  have hid : required? (keywords.map (Keyword.map Call.ofSchema)) =
      (required? keywords).map id := by
    refine findSome?_map_keywords fun keyword => ?_
    cases keyword <;> rfl
  rw [hid, Option.map_id_apply]

theorem types?_calls : types? (keywords.map (Keyword.map Call.ofSchema)) = types? keywords := by
  have hid : types? (keywords.map (Keyword.map Call.ofSchema)) = (types? keywords).map id := by
    refine findSome?_map_keywords fun keyword => ?_
    cases keyword <;> rfl
  rw [hid, Option.map_id_apply]

theorem entries?_calls (k : MapKeyword) :
    entries? k (keywords.map (Keyword.map Call.ofSchema)) =
      (entries? k keywords).map (List.map Entry.call) := by
  refine findSome?_map_keywords fun keyword => ?_
  cases keyword with
  | entries j es =>
    by_cases hj : j = k
    · simp only [Keyword.map, hj, ↓reduceIte, Option.map_some]
      rfl
    · simp only [Keyword.map, hj, ↓reduceIte, Option.map_none]
  | _ => rfl

theorem schema?_calls (k : SchemaKeyword) :
    schema? k (keywords.map (Keyword.map Call.ofSchema)) =
      (schema? k keywords).map Call.ofSchema := by
  refine findSome?_map_keywords fun keyword => ?_
  cases keyword with
  | schema j sub =>
    by_cases hj : j = k
    · simp only [Keyword.map, hj, ↓reduceIte, Option.map_some]
    · simp only [Keyword.map, hj, ↓reduceIte, Option.map_none]
  | _ => rfl

theorem Refined.refineBy {c d : Call} {α : Type} {value? : Option α} (func : Func)
    {refine : Call → α → Call} (h : Refined c d) (hfunc : func ∈ Func.ofObjects)
    (hrefine : ∀ e a, ∃ args, refine e a = ⟨func, e.toArg :: args⟩) :
    Refined c (Branch.refineBy value? refine d) := by
  cases value? with
  | none => exact h
  | some a =>
    obtain ⟨args, heq⟩ := hrefine d a
    show Refined c (refine d a)
    rw [heq]
    exact .by h hfunc

theorem exists_refined_object (anyName : Call) (keywords : List (Keyword Call)) :
    ∃ core, Refined (Branch.shape ((required? keywords).getD [])
        ((entries? .properties keywords).getD [])) core ∧
      Branch.object anyName keywords =
        core.besideArms (Branch.surplusArms ((required? keywords).getD [])
          ((entries? .properties keywords).getD []) (entries? .patternProperties keywords)
          (schema? .additionalProperties keywords)) := by
  have hcore : Refined (Branch.shape ((required? keywords).getD [])
      ((entries? .properties keywords).getD []))
      (Branch.shape ((required? keywords).getD []) ((entries? .properties keywords).getD [])
        |> Branch.refineBy (count? .minProperties keywords)
            (fun c n => c.refine .minProperties [.number (.natural n)])
        |> Branch.refineBy (count? .maxProperties keywords)
            (fun c n => c.refine .maxProperties [.number (.natural n)])
        |> Branch.refineBy (dependencies? keywords)
            (fun c ds => c.refine .dependentProperties [.json (Branch.dependencyTable ds)])
        |> Branch.refineBy (schema? .propertyNames keywords)
            (fun c _ => ⟨.keys, [c.toArg, anyName.toArg]⟩)) := by
    -- from the outermost refinement inwards
    refine Refined.refineBy .keys ?_ (by decide) fun _ _ => ⟨_, rfl⟩
    refine Refined.refineBy .dependentProperties ?_ (by decide) fun _ _ => ⟨_, rfl⟩
    refine Refined.refineBy .maxProperties ?_ (by decide) fun _ _ => ⟨_, rfl⟩
    exact Refined.refineBy .minProperties .here (by decide) fun _ _ => ⟨_, rfl⟩
  refine ⟨_, hcore, ?_⟩
  simp only [Branch.object]
  generalize Branch.surplusArms ((required? keywords).getD [])
    ((entries? .properties keywords).getD []) (entries? .patternProperties keywords)
    (schema? .additionalProperties keywords) = arms
  cases arms with
  | nil => rfl
  | cons arm arms => rfl

/-- The arms beside the shape, the arm of the additional properties last. -/
theorem surplusArms_eq (required : List String) (properties : List (Entry Call))
    (patterns? : Option (List (Entry Call))) (additional : Call) :
    ∃ patternArms, Branch.surplusArms required properties patterns? (some additional) =
      patternArms ++ [.intersection
        [.not (.union (Branch.knownKeys required properties (patterns?.getD []))), additional]] ∧
      ∀ arm ∈ patternArms, arm.func = .patternType := by
  refine ⟨_, rfl, fun arm harm => ?_⟩
  obtain ⟨patterns, -, rfl⟩ := List.mem_map.mp harm
  rfl

theorem getD_map_call (entries? : Option (List (Entry Schema))) :
    (entries?.map (List.map Entry.call)).getD [] = (entries?.getD []).map Entry.call := by
  cases entries? with
  | none => rfl
  | some entries => rfl

/-- **The object branch of a schema**, whatever the keywords: its record and its arms. -/
theorem objectBranch_object (anyName : Call) (keywords : List (Keyword Schema)) :
    ∃ fields arms, ObjectBranch keywords fields arms
      (Branch.object anyName (keywords.map (Keyword.map Call.ofSchema))) := by
  have hproperties := getD_map_call (entries? .properties keywords)
  have hpatterns := getD_map_call (entries? .patternProperties keywords)
  obtain ⟨core, hcore, hobject⟩ :=
    exists_refined_object anyName (keywords.map (Keyword.map Call.ofSchema))
  rw [required?_calls, entries?_calls, hproperties, shape_eq] at hcore
  rw [required?_calls, entries?_calls, entries?_calls, schema?_calls, hproperties] at hobject
  refine ⟨_, _, shapeRecord_collected _ _, ⟨core, hcore, hobject⟩, ?_⟩
  intro sub hsub
  rw [hsub, Option.map_some]
  obtain ⟨patternArms, harms, hpatternArms⟩ := surplusArms_eq ((required? keywords).getD [])
    (((entries? .properties keywords).getD []).map Entry.call)
    ((entries? .patternProperties keywords).map (List.map Entry.call)) (Call.ofSchema sub)
  have hknown := knownArms_knownKeys ((required? keywords).getD [])
    (((entries? .properties keywords).getD []).map Entry.call)
    (((entries? .patternProperties keywords).getD []).map Entry.call)
  rw [hpatterns] at harms
  rw [map_key_call, map_key_call] at hknown
  refine ⟨patternArms, _, _, _, harms, hpatternArms, listsFirst_distinct _, fun name => ?_,
    listsFirst_distinct _, hknown⟩
  rw [mem_distinct, List.mem_append, (shapeRecord_collected _ _).same, or_comm]

end Branch

/-! ## 5. The expression of a schema -/

namespace Schema

/-- The keywords of a schema, without their places. -/
def plainKeywords (schema : Schema) : List (Keyword Schema) := schema.keywords.map Located.keyword

/-- The types whose values a schema is about. -/
def effectiveTypes (schema : Schema) : List PrimitiveType :=
  (types? schema.plainKeywords).getD PrimitiveType.all

end Schema

/-- A call without the values of another, if there is one. -/
def Call.without (c : Call) : Option Call → Call
  | some d => .intersection [c, .not d]
  | none => c

theorem any_validation_calls (keywords : List (Located (Keyword Schema))) :
    ((keywords.map Located.keyword).map (Keyword.map Call.ofSchema)).any
      (fun keyword => keyword.kind.keywordClass = .validation) =
      keywords.any fun located => located.keyword.kind.keywordClass = .validation := by
  rw [List.any_map, List.any_map]
  refine congrArg keywords.any (funext fun located => ?_)
  exact congrArg (fun kind => decide (KeywordKind.keywordClass kind = .validation))
    (Keyword.kind_map _ _)

theorem ofSchema_eq_without {schema : Schema} (h : schema.hasValidation = true) :
    Call.ofSchema schema =
      (Call.oneOfBranches (schema.effectiveTypes.map (Branch.ofType Call.anyType
        (schema.plainKeywords.map (Keyword.map Call.ofSchema))))).without
        ((schema? .not schema.plainKeywords).map Call.ofSchema) := by
  obtain ⟨keywords, unsupported, span⟩ := schema
  have hany : ((keywords.map Located.keyword).map (Keyword.map Call.ofSchema)).any
      (fun keyword => keyword.kind.keywordClass = .validation) = true :=
    (any_validation_calls keywords).trans h
  rw [Call.ofSchema_mk, Call.ofKeywords, if_pos hany, types?_calls, schema?_calls]
  show _ = Call.without _ ((schema? .not (keywords.map Located.keyword)).map Call.ofSchema)
  cases schema? .not (keywords.map Located.keyword) with
  | none => rfl
  | some sub => rfl

theorem ofSchema_eq_unknown {schema : Schema} (h : schema.hasValidation = false) :
    Call.ofSchema schema = .unknown := by
  obtain ⟨keywords, unsupported, span⟩ := schema
  have hany : ((keywords.map Located.keyword).map (Keyword.map Call.ofSchema)).any
      (fun keyword => keyword.kind.keywordClass = .validation) = false :=
    (any_validation_calls keywords).trans h
  rw [Call.ofSchema_mk, Call.ofKeywords, if_neg (Bool.eq_false_iff.mp hany)]

theorem has_eq_false {schema : Schema} (h : schema.hasValidation = false) {kind : KeywordKind}
    (hkind : kind.keywordClass = .validation) : schema.has kind = false := by
  refine Bool.eq_false_iff.mpr fun hhas => ?_
  obtain ⟨located, hmem, heq⟩ := List.any_eq_true.mp hhas
  have hvalidation : schema.hasValidation = true := by
    refine List.any_eq_true.mpr ⟨located, hmem, decide_eq_true ?_⟩
    rw [of_decide_eq_true heq]
    exact hkind
  rw [h] at hvalidation
  cases hvalidation

/-- **The shape of the objects and the matcher of their known keys agree.** If a keyword of the
    schema constrains the values and objects are among its types, then the branch of the objects
    stands in the expression, and its record and its arms have the same keys; else no keyword
    speaks of keys, and the expression accepts anything. -/
theorem shape_known_keys_agree (schema : Schema) :
    (schema.hasValidation = true → .object ∈ schema.effectiveTypes →
      ∃ before branch after fields arms,
        Call.ofSchema schema = (Call.oneOfBranches (before ++ branch :: after)).without
          ((schema? .not schema.plainKeywords).map Call.ofSchema) ∧
        ObjectBranch schema.plainKeywords fields arms branch) ∧
    (schema.hasValidation = false → Call.ofSchema schema = .unknown ∧
      ∀ kind ∈ [.required, .entries .properties, .entries .patternProperties,
        .schema .additionalProperties], schema.has kind = false) := by
  constructor
  · intro hvalidation hobject
    obtain ⟨earlier, later, htypes⟩ := List.append_of_mem hobject
    obtain ⟨fields, arms, hbranch⟩ := objectBranch_object Call.anyType schema.plainKeywords
    have hschema := ofSchema_eq_without hvalidation
    rw [htypes, List.map_append, List.map_cons] at hschema
    exact ⟨_, _, _, fields, arms, hschema, hbranch⟩
  · intro hnone
    refine ⟨ofSchema_eq_unknown hnone, fun kind hkind => has_eq_false hnone ?_⟩
    rcases List.mem_cons.mp hkind with rfl | hkind
    · rfl
    rcases List.mem_cons.mp hkind with rfl | hkind
    · rfl
    rcases List.mem_cons.mp hkind with rfl | hkind
    · rfl
    rw [List.mem_singleton.mp hkind]
    rfl

/-- A property that comes twice, a name required twice, one that is only required, and one that is
    only a property. -/
def tangled : Schema :=
  .mk [⟨.entries .properties [⟨"a", .empty, ⟨0, 0⟩⟩, ⟨"b", .empty, ⟨0, 0⟩⟩,
        ⟨"a", .mk [⟨.types [.string], none⟩] [] none, ⟨0, 0⟩⟩], none⟩,
      ⟨.required ["c", "a", "c"], none⟩, ⟨.schema .additionalProperties .empty, none⟩] [] none

theorem shape_known_keys_tangled :
    tangled.hasValidation = true ∧ .object ∈ tangled.effectiveTypes ∧
      ∃ before branch after fields arms,
        Call.ofSchema tangled = (Call.oneOfBranches (before ++ branch :: after)).without
          ((schema? .not tangled.plainKeywords).map Call.ofSchema) ∧
        ObjectBranch tangled.plainKeywords fields arms branch :=
  ⟨by decide, by decide, (shape_known_keys_agree tangled).1 (by decide) (by decide)⟩

end SchemaCompiler
