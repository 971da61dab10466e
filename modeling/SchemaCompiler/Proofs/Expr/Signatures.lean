/-
  File:      SchemaCompiler/Proofs/Expr/Signatures.lean
  Subject:   Every call of an expression fits the signature of its function.

  `Item.Fits least` is the vocabulary as a set of rules, one for each form of arguments: what no
  rule allows does not occur, at any depth. There is no rule for `optional` (only a member of
  `type` may be wrapped in it), none for the functions that no schema becomes, and none for a
  constant outside of the place that a function has for it. `least` is the least number of arms of
  a union.

  * `Call.fits_ofKeywords` -- one level: keywords with sound values and with calls that fit
    (`Keywords.Fit`) give a call that fits;
  * `Item.Fits.collapse` -- collapsing keeps the rules, and then a union has two arms or more;
  * **`definitions_fit`** -- so do all definitions of a schema that a tree denotes.
-/
import SchemaCompiler.Compiler
import SchemaCompiler.Proofs.Expr.NormalForms
import SchemaCompiler.Proofs.Expr.Translation
import SchemaCompiler.Proofs.Schema.Invariants

namespace SchemaCompiler

/-! ## 1. Signatures -/

/-- The functions without arguments. -/
def Func.plain : List Func := [.unknown, .never, .string, .number, .integer, .boolean]

/-- The functions of a record whose members are all there. -/
def Func.ofRecord : List Func := [.object, .patternType, .patternObject]

/-- A bound of a size: a number, or none. -/
inductive Constant.IsLimit : Constant → Prop where
  | number {n : Number} : IsLimit (.number n)
  | undefined : IsLimit .undefined

/-- **The constants that a refining function takes** beside the call it refines. -/
inductive Func.Takes : Func → List Constant → Prop where
  | size {least most : Constant} : least.IsLimit → most.IsLimit →
      ¬ (least = .undefined ∧ most = .undefined) → Takes .size [least, most]
  | pattern {source : String} : Takes .pattern [.regex source]
  | bound {func : Func} {n : Number} : func = .min ∨ func = .max → Takes func [.number n]
  | exclusive {func : Func} {n : Number} : func = .min ∨ func = .max →
      Takes func [.number n, .json (.object [("exclusive", .boolean true)])]
  | multipleOf {n : Number} : 0 < n.value → Takes .multipleOf [.number n]
  | count {func : Func} {n : Nat} : func = .minProperties ∨ func = .maxProperties →
      n ≤ 2 ^ 53 - 1 → Takes func [.number (.natural n)]
  | dependentProperties {table : List (String × Value)} :
      (∀ entry ∈ table, ∃ names : List String, entry.2 = .array (names.map .string)) →
      Takes .dependentProperties [.json (.object table)]

/-- An item without the mark that it may be missing. -/
def Item.unwrapped : Item → Item
  | .call .optional [.item inner] => inner
  | item => item

/-- **The items that fit**: every call in them has arguments of the form that its function takes,
    and a union has at least `least` arms. -/
inductive Item.Fits (least : Nat) : Item → Prop where
  | plain {func : Func} : func ∈ Func.plain → Fits least (.call func [])
  | literal : Fits least (.call .literal [.item (.const .null)])
  | union {arms : List Item} : least ≤ arms.length → (∀ arm ∈ arms, Fits least arm) →
      Fits least (.call .union [.array arms])
  | intersection {first second : Item} : Fits least first → Fits least second →
      Fits least (.call .intersection [.array [first, second]])
  | type {fields : List (String × Item)} : (∀ field ∈ fields, Fits least field.2.unwrapped) →
      Fits least (.call .type [.record fields])
  | record {func : Func} {fields : List (String × Item)} : func ∈ Func.ofRecord →
      (∀ field ∈ fields, Fits least field.2) → Fits least (.call func [.record fields])
  | operand {func : Func} {inner : Item} : func = .not ∨ func = .array → Fits least inner →
      Fits least (.call func [.item inner])
  | keys {inner names : Item} : Fits least inner → Fits least names →
      Fits least (.call .keys [.item inner, .item names])
  | refinement {func : Func} {inner : Item} {constants : List Constant} : Fits least inner →
      func.Takes constants →
      Fits least (.call func (.item inner :: constants.map fun constant => .item (.const constant)))

def Call.Fits (least : Nat) (c : Call) : Prop := c.toItem.Fits least

theorem Func.Takes.mem_refiners {func : Func} {constants : List Constant}
    (h : func.Takes constants) : func ∈ Call.refiners := by
  cases h with
  | bound hfunc | exclusive hfunc | count hfunc =>
    obtain rfl | rfl := hfunc
    · decide
    · decide
  | _ => decide

/-- What fits is a call, and not one of `optional`. -/
theorem Item.Fits.exists_call {least : Nat} {item : Item} (h : item.Fits least) :
    ∃ func args, item = .call func args ∧ func ≠ .optional := by
  cases h with
  | plain hfunc | record hfunc =>
    refine ⟨_, _, rfl, ?_⟩
    rintro rfl
    exact absurd hfunc (by decide)
  | operand hfunc =>
    obtain rfl | rfl := hfunc
    · exact ⟨_, _, rfl, by decide⟩
    · exact ⟨_, _, rfl, by decide⟩
  | refinement _ htakes =>
    refine ⟨_, _, rfl, ?_⟩
    rintro rfl
    exact absurd htakes.mem_refiners (by decide)
  | _ => exact ⟨_, _, rfl, by decide⟩

theorem Item.unwrapped_call {func : Func} (h : func ≠ .optional) (args : List Arg) :
    (Item.call func args).unwrapped = .call func args := by
  unfold Item.unwrapped
  split
  · next heq =>
    cases heq
    exact absurd rfl h
  · rfl

/-- What fits is not wrapped. -/
theorem Item.Fits.unwrapped_eq {least : Nat} {item : Item} (h : item.Fits least) :
    item.unwrapped = item := by
  obtain ⟨func, args, rfl, hfunc⟩ := h.exists_call
  exact unwrapped_call hfunc args

/-! ## 2. Keywords with calls that fit -/

namespace Keywords

/-- Keywords with sound values and with calls that fit. -/
structure Fit (keywords : List (Keyword Call)) : Prop where
  values : ∀ keyword ∈ keywords, keyword.Sound
  calls : ∀ keyword ∈ keywords, ∀ c ∈ keyword.parts, c.Fits 1

/-- A keyword that is read is among the keywords. -/
theorem mem_of_findSome? {σ α : Type} {keywords : List (Keyword σ)} {extract : Keyword σ → Option α}
    (make : α → Keyword σ) (hreads : ∀ keyword a, extract keyword = some a → keyword = make a)
    {a : α} (h : keywords.findSome? extract = some a) : make a ∈ keywords := by
  obtain ⟨keyword, hmem, hread⟩ := List.exists_of_findSome?_eq_some h
  rw [hreads keyword a hread] at hmem
  exact hmem

variable {keywords : List (Keyword Call)} (h : Fit keywords)

include h

theorem fits_schema? {k : SchemaKeyword} {c : Call} (hread : schema? k keywords = some c) :
    c.Fits 1 := by
  have hmem := mem_of_findSome? (.schema k) (fun keyword _ => by cases keyword <;> simp) hread
  exact h.calls _ hmem c (List.mem_singleton_self c)

theorem fits_entries? {k : MapKeyword} {es : List (Entry Call)}
    (hread : entries? k keywords = some es) : ∀ e ∈ es, e.schema.Fits 1 := by
  have hmem := mem_of_findSome? (.entries k) (fun keyword _ => by cases keyword <;> simp) hread
  exact fun e he => h.calls _ hmem e.schema (List.mem_map_of_mem he)

theorem number?_pos {n : Number} (hread : number? .multipleOf keywords = some n) :
    0 < n.value := by
  have hmem := mem_of_findSome? (.number .multipleOf) (fun keyword _ => by cases keyword <;> simp)
    hread
  exact h.values _ hmem

theorem count?_le {k : CountKeyword} {n : Nat} (hread : count? k keywords = some n) :
    n ≤ 2 ^ 53 - 1 := by
  have hmem := mem_of_findSome? (.count k) (fun keyword _ => by cases keyword <;> simp) hread
  exact h.values _ hmem

end Keywords

/-! ## 3. Branches -/

namespace Branch

open Call Keywords

variable {keywords : List (Keyword Call)}

/-- What a refinement keeps, a refinement by a keyword keeps. -/
theorem refineBy_induction {α : Type} {P : Call → Prop} {value? : Option α}
    {refine : Call → α → Call} {c : Call} (hc : P c)
    (hrefine : ∀ c a, value? = some a → P c → P (refine c a)) : P (refineBy value? refine c) := by
  cases value? with
  | none => exact hc
  | some a => exact hrefine c a rfl hc

theorem fits_plain {func : Func} (hfunc : func ∈ Func.plain) : (nullary func).Fits 1 :=
  .plain hfunc

theorem fits_refine {func : Func} {c : Call} {constants : List Constant} (hc : c.Fits 1)
    (htakes : func.Takes constants) : (c.refine func constants).Fits 1 :=
  .refinement hc htakes

/-- Records whose calls fit. -/
theorem fits_onRecord {func : Func} (hfunc : func ∈ Func.ofRecord)
    {fields : List (String × Call)} (hfields : ∀ field ∈ fields, field.2.Fits 1) :
    (onRecord func fields).Fits 1 := by
  refine .record hfunc fun field hfield => ?_
  obtain ⟨⟨key, c⟩, hmem, rfl⟩ := List.mem_map.mp (of_mem_collectEntries hfield)
  exact hfields (key, c) hmem

theorem isLimit_ofCount? (count? : Option Nat) : (Constant.ofCount? count?).IsLimit := by
  cases count? with
  | none => exact .undefined
  | some n => exact .number

theorem fits_string (keywords : List (Keyword Call)) : (string keywords).Fits 1 := by
  refine refineBy_induction ?_ fun c p _ hc => fits_refine hc .pattern
  split
  · next hgiven =>
    refine fits_refine (fits_plain (by decide)) (.size (isLimit_ofCount? _) (isLimit_ofCount? _) ?_)
    -- A bound that is given is a number.
    intro hopen
    cases hleast : count? .minLength keywords with
    | some n =>
      rw [hleast] at hopen
      cases hopen.1
    | none =>
      cases hmost : count? .maxLength keywords with
      | some n =>
        rw [hmost] at hopen
        cases hopen.2
      | none =>
        rw [hleast, hmost] at hgiven
        cases hgiven
  · exact fits_plain (by decide)

theorem fits_number (h : Fit keywords) {base : Func} (hbase : base = .number ∨ base = .integer) :
    (number base keywords).Fits 1 := by
  have hplain : (nullary base).Fits 1 := by
    obtain rfl | rfl := hbase
    · exact fits_plain (by decide)
    · exact fits_plain (by decide)
  rw [number]
  refine refineBy_induction ?_ fun c n _ hc => fits_refine hc (.exclusive (.inl rfl))
  refine refineBy_induction ?_ fun c n _ hc => fits_refine hc (.bound (.inl rfl))
  refine refineBy_induction ?_ fun c n _ hc => fits_refine hc (.exclusive (.inr rfl))
  refine refineBy_induction ?_ fun c n _ hc => fits_refine hc (.bound (.inr rfl))
  exact refineBy_induction hplain fun c n hread hc =>
    fits_refine hc (.multipleOf (number?_pos h hread))

theorem fits_array (h : Fit keywords) : (array keywords).Fits 1 := by
  refine .operand (.inr rfl) ?_
  cases hread : schema? .items keywords with
  | none => exact fits_plain (by decide)
  | some c => exact fits_schema? h hread

/-- The members of a shape are unknown, or a call of a property, which may be wrapped. -/
theorem fits_shape (required : List String) {properties : List (Entry Call)}
    (hproperties : ∀ p ∈ properties, p.schema.Fits 1) : (shape required properties).Fits 1 := by
  refine .type fun field hfield => ?_
  obtain ⟨⟨key, c⟩, hmem, rfl⟩ := List.mem_map.mp (of_mem_collectEntries hfield)
  rcases List.mem_append.mp hmem with hbare | hproperty
  · obtain ⟨name, -, heq⟩ := List.mem_map.mp hbare
    cases heq
    exact fits_plain (by decide)
  · obtain ⟨p, hp, heq⟩ := List.mem_map.mp hproperty
    have hfits := hproperties p hp
    cases heq
    by_cases hrequired : required.contains p.key = true
    · rw [if_pos hrequired, hfits.unwrapped_eq]
      exact hfits
    · rw [if_neg hrequired]
      exact hfits

theorem takes_dependencies (dependencies : List Dependency) :
    Func.Takes .dependentProperties [.json (dependencyTable dependencies)] := by
  refine .dependentProperties fun entry hentry => ?_
  obtain ⟨d, -, rfl⟩ := List.mem_map.mp (of_mem_collectEntries hentry)
  exact ⟨d.required, rfl⟩

theorem fits_union {arms : List Call} (hsome : arms ≠ []) (harms : ∀ arm ∈ arms, arm.Fits 1) :
    (union arms).Fits 1 := by
  refine .union ?_ (List.forall_mem_map.mpr harms)
  rw [List.length_map]
  exact List.length_pos_iff.mpr hsome

/-- The known keys are records of calls that accept anything, or nothing at all. -/
theorem fits_knownKeys (required : List String) (properties patterns : List (Entry Call)) :
    (union (knownKeys required properties patterns)).Fits 1 := by
  have hrecord : ∀ {func : Func} {keys : List (String × Call)}, (∀ key ∈ keys, key.2 = .unknown) →
      func ∈ Func.ofRecord → (onRecord func keys).Fits 1 := by
    intro func keys hkeys hfunc
    refine fits_onRecord hfunc fun key hkey => ?_
    rw [hkeys key hkey]
    exact fits_plain (by decide)
  unfold knownKeys
  extract_lets names byName byPattern
  have hbyName : ∀ arm ∈ byName, arm.Fits 1 := by
    intro arm harm
    simp only [byName, List.mem_ite_nil_left, List.mem_singleton] at harm
    rw [harm.2]
    exact hrecord (List.forall_mem_map.mpr fun _ _ => rfl) (by decide)
  have hbyPattern : ∀ arm ∈ byPattern, arm.Fits 1 := by
    intro arm harm
    simp only [byPattern, List.mem_ite_nil_left, List.mem_singleton] at harm
    rw [harm.2]
    exact hrecord (List.forall_mem_map.mpr fun _ _ => rfl) (by decide)
  split
  · exact fits_union (List.cons_ne_nil _ _) (List.forall_mem_singleton.mpr (fits_plain (by decide)))
  · next hsome =>
    refine fits_union hsome fun arm harm => ?_
    exact (List.mem_append.mp harm).elim (hbyName arm) (hbyPattern arm)

theorem fits_intersection {c c' : Call} (hc : c.Fits 1) (hc' : c'.Fits 1) :
    (intersection [c, c']).Fits 1 := .intersection hc hc'

theorem fits_surplusArms {required : List String} {properties : List (Entry Call)}
    {patterns? : Option (List (Entry Call))} {additional? : Option Call}
    (hpatterns : ∀ patterns, patterns? = some patterns → ∀ p ∈ patterns, p.schema.Fits 1)
    (hadditional : ∀ c, additional? = some c → c.Fits 1) :
    ∀ arm ∈ surplusArms required properties patterns? additional?, arm.Fits 1 := by
  intro arm harm
  rcases List.mem_append.mp harm with hpattern | hother
  · obtain ⟨patterns, hmem, rfl⟩ := List.mem_map.mp hpattern
    have hfits := hpatterns patterns (Option.mem_toList.mp hmem)
    exact fits_onRecord (by decide) (List.forall_mem_map.mpr hfits)
  · obtain ⟨c, hmem, rfl⟩ := List.mem_map.mp hother
    refine fits_intersection (.operand (.inl rfl) (fits_knownKeys _ _ _)) ?_
    exact hadditional c (Option.mem_toList.mp hmem)

theorem fits_object (h : Fit keywords) {anyName : Call} (hname : anyName.Fits 1) :
    (object anyName keywords).Fits 1 := by
  have hrefined : ∀ c : Call, c.Fits 1 → (c
      |> refineBy (count? .minProperties keywords)
          (fun c n => c.refine .minProperties [.number (.natural n)])
      |> refineBy (count? .maxProperties keywords)
          (fun c n => c.refine .maxProperties [.number (.natural n)])
      |> refineBy (dependencies? keywords)
          (fun c ds => c.refine .dependentProperties [.json (dependencyTable ds)])
      |> refineBy (schema? .propertyNames keywords)
          (fun c _ => ⟨.keys, [c.toArg, anyName.toArg]⟩)).Fits 1 := by
    intro c hc
    refine refineBy_induction ?_ fun c _ _ hc => .keys hc hname
    refine refineBy_induction ?_ fun c ds _ hc => fits_refine hc (takes_dependencies ds)
    refine refineBy_induction ?_ fun c n hread hc =>
      fits_refine hc (.count (.inr rfl) (count?_le h hread))
    exact refineBy_induction hc fun c n hread hc =>
      fits_refine hc (.count (.inl rfl) (count?_le h hread))
  have hproperties : ∀ p ∈ (entries? .properties keywords).getD [], p.schema.Fits 1 := by
    cases hread : entries? .properties keywords with
    | none => exact fun p hp => nomatch hp
    | some es => exact fits_entries? h hread
  have hshape := hrefined _ (fits_shape ((required? keywords).getD []) hproperties)
  rw [object]
  split
  · exact hshape
  · next hsome =>
    refine fits_intersection hshape (fits_union hsome ?_)
    exact fits_surplusArms (fun _ => fits_entries? h) (fun _ => fits_schema? h)

theorem fits_ofType (h : Fit keywords) {anyName : Call} (hname : anyName.Fits 1)
    (type : PrimitiveType) : (ofType anyName keywords type).Fits 1 := by
  cases type with
  | string => exact fits_string keywords
  | number => exact fits_number h (.inl rfl)
  | integer => exact fits_number h (.inr rfl)
  | object => exact fits_object h hname
  | array => exact fits_array h
  | boolean => exact fits_plain (by decide)
  | null => exact .literal

end Branch

/-! ## 4. Schemas -/

namespace Call

open Branch

theorem fits_oneOfBranches {branches : List Call} (h : ∀ c ∈ branches, c.Fits 1) :
    (oneOfBranches branches).Fits 1 := by
  match branches with
  | [] => exact fits_plain (by decide)
  | [c] => exact h c (List.mem_singleton_self c)
  | _ :: _ :: _ => exact fits_union (List.cons_ne_nil _ _) h

theorem fits_anyType : anyType.Fits 1 := by
  have hfit : Keywords.Fit [] := ⟨fun _ hmem => (nomatch hmem), fun _ hmem => (nomatch hmem)⟩
  refine fits_oneOfBranches (List.forall_mem_map.mpr fun type _ => ?_)
  exact fits_ofType hfit (fits_plain (by decide)) type

/-- **One level:** keywords with sound values and calls that fit give a call that fits. -/
theorem fits_ofKeywords {keywords : List (Keyword Call)} (h : Keywords.Fit keywords) :
    (ofKeywords keywords).Fits 1 := by
  have htyped : ∀ types : List PrimitiveType,
      (oneOfBranches (types.map (ofType anyType keywords))).Fits 1 := fun types =>
    fits_oneOfBranches (List.forall_mem_map.mpr fun type _ => fits_ofType h fits_anyType type)
  rw [ofKeywords]
  split
  · split
    · next sub hread =>
      exact fits_intersection (htyped _) (.operand (.inl rfl) (Keywords.fits_schema? h hread))
    · exact htyped _
  · exact fits_plain (by decide)

/-- All levels: a schema whose keywords have sound values throughout. -/
theorem fits_ofSchema {schema : Schema}
    (h : schema.Throughout fun s => ∀ located ∈ s.keywords, located.keyword.Sound) :
    (ofSchema schema).Fits 1 := by
  induction h with
  | @mk schema here _ ih =>
    obtain ⟨keywords, unsupported, span⟩ := schema
    rw [ofSchema_mk]
    refine fits_ofKeywords ⟨?_, ?_⟩
    · simp only [List.forall_mem_map, Keyword.sound_map]
      exact here
    · simp only [List.forall_mem_map, Keyword.parts_map]
      exact ih

end Call

/-! ## 5. Collapsing -/

theorem collapseArgs_constants (constants : List Constant) :
    collapseArgs (constants.map fun constant => .item (.const constant)) =
      constants.map fun constant => .item (.const constant) := by
  induction constants with
  | nil => rfl
  | cons constant constants ih => rw [List.map_cons, collapseArgs, ih, Arg.collapse, Item.collapse]

namespace Item

/-- A function that joins no arms stays. -/
theorem collapse_call {func : Func} (h : func.joinsArms = false) (args : List Arg) :
    (Item.call func args).collapse = .call func (collapseArgs args) := by
  refine collapse_of_no_onlyArm (Option.eq_none_iff_forall_ne_some.mpr fun arm harm => ?_)
  rw [onlyArm?_call, singleArm?_eq_some_iff, h] at harm
  cases harm.1

/-- The mark that an item may be missing stays. -/
theorem fits_unwrapped_collapse {item : Item} {least : Nat}
    (h : item.unwrapped.collapse.Fits least) : item.collapse.unwrapped.Fits least := by
  unfold unwrapped at h
  split at h
  · rw [collapse_call rfl]
    exact h
  · rw [h.unwrapped_eq]
    exact h

/-- **Collapsing keeps the rules.** By induction over them: a union of one arm becomes the arm, and
    every other call keeps its form. -/
theorem Fits.collapse {item : Item} (h : item.Fits 1) : item.collapse.Fits 2 := by
  induction h with
  | @plain func hfunc =>
    have hjoins : ∀ func ∈ Func.plain, func.joinsArms = false := by decide
    rw [collapse_call (hjoins func hfunc)]
    exact .plain hfunc
  | literal => exact .literal
  | @union arms hleast _ ih =>
    match arms with
    | [] => cases hleast
    | [arm] => exact ih arm (List.mem_singleton_self arm)
    | first :: second :: rest =>
      have hcollapse : (Item.call .union [.array (first :: second :: rest)]).collapse =
          .call .union [.array ((first :: second :: rest).map Item.collapse)] := by
        rw [← collapseItems_eq_map]
        rfl
      rw [hcollapse]
      refine .union ?_ (List.forall_mem_map.mpr ih)
      rw [List.length_map, List.length_cons, List.length_cons]
      omega
  | intersection _ _ ihfirst ihsecond => exact .intersection ihfirst ihsecond
  | @type fields _ ih =>
    rw [collapse_call rfl, collapseArgs, Arg.collapse, collapseFields_eq_map]
    refine .type (List.forall_mem_map.mpr fun field hfield => ?_)
    exact fits_unwrapped_collapse (ih field hfield)
  | @record func fields hfunc _ ih =>
    have hjoins : ∀ func ∈ Func.ofRecord, func.joinsArms = false := by decide
    rw [collapse_call (hjoins func hfunc), collapseArgs, Arg.collapse, collapseFields_eq_map]
    exact .record hfunc (List.forall_mem_map.mpr ih)
  | operand hfunc _ ih =>
    obtain rfl | rfl := hfunc
    · exact .operand (.inl rfl) ih
    · exact .operand (.inr rfl) ih
  | keys _ _ ihinner ihnames => exact .keys ihinner ihnames
  | @refinement func inner constants _ htakes ih =>
    have hjoins : ∀ func ∈ Call.refiners, func.joinsArms = false := by decide
    rw [collapse_call (hjoins func htakes.mem_refiners), collapseArgs, Arg.collapse,
      collapseArgs_constants]
    exact .refinement ih htakes

end Item

theorem Call.Fits.collapse {c : Call} (h : c.Fits 1) : c.collapse.Fits 2 := by
  have hitem : c.toItem.collapse.Fits 2 := Item.Fits.collapse h
  obtain ⟨func, args, heq, -⟩ := hitem.exists_call
  rw [Call.collapse, heq]
  rw [heq] at hitem
  exact hitem

/-! ## 6. The theorem -/

/-- **Every definition fits.** The expression of a schema that a tree denotes fits the signatures of
    its functions at every depth; collapsed, it still does, and every union has two arms or more.
    So the definitions of the schema fit, whether they are to be collapsed or not. -/
theorem definitions_fit (engines : Engines) (node : Node) (schema : Schema)
    (h : (Schema.ofNode engines node).result = .ok schema) :
    (Call.ofSchema schema).Fits 1 ∧ (Call.ofSchema schema).collapse.Fits 2 ∧
      ∀ alphabet settings, ∀ d ∈ definitionsOf alphabet settings schema,
        d.body.Fits (if settings.optimize then 2 else 1) := by
  have hvalues := Schema.throughout_of_denotes
    (fun node schema h => (Schema.sound_of_denotes node schema h).values)
    (fun _ hmem => nomatch hmem) h
  have hfits := Call.fits_ofSchema hvalues
  refine ⟨hfits, hfits.collapse, fun alphabet settings d hd => ?_⟩
  by_cases hoptimize : settings.optimize = true
  · rw [definitionsOf, if_pos hoptimize, collapse, List.map_singleton, List.mem_singleton] at hd
    rw [if_pos hoptimize, hd]
    exact hfits.collapse
  · rw [definitionsOf, if_neg hoptimize, List.mem_singleton] at hd
    rw [if_neg hoptimize, hd]
    exact hfits

/-- Two properties, one of them required, and nothing else. -/
def sealedNode : Node :=
  .object
    [⟨"properties", ⟨1, 13⟩, .object
       [⟨"a", ⟨15, 18⟩, .object
          [⟨"maxLength", ⟨20, 31⟩, .number (.natural 9007199254740991) ⟨32, 48⟩, ⟨20, 48⟩⟩]
          ⟨19, 49⟩, ⟨15, 49⟩⟩,
        ⟨"b", ⟨50, 53⟩, .object
          [⟨"multipleOf", ⟨55, 67⟩, .number (.natural 5) ⟨68, 69⟩, ⟨55, 69⟩⟩] ⟨54, 70⟩, ⟨50, 70⟩⟩]
       ⟨14, 71⟩, ⟨1, 71⟩⟩,
     ⟨"required", ⟨72, 82⟩, .array [.string "a" ⟨84, 87⟩] ⟨83, 88⟩, ⟨72, 88⟩⟩,
     ⟨"additionalProperties", ⟨89, 111⟩, .boolean false ⟨112, 117⟩, ⟨89, 117⟩⟩] ⟨0, 118⟩

/-- Two unions of it have one arm, so it gets smaller. -/
theorem definitions_fit_sealed :
    ∃ schema, (Schema.ofNode .standard sealedNode).result = .ok schema ∧
      (Call.ofSchema schema).Fits 1 ∧ (Call.ofSchema schema).collapse.Fits 2 ∧
      (Call.ofSchema schema).collapse.size < (Call.ofSchema schema).size := by
  refine ⟨_, rfl, ?_, ?_, ?_⟩
  · exact (definitions_fit .standard sealedNode _ rfl).1
  · exact (definitions_fit .standard sealedNode _ rfl).2.1
  · decide +kernel

end SchemaCompiler
