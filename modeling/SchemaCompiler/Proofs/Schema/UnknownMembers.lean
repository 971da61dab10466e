/-
  File:      SchemaCompiler/Proofs/Schema/UnknownMembers.lean
  Subject:   Members whose names are no keywords change nothing but the warnings about them.

  * `Node.stripped` -- the tree without these members, at every place where a schema is expected;
  * `Node.unknownMembers` -- these members, in the order of the text; all of them, or those that a
    reading comes to that stops at the first thing refused;
  * `Schema.known` -- the schema without what was set aside as unknown, at every depth.

  The reading of the stripped tree is the reading of the tree, told again without the warnings about
  unknown keywords (`Schema.silent_ofNode`). The warnings left out are accounted for one by one
  (`Schema.accounts_ofNode`). Both go along the definitions by which a schema is read.
-/
import SchemaCompiler.Compiler
import SchemaCompiler.Proofs.Expr.Translation
import SchemaCompiler.Proofs.Schema.Parts
import SchemaCompiler.Proofs.Schema.Retelling
import SchemaCompiler.StandardPlatform

namespace SchemaCompiler

variable {engines : Engines}

/-! ## 1. Trees without unknown members -/

mutual

/-- **The tree without unknown members.** Where a schema is expected, members go whose names are no
    keywords; what stands anywhere else stays. -/
def Node.stripped : Node → Node
  | .object members span => .object (strippedMembers members) span
  | node => node

/-- The members whose keys are keywords, with what is left of their values. -/
def strippedMembers : List (Member Node) → List (Member Node)
  | [] => []
  | ⟨key, keySpan, value, span⟩ :: members =>
    match KeywordKind.ofName? key with
    | none => strippedMembers members
    | some kind =>
      ⟨key, keySpan,
        match kind with
        | .schema _ => value.stripped
        | .schemas _ => strippedList value
        | .entries _ => strippedMap value
        | _ => value, span⟩ :: strippedMembers members

/-- Under a keyword with a list of schemas. -/
def strippedList : Node → Node
  | .array items span => .array (strippedItems items) span
  | node => node

/-- Under a keyword with schemas under keys; every key stays. -/
def strippedMap : Node → Node
  | .object members span => .object (strippedEntries members) span
  | node => node

def strippedItems : List Node → List Node
  | [] => []
  | item :: items => item.stripped :: strippedItems items

def strippedEntries : List (Member Node) → List (Member Node)
  | [] => []
  | ⟨key, keySpan, value, span⟩ :: members =>
    ⟨key, keySpan, value.stripped, span⟩ :: strippedEntries members

end

section

variable (engines)

mutual

/-- **The unknown members of a tree**, in the order of the text. If `stops`, only those before or in
    the first part that is refused. -/
def Node.unknownMembers (stops : Bool) : Node → List (Member Node)
  | .object members _ => unknownAmong stops members
  | _ => []

/-- The unknown members in a list of members, in order. -/
def unknownAmong (stops : Bool) : List (Member Node) → List (Member Node)
  | [] => []
  | m :: members =>
    unknownIn stops m ++
      if stops && !(Schema.partOf engines m).result.isOk then [] else unknownAmong stops members

/-- The unknown members that a member is or holds. -/
def unknownIn (stops : Bool) : Member Node → List (Member Node)
  | ⟨key, keySpan, value, span⟩ =>
    match KeywordKind.ofName? key with
    | none => [⟨key, keySpan, value, span⟩]
    | some (.schema _) => value.unknownMembers stops
    | some (.schemas _) => unknownInList stops value
    | some (.entries _) => unknownInMap stops value
    | some _ => []

def unknownInList (stops : Bool) : Node → List (Member Node)
  | .array items _ => unknownInItems stops items
  | _ => []

def unknownInMap (stops : Bool) : Node → List (Member Node)
  | .object members _ => unknownInEntries stops members
  | _ => []

def unknownInItems (stops : Bool) : List Node → List (Member Node)
  | [] => []
  | item :: items =>
    item.unknownMembers stops ++
      if stops && !(Schema.ofNode engines item).result.isOk then [] else unknownInItems stops items

def unknownInEntries (stops : Bool) : List (Member Node) → List (Member Node)
  | [] => []
  | ⟨_, _, value, _⟩ :: members =>
    value.unknownMembers stops ++
      if stops && !(Schema.ofNode engines value).result.isOk then []
      else unknownInEntries stops members

end

end

/-! ## 2. Schemas without what is unknown -/

namespace Schema

/-- The schema without what was set aside as unknown, at every depth. -/
def known : Schema → Schema :=
  rebuild fun keywords unsupported span =>
    .mk keywords (unsupported.filter fun member => member.reason ≠ .unknown) span

theorem known_mk (keywords : List (Located (Keyword Schema))) (unsupported : List Parked)
    (span : Option Span) :
    known (.mk keywords unsupported span) =
      .mk (keywords.map (Located.map (Keyword.map known)))
        (unsupported.filter fun member => member.reason ≠ .unknown) span :=
  rebuild_mk _ keywords unsupported span

/-- No keyword is lost. -/
theorem has_known (schema : Schema) (kind : KeywordKind) :
    schema.known.has kind = schema.has kind := by
  obtain ⟨keywords, unsupported, span⟩ := schema
  rw [known_mk, has, has, Schema.keywords, Schema.keywords, List.any_map]
  simp only [Function.comp_def, Located.map, Keyword.kind_map]

theorem anchor?_known (schema : Schema) : schema.known.anchor? = schema.anchor? := by
  obtain ⟨keywords, unsupported, span⟩ := schema
  rw [known_mk, anchor?, anchor?, Schema.keywords, Schema.keywords, List.findSome?_map]
  refine congrArg (List.findSome? · keywords) (funext fun located => ?_)
  obtain ⟨keyword, place⟩ := located
  cases keyword <;> rfl

/-- **What was set aside has no part in the expression.** -/
theorem ofSchema_known (schema : Schema) : Call.ofSchema schema.known = Call.ofSchema schema := by
  induction schema using induction_on_parts with
  | step schema ih =>
    obtain ⟨keywords, unsupported, span⟩ := schema
    rw [known_mk, Call.ofSchema_mk, Call.ofSchema_mk]
    simp only [List.map_map]
    refine congrArg Call.ofKeywords (List.map_congr_left fun located hmem => ?_)
    simp only [Function.comp_def, Located.map, Keyword.map_map]
    exact Keyword.map_congr (ih located hmem)

/-- Unknown members leave no trace in the definition. -/
theorem definition_known (schema : Schema) (alphabet : Alphabet) (rootName : String) :
    Definition.ofSchema alphabet schema.known rootName =
      Definition.ofSchema alphabet schema rootName := by
  rw [Definition.ofSchema, Definition.ofSchema, anchor?_known, ofSchema_known]

end Schema

/-! ## 3. The reading without warnings about unknown keywords -/

/-- All as it is, but for the warnings about unknown keywords. -/
def Retelling.silent : Retelling where
  place := id
  mentions := fun rule => rule ≠ .unsupported
  mentions_of_ne := fun _ h => decide_eq_true h

namespace Schema

open Checked Payload Retelling

theorem relocated_silent (node : Node) : node.relocated silent.place = node := node.relocated_id

/-- What becomes of a part; an unknown member is left out. -/
def Part.known? : Part → Option Part
  | .active located => some (.active (located.map (Keyword.map known)))
  | .parked member => if member.reason = .unknown then none else some (.parked member)

/-- Parts that were set aside as unknown decide nothing. -/
theorem silent_ofParts (parts : List Part) (span : Span) :
    (ofParts parts span).retold silent known = ofParts (parts.filterMap Part.known?) span := by
  have hactive : (parts.filterMap Part.known?).filterMap Part.active? =
      (parts.filterMap Part.active?).map (Located.map (Keyword.map known)) := by
    rw [List.filterMap_filterMap, List.map_filterMap]
    refine congrArg (List.filterMap · parts) (funext fun part => ?_)
    cases part with
    | active located => rfl
    | parked member => by_cases h : member.reason = .unknown <;> simp [Part.known?, Part.active?, h]
  have hparked : (parts.filterMap Part.known?).filterMap Part.parked? =
      (parts.filterMap Part.parked?).filter fun member => member.reason ≠ .unknown := by
    rw [List.filterMap_filterMap, List.filter_filterMap]
    refine congrArg (List.filterMap · parts) (funext fun part => ?_)
    cases part with
    | active located => rfl
    | parked member =>
      by_cases h : member.reason = .unknown <;>
        simp [Part.known?, Part.parked?, Option.filter_some, h]
  simp only [ofParts, hactive, hparked, ← known_mk, has_known]
  exact retold_ite rfl rfl

/-- Whether schemas stand under a keyword. -/
def holdsSchemas : KeywordKind → Bool
  | .schema _ | .schemas _ | .entries _ => true
  | _ => false

/-- A keyword is told again if its value is. -/
theorem silent_placed {α β : Type} {x : Checked α} {y : Checked β} {e : α → β}
    {f : α → Keyword Schema} {g : β → Keyword Schema} (span : Span) (hx : x.retold silent e = y)
    (hf : ∀ a, (f a).map known = g (e a)) :
    (x >>= fun a => pure (placed span (f a))).retold silent Part.known? =
      some <$> (y >>= fun b => pure (placed span (g b))) := by
  rw [map_eq_pure_bind, bind_assoc]
  refine retold_bind hx fun a _ => ?_
  rw [pure_bind, ← hf]
  rfl

/-- The values of the other keywords are read in silence, and the keyword is kept as it is. -/
theorem silent_partOf_plain {kind : KeywordKind} {key : String}
    (hkind : KeywordKind.ofName? key = some kind) (hplain : holdsSchemas kind = false)
    (keySpan : Span) (value : Node) (span : Span) :
    (partOf engines ⟨key, keySpan, value, span⟩).retold silent Part.known? =
      some <$> partOf engines ⟨key, keySpan, value, span⟩ := by
  have hnodes : List.map (Node.relocated silent.place) = id :=
    List.map_id_fun' ▸ congrArg List.map (funext relocated_silent)
  have hkeep : ∀ {α : Type} {x : Checked α} (f : α → Keyword Schema), x.retold silent id = x →
      (∀ a, (f a).map known = f a) →
      (x >>= fun a => pure (placed span (f a))).retold silent Part.known? =
        some <$> (x >>= fun a => pure (placed span (f a))) :=
    fun f hx hf => silent_placed span hx hf
  rw [partOf, hkind]
  cases kind with
  | schema | schemas | entries => cases hplain
  | directive d =>
    rw [map_eq_pure_bind, bind_assoc]
    refine retold_bind ((retold_readDirective d value span).trans ?_) fun _ _ => rfl
    rw [relocated_silent]
    rfl
  | text k => exact hkeep (.text k) (by rw [retold_readText, relocated_silent]) fun _ => rfl
  | types => exact hkeep .types (by rw [retold_readTypes, relocated_silent]) fun _ => rfl
  | enum =>
    exact hkeep .enum (by rw [← hnodes, retold_readArray, relocated_silent]) fun _ => rfl
  | data k => rfl
  | number k => exact hkeep (.number k) (by rw [retold_readBound, relocated_silent]) fun _ => rfl
  | count k => exact hkeep (.count k) (by rw [retold_readCount, relocated_silent]) fun _ => rfl
  | flag k => exact hkeep (.flag k) (by rw [retold_readBoolean, relocated_silent]) fun _ => rfl
  | required => exact hkeep .required (by rw [retold_readNames, relocated_silent]) fun _ => rfl
  | dependentRequired =>
    have hdependencies : List.map (Dependency.relocated silent.place) = id := List.map_id_fun'
    exact hkeep .dependentRequired
      (by rw [← hdependencies, retold_readDependencies, relocated_silent]) fun _ => rfl

mutual

/-- **Without its unknown members a tree is read as before**, but for the warnings about them. The
    recursion is that of the reader. -/
theorem silent_ofNode : (node : Node) →
    (ofNode engines node).retold silent known = ofNode engines node.stripped
  | .object members span => by
    rw [Node.stripped, ofNode, ofNode]
    exact retold_bind (silent_partsOf members) fun parts _ => silent_ofParts parts span
  | .boolean true _ | .boolean false _ | .array .. | .string .. | .number .. | .null _ => rfl

theorem silent_partsOf : (members : List (Member Node)) →
    (partsOf engines members).retold silent (List.filterMap Part.known?) =
      partsOf engines (strippedMembers members)
  | [] => rfl
  | ⟨key, keySpan, value, span⟩ :: members => by
    -- A keyword keeps its member, with what is left of the value.
    have hcons : ∀ value' : Node,
        (partOf engines ⟨key, keySpan, value, span⟩).retold silent Part.known? =
          some <$> partOf engines ⟨key, keySpan, value', span⟩ →
        (partsOf engines (⟨key, keySpan, value, span⟩ :: members)).retold silent
            (List.filterMap Part.known?) =
          partsOf engines (⟨key, keySpan, value', span⟩ :: strippedMembers members) := by
      intro value' hpart
      rw [partsOf, partsOf, retold_cons hpart (silent_partsOf members), bind_map_left]
      rfl
    rw [strippedMembers]
    cases hkind : KeywordKind.ofName? key with
    | none =>
      have hpart :
          (partOf engines ⟨key, keySpan, value, span⟩).retold silent Part.known? = pure none := by
        rw [partOf, hkind]
        rfl
      rw [partsOf, retold_cons hpart (silent_partsOf members), pure_bind]
      exact bind_pure _
    | some kind =>
      cases kind with
      | schema k =>
        refine hcons _ ?_
        rw [partOf, partOf, hkind]
        exact silent_placed span (silent_ofNode value) fun _ => rfl
      | schemas k =>
        refine hcons _ ?_
        rw [partOf, partOf, hkind]
        exact silent_placed span (silent_readSchemas k value) fun _ => rfl
      | entries k =>
        refine hcons _ ?_
        rw [partOf, partOf, hkind]
        exact silent_placed span (silent_readEntries k value) fun _ => rfl
      | _ => exact hcons value (silent_partOf_plain hkind rfl keySpan value span)

theorem silent_readSchemas (k : ListKeyword) : (node : Node) →
    (readSchemas engines k node).retold silent (List.map known) =
      readSchemas engines k (strippedList node)
  | .array items _ => by
    rw [strippedList, readSchemas_array, readSchemas_array]
    exact silent_schemasOf items
  | .object .. | .string .. | .number .. | .boolean .. | .null _ => rfl

theorem silent_readEntries (k : MapKeyword) : (node : Node) →
    (readEntries engines k node).retold silent (List.map fun e => ⟨e.key, e.schema.known, e.span⟩) =
      readEntries engines k (strippedMap node)
  | .object members _ => by
    rw [strippedMap, readEntries_object, readEntries_object]
    exact silent_entriesOf members
  | .array .. | .string .. | .number .. | .boolean .. | .null _ => rfl

theorem silent_schemasOf : (items : List Node) →
    (schemasOf engines items).retold silent (List.map known) =
      schemasOf engines (strippedItems items)
  | [] => rfl
  | item :: items => by
    rw [strippedItems, schemasOf, schemasOf]
    exact retold_bind (silent_ofNode item) fun _ _ =>
      retold_bind (silent_schemasOf items) fun _ _ => rfl

theorem silent_entriesOf : (members : List (Member Node)) →
    (entriesOf engines members).retold silent (List.map fun e => ⟨e.key, e.schema.known, e.span⟩) =
      entriesOf engines (strippedEntries members)
  | [] => rfl
  | ⟨key, keySpan, value, span⟩ :: members => by
    rw [strippedEntries, entriesOf, entriesOf]
    exact retold_bind (silent_ofNode value) fun _ _ =>
      retold_bind (silent_entriesOf members) fun _ _ => rfl

end

end Schema

/-! ## 4. The warnings about unknown keywords -/

/-- The warning about an unknown member. -/
def Member.warning (m : Member Node) : Diagnostic :=
  (Caution.unknownKeyword m.key).diagnostic m.span

namespace Checked

variable {α β γ : Type}

/-- What a reading says of unknown keywords. -/
def unknownWarnings (x : Checked α) : List Diagnostic :=
  x.warnings.filter fun d => d.rule = .unsupported

/-- **A reading warns of the unknown members it comes to**, in order and once each. These are the
    first of all, and if nothing is refused they are all. -/
structure Accounts (x : Checked α) (reached all : List (Member Node)) : Prop where
  told : x.unknownWarnings = reached.map Member.warning
  early : reached <+: all
  whole : x.result.isOk = true → reached = all

/-- What raises no warning has come to no unknown member. -/
theorem accounts_of_no_warnings {x : Checked α} (h : x.unknownWarnings = []) : Accounts x [] [] :=
  ⟨h, List.prefix_rfl, fun _ => rfl⟩

/-- Warnings of a step that is not reached are not raised. -/
theorem unknownWarnings_bind (x : Checked α) (f : α → Checked β) :
    (x >>= f).unknownWarnings =
      x.unknownWarnings ++ (x.result.toOption.elim [] fun a => (f a).unknownWarnings) := by
  show (x.andThen f).unknownWarnings = _
  unfold andThen unknownWarnings
  obtain ⟨warnings, result⟩ := x
  cases result with
  | error d => exact (List.append_nil _).symm
  | ok a => exact List.filter_append ..

theorem isOk_of_bind {x : Checked α} {f : α → Checked β} (h : (x >>= f).result.isOk = true) :
    ∃ a, x.result = .ok a ∧ (f a).result.isOk = true := by
  change (x.andThen f).result.isOk = true at h
  unfold andThen at h
  cases hx : x.result with
  | error d =>
    rw [hx] at h
    cases h
  | ok a =>
    rw [hx] at h
    exact ⟨a, rfl, h⟩

/-- What comes after and is silent changes nothing. -/
theorem Accounts.bind {x : Checked α} {f : α → Checked β} {reached all : List (Member Node)}
    (hx : Accounts x reached all) (hf : ∀ a, (f a).unknownWarnings = []) :
    Accounts (x >>= f) reached all where
  told := by
    rw [unknownWarnings_bind, hx.told]
    cases x.result.toOption with
    | none => exact List.append_nil _
    | some a => rw [Option.elim_some, hf, List.append_nil]
  early := hx.early
  whole := by
    intro h
    obtain ⟨a, ha, -⟩ := isOk_of_bind h
    exact hx.whole (by rw [ha]; rfl)

/-- One reading after the other; the second is not come to if the first is refused. -/
theorem Accounts.append {x : Checked α} {y : Checked β} {f : α → β → γ}
    {reached all reached' all' : List (Member Node)} (hx : Accounts x reached all)
    (hy : Accounts y reached' all') :
    Accounts (x >>= fun a => y >>= fun b => pure (f a b))
      (reached ++ if true && !x.result.isOk then [] else reached')
      (all ++ if false && !x.result.isOk then [] else all') := by
  have hy' : ∀ a, Accounts (y >>= fun b => pure (f a b)) reached' all' :=
    fun a => hy.bind fun b => rfl
  rw [Bool.true_and, Bool.false_and]
  cases hresult : x.result with
  | error d =>
    refine ⟨?_, ?_, ?_⟩
    · rw [unknownWarnings_bind, hx.told, hresult]
      simp [Except.toOption, Except.isOk, Except.toBool]
    · simpa [Except.isOk, Except.toBool] using hx.early.trans (List.prefix_append all all')
    · intro h
      obtain ⟨a, ha, -⟩ := isOk_of_bind h
      cases hresult.symm.trans ha
  | ok a =>
    -- The first reading has come to all of its members, so the second goes on where they end.
    obtain rfl := hx.whole (by rw [hresult]; rfl)
    refine ⟨?_, ?_, ?_⟩
    · rw [unknownWarnings_bind, hx.told, hresult, Except.toOption, Option.elim_some, (hy' a).told]
      simp [Except.isOk, Except.toBool]
    · simpa [Except.isOk, Except.toBool] using hy.early
    · intro h
      obtain ⟨b, hb, hok⟩ := isOk_of_bind h
      obtain rfl := (hy' b).whole hok
      simp [Except.isOk, Except.toBool]

theorem warnings_silent (x : Checked α) (f : α → β) :
    (x.retold .silent f).warnings = x.warnings.filter fun d => d.rule ≠ .unsupported :=
  List.map_id _

/-- A reading that is told again as it is says nothing of unknown keywords. -/
theorem unknownWarnings_eq_nil {x : Checked α} {f : α → β}
    (h : (x.retold .silent f).warnings = x.warnings) : x.unknownWarnings = [] := by
  rw [unknownWarnings, ← h, warnings_silent, List.filter_filter, List.filter_eq_nil_iff]
  simp

end Checked

namespace Schema

open Checked Payload Retelling

/-- A keyword that holds no schemas holds no unknown members. -/
theorem unknownWarnings_partOf_plain {kind : KeywordKind} {key : String}
    (hkind : KeywordKind.ofName? key = some kind) (hplain : holdsSchemas kind = false)
    (keySpan : Span) (value : Node) (span : Span) :
    (partOf engines ⟨key, keySpan, value, span⟩).unknownWarnings = [] := by
  refine unknownWarnings_eq_nil
    ((congrArg Checked.warnings (silent_partOf_plain hkind hplain keySpan value span)).trans ?_)
  rw [map_eq_pure_bind]
  generalize partOf engines ⟨key, keySpan, value, span⟩ = x
  show (x.andThen _).warnings = x.warnings
  unfold andThen
  cases x.result with
  | error d => rfl
  | ok part => exact List.append_nil _

theorem unknownWarnings_ofParts (parts : List Part) (span : Span) :
    (ofParts parts span).unknownWarnings = [] := by
  unfold ofParts
  dsimp only
  split <;> rfl

mutual

/-- **Each unknown member that the reading comes to gets one warning**, by recursion as it is read.
    -/
theorem accounts_ofNode : (node : Node) →
    Accounts (ofNode engines node) (node.unknownMembers engines true)
      (node.unknownMembers engines false)
  | .object members span => by
    rw [ofNode, Node.unknownMembers, Node.unknownMembers]
    exact (accounts_partsOf members).bind fun parts => unknownWarnings_ofParts parts span
  | .boolean true _ | .boolean false _ | .array .. | .string .. | .number .. | .null _ =>
    accounts_of_no_warnings rfl

theorem accounts_partsOf : (members : List (Member Node)) →
    Accounts (partsOf engines members) (unknownAmong engines true members)
      (unknownAmong engines false members)
  | [] => accounts_of_no_warnings rfl
  | m :: members => by
    rw [partsOf, unknownAmong, unknownAmong]
    exact (accounts_partOf m).append (accounts_partsOf members)

theorem accounts_partOf : (m : Member Node) →
    Accounts (partOf engines m) (unknownIn engines true m) (unknownIn engines false m)
  | ⟨key, keySpan, value, span⟩ => by
    rw [unknownIn, unknownIn]
    cases hkind : KeywordKind.ofName? key with
    | none =>
      rw [partOf, hkind]
      exact ⟨rfl, List.prefix_rfl, fun _ => rfl⟩
    | some kind =>
      cases kind with
      | schema k =>
        rw [partOf, hkind]
        exact (accounts_ofNode value).bind fun _ => rfl
      | schemas k =>
        rw [partOf, hkind]
        exact (accounts_readSchemas k value).bind fun _ => rfl
      | entries k =>
        rw [partOf, hkind]
        exact (accounts_readEntries k value).bind fun _ => rfl
      | _ =>
        exact accounts_of_no_warnings (unknownWarnings_partOf_plain hkind rfl keySpan value span)

theorem accounts_readSchemas (k : ListKeyword) : (node : Node) →
    Accounts (readSchemas engines k node) (unknownInList engines true node)
      (unknownInList engines false node)
  | .array items _ => by
    rw [readSchemas_array, unknownInList, unknownInList]
    exact accounts_schemasOf items
  | .object .. | .string .. | .number .. | .boolean .. | .null _ => accounts_of_no_warnings rfl

theorem accounts_readEntries (k : MapKeyword) : (node : Node) →
    Accounts (readEntries engines k node) (unknownInMap engines true node)
      (unknownInMap engines false node)
  | .object members _ => by
    rw [readEntries_object, unknownInMap, unknownInMap]
    exact accounts_entriesOf members
  | .array .. | .string .. | .number .. | .boolean .. | .null _ => accounts_of_no_warnings rfl

theorem accounts_schemasOf : (items : List Node) →
    Accounts (schemasOf engines items) (unknownInItems engines true items)
      (unknownInItems engines false items)
  | [] => accounts_of_no_warnings rfl
  | item :: items => by
    rw [schemasOf, unknownInItems, unknownInItems]
    exact (accounts_ofNode item).append (accounts_schemasOf items)

theorem accounts_entriesOf : (members : List (Member Node)) →
    Accounts (entriesOf engines members) (unknownInEntries engines true members)
      (unknownInEntries engines false members)
  | [] => accounts_of_no_warnings rfl
  | ⟨key, keySpan, value, span⟩ :: members => by
    rw [entriesOf, unknownInEntries, unknownInEntries]
    exact (accounts_ofNode value).append (accounts_entriesOf members)

end

end Schema

/-! ## 5. Nothing is left to strip -/

mutual

/-- Nothing unknown is left. -/
theorem Node.unknownMembers_stripped : (node : Node) →
    node.stripped.unknownMembers engines false = []
  | .object members span => by
    rw [Node.stripped, Node.unknownMembers]
    exact unknownAmong_strippedMembers members
  | .array .. | .string .. | .number .. | .boolean .. | .null _ => rfl

theorem unknownAmong_strippedMembers : (members : List (Member Node)) →
    unknownAmong engines false (strippedMembers members) = []
  | [] => rfl
  | ⟨key, keySpan, value, span⟩ :: members => by
    have hrest := unknownAmong_strippedMembers members
    rw [strippedMembers]
    cases hkind : KeywordKind.ofName? key with
    | none => exact hrest
    | some kind =>
      have hcons : ∀ value' : Node, unknownIn engines false ⟨key, keySpan, value', span⟩ = [] →
          unknownAmong engines false (⟨key, keySpan, value', span⟩ :: strippedMembers members) =
            [] := by
        intro value' hvalue
        rw [unknownAmong, hvalue, Bool.false_and, hrest]
        rfl
      refine hcons _ ?_
      rw [unknownIn, hkind]
      cases kind with
      | schema k => exact value.unknownMembers_stripped
      | schemas k => exact unknownInList_strippedList value
      | entries k => exact unknownInMap_strippedMap value
      | _ => rfl

theorem unknownInList_strippedList : (node : Node) →
    unknownInList engines false (strippedList node) = []
  | .array items _ => by
    rw [strippedList, unknownInList]
    exact unknownInItems_strippedItems items
  | .object .. | .string .. | .number .. | .boolean .. | .null _ => rfl

theorem unknownInMap_strippedMap : (node : Node) →
    unknownInMap engines false (strippedMap node) = []
  | .object members _ => by
    rw [strippedMap, unknownInMap]
    exact unknownInEntries_strippedEntries members
  | .array .. | .string .. | .number .. | .boolean .. | .null _ => rfl

theorem unknownInItems_strippedItems : (items : List Node) →
    unknownInItems engines false (strippedItems items) = []
  | [] => rfl
  | item :: items => by
    rw [strippedItems, unknownInItems, item.unknownMembers_stripped, Bool.false_and,
      unknownInItems_strippedItems items]
    rfl

theorem unknownInEntries_strippedEntries : (members : List (Member Node)) →
    unknownInEntries engines false (strippedEntries members) = []
  | [] => rfl
  | ⟨key, keySpan, value, span⟩ :: members => by
    rw [strippedEntries, unknownInEntries, value.unknownMembers_stripped, Bool.false_and,
      unknownInEntries_strippedEntries members]
    rfl

end

/-! ## 6. The theorem -/

namespace Schema

open Checked Retelling

/-- A tree and what is left of it are accepted alike. -/
theorem result_stripped (node : Node) :
    (ofNode engines node.stripped).result = (ofNode engines node).result.map known := by
  rw [← silent_ofNode]
  cases h : (ofNode engines node).result <;> simp only [retold, h] <;> rfl

/-- **Unknown members change nothing but the warnings about them.** Without them the same is refused
    for the same reason; what is accepted is the same schema without what was set aside as unknown,
    and has the same definition; the warnings are the same, in order, but for those about unknown
    keywords. Of these there is one for each member removed that the reading comes to. -/
theorem ofNode_stripped (engines : Engines) (node : Node) :
    (∀ d, (ofNode engines node.stripped).result = .error d ↔
        (ofNode engines node).result = .error d) ∧
      (∀ schema, (ofNode engines node).result = .ok schema →
        (ofNode engines node.stripped).result = .ok schema.known ∧
          ∀ alphabet rootName, Definition.ofSchema alphabet schema.known rootName =
            Definition.ofSchema alphabet schema rootName) ∧
      (ofNode engines node.stripped).warnings =
        (ofNode engines node).warnings.filter (fun d => d.rule ≠ .unsupported) ∧
      Accounts (ofNode engines node) (node.unknownMembers engines true)
        (node.unknownMembers engines false) ∧
      node.stripped.unknownMembers engines false = [] := by
  refine ⟨fun d => ?_, fun schema h => ⟨?_, definition_known schema⟩, ?_, accounts_ofNode node,
    node.unknownMembers_stripped⟩
  · rw [result_stripped]
    cases (ofNode engines node).result with
    | error e => exact Iff.rfl
    | ok schema => exact ⟨nofun, nofun⟩
  · rw [result_stripped, h]
    rfl
  · rw [← silent_ofNode, warnings_silent]

/-- A schema with unknown members beside keywords, in a sub-schema and in a list, and with such
    names where no keyword is expected: as a key of properties, in data and in an unknown member. -/
def annotatedNode : Node :=
  .object
    [⟨"x-a", ⟨1, 6⟩, .object [⟨"x-b", ⟨8, 13⟩, .null ⟨14, 18⟩, ⟨8, 18⟩⟩] ⟨7, 19⟩, ⟨1, 19⟩⟩,
     ⟨"$schema", ⟨20, 29⟩, .string "s" ⟨30, 33⟩, ⟨20, 33⟩⟩,
     ⟨"properties", ⟨34, 46⟩, .object
       [⟨"x-c", ⟨48, 53⟩, .object
         [⟨"x-d", ⟨55, 60⟩, .null ⟨61, 65⟩, ⟨55, 65⟩⟩,
          ⟨"const", ⟨66, 73⟩, .object [⟨"x-e", ⟨75, 80⟩, .null ⟨81, 85⟩, ⟨75, 85⟩⟩] ⟨74, 86⟩,
            ⟨66, 86⟩⟩] ⟨54, 87⟩, ⟨48, 87⟩⟩] ⟨47, 88⟩, ⟨34, 88⟩⟩,
     ⟨"anyOf", ⟨89, 96⟩, .array
       [.boolean true ⟨98, 102⟩,
        .object [⟨"x-f", ⟨104, 109⟩, .null ⟨110, 114⟩, ⟨104, 114⟩⟩] ⟨103, 115⟩] ⟨97, 116⟩,
       ⟨89, 116⟩⟩] ⟨0, 117⟩

theorem ofNode_stripped_annotated :
    ∃ schema, (ofNode .standard annotatedNode).result = .ok schema ∧
      (ofNode .standard annotatedNode.stripped).result = .ok schema.known ∧
      (annotatedNode.unknownMembers .standard true).map Member.key = ["x-a", "x-d", "x-f"] ∧
      (ofNode .standard annotatedNode).unknownWarnings.length = 3 ∧
      (ofNode .standard annotatedNode.stripped).warnings.length = 1 :=
  ⟨_, rfl, ((ofNode_stripped .standard annotatedNode).2.1 _ rfl).1, rfl, rfl, rfl⟩

/-- A reading that is refused does not come to what follows. -/
example :
    let node : Node := .object
      [⟨"not", ⟨1, 6⟩, .object
        [⟨"x-a", ⟨8, 13⟩, .null ⟨14, 18⟩, ⟨8, 18⟩⟩, ⟨"type", ⟨19, 25⟩, .null ⟨26, 30⟩, ⟨19, 30⟩⟩]
        ⟨7, 31⟩, ⟨1, 31⟩⟩,
       ⟨"x-b", ⟨32, 37⟩, .null ⟨38, 42⟩, ⟨32, 42⟩⟩] ⟨0, 43⟩
    (node.unknownMembers .standard true).map Member.key = ["x-a"] ∧
      (node.unknownMembers .standard false).map Member.key = ["x-a", "x-b"] :=
  ⟨rfl, rfl⟩

end Schema

end SchemaCompiler
