/-
  File:      SchemaCompiler/Proofs/Settings/Overrides.lean
  Subject:   The members of a settings file override the defaults, each for itself.

  A file that is one object is read by its members alone, whatever the layout
  (`read_object_iff`). What the members tell is said field by field (`told_iff_chosen`): a field is
  what its member says, or its default if there is none (`Chosen`). So the settings are there if the
  members are proper (`exists_told_settings`), and they do not depend on the order of the members
  (`Chosen.rearranged`).

  * **`members_override`**: proper members give the settings they tell, in every order; members that
    are unknown, repeated or of the wrong kind, in the file or in its imports, give none.
-/
import SchemaCompiler.Proofs.Settings.Records

namespace SchemaCompiler

namespace Settings

open Grammar

variable {α σ : Type}

/-! ## 1. Files that are one object -/

section Objects

variable {text : String} {members : List (Member Node)} {span : Span} {settings : Settings}

/-- What a file holds that begins with an array or an object is told by that. -/
theorem tells_of_holds {before body rest : List Char} {node : Node}
    (htext : text.toList = before ++ (body ++ rest)) (hbefore : Blanks before)
    (hnode : IsValue body (byteLength before) node) (hbrackets : node.IsBracketed)
    (h : Holds text settings) : TellsRecord settingSlots .default node settings := by
  obtain ⟨before', body', rest', node', htext', hbefore', hnode', htells⟩ := h
  obtain ⟨rfl, -⟩ := hnode.unique_after_blanks hbefore hbrackets hbefore' hnode'
    (isBracketed_of_tells htells) (htext.symm.trans htext')
  exact htells

/-- **A file that is one object is read by its members.** -/
theorem read_object_iff (hdocument : IsDocument text.toList (.object members span)) :
    Settings.read text = .ok settings ↔ Told settingSlots .default members settings := by
  rw [read_eq_ok_iff]
  generalize htext : text.toList = source at hdocument
  cases hdocument with
  | @mk before body after _ hbefore hnode hafter =>
    constructor
    · intro h
      exact tells_of_holds htext hbefore hnode trivial h
    · intro htold
      exact ⟨before, body, after, _, htext, hbefore, hnode, htold⟩

theorem read_eq_error_of_not_told (hdocument : IsDocument text.toList (.object members span))
    (h : ∀ settings, ¬ Told settingSlots .default members settings) :
    ∃ e, Settings.read text = .error e := by
  cases hread : Settings.read text with
  | error e => exact ⟨e, rfl⟩
  | ok settings => exact absurd ((read_object_iff hdocument).mp hread) (h settings)

end Objects

/-! ## 2. Field by field -/

/-- A field is what the member of its name says, or else its default. -/
structure Chosen (key : String) (tells : Node → α → Prop) (default : α)
    (members : List (Member Node)) (a : α) : Prop where
  told : ∀ m ∈ members, m.key = key → tells m.value a
  kept : (∀ m ∈ members, m.key ≠ key) → a = default

section Chosen

variable {key : String} {tells : Node → α → Prop} {default a : α} {members : List (Member Node)}

theorem eq_of_key_eq (honce : (members.map Member.key).Nodup) {m m' : Member Node}
    (hm : m ∈ members) (hm' : m' ∈ members) (h : m.key = m'.key) : m = m' :=
  List.inj_on_of_nodup_map honce hm hm' h

theorem exists_chosen (key : String) (default : α) (honce : (members.map Member.key).Nodup)
    (h : ∀ m ∈ members, m.key = key → ∃ a, tells m.value a) :
    ∃ a, Chosen key tells default members a := by
  by_cases hmember : ∃ m ∈ members, m.key = key
  · obtain ⟨m, hm, hkey⟩ := hmember
    obtain ⟨a, ha⟩ := h m hm hkey
    refine ⟨a, fun m' hm' hkey' => ?_, fun hnone => absurd hkey (hnone m hm)⟩
    rw [eq_of_key_eq honce hm' hm (hkey'.trans hkey.symm)]
    exact ha
  · have hnone : ∀ m ∈ members, m.key ≠ key := fun m hm hkey => hmember ⟨m, hm, hkey⟩
    exact ⟨default, fun m hm hkey => absurd hkey (hnone m hm), fun _ => rfl⟩

/-- **A record is told iff each of its fields is told or kept**, by members of its names only. -/
theorem told_iff_chosen {slots : List (Slot σ)} (hlawful : Lawful slots) {start record : σ} :
    Told slots start members record ↔
      (members.map Member.key).Nodup ∧ (∀ m ∈ members, m.key ∈ slots.map Slot.name) ∧
        ∀ slot ∈ slots,
          Chosen slot.name slot.tells (slot.get start) members (slot.get record) := by
  constructor
  · intro htold
    refine ⟨htold.once, fun m hm => ?_, fun slot hslot => ⟨fun m hm hkey => ?_, fun hnone => ?_⟩⟩
    · obtain ⟨slot, hslot, hname, -⟩ := htold.told m hm
      exact hname ▸ List.mem_map_of_mem hslot
    · obtain ⟨other, hother, hname, htells⟩ := htold.told m hm
      have hsame := hlawful.eq_of_name hslot hother (hkey.symm.trans hname.symm)
      rw [hsame]
      exact htells
    · refine htold.kept slot hslot fun hmem => ?_
      obtain ⟨m, hm, hkey⟩ := List.mem_map.mp hmem
      exact hnone m hm hkey
  · intro h
    obtain ⟨honce, hnames, hchosen⟩ := h
    refine ⟨honce, fun m hm => ?_, fun slot hslot hnone => ?_⟩
    · obtain ⟨slot, hslot, hname⟩ := List.mem_map.mp (hnames m hm)
      exact ⟨slot, hslot, hname, (hchosen slot hslot).told m hm hname.symm⟩
    · refine (hchosen slot hslot).kept fun m hm hkey => hnone ?_
      exact hkey ▸ List.mem_map_of_mem hm

end Chosen

/-! ## 3. Proper and faulty members -/

def IsBoolean (node : Node) : Prop := ∃ b, TellsBoolean node b

def IsText (node : Node) : Prop := ∃ text, node.IsText text

/-- Module names, each at most once. -/
structure ProperImports (members : List (Member Node)) : Prop where
  once : (members.map Member.key).Nodup
  known : ∀ m ∈ members, m.key = "superstruct" ∨ m.key = "std"
  texts : ∀ m ∈ members, IsText m.value

/-- Settings of the right kinds, each at most once. -/
structure ProperSettings (members : List (Member Node)) : Prop where
  once : (members.map Member.key).Nodup
  known : ∀ m ∈ members, m.key = "optimize" ∨ m.key = "rootName" ∨ m.key = "imports"
  optimize : ∀ m ∈ members, m.key = "optimize" → IsBoolean m.value
  rootName : ∀ m ∈ members, m.key = "rootName" → IsText m.value
  imports : ∀ m ∈ members, m.key = "imports" →
    ∃ inner span, m.value = .object inner span ∧ ProperImports inner

/-- Something is wrong with the module names: one is repeated, unknown or no text. -/
def FaultyImports (members : List (Member Node)) : Prop :=
  ¬ (members.map Member.key).Nodup ∨
    ∃ m ∈ members, ¬ (m.key = "superstruct" ∨ m.key = "std") ∨ ¬ IsText m.value

/-- Something is wrong with the settings, or with the module names in them. -/
def FaultySettings (members : List (Member Node)) : Prop :=
  ¬ (members.map Member.key).Nodup ∨
    ∃ m ∈ members, ¬ (m.key = "optimize" ∨ m.key = "rootName" ∨ m.key = "imports") ∨
      (m.key = "optimize" ∧ ¬ IsBoolean m.value) ∨ (m.key = "rootName" ∧ ¬ IsText m.value) ∨
      (m.key = "imports" ∧ ∃ inner span, m.value = .object inner span ∧ FaultyImports inner)

/-- Each module name is what its member says, or its default. -/
structure ImportsOverridden (members : List (Member Node)) (imports : Imports) : Prop where
  combinators : Chosen "superstruct" Node.IsText "superstruct" members imports.combinators
  helpers : Chosen "std" Node.IsText "@schema-to-superstruct/std" members imports.helpers

/-- The tree is an object whose members override the module names. -/
def TellsImports (node : Node) (imports : Imports) : Prop :=
  ∃ members span, node = .object members span ∧ ImportsOverridden members imports

/-- Each setting is what its member says, or its default. -/
structure SettingsOverridden (members : List (Member Node)) (settings : Settings) : Prop where
  optimize : Chosen "optimize" TellsBoolean true members settings.optimize
  rootName : Chosen "rootName" Node.IsText "root" members settings.rootName
  imports : Chosen "imports" TellsImports ⟨"superstruct", "@schema-to-superstruct/std"⟩ members
    settings.imports

section Settings

variable {members : List (Member Node)} {imports : Imports} {settings : Settings}

theorem told_imports_iff :
    Told importSlots .default members imports ↔
      (members.map Member.key).Nodup ∧ (∀ m ∈ members, m.key = "superstruct" ∨ m.key = "std") ∧
        ImportsOverridden members imports := by
  rw [told_iff_chosen lawful_importSlots]
  have hnames : ∀ key, key ∈ importSlots.map Slot.name ↔ key = "superstruct" ∨ key = "std" := by
    intro key
    simp [importSlots]
  have hslots : (∀ slot ∈ importSlots, Chosen slot.name slot.tells (slot.get .default) members
      (slot.get imports)) ↔ ImportsOverridden members imports := by
    simp only [importSlots, List.forall_mem_cons]
    constructor
    · intro h
      exact ⟨h.1, h.2.1⟩
    · intro h
      exact ⟨h.1, h.2, fun _ hslot => absurd hslot List.not_mem_nil⟩
  simp only [hnames, hslots]

theorem told_settings_iff :
    Told settingSlots .default members settings ↔
      (members.map Member.key).Nodup ∧
        (∀ m ∈ members, m.key = "optimize" ∨ m.key = "rootName" ∨ m.key = "imports") ∧
        Chosen "optimize" TellsBoolean true members settings.optimize ∧
        Chosen "rootName" Node.IsText "root" members settings.rootName ∧
        Chosen "imports" (TellsRecord importSlots .default) .default members settings.imports := by
  rw [told_iff_chosen lawful_settingSlots]
  have hnames : ∀ key, key ∈ settingSlots.map Slot.name ↔
      key = "optimize" ∨ key = "rootName" ∨ key = "imports" := by
    intro key
    simp [settingSlots]
  have hslots : (∀ slot ∈ settingSlots, Chosen slot.name slot.tells (slot.get .default) members
      (slot.get settings)) ↔
      Chosen "optimize" TellsBoolean true members settings.optimize ∧
        Chosen "rootName" Node.IsText "root" members settings.rootName ∧
        Chosen "imports" (TellsRecord importSlots .default) .default members settings.imports := by
    simp only [settingSlots, List.forall_mem_cons]
    constructor
    · intro h
      exact ⟨h.1, h.2.1, h.2.2.1⟩
    · intro h
      exact ⟨h.1, h.2.1, h.2.2, fun _ hslot => absurd hslot List.not_mem_nil⟩
  simp only [hnames, hslots]

theorem exists_told_imports (h : ProperImports members) :
    ∃ imports, Told importSlots .default members imports := by
  obtain ⟨combinators, hcombinators⟩ := exists_chosen "superstruct" "superstruct" h.once
    fun m hm _ => h.texts m hm
  obtain ⟨helpers, hhelpers⟩ := exists_chosen "std" "@schema-to-superstruct/std" h.once
    fun m hm _ => h.texts m hm
  exact ⟨⟨combinators, helpers⟩,
    told_imports_iff.mpr ⟨h.once, h.known, hcombinators, hhelpers⟩⟩

/-- Objects as imports are told member by member. -/
theorem overridden_of_told (h : Told settingSlots .default members settings)
    (hobjects : ∀ m ∈ members, m.key = "imports" → ∃ inner span, m.value = .object inner span) :
    SettingsOverridden members settings := by
  obtain ⟨-, -, hoptimize, hrootName, himports⟩ := told_settings_iff.mp h
  refine ⟨hoptimize, hrootName, fun m hm hkey => ?_, himports.kept⟩
  obtain ⟨inner, span, hvalue⟩ := hobjects m hm hkey
  have htold : TellsRecord importSlots .default m.value settings.imports := himports.told m hm hkey
  rw [hvalue] at htold
  obtain ⟨-, -, hoverridden⟩ := told_imports_iff.mp htold
  exact ⟨inner, span, hvalue, hoverridden⟩

theorem exists_told_settings (h : ProperSettings members) :
    ∃ settings, Told settingSlots .default members settings ∧
      SettingsOverridden members settings := by
  obtain ⟨optimize, hoptimize⟩ := exists_chosen "optimize" true h.once h.optimize
  obtain ⟨rootName, hrootName⟩ := exists_chosen "rootName" "root" h.once h.rootName
  have htold : ∀ m ∈ members, m.key = "imports" →
      ∃ imports, TellsRecord importSlots .default m.value imports := by
    intro m hm hkey
    obtain ⟨inner, span, hvalue, hproper⟩ := h.imports m hm hkey
    rw [hvalue]
    exact exists_told_imports hproper
  obtain ⟨imports, himports⟩ := exists_chosen "imports" Imports.default h.once htold
  have hall : Told settingSlots .default members ⟨optimize, rootName, imports⟩ :=
    told_settings_iff.mpr ⟨h.once, h.known, hoptimize, hrootName, himports⟩
  refine ⟨_, hall, overridden_of_told hall fun m hm hkey => ?_⟩
  obtain ⟨inner, span, hvalue, -⟩ := h.imports m hm hkey
  exact ⟨inner, span, hvalue⟩

theorem not_told_of_faultyImports (h : FaultyImports members) (imports : Imports) :
    ¬ Told importSlots .default members imports := by
  intro htold
  obtain ⟨honce, hknown, hcombinators, hhelpers⟩ := told_imports_iff.mp htold
  rcases h with hrepeated | ⟨m, hm, hunknown | htext⟩
  · exact hrepeated honce
  · exact hunknown (hknown m hm)
  · rcases hknown m hm with hkey | hkey
    · exact htext ⟨_, hcombinators.told m hm hkey⟩
    · exact htext ⟨_, hhelpers.told m hm hkey⟩

theorem not_told_of_faultySettings (h : FaultySettings members) (settings : Settings) :
    ¬ Told settingSlots .default members settings := by
  intro htold
  obtain ⟨honce, hknown, hoptimize, hrootName, himports⟩ := told_settings_iff.mp htold
  rcases h with hrepeated | ⟨m, hm, hunknown | ⟨hkey, hboolean⟩ | ⟨hkey, htext⟩ | ⟨hkey, hinner⟩⟩
  · exact hrepeated honce
  · exact hunknown (hknown m hm)
  · exact hboolean ⟨_, hoptimize.told m hm hkey⟩
  · exact htext ⟨_, hrootName.told m hm hkey⟩
  · obtain ⟨inner, span, hvalue, hfaulty⟩ := hinner
    have htells : TellsRecord importSlots .default m.value settings.imports :=
      himports.told m hm hkey
    rw [hvalue] at htells
    exact not_told_of_faultyImports hfaulty settings.imports htells

end Settings

/-! ## 4. The order of the members -/

/-- The same keys, in any order, with values that are the same in some sense. -/
structure Rearranged (same : Node → Node → Prop) (members members' : List (Member Node)) :
    Prop where
  keys : (members.map Member.key).Perm (members'.map Member.key)
  values : ∀ m ∈ members, ∀ m' ∈ members', m.key = m'.key → same m.value m'.value

/-- The same scalar; where it stands does not count. -/
inductive SameScalar : Node → Node → Prop
  | boolean {b : Bool} {span span' : Span} : SameScalar (.boolean b span) (.boolean b span')
  | string {text : String} {span span' : Span} : SameScalar (.string text span) (.string text span')

/-- The same scalar, or objects of the same scalars. -/
inductive SameSetting : Node → Node → Prop
  | scalar {node node' : Node} : SameScalar node node' → SameSetting node node'
  | object {members members' : List (Member Node)} {span span' : Span} :
      Rearranged SameScalar members members' →
      SameSetting (.object members span) (.object members' span')

section Order

variable {same : Node → Node → Prop} {members members' : List (Member Node)} {key : String}
  {tells tells' : Node → α → Prop} {default a : α} {node node' : Node}

theorem Rearranged.exists_of_mem (h : Rearranged same members members') {m' : Member Node}
    (hm' : m' ∈ members') : ∃ m ∈ members, m.key = m'.key ∧ same m.value m'.value := by
  have hkey : m'.key ∈ members.map Member.key :=
    h.keys.mem_iff.mpr (List.mem_map_of_mem hm')
  obtain ⟨m, hm, hkey⟩ := List.mem_map.mp hkey
  exact ⟨m, hm, hkey, h.values m hm m' hm' hkey⟩

/-- **What is chosen does not depend on the order.** -/
theorem Chosen.rearranged (hchosen : Chosen key tells default members a)
    (h : Rearranged same members members')
    (hsame : ∀ {node node' : Node}, same node node' → tells node a → tells' node' a) :
    Chosen key tells' default members' a := by
  refine ⟨fun m' hm' hkey => ?_, fun hnone => hchosen.kept fun m hm hkey => ?_⟩
  · obtain ⟨m, hm, hkeys, hvalue⟩ := h.exists_of_mem hm'
    exact hsame hvalue (hchosen.told m hm (hkeys.trans hkey))
  · have hmem : key ∈ members'.map Member.key :=
      h.keys.mem_iff.mp (hkey ▸ List.mem_map_of_mem hm)
    obtain ⟨m', hm', hkey'⟩ := List.mem_map.mp hmem
    exact hnone m' hm' hkey'

theorem SameScalar.tellsBoolean {b : Bool} (h : SameScalar node node')
    (htells : TellsBoolean node b) : TellsBoolean node' b := by
  obtain ⟨span, rfl⟩ := htells
  cases h with
  | boolean => exact ⟨_, rfl⟩

theorem SameScalar.isText {text : String} (h : SameScalar node node')
    (htells : node.IsText text) : node'.IsText text := by
  obtain ⟨span, rfl⟩ := htells
  cases h with
  | string => exact ⟨_, rfl⟩

theorem SameSetting.tellsBoolean {b : Bool} (h : SameSetting node node')
    (htells : TellsBoolean node b) : TellsBoolean node' b := by
  cases h with
  | scalar h => exact h.tellsBoolean htells
  | object => obtain ⟨span, habsurd⟩ := htells; cases habsurd

theorem SameSetting.isText {text : String} (h : SameSetting node node')
    (htells : node.IsText text) : node'.IsText text := by
  cases h with
  | scalar h => exact h.isText htells
  | object => obtain ⟨span, habsurd⟩ := htells; cases habsurd

/-- **What members tell does not depend on their order.** -/
theorem Told.rearranged {slots : List (Slot σ)} (hlawful : Lawful slots) {start record : σ}
    (htold : Told slots start members record) (h : Rearranged same members members')
    (hsame : ∀ slot ∈ slots, ∀ {node node' : Node}, same node node' →
      slot.tells node (slot.get record) → slot.tells node' (slot.get record)) :
    Told slots start members' record := by
  obtain ⟨honce, hnames, hchosen⟩ := (told_iff_chosen hlawful).mp htold
  refine (told_iff_chosen hlawful).mpr ⟨h.keys.nodup_iff.mp honce, fun m' hm' => ?_,
    fun slot hslot => (hchosen slot hslot).rearranged h (hsame slot hslot)⟩
  obtain ⟨m, hm, hkey, -⟩ := h.exists_of_mem hm'
  exact hkey ▸ hnames m hm

theorem SameSetting.tellsRecord {imports : Imports} (h : SameSetting node node')
    (htells : TellsRecord importSlots .default node imports) :
    TellsRecord importSlots .default node' imports := by
  cases h with
  | scalar h => cases h <;> exact htells.elim
  | object h =>
    refine Told.rearranged lawful_importSlots htells h ?_
    simp only [importSlots, List.forall_mem_cons]
    exact ⟨SameScalar.isText, SameScalar.isText, fun _ h => absurd h List.not_mem_nil⟩

theorem told_settings_rearranged {settings : Settings}
    (htold : Told settingSlots .default members settings)
    (h : Rearranged SameSetting members members') :
    Told settingSlots .default members' settings := by
  refine htold.rearranged lawful_settingSlots h ?_
  simp only [settingSlots, List.forall_mem_cons]
  exact ⟨SameSetting.tellsBoolean, SameSetting.isText, SameSetting.tellsRecord,
    fun _ h => absurd h List.not_mem_nil⟩

end Order

/-! ## 5. Settings files -/

/-- **The members of a settings file override the defaults, each for itself.** Proper members give
    settings, each as its member says or as its default, and the same settings in every order and
    layout. Members with a fault give none. -/
theorem members_override (text : String) (members : List (Member Node)) (span : Span)
    (hdocument : IsDocument text.toList (.object members span)) :
    (ProperSettings members → ∃ settings, Settings.read text = .ok settings ∧
      SettingsOverridden members settings ∧
      ∀ (text' : String) (members' : List (Member Node)) (span' : Span),
        IsDocument text'.toList (.object members' span') → Rearranged SameSetting members members' →
          Settings.read text' = .ok settings) ∧
    (FaultySettings members → ∃ e, Settings.read text = .error e) := by
  constructor
  · intro hproper
    obtain ⟨settings, htold, hoverridden⟩ := exists_told_settings hproper
    refine ⟨settings, (read_object_iff hdocument).mpr htold, hoverridden, ?_⟩
    intro text' members' span' hdocument' hrearranged
    exact (read_object_iff hdocument').mpr (told_settings_rearranged htold hrearranged)
  · intro hfaulty
    exact read_eq_error_of_not_told hdocument (not_told_of_faultySettings hfaulty)

/-- Imports of which one is left out, and no root name. -/
def partialFile : String := "\x7b\"imports\":\x7b\"std\":\"s\"\x7d,\"optimize\":false\x7d"

def partialMembers : List (Member Node) :=
  [⟨"imports", ⟨1, 10⟩, .object [⟨"std", ⟨12, 17⟩, .string "s" ⟨18, 21⟩, ⟨12, 21⟩⟩] ⟨11, 22⟩,
      ⟨1, 22⟩⟩,
   ⟨"optimize", ⟨23, 33⟩, .boolean false ⟨34, 39⟩, ⟨23, 39⟩⟩]

/-- The same setting twice. -/
def repeatedFile : String := "\x7b\"optimize\":true,\"optimize\":true\x7d"

def repeatedMembers : List (Member Node) :=
  [⟨"optimize", ⟨1, 11⟩, .boolean true ⟨12, 16⟩, ⟨1, 16⟩⟩,
   ⟨"optimize", ⟨17, 27⟩, .boolean true ⟨28, 32⟩, ⟨17, 32⟩⟩]

theorem isDocument_partialFile :
    IsDocument partialFile.toList (.object partialMembers ⟨0, 40⟩) := by
  have himports := stringBody_of_all_plain "imports" (by decide)
  have hstd := stringBody_of_all_plain "std" (by decide)
  have hs := stringBody_of_all_plain "s" (by decide)
  have hoptimize := stringBody_of_all_plain "optimize" (by decide)
  have hinner := @Parts.last _ (MemberText IsValue) 12 [] _ [] _ (by decide)
    (@MemberText.mk IsValue 12 _ _ [] [] _ _ hstd (by decide) (by decide) (.string hs)) (by decide)
  have houter := @Parts.more _ (MemberText IsValue) 1 [] _ [] _ _ _ (by decide)
    (@MemberText.mk IsValue 1 _ _ [] [] _ _ himports (by decide) (by decide) (.object hinner))
    (by decide)
    (@Parts.last _ _ 23 [] _ [] _ (by decide)
      (@MemberText.mk IsValue 23 _ _ [] [] _ _ hoptimize (by decide) (by decide) .false)
      (by decide))
  exact @IsDocument.mk [] _ [] _ (by decide) (.object houter) (by decide)

theorem isDocument_repeatedFile :
    IsDocument repeatedFile.toList (.object repeatedMembers ⟨0, 33⟩) := by
  have hoptimize := stringBody_of_all_plain "optimize" (by decide)
  have hmembers := @Parts.more _ (MemberText IsValue) 1 [] _ [] _ _ _ (by decide)
    (@MemberText.mk IsValue 1 _ _ [] [] _ _ hoptimize (by decide) (by decide) .true) (by decide)
    (@Parts.last _ _ 17 [] _ [] _ (by decide)
      (@MemberText.mk IsValue 17 _ _ [] [] _ _ hoptimize (by decide) (by decide) .true) (by decide))
  exact @IsDocument.mk [] _ [] _ (by decide) (.object hmembers) (by decide)

theorem proper_partialMembers : ProperSettings partialMembers := by
  have hinner : ProperImports [⟨"std", ⟨12, 17⟩, .string "s" ⟨18, 21⟩, ⟨12, 21⟩⟩] :=
    ⟨by decide, by decide, List.forall_mem_singleton.mpr ⟨"s", _, rfl⟩⟩
  refine ⟨by decide, by decide, ?_, ?_, ?_⟩
  · refine List.forall_mem_cons.mpr ⟨fun h => absurd h (by decide), ?_⟩
    exact List.forall_mem_singleton.mpr fun _ => ⟨false, _, rfl⟩
  · refine List.forall_mem_cons.mpr ⟨fun h => absurd h (by decide), ?_⟩
    exact List.forall_mem_singleton.mpr fun h => absurd h (by decide)
  · refine List.forall_mem_cons.mpr ⟨fun _ => ⟨_, _, rfl, hinner⟩, ?_⟩
    exact List.forall_mem_singleton.mpr fun h => absurd h (by decide)

theorem members_override_partial :
    Settings.read partialFile = .ok ⟨false, "root", ⟨"superstruct", "s"⟩⟩ ∧
      ∃ e, Settings.read repeatedFile = .error e := by
  obtain ⟨⟨optimize, rootName, combinators, helpers⟩, hread, hoverridden, -⟩ :=
    (members_override partialFile partialMembers _ isDocument_partialFile).1 proper_partialMembers
  obtain ⟨_, hoptimize⟩ :=
    hoverridden.optimize.told _ (List.mem_cons_of_mem _ List.mem_cons_self) rfl
  have hrootName : rootName = "root" := hoverridden.rootName.kept (by decide)
  obtain ⟨_, _, himports, hinner⟩ := hoverridden.imports.told _ List.mem_cons_self rfl
  cases himports
  have hcombinators : combinators = "superstruct" := hinner.combinators.kept (by decide)
  obtain ⟨_, hhelpers⟩ := hinner.helpers.told _ List.mem_cons_self rfl
  cases hoptimize
  cases hhelpers
  rw [hread, hrootName, hcombinators]
  exact ⟨rfl, (members_override repeatedFile repeatedMembers _ isDocument_repeatedFile).2
    (.inl (by decide))⟩

end Settings

end SchemaCompiler
