/-
  File:      SchemaCompiler/Proofs/Settings/Wholeness.lean
  Subject:   What of a settings file is read.

  Only the front of a file is read: blanks, and the first array or object. So a file that holds
  settings holds them whatever follows (`read_of_front`), and it need not be one object.

  * `Whole`: the file is one object between blanks, and its imports are an object;
  * `whole_iff`: a file that begins with an array or an object is whole iff nothing but blanks
    follows and both records are written as objects;
  * **`accepted_whole_iff`**: so much of a file that holds settings, and no more, is certain;
  * `accepted_unwhole`: files that hold settings and are not whole, for each of the three reasons.
-/
import SchemaCompiler.Proofs.Settings.Records

namespace SchemaCompiler

namespace Settings

open Grammar

/-- The members are those of a record whose imports, if they are there, are an object. -/
def ImportsAreObject (members : List (Member Node)) : Prop :=
  ∀ m ∈ members, m.key = "imports" → ∃ inner span, m.value = .object inner span

/-- The file is one object between blanks, and its imports are an object. -/
def Whole (text : String) : Prop :=
  ∃ members span, IsDocument text.toList (.object members span) ∧ ImportsAreObject members

/-- The settings and the imports are written as objects. -/
def WrittenAsObjects (node : Node) : Prop :=
  ∃ members span, node = .object members span ∧ ImportsAreObject members

section Front

variable {before body rest : List Char} {node : Node} {settings : Settings}

/-- What follows the record is of no matter. -/
theorem read_of_front (hbefore : Blanks before) (hnode : IsValue body (byteLength before) node)
    (htells : TellsRecord settingSlots .default node settings) (rest : List Char) :
    Settings.read (String.ofList (before ++ (body ++ rest))) = .ok settings := by
  refine read_eq_ok_iff.mpr ⟨before, body, rest, node, ?_, hbefore, hnode, htells⟩
  rw [String.toList_ofList]

theorem whole_iff {text : String} (htext : text.toList = before ++ (body ++ rest))
    (hbefore : Blanks before) (hnode : IsValue body (byteLength before) node)
    (hbrackets : node.IsBracketed) : Whole text ↔ Blanks rest ∧ WrittenAsObjects node := by
  constructor
  · intro h
    obtain ⟨members, span, hdocument, himports⟩ := h
    rw [htext] at hdocument
    generalize hsource : before ++ (body ++ rest) = source at hdocument
    cases hdocument with
    | @mk before' body' after _ hbefore' hobject hafter =>
      obtain ⟨hsame, hrest⟩ :=
        hnode.unique_after_blanks hbefore hbrackets hbefore' hobject trivial hsource
      exact ⟨hrest ▸ hafter, members, span, hsame, himports⟩
  · intro h
    obtain ⟨hrest, members, span, rfl, himports⟩ := h
    refine ⟨members, span, ?_, himports⟩
    rw [htext]
    exact .mk hbefore hnode hrest

theorem read_and_unwhole {text : String} (htext : text.toList = before ++ (body ++ rest))
    (hbefore : Blanks before) (hnode : IsValue body (byteLength before) node)
    (htells : TellsRecord settingSlots .default node settings)
    (hnot : ¬ (Blanks rest ∧ WrittenAsObjects node)) :
    Settings.read text = .ok settings ∧ ¬ Whole text := by
  refine ⟨read_eq_ok_iff.mpr ⟨before, body, rest, node, htext, hbefore, hnode, htells⟩, ?_⟩
  rw [whole_iff htext hbefore hnode (isBracketed_of_tells htells)]
  exact hnot

end Front

/-- **Only the front of a file is read.** A file that holds settings begins with an array or an
    object that tells them, and holds them whatever follows; it is one object between blanks, with
    an object as imports, iff nothing but blanks follows and both records are written so. -/
theorem accepted_whole_iff (text : String) (settings : Settings)
    (h : Settings.read text = .ok settings) :
    ∃ before body rest node, text.toList = before ++ (body ++ rest) ∧ Blanks before ∧
      IsValue body (byteLength before) node ∧ TellsRecord settingSlots .default node settings ∧
      (∀ other, Settings.read (String.ofList (before ++ (body ++ other))) = .ok settings) ∧
      (Whole text ↔ Blanks rest ∧ WrittenAsObjects node) := by
  obtain ⟨before, body, rest, node, htext, hbefore, hnode, htells⟩ := read_eq_ok_iff.mp h
  exact ⟨before, body, rest, node, htext, hbefore, hnode, htells,
    read_of_front hbefore hnode htells,
    whole_iff htext hbefore hnode (isBracketed_of_tells htells)⟩

/-- The record is followed by more text. -/
def trailing : String := "\x7b\x7d x"

/-- The imports are written as an array. -/
def listedImports : String := "\x7b\"imports\":[\"a\"]\x7d"

theorem read_trailing : Settings.read trailing = .ok .default ∧ ¬ Whole trailing := by
  have hnode := @IsValue.emptyObject 0 [] (by decide)
  have htext : trailing.toList = [] ++ (['\x7b', '\x7d'] ++ [' ', 'x']) := rfl
  refine read_and_unwhole htext (by decide) hnode ((told_nil lawful_settingSlots).mpr rfl) ?_
  intro h
  exact absurd h.1 (by decide)

theorem read_listed :
    Settings.read "[false]" = .ok ⟨false, "root", .default⟩ ∧ ¬ Whole "[false]" := by
  have hitems := @Parts.last _ IsValue 1 [] _ [] _ (by decide) .false (by decide)
  have htext : "[false]".toList = [] ++ ("[false]".toList ++ []) := rfl
  refine read_and_unwhole htext (by decide) (.array hitems) ⟨by decide, ?_⟩ ?_
  · refine (told_cons lawful_settingSlots).mpr ⟨_, List.mem_cons_self, rfl, by decide, false, ?_⟩
    exact ⟨⟨_, rfl⟩, (told_nil lawful_settingSlots).mpr rfl⟩
  · intro h
    obtain ⟨_, members, span, hobject, _⟩ := h
    cases hobject

theorem read_listedImports :
    Settings.read listedImports = .ok ⟨true, "root", ⟨"a", Imports.default.helpers⟩⟩ ∧
      ¬ Whole listedImports := by
  have hkey := stringBody_of_all_plain "imports" (by decide)
  have hname := stringBody_of_all_plain "a" (by decide)
  have hitems := @Parts.last _ IsValue 12 [] _ [] _ (by decide) (.string hname) (by decide)
  have hmembers := @Parts.last _ (MemberText IsValue) 1 [] _ [] _ (by decide)
    (@MemberText.mk IsValue 1 _ _ [] [] _ _ hkey (by decide) (by decide) (.array hitems))
    (by decide)
  have htext : listedImports.toList = [] ++ (listedImports.toList ++ []) := rfl
  refine read_and_unwhole htext (by decide) (.object hmembers) ?_ ?_
  · have hinner : Told importSlots .default
        [⟨"superstruct", ⟨12, 15⟩, .string "a" ⟨12, 15⟩, ⟨12, 15⟩⟩]
        ⟨"a", Imports.default.helpers⟩ :=
      (told_cons lawful_importSlots).mpr ⟨_, List.mem_cons_self, rfl, by decide, "a", ⟨_, rfl⟩,
        (told_nil lawful_importSlots).mpr rfl⟩
    refine (told_cons lawful_settingSlots).mpr ⟨_, List.mem_of_getElem? (i := 2) rfl, rfl,
      by decide, (⟨"a", Imports.default.helpers⟩ : Imports), ⟨by decide, hinner⟩, ?_⟩
    exact (told_nil lawful_settingSlots).mpr rfl
  · intro h
    obtain ⟨_, members, span, hobject, himports⟩ := h
    cases hobject
    obtain ⟨_, _, himport⟩ := himports _ List.mem_cons_self rfl
    cases himport

theorem accepted_whole_trailing :
    Settings.read trailing = .ok .default ∧
      ∃ before body rest node, trailing.toList = before ++ (body ++ rest) ∧ Blanks before ∧
        IsValue body (byteLength before) node ∧ TellsRecord settingSlots .default node .default ∧
        (∀ other, Settings.read (String.ofList (before ++ (body ++ other))) = .ok .default) ∧
        (Whole trailing ↔ Blanks rest ∧ WrittenAsObjects node) :=
  ⟨read_trailing.1, accepted_whole_iff trailing .default read_trailing.1⟩

/-- **Files that hold settings and are not whole**: more text follows, the settings are an array,
    the imports are an array. -/
theorem accepted_unwhole :
    (Settings.read trailing = .ok .default ∧ ¬ Whole trailing) ∧
      (Settings.read "[false]" = .ok ⟨false, "root", .default⟩ ∧ ¬ Whole "[false]") ∧
      Settings.read listedImports = .ok ⟨true, "root", ⟨"a", Imports.default.helpers⟩⟩ ∧
        ¬ Whole listedImports :=
  ⟨read_trailing, read_listed, read_listedImports⟩

end Settings

end SchemaCompiler
