/-
  File:      SchemaCompiler/Proofs/Settings/Records.lean
  Subject:   The settings that a file holds.

  A record is told by a tree: each member of an object tells the field of its name, and a field that
  no member tells keeps its default (`Told`); the elements of an array stand for the first fields,
  in order. This is said of the tree, not of the way it is read.

  * `Gets reader tells` -- a reader takes one value off the text, and gives what its tree tells;
  * `Lawful` -- what the fields of a record have to be, to be told one by one;
  * `gets_readRecord` -- then the record is read as the tree tells it;
  * **`read_eq_ok_iff`** -- so a file holds settings iff it begins with a tree that tells them.
-/
import Mathlib.Data.List.Nodup
import SchemaCompiler.Proofs.Json.Derivations
import SchemaCompiler.Proofs.Settings.Spots

namespace SchemaCompiler

namespace Settings

open Grammar

variable {α σ : Type}

/-! ## 1. Parts after a mark -/

/-- What stands before a closing bracket: all parts, or those that are left, with a comma before
    each but the first. -/
inductive PartsAfter (rule : Production α) : Bool → List Char → Nat → List α → Prop
  | none {first : Bool} {blanks : List Char} {start : Nat} :
      Blanks blanks → PartsAfter rule first blanks start []
  | all {body : List Char} {start : Nat} {parts : List α} :
      Parts rule body start parts → PartsAfter rule true body start parts
  | rest {after body : List Char} {start : Nat} {parts : List α} :
      Blanks after → Parts rule body (start + byteLength (after ++ [','])) parts →
      PartsAfter rule false (after ++ ',' :: body) start parts

section PartsAfter

variable {rule : Production α} {first : Bool} {lead text tail body : List Char} {start : Nat}
  {a : α} {parts : List α}

theorem Lead.append {blanks : List Char} (h : Lead first lead) (hblanks : Blanks blanks) :
    Lead first (lead ++ blanks) := by
  cases h with
  | first hbefore => exact .first (List.forall_mem_append.mpr ⟨hbefore, hblanks⟩)
  | next hafter hbefore =>
    rw [List.append_assoc, List.cons_append]
    exact .next hafter (List.forall_mem_append.mpr ⟨hbefore, hblanks⟩)

theorem PartsAfter.cons (hlead : Lead first lead) (ha : rule text (start + byteLength lead) a)
    (h : PartsAfter rule false tail (start + byteLength (lead ++ text)) parts) :
    PartsAfter rule first (lead ++ (text ++ tail)) start (a :: parts) := by
  -- the parts that are left make one list with the new one, after whatever blanks
  have hparts : ∀ {before : List Char} {base : Nat}, Blanks before →
      base + byteLength before = start + byteLength lead →
      Parts rule (before ++ (text ++ tail)) base (a :: parts) := by
    intro before base hbefore hbase
    rw [← hbase] at ha
    rw [byteLength_append, ← Nat.add_assoc, ← hbase] at h
    cases h with
    | none hafter => exact .last hbefore ha hafter
    | @rest after body _ _ hafter hrest =>
      refine .more hbefore ha hafter ?_
      have e : base + byteLength before + byteLength text + byteLength (after ++ [',']) =
          base + byteLength (before ++ (text ++ (after ++ [',']))) := by
        simp only [byteLength_append]
        omega
      rwa [e] at hrest
  cases hlead with
  | first hbefore => exact .all (hparts hbefore rfl)
  | @next after before hafter hbefore =>
    rw [List.append_assoc, List.cons_append]
    refine .rest hafter (hparts hbefore ?_)
    simp only [byteLength_append, byteLength_cons, byteLength_nil]
    omega

theorem PartsAfter.of_nil (h : PartsAfter rule first body start []) : Blanks body := by
  cases h with
  | none hblanks => exact hblanks
  | all hparts => cases hparts
  | rest _ hparts => cases hparts

theorem PartsAfter.of_cons (h : PartsAfter rule first body start (a :: parts)) :
    ∃ lead text tail, body = lead ++ (text ++ tail) ∧ Lead first lead ∧
      (∃ base, rule text base a) ∧ ∃ base, PartsAfter rule false tail base parts := by
  have hparts : ∀ {body : List Char} {base : Nat}, Parts rule body base (a :: parts) →
      ∃ before text tail, body = before ++ (text ++ tail) ∧ Blanks before ∧
        (∃ base, rule text base a) ∧ ∃ base, PartsAfter rule false tail base parts := by
    intro body base hparts
    cases hparts with
    | last hbefore ha hafter => exact ⟨_, _, _, rfl, hbefore, ⟨_, ha⟩, 0, .none hafter⟩
    | @more _ before text after rest _ _ hbefore ha hafter hmore =>
      refine ⟨_, _, _, rfl, hbefore, ⟨_, ha⟩,
        base + byteLength (before ++ text), .rest hafter ?_⟩
      have e : base + byteLength (before ++ text) + byteLength (after ++ [',']) =
          base + byteLength (before ++ (text ++ (after ++ [',']))) := by
        simp only [byteLength_append]
        omega
      rwa [e]
  cases h with
  | all h =>
    obtain ⟨before, text, tail, rfl, hbefore, ha, htail⟩ := hparts h
    exact ⟨before, text, tail, rfl, .first hbefore, ha, htail⟩
  | @rest after _ _ _ hafter h =>
    obtain ⟨before, text, tail, rfl, hbefore, ha, htail⟩ := hparts h
    exact ⟨after ++ ',' :: before, text, tail, by simp, .next hafter hbefore, ha, htail⟩

theorem betweenText_iff {closing : Char} :
    BetweenText rule closing text start parts ↔
      ∃ body, text = body ++ [closing] ∧ PartsAfter rule true body start parts := by
  constructor
  · intro h
    obtain ⟨body, rfl, ⟨hblanks, rfl⟩ | hparts⟩ := h
    · exact ⟨body, rfl, .none hblanks⟩
    · exact ⟨body, rfl, .all hparts⟩
  · intro h
    obtain ⟨body, rfl, h⟩ := h
    cases h with
    | none hblanks => exact ⟨body, rfl, .inl ⟨hblanks, rfl⟩⟩
    | all hparts => exact ⟨body, rfl, .inr hparts⟩

end PartsAfter

/-! ## 2. Records and the trees that tell them -/

/-- A field of a record: its part of the record, the trees that tell it, and how it is read. -/
structure Slot (σ : Type) where
  name : String
  Value : Type
  get : σ → Value
  tells : Node → Value → Prop
  read : SpotReader Value
  set : σ → Value → σ

def Slot.field (slot : Slot σ) : Field σ := fieldOf slot.name slot.read slot.set

/-- The members tell the record: no field is told twice, and those that are not told are as they
    are in `start`. -/
structure Told (slots : List (Slot σ)) (start : σ) (members : List (Member Node)) (record : σ) :
    Prop where
  once : (members.map Member.key).Nodup
  told : ∀ m ∈ members, ∃ slot ∈ slots, slot.name = m.key ∧ slot.tells m.value (slot.get record)
  kept : ∀ slot ∈ slots, slot.name ∉ members.map Member.key → slot.get record = slot.get start

/-- The elements of an array as members under the names of the first fields. -/
def named (slots : List (Slot σ)) (items : List Node) : List (Member Node) :=
  List.zipWith (fun slot item => ⟨slot.name, item.span, item, item.span⟩) slots items

/-- The tree tells the record. -/
def TellsRecord (slots : List (Slot σ)) (start : σ) : Node → σ → Prop
  | .object members _, record => Told slots start members record
  | .array items _, record =>
    items.length ≤ slots.length ∧ Told slots start (named slots items) record
  | _, _ => False

theorem isBracketed_of_tells {slots : List (Slot σ)} {start record : σ} {node : Node}
    (h : TellsRecord slots start node record) : node.IsBracketed := by
  cases node with
  | object | array => trivial
  | string | number | boolean | null => exact h.elim

/-- The reader takes the blanks and one value off the text, and gives what the tree tells. -/
structure Gets (read : SpotReader α) (tells : Node → α → Prop) : Prop where
  sound {s : Spot} {a : α} {rest : List Char} : Takes read s a rest →
    ∃ before text, Blanks before ∧ s.rest = before ++ (text ++ rest) ∧
      ∀ start, ∃ node, IsValue text start node ∧ tells node a
  complete {s : Spot} {a : α} {before text rest : List Char} {start : Nat} {node : Node} :
    Blanks before → s.rest = before ++ (text ++ rest) → IsValue text start node → tells node a →
    Takes read s a rest

theorem Gets.complete_here {read : SpotReader α} {tells : Node → α → Prop} (h : Gets read tells)
    {s : Spot} {a : α} {text rest : List Char} {start : Nat} {node : Node}
    (hs : s.rest = text ++ rest) (hnode : IsValue text start node) (htells : tells node a) :
    Takes read s a rest := by
  have hs' : s.rest = [] ++ (text ++ rest) := hs
  exact h.complete (fun _ hc => absurd hc List.not_mem_nil) hs' hnode htells

/-- Fields that make up a record, each of its own. -/
structure Lawful (slots : List (Slot σ)) : Prop where
  names : (slots.map Slot.name).Nodup
  gets : ∀ slot ∈ slots, Gets slot.read slot.tells
  get_set : ∀ slot ∈ slots, ∀ record value, slot.get (slot.set record value) = value
  get_set_other : ∀ slot ∈ slots, ∀ other ∈ slots, other.name ≠ slot.name →
    ∀ record value, other.get (slot.set record value) = other.get record
  ext : ∀ a b, (∀ slot ∈ slots, slot.get a = slot.get b) → a = b

section Told

variable {slots : List (Slot σ)} {start record : σ} {m : Member Node} {members : List (Member Node)}

theorem Lawful.eq_of_name (h : Lawful slots) {slot other : Slot σ} (hslot : slot ∈ slots)
    (hother : other ∈ slots) (hname : slot.name = other.name) : slot = other :=
  List.inj_on_of_nodup_map h.names hslot hother hname

theorem told_nil (h : Lawful slots) : Told slots start [] record ↔ record = start := by
  constructor
  · intro htold
    exact h.ext record start fun slot hslot => htold.kept slot hslot List.not_mem_nil
  · rintro rfl
    exact ⟨List.nodup_nil, fun m hm => absurd hm List.not_mem_nil, fun _ _ _ => rfl⟩

/-- The first member sets its field; the others tell the rest. -/
theorem told_cons (h : Lawful slots) :
    Told slots start (m :: members) record ↔
      ∃ slot ∈ slots, slot.name = m.key ∧ m.key ∉ members.map Member.key ∧
        ∃ value, slot.tells m.value value ∧ Told slots (slot.set start value) members record := by
  constructor
  · intro htold
    obtain ⟨hfresh, honce⟩ := List.nodup_cons.mp htold.once
    obtain ⟨⟨slot, hslot, hname, htells⟩, hrest⟩ := List.forall_mem_cons.mp htold.told
    refine ⟨slot, hslot, hname, hfresh, slot.get record, htells, honce, hrest, ?_⟩
    intro other hother hnone
    by_cases hsame : other.name = slot.name
    · cases h.eq_of_name hother hslot hsame
      exact (h.get_set slot hslot start _).symm
    · rw [h.get_set_other slot hslot other hother hsame]
      refine htold.kept other hother fun hmem => ?_
      rcases List.mem_cons.mp hmem with heq | hmem
      · exact hsame (heq.trans hname.symm)
      · exact hnone hmem
  · intro hcons
    obtain ⟨slot, hslot, hname, hfresh, value, htells, honce, hrest, hkept⟩ := hcons
    have hvalue : slot.get record = value := by
      rw [hkept slot hslot (hname ▸ hfresh), h.get_set slot hslot]
    refine ⟨List.nodup_cons.mpr ⟨hfresh, honce⟩,
      List.forall_mem_cons.mpr ⟨⟨slot, hslot, hname, hvalue ▸ htells⟩, hrest⟩, ?_⟩
    intro other hother hnone
    obtain ⟨hother', hnone⟩ := not_or.mp (fun hmem => hnone (List.mem_cons.mpr hmem))
    rw [hkept other hother hnone]
    exact h.get_set_other slot hslot other hother (fun e => hother' (e.trans hname)) _ _

end Told

/-! ## 3. Objects -/

section Members

variable {slots left : List (Slot σ)} {format : Format σ} {first : Bool} {record record' : σ}
  {rest : List Char}

theorem field_read_eq_ok_iff {slot : Slot σ} {s s' : Spot} :
    slot.field.read record s = .ok (record', s') ↔
      ∃ value, slot.read s = .ok (value, s') ∧ record' = slot.set record value := by
  show (slot.read s >>= _) = _ ↔ _
  rw [bind_eq_ok_iff]
  constructor
  · intro h
    obtain ⟨⟨value, spot⟩, hread, h⟩ := h
    cases h
    exact ⟨value, hread, rfl⟩
  · intro h
    obtain ⟨value, hread, rfl⟩ := h
    exact ⟨_, hread, rfl⟩

theorem field?_map (key : String) :
    field? key (left.map Slot.field) =
      (left.find? fun slot => slot.name = key).map Slot.field := by
  unfold field?
  rw [List.find?_map]
  rfl

theorem otherFields_map (key : String) :
    otherFields key (left.map Slot.field) =
      (left.filter fun slot => slot.name ≠ key).map Slot.field := by
  unfold otherFields
  rw [List.filter_map]
  rfl

/-- One member more is read, or the closing brace. -/
theorem takes_readMembers {s : Spot}
    (h : Takes (readMembers format (left.map Slot.field) first record) s record' rest) :
    (record' = record ∧ ∃ blanks, Blanks blanks ∧ s.rest = blanks ++ '\x7d' :: rest) ∨
      ∃ slot ∈ left, ∃ lead body decoded before, Lead first lead ∧ StringBody body decoded ∧
        slot.name = String.ofList decoded ∧ Blanks before ∧ ∃ s₁ : Spot,
          s.rest = lead ++ '"' :: (body ++ '"' :: (before ++ ':' :: s₁.rest)) ∧
          ∃ value s₂, slot.read s₁ = .ok (value, s₂) ∧
            Takes (readMembers format ((left.filter fun other => other.name ≠ slot.name).map
              Slot.field) false (slot.set record value)) s₂ record' rest := by
  obtain ⟨place, h⟩ := h
  rw [readMembers] at h
  obtain ⟨⟨key, s'⟩, hkey, h⟩ := bind_eq_ok_iff.mp h
  rw [mapError_eq_ok_iff] at hkey
  cases key with
  | none =>
    cases h
    exact .inl ⟨rfl, takes_readKey_none.mp ⟨place, hkey⟩⟩
  | some key =>
    obtain ⟨lead, body, decoded, hlead, hs, hbody, rfl⟩ := takes_readKey_some.mp (takes_of_eq hkey)
    simp only at h
    split at h
    · cases h
    · rename_i field hfield
      rw [field?_map, Option.map_eq_some_iff] at hfield
      obtain ⟨slot, hslot, rfl⟩ := hfield
      have hname : slot.name = String.ofList decoded := by simpa using List.find?_some hslot
      obtain ⟨s₁, hcolon, h⟩ := bind_eq_ok_iff.mp h
      obtain ⟨before, hbefore, hs'⟩ := readColon_eq_ok_iff.mp ⟨s₁.place, hcolon⟩
      obtain ⟨⟨record₁, s₂⟩, hfield, h⟩ := bind_eq_ok_iff.mp h
      rw [mapError_eq_ok_iff] at hfield
      obtain ⟨value, hread, rfl⟩ := field_read_eq_ok_iff.mp hfield
      refine .inr ⟨slot, List.mem_of_find?_eq_some hslot, lead, body, decoded, before, hlead, hbody,
        hname, hbefore, s₁, hs' ▸ hs, value, s₂, hread, place, ?_⟩
      rw [← otherFields_map, hname]
      exact h

/-- The same way back: the slot is told apart by its name. -/
theorem readMembers_takes {s : Spot} (hlawful : Lawful slots) (hleft : ∀ slot ∈ left, slot ∈ slots)
    {slot : Slot σ} (hslot : slot ∈ left) (value : slot.Value)
    {lead body decoded before : List Char} (hlead : Lead first lead)
    (hbody : StringBody body decoded) (hname : slot.name = String.ofList decoded)
    (hbefore : Blanks before) (tail tail' : List Char)
    (hs : s.rest = lead ++ '"' :: (body ++ '"' :: (before ++ ':' :: tail)))
    (hread : ∀ s₁ : Spot, s₁.rest = tail → Takes slot.read s₁ value tail')
    (h : ∀ s₂ : Spot, s₂.rest = tail' →
      Takes (readMembers format ((left.filter fun other => other.name ≠ slot.name).map Slot.field)
        false (slot.set record value)) s₂ record' rest) :
    Takes (readMembers format (left.map Slot.field) first record) s record' rest := by
  obtain ⟨place, hkey⟩ := takes_readKey_some.mpr ⟨lead, body, decoded, hlead, hs, hbody, rfl⟩
  obtain ⟨place₁, hcolon⟩ :=
    (readColon_eq_ok_iff (s := ⟨before ++ ':' :: tail, place⟩)).mpr ⟨before, hbefore, rfl⟩
  obtain ⟨place₂, hvalue⟩ := hread ⟨tail, place₁⟩ rfl
  obtain ⟨place₃, hrest⟩ := h ⟨tail', place₂⟩ rfl
  have hfind : left.find? (fun other => other.name = String.ofList decoded) = some slot := by
    cases hfound : left.find? (fun other => other.name = String.ofList decoded) with
    | none => exact absurd hname (by simpa using List.find?_eq_none.mp hfound slot hslot)
    | some other =>
      have hother : other.name = String.ofList decoded := by simpa using List.find?_some hfound
      have hmem := hleft other (List.mem_of_find?_eq_some hfound)
      rw [hlawful.eq_of_name hmem (hleft slot hslot) (hother.trans hname.symm)]
  refine ⟨place₃, ?_⟩
  rw [readMembers]
  refine bind_eq_ok_iff.mpr ⟨_, mapError_eq_ok_iff.mpr hkey, ?_⟩
  simp only
  split
  · rename_i hnone
    rw [field?_map, hfind] at hnone
    cases hnone
  · rename_i field hfield
    rw [field?_map, hfind] at hfield
    cases hfield
    refine bind_eq_ok_iff.mpr ⟨_, hcolon, bind_eq_ok_iff.mpr ⟨_, mapError_eq_ok_iff.mpr
      (field_read_eq_ok_iff.mpr ⟨value, hvalue, rfl⟩), ?_⟩⟩
    rw [otherFields_map, ← hname]
    exact hrest

theorem members_of_readMembers (hlawful : Lawful slots) (hleft : ∀ slot ∈ left, slot ∈ slots)
    {s : Spot} (h : Takes (readMembers format (left.map Slot.field) first record) s record' rest) :
    ∃ body, s.rest = body ++ '\x7d' :: rest ∧ ∀ start, ∃ members,
      PartsAfter (MemberText IsValue) first body start members ∧
        Told slots record members record' ∧ ∀ m ∈ members, ∃ slot ∈ left, slot.name = m.key := by
  -- on the fields that are left: each member takes one away
  induction hn : left.length using Nat.strongRecOn generalizing left first record s with
  | ind n ih =>
    rcases takes_readMembers h with ⟨rfl, blanks, hblanks, hs⟩ | hmore
    · refine ⟨blanks, hs, fun start => ⟨[], .none hblanks, (told_nil hlawful).mpr rfl, ?_⟩⟩
      exact fun m hm => absurd hm List.not_mem_nil
    · obtain ⟨slot, hslot, lead, key, decoded, before, hlead, hkey, hname, hbefore, s₁, hs, value,
        s₂, hread, hrest⟩ := hmore
      have hfewer : (left.filter fun other => other.name ≠ slot.name).length < n := by
        rw [← hn]
        exact List.length_filter_lt_length_iff_exists.mpr ⟨slot, hslot, by simp⟩
      obtain ⟨body, hs₂, hbody⟩ :=
        ih _ hfewer (fun other hother => hleft other (List.mem_of_mem_filter hother)) hrest rfl
      obtain ⟨after, text, hafter, hs₁, htext⟩ :=
        (hlawful.gets slot (hleft slot hslot)).sound (takes_of_eq hread)
      refine ⟨lead ++ ('"' :: (key ++ '"' :: (before ++ ':' :: (after ++ text))) ++ body), ?_,
        fun start => ?_⟩
      · rw [hs, hs₁, hs₂]
        simp
      · obtain ⟨node, hnode, htells⟩ := htext (start + byteLength lead +
          byteLength ('"' :: (key ++ '"' :: (before ++ ':' :: after))))
        have hmember := MemberText.mk hkey hbefore hafter hnode
        obtain ⟨members, hmembers, htold, hnames⟩ := hbody (start +
          byteLength (lead ++ '"' :: (key ++ '"' :: (before ++ ':' :: (after ++ text)))))
        refine ⟨_, .cons hlead hmember hmembers, ?_, ?_⟩
        · refine (told_cons hlawful).mpr
            ⟨slot, hleft slot hslot, hname, fun hmem => ?_, value, htells, htold⟩
          obtain ⟨m, hm, hsame⟩ := List.mem_map.mp hmem
          obtain ⟨other, hother, hotherName⟩ := hnames m hm
          have hne := (List.mem_filter.mp hother).2
          rw [hotherName, hsame, hname] at hne
          simp at hne
        · refine List.forall_mem_cons.mpr ⟨⟨slot, hslot, hname⟩, fun m hm => ?_⟩
          obtain ⟨other, hother, hotherName⟩ := hnames m hm
          exact ⟨other, List.mem_of_mem_filter hother, hotherName⟩

theorem readMembers_of_members (hlawful : Lawful slots) (hleft : ∀ slot ∈ left, slot ∈ slots)
    {members : List (Member Node)} {body : List Char} {start : Nat}
    (h : PartsAfter (MemberText IsValue) first body start members)
    (htold : Told slots record members record')
    (hnames : ∀ m ∈ members, ∃ slot ∈ left, slot.name = m.key) {s : Spot}
    (hs : s.rest = body ++ '\x7d' :: rest) :
    Takes (readMembers format (left.map Slot.field) first record) s record' rest := by
  induction members generalizing left first record body start s with
  | nil =>
    cases (told_nil hlawful).mp htold
    obtain ⟨place, hkey⟩ := takes_readKey_none.mpr ⟨body, h.of_nil, hs⟩
    refine ⟨place, ?_⟩
    rw [readMembers]
    exact bind_eq_ok_iff.mpr ⟨_, mapError_eq_ok_iff.mpr hkey, rfl⟩
  | cons m members ih =>
    obtain ⟨lead, text, tail, rfl, hlead, ⟨base, hmember⟩, base', htail⟩ := h.of_cons
    obtain ⟨slot, hslot, hname, hfresh, value, htells, hrest⟩ := (told_cons hlawful).mp htold
    obtain ⟨⟨other, hother, hotherName⟩, hothers⟩ := List.forall_mem_cons.mp hnames
    cases hlawful.eq_of_name (hleft other hother) hslot (hotherName.trans hname.symm)
    obtain @⟨_, key, decoded, before, after, text, node, hkey, hbefore, hafter, hnode⟩ := hmember
    refine readMembers_takes hlawful hleft hother value hlead hkey hname hbefore
      (after ++ (text ++ (tail ++ '\x7d' :: rest))) (tail ++ '\x7d' :: rest) ?_
      (fun s₁ hs₁ => ?_) fun s₂ hs₂ => ?_
    · rw [hs]
      simp
    · exact (hlawful.gets slot hslot).complete hafter hs₁ hnode htells
    · refine ih (fun slot hslot => hleft slot (List.mem_of_mem_filter hslot)) htail hrest
        (fun m hm => ?_) hs₂
      obtain ⟨other, hmem, hotherName⟩ := hothers m hm
      refine ⟨other, List.mem_filter.mpr ⟨hmem, decide_eq_true fun hsame => hfresh ?_⟩, hotherName⟩
      rw [← hname, ← hsame, hotherName]
      exact List.mem_map_of_mem hm

end Members

/-! ## 4. Arrays -/

section Elements

variable {slots left : List (Slot σ)} {record record' : σ} {rest : List Char} {index : Nat}

theorem key_mem_of_named {items : List Node} {key : String}
    (h : key ∈ (named left items).map Member.key) : key ∈ left.map Slot.name := by
  induction left generalizing items with
  | nil => exact h
  | cons slot left ih =>
    cases items with
    | nil => exact absurd h List.not_mem_nil
    | cons item items =>
      rcases List.mem_cons.mp h with rfl | h
      · exact List.mem_cons_self
      · exact List.mem_cons_of_mem _ (ih h)

theorem takes_listEnd {s : Spot} :
    Takes (fun s => do
      let s ← readListEnd s
      .ok (record, s)) s record' rest ↔
      record' = record ∧ ∃ blanks, Blanks blanks ∧ s.rest = blanks ++ ']' :: rest := by
  rw [← readListEnd_eq_ok_iff]
  constructor
  · intro h
    obtain ⟨place, h⟩ := h
    obtain ⟨s', hend, h⟩ := bind_eq_ok_iff.mp h
    cases h
    exact ⟨rfl, place, hend⟩
  · intro h
    obtain ⟨rfl, place, hend⟩ := h
    exact ⟨place, bind_eq_ok_iff.mpr ⟨_, hend, rfl⟩⟩

/-- One element more is read, or the closing bracket. -/
theorem takes_readElements_cons {s : Spot} {slot : Slot σ}
    (h : Takes (readElements index ((slot :: left).map Slot.field) record) s record' rest) :
    (record' = record ∧ ∃ blanks, Blanks blanks ∧ s.rest = blanks ++ ']' :: rest) ∨
      ∃ lead s₁ value s₂, Lead (index = 0) lead ∧ s.rest = lead ++ Spot.rest s₁ ∧
        slot.read s₁ = .ok (value, s₂) ∧
        Takes (readElements (index + 1) (left.map Slot.field) (slot.set record value)) s₂ record'
          rest := by
  obtain ⟨place, h⟩ := h
  rw [List.map_cons, readElements] at h
  obtain ⟨⟨more, s₁⟩, helement, h⟩ := bind_eq_ok_iff.mp h
  cases more with
  | true =>
    obtain ⟨_, _, _, _, _, lead, hlead, hs⟩ := takes_hasElement_true.mp (takes_of_eq helement)
    obtain ⟨⟨record₁, s₂⟩, hfield, h⟩ := bind_eq_ok_iff.mp h
    rw [mapError_eq_ok_iff] at hfield
    obtain ⟨value, hread, rfl⟩ := field_read_eq_ok_iff.mp hfield
    exact .inr ⟨lead, s₁, value, s₂, hlead, hs, hread, place, h⟩
  | false =>
    obtain ⟨_, _, blanks, hblanks, hs⟩ := takes_hasElement_false.mp (takes_of_eq helement)
    obtain ⟨rfl, blanks', hblanks', hs₁⟩ := takes_listEnd.mp ⟨place, h⟩
    refine .inl ⟨rfl, blanks ++ blanks', List.forall_mem_append.mpr ⟨hblanks, hblanks'⟩, ?_⟩
    rw [hs, hs₁, List.append_assoc]

/-- The elements tell the fields that are left, in order. -/
theorem elements_of_readElements (hlawful : Lawful slots) (hleft : ∀ slot ∈ left, slot ∈ slots)
    (hnames : (left.map Slot.name).Nodup) {s : Spot}
    (h : Takes (readElements index (left.map Slot.field) record) s record' rest) :
    ∃ body, s.rest = body ++ ']' :: rest ∧ ∀ start, ∃ items : List Node,
      PartsAfter IsValue (index = 0) body start items ∧ items.length ≤ left.length ∧
        Told slots record (named left items) record' := by
  induction left generalizing index record s with
  | nil =>
    obtain ⟨rfl, blanks, hblanks, hs⟩ := takes_listEnd.mp h
    exact ⟨blanks, hs, fun start => ⟨[], .none hblanks, Nat.le_refl _, (told_nil hlawful).mpr rfl⟩⟩
  | cons slot left ih =>
    obtain ⟨hslot, hleft'⟩ := List.forall_mem_cons.mp hleft
    obtain ⟨hfresh, hnames'⟩ := List.nodup_cons.mp hnames
    rcases takes_readElements_cons h with
      ⟨rfl, blanks, hblanks, hs⟩ | ⟨lead, s₁, value, s₂, hlead, hs, hread, hrest⟩
    · exact ⟨blanks, hs, fun start =>
        ⟨[], .none hblanks, Nat.zero_le _, (told_nil hlawful).mpr rfl⟩⟩
    · obtain ⟨body, hs₂, hbody⟩ := ih hleft' hnames' hrest
      obtain ⟨before, text, hbefore, hs₁, htext⟩ :=
        (hlawful.gets slot hslot).sound (takes_of_eq hread)
      refine ⟨lead ++ before ++ (text ++ body), ?_, fun start => ?_⟩
      · rw [hs, hs₁, hs₂]
        simp
      · obtain ⟨node, hnode, htells⟩ := htext (start + byteLength (lead ++ before))
        obtain ⟨items, hitems, hlength, htold⟩ :=
          hbody (start + byteLength (lead ++ before ++ text))
        refine ⟨node :: items, .cons (hlead.append hbefore) hnode hitems,
          Nat.succ_le_succ hlength, ?_⟩
        refine (told_cons hlawful).mpr ⟨slot, hslot, rfl, ?_, value, htells, htold⟩
        exact fun hmem => hfresh (key_mem_of_named hmem)

theorem readElements_of_elements (hlawful : Lawful slots) (hleft : ∀ slot ∈ left, slot ∈ slots)
    {items : List Node} {body : List Char} {start : Nat}
    (h : PartsAfter IsValue (index = 0) body start items) (hlength : items.length ≤ left.length)
    (htold : Told slots record (named left items) record') {s : Spot}
    (hs : s.rest = body ++ ']' :: rest) :
    Takes (readElements index (left.map Slot.field) record) s record' rest := by
  induction left generalizing index record items body start s with
  | nil =>
    cases List.length_eq_zero_iff.mp (Nat.le_zero.mp hlength)
    exact takes_listEnd.mpr ⟨(told_nil hlawful).mp htold, body, h.of_nil, hs⟩
  | cons slot left ih =>
    obtain ⟨hslot, hleft'⟩ := List.forall_mem_cons.mp hleft
    cases items with
    | nil =>
      obtain ⟨place, helement⟩ := takes_hasElement_false.mpr ⟨rest, rfl, body, h.of_nil, hs⟩
      obtain ⟨place', hend⟩ := (takes_listEnd (s := ⟨']' :: rest, place⟩)).mpr
        ⟨(told_nil hlawful).mp htold, [], fun _ hc => absurd hc List.not_mem_nil, rfl⟩
      refine ⟨place', ?_⟩
      rw [List.map_cons, readElements]
      exact bind_eq_ok_iff.mpr ⟨_, helement, hend⟩
    | cons item items =>
      obtain ⟨lead, text, tail, rfl, hlead, ⟨base, hitem⟩, base', htail⟩ := h.of_cons
      obtain ⟨other, hother, hname, -, value, htells, hrest⟩ := (told_cons hlawful).mp htold
      cases hlawful.eq_of_name hother hslot hname
      obtain ⟨c, text', rfl, hblank, hc⟩ := begins_isValue _ _ _ hitem
      obtain ⟨place, helement⟩ := takes_hasElement_true.mpr
        ⟨c, text' ++ (tail ++ ']' :: rest), rfl, hblank, hc, lead, hlead, by rw [hs]; simp⟩
      obtain ⟨place₁, hvalue⟩ := (hlawful.gets slot hslot).complete_here
        (s := ⟨c :: (text' ++ (tail ++ ']' :: rest)), place⟩) rfl hitem htells
      have hnext : PartsAfter IsValue (index + 1 = 0) tail base' items := htail
      obtain ⟨place₂, hmore⟩ := ih hleft' hnext (Nat.le_of_succ_le_succ hlength) hrest
        (s := ⟨tail ++ ']' :: rest, place₁⟩) rfl
      refine ⟨place₂, ?_⟩
      rw [List.map_cons, readElements]
      exact bind_eq_ok_iff.mpr ⟨_, helement, bind_eq_ok_iff.mpr ⟨_, mapError_eq_ok_iff.mpr
        (field_read_eq_ok_iff.mpr ⟨value, hvalue, rfl⟩), hmore⟩⟩

end Elements

/-! ## 5. Records -/

/-- **A record is read as the tree tells it.** -/
theorem gets_readRecord {slots : List (Slot σ)} (hlawful : Lawful slots) {format : Format σ}
    (hfields : format.fields = slots.map Slot.field) (start : σ) :
    Gets (readRecord format start) (TellsRecord slots start) where
  sound := by
    intro s record rest h
    obtain ⟨before, hbefore, hs⟩ := s.skipBlanks_sound
    obtain ⟨place, h⟩ := h
    simp only [readRecord, hfields] at h
    split at h
    · rename_i tail htail
      obtain ⟨body, hbody, hitems⟩ :=
        elements_of_readElements hlawful (fun _ h => h) hlawful.names ⟨place, h⟩
      rw [s.skipBlanks.advance_one htail] at hbody
      refine ⟨before, '[' :: (body ++ [']']), hbefore, ?_, fun base => ?_⟩
      · rw [hs, htail, hbody]
        simp
      · obtain ⟨items, hparts, hlength, htold⟩ := hitems (base + 1)
        exact ⟨_, .of_items (betweenText_iff.mpr ⟨body, rfl, hparts⟩), hlength, htold⟩
    · rename_i tail htail
      obtain ⟨body, hbody, hmembers⟩ := members_of_readMembers hlawful (fun _ h => h) ⟨place, h⟩
      rw [s.skipBlanks.advance_one htail] at hbody
      refine ⟨before, '\x7b' :: (body ++ ['\x7d']), hbefore, ?_, fun base => ?_⟩
      · rw [hs, htail, hbody]
        simp
      · obtain ⟨members, hparts, htold, -⟩ := hmembers (base + 1)
        exact ⟨_, .of_members (betweenText_iff.mpr ⟨body, rfl, hparts⟩), htold⟩
    · obtain ⟨_, _, hnone⟩ := takes_readAs.mp ⟨place, h⟩
      cases hnone
  complete := by
    intro s record before text rest base node hbefore hs hnode htells
    cases node with
    | object members span =>
      obtain ⟨inner, rfl, hinner⟩ := hnode.members
      obtain ⟨body, rfl, hparts⟩ := betweenText_iff.mp hinner
      have hskip := s.skipBlanks_complete hs hbefore (stops_cons.mpr (by decide))
      have hrest : (s.skipBlanks.advance 1).rest = body ++ '\x7d' :: rest := by
        rw [s.skipBlanks.advance_one hskip]
        simp
      have hnames : ∀ m ∈ members, ∃ slot ∈ slots, slot.name = m.key := by
        intro m hm
        obtain ⟨slot, hslot, hname, -⟩ := htells.told m hm
        exact ⟨slot, hslot, hname⟩
      obtain ⟨place, hread⟩ :=
        readMembers_of_members hlawful (fun _ h => h) hparts htells hnames hrest
      refine ⟨place, ?_⟩
      simp only [readRecord, hskip, hfields]
      exact hread
    | array items span =>
      obtain ⟨inner, rfl, hinner⟩ := hnode.items
      obtain ⟨body, rfl, hparts⟩ := betweenText_iff.mp hinner
      have hskip := s.skipBlanks_complete hs hbefore (stops_cons.mpr (by decide))
      have hrest : (s.skipBlanks.advance 1).rest = body ++ ']' :: rest := by
        rw [s.skipBlanks.advance_one hskip]
        simp
      have hall : PartsAfter IsValue (0 = 0) body (base + 1) items := hparts
      obtain ⟨place, hread⟩ :=
        readElements_of_elements hlawful (fun _ h => h) hall htells.1 htells.2 hrest
      refine ⟨place, ?_⟩
      simp only [readRecord, hskip, hfields]
      exact hread
    | string | number | boolean | null => exact htells.elim

/-! ## 6. Settings -/

def TellsBoolean (node : Node) (b : Bool) : Prop := ∃ span, node = .boolean b span

theorem gets_readBoolean : Gets readBoolean TellsBoolean where
  sound := by
    intro s b rest h
    obtain ⟨before, hbefore, hs⟩ := takes_readBoolean.mp h
    refine ⟨before, (boolWord b).name.toList, hbefore, hs, fun start => ?_⟩
    cases b with
    | true => exact ⟨_, .true, _, rfl⟩
    | false => exact ⟨_, .false, _, rfl⟩
  complete := by
    intro s b before text rest start node hbefore hs hnode htells
    obtain ⟨span, rfl⟩ := htells
    refine takes_readBoolean.mpr ⟨before, hbefore, ?_⟩
    cases hnode with
    | true => exact hs
    | false => exact hs

theorem gets_readText : Gets readText Node.IsText where
  sound := by
    intro s text rest h
    obtain ⟨before, body, decoded, hbefore, hs, hbody, rfl⟩ := takes_readText.mp h
    refine ⟨before, '"' :: (body ++ ['"']), hbefore, ?_, fun start => ⟨_, .string hbody, _, rfl⟩⟩
    rw [hs]
    simp
  complete := by
    intro s text before source rest start node hbefore hs hnode htells
    obtain ⟨span, rfl⟩ := htells
    cases hnode with
    | @string _ body decoded hbody =>
      refine takes_readText.mpr ⟨before, body, decoded, hbefore, ?_, hbody, rfl⟩
      rw [hs]
      simp

/-- The fields of the module names. -/
def importSlots : List (Slot Imports) :=
  [⟨"superstruct", String, Imports.combinators, Node.IsText, readText,
      fun imports source => { imports with combinators := source }⟩,
   ⟨"std", String, Imports.helpers, Node.IsText, readText,
      fun imports source => { imports with helpers := source }⟩]

/-- The fields of the settings. -/
def settingSlots : List (Slot Settings) :=
  [⟨"optimize", Bool, Settings.optimize, TellsBoolean, readBoolean,
      fun settings b => { settings with optimize := b }⟩,
   ⟨"rootName", String, Settings.rootName, Node.IsText, readText,
      fun settings name => { settings with rootName := name }⟩,
   ⟨"imports", Imports, Settings.imports, TellsRecord importSlots .default,
      readRecord importsFormat .default,
      fun settings imports => { settings with imports := imports }⟩]

theorem lawful_importSlots : Lawful importSlots where
  names := by decide
  gets := by
    simp only [importSlots, List.forall_mem_cons]
    exact ⟨gets_readText, gets_readText, fun _ h => absurd h List.not_mem_nil⟩
  get_set := by simp [importSlots]
  get_set_other := by simp [importSlots]
  ext := by
    rintro ⟨_, _⟩ ⟨_, _⟩ h
    simpa [importSlots] using h

theorem lawful_settingSlots : Lawful settingSlots where
  names := by decide
  gets := by
    simp only [settingSlots, List.forall_mem_cons]
    exact ⟨gets_readBoolean, gets_readText, gets_readRecord lawful_importSlots rfl _,
      fun _ h => absurd h List.not_mem_nil⟩
  get_set := by simp [settingSlots]
  get_set_other := by simp [settingSlots]
  ext := by
    rintro ⟨_, _, _⟩ ⟨_, _, _⟩ h
    simpa [settingSlots] using h

/-- The text begins with a tree that tells the settings; what follows is of no matter. -/
def Holds (text : String) (settings : Settings) : Prop :=
  ∃ before body rest node, text.toList = before ++ (body ++ rest) ∧ Blanks before ∧
    IsValue body (byteLength before) node ∧ TellsRecord settingSlots .default node settings

/-- **A file holds settings iff it begins with a tree that tells them.** -/
theorem read_eq_ok_iff {text : String} {settings : Settings} :
    Settings.read text = .ok settings ↔ Holds text settings := by
  have hgets : Gets (readRecord format .default) (TellsRecord settingSlots .default) :=
    gets_readRecord lawful_settingSlots rfl .default
  unfold Settings.read Holds
  constructor
  · intro h
    cases hread : readRecord format .default ⟨text.toList, .origin⟩ with
    | error e =>
      rw [hread] at h
      cases h
    | ok taken =>
      rw [hread] at h
      cases h
      obtain ⟨before, body, hbefore, hs, hbody⟩ := hgets.sound (takes_of_eq hread)
      obtain ⟨node, hnode, htells⟩ := hbody (byteLength before)
      exact ⟨before, body, _, node, hs, hbefore, hnode, htells⟩
  · intro h
    obtain ⟨before, body, rest, node, hs, hbefore, hnode, htells⟩ := h
    obtain ⟨place, hread⟩ := hgets.complete (s := ⟨text.toList, .origin⟩) hbefore hs hnode htells
    rw [hread]
    rfl

end Settings

end SchemaCompiler
