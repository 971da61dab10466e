/-
  File:      SchemaCompiler/Proofs/Json/Entries.lean
  Subject:   What a keyed list holds after putting pairs into it.

  Putting a pair keeps the keys of a list distinct and replaces exactly the pair of that key
  (`mem_putEntry`). So collecting pairs of which no two disagree about a key loses none of them
  (`mem_collectEntries`): a repeated key does no harm as long as it brings the same value. Pairs
  with distinct keys are collected as they stand (`DistinctKeys.collectEntries_eq`). In any case a
  key stands where it first came (`listsFirst_distinct`) with the value that came last
  (`mem_collectEntries_iff_last`).
-/
import Mathlib.Data.List.Induction
import Mathlib.Data.List.Nodup
import SchemaCompiler.Json.Entries

namespace SchemaCompiler

variable {α : Type}

/-- No key stands twice. -/
def DistinctKeys (entries : List (String × α)) : Prop := (entries.map Prod.fst).Nodup

/-- Pairs with the same key are the same pair. -/
def KeysAgree (pairs : List (String × α)) : Prop :=
  ∀ p ∈ pairs, ∀ q ∈ pairs, p.1 = q.1 → p = q

theorem DistinctKeys.keysAgree {pairs : List (String × α)} (h : DistinctKeys pairs) :
    KeysAgree pairs := by
  intro p hp q hq hkey
  exact List.inj_on_of_nodup_map h hp hq hkey

theorem keysAgree_map_const (keys : List String) (a : α) :
    KeysAgree (keys.map fun key => (key, a)) := by
  intro p hp q hq hkey
  obtain ⟨k, -, rfl⟩ := List.mem_map.mp hp
  obtain ⟨l, -, rfl⟩ := List.mem_map.mp hq
  exact Prod.ext hkey rfl

theorem KeysAgree.append {left right : List (String × α)} (hleft : KeysAgree left)
    (hright : KeysAgree right) (hapart : ∀ p ∈ left, ∀ q ∈ right, p.1 ≠ q.1) :
    KeysAgree (left ++ right) := by
  intro p hp q hq hkey
  rcases List.mem_append.mp hp with hp | hp <;> rcases List.mem_append.mp hq with hq | hq
  · exact hleft p hp q hq hkey
  · exact absurd hkey (hapart p hp q hq)
  · exact absurd hkey.symm (hapart q hq p hp)
  · exact hright p hp q hq hkey

/-! ## 1. One pair -/

theorem key_mem_putEntry {key : String} {value : α} {entries : List (String × α)} {k : String} :
    k ∈ (putEntry key value entries).map Prod.fst ↔ k = key ∨ k ∈ entries.map Prod.fst := by
  induction entries with
  | nil => simp only [putEntry, List.map_cons, List.map_nil, List.mem_cons]
  | cons entry rest ih =>
    by_cases hkey : entry.1 = key
    · rw [putEntry, if_pos hkey, List.map_cons, List.map_cons, List.mem_cons, hkey]
      exact ⟨fun h => Or.inr h, fun h => h.elim Or.inl id⟩
    · rw [putEntry, if_neg hkey, List.map_cons, List.map_cons, List.mem_cons, List.mem_cons, ih]
      exact or_left_comm

theorem DistinctKeys.putEntry {key : String} {value : α} {entries : List (String × α)}
    (h : DistinctKeys entries) : DistinctKeys (putEntry key value entries) := by
  induction entries with
  | nil => exact List.nodup_singleton key
  | cons entry rest ih =>
    obtain ⟨hnew, hrest⟩ := List.nodup_cons.mp h
    by_cases hkey : entry.1 = key
    · rw [SchemaCompiler.putEntry, if_pos hkey]
      exact List.nodup_cons.mpr ⟨hnew, hrest⟩
    · rw [SchemaCompiler.putEntry, if_neg hkey]
      refine List.nodup_cons.mpr ⟨?_, ih hrest⟩
      intro hmem
      exact (key_mem_putEntry.mp hmem).elim hkey hnew

/-- **Putting a pair replaces exactly the pair of its key.** -/
theorem mem_putEntry {key : String} {value : α} {entries : List (String × α)}
    (h : DistinctKeys entries) {p : String × α} :
    p ∈ putEntry key value entries ↔ p = (key, value) ∨ p ∈ entries ∧ p.1 ≠ key := by
  induction entries with
  | nil => simp only [putEntry, List.mem_cons, List.not_mem_nil, false_and]
  | cons entry rest ih =>
    obtain ⟨hnew, hrest⟩ := List.nodup_cons.mp h
    by_cases hkey : entry.1 = key
    · -- The other pairs keep their place: none of them has the key.
      have hothers : p ∈ rest → p.1 ≠ key := by
        intro hp e
        exact hnew (hkey ▸ e ▸ List.mem_map_of_mem hp)
      rw [putEntry, if_pos hkey, List.mem_cons, List.mem_cons, hkey]
      constructor
      · intro hcases
        rcases hcases with rfl | hp
        · exact Or.inl rfl
        · exact Or.inr ⟨Or.inr hp, hothers hp⟩
      · intro hcases
        rcases hcases with rfl | ⟨rfl | hp, hne⟩
        · exact Or.inl rfl
        · exact absurd hkey hne
        · exact Or.inr hp
    · rw [putEntry, if_neg hkey, List.mem_cons, List.mem_cons, ih hrest]
      constructor
      · intro hcases
        rcases hcases with rfl | rfl | ⟨hp, hne⟩
        · exact Or.inr ⟨Or.inl rfl, hkey⟩
        · exact Or.inl rfl
        · exact Or.inr ⟨Or.inr hp, hne⟩
      · intro hcases
        rcases hcases with rfl | ⟨rfl | hp, hne⟩
        · exact Or.inr (Or.inl rfl)
        · exact Or.inl rfl
        · exact Or.inr (Or.inr ⟨hp, hne⟩)

/-! ## 2. Many pairs -/

theorem collectEntries_concat (pairs : List (String × α)) (p : String × α) :
    collectEntries (pairs ++ [p]) = putEntry p.1 p.2 (collectEntries pairs) := by
  rw [collectEntries, List.foldl_append]
  rfl

theorem distinctKeys_collectEntries (pairs : List (String × α)) :
    DistinctKeys (collectEntries pairs) := by
  induction pairs using List.reverseRecOn with
  | nil => exact List.nodup_nil
  | append_singleton pairs p ih =>
    rw [collectEntries_concat]
    exact ih.putEntry

/-- **Collecting pairs that agree on their keys keeps all of them, and adds none.** -/
theorem mem_collectEntries {pairs : List (String × α)} (agree : KeysAgree pairs)
    {p : String × α} : p ∈ collectEntries pairs ↔ p ∈ pairs := by
  induction pairs using List.reverseRecOn with
  | nil => exact Iff.rfl
  | append_singleton pairs q ih =>
    have hpairs : KeysAgree pairs := fun a ha b hb =>
      agree a (List.mem_append_left _ ha) b (List.mem_append_left _ hb)
    have hq : q ∈ pairs ++ [q] := List.mem_append_right _ (List.mem_singleton_self q)
    rw [collectEntries_concat, mem_putEntry (distinctKeys_collectEntries pairs), ih hpairs,
      List.mem_append, List.mem_singleton]
    constructor
    · intro h
      rcases h with rfl | ⟨hp, -⟩
      · exact Or.inr rfl
      · exact Or.inl hp
    · intro h
      rcases h with hp | rfl
      · by_cases hkey : p.1 = q.1
        · exact Or.inl (agree p (List.mem_append_left _ hp) q hq hkey)
        · exact Or.inr ⟨hp, hkey⟩
      · exact Or.inl rfl

/-- Collecting pairs makes none up. -/
theorem of_mem_collectEntries {pairs : List (String × α)} {p : String × α}
    (h : p ∈ collectEntries pairs) : p ∈ pairs := by
  induction pairs using List.reverseRecOn with
  | nil => exact h
  | append_singleton pairs q ih =>
    rw [collectEntries_concat, mem_putEntry (distinctKeys_collectEntries pairs)] at h
    rcases h with rfl | ⟨hp, -⟩
    · exact List.mem_append_right _ (List.mem_singleton_self _)
    · exact List.mem_append_left _ (ih hp)

theorem putEntry_of_not_mem {key : String} {value : α} {entries : List (String × α)}
    (h : key ∉ entries.map Prod.fst) : putEntry key value entries = entries ++ [(key, value)] := by
  induction entries with
  | nil => rfl
  | cons entry rest ih =>
    rw [List.map_cons, List.mem_cons, not_or] at h
    rw [putEntry, if_neg fun e => h.1 e.symm, ih h.2, List.cons_append]

/-- **Pairs with distinct keys are collected as they stand**, in their order. -/
theorem DistinctKeys.collectEntries_eq {pairs : List (String × α)} (h : DistinctKeys pairs) :
    collectEntries pairs = pairs := by
  induction pairs using List.reverseRecOn with
  | nil => rfl
  | append_singleton pairs p ih =>
    rw [DistinctKeys, List.map_append, List.nodup_append] at h
    obtain ⟨hpairs, -, hnew⟩ := h
    have hlast : p.1 ∉ pairs.map Prod.fst := by
      intro hmem
      exact hnew p.1 hmem p.1 (List.mem_singleton_self p.1) rfl
    rw [collectEntries_concat, ih hpairs, putEntry_of_not_mem hlast]

theorem mem_distinct {names : List String} {name : String} :
    name ∈ distinct names ↔ name ∈ names := by
  simp only [distinct, List.mem_map, mem_collectEntries (keysAgree_map_const names ()),
    exists_exists_and_eq_and, exists_eq_right]

/-! ## 3. First places and last values -/

/-- The names of a list, each once, in the order in which they first come. -/
structure ListsFirst (names listed : List String) : Prop where
  once : listed.Nodup
  same : ∀ name, name ∈ listed ↔ name ∈ names
  order : listed.Pairwise fun a b => names.idxOf a < names.idxOf b

theorem keys_putEntry (key : String) (value : α) (entries : List (String × α)) :
    (putEntry key value entries).map Prod.fst =
      if key ∈ entries.map Prod.fst then entries.map Prod.fst
      else entries.map Prod.fst ++ [key] := by
  induction entries with
  | nil => rfl
  | cons entry rest ih =>
    by_cases hkey : entry.1 = key
    · have hmem : key ∈ (entry :: rest).map Prod.fst := List.mem_cons.mpr (Or.inl hkey.symm)
      rw [putEntry, if_pos hkey, if_pos hmem, List.map_cons, List.map_cons]
    · have hmem : key ∈ (entry :: rest).map Prod.fst ↔ key ∈ rest.map Prod.fst := by
        rw [List.map_cons, List.mem_cons]
        exact or_iff_right fun e => hkey e.symm
      rw [putEntry, if_neg hkey, List.map_cons, ih]
      by_cases hrest : key ∈ rest.map Prod.fst
      · rw [if_pos hrest, if_pos (hmem.mpr hrest), List.map_cons]
      · rw [if_neg hrest, if_neg fun h => hrest (hmem.mp h), List.map_cons, List.cons_append]

theorem distinct_concat (names : List String) (name : String) :
    distinct (names ++ [name]) =
      if name ∈ names then distinct names else distinct names ++ [name] := by
  have hmem : name ∈ (collectEntries (names.map fun name => (name, ()))).map Prod.fst ↔
      name ∈ names := mem_distinct
  rw [distinct, List.map_append, List.map_cons, List.map_nil, collectEntries_concat,
    keys_putEntry]
  by_cases hname : name ∈ names
  · rw [if_pos hname, if_pos (hmem.mpr hname), distinct]
  · rw [if_neg hname, if_neg fun h => hname (hmem.mp h), distinct]

theorem listsFirst_distinct (names : List String) : ListsFirst names (distinct names) := by
  refine ⟨distinctKeys_collectEntries _, fun name => mem_distinct, ?_⟩
  induction names using List.reverseRecOn with
  | nil => exact List.Pairwise.nil
  | append_singleton names name ih =>
    -- what stood in the list before keeps its first place
    have hkept : (distinct names).Pairwise fun a b =>
        (names ++ [name]).idxOf a < (names ++ [name]).idxOf b := by
      refine ih.imp_of_mem fun ha hb hlt => ?_
      rw [List.idxOf_append_of_mem (mem_distinct.mp ha),
        List.idxOf_append_of_mem (mem_distinct.mp hb)]
      exact hlt
    rw [distinct_concat]
    by_cases hname : name ∈ names
    · rw [if_pos hname]
      exact hkept
    · rw [if_neg hname]
      refine List.pairwise_append.mpr ⟨hkept, List.pairwise_singleton _ _, fun a ha b hb => ?_⟩
      have hb : b = name := List.mem_singleton.mp hb
      have ha : a ∈ names := mem_distinct.mp ha
      rw [hb, List.idxOf_append_of_mem ha, List.idxOf_append_of_notMem hname]
      have hlt : names.idxOf a < names.length := List.idxOf_lt_length_of_mem ha
      omega

theorem distinct_append {names more : List String} (h : ∀ name ∈ more, name ∉ names) :
    distinct (names ++ more) = distinct names ++ distinct more := by
  induction more using List.reverseRecOn with
  | nil =>
    have hnil : distinct [] = [] := rfl
    rw [hnil, List.append_nil, List.append_nil]
  | append_singleton more name ih =>
    have hnew : name ∉ names := h name (List.mem_append_right _ (List.mem_singleton_self name))
    have hmore := ih fun other hother => h other (List.mem_append_left _ hother)
    rw [← List.append_assoc, distinct_concat, distinct_concat, hmore]
    by_cases hname : name ∈ more
    · rw [if_pos hname, if_pos (List.mem_append_right _ hname)]
    · rw [if_neg hname, if_neg fun hmem => (List.mem_append.mp hmem).elim hnew hname,
        List.append_assoc]

theorem keys_collectEntries (pairs : List (String × α)) :
    (collectEntries pairs).map Prod.fst = distinct (pairs.map Prod.fst) := by
  induction pairs using List.reverseRecOn with
  | nil => rfl
  | append_singleton pairs p ih =>
    rw [collectEntries_concat, keys_putEntry, ih, List.map_append, List.map_cons, List.map_nil,
      distinct_concat]
    by_cases hkey : p.1 ∈ pairs.map Prod.fst
    · rw [if_pos hkey, if_pos (mem_distinct.mpr hkey)]
    · rw [if_neg hkey, if_neg fun hmem => hkey (mem_distinct.mp hmem)]

/-- **The last pair of a key is the one that is kept.** -/
theorem mem_collectEntries_iff_last {pairs : List (String × α)} {p : String × α} :
    p ∈ collectEntries pairs ↔ pairs.reverse.find? (fun q => q.1 = p.1) = some p := by
  induction pairs using List.reverseRecOn with
  | nil => exact ⟨fun h => absurd h List.not_mem_nil, fun h => by cases h⟩
  | append_singleton pairs q ih =>
    rw [collectEntries_concat, mem_putEntry (distinctKeys_collectEntries pairs), ih,
      List.reverse_append, List.reverse_singleton, List.singleton_append, List.find?_cons]
    by_cases hkey : q.1 = p.1
    · rw [decide_eq_true hkey]
      constructor
      · intro h
        rcases h with hp | ⟨-, hne⟩
        · rw [hp]
        · exact absurd hkey.symm hne
      · intro h
        exact Or.inl (Option.some.inj h).symm
    · rw [decide_eq_false hkey]
      constructor
      · intro h
        rcases h with hp | ⟨hlast, -⟩
        · exact absurd (congrArg Prod.fst hp).symm hkey
        · exact hlast
      · intro h
        exact Or.inr ⟨h, fun e => hkey e.symm⟩

/-- What the last pair of each key says, in the order in which the keys first come. -/
theorem collectEntries_eq_map {pairs : List (String × α)} {f : String → α}
    (h : ∀ p, pairs.reverse.find? (fun q => q.1 = p.1) = some p → p.2 = f p.1) :
    collectEntries pairs = (distinct (pairs.map Prod.fst)).map fun key => (key, f key) := by
  have hvalues : collectEntries pairs = (collectEntries pairs).map fun p => (p.1, f p.1) := by
    refine (List.map_id _).symm.trans (List.map_congr_left fun p hp => ?_)
    exact Prod.ext rfl (h p (mem_collectEntries_iff_last.mp hp))
  rw [← keys_collectEntries, List.map_map]
  exact hvalues

end SchemaCompiler
