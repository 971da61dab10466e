/-
  File:      SchemaCompiler/Proofs/CommandLine/Trees.lean
  Subject:   What making directories and writing a file do to the files.

  * `FileTree.Grown` -- a tree with some more directories, where nothing was before; the files are
    the same (`FileTree.Grown.sameFiles`);
  * **`FileSystem.grown_makeDirectories`** -- making directories does no more than that, whether it
    succeeds or not;
  * `FileTree.Written` -- one file has a given text, its path leads to it, and the other files are
    the same;
  * **`FileSystem.writeText_cases`** -- writing does no more than that. It goes through iff it is
    not refused and the path leads by a name to a place that is no directory; else nothing changes.
-/
import SchemaCompiler.CommandLine.Files

namespace SchemaCompiler

namespace FileTree

variable {tree tree' tree'' : FileTree} {location : Location} {entry : FileEntry}
  {path text : String}

/-! ## 1. Entries -/

theorem lookup_filter_ne {entries : List (Location × FileEntry)} {location other : Location}
    (h : other ≠ location) :
    (entries.filter fun e => e.1 ≠ location).lookup other = entries.lookup other := by
  induction entries with
  | nil => rfl
  | cons e entries ih =>
    obtain ⟨key, entry⟩ := e
    by_cases hkey : key = location
    · have hother : (other == key) = false := beq_false_of_ne (hkey ▸ h)
      rw [List.filter_cons_of_neg (by simp [hkey]), ih, List.lookup_cons, hother]
    · rw [List.filter_cons_of_pos (by simp [hkey]), List.lookup_cons, List.lookup_cons, ih]

theorem get?_put (hlocation : location ≠ []) (other : Location) :
    (tree.put location entry).get? other =
      if other = location then some entry else tree.get? other := by
  unfold get? put
  by_cases hroot : other = []
  · rw [if_pos hroot, if_pos hroot, if_neg (hroot ▸ hlocation.symm)]
  · rw [if_neg hroot, if_neg hroot, List.lookup_cons]
    by_cases hother : other = location
    · rw [if_pos hother, beq_iff_eq.mpr hother]
    · rw [if_neg hother, beq_false_of_ne hother]
      exact lookup_filter_ne hother

/-- The root is a directory. -/
theorem ne_nil_of_get? (h : tree.get? location ≠ some .directory) : location ≠ [] := by
  rintro rfl
  exact h rfl

/-- A way through directories does not meet a place that is none. -/
theorem follow_put (hlocation : tree.get? location ≠ some .directory) {start stop : Location}
    {names : List String} (h : tree.follow start names = .ok stop) :
    (tree.put location entry).follow start names = .ok stop := by
  induction names generalizing start with
  | nil => exact h
  | cons name names ih =>
    rw [follow] at h ⊢
    cases hstart : tree.get? start with
    | none =>
      rw [hstart] at h
      cases h
    | some found =>
      rw [hstart] at h
      cases found with
      | file contents => cases h
      | directory =>
        have hne : start ≠ location := fun e => hlocation (e ▸ hstart)
        rw [get?_put (ne_nil_of_get? hlocation), if_neg hne, hstart]
        exact ih h

theorem locate_put (hlocation : tree.get? location ≠ some .directory) {stop : Location}
    (h : tree.locate path = .ok stop) : (tree.put location entry).locate path = .ok stop := by
  unfold locate at h ⊢
  split at h
  · cases h
  · rename_i hnull
    rw [if_neg hnull]
    exact follow_put hlocation h

/-! ## 2. Directories -/

/-- The files are the same, wherever they are. -/
def SameFiles (tree tree' : FileTree) : Prop :=
  ∀ location, tree'.contents? location = tree.contents? location

/-- Some directories have been made, where nothing was. -/
def Grown (tree tree' : FileTree) : Prop :=
  ∀ location, tree'.get? location = tree.get? location ∨
    tree.get? location = none ∧ tree'.get? location = some .directory

theorem Grown.refl (tree : FileTree) : tree.Grown tree := fun _ => .inl rfl

theorem Grown.trans (h : tree.Grown tree') (h' : tree'.Grown tree'') : tree.Grown tree'' := by
  intro location
  rcases h location with hsame | ⟨hnone, hmade⟩
  · rcases h' location with hsame' | ⟨hnone', hmade'⟩
    · exact .inl (hsame'.trans hsame)
    · exact .inr ⟨hsame.symm.trans hnone', hmade'⟩
  · rcases h' location with hsame' | ⟨hnone', -⟩
    · exact .inr ⟨hnone, hsame'.trans hmade⟩
    · rw [hmade] at hnone'
      cases hnone'

theorem Grown.sameFiles (h : tree.Grown tree') : tree.SameFiles tree' := by
  intro location
  unfold contents?
  rcases h location with hsame | ⟨hnone, hmade⟩
  · rw [hsame]
  · rw [hnone, hmade]

theorem grown_makeDirectory (h : tree.makeDirectory path = .ok tree') : tree.Grown tree' := by
  unfold makeDirectory at h
  cases hlocate : tree.locate path with
  | error e =>
    rw [hlocate] at h
    cases h
  | ok location =>
    rw [hlocate] at h
    cases hget : tree.get? location with
    | some found =>
      simp only [bind, Except.bind, hget] at h
      cases h
    | none =>
      simp only [bind, Except.bind, hget, Except.ok.injEq] at h
      subst h
      intro other
      have hroot : location ≠ [] := by
        rintro rfl
        cases hget
      rw [get?_put hroot]
      by_cases hother : other = location
      · exact .inr ⟨hother ▸ hget, if_pos hother⟩
      · exact .inl (if_neg hother)

/-! ## 3. Files -/

/-- The path leads to a file with this text, and all other files are the same. -/
def Written (tree tree' : FileTree) (path text : String) : Prop :=
  ∃ location, tree'.locate path = .ok location ∧
    tree'.contents? location = some text.toUTF8 ∧
    ∀ other, other ≠ location → tree'.contents? other = tree.contents? other

/-- The path leads by a name to a place that is no directory. -/
def LeadsToFile (tree : FileTree) (path : String) : Prop :=
  ∃ location, tree.locate path = .ok location ∧ tree.get? location ≠ some .directory ∧
    Path.lastPiece path ≠ "" ∧ Path.lastPiece path ≠ "."

/-- Writing puts one entry, if the path leads to a place for it. -/
theorem writeText_eq_ok_iff :
    tree.writeText path text = .ok tree' ↔
      ∃ location, tree.locate path = .ok location ∧ tree.get? location ≠ some .directory ∧
        Path.lastPiece path ≠ "" ∧ Path.lastPiece path ≠ "." ∧
        tree' = tree.put location (.file text.toUTF8) := by
  unfold writeText
  cases hlocate : tree.locate path with
  | error e => simp [bind, Except.bind]
  | ok location =>
    simp only [bind, Except.bind, Except.ok.injEq, exists_eq_left']
    split
    · rename_i hempty
      exact ⟨fun h => (nomatch h), fun ⟨_, hname, _⟩ => absurd hempty hname⟩
    · rename_i hdirectory _
      exact ⟨fun h => (nomatch h), fun ⟨hget, _⟩ => absurd hdirectory hget⟩
    · rename_i hdot _
      exact ⟨fun h => (nomatch h), fun ⟨_, _, hname, _⟩ => absurd hdot hname⟩
    · rename_i hdot _
      exact ⟨fun h => (nomatch h), fun ⟨_, _, hname, _⟩ => absurd hdot hname⟩
    · rename_i hempty hget hnone hfile
      have hdot : Path.lastPiece path ≠ "." := by
        intro hdot
        cases hfound : tree.get? location with
        | none => exact hnone hdot hfound
        | some found =>
          cases found with
          | directory => exact hget hfound
          | file contents => exact hfile contents hdot hfound
      rw [Except.ok.injEq]
      exact ⟨fun h => ⟨hget, hempty, hdot, h.symm⟩, fun ⟨_, _, _, h⟩ => h.symm⟩

/-- **Writing sets one file and no other.** -/
theorem written_writeText (h : tree.writeText path text = .ok tree') :
    tree.Written tree' path text := by
  obtain ⟨location, hlocate, hget, -, -, rfl⟩ := writeText_eq_ok_iff.mp h
  have hroot := ne_nil_of_get? hget
  refine ⟨location, locate_put hget hlocate, ?_, fun other hother => ?_⟩
  · rw [contents?, get?_put hroot, if_pos rfl]
  · rw [contents?, contents?, get?_put hroot, if_neg hother]

theorem exists_writeText_iff :
    (∃ tree', tree.writeText path text = .ok tree') ↔ tree.LeadsToFile path := by
  simp only [writeText_eq_ok_iff]
  constructor
  · intro h
    obtain ⟨_, location, hlocate, hget, hempty, hdot, -⟩ := h
    exact ⟨location, hlocate, hget, hempty, hdot⟩
  · intro h
    obtain ⟨location, hlocate, hget, hempty, hdot⟩ := h
    exact ⟨_, location, hlocate, hget, hempty, hdot, rfl⟩

theorem Written.of_grown (hgrown : tree.Grown tree') (h : tree'.Written tree'' path text) :
    tree.Written tree'' path text := by
  obtain ⟨location, hlocate, hcontents, hothers⟩ := h
  exact ⟨location, hlocate, hcontents, fun other hother =>
    (hothers other hother).trans (hgrown.sameFiles other)⟩

end FileTree

/-! ## 4. Systems -/

namespace FileSystem

variable {system system' system'' : FileSystem}

/-- Some directories have been made, and the system refuses what it refused. -/
structure Grown (system system' : FileSystem) : Prop where
  tree : system.tree.Grown system'.tree
  refusal : system'.refusal? = system.refusal?

theorem Grown.refl (system : FileSystem) : system.Grown system := ⟨.refl system.tree, rfl⟩

theorem Grown.trans (h : system.Grown system') (h' : system'.Grown system'') :
    system.Grown system'' :=
  ⟨h.tree.trans h'.tree, h'.refusal.trans h.refusal⟩

/-- A request is answered and the tree replaced, or it fails and nothing changes. -/
theorem change_cases (system : FileSystem) (request : Request)
    (answer : Except FileError FileTree) :
    (∃ tree, answer = .ok tree ∧ system.refusal? system.tree request = none ∧
        system.change request answer = (.ok (), { system with tree := tree })) ∨
      (∀ tree, answer = .ok tree → system.refusal? system.tree request ≠ none) ∧
        ∃ e, system.change request answer = (.error e, system) := by
  unfold change allow
  cases hrefusal : system.refusal? system.tree request with
  | some e => exact .inr ⟨fun _ _ => Option.some_ne_none e, e, rfl⟩
  | none =>
    cases answer with
    | ok tree => exact .inl ⟨tree, rfl, rfl, rfl⟩
    | error e => exact .inr ⟨fun _ h => (nomatch h), e, rfl⟩

theorem grown_makeDirectory (system : FileSystem) (path : String) :
    system.Grown (system.makeDirectory path).2 := by
  rw [makeDirectory]
  rcases change_cases system (.makeDirectory path) (system.tree.makeDirectory path) with
    ⟨tree, hmade, -, heq⟩ | ⟨-, e, heq⟩
  · rw [heq]
    exact ⟨FileTree.grown_makeDirectory hmade, rfl⟩
  · rw [heq]
    exact .refl system

theorem unlessDirectory_snd (path : String) (done : Except FileError Unit × FileSystem) :
    (unlessDirectory path done).2 = done.2 := by
  obtain ⟨answer, system⟩ := done
  cases answer <;> rfl

/-- One directory after the other is made, from the top; those that were made stay. -/
theorem grown_makeDirectoriesFrom (bound : Nat) (system : FileSystem) (path : String) :
    system.Grown (makeDirectoriesFrom bound system path).2 := by
  induction bound generalizing system path with
  | zero => exact .refl system
  | succ bound ih =>
    rw [makeDirectoriesFrom]
    split
    · exact .refl system
    · have hfirst := grown_makeDirectory system path
      split
      · next failed hfailed =>
        rw [hfailed] at hfirst
        split
        · exact hfirst
        · next parent _ =>
          have habove := hfirst.trans (ih failed parent)
          split
          · next above hdone =>
            rw [hdone] at habove
            rw [unlessDirectory_snd]
            exact habove.trans (grown_makeDirectory above path)
          · next e above hdone =>
            rw [hdone] at habove
            exact habove
      · rw [unlessDirectory_snd]
        exact hfirst

/-- **Making directories leaves the files as they are**, also if it fails. -/
theorem grown_makeDirectories (system : FileSystem) (path : String) :
    system.Grown (system.makeDirectories path).2 :=
  grown_makeDirectoriesFrom (path.length + 1) system path

/-- Below a file no directory can be made, but the way there may lead through one that is. -/
example :
    let system := FileSystem.permissive ⟨[(["f"], .file "".toUTF8)], []⟩
    (system.makeDirectories "x/../f/y").1 = .error .alreadyExists ∧
      (system.makeDirectories "x/../f/y").2.tree.get? ["x"] = some .directory :=
  ⟨rfl, rfl⟩

/-- **Writing sets one file and no other, or changes nothing.** The first iff it is not refused and
    the path leads to a file. -/
theorem writeText_cases (system : FileSystem) (path text : String) :
    (∃ tree, system.writeText path text = (.ok (), { system with tree := tree }) ∧
        system.refusal? system.tree (.write path text) = none ∧ system.tree.LeadsToFile path ∧
        system.tree.Written tree path text) ∨
      ¬ (system.refusal? system.tree (.write path text) = none ∧ system.tree.LeadsToFile path) ∧
        ∃ e, system.writeText path text = (.error e, system) := by
  rw [writeText]
  rcases change_cases system (.write path text) (system.tree.writeText path text) with
    ⟨tree, hwrite, hallowed, heq⟩ | ⟨hrefused, e, heq⟩
  · exact .inl ⟨tree, heq, hallowed, FileTree.exists_writeText_iff.mp ⟨tree, hwrite⟩,
      FileTree.written_writeText hwrite⟩
  · refine .inr ⟨fun ⟨hallowed, hleads⟩ => ?_, e, heq⟩
    obtain ⟨tree, hwrite⟩ := FileTree.exists_writeText_iff.mpr hleads
    exact hrefused tree hwrite hallowed

end FileSystem

end SchemaCompiler
