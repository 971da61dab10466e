/-
  File:      SchemaCompiler/Proofs/CommandLine/Effects.lean
  Subject:   What the commands do to the files, and what they print.

  * `AsksFor` -- the settings that an order asks for: the defaults, then what its settings file
    tells, then what the arguments say;
  * `FileSystem.Writable` -- the output can be written: its directory can be made, and then writing
    is not refused and its path leads to a file;
  * `Session.endsWriting_writeOutput` -- how writing the output ends;
  * `Checks`, `Compiles` -- what each command does: one that fails leaves all files as they are and
    prints nothing, one that succeeds delivers the module and does nothing else;
  * **`does_run`** -- the commands do so, on every tree of files and whatever the system refuses.
-/
import SchemaCompiler.Proofs.CommandLine.Answers
import SchemaCompiler.Proofs.CommandLine.Trees
import SchemaCompiler.Proofs.Settings.Records

namespace SchemaCompiler

/-- The directory of a file can be made, and then the path leads to a file and writing the text to
    it is not refused. -/
def FileSystem.Writable (system : FileSystem) (path text : String) : Prop :=
  ∃ made, system.makeDirectories ((Path.parent? path).getD "") = (.ok (), made) ∧
    made.refusal? made.tree (.write path text) = none ∧ made.tree.LeadsToFile path

namespace CommandLine

/-- What the settings are before the arguments have a say. -/
def StartsFrom (system : FileSystem) (order : CompileOrder) (settings : Settings) : Prop :=
  match order.settings with
  | none => settings = .default
  | some path => ∃ text, system.readText path = .ok text ∧ Settings.Holds text settings

/-- The settings that an order asks for. -/
def AsksFor (system : FileSystem) (order : CompileOrder) (settings : Settings) : Prop :=
  ∃ base, StartsFrom system order base ∧
    settings.optimize = (base.optimize && !order.noOptimize) ∧
    settings.rootName = order.rootName.getD base.rootName ∧ settings.imports = base.imports

namespace Session

variable {session : Session}

/-! ## 1. Settings -/

/-- **The settings are loaded iff the order asks for them**, and nothing is changed. -/
theorem run_loadSettings_iff (session : Session) (order : CompileOrder) :
    ∃ loaded, (loadSettings host order).run session = (loaded, session) ∧
      ∀ settings, loaded = .ok settings ↔ AsksFor session.system order settings := by
  have hloaded : ∀ base settings : Settings,
      (Except.ok { base with
          optimize := base.optimize && !order.noOptimize
          rootName := order.rootName.getD base.rootName } : Except Failure Settings) =
        .ok settings ↔
      settings.optimize = (base.optimize && !order.noOptimize) ∧
        settings.rootName = order.rootName.getD base.rootName ∧
        settings.imports = base.imports := by
    rintro ⟨_, _, _⟩ ⟨_, _, _⟩
    rw [Except.ok.injEq, Settings.mk.injEq]
    exact ⟨fun ⟨h, h', h''⟩ => ⟨h.symm, h'.symm, h''.symm⟩,
      fun ⟨h, h', h''⟩ => ⟨h.symm, h'.symm, h''.symm⟩⟩
  unfold loadSettings AsksFor StartsFrom
  cases order.settings with
  | none =>
    refine ⟨_, rfl, fun settings => (hloaded .default settings).trans ?_⟩
    simp only [exists_eq_left]
  | some path =>
    have hread := run_orFail_readText session path (.settingsUnread path)
    cases htext : session.system.readText path with
    | error e =>
      rw [htext] at hread
      refine ⟨_, run_bind_of_error _ hread, fun settings => ⟨fun h => (nomatch h), fun h => ?_⟩⟩
      obtain ⟨_, ⟨_, hread', -⟩, -⟩ := h
      rw [htext] at hread'
      cases hread'
    | ok text =>
      rw [htext] at hread
      have hsame : ∀ {base : Settings}, (∃ text, session.system.readText path = .ok text ∧
          Settings.Holds text base) ↔ Settings.read text = .ok base := by
        intro base
        rw [Settings.read_eq_ok_iff, htext]
        simp only [Except.ok.injEq, exists_eq_left']
      simp only [run_bind_of_ok _ hread, hsame]
      cases Settings.read text with
      | error e =>
        refine ⟨_, rfl, fun settings => ⟨fun h => (nomatch h), fun h => ?_⟩⟩
        obtain ⟨_, habsurd, -⟩ := h
        cases habsurd
      | ok base =>
        refine ⟨_, rfl, fun settings => (hloaded base settings).trans ?_⟩
        simp only [Except.ok.injEq, exists_eq_left']

/-- An order asks for one set of settings at most. -/
theorem asksFor_unique {system : FileSystem} {order : CompileOrder} {settings settings' : Settings}
    (h : AsksFor system order settings) (h' : AsksFor system order settings') :
    settings = settings' := by
  obtain ⟨loaded, -, hasks⟩ := run_loadSettings_iff (.start system) order
  have hsame := ((hasks settings).mpr h).symm.trans ((hasks settings').mpr h')
  exact Except.ok.inj hsame

/-! ## 2. Writing -/

/-- A step of the file system, the system after it being that of the session. -/
theorem run_orFail_change (step : FileSystem → Except FileError Unit × FileSystem)
    (session : Session) {answer : Except FileError Unit} {system : FileSystem}
    (h : step session.system = (answer, system)) (failure : FileError → Failure) :
    (orFail (change step) failure).run session =
      (answer.mapError failure, { session with system := system }) := by
  have hstep : (liftM (change step) : Work _).run session =
      (.ok answer, { session with system := system }) := by
    have hchange : change step session = (answer, { session with system := system }) := by
      rw [change, h]
    exact congrArg (fun done => (Except.ok done.1, done.2)) hchange
  unfold orFail
  rw [run_bind_of_ok _ hstep]
  cases answer <;> rfl

theorem makeDirectories_host (path : String) :
    host.makeDirectories path = change fun system => system.makeDirectories path := rfl

theorem writeText_host (path text : String) :
    host.writeText path text = change fun system => system.writeText path text := rfl

/-- How writing the output ends: the file is written and no other is changed, or no more than
    directories have been made. -/
def EndsWriting (session : Session) (path text : String) (done : Except Failure Unit × Session) :
    Prop :=
  (∃ system, done = (.ok (), { session with system := system }) ∧
    session.system.Writable path text ∧ session.files.Written system.tree path text) ∨
  ∃ e system, done = (.error e, { session with system := system }) ∧
    ¬ session.system.Writable path text ∧ session.files.Grown system.tree

/-- The last step, once the directory is there. -/
theorem endsWriting_of_made {made : FileSystem} {path text : String}
    (hmade : session.system.makeDirectories ((Path.parent? path).getD "") = (.ok (), made)) :
    EndsWriting session path text
      ((orFail (host.writeText path text) (.notWritten path)).run
        { session with system := made }) := by
  have hgrown := FileSystem.grown_makeDirectories session.system ((Path.parent? path).getD "")
  rw [hmade] at hgrown
  rw [writeText_host]
  rcases FileSystem.writeText_cases made path text with
    ⟨tree, hwrite, hallowed, hleads, hwritten⟩ | ⟨hrefused, e, hwrite⟩
  · have hrun := run_orFail_change (fun system => system.writeText path text)
      { session with system := made } hwrite (.notWritten path)
    exact .inl ⟨_, hrun, ⟨made, hmade, hallowed, hleads⟩, hwritten.of_grown hgrown.tree⟩
  · have hrun := run_orFail_change (fun system => system.writeText path text)
      { session with system := made } hwrite (.notWritten path)
    refine .inr ⟨_, made, hrun, fun hwritable => ?_, hgrown.tree⟩
    obtain ⟨made', hmade', hallowed⟩ := hwritable
    rw [hmade] at hmade'
    cases hmade'
    exact hrefused hallowed

theorem endsWriting_writeOutput (session : Session) (path text : String) :
    EndsWriting session path text ((writeOutput host path text).run session) := by
  unfold writeOutput
  dsimp only
  by_cases hhere : ((Path.parent? path).getD "").isEmpty = true
  · have hmade : session.system.makeDirectories ((Path.parent? path).getD "") =
        (.ok (), session.system) := by
      rw [String.isEmpty_iff.mp hhere]
      rfl
    rw [if_neg (by simp [hhere])]
    exact endsWriting_of_made hmade
  · rw [if_pos (by simp [hhere])]
    have hgrown := FileSystem.grown_makeDirectories session.system ((Path.parent? path).getD "")
    rcases hmade : session.system.makeDirectories ((Path.parent? path).getD "") with
      ⟨answer, made⟩
    have hrun := run_orFail_change
      (fun system => system.makeDirectories ((Path.parent? path).getD "")) session hmade
      (.directoryNotMade ((Path.parent? path).getD ""))
    cases answer with
    | ok u =>
      rw [makeDirectories_host, run_bind_of_ok _ hrun]
      exact endsWriting_of_made hmade
    | error e =>
      -- what was made before the failure stays
      rw [makeDirectories_host, run_bind_of_error _ hrun]
      rw [hmade] at hgrown
      refine .inr ⟨_, made, rfl, fun hwritable => ?_, hgrown.tree⟩
      obtain ⟨made', hmade', -⟩ := hwritable
      rw [hmade] at hmade'
      cases hmade'

end Session

/-! ## 3. Commands -/

/-- What `check` does: it changes no file and prints no output. -/
structure Checks (platform : Platform) (input : String) (before after : Session) (code : Nat) :
    Prop where
  files : after.files = before.files
  out : after.out = before.out
  code_eq_zero_iff : code = 0 ↔ ∃ source, before.system.readText input = .ok source ∧
    Diagnostic.anyFatal (check platform.engines source) = false

/-- The module has been written to the file that is named, and no other file has been changed; or
    else it has been printed. -/
def Delivered (order : CompileOrder) (before after : Session) (text : String) : Prop :=
  match order.output with
  | none => after.files = before.files ∧ after.out = before.out ++ text
  | some path => before.files.Written after.files path text ∧ after.out = before.out

/-- All that an order needs: its settings, a schema that is not refused, and a place to write to. -/
structure CanBeDone (platform : Platform) (order : CompileOrder) (system : FileSystem) :
    Prop where
  settings : ∃ settings, AsksFor system order settings
  source : ∃ source, system.readText order.input = .ok source ∧
    Diagnostic.anyFatal (check platform.engines source) = false
  output : ∀ path settings source text, order.output = some path → AsksFor system order settings →
    system.readText order.input = .ok source →
    (compile platform settings source).output = some text → system.Writable path text

/-- What `compile` does. -/
structure Compiles (platform : Platform) (order : CompileOrder) (before after : Session)
    (code : Nat) : Prop where
  /-- It succeeds iff all can be read, nothing is fatal, and the output can be written. -/
  code_eq_zero_iff : code = 0 ↔ CanBeDone platform order before.system
  /-- If it fails, the files are as they were, no more than directories have been made, and nothing
      is printed. -/
  failed : code ≠ 0 → before.files.SameFiles after.files ∧ before.files.Grown after.files ∧
    after.out = before.out
  /-- If it succeeds, the module of the schema is delivered. -/
  succeeded : code = 0 → ∃ settings source text, AsksFor before.system order settings ∧
    before.system.readText order.input = .ok source ∧
    (compile platform settings source).output = some text ∧ Delivered order before after text

/-- What a command does. -/
def Command.Does (platform : Platform) : Command → Session → Session → Nat → Prop
  | .check input => Checks platform input
  | .compile order => Compiles platform order

theorem exitCode_eq_zero_iff {answer : Except Failure Bool} :
    exitCode answer = 0 ↔ answer = .ok true := by
  unfold exitCode
  split
  · simp
  · rename_i h
    exact ⟨fun h => absurd h (by decide), fun e => absurd e h⟩

theorem checks_run (platform : Platform) (session : Session) (input : String) :
    Checks platform input session (session.run platform (.check input)).2
      (exitCode (session.run platform (.check input)).1) := by
  have hsource := Session.run_orFail_readText session input (.schemaUnread input)
  have hrun : session.run platform (.check input) =
      (runCheck platform Session.host input).run session := rfl
  rw [hrun, runCheck]
  cases hread : session.system.readText input with
  | error e =>
    rw [hread] at hsource
    rw [Session.run_bind_of_error _ hsource]
    refine ⟨rfl, rfl, ?_⟩
    rw [exitCode_eq_zero_iff]
    refine ⟨fun h => (nomatch h), fun h => ?_⟩
    obtain ⟨source, habsurd, -⟩ := h
    rw [hread] at habsurd
    cases habsurd
  | ok source =>
    rw [hread] at hsource
    rw [Session.run_bind_of_ok _ hsource]
    refine ⟨rfl, rfl, ?_⟩
    rw [exitCode_eq_zero_iff, hread]
    simp only [Except.ok.injEq, exists_eq_left']
    show Except.ok (!Diagnostic.anyFatal (check platform.engines source)) = Except.ok true ↔ _
    rw [Except.ok.injEq, Bool.not_eq_true']

section Compile

variable {platform : Platform} {order : CompileOrder} {before after : Session}
  {answer : Except Failure Bool}

theorem compiles_of_failed (hanswer : answer ≠ .ok true)
    (hwhy : ¬ CanBeDone platform order before.system) (hgrown : before.files.Grown after.files)
    (hout : after.out = before.out) :
    Compiles platform order before after (exitCode answer) where
  code_eq_zero_iff := by
    rw [exitCode_eq_zero_iff]
    exact ⟨fun h => absurd h hanswer, fun h => absurd h hwhy⟩
  failed := fun _ => ⟨hgrown.sameFiles, hgrown, hout⟩
  succeeded := fun h => absurd (exitCode_eq_zero_iff.mp h) hanswer

theorem anyFatal_eq_false_iff (platform : Platform) (settings : Settings) (source : String) :
    Diagnostic.anyFatal (check platform.engines source) = false ↔
      ∃ text, (compile platform settings source).output = some text := by
  rw [← Option.isSome_iff_exists, ← not_anyFatal_check platform settings, Bool.not_eq_true']

variable {settings : Settings} {source text : String}

theorem compiles_of_delivered (hsettings : AsksFor before.system order settings)
    (hread : before.system.readText order.input = .ok source)
    (houtput : (compile platform settings source).output = some text)
    (hwritable : ∀ path, order.output = some path → before.system.Writable path text)
    (hdelivered : Delivered order before after text) :
    Compiles platform order before after (exitCode (.ok true)) where
  code_eq_zero_iff := by
    have hfatal := (anyFatal_eq_false_iff platform settings source).mpr ⟨text, houtput⟩
    refine ⟨fun _ => ⟨⟨settings, hsettings⟩, ⟨source, hread, hfatal⟩, ?_⟩, fun _ => rfl⟩
    -- the settings and the text are no others than these
    intro path settings' source' text' hpath hsettings' hread' houtput'
    cases Session.asksFor_unique hsettings hsettings'
    rw [hread] at hread'
    cases hread'
    rw [houtput] at houtput'
    cases houtput'
    exact hwritable path hpath
  failed := fun h => absurd rfl h
  succeeded := fun _ => ⟨settings, source, text, hsettings, hread, houtput, hdelivered⟩

/-- The module is there, and a file is named for it. The log that was printed has no part in it. -/
theorem compiles_writeOutput (hsettings : AsksFor before.system order settings)
    (hread : before.system.readText order.input = .ok source)
    (houtput : (compile platform settings source).output = some text) {path : String}
    (horder : order.output = some path) (log : String) {done : Session.Work Bool}
    (hdone : done = (do writeOutput Session.host path text; pure true)) :
    Compiles platform order before (done.run { before with error := log }).2
      (exitCode (done.run { before with error := log }).1) := by
  subst hdone
  rcases Session.endsWriting_writeOutput { before with error := log } path text with
    ⟨system, hwrite, hwritable, hwritten⟩ | ⟨e, system, hwrite, hnot, hgrown⟩
  · rw [Session.run_bind_of_ok _ hwrite]
    refine compiles_of_delivered hsettings hread houtput (fun path' hpath => ?_) ?_
    · rw [horder] at hpath
      cases hpath
      exact hwritable
    · rw [Delivered, horder]
      exact ⟨hwritten, rfl⟩
  · rw [Session.run_bind_of_error _ hwrite]
    refine compiles_of_failed (fun h => by cases h) (fun h => ?_) hgrown rfl
    exact hnot (h.output path settings source text horder hsettings hread houtput)

theorem compiles_run (platform : Platform) (session : Session) (order : CompileOrder) :
    Compiles platform order session (session.run platform (.compile order)).2
      (exitCode (session.run platform (.compile order)).1) := by
  obtain ⟨loaded, hload, hasks⟩ := Session.run_loadSettings_iff session order
  have hsource := Session.run_orFail_readText session order.input (.schemaUnread order.input)
  have hrun : session.run platform (.compile order) =
      (runCompile platform Session.host order).run session := rfl
  rw [hrun, runCompile]
  cases loaded with
  | error e =>
    rw [Session.run_bind_of_error _ hload]
    refine compiles_of_failed (fun h => by cases h) (fun h => ?_) (.refl _) rfl
    obtain ⟨settings, hsettings⟩ := h.settings
    cases (hasks settings).mpr hsettings
  | ok settings =>
    have hsettings := (hasks settings).mp rfl
    rw [Session.run_bind_of_ok _ hload]
    cases hread : session.system.readText order.input with
    | error e =>
      rw [hread] at hsource
      rw [Session.run_bind_of_error _ hsource]
      refine compiles_of_failed (fun h => by cases h) (fun h => ?_) (.refl _) rfl
      obtain ⟨source, habsurd, -⟩ := h.source
      rw [hread] at habsurd
      cases habsurd
    | ok source =>
      rw [hread] at hsource
      rw [Session.run_bind_of_ok _ hsource]
      dsimp only
      have hprint : ∀ text, (liftM (Session.host.printError text) : Session.Work Unit).run session =
          (.ok (), { session with error := session.error ++ text }) := fun _ => rfl
      rw [Session.run_bind_of_ok _ (hprint _)]
      cases houtput : (compile platform settings source).output with
      | none =>
        refine compiles_of_failed (fun h => by cases h) (fun h => ?_) (.refl _) rfl
        obtain ⟨source', hread', hfatal⟩ := h.source
        rw [hread] at hread'
        cases hread'
        obtain ⟨text, htext⟩ := (anyFatal_eq_false_iff platform settings source).mp hfatal
        rw [houtput] at htext
        cases htext
      | some text =>
        generalize session.error ++ _ = log
        cases horder : order.output with
        | none =>
          refine compiles_of_delivered hsettings hread houtput (fun path hpath => ?_) ?_
          · rw [horder] at hpath
            cases hpath
          · rw [Delivered, horder]
            exact ⟨rfl, rfl⟩
        | some path => exact compiles_writeOutput hsettings hread houtput horder log rfl

end Compile

/-- **What the commands do to the files, and what they print.** -/
theorem does_run (platform : Platform) (session : Session) (command : Command) :
    command.Does platform session (session.run platform command).2
      (exitCode (session.run platform command).1) := by
  cases command with
  | compile order => exact compiles_run platform session order
  | check input => exact checks_run platform session input

end CommandLine

end SchemaCompiler
