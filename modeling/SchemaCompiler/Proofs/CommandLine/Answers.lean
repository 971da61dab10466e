/-
  File:      SchemaCompiler/Proofs/CommandLine/Answers.lean
  Subject:   What the commands answer about a schema.

  `compile` goes by whether there is a module, `check` by whether a diagnostic is fatal. Both come
  from one reading of the text, which is graded, so the two answers are the same; the settings
  have no part in them.

  * `Session.run_check`, `Session.run_compile`: the answers, from what is read.
  * **`output_eq_none_iff_fatal`**: there is no module iff a diagnostic is fatal, it is the last
    and the only one, and the commands agree.
-/
import SchemaCompiler.CommandLine.Run
import SchemaCompiler.Proofs.Schema.Severity
import SchemaCompiler.StandardPlatform

namespace SchemaCompiler

/-! ## 1. The diagnostics of a text -/

theorem Diagnostic.anyFatal_iff {ds : List Diagnostic} :
    Diagnostic.anyFatal ds = true ↔ ∃ d ∈ ds, d.severity = .fatal := by
  simp only [anyFatal, List.any_eq_true, isFatal, decide_eq_true_eq]

/-- At most one diagnostic is fatal if all but the last are warnings. -/
theorem Diagnostic.countP_isFatal_le {ds : List Diagnostic}
    (h : ∀ d ∈ ds.dropLast, d.severity = .warning) : ds.countP isFatal ≤ 1 := by
  rcases List.eq_nil_or_concat ds with rfl | ⟨front, last, rfl⟩
  · exact Nat.zero_le 1
  · rw [List.concat_eq_append, List.dropLast_concat] at h
    have hfront : front.countP isFatal = 0 := by
      rw [List.countP_eq_zero]
      intro d hd
      simp only [isFatal, h d hd, reduceCtorEq, decide_false, Bool.false_eq_true, not_false_iff]
    rw [List.concat_eq_append, List.countP_append, hfront, Nat.zero_add]
    exact List.countP_le_length

/-- Whether there is a module does not depend on the settings. -/
theorem output_isSome (platform : Platform) (settings : Settings) (source : String) :
    (compile platform settings source).output.isSome =
      (analyze platform.engines source).result.toOption.isSome :=
  Option.isSome_map

theorem output_eq_none_iff (platform : Platform) (settings : Settings) (source : String) :
    (compile platform settings source).output = none ↔
      (analyze platform.engines source).result.toOption = none :=
  Option.map_eq_none_iff

theorem not_anyFatal_check (platform : Platform) (settings : Settings) (source : String) :
    (!Diagnostic.anyFatal (check platform.engines source)) =
      (compile platform settings source).output.isSome := by
  have hfatal := (graded_analyze platform.engines source).exists_fatal_iff
  rw [← Diagnostic.anyFatal_iff, ← output_eq_none_iff platform settings] at hfatal
  rw [Bool.eq_iff_iff, Bool.not_eq_true', ← Bool.not_eq_true, Option.isSome_iff_ne_none]
  exact not_congr hfatal

/-! ## 2. Commands on sessions -/

namespace CommandLine

namespace Session

/-- A part of a command, on a session. -/
abbrev Work (α : Type) := ExceptT Failure (StateM Session) α

variable {α β : Type} {session session' : Session} {platform : Platform}

theorem run_bind_of_ok {x : Work α} {a : α} (f : α → Work β)
    (hx : x.run session = (.ok a, session')) : (x >>= f).run session = (f a).run session' := by
  show (match x.run session with | (r, s) => ExceptT.bindCont f r s) = _
  rw [hx]
  rfl

theorem run_bind_of_error {x : Work α} {e : Failure} (f : α → Work β)
    (hx : x.run session = (.error e, session')) :
    (x >>= f).run session = (.error e, session') := by
  show (match x.run session with | (r, s) => ExceptT.bindCont f r s) = _
  rw [hx]
  rfl

/-- Reading a file changes nothing. -/
theorem run_orFail_readText (session : Session) (path : String) (failure : FileError → Failure) :
    (orFail (host.readText path) failure).run session =
      ((session.system.readText path).mapError failure, session) := by
  have hstep : (liftM (host.readText path) : Work _).run session =
      (.ok (session.system.readText path), session) := rfl
  unfold orFail
  rw [run_bind_of_ok _ hstep]
  cases session.system.readText path <;> rfl

/-- Loading the settings changes nothing, and fails only if there is a settings file. -/
theorem run_loadSettings (session : Session) (order : CompileOrder) :
    ∃ loaded, (loadSettings host order).run session = (loaded, session) ∧
      (order.settings = none → ∃ settings, loaded = .ok settings) := by
  unfold loadSettings
  cases order.settings with
  | none => exact ⟨_, rfl, fun _ => ⟨_, rfl⟩⟩
  | some path =>
    have hread := run_orFail_readText session path (.settingsUnread path)
    cases htext : session.system.readText path with
    | error e =>
      rw [htext] at hread
      exact ⟨_, run_bind_of_error _ hread, fun h => (nomatch h)⟩
    | ok text =>
      rw [htext] at hread
      simp only [run_bind_of_ok _ hread]
      cases Settings.read text with
      | error e => exact ⟨_, rfl, fun h => (nomatch h)⟩
      | ok settings => exact ⟨_, rfl, fun h => (nomatch h)⟩

theorem run_check {input source : String} (hread : session.system.readText input = .ok source) :
    (session.run platform (.check input)).1 =
      .ok (!Diagnostic.anyFatal (check platform.engines source)) := by
  have hsource := run_orFail_readText session input (.schemaUnread input)
  rw [hread] at hsource
  show ((runCheck platform host input).run session).1 = _
  unfold runCheck
  rw [run_bind_of_ok _ hsource]
  rfl

/-- Once the settings are loaded, only writing the module can fail. -/
theorem run_compile_of_loaded {order : CompileOrder} {source : String} {settings : Settings}
    (hread : session.system.readText order.input = .ok source)
    (hload : (loadSettings host order).run session = (.ok settings, session)) :
    (session.run platform (.compile order)).1 =
        .ok (compile platform settings source).output.isSome ∨
      (∃ e, (session.run platform (.compile order)).1 = .error e) ∧ order.output ≠ none := by
  have hsource := run_orFail_readText session order.input (.schemaUnread order.input)
  rw [hread] at hsource
  have hprint : ∀ text, (liftM (host.printError text) : Work Unit).run session =
      (.ok (), { session with error := session.error ++ text }) := fun _ => rfl
  have hrun : session.run platform (.compile order) =
      (runCompile platform host order).run session := rfl
  rw [hrun, runCompile, run_bind_of_ok _ hload, run_bind_of_ok _ hsource]
  dsimp only
  rw [run_bind_of_ok _ (hprint _)]
  cases (compile platform settings source).output with
  | none => exact .inl rfl
  | some text =>
    cases order.output with
    | none => exact .inl rfl
    | some path =>
      generalize { session with error := _ } = printed
      rcases hwrite : (writeOutput host path text).run printed with ⟨written, last⟩
      cases written with
      | error e =>
        refine .inr ⟨⟨e, ?_⟩, Option.some_ne_none path⟩
        simp only [run_bind_of_error _ hwrite]
      | ok u =>
        refine .inl ?_
        simp only [run_bind_of_ok _ hwrite]
        rfl

/-- **The answer of `compile` is whether there is a module**, unless a file other than the schema
    cannot be used. -/
theorem run_compile {order : CompileOrder} {source : String}
    (hread : session.system.readText order.input = .ok source) (settings : Settings) :
    (session.run platform (.compile order)).1 =
        .ok (compile platform settings source).output.isSome ∨
      (∃ e, (session.run platform (.compile order)).1 = .error e) ∧
        (order.settings ≠ none ∨ order.output ≠ none) := by
  obtain ⟨loaded, hload, hdefault⟩ := run_loadSettings session order
  cases loaded with
  | error e =>
    refine .inr ⟨⟨e, ?_⟩, .inl fun hnone => ?_⟩
    · have hrun : session.run platform (.compile order) =
          (runCompile platform host order).run session := rfl
      rw [hrun, runCompile, run_bind_of_error _ hload]
    · obtain ⟨settings, h⟩ := hdefault hnone
      cases h
  | ok loaded =>
    rw [output_isSome platform settings, ← output_isSome platform loaded]
    rcases run_compile_of_loaded hread hload with hanswer | ⟨hfails, houtput⟩
    · exact .inl hanswer
    · exact .inr ⟨hfails, .inr houtput⟩

end Session

/-! ## 3. The answers agree -/

/-- **There is no module iff a diagnostic is fatal.** At most one is, and none before the last; the
    diagnostics are those of `check`, whatever the settings; and on a file with this text both
    commands give the same answer, unless `compile` cannot use one of its other files. -/
theorem output_eq_none_iff_fatal (platform : Platform) (settings : Settings) (source : String) :
    ((compile platform settings source).output = none ↔
      ∃ d ∈ (compile platform settings source).diagnostics, d.severity = .fatal) ∧
    (compile platform settings source).diagnostics.countP Diagnostic.isFatal ≤ 1 ∧
    (∀ d ∈ (compile platform settings source).diagnostics.dropLast, d.severity = .warning) ∧
    (compile platform settings source).diagnostics = check platform.engines source ∧
    ∀ (session : Session) (order : CompileOrder),
      session.system.readText order.input = .ok source →
        (session.run platform (.check order.input)).1 =
          .ok (compile platform settings source).output.isSome ∧
        ((session.run platform (.compile order)).1 =
            .ok (compile platform settings source).output.isSome ∨
          (∃ e, (session.run platform (.compile order)).1 = .error e) ∧
            (order.settings ≠ none ∨ order.output ≠ none)) := by
  have hgraded := graded_analyze platform.engines source
  have hlast : ∀ d ∈ (compile platform settings source).diagnostics.dropLast,
      d.severity = .warning :=
    fun d hd => hgraded.warning_of_mem_dropLast hd
  refine ⟨?_, Diagnostic.countP_isFatal_le hlast, hlast, rfl, fun session order hread => ⟨?_, ?_⟩⟩
  · rw [output_eq_none_iff]
    exact hgraded.exists_fatal_iff.symm
  · rw [Session.run_check hread, not_anyFatal_check platform settings]
  · exact Session.run_compile hread settings

/-- A schema with an unknown keyword and a title that is no text. -/
def draft : String := "\x7b\"x\":0,\"title\":0\x7d"

/-- A session in which the draft is the only file. -/
def draftSession : Session :=
  .start (.permissive ⟨[(["draft"], .file draft.toUTF8)], []⟩)

/-- The draft gets a warning and a fatal diagnostic, and both commands answer that it failed. -/
theorem draft_answers :
    draftSession.system.readText "draft" = .ok draft ∧
    (check .standard draft).map Diagnostic.severity = [.warning, .fatal] ∧
    (draftSession.run .standard (.check "draft")).1 = .ok false ∧
    (draftSession.run .standard (.compile ⟨"draft", none, none, false, none⟩)).1 = .ok false := by
  have hread : draftSession.system.readText "draft" = .ok draft := rfl
  have hseverity : (check .standard draft).map Diagnostic.severity = [.warning, .fatal] := by
    decide +kernel
  obtain ⟨hiff, -, -, hsame, hcommands⟩ := output_eq_none_iff_fatal .standard .default draft
  have hmem : Severity.fatal ∈ (check .standard draft).map Diagnostic.severity := by
    rw [hseverity]
    decide
  obtain ⟨d, hd, hfatal⟩ := List.mem_map.mp hmem
  have hnone : (compile .standard .default draft).output = none := hiff.mpr ⟨d, hsame ▸ hd, hfatal⟩
  obtain ⟨hcheck, hcompile⟩ := hcommands draftSession ⟨"draft", none, none, false, none⟩ hread
  rw [hnone] at hcheck hcompile
  refine ⟨hread, hseverity, hcheck, hcompile.resolve_right ?_⟩
  rintro ⟨-, hother | hother⟩
  · exact hother rfl
  · exact hother rfl

end CommandLine

end SchemaCompiler
