/-
  File:      SchemaCompiler/CommandLine/Run.lean
  Subject:   What a command does.

  A command works on a host, which reads and writes files and prints. It runs on the actual files,
  or on a `Session`, whose file system and printed texts are plain values.
-/
import SchemaCompiler.CommandLine.Arguments
import SchemaCompiler.CommandLine.Files
import SchemaCompiler.Compiler
import SchemaCompiler.Diagnostic.Report
import SchemaCompiler.Settings.Reader

namespace SchemaCompiler

namespace CommandLine

/-! ## 1. Failures -/

/-- Why a command breaks off. -/
inductive Failure where
  | settingsUnread (path : String) (e : FileError)
  | settingsInvalid (path : String) (e : Settings.Error)
  | schemaUnread (path : String) (e : FileError)
  | directoryNotMade (path : String) (e : FileError)
  | notWritten (path : String) (e : FileError)

/-- The message of a failure and of its causes. A failure of the settings tells its cause itself,
    so the cause appears twice. -/
def Failure.message (alphabet : Alphabet) : Failure → String
  | .settingsUnread path e =>
    "failed to read config file " ++ path ++ ": " ++ e.message ++ ": " ++ e.message
  | .settingsInvalid path e =>
    "invalid config file " ++ path ++ ": " ++ e.message alphabet ++ ": " ++ e.message alphabet ++
      ": " ++ e.reason alphabet
  | .schemaUnread path e => "failed to read schema file " ++ path ++ ": " ++ e.message
  | .directoryNotMade path e => "failed to create directory " ++ path ++ ": " ++ e.message
  | .notWritten path e => "failed to write " ++ path ++ ": " ++ e.message

/-! ## 2. Hosts -/

/-- What a command works on. -/
structure Host (m : Type → Type) where
  readText : String → m (Except FileError String)
  /-- Makes a directory and those above it. -/
  makeDirectories : String → m (Except FileError Unit)
  writeText : String → String → m (Except FileError Unit)
  printOut : String → m Unit
  printError : String → m Unit

section Run

variable {m : Type → Type} [Monad m]

/-- The value of a step that may fail. -/
def orFail {α : Type} (step : m (Except FileError α)) (failure : FileError → Failure) :
    ExceptT Failure m α := do
  match ← step with
  | .ok value => pure value
  | .error e => throw (failure e)

/-- The settings of an order: those of the file, unless the arguments say otherwise. -/
def loadSettings (host : Host m) (order : CompileOrder) : ExceptT Failure m Settings := do
  let settings ← match order.settings with
    | none => pure Settings.default
    | some path => do
      match Settings.read (← orFail (host.readText path) (.settingsUnread path)) with
      | .ok settings => pure settings
      | .error e => throw (.settingsInvalid path e)
  pure { settings with
    optimize := settings.optimize && !order.noOptimize
    rootName := order.rootName.getD settings.rootName }

/-- Writes a text to a file, and makes the directory of the file if it is not there. -/
def writeOutput (host : Host m) (path text : String) : ExceptT Failure m Unit := do
  let directory := (Path.parent? path).getD ""
  if !directory.isEmpty then
    orFail (host.makeDirectories directory) (.directoryNotMade directory)
  orFail (host.writeText path text) (.notWritten path)

/-- Compiles a file. The answer is whether nothing was fatal. -/
def runCompile (platform : Platform) (host : Host m) (order : CompileOrder) :
    ExceptT Failure m Bool := do
  let settings ← loadSettings host order
  let source ← orFail (host.readText order.input) (.schemaUnread order.input)
  let compilation := compile platform settings source
  host.printError (report false order.input source compilation.diagnostics)
  match compilation.output, order.output with
  | none, _ => pure false
  | some text, none => do
    host.printOut text
    pure true
  | some text, some path => do
    writeOutput host path text
    pure true

/-- Checks a file. The answer is whether nothing was fatal. -/
def runCheck (platform : Platform) (host : Host m) (input : String) :
    ExceptT Failure m Bool := do
  let source ← orFail (host.readText input) (.schemaUnread input)
  let diagnostics := check platform.engines source
  host.printError (report false input source diagnostics)
  pure (!Diagnostic.anyFatal diagnostics)

/-- Runs a command. -/
def Command.run (platform : Platform) (host : Host m) : Command → ExceptT Failure m Bool
  | .compile order => runCompile platform host order
  | .check input => runCheck platform host input

end Run

/-- The exit code of a command. -/
def exitCode : Except Failure Bool → Nat
  | .ok true => 0
  | _ => 1

/-! ## 3. Sessions -/

/-- A file system and what has been printed. -/
structure Session where
  system : FileSystem
  out : String
  error : String

namespace Session

def start (system : FileSystem) : Session := ⟨system, "", ""⟩

/-- The files there are. -/
def files (session : Session) : FileTree := session.system.tree

/-- A step of the file system. -/
def change (step : FileSystem → Except FileError Unit × FileSystem) :
    StateM Session (Except FileError Unit) :=
  fun session => ((step session.system).1, { session with system := (step session.system).2 })

/-- Commands work on sessions. -/
def host : Host (StateM Session) where
  readText path := fun session => (session.system.readText path, session)
  makeDirectories path := change fun system => system.makeDirectories path
  writeText path text := change fun system => system.writeText path text
  printOut text := fun session => ((), { session with out := session.out ++ text })
  printError text := fun session => ((), { session with error := session.error ++ text })

/-- What comes of a command, and the session after it. -/
def run (platform : Platform) (session : Session) (command : Command) :
    Except Failure Bool × Session :=
  (command.run platform host).run session

end Session

end CommandLine

end SchemaCompiler
