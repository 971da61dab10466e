/-
  File:      SchemaCompiler/Main.lean
  Subject:   The command line on the actual files.
-/
import SchemaCompiler.CommandLine.Run
import SchemaCompiler.StandardPlatform

namespace SchemaCompiler

namespace CommandLine

/-- How the command line is used. -/
def usage : String :=
  "compile a JSON Schema (2020-12) into superstruct validators\n\n" ++
  "Usage: compile [-v] [--config FILE] [--no-optimize] [--root-name NAME] IN [OUT]\n" ++
  "       check [-v] IN\n"

def version : String := "0.1.0\n"

/-- What the arguments are refused with. -/
def Refusal.message : Refusal → String
  | .help | .nothingAsked => usage
  | .version => CommandLine.version
  | .missingCommand => "error: a command is required\n\n" ++ usage
  | .unknownCommand => "error: unrecognized command\n\n" ++ usage
  | .missingInput => "error: an input file is required\n\n" ++ usage
  | .unknownArgument => "error: unexpected argument\n\n" ++ usage
  | .invalidValue => "error: a value is required\n\n" ++ usage
  | .repeated => "error: an argument cannot be used multiple times\n\n" ++ usage
  | .unneededValue => "error: unexpected value\n\n" ++ usage

/-- The reason behind an error of the system. -/
def reasonOf : IO.Error → FileError
  | .noFileOrDirectory .. => .notFound
  | .alreadyExists .. => .alreadyExists
  | .inappropriateType _ code _ => if code = 21 then .isDirectory else .notDirectory
  | e => .other (toString e)

/-- A step on the actual files. -/
def attempt {α : Type} (step : IO α) : IO (Except FileError α) := do
  match ← step.toBaseIO with
  | .ok value => return .ok value
  | .error e => return .error (reasonOf e)

/-- Commands work on the actual files. -/
def systemHost : Host IO where
  readText path := do
    match ← attempt (IO.FS.readBinFile path) with
    | .error e => return .error e
    | .ok contents =>
      match String.fromUTF8? contents with
      | some text => return .ok text
      | none => return .error .notText
  makeDirectories path := attempt (IO.FS.createDirAll path)
  writeText path text := attempt (IO.FS.writeFile path text)
  printOut := IO.print
  printError := IO.eprint

/-- Runs the command that the arguments ask for. -/
def perform (arguments : List String) : IO UInt32 := do
  match Invocation.ofArguments arguments with
  | .error refusal =>
    if refusal.exitCode = 0 then IO.print refusal.message else IO.eprint refusal.message
    return refusal.exitCode.toUInt32
  | .ok invocation =>
    let platform := Platform.standard
    let outcome ← (invocation.command.run platform systemHost).run
    if let .error failure := outcome then
      IO.eprintln ("error: " ++ failure.message platform.alphabet)
    return (exitCode outcome).toUInt32

end CommandLine

end SchemaCompiler

def main (arguments : List String) : IO UInt32 := SchemaCompiler.CommandLine.perform arguments
