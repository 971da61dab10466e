/-
  File:      SchemaCompiler/CommandLine/Arguments.lean
  Subject:   What the arguments of the command line ask for.

  The arguments name a command, and then its options, flags and positionals in any order. A value
  is not stored as it is read but when the next option, flag or positional comes, or at the end;
  so a complaint about a value may give way to one about what follows it.
-/
import SchemaCompiler.Text.Ascii

namespace SchemaCompiler

namespace CommandLine

/-! ## 1. Commands -/

/-- What `compile` is asked to do. -/
structure CompileOrder where
  input : String
  /-- Where the module goes; if nowhere, it is printed. -/
  output : Option String
  /-- The settings file. -/
  settings : Option String
  noOptimize : Bool
  rootName : Option String
  deriving DecidableEq, Repr

inductive Command where
  | compile (order : CompileOrder)
  | check (input : String)
  deriving DecidableEq, Repr

/-- A command, and how much is to be logged about it. -/
structure Invocation where
  verbosity : Nat
  command : Command
  deriving DecidableEq, Repr

/-- Why the arguments lead to no command. -/
inductive Refusal where
  /-- Help was asked for. -/
  | help
  /-- The version was asked for. -/
  | version
  /-- There are no arguments at all. -/
  | nothingAsked
  | missingCommand
  | unknownCommand
  | missingInput
  | unknownArgument
  | invalidValue
  /-- What may be given once was given twice. -/
  | repeated
  /-- A flag was given a value. -/
  | unneededValue
  deriving DecidableEq, Repr

/-- The exit code of a refusal. -/
def Refusal.exitCode : Refusal → Nat
  | .help | .version => 0
  | _ => 2

/-! ## 2. Tokens -/

/-- The forms of an argument. -/
inductive Token where
  /-- All that follows is positional. -/
  | escape
  | long (name : String) (value : Option String)
  | short (letters : List Char)
  | word (text : String)
  deriving DecidableEq, Repr

/-- The token of a text after two dashes: a name, and a value after the first equals sign. -/
def Token.ofLong (text : List Char) : Token :=
  let name := String.ofList (text.takeWhile (· ≠ '='))
  match text.dropWhile (· ≠ '=') with
  | [] => .long name none
  | _ :: value => .long name (some (String.ofList value))

/-- The token of an argument. -/
def Token.ofArgument (argument : String) : Token :=
  match argument.toList with
  | ['-', '-'] => .escape
  | '-' :: '-' :: rest => .ofLong rest
  | '-' :: c :: rest => .short (c :: rest)
  | _ => .word argument

/-! ## 3. Options, flags and positionals -/

/-- What takes a value. -/
inductive Slot where
  | input | output | settings | rootName
  deriving DecidableEq, Repr

/-- Whether a value names a file; such a value must not be empty. -/
def Slot.isPath : Slot → Bool
  | .rootName => false
  | _ => true

/-- What takes no value. -/
inductive Flag where
  | verbose | help | version | noOptimize
  deriving DecidableEq, Repr

def Flag.long : Flag → String
  | .verbose => "verbose"
  | .help => "help"
  | .version => "version"
  | .noOptimize => "no-optimize"

def Flag.short? : Flag → Option Char
  | .verbose => some 'v'
  | .help => some 'h'
  | .version => some 'V'
  | .noOptimize => none

/-- What a command takes. -/
structure Signature where
  positionals : List Slot
  options : List (String × Slot)
  flags : List Flag

def Signature.compile : Signature :=
  { positionals := [.input, .output]
    options := [("config", .settings), ("root-name", .rootName)]
    flags := [.verbose, .help, .noOptimize] }

def Signature.check : Signature :=
  { positionals := [.input], options := [], flags := [.verbose, .help] }

/-- What may stand before a command. -/
def Signature.top : Signature :=
  { positionals := [], options := [], flags := [.verbose, .help, .version] }

def Signature.longFlag? (signature : Signature) (name : String) : Option Flag :=
  signature.flags.find? fun flag => flag.long = name

def Signature.shortFlag? (signature : Signature) (letter : Char) : Option Flag :=
  signature.flags.find? fun flag => flag.short? = some letter

/-- Counts one more request for logging; the count stops at 255. -/
def raise (verbosity : Option Nat) : Option Nat := some (min 255 (verbosity.getD 0 + 1))

/-! ## 4. The arguments of a command -/

/-- What has been read of the arguments of a command. -/
structure Progress where
  stored : List (Slot × String)
  noOptimize : Bool
  verbosity : Option Nat
  /-- What takes a value and has not been stored, with its value once that is read. -/
  pending : Option (Slot × Option String)
  /-- The positionals still to come. -/
  positionals : List Slot
  /-- Whether all that follows is positional. -/
  escaped : Bool

namespace Progress

def start (signature : Signature) : Progress :=
  ⟨[], false, none, none, signature.positionals, false⟩

def get? (p : Progress) (slot : Slot) : Option String := p.stored.lookup slot

/-- Stores a value. -/
def store (p : Progress) (slot : Slot) (value : String) : Except Refusal Progress :=
  if (p.get? slot).isSome then .error .repeated
  else if slot.isPath && value.isEmpty then .error .invalidValue
  else .ok { p with stored := (slot, value) :: p.stored }

/-- Stores what is pending; by now it must have a value. -/
def settle (p : Progress) : Except Refusal Progress :=
  match p.pending with
  | none => .ok p
  | some (_, none) => .error .invalidValue
  | some (slot, some value) => { p with pending := none }.store slot value

/-- What a flag does. -/
def applyFlag (p : Progress) : Flag → Except Refusal Progress
  | .verbose => .ok { p with verbosity := raise p.verbosity }
  | .help => .error .help
  | .version => .error .version
  | .noOptimize => if p.noOptimize then .error .repeated else .ok { p with noOptimize := true }

/-- Reads a cluster of flags of one letter. -/
def readShort (signature : Signature) (p : Progress) : List Char → Except Refusal Progress
  | [] => .ok p
  | letter :: letters =>
    match signature.shortFlag? letter with
    | none => .error .unknownArgument
    | some flag => do
      let p ← (← p.settle).applyFlag flag
      readShort signature p letters

/-- Reads an option or a flag by its name. -/
def readLong (signature : Signature) (p : Progress) (name : String) (value : Option String) :
    Except Refusal Progress :=
  match signature.options.lookup name, value with
  | some slot, some value => do (← p.settle).store slot value
  | some slot, none => do .ok { ← p.settle with pending := some (slot, none) }
  | none, value =>
    match signature.longFlag? name, value with
    | none, _ => .error .unknownArgument
    | some _, some _ => .error .unneededValue
    | some flag, none => do (← p.settle).applyFlag flag

/-- Reads a positional. -/
def readPositional (p : Progress) (text : String) : Except Refusal Progress :=
  match p.positionals with
  | [] => .error .unknownArgument
  | slot :: slots => do
    .ok { ← p.settle with pending := some (slot, some text), positionals := slots }

/-- Reads one argument. -/
def readArgument (signature : Signature) (p : Progress) (argument : String) :
    Except Refusal Progress :=
  if p.escaped then p.readPositional argument
  else
    match Token.ofArgument argument with
    | .escape => .ok { p with escaped := true }
    | .long name value => p.readLong signature name value
    | .short letters => p.readShort signature letters
    | .word text =>
      match p.pending with
      | some (slot, none) => .ok { p with pending := some (slot, some text) }
      | _ => p.readPositional text

/-- Reads all arguments. -/
def readArguments (signature : Signature) (p : Progress) : List String → Except Refusal Progress
  | [] => p.settle
  | argument :: arguments => do
    readArguments signature (← p.readArgument signature argument) arguments

end Progress

/-- The command that a signature's arguments ask for. -/
def readCommand (signature : Signature) (make : String → Progress → Command)
    (arguments : List String) : Except Refusal (Option Nat × Command) := do
  let p ← (Progress.start signature).readArguments signature arguments
  match p.get? .input with
  | some input => .ok (p.verbosity, make input p)
  | none => .error .missingInput

def readCompile : List String → Except Refusal (Option Nat × Command) :=
  readCommand .compile fun input p =>
    .compile ⟨input, p.get? .output, p.get? .settings, p.noOptimize, p.get? .rootName⟩

def readCheck : List String → Except Refusal (Option Nat × Command) :=
  readCommand .check fun input _ => .check input

/-! ## 5. The whole command line -/

/-- The commands, by name. -/
def commandNames : List String := ["compile", "check", "help"]

/-- What `help` answers: it takes at most one name of a command. -/
def refusalOfHelp : List String → Refusal
  | [] => .help
  | [name] => if commandNames.contains name then .help else .unknownCommand
  | _ => .unknownCommand

/-- A flag before the command. -/
def applyTopFlag (verbosity : Option Nat) : Flag → Except Refusal (Option Nat)
  | .help => .error .help
  | .version => .error .version
  | _ => .ok (raise verbosity)

/-- A cluster of flags before the command. -/
def readTopShort (verbosity : Option Nat) : List Char → Except Refusal (Option Nat)
  | [] => .ok verbosity
  | letter :: letters =>
    match Signature.top.shortFlag? letter with
    | none => .error .unknownArgument
    | some flag => do readTopShort (← applyTopFlag verbosity flag) letters

/-- A flag before the command, by its name. -/
def readTopLong (verbosity : Option Nat) (name : String) (value : Option String) :
    Except Refusal (Option Nat) :=
  match Signature.top.longFlag? name, value with
  | none, _ => .error .unknownArgument
  | some _, some _ => .error .unneededValue
  | some flag, none => applyTopFlag verbosity flag

/-- An invocation. Requests for logging after the name of the command replace those before it. -/
def invocationOf (before : Option Nat) (read : Except Refusal (Option Nat × Command)) :
    Except Refusal Invocation := do
  let (after, command) ← read
  .ok ⟨(after <|> before).getD 0, command⟩

/-- Reads the arguments from the first on. -/
def readFrom (verbosity : Option Nat) (escaped : Bool) : List String → Except Refusal Invocation
  | [] => .error (if verbosity.isNone then .nothingAsked else .missingCommand)
  | argument :: arguments =>
    if escaped then
      .error (if commandNames.contains argument then .unknownArgument else .unknownCommand)
    else if argument = "compile" then invocationOf verbosity (readCompile arguments)
    else if argument = "check" then invocationOf verbosity (readCheck arguments)
    else if argument = "help" then .error (refusalOfHelp arguments)
    else
      match Token.ofArgument argument with
      | .escape => readFrom verbosity true arguments
      | .long name value => do readFrom (← readTopLong verbosity name value) false arguments
      | .short letters => do readFrom (← readTopShort verbosity letters) false arguments
      | .word _ => .error .unknownCommand

/-- What the arguments ask for. -/
def Invocation.ofArguments (arguments : List String) : Except Refusal Invocation :=
  readFrom none false arguments

end CommandLine

end SchemaCompiler
