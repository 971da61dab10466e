/-
  File:      SchemaCompiler/CommandLine/Files.lean
  Subject:   Files and directories, and the paths that lead to them.

  A path is read from a directory, name by name; every name but the last has to lead to a
  directory. Reading, writing and making directories fail for the reasons of `FileError`.

  A `FileTree` is only what there is. The `FileSystem` that keeps it may refuse any request besides.
  What it does answers with the system as it is afterwards, also if it fails: directories that were
  made before a failure stay.
-/
import SchemaCompiler.Json.Value

namespace SchemaCompiler

/-! ## 1. Errors -/

/-- Why a file cannot be read or written. -/
inductive FileError where
  | notFound
  | alreadyExists
  | notDirectory
  | isDirectory
  | notText
  | nullInName
  /-- What else the system may complain of. -/
  | other (reason : String)
  deriving DecidableEq, Repr

def FileError.message : FileError → String
  | .notFound => "No such file or directory (os error 2)"
  | .alreadyExists => "File exists (os error 17)"
  | .notDirectory => "Not a directory (os error 20)"
  | .isDirectory => "Is a directory (os error 21)"
  | .notText => "stream did not contain valid UTF-8"
  | .nullInName => "file name contained an unexpected NUL byte"
  | .other reason => reason

/-! ## 2. Paths -/

namespace Path

/-- The length of the part of a path that no name belongs to: the root, or a leading dot. -/
def leadLength : List Char → Nat
  | '/' :: _ => 1
  | ['.'] => 1
  | '.' :: '/' :: _ => 1
  | _ => 0

/-- The pieces of a path without those at its end that lead nowhere. -/
def trimPieces (pieces : List (List Char)) : List (List Char) :=
  (pieces.reverse.dropWhile fun piece => piece = [] ∨ piece = ['.']).reverse

/-- The path without its last name: `none` for the root, empty for a single name. -/
def parent? (path : String) : Option String :=
  let text := path.toList
  let lead := text.take (leadLength text)
  match trimPieces (splitAtChar '/' (text.drop (leadLength text))) with
  | [] => if lead = ['.'] then some "" else none
  | piece :: pieces =>
    some (String.ofList (lead ++ joinWith ['/'] (trimPieces (piece :: pieces).dropLast)))

/-- The names of a path, in order; dots that lead nowhere are left out. -/
def names (path : String) : List String :=
  ((splitAtChar '/' path.toList).filter fun piece => piece ≠ [] ∧ piece ≠ ['.']).map String.ofList

def isAbsolute (path : String) : Bool := path.toList.head? = some '/'

/-- The last piece of a path; it is empty if the path ends in a slash. -/
def lastPiece (path : String) : String :=
  String.ofList ((splitAtChar '/' path.toList).getLastD [])

/-- Whether the end of a path can only be a directory. -/
def endsInDirectory (path : String) : Bool :=
  ["", ".", ".."].contains (lastPiece path)

end Path

/-! ## 3. Directories -/

/-- A directory or the contents of a file. -/
inductive FileEntry where
  | directory
  | file (contents : ByteArray)

/-- The names that lead to an entry from the root. -/
abbrev Location := List String

/-- The files and directories there are, and the directory that paths start from. The root is
    always a directory. -/
structure FileTree where
  entries : List (Location × FileEntry)
  here : Location

namespace FileTree

/-- What is at a location. -/
def get? (tree : FileTree) (location : Location) : Option FileEntry :=
  if location = [] then some .directory else tree.entries.lookup location

/-- Puts an entry at a location. -/
def put (tree : FileTree) (location : Location) (entry : FileEntry) : FileTree :=
  { tree with entries := (location, entry) :: tree.entries.filter fun e => e.1 ≠ location }

/-- The next location on the way. -/
def step (location : Location) (name : String) : Location :=
  if name = ".." then location.dropLast else location ++ [name]

/-- Follows names from a location, each from a directory. -/
def follow (tree : FileTree) (location : Location) : List String → Except FileError Location
  | [] => .ok location
  | name :: names =>
    match tree.get? location with
    | some .directory => tree.follow (step location name) names
    | some (.file _) => .error .notDirectory
    | none => .error .notFound

/-- Where a path leads, if all names but the last lead to directories. -/
def locate (tree : FileTree) (path : String) : Except FileError Location :=
  if path.toList.contains '\x00' then .error .nullInName
  else tree.follow (if Path.isAbsolute path then [] else tree.here) (Path.names path)

/-- Whether a path leads to a directory. -/
def isDirectory (tree : FileTree) (path : String) : Bool :=
  match tree.locate path with
  | .ok location =>
    match tree.get? location with
    | some .directory => true
    | _ => false
  | .error _ => false

/-! ## 4. Reading and writing -/

/-- The text of a file. -/
def readText (tree : FileTree) (path : String) : Except FileError String := do
  match tree.get? (← tree.locate path) with
  | none => .error .notFound
  | some .directory => .error .isDirectory
  | some (.file contents) =>
    if Path.endsInDirectory path then .error .notDirectory
    else
      match String.fromUTF8? contents with
      | some text => .ok text
      | none => .error .notText

/-- Writes a text to a file, which is made if it is not there. -/
def writeText (tree : FileTree) (path : String) (text : String) : Except FileError FileTree := do
  let location ← tree.locate path
  let fresh := tree.put location (.file text.toUTF8)
  match Path.lastPiece path, tree.get? location with
  | "", _ => .error .isDirectory
  | _, some .directory => .error .isDirectory
  | ".", none => .error .notFound
  | ".", some (.file _) => .error .notDirectory
  | _, _ => .ok fresh

/-- Makes one directory. -/
def makeDirectory (tree : FileTree) (path : String) : Except FileError FileTree := do
  let location ← tree.locate path
  match tree.get? location with
  | some _ => .error .alreadyExists
  | none => .ok (tree.put location .directory)

/-! ## 5. Trees of given files -/

/-- Puts a directory at a location and at those above it. -/
def putDirectories (tree : FileTree) (location : Location) : FileTree :=
  (List.range (location.length + 1)).foldl (fun tree n => tree.put (location.take n) .directory)
    tree

/-- Puts a file, by its path from the directory that paths start from. -/
def putFile (tree : FileTree) (path : String) (contents : ByteArray) : FileTree :=
  let location := tree.here ++ Path.names path
  (tree.putDirectories location.dropLast).put location (.file contents)

/-- The tree that holds only some files, by their paths from `here`. -/
def ofFiles (here : Location) (files : List (String × ByteArray)) : FileTree :=
  files.foldl (fun tree file => tree.putFile file.1 file.2)
    (FileTree.putDirectories ⟨[], here⟩ here)

/-- The path from the directory that paths start from, for a location below it. -/
def pathFromHere? (tree : FileTree) (location : Location) : Option String :=
  if tree.here.isPrefixOf location then
    some ("/".intercalate (location.drop tree.here.length))
  else none

/-- The contents of the file at a location. -/
def contents? (tree : FileTree) (location : Location) : Option ByteArray :=
  match tree.get? location with
  | some (.file contents) => some contents
  | _ => none

/-- The files that are new or changed since `before`, by their paths. -/
def changesSince (tree before : FileTree) : List (String × ByteArray) :=
  tree.entries.filterMap fun (location, _) => do
    let contents ← tree.contents? location
    if (before.contents? location).map ByteArray.toList = some contents.toList then none
    else return (← tree.pathFromHere? location, contents)

end FileTree

/-! ## 6. Systems -/

/-- What is asked of the system that keeps the files. -/
inductive Request where
  | read (path : String)
  /-- Whether a path leads to a directory. -/
  | inspect (path : String)
  | makeDirectory (path : String)
  | write (path text : String)
  deriving DecidableEq, Repr

/-- The files, and what the system that keeps them refuses, for want of rights or of room or for any
    other reason. It may go by the files there are. What is refused changes nothing. -/
structure FileSystem where
  tree : FileTree
  refusal? : FileTree → Request → Option FileError

namespace FileSystem

/-- The system that refuses nothing. -/
def permissive (tree : FileTree) : FileSystem := ⟨tree, fun _ _ => none⟩

/-- The answer to a request, unless it is refused. -/
def allow {α : Type} (system : FileSystem) (request : Request) (answer : Except FileError α) :
    Except FileError α :=
  match system.refusal? system.tree request with
  | some e => .error e
  | none => answer

def readText (system : FileSystem) (path : String) : Except FileError String :=
  system.allow (.read path) (system.tree.readText path)

def isDirectory (system : FileSystem) (path : String) : Bool :=
  (system.refusal? system.tree (.inspect path)).isNone && system.tree.isDirectory path

/-- The system with the tree that a request gives, if it gives one. -/
def change (system : FileSystem) (request : Request) (tree : Except FileError FileTree) :
    Except FileError Unit × FileSystem :=
  match system.allow request tree with
  | .ok tree => (.ok (), { system with tree := tree })
  | .error e => (.error e, system)

def writeText (system : FileSystem) (path text : String) : Except FileError Unit × FileSystem :=
  system.change (.write path text) (system.tree.writeText path text)

def makeDirectory (system : FileSystem) (path : String) : Except FileError Unit × FileSystem :=
  system.change (.makeDirectory path) (system.tree.makeDirectory path)

/-- A directory that is there already is no error. -/
def unlessDirectory (path : String) :
    Except FileError Unit × FileSystem → Except FileError Unit × FileSystem
  | (.ok (), system) => (.ok (), system)
  | (.error e, system) => (if system.isDirectory path then .ok () else .error e, system)

/-- Makes a directory and those above it, from the first that is not there. The length of the path
    bounds the way up. -/
def makeDirectoriesFrom : Nat → FileSystem → String → Except FileError Unit × FileSystem
  | 0, system, _ => (.ok (), system)
  | bound + 1, system, path =>
    if path.isEmpty then (.ok (), system)
    else
      match system.makeDirectory path with
      | (.error .notFound, system) =>
        match Path.parent? path with
        | none => (.error (.other "failed to create whole tree"), system)
        | some parent =>
          match makeDirectoriesFrom bound system parent with
          | (.ok (), system) => unlessDirectory path (system.makeDirectory path)
          | (.error e, system) => (.error e, system)
      | done => unlessDirectory path done

/-- Makes a directory and those above it. -/
def makeDirectories (system : FileSystem) (path : String) : Except FileError Unit × FileSystem :=
  makeDirectoriesFrom (path.length + 1) system path

end FileSystem

end SchemaCompiler
