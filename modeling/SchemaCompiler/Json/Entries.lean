/-
  File:      SchemaCompiler/Json/Entries.lean
  Subject:   Keyed lists in the order in which their keys first came.

  The members of a JSON object and the fields of a record are lists of pairs. A key is put at most
  once: a key that is there keeps its place and takes the new value, a new key goes last.
-/

namespace SchemaCompiler

/-- Puts a value under a key. -/
def putEntry {α : Type} (key : String) (value : α) : List (String × α) → List (String × α)
  | [] => [(key, value)]
  | (k, v) :: rest =>
    if k = key then (k, value) :: rest else (k, v) :: putEntry key value rest

/-- Puts the pairs of a list one after another. -/
def collectEntries {α : Type} (pairs : List (String × α)) : List (String × α) :=
  pairs.foldl (fun entries pair => putEntry pair.1 pair.2 entries) []

/-- The distinct strings of a list, in the order in which they first came. -/
def distinct (names : List String) : List String :=
  (collectEntries (names.map fun name => (name, ()))).map Prod.fst

end SchemaCompiler
