/-
  File:      SchemaCompiler/Pattern/Basic.lean
  Subject:   Syntax trees of regular expressions.
-/
import SchemaCompiler.Pattern.Property

namespace SchemaCompiler

namespace Pattern

/-- A literal character; `isByte` marks the form `\xHH`, which may denote a byte. -/
structure Literal where
  char : Char
  isByte : Bool
  deriving DecidableEq, Repr

/-- The operations between sets of characters. -/
inductive SetOperation where
  | intersection | difference | symmetricDifference
  deriving DecidableEq, Repr

/-- What stands between the brackets of a class. -/
inductive CharSet where
  | empty
  | literal (l : Literal)
  | range (first last : Literal)
  /-- A named ASCII class such as `[:alpha:]`. -/
  | named (negated : Bool)
  /-- One of `\d`, `\s`, `\w` or their complements. -/
  | shorthand (letter : Char)
  | property (query : PropertyQuery)
  | bracketed (negated : Bool) (set : CharSet)
  | union (sets : List CharSet)
  | operation (op : SetOperation) (left right : CharSet)
  deriving Repr

/-- The flags a pattern may set. -/
inductive Flag where
  | caseInsensitive | multiLine | dotAll | swapGreed | unicode | crlf | verbose
  deriving DecidableEq, Repr

def Flag.ofLetter? (c : Char) : Option Flag :=
  if c = 'i' then some .caseInsensitive
  else if c = 'm' then some .multiLine
  else if c = 's' then some .dotAll
  else if c = 'U' then some .swapGreed
  else if c = 'u' then some .unicode
  else if c = 'R' then some .crlf
  else if c = 'x' then some .verbose
  else none

/-- The flags set and the flags cleared, in the order written. -/
abbrev FlagChange := List (Flag × Bool)

/-- What a change of flags makes of one flag. -/
def FlagChange.apply (change : FlagChange) (flag : Flag) (old : Bool) : Bool :=
  (change.lookup flag).getD old

/-- How often a repetition repeats: at least `least` times, and at most `most` if there is a
    bound. -/
structure Repetition where
  least : Nat
  most : Option Nat
  deriving DecidableEq, Repr

/-- What a group is for: to capture what it matches, perhaps under a name, or to change flags
    inside. -/
inductive GroupKind where
  | captured (name : Option (List Char))
  | scoped (change : FlagChange)
  deriving Repr

/-- The name of a group. -/
def GroupKind.name? : GroupKind → Option (List Char)
  | .captured name => name
  | .scoped _ => none

/-- The change of flags inside a group. -/
def GroupKind.change : GroupKind → FlagChange
  | .captured _ => []
  | .scoped change => change

/-- The tree of a regular expression. -/
inductive Regex where
  | empty
  /-- A change of flags for the rest of the group. -/
  | flags (change : FlagChange)
  | literal (l : Literal)
  | dot
  | assertion
  | shorthand (letter : Char)
  | property (query : PropertyQuery)
  | bracketed (negated : Bool) (set : CharSet)
  | repeated (r : Regex) (times : Repetition)
  | group (kind : GroupKind) (r : Regex)
  | alternation (rs : List Regex)
  | concatenation (rs : List Regex)
  deriving Repr

end Pattern

end SchemaCompiler
