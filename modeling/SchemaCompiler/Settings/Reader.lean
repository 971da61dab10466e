/-
  File:      SchemaCompiler/Settings/Reader.lean
  Subject:   Reading a settings file.

  The settings are a record of three fields, the last of which is a record of two. A record is
  written as an object, each field at most once and in any order, or as an array with the fields
  in their order. A field that is not there keeps its default. What follows the record is not
  read.
-/
import SchemaCompiler.Json.Document
import SchemaCompiler.Settings.Basic
import SchemaCompiler.Settings.Error

namespace SchemaCompiler

namespace Settings

/-! ## 1. Spots -/

/-- The text left to read, and the place before it. -/
structure Spot where
  rest : List Char
  place : Place
  deriving DecidableEq, Repr

/-- Reads something off the front of the text. -/
abbrev SpotReader (α : Type) : Type := Spot → Except Error (α × Spot)

namespace Spot

/-- The spot after a number of characters. -/
def advance (s : Spot) (count : Nat) : Spot :=
  ⟨s.rest.drop count, s.place.after (s.rest.take count)⟩

/-- The spot after the blanks. -/
def skipBlanks (s : Spot) : Spot := s.advance (s.rest.takeWhile Cursor.isBlank).length

/-- An error about what has been read. -/
def fail (s : Spot) (cause : Cause) : Error := ⟨[], cause, s.place⟩

/-- An error about the next byte, which counts as read. -/
def failAtNext (s : Spot) (cause : Cause) : Error := ⟨[], cause, s.place.afterByte s.rest⟩

end Spot

/-! ## 2. Single values -/

/-- The letters of a word. -/
def readLetters : List Char → SpotReader Unit
  | [], s => .ok ((), s)
  | letter :: letters, s =>
    match s.rest with
    | [] => .error (s.fail (.endOfText .value))
    | c :: _ =>
      if c = letter then readLetters letters (s.advance 1) else .error (s.failAtNext .wordDue)

/-- A word that stands for a value. -/
def readWord (word : Word) (found : Found) : SpotReader Found := fun s => do
  let ((), s) ← readLetters word.name.toList s
  .ok (found, s)

/-- A number. -/
def readNumber : SpotReader Found := fun s =>
  match Numeral.scan s.rest with
  | .error e =>
    let unread := s.advance (s.rest.length - e.unread.length)
    .error <| match e.fault with
      | .malformed => unread.failAtNext .invalidNumber
      | .endOfText => unread.failAtNext (.endOfText .value)
  | .ok (numeral, rest) =>
    let taken := s.rest.length - rest.length
    match numeral.approximate with
    | .ok n => .ok (.number n, s.advance taken)
    | .error unread => .error ((s.advance (taken - unread)).fail .numberOutOfRange)

/-- A string, at its opening quote. -/
def readString : SpotReader String := fun s =>
  match unquote (s.place.skip 1) (s.rest.drop 1) with
  | .error e => .error ⟨[], .badString e.fault, e.place⟩
  | .ok (text, rest) => .ok (String.ofList text, s.advance (s.rest.length - rest.length))

/-- The value that comes next. Of an array or an object nothing is read. -/
def readFound : SpotReader Found := fun s =>
  match s.rest with
  | [] => .error (s.fail (.endOfText .value))
  | c :: _ =>
    if c = 'n' then readWord .null .null s
    else if c = 't' then readWord .true (.boolean true) s
    else if c = 'f' then readWord .false (.boolean false) s
    else if c = '-' || isDigit c then readNumber s
    else if c = '"' then do
      let (text, s) ← readString s
      .ok (.string text, s)
    else if c = '[' then .ok (.sequence, s)
    else if c = '\x7b' then .ok (.map, s)
    else .error (s.failAtNext .valueDue)

/-- A value of the kind that `pick` accepts. -/
def readAs {α : Type} (expected : String) (pick : Found → Option α) : SpotReader α := fun s => do
  let (found, s) ← readFound s.skipBlanks
  match pick found with
  | some value => .ok (value, s)
  | none => .error (s.fail (.wrongType found expected))

def readBoolean : SpotReader Bool :=
  readAs "a boolean" fun
    | .boolean b => some b
    | _ => none

def readText : SpotReader String :=
  readAs "a string" fun
    | .string text => some text
    | _ => none

/-! ## 3. Records -/

/-- A named part of a record, and how its value is read into the record. -/
structure Field (σ : Type) where
  name : String
  read : σ → SpotReader σ

/-- How a record is written. -/
structure Format (σ : Type) where
  title : String
  fields : List (Field σ)

/-- Whether one more element follows in an array. -/
def hasElement (first : Bool) (s : Spot) : Except Error (Bool × Spot) :=
  let s := s.skipBlanks
  match s.rest with
  | [] => .error (s.failAtNext (.endOfText .list))
  | ']' :: _ => .ok (false, s)
  | c :: _ =>
    if first then .ok (true, s)
    else if c = ',' then
      let s := (s.advance 1).skipBlanks
      match s.rest with
      | [] => .error (s.failAtNext (.endOfText .value))
      | ']' :: _ => .error (s.failAtNext .trailingComma)
      | _ => .ok (true, s)
    else .error (s.failAtNext .commaOrBracketDue)

/-- The end of an array. -/
def readListEnd (s : Spot) : Except Error Spot :=
  let s := s.skipBlanks
  match s.rest with
  | [] => .error (s.failAtNext (.endOfText .list))
  | ']' :: _ => .ok (s.advance 1)
  | ',' :: _ =>
    let s := (s.advance 1).skipBlanks
    .error (s.failAtNext (if s.rest.head? = some ']' then .trailingComma else .trailingCharacters))
  | _ => .error (s.failAtNext .trailingCharacters)

/-- The elements of an array, the first of them at `index`, into the fields of a record. -/
def readElements {σ : Type} (index : Nat) : List (Field σ) → σ → SpotReader σ
  | [], record, s => do
    let s ← readListEnd s
    .ok (record, s)
  | field :: fields, record, s => do
    let (more, s) ← hasElement (index = 0) s
    if more then
      let (record, s) ← (field.read record s).mapError (Error.under (.index index))
      readElements (index + 1) fields record s
    else
      let s ← readListEnd s
      .ok (record, s)

/-- Whether one more member follows in an object. -/
def hasMember (first : Bool) (s : Spot) : Except Error (Bool × Spot) :=
  let s := s.skipBlanks
  match s.rest with
  | [] => .error (s.failAtNext (.endOfText .object))
  | '\x7d' :: _ => .ok (false, s)
  | c :: _ =>
    if first then
      if c = '"' then .ok (true, s) else .error (s.failAtNext .keyNotString)
    else if c = ',' then
      let s := (s.advance 1).skipBlanks
      match s.rest with
      | [] => .error (s.failAtNext (.endOfText .value))
      | '"' :: _ => .ok (true, s)
      | '\x7d' :: _ => .error (s.failAtNext .trailingComma)
      | _ => .error (s.failAtNext .keyNotString)
    else .error (s.failAtNext .commaOrBraceDue)

/-- The key of the next member, or `none` at the end of the object. -/
def readKey (first : Bool) (s : Spot) : Except Error (Option String × Spot) := do
  let (more, s) ← hasMember first s
  if more then
    let (key, s) ← readString s
    .ok (some key, s)
  else .ok (none, s.advance 1)

/-- The colon after a key. -/
def readColon (s : Spot) : Except Error Spot :=
  let s := s.skipBlanks
  match s.rest with
  | [] => .error (s.failAtNext (.endOfText .object))
  | ':' :: _ => .ok (s.advance 1)
  | _ => .error (s.failAtNext .colonDue)

/-- A key that is refused. The blanks after it count as read, and so does a closing brace. -/
def refuseKey {σ : Type} (format : Format σ) (key : String) (s : Spot) : Error :=
  let s := s.skipBlanks
  let s := if s.rest.head? = some '\x7d' then s.advance 1 else s
  let names := format.fields.map Field.name
  if names.contains key then s.fail (.duplicateField key)
  else (s.fail (.unknownField key names)).under (.key key)

/-- The field with a name. -/
def field? {σ : Type} (key : String) (fields : List (Field σ)) : Option (Field σ) :=
  fields.find? fun field => field.name = key

/-- The fields with other names. -/
def otherFields {σ : Type} (key : String) (fields : List (Field σ)) : List (Field σ) :=
  fields.filter fun field => field.name ≠ key

theorem otherFields_length {σ : Type} {key : String} {fields : List (Field σ)} {field : Field σ}
    (h : field? key fields = some field) : (otherFields key fields).length < fields.length := by
  refine List.length_filter_lt_length_iff_exists.2 ⟨field, List.mem_of_find?_eq_some h, ?_⟩
  have := List.find?_some h
  simpa using this

/-- The members of an object, into the fields of a record. The fields that have not come yet are
    `unseen`. -/
def readMembers {σ : Type} (format : Format σ) (unseen : List (Field σ)) (first : Bool)
    (record : σ) (s : Spot) : Except Error (σ × Spot) := do
  match ← (readKey first s).mapError (Error.under .unreadable) with
  | (none, s) => .ok (record, s)
  | (some key, s) =>
    match _h : field? key unseen with
    | none => .error (refuseKey format key s)
    | some field =>
      let s ← readColon s
      let (record, s) ← (field.read record s).mapError (Error.under (.key key))
      readMembers format (otherFields key unseen) false record s
termination_by unseen.length
decreasing_by exact otherFields_length _h

/-- A record; the fields that are not there keep the values of `start`. -/
def readRecord {σ : Type} (format : Format σ) (start : σ) : SpotReader σ := fun s =>
  let s := s.skipBlanks
  match s.rest with
  | '[' :: _ => readElements 0 format.fields start (s.advance 1)
  | '\x7b' :: _ => readMembers format format.fields true start (s.advance 1)
  | _ => readAs format.title (fun _ => none) s

/-! ## 4. Settings -/

/-- A field with a value of its own reader. -/
def fieldOf {σ α : Type} (name : String) (read : SpotReader α) (set : σ → α → σ) : Field σ where
  name := name
  read record s := do
    let (value, s) ← read s
    .ok (set record value, s)

def importsFormat : Format Imports where
  title := "struct Imports"
  fields :=
    [fieldOf "superstruct" readText fun imports source => { imports with combinators := source },
     fieldOf "std" readText fun imports source => { imports with helpers := source }]

def format : Format Settings where
  title := "struct Config"
  fields :=
    [fieldOf "optimize" readBoolean fun settings b => { settings with optimize := b },
     fieldOf "rootName" readText fun settings name => { settings with rootName := name },
     fieldOf "imports" (readRecord importsFormat .default)
       fun settings imports => { settings with imports := imports }]

/-- The settings that a text holds. -/
def read (text : String) : Except Error Settings :=
  (readRecord format .default ⟨text.toList, .origin⟩).map Prod.fst

end Settings

end SchemaCompiler
