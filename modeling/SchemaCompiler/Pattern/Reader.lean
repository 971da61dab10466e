/-
  File:      SchemaCompiler/Pattern/Reader.lean
  Subject:   Reading a regular expression into its syntax tree.

  Every reader takes a flag `verbose` and the text left; in verbose mode blanks and comments
  between the parts are skipped. A reader that fails gives `none`: which rule a text breaks is
  never asked. The two readers that nest (classes and groups) take as fuel the length of the
  text, of which each step reads at least one character.
-/
import SchemaCompiler.Pattern.Basic
import SchemaCompiler.Text.Letters

namespace SchemaCompiler

namespace Pattern

/-! ## 1. Blanks -/

/-- White space beyond ASCII and within. -/
def isWhiteSpace (c : Char) : Bool :=
  inRanges [(0x9, 0xd), (0x20, 0x20), (0x85, 0x85), (0xa0, 0xa0), (0x1680, 0x1680),
    (0x2000, 0x200a), (0x2028, 0x2029), (0x202f, 0x202f), (0x205f, 0x205f), (0x3000, 0x3000)]
    c.toNat

/-- The text after blanks and comments; a comment runs from a number sign to the line end. -/
def skipComments : Bool → List Char → List Char
  | _, [] => []
  | true, c :: rest => skipComments (c ≠ '\n') rest
  | false, c :: rest =>
    if isWhiteSpace c then skipComments false rest
    else if c = '#' then skipComments true rest
    else c :: rest

/-- The text after what verbose mode skips. -/
def skip (verbose : Bool) (text : List Char) : List Char :=
  if verbose then skipComments false text else text

/-- The character that follows in a class after one character is passed. Blanks are passed too in
    verbose mode, and the mark of one comment. -/
def peekAfter (verbose : Bool) (text : List Char) : Option Char :=
  match text with
  | [] => none
  | _ :: rest =>
    if verbose then
      match rest.dropWhile isWhiteSpace with
      | '#' :: more => (more.dropWhile isWhiteSpace).head?
      | more => more.head?
    else rest.head?

/-! ## 2. Escapes -/

/-- What an escape or a single character stands for. -/
inductive Primitive where
  | literal (l : Literal)
  | dot
  | assertion
  | shorthand (letter : Char)
  | property (query : PropertyQuery)
  deriving Repr

def Primitive.toRegex : Primitive → Regex
  | .literal l => .literal l
  | .dot => .dot
  | .assertion => .assertion
  | .shorthand letter => .shorthand letter
  | .property query => .property query

/-- A single character or a class, as part of a bracketed class. -/
def Primitive.toSet? : Primitive → Option CharSet
  | .literal l => some (.literal l)
  | .shorthand letter => some (.shorthand letter)
  | .property query => some (.property query)
  | .dot | .assertion => none

/-- The character with a code, if there is one. -/
def charOfCode? (code : Nat) : Option Char :=
  if Nat.isValidChar code then some (Char.ofNat code) else none

/-- Exactly `count` hexadecimal digits. -/
def readHexDigits (verbose : Bool) : Nat → List Char → Option (List Char × List Char)
  | 0, text => some ([], text)
  | count + 1, text =>
    match text with
    | [] => none
    | c :: rest =>
      if isHexDigit c then
        (readHexDigits verbose count (skip verbose rest)).map fun (more, rest) => (c :: more, rest)
      else none

/-- The characters up to a closing brace, less what verbose mode skips; the brace is read too. -/
def readBraced (verbose : Bool) (text : List Char) : Option (List Char × List Char) :=
  let kept := if verbose then dropSkipped false text else text
  match kept.dropWhile (· ≠ '\x7d') with
  | [] => none
  | _ :: rest => some (kept.takeWhile (· ≠ '\x7d'), rest)
where
  /-- The text up to its first closing brace without blanks and comments, and all after it. -/
  dropSkipped : Bool → List Char → List Char
    | _, [] => []
    | true, c :: rest => dropSkipped (c ≠ '\n') rest
    | false, c :: rest =>
      if isWhiteSpace c then dropSkipped false rest
      else if c = '#' then dropSkipped true rest
      else if c = '\x7d' then c :: rest
      else c :: dropSkipped false rest

/-- A character by its code, read after the letter `x`, `u` or `U`: the digits of the letter's
    number, or any number of digits in braces. -/
def readHexEscape (verbose : Bool) (letter : Char) (text : List Char) :
    Option (Literal × List Char) :=
  match skip verbose text with
  | '\x7b' :: rest => do
    let (digits, rest) ← readBraced verbose rest
    if digits.isEmpty || !digits.all isHexDigit then none
    else
      let c ← charOfCode? (digitsValue 16 digits)
      some (⟨c, false⟩, skip verbose rest)
  | rest => do
    let count := if letter = 'x' then 2 else if letter = 'u' then 4 else 8
    let (digits, rest) ← readHexDigits verbose count rest
    let c ← charOfCode? (digitsValue 16 digits)
    some (⟨c, letter = 'x'⟩, rest)

/-- Splits the text in the braces of a property: at `!=`, else at the first colon, else at the
    first equals sign. -/
def splitQuery (text : List Char) : PropertyQuery :=
  let rec atUnequal : List Char → Option (List Char × List Char)
    | '!' :: '=' :: rest => some ([], rest)
    | [] => none
    | c :: rest => (atUnequal rest).map fun (name, value) => (c :: name, value)
  let at? (mark : Char) : Option (List Char × List Char) :=
    if text.contains mark then
      some (text.takeWhile (· ≠ mark), (text.dropWhile (· ≠ mark)).drop 1)
    else none
  match (atUnequal text).or ((at? ':').or (at? '=')) with
  | some (name, value) => ⟨name, some value⟩
  | none => ⟨text, none⟩

/-- A property, read after the letter `p` or `P`. -/
def readProperty (verbose : Bool) (text : List Char) : Option (PropertyQuery × List Char) :=
  match skip verbose text with
  | [] => none
  | '\x7b' :: rest => (readBraced verbose rest).map fun (name, rest) => (splitQuery name, rest)
  | c :: rest => if c = '\\' then none else some (⟨[c], none⟩, skip verbose rest)

def isBoundaryChar (c : Char) : Bool := isAsciiLetter c || c = '-'

/-- The letters of a word boundary's name. -/
def readBoundaryName (verbose : Bool) : Nat → List Char → List Char × List Char
  | 0, text => ([], text)
  | fuel + 1, text =>
    match text with
    | [] => ([], [])
    | c :: rest =>
      if isBoundaryChar c then
        let (name, rest) := readBoundaryName verbose fuel (skip verbose rest)
        (c :: name, rest)
      else ([], c :: rest)

/-- What may follow `\b`: a name in braces that says which half of a boundary is meant. Braces
    that hold no name are left for a repetition. -/
def readBoundary (verbose : Bool) (text : List Char) : Option (List Char) :=
  match text with
  | '\x7b' :: rest =>
    match skip verbose rest with
    | [] => none
    | c :: more =>
      if isBoundaryChar c then
        match readBoundaryName verbose (more.length + 1) (c :: more) with
        | (name, '\x7d' :: rest) =>
          if ["start", "end", "start-half", "end-half"].contains (String.ofList name) then
            some rest
          else none
        | _ => none
      else some text
  | _ => some text

/-- Characters with a meaning of their own, which an escape takes away. -/
def isMeta (c : Char) : Bool := "\\.+*?()|[]\x7b\x7d^$#&-~".toList.contains c

/-- Characters that an escape may stand before without a meaning. -/
def isEscapable (c : Char) : Bool :=
  isMeta c || (isAscii c && !isAsciiLetter c && !isDigit c && c ≠ '<' && c ≠ '>')

/-- The letters that stand for a control character. -/
def controlLetter? (c : Char) : Option Char :=
  if c = 'a' then some '\x07'
  else if c = 'f' then some '\x0c'
  else if c = 't' then some '\t'
  else if c = 'n' then some '\n'
  else if c = 'r' then some '\r'
  else if c = 'v' then some '\x0b'
  else none

/-- An escape, read after its backslash. -/
def readEscape (verbose : Bool) (text : List Char) : Option (Primitive × List Char) :=
  match text with
  | [] => none
  | c :: rest =>
    if c = 'x' ∨ c = 'u' ∨ c = 'U' then
      (readHexEscape verbose c rest).map fun (l, rest) => (.literal l, rest)
    else if c = 'p' ∨ c = 'P' then
      (readProperty verbose rest).map fun (query, rest) => (.property query, rest)
    else if "dswDSW".toList.contains c then some (.shorthand c, rest)
    else if isEscapable c then some (.literal ⟨c, false⟩, rest)
    else if c = 'b' then (readBoundary verbose rest).map fun rest => (.assertion, rest)
    else if "AzB<>".toList.contains c then some (.assertion, rest)
    else (controlLetter? c).map fun control => (.literal ⟨control, false⟩, rest)

/-! ## 3. Classes -/

/-- The names of the ASCII classes. -/
def asciiClassNames : List String :=
  ["alnum", "alpha", "ascii", "blank", "cntrl", "digit", "graph", "lower", "print", "punct",
    "space", "upper", "word", "xdigit"]

/-- A named ASCII class, read after its opening bracket: whether it is negated, and the rest. -/
def readAsciiClass (text : List Char) : Option (Bool × List Char) :=
  match text with
  | ':' :: rest =>
    let negated := rest.head? = some '^'
    let rest := if negated then rest.drop 1 else rest
    let name := rest.takeWhile (· ≠ ':')
    match rest.dropWhile (· ≠ ':') with
    | ':' :: ']' :: after =>
      if asciiClassNames.contains (String.ofList name) then some (negated, after) else none
    | _ => none
  | _ => none

/-- The union of some sets. -/
def unionOf : List CharSet → CharSet
  | [] => .empty
  | [set] => set
  | sets => .union sets

/-- An operation that waits for its right side. -/
abbrev Waiting := Option (SetOperation × CharSet)

/-- The sets read so far, with the operation that waited for them. -/
def closeOperation (waiting : Waiting) (sets : List CharSet) : CharSet :=
  match waiting with
  | none => unionOf sets
  | some (op, left) => .operation op left (unionOf sets)

/-- One character of a class, escaped or not. -/
def readClassItem (verbose : Bool) : List Char → Option (Primitive × List Char)
  | [] => none
  | '\\' :: rest => readEscape verbose rest
  | c :: rest => some (.literal ⟨c, false⟩, rest)

/-- One character or range of a class. A hyphen before the closing bracket or before another
    hyphen makes no range. -/
def readClassRange (verbose : Bool) (text : List Char) : Option (CharSet × List Char) := do
  let (first, rest) ← readClassItem verbose text
  let rest := skip verbose rest
  match rest with
  | [] => none
  | c :: more =>
    let next := peekAfter verbose rest
    if c ≠ '-' ∨ next = some ']' ∨ next = some '-' then
      (first.toSet?).map fun set => (set, rest)
    else
      let (last, rest) ← readClassItem verbose (skip verbose more)
      match first, last with
      | .literal a, .literal b =>
        if a.char ≤ b.char then some (.range a b, rest) else none
      | _, _ => none

/-- The hyphens that stand first in a class, for themselves. -/
def readHyphens (verbose : Bool) : Nat → List Char → List CharSet × List Char
  | 0, text => ([], text)
  | fuel + 1, text =>
    match text with
    | '-' :: rest =>
      let (sets, rest) := readHyphens verbose fuel (skip verbose rest)
      (.literal ⟨'-', false⟩ :: sets, rest)
    | text => ([], text)

/-- The front of a class after its opening bracket: whether it is negated, what stands first for
    itself (hyphens, or one closing bracket), and the rest. -/
def readClassFront (verbose : Bool) (text : List Char) :
    Option (Bool × List CharSet × List Char) :=
  let text := skip verbose text
  let negated := text.head? = some '^'
  let text := if negated then skip verbose (text.drop 1) else text
  let (hyphens, text) := readHyphens verbose text.length text
  match hyphens, text with
  | _, [] => none
  | [], ']' :: rest =>
    let rest := skip verbose rest
    if rest.isEmpty then none else some (negated, [.literal ⟨']', false⟩], rest)
  | sets, text => some (negated, sets, text)

/-- The operation that two equal characters at the front stand for. -/
def setOperation? : List Char → Option SetOperation
  | '&' :: '&' :: _ => some .intersection
  | '-' :: '-' :: _ => some .difference
  | '~' :: '~' :: _ => some .symmetricDifference
  | _ => none

mutual

/-- A class, read after its opening bracket. -/
def readClass (verbose : Bool) : Nat → List Char → Option (CharSet × List Char)
  | 0, _ => none
  | fuel + 1, text => do
    let (negated, front, rest) ← readClassFront verbose text
    let (set, rest) ← readClassBody verbose fuel none front rest
    some (.bracketed negated set, rest)

/-- The parts of a class up to its closing bracket, which is read too. -/
def readClassBody (verbose : Bool) :
    Nat → Waiting → List CharSet → List Char → Option (CharSet × List Char)
  | 0, _, _, _ => none
  | fuel + 1, waiting, sets, text =>
    match skip verbose text with
    | [] => none
    | ']' :: rest => some (closeOperation waiting sets, rest)
    | '[' :: rest =>
      match readAsciiClass rest with
      | some (negated, rest) => readClassBody verbose fuel waiting (sets ++ [.named negated]) rest
      | none => do
        let (set, rest) ← readClass verbose fuel rest
        readClassBody verbose fuel waiting (sets ++ [set]) rest
    | text =>
      match setOperation? text with
      | some op =>
        readClassBody verbose fuel (some (op, closeOperation waiting sets)) [] (text.drop 2)
      | none => do
        let (set, rest) ← readClassRange verbose text
        readClassBody verbose fuel waiting (sets ++ [set]) rest

end

/-! ## 4. Repetitions -/

/-- A run of digits; verbose mode skips after each of them. -/
def readDigits (verbose : Bool) : Nat → List Char → List Char × List Char
  | 0, text => ([], text)
  | fuel + 1, text =>
    match text with
    | [] => ([], [])
    | c :: rest =>
      if isDigit c then
        let (digits, rest) := readDigits verbose fuel (skip verbose rest)
        (c :: digits, rest)
      else ([], c :: rest)

/-- A decimal number of at most 32 bits, with blanks around it. -/
def readCount (verbose : Bool) (text : List Char) : Option (Nat × List Char) :=
  let (digits, rest) := readDigits verbose text.length (text.dropWhile isWhiteSpace)
  let value := digitsValue 10 digits
  if digits.isEmpty || 4294967296 ≤ value then none
  else some (value, skip verbose (rest.dropWhile isWhiteSpace))

/-- The bounds of a repetition, read after the opening brace; the closing one is read too. -/
def readBounds (verbose : Bool) (text : List Char) : Option (Repetition × List Char) := do
  let (least, rest) ← readCount verbose (skip verbose text)
  match rest with
  | '\x7d' :: rest => some (⟨least, some least⟩, rest)
  | ',' :: rest =>
    match skip verbose rest with
    | '\x7d' :: rest => some (⟨least, none⟩, rest)
    | rest =>
      let (most, rest) ← readCount verbose rest
      match rest with
      | '\x7d' :: rest => if least ≤ most then some (⟨least, some most⟩, rest) else none
      | _ => none
  | _ => none

/-- The text after the question mark that makes a repetition lazy. -/
def skipLazy : List Char → List Char
  | '?' :: rest => rest
  | text => text

/-- Repeats the last of the parts read, which stand in reverse. Nothing repeats a change of
    flags. -/
def repeatLast (times : Repetition) : List Regex → Option (List Regex)
  | [] => none
  | .flags _ :: _ => none
  | last :: parts => some (.repeated last times :: parts)

/-! ## 5. Groups -/

/-- What a group begins with. -/
inductive GroupHead where
  | group (kind : GroupKind)
  /-- No group, but a change of flags. -/
  | change (change : FlagChange)
  deriving Repr

/-- Flags up to a colon or a closing parenthesis, which is given too. A minus sign clears the
    flags after it; it may stand once, not last, and no flag twice. -/
def readFlags (set : Bool) (seen : FlagChange) : List Char → Option (FlagChange × Char × List Char)
  | [] => none
  | c :: rest =>
    if c = ':' ∨ c = ')' then some (seen, c, rest)
    else if c = '-' then
      match set, rest with
      | true, d :: _ => if d = ':' ∨ d = ')' then none else readFlags false seen rest
      | _, _ => none
    else
      match Flag.ofLetter? c with
      | none => none
      | some flag =>
        if (seen.lookup flag).isSome then none else readFlags set (seen ++ [(flag, set)]) rest

/-- Whether a character may stand in the name of a group. -/
def isNameChar (first : Bool) (c : Char) : Bool :=
  if first then c = '_' || Tabulated.isAlphabetic c
  else c = '_' || c = '.' || c = '[' || c = ']' || Alphabet.tabulated.isAlphanumeric c

/-- The name of a group, read after the opening angle bracket; the closing one is read too. -/
def readGroupName (text : List Char) : Option (List Char × List Char) :=
  match text.takeWhile (· ≠ '>'), text.dropWhile (· ≠ '>') with
  | first :: more, _ :: rest =>
    if isNameChar true first && more.all (isNameChar false) then some (first :: more, rest)
    else none
  | _, _ => none

/-- The head of a group, read after its opening parenthesis. Looking around is refused. -/
def readGroupHead (verbose : Bool) (text : List Char) : Option (GroupHead × List Char) :=
  match skip verbose text with
  | '?' :: '=' :: _ => none
  | '?' :: '!' :: _ => none
  | '?' :: '<' :: '=' :: _ => none
  | '?' :: '<' :: '!' :: _ => none
  | '?' :: 'P' :: '<' :: rest | '?' :: '<' :: rest =>
    (readGroupName rest).map fun (name, rest) => (.group (.captured (some name)), rest)
  | '?' :: rest =>
    match readFlags true [] rest with
    | some (change, ':', rest) => some (.group (.scoped change), rest)
    | some ([], _, _) => none
    | some (change, _, rest) => some (.change change, rest)
    | none => none
  | text => some (.group (.captured none), text)

/-- The concatenation of parts that stand in reverse. -/
def concatenate : List Regex → Regex
  | [] => .empty
  | [part] => part
  | parts => .concatenation parts.reverse

/-- The alternation of the branches read, which stand in reverse, and the last one. -/
def alternate (branches : List Regex) (last : Regex) : Regex :=
  if branches.isEmpty then last else .alternation (branches.reverse ++ [last])

/-- The parts of a group up to its closing parenthesis or the end of the text, neither read. The
    branches and the parts of the present branch stand in reverse. -/
def readParts : Nat → (verbose : Bool) → (branches parts : List Regex) → List Char →
    Option (Regex × List Char)
  | 0, _, _, _, _ => none
  | fuel + 1, verbose, branches, parts, text =>
    match skip verbose text with
    | [] => some (alternate branches (concatenate parts), [])
    | c :: rest =>
      if c = ')' then some (alternate branches (concatenate parts), c :: rest)
      else if c = '|' then readParts fuel verbose (concatenate parts :: branches) [] rest
      else if c = '(' then do
        match ← readGroupHead verbose rest with
        | (.group kind, rest) =>
          match ← readParts fuel (kind.change.apply .verbose verbose) [] [] rest with
          | (r, ')' :: rest) => readParts fuel verbose branches (.group kind r :: parts) rest
          | _ => none
        | (.change change, rest) =>
          readParts fuel (change.apply .verbose verbose) branches (.flags change :: parts) rest
      else if c = '[' then do
        let (set, rest) ← readClass verbose fuel rest
        let part ← match set with
          | .bracketed negated inner => some (.bracketed negated inner)
          | _ => none
        readParts fuel verbose branches (part :: parts) rest
      else if c = '?' then do
        readParts fuel verbose branches (← repeatLast ⟨0, some 1⟩ parts) (skipLazy rest)
      else if c = '*' then do
        readParts fuel verbose branches (← repeatLast ⟨0, none⟩ parts) (skipLazy rest)
      else if c = '+' then do
        readParts fuel verbose branches (← repeatLast ⟨1, none⟩ parts) (skipLazy rest)
      else if c = '\x7b' then do
        let (times, rest) ← readBounds verbose rest
        readParts fuel verbose branches (← repeatLast times parts) (skipLazy (skip verbose rest))
      else if c = '\\' then do
        let (primitive, rest) ← readEscape verbose rest
        readParts fuel verbose branches (primitive.toRegex :: parts) rest
      else
        let part : Regex :=
          if c = '.' then .dot else if c = '^' ∨ c = '$' then .assertion else .literal ⟨c, false⟩
        readParts fuel verbose branches (part :: parts) rest

/-- Reads a regular expression, all of it. -/
def Regex.read? (text : List Char) : Option Regex :=
  match readParts (text.length + 1) false [] [] text with
  | some (r, []) => some r
  | _ => none

end Pattern

end SchemaCompiler
