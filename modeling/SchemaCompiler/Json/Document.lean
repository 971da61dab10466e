/-
  File:      SchemaCompiler/Json/Document.lean
  Subject:   Reading a JSON document into its syntax tree.

  `Node.parse` reads one value between blanks. Arrays and objects may nest `depthLimit` deep. A
  reader takes a cursor and gives what it read with the cursor after it, which has strictly less
  text left (`Shorter`); so the loops over items and members end, and the nesting of values is
  bounded by a budget that each bracket spends one of.
-/
import SchemaCompiler.Json.Node
import SchemaCompiler.Json.Numeral

namespace SchemaCompiler

/-! ## 1. Syntax errors -/

/-- The words of JSON. -/
inductive Word where
  | true | false | null
  deriving DecidableEq, Repr

def Word.name : Word → String
  | .true => "true"
  | .false => "false"
  | .null => "null"

/-- Why a text is no JSON document. -/
inductive SyntaxCause where
  | unexpectedCharacter
  | unexpectedEnd
  | trailingCharacters
  | tooDeep
  | wordDue (word : Word)
  | nameDue
  | colonDue
  | commaOrBracketDue
  | commaOrBraceDue
  | controlCharacter
  | unterminatedString
  | badString (error : StringError)
  | badNumber (token : String)
  deriving DecidableEq, Repr

def SyntaxCause.message : SyntaxCause → String
  | .unexpectedCharacter => "unexpected character"
  | .unexpectedEnd => "unexpected end of input"
  | .trailingCharacters => "unexpected trailing characters after JSON value"
  | .tooDeep => "recursion limit exceeded"
  | .wordDue word => "expected `" ++ word.name ++ "`"
  | .nameDue => "expected property name"
  | .colonDue => "expected `:`"
  | .commaOrBracketDue => "expected `,` or `]`"
  | .commaOrBraceDue => "expected `,` or `\x7d`"
  | .controlCharacter => "control character in string"
  | .unterminatedString => "unterminated string"
  | .badString error =>
    "invalid string: " ++ error.fault.message ++ " at line " ++ toString error.place.line ++
      " column " ++ toString error.place.column
  | .badNumber token => "invalid number `" ++ token ++ "`"

/-- A cause and where it was met. -/
structure SyntaxError where
  cause : SyntaxCause
  span : Span
  deriving DecidableEq, Repr

/-! ## 2. Cursors -/

/-- The text left to read, and the bytes before it. -/
structure Cursor where
  rest : List Char
  offset : Nat
  deriving DecidableEq, Repr

/-- The cursors with strictly less text left. -/
abbrev Shorter (c : Cursor) : Type := { d : Cursor // d.rest.length < c.rest.length }

/-- Reads something off the front of the text. -/
abbrev Reader (α : Type) : Type := (c : Cursor) → Except SyntaxError (α × Shorter c)

namespace Cursor

def isBlank (c : Char) : Bool := c = ' ' || c = '\t' || c = '\n' || c = '\r'

/-- The cursor after the blanks. -/
def skipBlanks (c : Cursor) : Cursor :=
  ⟨c.rest.dropWhile isBlank, c.offset + (c.rest.takeWhile isBlank).length⟩

theorem skipBlanks_length (c : Cursor) : c.skipBlanks.rest.length ≤ c.rest.length :=
  (List.dropWhile_sublist _).length_le

/-- An error at the next byte, or at the end of the text. -/
def fail (c : Cursor) (cause : SyntaxCause) : SyntaxError :=
  ⟨cause, ⟨c.offset, if c.rest.isEmpty then c.offset else c.offset + 1⟩⟩

/-- The span from a cursor to a later offset. -/
def spanTo (c : Cursor) (stop : Nat) : Span := ⟨c.offset, stop⟩

end Cursor

/-! ## 3. Scalars -/

/-- One mark that is due. -/
def readMark (mark : Char) (due : SyntaxCause) : Reader Unit := fun c =>
  match h : c.rest with
  | [] => .error (c.fail due)
  | first :: rest =>
    if first = mark then .ok ((), ⟨⟨rest, c.offset + 1⟩, by simp [h]⟩) else .error (c.fail due)

/-- A word, at its first letter. -/
def readWord (word : Word) (node : Span → Node) : Reader Node := fun c =>
  let letters := word.name.toList
  if h : letters.isPrefixOf c.rest ∧ letters ≠ [] then
    let stop := c.offset + letters.length
    .ok (node (c.spanTo stop),
      ⟨⟨c.rest.drop letters.length, stop⟩, by
        have len : 0 < letters.length := List.length_pos_iff.2 h.2
        have := (List.isPrefixOf_iff_prefix.1 h.1).length_le
        simp only [List.length_drop]; omega⟩)
  else .error (c.fail (.wordDue word))

def isNumberChar (c : Char) : Bool :=
  c = '-' || c = '+' || c = '.' || c = 'e' || c = 'E' || isDigit c

/-- A number, at its sign or first digit: the longest run of the characters numbers are made of
    has to be a numeral. -/
def readNumber : Reader Node := fun c =>
  match h : c.rest with
  | [] => .error (c.fail .unexpectedEnd)
  | first :: rest =>
    let token := first :: rest.takeWhile isNumberChar
    let stop := c.offset + byteLength token
    match Numeral.ofToken? token with
    | some numeral =>
      .ok (.number numeral.value (c.spanTo stop),
        ⟨⟨rest.dropWhile isNumberChar, stop⟩, by
          have := (List.dropWhile_sublist (l := rest) isNumberChar).length_le
          simp only [h, List.length_cons]; omega⟩)
    | none => .error ⟨.badNumber (String.ofList token), c.spanTo stop⟩

theorem scanQuoted_length {text token rest : List Char}
    (h : scanQuoted text = .closed token rest) : rest.length < text.length := by
  fun_induction scanQuoted text generalizing token with
  | case1 => simp at h
  | case2 => cases h; simp
  | case3 => simp at h
  | case4 c tail ih =>
    cases hs : scanQuoted tail with
    | closed token' rest' =>
      rw [hs] at h
      simp only [QuotedScan.push, QuotedScan.closed.injEq] at h
      have := ih (h.2 ▸ hs)
      simp only [List.length_cons]; omega
    | control => rw [hs] at h; simp [QuotedScan.push] at h
    | unterminated => rw [hs] at h; simp [QuotedScan.push] at h
  | case5 => simp at h
  | case6 c tail _ _ _ _ ih =>
    cases hs : scanQuoted tail with
    | closed token' rest' =>
      rw [hs] at h
      simp only [QuotedScan.push, QuotedScan.closed.injEq] at h
      have := ih (h.2 ▸ hs)
      simp only [List.length_cons]; omega
    | control => rw [hs] at h; simp [QuotedScan.push] at h
    | unterminated => rw [hs] at h; simp [QuotedScan.push] at h

/-- A string token, read after its opening quote: its value and its span. -/
def readString (start : Nat) : Reader (String × Span) := fun c =>
  match h : scanQuoted c.rest with
  | .closed token rest =>
    let stop := c.offset + byteLength token
    match unquote ⟨1, 1⟩ token with
    | .ok (decoded, _) =>
      .ok ((String.ofList decoded, ⟨start, stop⟩), ⟨⟨rest, stop⟩, scanQuoted_length h⟩)
    | .error error => .error ⟨.badString error, ⟨start, stop⟩⟩
  | .control front =>
    let offset := c.offset + byteLength front
    .error ⟨.controlCharacter, ⟨offset, offset + 1⟩⟩
  | .unterminated => .error ⟨.unterminatedString, ⟨start, c.offset + byteLength c.rest⟩⟩

/-! ## 4. Arrays and objects -/

/-- One part or more with commas between them, up to the closing bracket, which is read too. -/
def readParts {α : Type} (closing : Char) (due : SyntaxCause) (part : Reader α) (c : Cursor) :
    Except SyntaxError (List α × Shorter c) :=
  match part c.skipBlanks with
  | .error e => .error e
  | .ok (first, ⟨afterFirst, shorter⟩) =>
    match h : afterFirst.skipBlanks.rest with
    | [] => .error (afterFirst.skipBlanks.fail due)
    | mark :: rest =>
      have bound : rest.length + 1 < c.rest.length := by
        have := afterFirst.skipBlanks_length
        have := c.skipBlanks_length
        simp only [h, List.length_cons] at *; omega
      let next : Cursor := ⟨rest, afterFirst.skipBlanks.offset + 1⟩
      if mark = ',' then
        match readParts closing due part next with
        | .error e => .error e
        | .ok (parts, ⟨last, less⟩) =>
          .ok (first :: parts, ⟨last, by simp only [next] at less; omega⟩)
      else if mark = closing then .ok ([first], ⟨next, by simp only [next]; omega⟩)
      else .error (afterFirst.skipBlanks.fail due)
termination_by c.rest.length
decreasing_by omega

/-- What stands between brackets, read after the opening one: nothing, or parts with commas
    between them. -/
def readBetween {α : Type} (closing : Char) (due : SyntaxCause) (part : Reader α) :
    Reader (List α) := fun c =>
  match h : c.skipBlanks.rest with
  | [] => readParts closing due part c
  | mark :: rest =>
    if mark = closing then
      .ok ([], ⟨⟨rest, c.skipBlanks.offset + 1⟩, by
        have := c.skipBlanks_length
        simp only [h, List.length_cons] at *; omega⟩)
    else readParts closing due part c

/-- A member of an object: a name, a colon, a value. -/
def readMember (element : Reader Node) : Reader (Member Node) := fun c =>
  match readMark '"' .nameDue c with
  | .error e => .error e
  | .ok (_, ⟨body, lessQuote⟩) =>
    match readString c.offset body with
    | .error e => .error e
    | .ok ((key, keySpan), ⟨afterKey, lessKey⟩) =>
      match readMark ':' .colonDue afterKey.skipBlanks with
      | .error e => .error e
      | .ok (_, ⟨afterColon, lessColon⟩) =>
        match element afterColon.skipBlanks with
        | .error e => .error e
        | .ok (value, ⟨afterValue, lessValue⟩) =>
          .ok (⟨key, keySpan, value, ⟨keySpan.start, value.span.stop⟩⟩,
            ⟨afterValue, by
              have := afterKey.skipBlanks_length
              have := afterColon.skipBlanks_length
              omega⟩)

/-! ## 5. Documents -/

/-- One value, with arrays and objects nested at most `budget` deep. -/
def readValue : Nat → Reader Node
  | budget, c =>
    match h : c.rest with
    | [] => .error (c.fail .unexpectedEnd)
    | first :: rest =>
      let next : Cursor := ⟨rest, c.offset + 1⟩
      if first = '\x7b' then
        match budget with
        | 0 => .error (c.fail .tooDeep)
        | budget + 1 =>
          match readBetween '\x7d' .commaOrBraceDue (readMember (readValue budget)) next with
          | .error e => .error e
          | .ok (members, ⟨last, less⟩) =>
            .ok (.object members (c.spanTo last.offset),
              ⟨last, by simp only [next, h, List.length_cons] at *; omega⟩)
      else if first = '[' then
        match budget with
        | 0 => .error (c.fail .tooDeep)
        | budget + 1 =>
          match readBetween ']' .commaOrBracketDue (readValue budget) next with
          | .error e => .error e
          | .ok (items, ⟨last, less⟩) =>
            .ok (.array items (c.spanTo last.offset),
              ⟨last, by simp only [next, h, List.length_cons] at *; omega⟩)
      else if first = '"' then
        match readString c.offset next with
        | .error e => .error e
        | .ok ((text, span), ⟨last, less⟩) =>
          .ok (.string text span, ⟨last, by simp only [next, h, List.length_cons] at *; omega⟩)
      else if first = 't' then readWord .true (.boolean true) c
      else if first = 'f' then readWord .false (.boolean false) c
      else if first = 'n' then readWord .null .null c
      else if first = '-' ∨ isDigit first then readNumber c
      else .error (c.fail .unexpectedCharacter)

/-- How deep arrays and objects may nest. -/
def depthLimit : Nat := 128

/-- Reads a document: one value between blanks. -/
def Node.read (source : List Char) : Except SyntaxError Node :=
  match readValue depthLimit (Cursor.skipBlanks ⟨source, 0⟩) with
  | .error e => .error e
  | .ok (node, ⟨last, _⟩) =>
    if last.skipBlanks.rest.isEmpty then .ok node
    else .error (last.skipBlanks.fail .trailingCharacters)

/-- Reads a document. -/
def Node.parse (source : String) : Except SyntaxError Node := Node.read source.toList

end SchemaCompiler
