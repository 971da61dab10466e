/-
  File:      SchemaCompiler/Schema/Payload.lean
  Subject:   The values of the keywords that hold no sub-schema.

  Each reader takes the tree that stands under a keyword and gives the value of the keyword, or
  the violation and the span it is found at. Texts of other languages go to the engines.
-/
import SchemaCompiler.Schema.Basic
import SchemaCompiler.Schema.Engines
import SchemaCompiler.Schema.Finding

namespace SchemaCompiler

namespace Payload

open Checked

/-! ## 1. Kinds -/

/-- The tree is not of the kind that the keyword asks for. -/
def wrongKind {α : Type} (keyword : KeywordKind) (expected : Kind) (node : Node) : Checked α :=
  refuse (.wrongKind keyword expected node.kind) node.span

def readString (keyword : KeywordKind) : Node → Checked String
  | .string text _ => pure text
  | node => wrongKind keyword .string node

def readBoolean (keyword : KeywordKind) : Node → Checked Bool
  | .boolean b _ => pure b
  | node => wrongKind keyword .boolean node

def readNumber (keyword : KeywordKind) : Node → Checked Number
  | .number n _ => pure n
  | node => wrongKind keyword .number node

def readArray (keyword : KeywordKind) : Node → Checked (List Node)
  | .array items _ => pure items
  | node => wrongKind keyword .array node

def readObject (keyword : KeywordKind) : Node → Checked (List (Member Node))
  | .object members _ => pure members
  | node => wrongKind keyword .object node

/-! ## 2. Texts -/

/-- An absolute identifier, without a fragment or with an empty one. -/
def checkId (engines : Engines) (text : String) (span : Span) : Checked Unit :=
  match engines.uriFragment? text with
  | none => refuse (.notUri text) span
  | some none => pure ()
  | some (some fragment) =>
    if fragment = "" then warn .emptyFragment span else refuse .fragment span

def checkReference (engines : Engines) (text : String) (span : Span) : Checked Unit :=
  if engines.isReference text then pure () else refuse (.notReference text) span

/-- The characters of an anchor after its first. -/
def isAnchorChar (c : Char) : Bool :=
  isAsciiLetter c || isDigit c || c = '-' || c = '_' || c = '.'

/-- A letter, then letters, digits, dashes, underscores and dots. -/
def isAnchor : List Char → Bool
  | [] => false
  | c :: rest => isAsciiLetter c && rest.all isAnchorChar

def checkAnchor (text : String) (span : Span) : Checked Unit :=
  if isAnchor text.toList then pure () else refuse (.notAnchor text) span

/-- The number of backslashes at the end of a text. -/
def trailingBackslashes (text : List Char) : Nat :=
  (text.reverse.takeWhile (· = '\\')).length

/-- A pattern must not end within an escape; one that the local engine does not understand is
    worth a warning. -/
def checkPattern (engines : Engines) (text : String) (span : Span) : Checked Unit :=
  if trailingBackslashes text.toList % 2 = 1 then refuse .danglingEscape span
  else
    match engines.patternFault? text with
    | none => pure ()
    | some fault => warn (.foreignPattern fault) span

/-- What a text keyword asks of its text. -/
def checkText (engines : Engines) (k : TextKeyword) (text : String) (span : Span) :
    Checked Unit :=
  match k with
  | .id => checkId engines text span
  | .ref | .dynamicRef => checkReference engines text span
  | .anchor | .dynamicAnchor => checkAnchor text span
  | .pattern => checkPattern engines text span
  | .comment | .title | .description => pure ()

def readText (engines : Engines) (k : TextKeyword) (node : Node) : Checked String := do
  let text ← readString (.text k) node
  checkText engines k text node.span
  return text

/-! ## 3. Types and lists of names -/

def readType (node : Node) : Checked PrimitiveType := do
  let name ← readString .types node
  match PrimitiveType.ofName? name with
  | some type => return type
  | none => refuse (.notType name) node.span

/-- One type or a list of them; the order and repeated ones are kept. -/
def readTypes : Node → Checked (List PrimitiveType)
  | .array items _ => items.mapM readType
  | node => return [← readType node]

def readNames (keyword : KeywordKind) (node : Node) : Checked (List String) := do
  (← readArray keyword node).mapM (readString keyword)

/-- Whether no name occurs twice. -/
def areUnique : List String → Bool
  | [] => true
  | name :: names => !names.contains name && areUnique names

def readDependency (member : Member Node) : Checked Dependency := do
  let required ← readNames .dependentRequired member.value
  if areUnique required then return ⟨member.key, required, member.span⟩
  else refuse .repeatedName member.value.span

def readDependencies (node : Node) : Checked (List Dependency) := do
  (← readObject .dependentRequired node).mapM readDependency

/-! ## 4. Numbers -/

/-- A divisor must be above zero; the other numbers are free. -/
def readBound (k : NumberKeyword) (node : Node) : Checked Number := do
  let n ← readNumber (.number k) node
  if k = .multipleOf && !n.isPositive then refuse (.notPositive n) node.span
  else return n

/-- The count that a number stands for: a whole number from zero to `maxSafeInteger`. -/
def countOf? (n : Number) : Option Nat :=
  n.toNat?.filter (· ≤ maxSafeInteger)

def readCount (k : CountKeyword) (node : Node) : Checked Nat := do
  let n ← readNumber (.count k) node
  match countOf? n with
  | some count => return count
  | none => refuse (.notCount k n) node.span

/-- A directive is set aside; `$schema` must still be a text. -/
def readDirective (d : Directive) (node : Node) (span : Span) : Checked Unit := do
  match d with
  | .schema => let _ ← readString (.directive .schema) node
  | .vocabulary => pure ()
  warn (.directive d) span

end Payload

end SchemaCompiler
