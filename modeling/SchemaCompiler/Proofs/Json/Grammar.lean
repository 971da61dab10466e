/-
  File:      SchemaCompiler/Proofs/Json/Grammar.lean
  Subject:   The grammar of JSON documents, and the tree that a derivation denotes.

  The rules are those of RFC 8259, written over lists of characters. They know nothing of cursors,
  of longest runs or of a budget: a rule says which texts are derived and what they denote.

  * `NumberToken token n` -- the token splits into sign, whole part, fraction and exponent as the
    numeral `n` says;
  * `StringBody text decoded` -- between two quotes, `text` denotes the characters `decoded`;
  * `IsValue text start node` -- `text`, standing at the byte offset `start`, is one value, and
    `node` is its tree: parts in source order, repeated keys kept, every span in place;
  * `IsDocument source node` -- one value between blanks.

  How deep a tree nests is no matter of the grammar: `Node.depth` counts it on the tree.
-/
import SchemaCompiler.Json.Document

namespace SchemaCompiler

namespace Grammar

/-! ## 1. Blanks -/

/-- Space, tab, line feed, carriage return. -/
def Blank (c : Char) : Prop := c = ' ' ∨ c = '\t' ∨ c = '\n' ∨ c = '\r'

def Blanks (text : List Char) : Prop := ∀ c ∈ text, Blank c

instance (c : Char) : Decidable (Blank c) :=
  inferInstanceAs (Decidable (c = ' ' ∨ c = '\t' ∨ c = '\n' ∨ c = '\r'))

instance (text : List Char) : Decidable (Blanks text) := List.decidableBAll Blank text

/-! ## 2. Numbers -/

def Digit (c : Char) : Prop := '0' ≤ c ∧ c ≤ '9'

def Digits (text : List Char) : Prop := ∀ c ∈ text, Digit c

inductive Sign : List Char → Bool → Prop
  | absent : Sign [] false
  | minus : Sign ['-'] true

/-- A single zero, or digits of which the first is not zero. -/
inductive Whole : List Char → Prop
  | zero : Whole ['0']
  | nonzero {d : Char} {ds : List Char} : '1' ≤ d → d ≤ '9' → Digits ds → Whole (d :: ds)

/-- A point and one digit or more, or nothing. -/
inductive Fraction : List Char → List Char → Prop
  | absent : Fraction [] []
  | present {ds : List Char} : ds ≠ [] → Digits ds → Fraction ('.' :: ds) ds

inductive ExponentSign : List Char → Bool → Prop
  | absent : ExponentSign [] false
  | plus : ExponentSign ['+'] false
  | minus : ExponentSign ['-'] true

/-- A mark, a sign if one likes, and one digit or more; or nothing. -/
inductive ExponentPart : List Char → Option Exponent → Prop
  | absent : ExponentPart [] none
  | present {mark : Char} {sign ds : List Char} {negative : Bool} :
      mark = 'e' ∨ mark = 'E' → ExponentSign sign negative → ds ≠ [] → Digits ds →
      ExponentPart (mark :: (sign ++ ds)) (some ⟨negative, ds⟩)

/-- The number grammar `-? whole fraction? exponent?`. -/
inductive NumberToken : List Char → Numeral → Prop
  | mk {sign whole fraction exponent ds : List Char} {negative : Bool} {e : Option Exponent} :
      Sign sign negative → Whole whole → Fraction fraction ds → ExponentPart exponent e →
      NumberToken (sign ++ (whole ++ (fraction ++ exponent))) ⟨negative, whole, ds, e⟩

/-! ## 3. Strings -/

/-- A hexadecimal digit, in either case, and its value. -/
inductive HexDigit : Char → Nat → Prop
  | decimal {c : Char} : '0' ≤ c → c ≤ '9' → HexDigit c (c.toNat - '0'.toNat)
  | lower {c : Char} : 'a' ≤ c → c ≤ 'f' → HexDigit c (c.toNat - 'a'.toNat + 10)
  | upper {c : Char} : 'A' ≤ c → c ≤ 'F' → HexDigit c (c.toNat - 'A'.toNat + 10)

/-- Four hexadecimal digits and their value. -/
inductive HexQuad : List Char → Nat → Prop
  | mk {a b c d : Char} {w x y z : Nat} :
      HexDigit a w → HexDigit b x → HexDigit c y → HexDigit d z →
      HexQuad [a, b, c, d] (w * 4096 + x * 256 + y * 16 + z)

/-- The letters that stand for a character after a backslash. -/
inductive EscapeLetter : Char → Char → Prop
  | quote : EscapeLetter '"' '"'
  | backslash : EscapeLetter '\\' '\\'
  | slash : EscapeLetter '/' '/'
  | backspace : EscapeLetter 'b' '\x08'
  | formFeed : EscapeLetter 'f' '\x0c'
  | lineFeed : EscapeLetter 'n' '\n'
  | carriageReturn : EscapeLetter 'r' '\r'
  | tab : EscapeLetter 't' '\t'

/-- What may follow a backslash, and the character that is meant. No character has the number of a
    surrogate, so `unicode` derives no surrogate alone; `pair` derives two that belong together. -/
inductive Escape : List Char → Char → Prop
  | letter {l c : Char} : EscapeLetter l c → Escape [l] c
  | unicode {quad : List Char} {c : Char} : HexQuad quad c.toNat → Escape ('u' :: quad) c
  | pair {quad quad' : List Char} {high low : Nat} {c : Char} :
      HexQuad quad high → HexQuad quad' low →
      0xD800 ≤ high → high ≤ 0xDBFF → 0xDC00 ≤ low → low ≤ 0xDFFF →
      c.toNat = 0x10000 + (high - 0xD800) * 0x400 + (low - 0xDC00) →
      Escape ('u' :: (quad ++ '\\' :: 'u' :: quad')) c

/-- What may stand between two quotes, and the characters it denotes. -/
inductive StringBody : List Char → List Char → Prop
  | empty : StringBody [] []
  | plain {c : Char} {text decoded : List Char} :
      0x20 ≤ c.toNat → c ≠ '"' → c ≠ '\\' → StringBody text decoded →
      StringBody (c :: text) (c :: decoded)
  | escape {c : Char} {escape text decoded : List Char} :
      Escape escape c → StringBody text decoded →
      StringBody ('\\' :: (escape ++ text)) (c :: decoded)

/-! ## 4. Values -/

/-- The span of a text that stands at `start`. -/
def covering (start : Nat) (text : List Char) : Span := ⟨start, start + byteLength text⟩

/-- One part or more with commas between them, each between blanks. -/
inductive Parts {α : Type} (Part : List Char → Nat → α → Prop) : List Char → Nat → List α → Prop
  | last {start : Nat} {before text after : List Char} {part : α} :
      Blanks before → Part text (start + byteLength before) part → Blanks after →
      Parts Part (before ++ (text ++ after)) start [part]
  | more {start : Nat} {before text after rest : List Char} {part : α} {parts : List α} :
      Blanks before → Part text (start + byteLength before) part → Blanks after →
      Parts Part rest (start + byteLength (before ++ (text ++ (after ++ [','])))) parts →
      Parts Part (before ++ (text ++ (after ++ ',' :: rest))) start (part :: parts)

/-- A name, a colon and an element, with blanks around the colon. -/
inductive MemberText (Element : List Char → Nat → Node → Prop) :
    List Char → Nat → Member Node → Prop
  | mk {start : Nat} {body key before after text : List Char} {value : Node} :
      StringBody body key → Blanks before → Blanks after →
      Element text (start + byteLength ('"' :: (body ++ '"' :: (before ++ ':' :: after)))) value →
      MemberText Element ('"' :: (body ++ '"' :: (before ++ ':' :: (after ++ text)))) start
        { key := String.ofList key
          keySpan := covering start ('"' :: (body ++ ['"']))
          value := value
          span := covering start ('"' :: (body ++ '"' :: (before ++ ':' :: (after ++ text)))) }

/-- One value and its tree. -/
inductive IsValue : List Char → Nat → Node → Prop
  | null {start : Nat} : IsValue "null".toList start (.null (covering start "null".toList))
  | true {start : Nat} :
      IsValue "true".toList start (.boolean .true (covering start "true".toList))
  | false {start : Nat} :
      IsValue "false".toList start (.boolean .false (covering start "false".toList))
  | number {start : Nat} {token : List Char} {n : Numeral} :
      NumberToken token n → IsValue token start (.number n.value (covering start token))
  | string {start : Nat} {body decoded : List Char} :
      StringBody body decoded →
      IsValue ('"' :: (body ++ ['"'])) start
        (.string (String.ofList decoded) (covering start ('"' :: (body ++ ['"']))))
  | emptyArray {start : Nat} {blanks : List Char} :
      Blanks blanks →
      IsValue ('[' :: (blanks ++ [']'])) start
        (.array [] (covering start ('[' :: (blanks ++ [']']))))
  | array {start : Nat} {body : List Char} {items : List Node} :
      Parts IsValue body (start + 1) items →
      IsValue ('[' :: (body ++ [']'])) start
        (.array items (covering start ('[' :: (body ++ [']']))))
  | emptyObject {start : Nat} {blanks : List Char} :
      Blanks blanks →
      IsValue ('\x7b' :: (blanks ++ ['\x7d'])) start
        (.object [] (covering start ('\x7b' :: (blanks ++ ['\x7d']))))
  | object {start : Nat} {body : List Char} {members : List (Member Node)} :
      Parts (MemberText IsValue) body (start + 1) members →
      IsValue ('\x7b' :: (body ++ ['\x7d'])) start
        (.object members (covering start ('\x7b' :: (body ++ ['\x7d']))))

/-- One value between blanks and its tree. -/
inductive IsDocument : List Char → Node → Prop
  | mk {before text after : List Char} {node : Node} :
      Blanks before → IsValue text (byteLength before) node → Blanks after →
      IsDocument (before ++ (text ++ after)) node

end Grammar

/-! ## 5. Trees -/

/-- The tree is a text. -/
def Node.IsText (node : Node) (text : String) : Prop := ∃ span, node = .string text span

mutual

/-- How deep arrays and objects nest in a tree. -/
def Node.depth : Node → Nat
  | .object members _ => membersDepth members + 1
  | .array items _ => itemsDepth items + 1
  | .string .. | .number .. | .boolean .. | .null _ => 0

/-- The depth of the deepest item. -/
def itemsDepth : List Node → Nat
  | [] => 0
  | item :: items => max item.depth (itemsDepth items)

/-- The depth of the deepest value of a member. -/
def membersDepth : List (Member Node) → Nat
  | [] => 0
  | ⟨_, _, value, _⟩ :: members => max value.depth (membersDepth members)

end

theorem itemsDepth_le_iff {items : List Node} {bound : Nat} :
    itemsDepth items ≤ bound ↔ ∀ item ∈ items, item.depth ≤ bound := by
  induction items with
  | nil => simp [itemsDepth]
  | cons item items ih => simp only [itemsDepth, Nat.max_le, ih, List.forall_mem_cons]

theorem membersDepth_le_iff {members : List (Member Node)} {bound : Nat} :
    membersDepth members ≤ bound ↔ ∀ member ∈ members, member.value.depth ≤ bound := by
  induction members with
  | nil => simp [membersDepth]
  | cons member members ih => simp only [membersDepth, Nat.max_le, ih, List.forall_mem_cons]

end SchemaCompiler
