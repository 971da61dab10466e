/-
  File:      SchemaCompiler/Expr/Name.lean
  Subject:   Export names: any text turned into words, each with a capital.

  Words end at characters that are neither letters nor digits, and where a lower-case letter meets
  an upper-case one. A word that begins with a digit is joined by an underscore, so that `v1.2`
  stays readable as `V1_2`; a name that would begin with a digit or be empty gets an underscore in
  front.
-/
import SchemaCompiler.Text.Alphabet

namespace SchemaCompiler

section Name

variable (alphabet : Alphabet)

/-- Whether the character after `c` goes on with the word of `c`. -/
def wordGoesOn (c : Char) : List Char → Bool
  | [] => false
  | next :: _ =>
    alphabet.isAlphanumeric next && !(alphabet.isLowercase c && alphabet.isUppercase next)

/-- The words of a text, none of them empty. -/
def wordsOf : List Char → List (List Char)
  | [] => []
  | c :: rest =>
    if alphabet.isAlphanumeric c then
      match wordGoesOn alphabet c rest, wordsOf rest with
      | true, word :: words => (c :: word) :: words
      | _, words => [c] :: words
    else wordsOf rest

/-- A word with its first letter in upper case and the others in lower case. -/
def capitalize : List Char → List Char
  | [] => []
  | first :: rest => alphabet.upperOf first ++ rest.flatMap alphabet.lowerOf

/-- Whether a text begins with a digit. -/
def startsWithDigit : List Char → Bool
  | [] => false
  | first :: _ => isDigit first

/-- A name with one more word. -/
def joinWord (name word : List Char) : List Char :=
  (if startsWithDigit word && !name.isEmpty then name ++ ['_'] else name) ++
    capitalize alphabet word

/-- The words of a text written together, each with a capital. -/
def pascalCase (text : List Char) : List Char :=
  let name := (wordsOf alphabet text).foldl (joinWord alphabet) []
  if name.isEmpty || startsWithDigit name then '_' :: name else name

end Name

end SchemaCompiler
