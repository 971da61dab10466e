/-
  File:      SchemaCompiler/Text/Shown.lean
  Subject:   A text as a message shows it, between quotes and on one line.

  Quotes, backslashes, line ends, tabs and the null character have escapes of their own; every
  other character that cannot be shown is written by its number.
-/
import SchemaCompiler.Text.Alphabet

namespace SchemaCompiler

/-- How a message shows a character between quotes. -/
def showChar (alphabet : Alphabet) (c : Char) : List Char :=
  if c = '"' then ['\\', '"']
  else if c = '\\' then ['\\', '\\']
  else if c = '\n' then ['\\', 'n']
  else if c = '\r' then ['\\', 'r']
  else if c = '\t' then ['\\', 't']
  else if c = '\x00' then ['\\', '0']
  else if alphabet.isShowable c then [c]
  else "\\u\x7b".toList ++ Nat.toDigits 16 c.toNat ++ ['\x7d']

/-- How a message shows a text. -/
def showText (alphabet : Alphabet) (text : String) : String :=
  String.ofList ('"' :: text.toList.flatMap (showChar alphabet) ++ ['"'])

end SchemaCompiler
