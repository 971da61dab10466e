/-
  File:      SchemaCompiler/StandardPlatform.lean
  Subject:   The platform that commands run on if no other is given.

  Its engines are readers of URIs and of regular expressions that follow the published rules as far
  as schemas commonly use them. They do not replace full engines: a host is not checked for the
  order of its writing directions, for joiners or for marks at the beginning of a label, the size of
  a pattern is estimated, and a pattern that is not understood is not told why. Its alphabet is that
  of Unicode 15.0.
-/
import SchemaCompiler.Compiler
import SchemaCompiler.Pattern.Understood
import SchemaCompiler.Text.Letters
import SchemaCompiler.Uri.Reference

namespace SchemaCompiler

def Engines.standard : Engines where
  uriFragment? text := (Uri.parse? text.toList).map fun uri => uri.fragment.map String.ofList
  isReference text := Uri.isReference text.toList
  patternFault? text :=
    if Pattern.isUnderstood text.toList then none else some "unsupported or malformed syntax"

def Platform.standard : Platform := ⟨.standard, .tabulated⟩

end SchemaCompiler
