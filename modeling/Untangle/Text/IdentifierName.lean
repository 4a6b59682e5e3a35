import Untangle.Text.IdentifierTable

/-!
# Identifier names

An identifier name is what may stand after a dot in a member access. Reserved
words are names too.
-/
namespace Untangle.Text

def isNameStart (c : Char) : Bool := c == '$' || c == '_' || identifierStarts.contains c

/-- Inside a name the two joiners U+200C and U+200D are allowed as well. -/
def isNamePart (c : Char) : Bool :=
  c == '$' || c == '\u200C' || c == '\u200D' || identifierStarts.contains c
    || identifierExtras.contains c

def isIdentifierName (s : String) : Bool :=
  match s.toList with
  | [] => false
  | c :: rest => isNameStart c && rest.all isNamePart

end Untangle.Text
