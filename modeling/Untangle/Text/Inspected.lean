import Untangle.Text.ExtenderTable
import Untangle.Text.InvisibleTable

/-!
# Strings as messages show them

They stand in double quotes, with every character that would not be seen
spelled out by its code point.
-/
namespace Untangle.Text

def spelledOut (c : Char) : String :=
  "\\u\x7b" ++ String.ofList (Nat.toDigits 16 c.toNat) ++ "\x7d"

def inspectChar (c : Char) : String :=
  if c = '"' then "\\\""
  else if c = '\\' then "\\\\"
  else if c = '\n' then "\\n"
  else if c = '\r' then "\\r"
  else if c = '\t' then "\\t"
  else if c = '\x00' then "\\0"
  else if invisibles.contains c || extenders.contains c then spelledOut c
  else c.toString

def inspect (s : String) : String :=
  "\"" ++ String.join (s.toList.map inspectChar) ++ "\""

/-- At most `limit` characters: a longer text ends in three dots. -/
def abridge (s : String) (limit : Nat) : String :=
  if s.length ≤ limit then s else String.ofList (s.toList.take (limit - 3)) ++ "..."

end Untangle.Text
