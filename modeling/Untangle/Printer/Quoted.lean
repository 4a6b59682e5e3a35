import Untangle.Number.Decimal

/-!
# JavaScript spellings of strings and numbers

Strings stand in double quotes. Numbers have no exponent.
-/
namespace Untangle.Printer

def hexText (width n : Nat) : List Char :=
  let digits := Nat.toDigits 16 n
  List.replicate (width - digits.length) '0' ++ digits

/-- The UTF-16 code units of a character. -/
def codeUnits (c : Char) : List Nat :=
  if c.toNat < 0x10000 then [c.toNat]
  else [0xD800 + (c.toNat - 0x10000) / 0x400, 0xDC00 + (c.toNat - 0x10000) % 0x400]

/-- A character inside a double-quoted string literal. Line terminators, quotes, backslashes and
control characters are always escaped, other characters only if the text is to be plain ASCII. -/
def escaped (asciiOnly : Bool) (c : Char) : List Char :=
  if c = '"' then ['\\', '"']
  else if c = '\\' then ['\\', '\\']
  else if c = '\n' then ['\\', 'n']
  else if c = '\r' then ['\\', 'r']
  else if c = '\t' then ['\\', 't']
  else if c = '\x08' then ['\\', 'b']
  else if c = '\x0c' then ['\\', 'f']
  else if c.toNat = 0x2028 ∨ c.toNat = 0x2029 then '\\' :: 'u' :: hexText 4 c.toNat
  else if c.toNat < 0x20 ∨ c.toNat = 0x7f then '\\' :: 'x' :: hexText 2 c.toNat
  else if asciiOnly ∧ 0x7f < c.toNat then
    (codeUnits c).flatMap fun unit => '\\' :: 'u' :: hexText 4 unit
  else [c]

def quote (asciiOnly : Bool) (s : String) : String :=
  "\"" ++ String.ofList (s.toList.flatMap (escaped asciiOnly)) ++ "\""

/-- Numbers are printed without an exponent, and both zeros as `0`. -/
def numberText : Binary64 → String
  | .nan => "NaN"
  | .infinite negative => if negative then "-Infinity" else "Infinity"
  | .finite negative m e =>
    if m = 0 then "0"
    else (if negative then "-" else "") ++ (Decimal.shortest .up m e).positional

end Untangle.Printer
