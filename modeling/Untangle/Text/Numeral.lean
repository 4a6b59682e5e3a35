import Untangle.Number.Binary64
import Untangle.Text.Blank

/-!
# Numerals in text

They are unsigned integers of 64 bits, and array indices in any of the
spellings that JavaScript has for a non-negative integer.
-/
namespace Untangle.Text

/-- The value of a digit in bases up to 36, in either case. -/
def digitValue? (c : Char) : Option Nat :=
  if c.isDigit then some (c.toNat - '0'.toNat)
  else if 'a' ≤ c ∧ c ≤ 'z' then some (c.toNat - 'a'.toNat + 10)
  else if 'A' ≤ c ∧ c ≤ 'Z' then some (c.toNat - 'A'.toNat + 10)
  else none

/-- The number that a run of digits spells; the empty run is zero. -/
def digits? (radix : Nat) (cs : List Char) : Option Nat :=
  cs.foldlM (fun n c => do
    let d ← digitValue? c
    guard (d < radix)
    return n * radix + d) 0

def dropPlus : List Char → List Char
  | '+' :: rest => rest
  | cs => cs

/-- An unsigned integer below `2 ^ 64`, with or without a plus sign. -/
def unsigned? (radix : Nat) (cs : List Char) : Option Nat := do
  let cs := dropPlus cs
  guard !cs.isEmpty
  let n ← digits? radix cs
  guard (n < 0x10000000000000000)
  return n

/-- The exponent after the digits of a decimal numeral, zero if there is none. -/
def exponent? : List Char → Option Nat
  | [] => some 0
  | c :: rest => do
    guard (c == 'e' || c == 'E')
    let cs := dropPlus rest
    guard !cs.isEmpty
    digits? 10 cs

/-- A decimal numeral without a minus sign: digits with an optional point, of which at least one
side has digits, and an optional exponent. -/
def decimal? (cs : List Char) : Option Binary64 := do
  let cs := dropPlus cs
  let whole := cs.takeWhile Char.isDigit
  let (places, rest) :=
    match cs.dropWhile Char.isDigit with
    | '.' :: rest => (rest.takeWhile Char.isDigit, rest.dropWhile Char.isDigit)
    | rest => ([], rest)
  guard !(whole.isEmpty && places.isEmpty)
  let exponent ← exponent? rest
  let digits ← digits? 10 (whole ++ places)
  return .ofDecimal false digits ((exponent : Int) - (places.length : Int))

/-- The radix that the first two characters of a numeral announce, and the digits after them. -/
def radix? : List Char → Option (Nat × List Char)
  | '0' :: mark :: rest =>
    match mark with
    | 'x' | 'X' => some (16, rest)
    | 'o' | 'O' => some (8, rest)
    | 'b' | 'B' => some (2, rest)
    | _ => none
  | _ => none

/-- A text as an array index. Blanks around it are ignored. -/
def index? (text : String) : Option Nat :=
  let cs := trim text.toList
  match radix? cs with
  | some (radix, digits) => unsigned? radix digits
  | none => (decimal? cs).bind Binary64.index?

end Untangle.Text
