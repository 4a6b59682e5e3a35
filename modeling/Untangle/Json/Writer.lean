import Untangle.Json.Value
import Untangle.Number.Decimal

/-!
# Writing JSON text

A value is written on one line, or indented by two spaces a level.
-/
namespace Untangle.Json

def hexDigit (n : Nat) : Char := Nat.digitChar n

/-- A character inside a quoted string. Quotes, backslashes and characters below the space are
escaped; everything else stands for itself. -/
def escaped (c : Char) : List Char :=
  if c = '"' then ['\\', '"']
  else if c = '\\' then ['\\', '\\']
  else if c = '\n' then ['\\', 'n']
  else if c = '\r' then ['\\', 'r']
  else if c = '\t' then ['\\', 't']
  else if c = '\x08' then ['\\', 'b']
  else if c = '\x0c' then ['\\', 'f']
  else if c.toNat < 32 then
    ['\\', 'u', '0', '0', hexDigit (c.toNat / 16), hexDigit (c.toNat % 16)]
  else [c]

def quote (s : String) : String := "\"" ++ String.ofList (s.toList.flatMap escaped) ++ "\""

/-- Doubles are positional from `10 ^ -5` up to `10 ^ 16`, then with a point always, and have an
exponent elsewhere. -/
def doubleText : Binary64 → String
  | .finite negative m e =>
    let d := Decimal.shortest .even m e
    let size := (Decimal.digitString d.digits).length
    let lead := d.exponent + (size : Int) - 1
    let body :=
      if -5 ≤ lead ∧ lead ≤ 15 then
        d.positional ++ (if 0 ≤ d.exponent then ".0" else "")
      else d.scientific
    (if negative then "-" else "") ++ body
  | _ => "null"

mutual
def compact : Json → String
  | .null => "null"
  | .boolean b => if b then "true" else "false"
  | .integer n => toString n
  | .double x => doubleText x
  | .string s => quote s
  | .array items => "[" ++ ",".intercalate (compactItems items) ++ "]"
  | .object members => "\x7b" ++ ",".intercalate (compactMembers members) ++ "\x7d"
termination_by structural v => v
def compactItems : List Json → List String
  | [] => []
  | v :: rest => compact v :: compactItems rest
termination_by structural v => v
def compactMembers : List (String × Json) → List String
  | [] => []
  | (name, v) :: rest => (quote name ++ ":" ++ compact v) :: compactMembers rest
termination_by structural v => v
end

def lineAt (depth : Nat) : String := "\n" ++ String.ofList (List.replicate (2 * depth) ' ')

/-- Puts bracketed entries on lines of their own, one level deeper than `depth`. -/
def bracketed (opening closing : String) (depth : Nat) (entries : List String) : String :=
  if entries.isEmpty then opening ++ closing
  else
    opening ++ lineAt (depth + 1) ++ ("," ++ lineAt (depth + 1)).intercalate entries
      ++ lineAt depth ++ closing

mutual
def prettyAt : Json → Nat → String
  | .null, _ => "null"
  | .boolean b, _ => if b then "true" else "false"
  | .integer n, _ => toString n
  | .double x, _ => doubleText x
  | .string s, _ => quote s
  | .array items, depth => bracketed "[" "]" depth (prettyItems items (depth + 1))
  | .object members, depth => bracketed "\x7b" "\x7d" depth (prettyMembers members (depth + 1))
termination_by structural v => v
def prettyItems : List Json → Nat → List String
  | [], _ => []
  | v :: rest, depth => prettyAt v depth :: prettyItems rest depth
termination_by structural v => v
def prettyMembers : List (String × Json) → Nat → List String
  | [], _ => []
  | (name, v) :: rest, depth =>
    (quote name ++ ": " ++ prettyAt v depth) :: prettyMembers rest depth
termination_by structural v => v
end

def pretty (v : Json) : String := v.prettyAt 0

end Untangle.Json
