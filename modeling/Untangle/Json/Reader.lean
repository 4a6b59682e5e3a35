import Untangle.Json.Value

/-!
# Reading JSON text

The text is read one character at a time. The state of the reader is what it
expects next together with the containers it is inside of, so nesting has no
limit and reading is a fold over the text. A character that no value could
have there is `malformed`; a text that stops inside a value is `truncated`.

An integer of 64 bits is exact. Any other number is a double that is computed
from the digits that fit in 64 bits, and not always the nearest one.
-/
namespace Untangle.Json

inductive Fault where
  | malformed
  | truncated
  deriving DecidableEq, Repr

/-- A container around the value being read: the items so far, last first, or the members so far
and the name of the next one. -/
inductive Frame where
  | array (items : List Json)
  | member (members : List (String × Json)) (name : String)

/-- Where a string stands inside an escape sequence. A hexadecimal escape knows the high surrogate
before it, if any, and its own characters, last first. -/
inductive Escape where
  | outside
  | backslash
  | hex (high : Option Nat) (digits : List Char)
  | pairBackslash (high : Nat)
  | pairMark (high : Nat)

/-- A string being read, its characters last first. -/
structure StringScan where
  chars : List Char
  escape : Escape

inductive NumberPhase where
  | minus | zero | integer | point | fraction | exponent | exponentSign | exponentDigits
  deriving DecidableEq, Repr

/-- A number being read: the digits that were kept, as an integer of 64 bits, the power of ten that
the point and the dropped digits make of it, and the written exponent. Once a digit has been
dropped the others up to the point or the exponent are dropped too. -/
structure NumberScan where
  phase : NumberPhase
  negative : Bool
  significand : Nat
  scale : Int
  full : Bool
  exponentNegative : Bool
  exponent : Nat

inductive Mode where
  | value
  | arrayStart
  | arrayNext (items : List Json)
  | objectStart
  | objectName (members : List (String × Json))
  | objectColon (members : List (String × Json)) (name : String)
  | objectNext (members : List (String × Json))
  | name (members : List (String × Json)) (scan : StringScan)
  | string (scan : StringScan)
  | number (scan : NumberScan)
  | word (rest : List Char) (value : Json)
  | finished (value : Json)

structure State where
  mode : Mode
  frames : List Frame

abbrev Result := Except Fault

def isBlank (c : Char) : Bool := c == ' ' || c == '\n' || c == '\t' || c == '\r'

/-- Hands a complete value to the innermost container. -/
def deliver (v : Json) : List Frame → State
  | [] => ⟨.finished v, []⟩
  | .array items :: frames => ⟨.arrayNext (v :: items), frames⟩
  | .member members name :: frames => ⟨.objectNext (insertMember name v members), frames⟩

def digit? (c : Char) : Option Nat := if c.isDigit then some (c.toNat - '0'.toNat) else none

def hexDigit? (c : Char) : Option Nat :=
  if c.isDigit then some (c.toNat - '0'.toNat)
  else if 'a' ≤ c ∧ c ≤ 'f' then some (c.toNat - 'a'.toNat + 10)
  else if 'A' ≤ c ∧ c ≤ 'F' then some (c.toNat - 'A'.toNat + 10)
  else none

/-- The code unit that four hexadecimal digits, last first, spell. -/
def codeUnit? : List Char → Option Nat
  | [d, c, b, a] => do
    return (((← hexDigit? a) * 16 + (← hexDigit? b)) * 16 + (← hexDigit? c)) * 16 + (← hexDigit? d)
  | _ => none

namespace StringScan

def push (s : StringScan) (c : Char) : StringScan := ⟨c :: s.chars, .outside⟩

def text (s : StringScan) : String := String.ofList s.chars.reverse

/-- Takes up a code unit. A high surrogate waits for its low one, and neither stands alone. -/
def unit (s : StringScan) (high : Option Nat) (n : Nat) : Result StringScan :=
  match high with
  | some h =>
    if 0xDC00 ≤ n ∧ n ≤ 0xDFFF then
      .ok (s.push (Char.ofNat (0x10000 + (h - 0xD800) * 0x400 + (n - 0xDC00))))
    else .error .malformed
  | none =>
    if 0xDC00 ≤ n ∧ n ≤ 0xDFFF then .error .malformed
    else if 0xD800 ≤ n ∧ n ≤ 0xDBFF then .ok { s with escape := .pairBackslash n }
    else .ok (s.push (Char.ofNat n))

/-- One more character of a hexadecimal escape. The escape is judged when four bytes of text have
been seen, so a text that stops before that is truncated whatever they are. -/
def hex (s : StringScan) (high : Option Nat) (digits : List Char) : Result StringScan :=
  if digits.foldr (fun c n => c.utf8Size + n) 0 < 4 then .ok { s with escape := .hex high digits }
  else
    match codeUnit? digits with
    | some n => s.unit high n
    | none => .error .malformed

/-- The character that a one-letter escape stands for. -/
def simpleEscape? (c : Char) : Option Char :=
  match c with
  | '"' => some '"'
  | '\\' => some '\\'
  | '/' => some '/'
  | 'b' => some '\x08'
  | 'f' => some '\x0c'
  | 'n' => some '\n'
  | 'r' => some '\r'
  | 't' => some '\t'
  | _ => none

/-- Advances by one character that does not close the string. -/
def step (s : StringScan) (c : Char) : Result StringScan :=
  match s.escape with
  | .outside =>
    if c = '\\' then .ok { s with escape := .backslash }
    else if c.toNat < 32 then .error .malformed
    else .ok (s.push c)
  | .backslash =>
    if c = 'u' then .ok { s with escape := .hex none [] }
    else
      match simpleEscape? c with
      | some d => .ok (s.push d)
      | none => .error .malformed
  | .hex high digits => s.hex high (c :: digits)
  | .pairBackslash high =>
    if c = '\\' then .ok { s with escape := .pairMark high } else .error .malformed
  | .pairMark high =>
    if c = 'u' then .ok { s with escape := .hex (some high) [] } else .error .malformed

/-- Is the string open to a closing quote? -/
def closable (s : StringScan) : Bool :=
  match s.escape with
  | .outside => true
  | _ => false

end StringScan

namespace NumberScan

def start (phase : NumberPhase) (negative : Bool) (significand : Nat) : NumberScan :=
  ⟨phase, negative, significand, 0, false, false, 0⟩

/-- Can the digit be kept? -/
def holds (s : NumberScan) (d : Nat) : Bool :=
  !s.full && s.significand * 10 + d < 0x10000000000000000

/-- A digit before the point. -/
def wholeDigit (s : NumberScan) (d : Nat) : NumberScan :=
  if s.holds d then { s with significand := s.significand * 10 + d }
  else { s with full := true, scale := s.scale + 1 }

/-- A digit behind the point. -/
def fractionDigit (s : NumberScan) (d : Nat) : NumberScan :=
  if s.holds d then { s with significand := s.significand * 10 + d, scale := s.scale - 1 }
  else { s with full := true }

/-- What a character does to a number: it extends it, ends it or spoils it. -/
inductive Advance where
  | extended (scan : NumberScan)
  | ended
  | spoiled

def step (s : NumberScan) (c : Char) : Advance :=
  match s.phase, digit? c with
  | .minus, some 0 => .extended { s with phase := .zero }
  | .minus, some d => .extended { s with phase := .integer, significand := d }
  | .minus, none => .spoiled
  | .zero, some _ => .spoiled
  | .zero, none => mark
  | .integer, some d => .extended (s.wholeDigit d)
  | .integer, none => mark
  | .point, some d | .fraction, some d =>
    .extended { s.fractionDigit d with phase := .fraction }
  | .point, none => .spoiled
  | .fraction, none => exponentMark
  | .exponent, some d | .exponentSign, some d | .exponentDigits, some d =>
    .extended { s with phase := .exponentDigits, exponent := s.exponent * 10 + d }
  | .exponent, none =>
    if c = '+' then .extended { s with phase := .exponentSign }
    else if c = '-' then .extended { s with phase := .exponentSign, exponentNegative := true }
    else .spoiled
  | .exponentSign, none => .spoiled
  | .exponentDigits, none => .ended
where
  exponentMark : Advance :=
    if c = 'e' ∨ c = 'E' then .extended { s with phase := .exponent } else .ended
  mark : Advance :=
    if c = '.' then .extended { s with phase := .point, full := false } else exponentMark

/-- The power of ten, which up to `10 ^ 308` is finite. -/
def tenPower (n : Nat) : Binary64 := .ofDecimal false 1 n

/-- Divides by `10 ^ 308`, the given number of times or until nothing is left. -/
def lowered (x : Binary64) : Nat → Binary64
  | 0 => x
  | times + 1 => if x.isZero then x else lowered (x.quotient (tenPower 308)) times

/-- `x * 10 ^ exponent`, where each factor and each step is rounded. The result need not be the
double that is nearest to the exact value. -/
def timesTenPower (x : Binary64) : Int → Binary64
  | .ofNat e =>
    if e ≤ 308 then x.product (tenPower e)
    else if x.isZero then x
    else .infinite x.isNegative
  | .negSucc e => (lowered x (e / 308)).quotient (tenPower (e % 308 + 1))

/-- The number so far as a double, if it is in range. -/
def double (s : NumberScan) : Result Json :=
  let written : Int := if s.exponentNegative then -(s.exponent : Int) else s.exponent
  let x := timesTenPower (.ofRatio s.negative s.significand 1) (s.scale + written)
  if x.isFinite then .ok (.double x) else .error .malformed

/-- The number so far, if the text may stop here. -/
def value (s : NumberScan) : Result Json :=
  match s.phase with
  | .zero | .integer =>
    if s.full then s.double
    else if s.negative then
      if 0 < s.significand ∧ s.significand ≤ 0x8000000000000000 then
        .ok (.integer (-(s.significand : Int)))
      else s.double
    else .ok (.integer s.significand)
  | .fraction | .exponentDigits => s.double
  | .minus | .point | .exponent | .exponentSign => .error .truncated

end NumberScan

/-- The first character of a value. -/
def beginValue (c : Char) (frames : List Frame) : Result State :=
  if c = '"' then .ok ⟨.string ⟨[], .outside⟩, frames⟩
  else if c = '[' then .ok ⟨.arrayStart, frames⟩
  else if c = '\x7b' then .ok ⟨.objectStart, frames⟩
  else if c = '-' then .ok ⟨.number (.start .minus true 0), frames⟩
  else if c = 't' then .ok ⟨.word ['r', 'u', 'e'] (.boolean true), frames⟩
  else if c = 'f' then .ok ⟨.word ['a', 'l', 's', 'e'] (.boolean false), frames⟩
  else if c = 'n' then .ok ⟨.word ['u', 'l', 'l'] .null, frames⟩
  else
    match digit? c with
    | some 0 => .ok ⟨.number (.start .zero false 0), frames⟩
    | some d => .ok ⟨.number (.start .integer false d), frames⟩
    | none => .error .malformed

/-- A character between values: a blank, a separator, a bracket or the start of something. -/
def between (s : State) (c : Char) : Result State :=
  if isBlank c then .ok s
  else
    match s.mode with
    | .value => beginValue c s.frames
    | .arrayStart =>
      if c = ']' then .ok (deliver (.array []) s.frames) else beginValue c (.array [] :: s.frames)
    | .arrayNext items =>
      if c = ',' then .ok ⟨.value, .array items :: s.frames⟩
      else if c = ']' then .ok (deliver (.array items.reverse) s.frames)
      else .error .malformed
    | .objectStart =>
      if c = '"' then .ok ⟨.name [] ⟨[], .outside⟩, s.frames⟩
      else if c = '\x7d' then .ok (deliver (.object []) s.frames)
      else .error .malformed
    | .objectName members =>
      if c = '"' then .ok ⟨.name members ⟨[], .outside⟩, s.frames⟩ else .error .malformed
    | .objectColon members name =>
      if c = ':' then .ok ⟨.value, .member members name :: s.frames⟩ else .error .malformed
    | .objectNext members =>
      if c = ',' then .ok ⟨.objectName members, s.frames⟩
      else if c = '\x7d' then .ok (deliver (.object members) s.frames)
      else .error .malformed
    | _ => .error .malformed

def step (s : State) (c : Char) : Result State :=
  match s.mode with
  | .name members scan =>
    if c = '"' ∧ scan.closable then .ok ⟨.objectColon members scan.text, s.frames⟩
    else (scan.step c).map fun scan => ⟨.name members scan, s.frames⟩
  | .string scan =>
    if c = '"' ∧ scan.closable then .ok (deliver (.string scan.text) s.frames)
    else (scan.step c).map fun scan => ⟨.string scan, s.frames⟩
  | .number scan =>
    match scan.step c with
    | .extended scan => .ok ⟨.number scan, s.frames⟩
    | .ended => do between (deliver (← scan.value) s.frames) c
    | .spoiled => .error .malformed
  | .word (d :: rest) value =>
    if c ≠ d then .error .malformed
    else if rest.isEmpty then .ok (deliver value s.frames)
    else .ok ⟨.word rest value, s.frames⟩
  | _ => between s c

/-- The value that a text which stops here spells. -/
def finish (s : State) : Result Json :=
  match s.mode, s.frames with
  | .finished v, _ => .ok v
  | .number scan, [] => scan.value
  | .number scan, _ => do let _ ← scan.value; .error .truncated
  | _, _ => .error .truncated

def read (text : String) : Result Json :=
  (text.toList.foldlM step ⟨.value, []⟩).bind finish

end Untangle.Json
