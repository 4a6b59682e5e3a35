import Untangle.Number.Binary64

/-!
# Decimal text of numbers

`shortest` chooses the digits: the fewest that read back as the same number,
and of those the nearest. The two layouts place the same digits, with or
without an exponent.
-/
namespace Untangle

/-- The value `digits * 10 ^ exponent`. -/
structure Decimal where
  digits : Nat
  exponent : Int
  deriving DecidableEq, Repr

/-- Which of two equally near candidates is taken. -/
inductive Tie where
  | even | up
  deriving DecidableEq, Repr

namespace Decimal

/-- Where a grid point of the decimal grid `10 ^ exponent` lies against `num / den`: the two
neighbours and the exact remainder, as a ratio of the grid's unit. -/
structure Neighbours where
  below : Nat
  rest : Nat
  unit : Nat

def neighbours (num den : Nat) : Int → Neighbours
  | .ofNat e => ⟨num / (den * Nat.pow 10 e), num % (den * Nat.pow 10 e), den * Nat.pow 10 e⟩
  | .negSucc e => ⟨num * Nat.pow 10 (e + 1) / den, num * Nat.pow 10 (e + 1) % den, den⟩

/-- Is the upper neighbour the nearer one? -/
def Neighbours.upperNearer (tie : Tie) (n : Neighbours) : Bool :=
  if 2 * n.rest = n.unit then
    match tie with
    | .even => n.below % 2 == 1
    | .up => true
  else n.unit < 2 * n.rest

/-- Of the two neighbours of `num / den` on the grid `10 ^ exponent`, the nearer one that rounds
to `x`, if any does. -/
def onGrid? (tie : Tie) (x : Binary64) (num den : Nat) (exponent : Int) : Option Decimal :=
  let n := neighbours num den exponent
  let lower := n.below
  let upper := n.below + 1
  let fits (d : Nat) : Bool := d ≠ 0 && Binary64.ofDecimal false d exponent == x
  match fits lower, fits upper with
  | true, true => some ⟨if n.upperNearer tie then upper else lower, exponent⟩
  | true, false => some ⟨lower, exponent⟩
  | false, true => some ⟨upper, exponent⟩
  | false, false => none

/-- The decimal exponent of the leading digit of `num / den`, searched downwards from `start`. -/
def leading (num den : Nat) : Nat → Int → Int
  | 0, start => start
  | steps + 1, start =>
    if (neighbours num den start).below = 0 then leading num den steps (start - 1) else start

/-- Drops up to `count` trailing zeros of the digits. -/
def trim : Nat → Decimal → Decimal
  | 0, d => d
  | count + 1, d =>
    if d.digits ≠ 0 ∧ d.digits % 10 = 0 then trim count ⟨d.digits / 10, d.exponent + 1⟩ else d

/-- Every finite number is a decimal: a power of one half is a power of five over one of ten. -/
def exact (significand : Nat) : Int → Decimal
  | .ofNat e => ⟨significand * Nat.pow 2 e, 0⟩
  | .negSucc e => ⟨significand * Nat.pow 5 (e + 1), .negSucc e⟩

/-- The fewest digits that read back as the magnitude `significand * 2 ^ exponent`. Ever finer
grids are tried; one of seventeen digits has a hit, so the exact expansion is never reached. The
logarithm of two, 0.30103, places the first grid. -/
def shortest (tie : Tie) (significand : Nat) (exponent : Int) : Decimal :=
  if significand = 0 then ⟨0, 0⟩
  else
    let x := Binary64.finite false significand exponent
    let (num, den) := Binary64.ratio significand exponent
    let top := leading num den 4 (Binary64.floorLog num den * 30103 / 100000 + 2)
    let found := (List.range 17).findSome? fun (k : Nat) => onGrid? tie x num den (top - (k : Int))
    trim 17 (found.getD (exact significand exponent))

def digitString (n : Nat) : String := toString n

def zeros (n : Nat) : String := String.ofList (List.replicate n '0')

/-- Digits with a point and no exponent: `1500`, `0.015`, `15.5`. -/
def positional (d : Decimal) : String :=
  match d.exponent with
  | .ofNat e => if d.digits = 0 then "0" else digitString d.digits ++ zeros e
  | .negSucc e =>
    let places := e + 1
    let text := (digitString d.digits).toList
    if text.length ≤ places then
      "0." ++ zeros (places - text.length) ++ String.ofList text
    else
      String.ofList (text.take (text.length - places)) ++ "."
        ++ String.ofList (text.drop (text.length - places))

/-- One digit before the point and a signed exponent: `1.5e+20`, `2e-7`. -/
def scientific (d : Decimal) : String :=
  let text := (digitString d.digits).toList
  let e := d.exponent + (text.length : Int) - 1
  let mantissa := String.ofList (text.take 1)
    ++ (if text.length ≤ 1 then "" else "." ++ String.ofList (text.drop 1))
  mantissa ++ (if e < 0 then "e-" else "e+") ++ toString e.natAbs

end Decimal
end Untangle
