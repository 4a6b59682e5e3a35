import Untangle.Printer.Quoted
import Untangle.Proofs.Text.Numeral

/-!
# String literals

The value of a string literal of JavaScript is a sequence of UTF-16 code
units. Escapes of one letter, of two and of four hexadecimal digits are read;
the other forms are refused, and so is a line terminator that stands as it is.
What quoting writes has the quoted string as its value.
-/
namespace Untangle.Grammar

open Printer (codeUnits escaped hexText)

def isLineTerminator (c : Char) : Bool :=
  c == '\n' || c == '\r' || c == '\u2028' || c == '\u2029'

/-- The code unit that an escape of one letter stands for. -/
def letterEscape? (c : Char) : Option Nat :=
  match c with
  | '"' => some 0x22
  | '\\' => some 0x5C
  | 'b' => some 0x08
  | 't' => some 0x09
  | 'n' => some 0x0A
  | 'v' => some 0x0B
  | 'f' => some 0x0C
  | 'r' => some 0x0D
  | _ => none

/-- The code units up to the closing quote, and the text behind the quote. -/
def literalUnits? : List Char → Option (List Nat × List Char)
  | [] => none
  | '"' :: rest => some ([], rest)
  | '\\' :: 'x' :: a :: b :: rest => do
    let unit ← Text.digits? 16 [a, b]
    let (units, rest) ← literalUnits? rest
    return (unit :: units, rest)
  | '\\' :: 'u' :: a :: b :: c :: d :: rest => do
    let unit ← Text.digits? 16 [a, b, c, d]
    let (units, rest) ← literalUnits? rest
    return (unit :: units, rest)
  | '\\' :: c :: rest => do
    let unit ← letterEscape? c
    let (units, rest) ← literalUnits? rest
    return (unit :: units, rest)
  | c :: rest => do
    guard !(c == '\\' || isLineTerminator c)
    let (units, rest) ← literalUnits? rest
    return (codeUnits c ++ units, rest)

/-- The characters that code units encode; a surrogate stands only in a pair. -/
def ofUnits? : List Nat → Option (List Char)
  | [] => some []
  | high :: low :: rest =>
    if 0xD800 ≤ high ∧ high < 0xDC00 then
      if 0xDC00 ≤ low ∧ low < 0xE000 then
        (ofUnits? rest).map
          (Char.ofNat (0x10000 + (high - 0xD800) * 0x400 + (low - 0xDC00)) :: ·)
      else none
    else if 0xDC00 ≤ high ∧ high < 0xE000 then none
    else (ofUnits? (low :: rest)).map (Char.ofNat high :: ·)
  | [unit] => if 0xD800 ≤ unit ∧ unit < 0xE000 then none else some [Char.ofNat unit]

/-- The string whose literal starts behind an opening quote, and the text behind the literal. -/
def stringLiteral? (cs : List Char) : Option (String × List Char) := do
  let (units, rest) ← literalUnits? cs
  return (String.ofList (← ofUnits? units), rest)

theorem length_hexText (width n : Nat) (hw : 0 < width) (hn : n < Nat.pow 16 width) :
    (hexText width n).length = width := by
  have h := (Nat.length_toDigits_le_iff (b := 16) (by decide) hw).2 hn
  simp only [hexText, List.length_append, List.length_replicate]
  omega

/-- Hexadecimal digits read back. -/
theorem digits?_hexText (width n : Nat) : Text.digits? 16 (hexText width n) = some n := by
  rw [hexText, Text.digits?_zeros (by decide), Text.digits?_toDigits (by decide) (by decide)]

/-- Puts the units of one character in front of what was read. -/
def withUnits (units : List Nat) (r : List Nat × List Char) : List Nat × List Char :=
  (units ++ r.1, r.2)

theorem literalUnits?_two {n : Nat} (h : n < 0x100) (rest : List Char) :
    literalUnits? ('\\' :: 'x' :: (hexText 2 n ++ rest)) =
      (literalUnits? rest).map (withUnits [n]) := by
  have hl := length_hexText 2 n (by decide) h
  have hd := digits?_hexText 2 n
  match hexText 2 n, hl, hd with
  | [a, b], _, hd =>
    simp only [List.cons_append, List.nil_append, literalUnits?, hd]
    cases literalUnits? rest <;> rfl

theorem literalUnits?_four {n : Nat} (h : n < 0x10000) (rest : List Char) :
    literalUnits? ('\\' :: 'u' :: (hexText 4 n ++ rest)) =
      (literalUnits? rest).map (withUnits [n]) := by
  have hl := length_hexText 4 n (by decide) h
  have hd := digits?_hexText 4 n
  match hexText 4 n, hl, hd with
  | [a, b, c, d], _, hd =>
    simp only [List.cons_append, List.nil_append, literalUnits?, hd]
    cases literalUnits? rest <;> rfl

theorem literalUnits?_letter {c : Char} {n : Nat} (h : letterEscape? c = some n)
    (rest : List Char) :
    literalUnits? ('\\' :: c :: rest) = (literalUnits? rest).map (withUnits [n]) := by
  have hx : c ≠ 'x' := by rintro rfl; cases h
  have hu : c ≠ 'u' := by rintro rfl; cases h
  rw [literalUnits?.eq_5 _ _ (by simp [hx]) (by simp [hu]), h]
  cases literalUnits? rest <;> rfl

theorem literalUnits?_plain {c : Char} (hq : c ≠ '"') (hs : c ≠ '\\')
    (ht : isLineTerminator c = false) (rest : List Char) :
    literalUnits? (c :: rest) = (literalUnits? rest).map (withUnits (codeUnits c)) := by
  rw [literalUnits?.eq_6 _ _ (by simp [hq]) (by simp [hs]) (by simp [hs]) (by simp [hs])]
  have hg : (!(c == '\\' || isLineTerminator c)) = true := by simp [ht, hs]
  simp only [hg, guard]
  cases literalUnits? rest <;> rfl

theorem codeUnits_of_lt {c : Char} (h : c.toNat < 0x10000) : codeUnits c = [c.toNat] := by
  simp [codeUnits, h]

theorem codeUnits_lt (c : Char) : ∀ unit ∈ codeUnits c, unit < 0x10000 := by
  intro unit h
  have hv : c.toNat < 0xD800 ∨ 0xDFFF < c.toNat ∧ c.toNat < 0x110000 := c.valid
  unfold codeUnits at h
  split at h <;> simp at h <;> omega

/-- Code units that are written one by one read back. -/
theorem literalUnits?_units (units : List Nat) (h : ∀ unit ∈ units, unit < 0x10000)
    (rest : List Char) :
    literalUnits? ((units.flatMap fun unit => '\\' :: 'u' :: hexText 4 unit) ++ rest) =
      (literalUnits? rest).map (withUnits units) := by
  induction units with
  | nil => cases h : literalUnits? rest <;> simp [withUnits, h]
  | cons unit units ih =>
    have ih := ih fun u hu => h u (by simp [hu])
    simp only [List.flatMap_cons, List.cons_append, List.append_assoc]
    rw [literalUnits?_four (h unit (by simp)), ih, Option.map_map]
    rfl

/-- The ways in which quoting writes a character. -/
inductive Escapes (asciiOnly : Bool) (c : Char) : List Char → Prop
  | letter {x : Char} (h : letterEscape? x = some c.toNat) : Escapes asciiOnly c ['\\', x]
  | two (h : c.toNat < 0x100) : Escapes asciiOnly c ('\\' :: 'x' :: hexText 2 c.toNat)
  | four (h : c.toNat < 0x10000) : Escapes asciiOnly c ('\\' :: 'u' :: hexText 4 c.toNat)
  | units : Escapes asciiOnly c ((codeUnits c).flatMap fun unit => '\\' :: 'u' :: hexText 4 unit)
  | plain (hq : c ≠ '"') (hs : c ≠ '\\') (ht : isLineTerminator c = false)
    (ha : asciiOnly → c.toNat ≤ 0x7F) : Escapes asciiOnly c [c]

/-- Quoting writes a character in one of these ways. -/
theorem escapes_escaped (asciiOnly : Bool) (c : Char) :
    Escapes asciiOnly c (escaped asciiOnly c) := by
  unfold escaped
  -- the seven characters that have a letter of their own
  iterate 7
    split
    · next h => subst h; exact .letter rfl
  split
  · exact .four (by omega)
  split
  · exact .two (by omega)
  split
  · exact .units
  · next hq hs hn hr _ _ _ hl _ ha =>
    have h₁ : c ≠ '\u2028' := by rintro rfl; exact hl (.inl rfl)
    have h₂ : c ≠ '\u2029' := by rintro rfl; exact hl (.inr rfl)
    refine .plain hq hs (by simp [isLineTerminator, hn, hr, h₁, h₂]) fun hb => ?_
    exact Nat.le_of_not_lt fun hc => ha ⟨hb, hc⟩

theorem letterEscape?_bounds {x : Char} {n : Nat} (h : letterEscape? x = some n) :
    0x20 ≤ x.toNat ∧ x.toNat < 0x7F ∧ n < 0x80 := by
  unfold letterEscape? at h
  split at h <;> cases h <;> decide

/-- A character that quoting has escaped, or left as it is, reads as its own code units. -/
theorem literalUnits?_escaped (asciiOnly : Bool) (c : Char) (rest : List Char) :
    literalUnits? (escaped asciiOnly c ++ rest) =
      (literalUnits? rest).map (withUnits (codeUnits c)) := by
  have hescapes := escapes_escaped asciiOnly c
  generalize escaped asciiOnly c = cs at hescapes ⊢
  cases hescapes with
  | letter h =>
    obtain ⟨-, -, hlt⟩ := letterEscape?_bounds h
    rw [codeUnits_of_lt (by omega)]
    exact literalUnits?_letter h rest
  | two h =>
    rw [codeUnits_of_lt (by omega)]
    exact literalUnits?_two h rest
  | four h =>
    rw [codeUnits_of_lt h]
    exact literalUnits?_four h rest
  | units => exact literalUnits?_units _ (codeUnits_lt c) rest
  | plain hq hs ht => exact literalUnits?_plain hq hs ht rest

/-- A character is read back from its code units, with a pair for one beyond the basic plane. -/
theorem ofUnits?_codeUnits (c : Char) (units : List Nat) :
    ofUnits? (codeUnits c ++ units) = (ofUnits? units).map (c :: ·) := by
  have hv : c.toNat < 0xD800 ∨ 0xDFFF < c.toNat ∧ c.toNat < 0x110000 := c.valid
  unfold codeUnits
  split
  · next h =>
    have hs : ¬(0xD800 ≤ c.toNat ∧ c.toNat < 0xDC00) := by omega
    have ht : ¬(0xDC00 ≤ c.toNat ∧ c.toNat < 0xE000) := by omega
    cases units with
    | nil => simp [ofUnits?, show ¬(0xD800 ≤ c.toNat ∧ c.toNat < 0xE000) by omega]
    | cons unit units => simp [ofUnits?, hs, ht]
  · next h =>
    have hh : 0xD800 ≤ 0xD800 + (c.toNat - 0x10000) / 0x400 ∧
        0xD800 + (c.toNat - 0x10000) / 0x400 < 0xDC00 := by omega
    have hl : 0xDC00 ≤ 0xDC00 + (c.toNat - 0x10000) % 0x400 ∧
        0xDC00 + (c.toNat - 0x10000) % 0x400 < 0xE000 := by omega
    have he : 0x10000 + (0xD800 + (c.toNat - 0x10000) / 0x400 - 0xD800) * 0x400
        + (0xDC00 + (c.toNat - 0x10000) % 0x400 - 0xDC00) = c.toNat := by omega
    simp only [List.cons_append, List.nil_append, ofUnits?, hh, hl, he, and_self, if_true]
    simp

/-- The text of a quoted string, behind its opening quote, has the string in UTF-16 as its value. -/
theorem literalUnits?_flatMap_escaped (asciiOnly : Bool) (cs rest : List Char) :
    literalUnits? (cs.flatMap (escaped asciiOnly) ++ '"' :: rest) =
      some (cs.flatMap codeUnits, rest) := by
  induction cs with
  | nil => simp [literalUnits?]
  | cons c cs ih =>
    rw [List.flatMap_cons, List.append_assoc, literalUnits?_escaped, ih]
    rfl

/-- The text of a quoted string, behind its opening quote, reads as the string. -/
theorem stringLiteral?_escaped (asciiOnly : Bool) (s : String) (rest : List Char) :
    stringLiteral? (s.toList.flatMap (escaped asciiOnly) ++ '"' :: rest) = some (s, rest) := by
  have hc : ∀ cs : List Char, ofUnits? (cs.flatMap codeUnits) = some cs := by
    intro cs
    induction cs with
    | nil => rfl
    | cons c cs ih => rw [List.flatMap_cons, ofUnits?_codeUnits, ih]; rfl
  simp [stringLiteral?, literalUnits?_flatMap_escaped, hc]

end Untangle.Grammar
