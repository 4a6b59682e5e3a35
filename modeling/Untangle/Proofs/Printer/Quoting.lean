import Mathlib.Data.List.Induction
import Untangle.Proofs.Grammar.Token

/-!
# Quoted strings and their values

The literal that quoting writes is read by all the rules that JavaScript has
for the characters between double quotes, as in strict mode: with escapes of
one character, hexadecimal escapes of both widths, code points in braces, a
null character, and lines that are continued. Its value is the quoted string in
UTF-16, so no two strings are quoted alike.
-/
namespace Untangle.Grammar

open Printer (codeUnits)

/-- The code units of a code point, which may be that of a surrogate. -/
def pointUnits (n : Nat) : List Nat :=
  if n < 0x10000 then [n] else [0xD800 + (n - 0x10000) / 0x400, 0xDC00 + (n - 0x10000) % 0x400]

/-- A code point in hexadecimal digits up to a closing brace, and the text behind the brace. -/
def braced? (cs : List Char) : Option (List Nat × List Char) :=
  match cs.dropWhile (· ≠ '\x7d') with
  | [] => none
  | _ :: rest => do
    let digits := cs.takeWhile (· ≠ '\x7d')
    guard !digits.isEmpty
    let n ← Text.digits? 16 digits
    guard (n ≤ 0x10FFFF)
    return (pointUnits n, rest)

/-- What a character behind a backslash stands for, if it starts no longer escape. The end of a line
is skipped, and a character without a meaning of its own stands for itself. -/
def single? (c : Char) : Option (List Nat) :=
  if isLineTerminator c then some []
  else if c.isDigit || c == 'x' || c == 'u' then none
  else some (((letterEscape? c).map fun unit => [unit]).getD (codeUnits c))

/-- The code units of the escape that stands behind a backslash, and the text behind the escape. -/
def escape? : List Char → Option (List Nat × List Char)
  | [] => none
  | 'x' :: a :: b :: rest => (Text.digits? 16 [a, b]).map fun unit => ([unit], rest)
  | 'u' :: '\x7b' :: rest => braced? rest
  | 'u' :: a :: b :: c :: d :: rest =>
    (Text.digits? 16 [a, b, c, d]).map fun unit => ([unit], rest)
  | '0' :: rest => if rest.head?.any Char.isDigit then none else some ([0], rest)
  | '\r' :: '\n' :: rest => some ([], rest)
  | c :: rest => (single? c).map fun units => (units, rest)

theorem length_lt_of_braced? {cs rest : List Char} {units : List Nat}
    (h : braced? cs = some (units, rest)) : rest.length < cs.length := by
  unfold braced? at h
  split at h
  · cases h
  · next c more hd =>
    simp only [Option.bind_eq_bind, Option.bind_eq_some_iff, Option.pure_def, Option.some.injEq,
      Prod.mk.injEq] at h
    obtain ⟨_, -, _, -, _, -, -, rfl⟩ := h
    have hl := (List.dropWhile_suffix (l := cs) (· ≠ '\x7d')).length_le
    rw [hd] at hl
    exact hl

theorem length_lt_of_escape? {cs rest : List Char} {units : List Nat}
    (h : escape? cs = some (units, rest)) : rest.length < cs.length := by
  unfold escape? at h
  split at h
  case h_1 => cases h
  case h_3 =>
    have := length_lt_of_braced? h
    simp only [List.length_cons]
    omega
  case h_5 =>
    split at h
    · cases h
    · cases h
      exact Nat.lt_succ_self _
  case h_6 =>
    cases h
    exact Nat.lt_succ_of_lt (Nat.lt_succ_self _)
  all_goals
    obtain ⟨_, -, hr⟩ := Option.map_eq_some_iff.1 h
    cases hr
    simp only [List.length_cons]
    omega

/-- The value of the string literal whose opening quote stands in front of the text, in code units,
and the text behind its closing quote, which is the first that is not part of an escape. -/
def stringValue? : List Char → Option (List Nat × List Char)
  | [] => none
  | '"' :: rest => some ([], rest)
  | '\\' :: cs =>
    match h : escape? cs with
    | none => none
    | some (units, rest) =>
      have : rest.length < cs.length + 1 := Nat.lt_succ_of_lt (length_lt_of_escape? h)
      (stringValue? rest).map (withUnits units)
  | c :: rest =>
    if c = '\n' ∨ c = '\r' then none else (stringValue? rest).map (withUnits (codeUnits c))
termination_by cs => cs.length

/-- An escape adds its code units to the value of the rest. -/
theorem stringValue?_escape {cs rest : List Char} {units : List Nat}
    (h : escape? cs = some (units, rest)) :
    stringValue? ('\\' :: cs) = (stringValue? rest).map (withUnits units) := by
  rw [stringValue?]
  split
  · next hn => rw [h] at hn; cases hn
  · next hs => rw [h] at hs; cases hs; rfl

/-- A character that is no escape adds its own code units. -/
theorem stringValue?_plain {c : Char} (hq : c ≠ '"') (hs : c ≠ '\\')
    (ht : isLineTerminator c = false) (rest : List Char) :
    stringValue? (c :: rest) = (stringValue? rest).map (withUnits (codeUnits c)) := by
  have hn : ¬ (c = '\n' ∨ c = '\r') := by
    rintro (rfl | rfl) <;> cases ht
  rw [stringValue?.eq_4 _ _ hq hs, if_neg hn]

theorem digitValue?_isSome {c : Char} (h : (Text.digitValue? c).isSome) :
    48 ≤ c.toNat ∧ c.toNat < 123 := by
  unfold Text.digitValue? at h
  split at h
  · next hd =>
    have hc : 48 ≤ c.toNat ∧ c.toNat ≤ 57 := Char.isDigit_iff_toNat.1 hd
    omega
  split at h
  · next hl =>
    have h₁ : 97 ≤ c.toNat := hl.1
    have h₂ : c.toNat ≤ 122 := hl.2
    omega
  split at h
  · next hu =>
    have h₁ : 65 ≤ c.toNat := hu.1
    have h₂ : c.toNat ≤ 90 := hu.2
    omega
  · cases h

/-- Only digits and letters occur in a numeral. -/
theorem mem_of_digits? {radix n : Nat} {cs : List Char} (h : Text.digits? radix cs = some n) :
    ∀ c ∈ cs, 48 ≤ c.toNat ∧ c.toNat < 123 := by
  induction cs using List.reverseRecOn generalizing n with
  | nil => simp
  | append_singleton cs c ih =>
    rw [Text.digits?_concat] at h
    simp only [Option.bind_eq_some_iff, Option.bind_eq_bind] at h
    obtain ⟨m, hm, d, hd, -⟩ := h
    intro x hx
    rcases List.mem_append.1 hx with hx | hx
    · exact ih hm x hx
    · rw [List.mem_singleton.1 hx]
      exact digitValue?_isSome (by rw [hd]; rfl)

/-- The escapes of one character that quoting uses are escapes of the language. -/
theorem escape?_letter {c : Char} {unit : Nat} (h : letterEscape? c = some unit)
    (rest : List Char) : escape? (c :: rest) = some ([unit], rest) := by
  unfold letterEscape? at h
  split at h <;> cases h <;> rfl

/-- What the narrow reader accepts is a literal of the language, with the same value. -/
theorem stringValue?_of_literalUnits? {cs : List Char} {r : List Nat × List Char}
    (h : literalUnits? cs = some r) : stringValue? cs = some r := by
  fun_induction literalUnits? cs generalizing r with
  | case1 => cases h
  | case2 rest => simpa [stringValue?] using h
  | case3 a b rest ih =>
    simp only [Option.bind_eq_bind, Option.bind_eq_some_iff, Option.pure_def,
      Option.some.injEq] at h
    obtain ⟨unit, hd, ⟨units, rest'⟩, hr, rfl⟩ := h
    have he : escape? ('x' :: a :: b :: rest) = some ([unit], rest) := by simp [escape?, hd]
    rw [stringValue?_escape he, ih hr]
    rfl
  | case4 a b c d rest ih =>
    simp only [Option.bind_eq_bind, Option.bind_eq_some_iff, Option.pure_def,
      Option.some.injEq] at h
    obtain ⟨unit, hd, ⟨units, rest'⟩, hr, rfl⟩ := h
    have ha : a ≠ '\x7b' := by
      rintro rfl
      exact absurd (mem_of_digits? hd '\x7b' List.mem_cons_self).2 (by decide)
    have he : escape? ('u' :: a :: b :: c :: d :: rest) = some ([unit], rest) := by
      rw [escape?.eq_4 _ _ _ _ _ ha, hd]
      rfl
    rw [stringValue?_escape he, ih hr]
    rfl
  | case5 c rest _ _ ih =>
    simp only [Option.bind_eq_bind, Option.bind_eq_some_iff, Option.pure_def,
      Option.some.injEq] at h
    obtain ⟨unit, hc, ⟨units, rest'⟩, hr, rfl⟩ := h
    rw [stringValue?_escape (escape?_letter hc rest), ih hr]
    rfl
  | case6 c rest hq _ _ hs ih =>
    simp only [Option.bind_eq_bind, Option.bind_eq_some_iff, Option.pure_def,
      Option.some.injEq] at h
    obtain ⟨_, hg, ⟨units, rest'⟩, hr, rfl⟩ := h
    have hg : c ≠ '\\' ∧ isLineTerminator c = false := by simpa [guard] using hg
    rw [stringValue?_plain hq hg.1 hg.2, ih hr]
    rfl

end Untangle.Grammar

namespace Untangle.Printer

open Grammar (isLineTerminator stringValue?)

def utf16 (s : String) : List Nat := s.toList.flatMap codeUnits

/-- A visible character or a blank of ASCII. -/
def isGraphic (c : Char) : Prop := 0x20 ≤ c.toNat ∧ c.toNat < 0x7F

instance : DecidablePred isGraphic := fun _ => inferInstanceAs (Decidable (_ ∧ _))

theorem graphic_hexText (width n : Nat) : ∀ c ∈ hexText width n, isGraphic c := by
  intro c hc
  have := Grammar.mem_of_digits? (Grammar.digits?_hexText width n) c hc
  unfold isGraphic
  omega

/-- What stands for a character is visible ASCII, or the character as it is. -/
theorem mem_escaped {asciiOnly : Bool} {c d : Char} (hd : d ∈ escaped asciiOnly c) :
    isGraphic d ∨ d = c ∧ isLineTerminator c = false ∧ (asciiOnly → c.toNat ≤ 0x7F) := by
  have hhex : ∀ x width n, isGraphic x → d ∈ '\\' :: x :: hexText width n → isGraphic d := by
    intro x width n hx hm
    simp only [List.mem_cons] at hm
    rcases hm with rfl | rfl | hm
    · decide
    · exact hx
    · exact graphic_hexText width n d hm
  have hescapes := Grammar.escapes_escaped asciiOnly c
  generalize escaped asciiOnly c = cs at hd hescapes
  cases hescapes with
  | letter h =>
    obtain ⟨hlow, hhigh, -⟩ := Grammar.letterEscape?_bounds h
    simp only [List.mem_cons, List.not_mem_nil, or_false] at hd
    rcases hd with rfl | rfl
    · exact .inl (by decide)
    · exact .inl ⟨hlow, hhigh⟩
  | two | four => exact .inl (hhex _ _ _ (by decide) hd)
  | units =>
    obtain ⟨unit, -, hd⟩ := List.mem_flatMap.1 hd
    exact .inl (hhex _ _ _ (by decide) hd)
  | plain _ _ ht ha => exact .inr ⟨List.mem_singleton.1 hd, ht, ha⟩

theorem toList_quote (asciiOnly : Bool) (s : String) :
    (quote asciiOnly s).toList = '"' :: s.toList.flatMap (escaped asciiOnly) ++ ['"'] := by
  simp [quote]

theorem isLineTerminator_of_isGraphic {c : Char} (h : isGraphic c) :
    isLineTerminator c = false := by
  have hne : ∀ d : Char, ¬ isGraphic d → c ≠ d := by
    rintro d hd rfl
    exact hd h
  simp [isLineTerminator, hne '\n' (by decide), hne '\r' (by decide), hne '\u2028' (by decide),
    hne '\u2029' (by decide)]

/-- Quoting writes a string literal, on one line, whose value is the string in UTF-16. All of it
is in ASCII if that is asked for, and the string can be told from it. -/
theorem quote_lossless (asciiOnly : Bool) (s : String) :
    (∃ body, (quote asciiOnly s).toList = '"' :: body ++ ['"']
      ∧ (∀ c ∈ body, isLineTerminator c = false)
      ∧ stringValue? (body ++ ['"']) = some (utf16 s, []))
    ∧ (asciiOnly → ∀ c ∈ (quote asciiOnly s).toList, c.toNat ≤ 0x7F)
    ∧ ∀ (other : Bool) (t : String), quote other t = quote asciiOnly s → t = s := by
  refine ⟨⟨_, toList_quote asciiOnly s, ?_, ?_⟩, ?_, ?_⟩
  · intro d hd
    obtain ⟨c, -, hd⟩ := List.mem_flatMap.1 hd
    rcases mem_escaped hd with hg | ⟨rfl, ht, -⟩
    · exact isLineTerminator_of_isGraphic hg
    · exact ht
  · exact Grammar.stringValue?_of_literalUnits?
      (Grammar.literalUnits?_flatMap_escaped asciiOnly s.toList [])
  · intro hb d hd
    rw [toList_quote, List.mem_append, List.mem_cons, List.mem_singleton] at hd
    rcases hd with (rfl | hd) | rfl
    · decide
    · obtain ⟨c, -, hd⟩ := List.mem_flatMap.1 hd
      rcases mem_escaped hd with hg | ⟨rfl, -, ha⟩
      · exact Nat.le_of_lt hg.2
      · exact ha hb
    · decide
  · intro other t h
    -- both are the text of one literal, and a literal has one value
    have htext : t.toList.flatMap (escaped other) ++ ['"']
        = s.toList.flatMap (escaped asciiOnly) ++ ['"'] := by
      simpa [toList_quote] using congrArg String.toList h
    have hread := Grammar.stringLiteral?_escaped other t []
    rw [htext, Grammar.stringLiteral?_escaped] at hread
    exact (congrArg Prod.fst (Option.some.inj hread)).symm

end Untangle.Printer
