import Mathlib.Data.Option.Basic
import Untangle.Text.Numeral

/-!
# Numerals read back

The digits that spell a natural number read as that number, in every base that
has digits of its own. No digit is blank.
-/
namespace Untangle.Text

theorem digitValue?_digitChar : ∀ d < 16, digitValue? (Nat.digitChar d) = some d := by decide

@[simp] theorem digits?_nil (radix : Nat) : digits? radix [] = some 0 := rfl

/-- One more digit behind the others. -/
theorem digits?_concat (radix : Nat) (cs : List Char) (c : Char) :
    digits? radix (cs ++ [c]) = (digits? radix cs).bind fun n => do
      let d ← digitValue? c
      guard (d < radix)
      return n * radix + d := by
  simp [digits?, List.foldlM_append]

/-- One more digit behind a run of digits. -/
theorem digits?_concat_digitChar {radix n d : Nat} {cs : List Char} (hr : radix ≤ 16)
    (hd : d < radix) (h : digits? radix cs = some n) :
    digits? radix (cs ++ [Nat.digitChar d]) = some (n * radix + d) := by
  rw [digits?_concat, h]
  simp [digitValue?_digitChar d (by omega), hd, guard]

/-- The digits of a number read as the number. -/
theorem digits?_toDigits {radix : Nat} (hb : 1 < radix) (hr : radix ≤ 16) (n : Nat) :
    digits? radix (Nat.toDigits radix n) = some n := by
  induction n using Nat.strongRecOn with
  | ind n ih =>
    by_cases h : n < radix
    · rw [Nat.toDigits_of_lt_base h]
      simpa using digits?_concat_digitChar hr h (digits?_nil radix)
    · have hlt : n / radix < n := Nat.div_lt_self (by omega) hb
      have hmod : n % radix < radix := Nat.mod_lt n (by omega)
      rw [Nat.toDigits_of_base_le hb (by omega),
        digits?_concat_digitChar hr hmod (ih _ hlt), Nat.div_add_mod']

theorem toDigits_injective {n m : Nat} (h : Nat.toDigits 10 n = Nat.toDigits 10 m) : n = m := by
  have hn : digits? 10 (Nat.toDigits 10 n) = some n := digits?_toDigits (by decide) (by decide) n
  rw [h, digits?_toDigits (by decide) (by decide)] at hn
  exact (Option.some.inj hn).symm

/-- Zeros in front of a run of digits do not count. -/
theorem digits?_zeros {radix : Nat} (hr : 0 < radix) (k : Nat) (cs : List Char) :
    digits? radix (List.replicate k '0' ++ cs) = digits? radix cs := by
  induction k with
  | zero => rfl
  | succ k ih =>
    have hz : digitValue? '0' = some 0 := rfl
    rw [← ih, List.replicate_succ, List.cons_append]
    simp [digits?, hz, hr, guard]

theorem dropPlus_toDigits (n : Nat) : dropPlus (Nat.toDigits 10 n) = Nat.toDigits 10 n := by
  cases h : Nat.toDigits 10 n with
  | nil => rfl
  | cons c cs =>
    have hmem : c ∈ Nat.toDigits 10 n := by simp [h]
    have hc : c.isDigit := Nat.isDigit_of_mem_toDigits (by decide) (by decide) hmem
    have hne : c ≠ '+' := by rintro rfl; exact absurd hc (by decide)
    simp [dropPlus, hne]

theorem isBlank_of_isDigit {c : Char} (h : c.isDigit) : isBlank c = false := by
  have hc : 48 ≤ c.toNat ∧ c.toNat ≤ 57 := Char.isDigit_iff_toNat.1 h
  simp [isBlank, blanks, CodePoints.contains]
  omega

theorem trimStart_eq_self {cs : List Char} (h : ∀ c ∈ cs, isBlank c = false) :
    trimStart cs = cs := by
  cases cs with
  | nil => rfl
  | cons c rest => simp [trimStart, h c List.mem_cons_self]

theorem trim_eq_self {cs : List Char} (h : ∀ c ∈ cs, isBlank c = false) : trim cs = cs := by
  have hr : ∀ c ∈ cs.reverse, isBlank c = false := by simpa using h
  rw [trim, trimStart_eq_self h, trimEnd, trimStart_eq_self hr, List.reverse_reverse]

theorem trim_toDigits (n : Nat) : trim (Nat.toDigits 10 n) = Nat.toDigits 10 n := by
  apply trim_eq_self
  intro c hc
  exact isBlank_of_isDigit (Nat.isDigit_of_mem_toDigits (by decide) (by decide) hc)

/-- The digits of an integer of 64 bits read as the integer. -/
theorem unsigned?_toDigits {n : Nat} (h : n < 0x10000000000000000) :
    unsigned? 10 (Nat.toDigits 10 n) = some n := by
  have hne : (Nat.toDigits 10 n).isEmpty = false := by simp
  simp [unsigned?, dropPlus_toDigits, hne, digits?_toDigits, h, guard]

end Untangle.Text
