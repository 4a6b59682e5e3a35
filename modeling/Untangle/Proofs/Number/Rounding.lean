import Mathlib.Algebra.Order.Field.Basic
import Mathlib.Algebra.Order.Field.Power
import Mathlib.Algebra.Order.Field.Rat
import Mathlib.Data.Nat.Cast.Field
import Mathlib.Tactic.FieldSimp
import Mathlib.Tactic.Linarith
import Mathlib.Tactic.Ring
import Untangle.Number.Binary64

/-!
# Rounding to the nearest number

The numbers that can be chosen for a value are the finite ones in canonical form,
and one more above them that stands for infinity. The number for a value is the
closest of these; of two that are equally close it is the one whose significand
is even. There is exactly one such number, and a decimal is read as it.
-/
namespace Untangle.Binary64

def magnitude (m : Nat) (e : Int) : ℚ := m * 2 ^ e

/-- Significand and exponent of a number that can be chosen: one in canonical form, up to
`2 ^ 1024`, which is the first that is not finite. -/
structure IsCandidate (m : Nat) (e : Int) : Prop where
  lt : m < 2 ^ 53
  least : -1074 ≤ e
  normal : -1074 < e → 2 ^ 52 ≤ m
  most : e ≤ 971 ∨ m = 2 ^ 52 ∧ e = 972

/-- The candidate that is closest to a value, and has an even significand where another one is as
close. -/
structure IsNearest (v : ℚ) (m : Nat) (e : Int) : Prop where
  candidate : IsCandidate m e
  closest : ∀ {m' e'}, IsCandidate m' e' → |magnitude m e - v| ≤ |magnitude m' e' - v|
  even : ∀ {m' e'}, IsCandidate m' e' → |magnitude m' e' - v| = |magnitude m e - v| →
    (m', e') ≠ (m, e) → m % 2 = 0

/-- The number that a candidate stands for. -/
def ofCandidate (negative : Bool) (m : Nat) (e : Int) : Binary64 :=
  if e = 972 then .infinite negative else .finite negative m e

/-- The number for a value without its sign. -/
def Rounds (negative : Bool) (v : ℚ) (x : Binary64) : Prop :=
  ∃ m e, IsNearest v m e ∧ x = ofCandidate negative m e

section Magnitude

variable {m m' : Nat} {e e' : Int} {v : ℚ}

theorem two_zpow_pos (e : Int) : (0 : ℚ) < 2 ^ e := zpow_pos (by norm_num) e

theorem magnitude_nonneg (m : Nat) (e : Int) : 0 ≤ magnitude m e :=
  mul_nonneg (Nat.cast_nonneg m) (two_zpow_pos e).le

theorem magnitude_le_iff : magnitude m e ≤ magnitude m' e ↔ m ≤ m' := by
  rw [magnitude, magnitude, mul_le_mul_iff_left₀ (two_zpow_pos e), Nat.cast_le]

theorem magnitude_lt_iff : magnitude m e < magnitude m' e ↔ m < m' := by
  rw [magnitude, magnitude, mul_lt_mul_iff_left₀ (two_zpow_pos e), Nat.cast_lt]

theorem magnitude_inj : magnitude m e = magnitude m' e ↔ m = m' := by
  rw [magnitude, magnitude, mul_left_inj' (two_zpow_pos e).ne', Nat.cast_inj]

/-- Twice the significand is one more in the exponent. -/
theorem magnitude_double (m : Nat) (e : Int) : magnitude (2 * m) e = magnitude m (e + 1) := by
  rw [magnitude, magnitude, zpow_add_one₀ two_ne_zero]
  push_cast
  ring

/-- A magnitude is a multiple of every smaller power of two. -/
theorem magnitude_of_le (m : Nat) (h : e ≤ e') :
    ∃ k : Nat, magnitude m e' = magnitude k e := by
  refine ⟨m * 2 ^ (e' - e).toNat, ?_⟩
  have hsplit : (2 : ℚ) ^ e' = 2 ^ (e' - e).toNat * 2 ^ e := by
    rw [← zpow_natCast, ← zpow_add₀ two_ne_zero, Int.toNat_of_nonneg (by omega)]
    congr 1
    omega
  rw [magnitude, magnitude, hsplit]
  push_cast
  ring

/-- Below an exponent the magnitudes are smaller than all normal ones with it. -/
theorem IsCandidate.lt_normal (h : IsCandidate m e) (he : e < e') :
    magnitude m e < magnitude (2 ^ 52) e' := by
  have hstep : magnitude (2 ^ 53) (e' - 1) = magnitude (2 ^ 52) e' := by
    rw [← sub_add_cancel e' 1, ← magnitude_double, add_sub_cancel_right]
    rfl
  calc magnitude m e < magnitude (2 ^ 53) e := magnitude_lt_iff.2 h.lt
    _ ≤ magnitude (2 ^ 53) (e' - 1) := by
      unfold magnitude
      gcongr
      · norm_num
      · omega
    _ = magnitude (2 ^ 52) e' := hstep

theorem IsCandidate.normal_le (h : IsCandidate m e) (he : -1074 < e) :
    magnitude (2 ^ 52) e ≤ magnitude m e :=
  magnitude_le_iff.2 (h.normal he)

/-- A candidate with a smaller exponent is smaller. -/
theorem IsCandidate.magnitude_lt (h : IsCandidate m e) (h' : IsCandidate m' e') (he : e < e') :
    magnitude m e < magnitude m' e' :=
  (h.lt_normal he).trans_le (h'.normal_le (h.least.trans_lt he))

/-- A candidate has only one significand and exponent. -/
theorem IsCandidate.ext (h : IsCandidate m e) (h' : IsCandidate m' e')
    (heq : magnitude m e = magnitude m' e') : (m, e) = (m', e') := by
  rcases lt_trichotomy e e' with he | rfl | he
  · exact absurd heq (h.magnitude_lt h' he).ne
  · rw [magnitude_inj.1 heq]
  · exact absurd heq.symm (h'.magnitude_lt h he).ne

/-- The candidates above a candidate are at least one step of its exponent away. -/
theorem IsCandidate.succ_le (h : IsCandidate m e) (h' : IsCandidate m' e')
    (hlt : magnitude m e < magnitude m' e') : magnitude (m + 1) e ≤ magnitude m' e' := by
  have he : e ≤ e' := by
    by_contra hcontra
    exact absurd hlt (h'.magnitude_lt h (by omega)).not_gt
  obtain ⟨k, hk⟩ := magnitude_of_le m' he
  rw [hk] at hlt ⊢
  exact magnitude_le_iff.2 (magnitude_lt_iff.1 hlt)

/-- Above an even candidate comes an odd one, unless it is the last. -/
theorem IsCandidate.succ (h : IsCandidate m e) (h' : IsCandidate m' e') (heven : m % 2 = 0)
    (hlt : magnitude m e < magnitude m' e') : IsCandidate (m + 1) e := by
  have hlt53 := h.lt
  refine ⟨by omega, h.least, fun he => by have := h.normal he; omega, .inl ?_⟩
  rcases h.most with hmost | ⟨rfl, rfl⟩
  · exact hmost
  · rcases h'.most with hmost' | ⟨rfl, rfl⟩
    · exact absurd hlt (h'.lt_normal (by omega)).not_gt
    · exact absurd hlt (lt_irrefl _)

end Magnitude

section Nearest

variable {m m' : Nat} {e e' : Int} {v : ℚ}

/-- Between two equally close candidates that are both even there is a closer one. -/
theorem IsNearest.not_below (h : IsNearest v m e) (h' : IsNearest v m' e') :
    ¬ magnitude m e < magnitude m' e' := by
  intro hlt
  have hne : (m', e') ≠ (m, e) := by
    intro heq
    obtain ⟨rfl, rfl⟩ := Prod.mk.inj heq
    exact lt_irrefl _ hlt
  have hdist : |magnitude m' e' - v| = |magnitude m e - v| :=
    le_antisymm (h'.closest h.candidate) (h.closest h'.candidate)
  have heven := h.even h'.candidate hdist hne
  have heven' := h'.even h.candidate hdist.symm hne.symm
  have hsucc := h.candidate.succ h'.candidate heven hlt
  have hbelow : magnitude m e < magnitude (m + 1) e := magnitude_lt_iff.2 (by omega)
  have habove : magnitude (m + 1) e < magnitude m' e' := by
    refine lt_of_le_of_ne (h.candidate.succ_le h'.candidate hlt) fun heq => ?_
    have hm := (Prod.mk.inj (hsucc.ext h'.candidate heq)).1
    omega
  have hclosest := h.closest hsucc
  rcases abs_cases (magnitude m e - v) with ⟨ha, _⟩ | ⟨ha, _⟩ <;>
    rcases abs_cases (magnitude m' e' - v) with ⟨hb, _⟩ | ⟨hb, _⟩ <;>
      rcases abs_cases (magnitude (m + 1) e - v) with ⟨hc, _⟩ | ⟨hc, _⟩ <;> linarith

/-- There is at most one nearest candidate. -/
theorem IsNearest.unique (h : IsNearest v m e) (h' : IsNearest v m' e') : (m, e) = (m', e') :=
  h.candidate.ext h'.candidate
    (le_antisymm (not_lt.1 (h'.not_below h)) (not_lt.1 (h.not_below h')))

end Nearest

/-- There is at most one number for a value. -/
theorem Rounds.unique {negative : Bool} {v : ℚ} {x y : Binary64} (hx : Rounds negative v x)
    (hy : Rounds negative v y) : x = y := by
  obtain ⟨m, e, h, rfl⟩ := hx
  obtain ⟨m', e', h', rfl⟩ := hy
  obtain ⟨rfl, rfl⟩ := Prod.mk.inj (h.unique h')
  rfl

section Grid

variable {q k m m' n d num den : Nat} {e e' : Int} {r v : ℚ}

/-- The nearest integer lies at most half a unit away. It is even where it lies half a unit away. -/
theorem nearest_bounds (n : Nat) (hd : 0 < d) :
    2 * n ≤ 2 * (nearest n d * d) + d ∧ 2 * (nearest n d * d) ≤ 2 * n + d ∧
      (2 * n = 2 * (nearest n d * d) + d ∨ 2 * (nearest n d * d) = 2 * n + d →
        nearest n d % 2 = 0) := by
  have hsplit := Nat.div_add_mod' n d
  have hrest := Nat.mod_lt n hd
  unfold nearest
  generalize n / d = whole at hsplit ⊢
  generalize n % d = rest at hsplit hrest ⊢
  dsimp only
  split_ifs <;> simp only [Nat.succ_mul] <;> omega

/-- The nearest integer is at most one half away, and is even where it is one half away. -/
theorem nearest_spec (n : Nat) (hd : 0 < d) :
    |(nearest n d : ℚ) - n / d| ≤ 1 / 2 ∧
      (|(nearest n d : ℚ) - n / d| = 1 / 2 → nearest n d % 2 = 0) := by
  obtain ⟨hup, hdown, htie⟩ := nearest_bounds n hd
  have hd' : (0 : ℚ) < d := Nat.cast_pos.2 hd
  generalize nearest n d = q at *
  have hn : (n : ℚ) = n / d * d := (div_mul_cancel₀ _ hd'.ne').symm
  have hup' : (2 * n : ℚ) ≤ 2 * (q * d) + d := by exact_mod_cast hup
  have hdown' : (2 * (q * d) : ℚ) ≤ 2 * n + d := by exact_mod_cast hdown
  constructor
  · rw [abs_le]
    constructor
    · refine le_of_mul_le_mul_right ?_ hd'
      linarith
    · refine le_of_mul_le_mul_right ?_ hd'
      linarith
  · intro habs
    apply htie
    rcases (abs_eq (by norm_num)).1 habs with h | h
    · right
      have hq : (q : ℚ) = n / d + 1 / 2 := by linarith
      have : (2 * (q * d) : ℚ) = 2 * n + d := by rw [hq]; linarith
      exact_mod_cast this
    · left
      have hq : (q : ℚ) = n / d - 1 / 2 := by linarith
      have : (2 * n : ℚ) = 2 * (q * d) + d := by rw [hq]; linarith
      exact_mod_cast this

/-- Other integers than the nearest are no closer, and as close only at half a unit. -/
theorem closest_of_half (hq : |(q : ℚ) - r| ≤ 1 / 2) (k : Nat) :
    |(q : ℚ) - r| ≤ |(k : ℚ) - r| ∧
      (|(k : ℚ) - r| = |(q : ℚ) - r| → k ≠ q → |(q : ℚ) - r| = 1 / 2) := by
  by_cases hkq : k = q
  · subst hkq
    exact ⟨le_rfl, fun _ hne => absurd rfl hne⟩
  · have hstep : 1 ≤ |(k : ℚ) - q| := by
      have hint : 1 ≤ |(k : Int) - q| := Int.one_le_abs (by omega)
      exact_mod_cast hint
    have hsum : |(k : ℚ) - q| ≤ |(k : ℚ) - r| + |(q : ℚ) - r| := by
      rw [abs_sub_comm (q : ℚ) r]
      exact abs_sub_le _ _ _
    exact ⟨by linarith, fun heq _ => by linarith⟩

theorem abs_magnitude_sub (m : Nat) (e : Int) (r : ℚ) :
    |magnitude m e - r * 2 ^ e| = |(m : ℚ) - r| * 2 ^ e := by
  rw [magnitude, ← sub_mul, abs_mul, abs_of_pos (two_zpow_pos e)]

/-- A value whose exponent is that of the grid, or that lies below all normal numbers. -/
structure Fits (r : ℚ) (e : Int) : Prop where
  lt : r < 2 ^ 53
  least : -1074 ≤ e
  normal : -1074 < e → 2 ^ 52 ≤ r

/-- On the grid that fits a value no candidate is closer than the nearest integer. -/
theorem Fits.closest (h : Fits r e) (hq : |(q : ℚ) - r| ≤ 1 / 2) (h' : IsCandidate m' e') :
    |magnitude q e - r * 2 ^ e| ≤ |magnitude m' e' - r * 2 ^ e| ∧
      (|magnitude m' e' - r * 2 ^ e| = |magnitude q e - r * 2 ^ e| →
        magnitude m' e' ≠ magnitude q e → |(q : ℚ) - r| = 1 / 2) := by
  rw [abs_magnitude_sub]
  by_cases he : e ≤ e'
  · obtain ⟨k, hk⟩ := magnitude_of_le m' he
    obtain ⟨hle, htie⟩ := closest_of_half hq k
    rw [hk, abs_magnitude_sub, mul_left_inj' (two_zpow_pos e).ne']
    exact ⟨mul_le_mul_of_nonneg_right hle (two_zpow_pos e).le,
      fun heq hne => htie heq fun hkq => hne (by rw [hkq])⟩
  · -- The candidate lies below the normal numbers of this exponent, and these below the value.
    have hr := h.normal (by have := h'.least; omega)
    have hbelow := h'.lt_normal (not_le.1 he)
    have hpower := mul_le_mul_of_nonneg_right (closest_of_half hq (2 ^ 52)).1 (two_zpow_pos e).le
    rw [← abs_magnitude_sub (2 ^ 52)] at hpower
    have hvalue : magnitude (2 ^ 52) e ≤ r * 2 ^ e := by
      rw [magnitude]
      exact mul_le_mul_of_nonneg_right (by exact_mod_cast hr) (two_zpow_pos e).le
    rw [abs_of_nonpos (by linarith : magnitude (2 ^ 52) e - r * 2 ^ e ≤ 0)] at hpower
    rw [abs_of_nonpos (by linarith : magnitude m' e' - r * 2 ^ e ≤ 0)]
    exact ⟨by linarith, fun heq => by linarith⟩

/-- A candidate of the magnitude of the nearest integer on the grid is the nearest candidate. -/
theorem Fits.isNearest (h : Fits r e) (hq : |(q : ℚ) - r| ≤ 1 / 2)
    (htie : |(q : ℚ) - r| = 1 / 2 → m % 2 = 0) (hm : IsCandidate m e')
    (hmagnitude : magnitude m e' = magnitude q e) : IsNearest (r * 2 ^ e) m e' where
  candidate := hm
  closest h' := by
    rw [hmagnitude]
    exact (h.closest hq h').1
  even := by
    intro m'' e'' h' hdist hne
    rw [hmagnitude] at hdist
    refine htie ((h.closest hq h').2 hdist fun heq => hne ?_)
    exact h'.ext hm (heq.trans hmagnitude.symm)

theorem IsCandidate.le_top (h : IsCandidate m e) : magnitude m e ≤ magnitude (2 ^ 52) 972 := by
  rcases h.most with hmost | ⟨rfl, rfl⟩
  · exact (h.lt_normal (by omega)).le
  · exact le_rfl

theorem isCandidate_top : IsCandidate (2 ^ 52) 972 :=
  ⟨by norm_num, by norm_num, fun _ => le_rfl, .inr ⟨rfl, rfl⟩⟩

/-- From `2 ^ 1024` on nothing finite is nearest. -/
theorem isNearest_top (hv : magnitude (2 ^ 52) 972 ≤ v) : IsNearest v (2 ^ 52) 972 where
  candidate := isCandidate_top
  closest := by
    intro m' e' h'
    have hle := h'.le_top
    rw [abs_of_nonpos (by linarith), abs_of_nonpos (by linarith)]
    linarith
  even _ _ _ := by norm_num

theorem isCandidate_zero : IsCandidate 0 (-1074) :=
  ⟨by norm_num, le_rfl, fun h => absurd h (lt_irrefl _), .inl (by norm_num)⟩

/-- Up to half of the least positive number the nearest is zero. -/
theorem isNearest_zero (hv : 0 ≤ v) (hsmall : 2 * v ≤ magnitude 1 (-1074)) :
    IsNearest v 0 (-1074) where
  candidate := isCandidate_zero
  closest := by
    intro m' e' h'
    have hzero : magnitude 0 (-1074) = 0 := by simp [magnitude]
    rw [hzero, zero_sub, abs_neg, abs_of_nonneg hv]
    rcases (magnitude_nonneg m' e').eq_or_lt with heq | hpos
    · rw [← heq, zero_sub, abs_neg, abs_of_nonneg hv]
    · have hone := isCandidate_zero.succ_le h' (by rwa [hzero])
      rw [zero_add] at hone
      exact (by linarith : v ≤ magnitude m' e' - v).trans (le_abs_self _)
  even _ _ _ := rfl

/-- Scaling by a power of two does not change the value. -/
theorem scaled_spec (hden : 0 < den) (h : scaled num den e = (n, d)) :
    0 < d ∧ (n : ℚ) / d * 2 ^ e = num / den := by
  have hden' : (den : ℚ) ≠ 0 := Nat.cast_ne_zero.2 hden.ne'
  cases e with
  | ofNat e =>
    obtain ⟨rfl, rfl⟩ := Prod.mk.inj h
    refine ⟨Nat.mul_pos hden (Nat.pow_pos two_pos), ?_⟩
    simp only [Int.ofNat_eq_natCast, zpow_natCast, Nat.pow_eq, Nat.cast_mul, Nat.cast_pow,
      Nat.cast_ofNat]
    field_simp
  | negSucc e =>
    obtain ⟨rfl, rfl⟩ := Prod.mk.inj h
    refine ⟨hden, ?_⟩
    simp only [zpow_negSucc, Nat.pow_eq, Nat.cast_mul, Nat.cast_pow, Nat.cast_ofNat]
    field_simp

theorem log2_spec (hn : 0 < n) :
    (2 : ℚ) ^ (n.log2 : Int) ≤ n ∧ (n : ℚ) < 2 ^ ((n.log2 : Int) + 1) := by
  have hle := Nat.log2_self_le hn.ne'
  have hlt := Nat.lt_log2_self (n := n)
  constructor
  · rw [zpow_natCast]
    exact_mod_cast hle
  · rw [← Nat.cast_succ, zpow_natCast]
    exact_mod_cast hlt

/-- A ratio has the exponent of its logarithms' difference, or one less. -/
theorem ratio_bounds (hnum : 0 < num) (hden : 0 < den)
    (he : e = (num.log2 : Int) - (den.log2 : Int)) :
    (2 : ℚ) ^ (e - 1) ≤ num / den ∧ (num : ℚ) / den < 2 ^ (e + 1) := by
  obtain ⟨hnum₁, hnum₂⟩ := log2_spec hnum
  obtain ⟨hden₁, hden₂⟩ := log2_spec hden
  have hden' : (0 : ℚ) < den := Nat.cast_pos.2 hden
  rw [le_div_iff₀ hden', div_lt_iff₀ hden']
  constructor
  · calc (2 : ℚ) ^ (e - 1) * den ≤ 2 ^ (e - 1) * 2 ^ ((den.log2 : Int) + 1) := by gcongr
      _ = 2 ^ (num.log2 : Int) := by
        rw [← zpow_add₀ two_ne_zero]
        congr 1
        omega
      _ ≤ num := hnum₁
  · calc (num : ℚ) < 2 ^ ((num.log2 : Int) + 1) := hnum₂
      _ = 2 ^ (e + 1) * 2 ^ (den.log2 : Int) := by
        rw [← zpow_add₀ two_ne_zero]
        congr 1
        omega
      _ ≤ 2 ^ (e + 1) * den := by gcongr

/-- The floor of the logarithm, from the lengths of the two integers. -/
theorem floorLog_spec (hnum : 0 < num) (hden : 0 < den) :
    (2 : ℚ) ^ floorLog num den ≤ num / den ∧ (num : ℚ) / den < 2 ^ (floorLog num den + 1) := by
  obtain ⟨hlower, hupper⟩ := ratio_bounds hnum hden rfl
  unfold floorLog
  generalize (num.log2 : Int) - (den.log2 : Int) = e at *
  cases hs : scaled num den e with
  | mk n d =>
    obtain ⟨hd, hvalue⟩ := scaled_spec hden hs
    have hd' : (0 : ℚ) < d := Nat.cast_pos.2 hd
    simp only [hs]
    split_ifs with h
    · refine ⟨?_, hupper⟩
      have hone : (1 : ℚ) ≤ n / d := by
        rw [le_div_iff₀ hd', one_mul]
        exact_mod_cast h
      rw [← hvalue]
      exact le_mul_of_one_le_left (two_zpow_pos e).le hone
    · refine ⟨hlower, ?_⟩
      have hone : (n : ℚ) / d < 1 := by
        rw [div_lt_iff₀ hd', one_mul]
        exact_mod_cast not_le.1 h
      rw [← hvalue, sub_add_cancel]
      exact mul_lt_of_lt_one_left (two_zpow_pos e) hone

/-- The exponent for which a ratio is rounded is that of a grid that fits it. -/
theorem fits_scaled (hnum : 0 < num) (hden : 0 < den) (he : e = max (-1074) (floorLog num den - 52))
    (hr : r * 2 ^ e = num / den) : Fits r e := by
  obtain ⟨hlower, hupper⟩ := floorLog_spec hnum hden
  rw [← hr] at hlower hupper
  refine ⟨?_, by omega, fun hnormal => ?_⟩
  · refine lt_of_mul_lt_mul_right ?_ (two_zpow_pos e).le
    calc r * 2 ^ e < 2 ^ (floorLog num den + 1) := hupper
      _ ≤ 2 ^ ((53 : Nat) + e) := zpow_le_zpow_right₀ one_le_two (by push_cast; omega)
      _ = 2 ^ 53 * 2 ^ e := by rw [zpow_add₀ two_ne_zero, zpow_natCast]
  · refine le_of_mul_le_mul_right ?_ (two_zpow_pos e)
    calc (2 : ℚ) ^ 52 * 2 ^ e = 2 ^ ((52 : Nat) + e) := by
          rw [zpow_add₀ two_ne_zero, zpow_natCast]
      _ ≤ 2 ^ floorLog num den := zpow_le_zpow_right₀ one_le_two (by push_cast; omega)
      _ ≤ r * 2 ^ e := hlower

/-- The integer nearest to a value that fits has at most one digit too many. -/
theorem Fits.significand (h : Fits r e) (hq : |(q : ℚ) - r| ≤ 1 / 2) :
    q ≤ 2 ^ 53 ∧ (-1074 < e → 2 ^ 52 ≤ q) := by
  obtain ⟨hdown, hup⟩ := abs_le.1 hq
  have hlt := h.lt
  constructor
  · have : (q : ℚ) < (2 ^ 53 + 1 : Nat) := by
      push_cast
      linarith
    exact Nat.le_of_lt_succ (Nat.cast_lt.1 this)
  · intro he
    have hnormal := h.normal he
    have : ((2 ^ 52 : Nat) : ℚ) < (q + 1 : Nat) := by
      push_cast
      linarith
    exact Nat.le_of_lt_succ (Nat.cast_lt.1 this)

/-- The nearest integer on the grid, with one exponent more if it has a digit too many. -/
theorem Fits.rounds (h : Fits r e) (negative : Bool) (hq : |(q : ℚ) - r| ≤ 1 / 2)
    (htie : |(q : ℚ) - r| = 1 / 2 → q % 2 = 0)
    (hm : (if q = 2 ^ 53 then (2 ^ 52, e + 1) else (q, e)) = (m, e')) :
    Rounds negative (r * 2 ^ e)
      (if 971 < e' then .infinite negative else .finite negative m e') := by
  obtain ⟨hle, hnormal⟩ := h.significand hq
  have hleast := h.least
  by_cases he : 971 < e
  · have hv : magnitude (2 ^ 52) 972 ≤ r * 2 ^ e := by
      have hpower : (2 : ℚ) ^ (972 : Int) ≤ 2 ^ e := zpow_le_zpow_right₀ one_le_two (by omega)
      have hr : ((2 ^ 52 : Nat) : ℚ) ≤ r := by exact_mod_cast h.normal (by omega)
      exact mul_le_mul hr hpower (two_zpow_pos _).le ((Nat.cast_nonneg _).trans hr)
    have he' : 971 < e' := by
      split_ifs at hm <;> · obtain ⟨-, rfl⟩ := Prod.mk.inj hm; omega
    exact ⟨2 ^ 52, 972, isNearest_top hv, by rw [if_pos he', ofCandidate, if_pos rfl]⟩
  · refine ⟨m, e', ?_, ?_⟩
    · split_ifs at hm with hcarry
      · obtain ⟨rfl, rfl⟩ := Prod.mk.inj hm
        refine h.isNearest hq (fun _ => by norm_num) ?_ (by rw [← magnitude_double, hcarry]; rfl)
        exact ⟨by norm_num, by omega, fun _ => le_rfl, by omega⟩
      · obtain ⟨rfl, rfl⟩ := Prod.mk.inj hm
        exact h.isNearest hq htie ⟨by omega, hleast, hnormal, by omega⟩ rfl
    · have he' : e' ≤ 972 := by
        split_ifs at hm <;> · obtain ⟨-, rfl⟩ := Prod.mk.inj hm; omega
      unfold ofCandidate
      congr 1
      exact propext (by omega)

theorem rounds_zero (negative : Bool) : Rounds negative 0 (zero negative) := by
  refine ⟨0, -1074, isNearest_zero le_rfl ?_, rfl⟩
  rw [mul_zero]
  exact magnitude_nonneg _ _

/-- A ratio is rounded to the number for its value. -/
theorem rounds_ofRatio (negative : Bool) (num : Nat) (hden : 0 < den) :
    Rounds negative (num / den) (ofRatio negative num den) := by
  unfold ofRatio
  split_ifs with hzero
  · rw [hzero, Nat.cast_zero, zero_div]
    exact rounds_zero negative
  · generalize he : max (-1074) (floorLog num den - 52) = e
    cases hs : scaled num den e with
    | mk n d =>
      obtain ⟨hd, hvalue⟩ := scaled_spec hden hs
      have hfits := fits_scaled (Nat.pos_of_ne_zero hzero) hden he.symm hvalue
      obtain ⟨hq, htie⟩ := nearest_spec n hd
      rw [← hvalue]
      simp only [hs]
      exact hfits.rounds negative hq htie rfl

end Grid

theorem two_pow_le_ten_pow {a b : Nat} (h : a ≤ 3 * b) : (2 : ℚ) ^ a ≤ 10 ^ b := by
  calc (2 : ℚ) ^ a ≤ 2 ^ (3 * b) := pow_le_pow_right₀ one_le_two h
    _ = 8 ^ b := by rw [pow_mul]; norm_num
    _ ≤ 10 ^ b := by gcongr; norm_num

/-- Above `10 ^ 400` there are no finite numbers. -/
theorem rounds_huge (negative : Bool) {digits : Nat} {exponent : Int} (hdigits : 0 < digits)
    (h : 400 < exponent) : Rounds negative (digits * 10 ^ exponent) (.infinite negative) := by
  refine ⟨2 ^ 52, 972, isNearest_top ?_, rfl⟩
  calc magnitude (2 ^ 52) 972 = (2 : ℚ) ^ 1024 := by
        rw [magnitude, Nat.cast_pow, Nat.cast_ofNat, ← zpow_natCast, ← zpow_natCast,
          ← zpow_add₀ two_ne_zero]
        rfl
    _ ≤ 10 ^ 401 := two_pow_le_ten_pow (by norm_num)
    _ ≤ 10 ^ exponent := by
      rw [← zpow_natCast]
      exact zpow_le_zpow_right₀ (by norm_num) h
    _ ≤ digits * 10 ^ exponent :=
      le_mul_of_one_le_left (by positivity) (by exact_mod_cast hdigits)

/-- A number with so many places that its digits do not make up for them is nearest to zero. -/
theorem rounds_tiny (negative : Bool) {digits : Nat} {exponent : Int} (hdigits : 0 < digits)
    (h : exponent < -400 - (digits.log2 : Int)) :
    Rounds negative (digits * 10 ^ exponent) (zero negative) := by
  refine ⟨0, -1074, isNearest_zero (by positivity) ?_, rfl⟩
  have hpower : (10 : ℚ) ^ exponent ≤ 10 ^ (-401 : Int) * 2 ^ (-(digits.log2 : Int)) := by
    calc (10 : ℚ) ^ exponent ≤ 10 ^ ((-401 : Int) + -(digits.log2 : Int)) :=
          zpow_le_zpow_right₀ (by norm_num) (by omega)
      _ = 10 ^ (-401 : Int) * 10 ^ (-(digits.log2 : Int)) := zpow_add₀ (by norm_num) _ _
      _ ≤ 10 ^ (-401 : Int) * 2 ^ (-(digits.log2 : Int)) := by
        gcongr
        rw [zpow_neg, zpow_neg, zpow_natCast, zpow_natCast]
        gcongr
        norm_num
  calc 2 * (digits * (10 : ℚ) ^ exponent)
      ≤ 2 * (2 ^ ((digits.log2 : Int) + 1) * (10 ^ (-401 : Int) * 2 ^ (-(digits.log2 : Int)))) := by
        gcongr
        exact (log2_spec hdigits).2.le
    _ = 4 * 10 ^ (-401 : Int) := by
      rw [zpow_add_one₀ two_ne_zero, zpow_neg]
      field_simp
      norm_num
    _ ≤ magnitude 1 (-1074) := by
      have hten : (4 : ℚ) * 2 ^ 1074 ≤ 10 ^ 401 := by
        have hfour : (4 : ℚ) = 2 ^ 2 := by norm_num
        rw [hfour, ← pow_add]
        exact two_pow_le_ten_pow (by norm_num)
      have hleast : magnitude 1 (-1074) = ((2 : ℚ) ^ 1074)⁻¹ := by
        rw [magnitude, Nat.cast_one, one_mul, ← zpow_natCast, ← zpow_neg]
        rfl
      have htenth : (10 : ℚ) ^ (-401 : Int) = ((10 : ℚ) ^ 401)⁻¹ := by
        rw [← zpow_natCast, ← zpow_neg]
        rfl
      rw [hleast, htenth, ← div_eq_mul_inv, ← one_div]
      exact (div_le_div_iff₀ (by positivity) (by positivity)).2 (by rwa [one_mul])

/-- A decimal is read as the number for its value. -/
theorem rounds_ofDecimal (negative : Bool) (digits : Nat) (exponent : Int) :
    Rounds negative (digits * 10 ^ exponent) (ofDecimal negative digits exponent) := by
  unfold ofDecimal
  split_ifs with hzero hhuge htiny
  · rw [hzero, Nat.cast_zero, zero_mul]
    exact rounds_zero negative
  · exact rounds_huge negative (Nat.pos_of_ne_zero hzero) hhuge
  · exact rounds_tiny negative (Nat.pos_of_ne_zero hzero) htiny
  · cases exponent with
    | ofNat e =>
      have h := rounds_ofRatio negative (digits * Nat.pow 10 e) Nat.one_pos
      simpa using h
    | negSucc e =>
      have h := rounds_ofRatio negative digits (Nat.pow_pos (n := e + 1) (by decide : 0 < 10))
      simpa [zpow_negSucc, div_eq_mul_inv] using h

/-- The value of a finite number. -/
def value? : Binary64 → Option ℚ
  | .finite negative m e => some (if negative then -magnitude m e else magnitude m e)
  | _ => none

section Integers

variable {m n d : Nat} {e : Int} {x : Binary64}

/-- Every number with so many digits and such an exponent has a canonical form. -/
theorem exists_candidate (k : Nat) (hm : m < 2 ^ 53) (he : e = k - 1074) (hmost : e ≤ 971) :
    ∃ m' e', IsCandidate m' e' ∧ e' ≤ 971 ∧ magnitude m' e' = magnitude m e := by
  induction k generalizing m e with
  | zero => exact ⟨m, e, ⟨hm, by omega, fun h => by omega, .inl hmost⟩, hmost, rfl⟩
  | succ k ih =>
    by_cases hnormal : 2 ^ 52 ≤ m
    · exact ⟨m, e, ⟨hm, by omega, fun _ => hnormal, .inl hmost⟩, hmost, rfl⟩
    · rw [← sub_add_cancel e 1, ← magnitude_double]
      exact ih (by omega) (by omega) (by omega)

/-- A number is rounded to itself. -/
theorem Rounds.exact {negative : Bool} (k : Nat) (hm : m < 2 ^ 53) (he : e = k - 1074)
    (hmost : e ≤ 971) (h : Rounds negative (magnitude m e) x) :
    ∃ m' e', x = .finite negative m' e' ∧ magnitude m' e' = magnitude m e := by
  obtain ⟨n, f, hnearest, rfl⟩ := h
  obtain ⟨m', e', hm', hfinite, hmagnitude⟩ := exists_candidate k hm he hmost
  have hclosest := hnearest.closest hm'
  rw [hmagnitude, sub_self, abs_zero] at hclosest
  have hn : magnitude n f = magnitude m e := sub_eq_zero.1 (abs_nonpos_iff.1 hclosest)
  obtain ⟨rfl, rfl⟩ := Prod.mk.inj (hnearest.candidate.ext hm' (hn.trans hmagnitude.symm))
  exact ⟨n, f, if_neg (by omega), hn⟩

theorem magnitude_zero (n : Nat) : magnitude n 0 = n := by
  rw [magnitude, zpow_zero, mul_one]

/-- A small integer is a number. -/
theorem Rounds.value?_eq (hn : n < 2 ^ 53) (h : Rounds false n x) : x.value? = some (n : ℚ) := by
  rw [← magnitude_zero] at h ⊢
  obtain ⟨m', e', rfl, hmagnitude⟩ := h.exact 1074 hn rfl (by norm_num)
  exact congrArg some hmagnitude

/-- A large integer is rounded to an integer. -/
theorem Rounds.integral (hn : n < 2 ^ 64) (h : Rounds false n x) :
    ∃ k : Nat, x.value? = some (k : ℚ) := by
  by_cases hsmall : n < 2 ^ 53
  · exact ⟨n, h.value?_eq hsmall⟩
  obtain ⟨m, e, hnearest, rfl⟩ := h
  -- the nearest candidate is not below `2 ^ 53`, so its exponent is not negative, and not infinite
  have hlower : IsCandidate (2 ^ 52) 1 :=
    ⟨by norm_num, by norm_num, fun _ => le_rfl, .inl (by norm_num)⟩
  have hupper : IsCandidate (2 ^ 52) 13 :=
    ⟨by norm_num, by norm_num, fun _ => le_rfl, .inl (by norm_num)⟩
  have hge : magnitude (2 ^ 52) 1 ≤ n := by
    have hpower : magnitude (2 ^ 52) 1 = (2 ^ 53 : Nat) := by norm_num [magnitude]
    rw [hpower, Nat.cast_le]
    exact not_lt.1 hsmall
  have hlt : 2 * (n : ℚ) < magnitude (2 ^ 52) 13 := by
    have hpower : magnitude (2 ^ 52) 13 = (2 * 2 ^ 64 : Nat) := by norm_num [magnitude]
    rw [hpower]
    exact_mod_cast Nat.mul_lt_mul_of_pos_left hn two_pos
  have hclosest := hnearest.closest hlower
  rw [abs_of_nonpos (sub_nonpos.2 hge)] at hclosest
  obtain ⟨habove, hbelow⟩ := abs_le.1 hclosest
  have hpos : 0 ≤ e := by
    by_contra hneg
    have := hnearest.candidate.lt_normal (show e < 1 by omega)
    linarith
  have hfinite : e ≠ 972 := by
    rintro rfl
    have htop := hupper.lt_normal (show (13 : Int) < 972 by norm_num)
    have := hnearest.candidate.normal_le (by norm_num)
    have := magnitude_nonneg (2 ^ 52) 1
    linarith
  obtain ⟨k, hk⟩ := magnitude_of_le m hpos
  refine ⟨k, ?_⟩
  rw [ofCandidate, if_neg hfinite]
  exact congrArg some (hk.trans (magnitude_zero k))

/-- The ratio of a number is its magnitude. -/
theorem ratio_spec (h : ratio m e = (n, d)) : 0 < d ∧ (n : ℚ) / d = magnitude m e := by
  cases e with
  | ofNat e =>
    obtain ⟨rfl, rfl⟩ := Prod.mk.inj h
    simp [magnitude]
  | negSucc e =>
    obtain ⟨rfl, rfl⟩ := Prod.mk.inj h
    exact ⟨Nat.pow_pos two_pos, by simp [magnitude, zpow_negSucc, div_eq_mul_inv]⟩

/-- An index is the value of the number, also of a negative zero. -/
theorem value?_of_index? (h : x.index? = some n) : x.value? = some (n : ℚ) := by
  cases x with
  | finite negative m e =>
    cases hratio : ratio m e with
    | mk num den =>
      obtain ⟨hden, hvalue⟩ := ratio_spec hratio
      simp only [index?, integral?, hratio] at h
      split_ifs at h with hwhole
      · simp only [Option.bind_eq_bind, Option.bind_some, guard] at h
        split_ifs at h with hsmall
        · obtain rfl : num / den = n := Option.some.inj h
          have hn : ((num / den : Nat) : ℚ) = magnitude m e := by
            rw [← hvalue, Nat.cast_div (Nat.dvd_of_mod_eq_zero hwhole)
              (Nat.cast_ne_zero.2 hden.ne')]
          rw [value?, hn]
          cases negative with
          | false => rfl
          | true =>
            have hzero : num / den = 0 := by
              simpa [isNegative] using (Bool.and_eq_true_iff.1 hsmall).2
            rw [hzero, Nat.cast_zero] at hn
            rw [← hn, neg_zero]
            rfl
        · cases h
      · cases h
  | infinite negative => cases h
  | nan => cases h

end Integers

end Untangle.Binary64
