import Mathlib.Tactic.IntervalCases
import Untangle.Proofs.Json.RoundTrip
import Untangle.Proofs.Number.Rounding

/-!
# The number that a text reads as

An integer of 64 bits reads back from its text. Any other number is brought to
its size by products and quotients of rounded numbers, which alone does not
give the double nearest to it. It does where the significand is below `2 ^ 53`
and the power of ten is at most `10 ^ 22`: then both are doubles themselves
and only one operation is left to round.
-/
namespace Untangle

namespace Binary64

theorem rounds_product (s t : Bool) (m n : Nat) (e f : Int) :
    Rounds (s != t) (magnitude m e * magnitude n f)
      (product (.finite s m e) (.finite t n f)) := by
  cases hx : ratio m e with
  | mk a b =>
    cases hy : ratio n f with
    | mk c d =>
      obtain ⟨hb, ha⟩ := ratio_spec hx
      obtain ⟨hd, hc⟩ := ratio_spec hy
      rw [← ha, ← hc, div_mul_div_comm, ← Nat.cast_mul, ← Nat.cast_mul]
      simp only [product, hx, hy]
      exact rounds_ofRatio _ _ (Nat.mul_pos hb hd)

theorem rounds_quotient (s t : Bool) (m : Nat) {n : Nat} (e f : Int) (hn : 0 < n) :
    Rounds (s != t) (magnitude m e / magnitude n f)
      (quotient (.finite s m e) (.finite t n f)) := by
  cases hx : ratio m e with
  | mk a b =>
    cases hy : ratio n f with
    | mk c d =>
      obtain ⟨hb, ha⟩ := ratio_spec hx
      obtain ⟨hd, hc⟩ := ratio_spec hy
      have hpos : 0 < magnitude n f := mul_pos (Nat.cast_pos.2 hn) (two_zpow_pos f)
      have hcpos : 0 < c := by
        refine Nat.pos_of_ne_zero fun h => ?_
        rw [h, Nat.cast_zero, zero_div] at hc
        exact hpos.ne hc
      rw [← ha, ← hc, div_div_div_eq, ← Nat.cast_mul, ← Nat.cast_mul]
      simp only [quotient, hx, hy, if_neg hn.ne']
      exact rounds_ofRatio _ _ (Nat.mul_pos hb hcpos)

/-- What is not above a finite number is rounded to a finite number. -/
theorem Rounds.isFinite {negative : Bool} {v : ℚ} {x : Binary64} {m : Nat} {e : Int} (k : Nat)
    (hm : m < 2 ^ 53) (he : e = k - 1074) (hmost : e ≤ 971) (hv : v ≤ magnitude m e)
    (h : Rounds negative v x) : x.isFinite = true := by
  obtain ⟨n, f, hnearest, rfl⟩ := h
  obtain ⟨m', e', hm', hfinite, hmagnitude⟩ := exists_candidate k hm he hmost
  by_cases htop : f = 972
  · have hlt := hm'.magnitude_lt hnearest.candidate (by omega)
    have hclosest := hnearest.closest hm'
    rw [abs_of_pos (by linarith), abs_of_nonneg (by linarith)] at hclosest
    linarith
  · rw [ofCandidate, if_neg htop]
    rfl

end Binary64

namespace Json

open Binary64

section Integers

theorem digit?_digitChar : ∀ d < 10, digit? (Nat.digitChar d) = some d := by decide

/-- The digits of a positive integer, from where its first one is taken up. -/
theorem run_toDigits {s : State} {negative : Bool} {frames : List Frame}
    (h : ∀ d < 10, 0 < d →
      step s (Nat.digitChar d) = .ok ⟨.number (.start .integer negative d), frames⟩)
    {n : Nat} (hn : 0 < n) (hfits : n < 0x10000000000000000) :
    run s (Nat.toDigits 10 n) = .ok ⟨.number (.start .integer negative n), frames⟩ := by
  induction n using Nat.strongRecOn with
  | ind n ih =>
    by_cases hsmall : n < 10
    · rw [Nat.toDigits_of_lt_base hsmall, run_cons, h n hsmall hn]
      rfl
    · have hsplit : n / 10 * 10 + n % 10 = n := by omega
      rw [Nat.toDigits_of_base_le (by decide) (by omega), run_append,
        ih (n / 10) (by omega) (by omega) (by omega)]
      simp [Except.bind, step, NumberScan.step, NumberScan.start, NumberScan.wholeDigit,
        NumberScan.holds, digit?_digitChar (n % 10) (by omega), hsplit, hfits]

theorem step_value_digit : ∀ d < 10, 0 < d →
    step ⟨.value, []⟩ (Nat.digitChar d) = .ok ⟨.number (.start .integer false d), []⟩ := by
  intro d hd hpos
  interval_cases d <;> rfl

theorem step_minus_digit : ∀ d < 10, 0 < d →
    step ⟨.number (.start .minus true 0), []⟩ (Nat.digitChar d)
      = .ok ⟨.number (.start .integer true d), []⟩ := by
  intro d hd hpos
  interval_cases d <;> rfl

/-- An integer of 64 bits, with a sign or without one, reads back. -/
theorem legible_integer {n : Int} (hleast : -0x8000000000000000 ≤ n)
    (hmost : n < 0x10000000000000000) : Legible (.integer n) := by
  show read (toString n) = .ok (.integer n)
  cases n with
  | ofNat n =>
    have htext : (toString (Int.ofNat n)).toList = Nat.toDigits 10 n := Nat.toList_repr
    rw [read_eq, htext]
    obtain rfl | hn := n.eq_zero_or_pos
    · rfl
    · rw [run_toDigits step_value_digit hn (Int.ofNat_lt.1 hmost)]
      rfl
  | negSucc n =>
    have htext : (toString (Int.negSucc n)).toList = '-' :: Nat.toDigits 10 (n + 1) := by
      rw [← Nat.toList_repr]
      exact String.toList_append
    have hdigits := run_toDigits step_minus_digit n.succ_pos (by omega)
    have hfits : n + 1 ≤ 0x8000000000000000 := by omega
    rw [read_eq, htext, run_cons]
    show ((run ⟨.number (.start .minus true 0), []⟩ (Nat.toDigits 10 (n + 1))).bind finish) = _
    rw [hdigits]
    simp [Except.bind, finish, NumberScan.value, NumberScan.start, hfits, Int.negSucc_eq]

end Integers

section Decimals

/-- A power of ten whose power of five is a significand. -/
theorem exists_tenPower {k : Nat} (hk : k ≤ 22) :
    ∃ m e, NumberScan.tenPower k = .finite false m e ∧ magnitude m e = 10 ^ k := by
  have hpower : magnitude (5 ^ k) k = 10 ^ k := by
    rw [magnitude, zpow_natCast, Nat.cast_pow, Nat.cast_ofNat, ← mul_pow]
    norm_num
  have hfive : 5 ^ k < 2 ^ 53 :=
    lt_of_le_of_lt (Nat.pow_le_pow_right (by decide) hk) (by decide)
  have hrounds := rounds_ofDecimal false 1 k
  rw [Nat.cast_one, one_mul, zpow_natCast, ← hpower] at hrounds
  rw [← hpower]
  exact hrounds.exact (k + 1074) hfive (by push_cast; ring) (by omega)

/-- With few digits and a small power of ten the rounded operation gives the nearest number. -/
theorem timesTenPower_eq (negative : Bool) {digits : Nat} (hdigits : digits < 2 ^ 53)
    (exponent : Int) (hexponent : exponent.natAbs ≤ 22) :
    NumberScan.timesTenPower (.ofRatio negative digits 1) exponent
      = .ofDecimal negative digits exponent := by
  have hrounds := rounds_ofRatio negative digits Nat.one_pos
  rw [Nat.cast_one, div_one, ← magnitude_zero] at hrounds
  obtain ⟨m, e, hx, hm⟩ := hrounds.exact (e := 0) 1074 hdigits rfl (by norm_num)
  rw [magnitude_zero] at hm
  refine Rounds.unique ?_ (rounds_ofDecimal negative digits exponent)
  rw [hx]
  cases exponent with
  | ofNat k =>
    have hk : k ≤ 22 := hexponent
    obtain ⟨n, f, hpower, hn⟩ := exists_tenPower hk
    have h := rounds_product negative false m n e f
    rw [hm, hn, Bool.bne_false, ← hpower] at h
    rw [NumberScan.timesTenPower, if_pos (by omega)]
    simpa using h
  | negSucc k =>
    have hk : k + 1 ≤ 22 := hexponent
    have hlarge : k < 308 := by omega
    obtain ⟨n, f, hpower, hn⟩ := exists_tenPower hk
    have hpos : 0 < n := by
      refine Nat.pos_of_ne_zero fun h => ?_
      rw [h, magnitude, Nat.cast_zero, zero_mul] at hn
      exact (pow_ne_zero (k + 1) (by norm_num)) hn.symm
    have h := rounds_quotient negative false m e f hpos
    rw [hm, hn, Bool.bne_false, ← hpower] at h
    rw [NumberScan.timesTenPower, Nat.div_eq_of_lt hlarge, Nat.mod_eq_of_lt hlarge,
      NumberScan.lowered]
    simpa [zpow_negSucc, div_eq_mul_inv] using h

theorem le_ofDigitChars (cs : List Char) (n : Nat) : n ≤ Nat.ofDigitChars 10 cs n := by
  induction cs generalizing n with
  | nil => exact le_rfl
  | cons c cs ih =>
    rw [Nat.ofDigitChars_cons]
    exact le_trans (by omega) (ih _)

theorem step_fraction {scan : NumberScan} (hphase : scan.phase = .point ∨ scan.phase = .fraction)
    (hfull : scan.full = false) {c : Char} (hc : c.isDigit)
    (hfits : 10 * scan.significand + (c.toNat - '0'.toNat) < 0x10000000000000000)
    (frames : List Frame) :
    step ⟨.number scan, frames⟩ c = .ok ⟨.number { scan with
      phase := .fraction
      significand := 10 * scan.significand + (c.toNat - '0'.toNat)
      scale := scan.scale - 1 }, frames⟩ := by
  obtain ⟨phase, negative, significand, scale, full, exponentNegative, exponent⟩ := scan
  have hd : digit? c = some (c.toNat - '0'.toNat) := if_pos hc
  rw [Nat.mul_comm] at hfits ⊢
  obtain rfl | rfl := hphase <;>
    simp_all [step, NumberScan.step, NumberScan.fractionDigit, NumberScan.holds]

/-- The digits behind the point, as long as the significand holds them. -/
theorem run_fraction {cs : List Char} (hdigits : ∀ d ∈ cs, d.isDigit) {scan : NumberScan}
    (hphase : scan.phase = .fraction) (hfull : scan.full = false)
    (hfits : Nat.ofDigitChars 10 cs scan.significand < 0x10000000000000000)
    (frames : List Frame) :
    run ⟨.number scan, frames⟩ cs = .ok ⟨.number { scan with
      significand := Nat.ofDigitChars 10 cs scan.significand
      scale := scan.scale - cs.length }, frames⟩ := by
  induction cs generalizing scan with
  | nil => simp [Nat.ofDigitChars_nil]
  | cons c cs ih =>
    obtain ⟨hc, hcs⟩ := List.forall_mem_cons.1 hdigits
    rw [Nat.ofDigitChars_cons] at hfits ⊢
    have hnext := lt_of_le_of_lt (le_ofDigitChars cs _) hfits
    rw [run_cons, step_fraction (.inr hphase) hfull hc hnext]
    simp only [Except.bind]
    rw [ih hcs (by rfl) (by exact hfull) (by exact hfits)]
    simp [hphase, sub_sub, add_comm]

theorem run_point {n : Nat} (hn : n < 0x10000000000000000) :
    run ⟨.value, []⟩ (Nat.toDigits 10 n ++ ['.']) = .ok ⟨.number (.start .point false n), []⟩ := by
  rw [run_append]
  obtain rfl | hpos := n.eq_zero_or_pos
  · rfl
  · rw [run_toDigits step_value_digit hpos hn]
    rfl

/-- The text of a decimal whose digits the significand holds. -/
theorem run_decimal {n : Nat} {c : Char} {cs : List Char} (hdigits : ∀ d ∈ c :: cs, d.isDigit)
    (hfits : Nat.ofDigitChars 10 (c :: cs) n < 0x10000000000000000) :
    run ⟨.value, []⟩ (n.repr ++ "." ++ String.ofList (c :: cs)).toList
      = .ok ⟨.number ⟨.fraction, false, Nat.ofDigitChars 10 (c :: cs) n, -(c :: cs).length, false,
          false, 0⟩, []⟩ := by
  obtain ⟨hc, hcs⟩ := List.forall_mem_cons.1 hdigits
  have hpoint := run_point (lt_of_le_of_lt (le_ofDigitChars (c :: cs) n) hfits)
  rw [Nat.ofDigitChars_cons] at hfits ⊢
  have hfirst := lt_of_le_of_lt (le_ofDigitChars cs _) hfits
  rw [String.toList_append, String.toList_append, Nat.toList_repr]
  refine (run_append _ _ _).trans ?_
  refine (congrArg (Except.bind · _) hpoint).trans ?_
  simp only [Except.bind]
  rw [String.toList_ofList, run_cons, step_fraction (.inl rfl) rfl hc hfirst]
  simp only [Except.bind]
  rw [run_fraction hcs (by rfl) (by rfl) (by exact hfits)]
  simp [NumberScan.start, sub_eq_add_neg, add_comm]

/-- A decimal with few digits reads as the number nearest to it. -/
theorem read_decimal {n : Nat} {c : Char} {cs : List Char} (hdigits : ∀ d ∈ c :: cs, d.isDigit)
    (hplaces : (c :: cs).length ≤ 22) (hsmall : Nat.ofDigitChars 10 (c :: cs) n < 2 ^ 53) :
    read (n.repr ++ "." ++ String.ofList (c :: cs)) = .ok (.double
      (.ofDecimal false (Nat.ofDigitChars 10 (c :: cs) n) (-(c :: cs).length))) := by
  have hfinite : (ofDecimal false (Nat.ofDigitChars 10 (c :: cs) n)
      (-(c :: cs).length)).isFinite = true := by
    refine (rounds_ofDecimal false _ _).isFinite (e := 0) 1074 hsmall rfl (by norm_num) ?_
    rw [magnitude_zero]
    exact mul_le_of_le_one_right (Nat.cast_nonneg _)
      (zpow_le_one_of_nonpos₀ (by norm_num) (by omega))
  have hdouble := timesTenPower_eq false hsmall (-(c :: cs).length) (by omega)
  rw [read_eq, run_decimal hdigits (by omega)]
  simp only [Except.bind, finish, NumberScan.value, NumberScan.double]
  rw [if_neg Bool.false_ne_true, Nat.cast_zero, add_zero, hdouble, if_pos hfinite]

-- one digit more, and the significand is rounded as well
example : ∃ x, read "94.52706955539223" = .ok (.double x) ∧
    x ≠ .ofDecimal false 9452706955539223 (-14) :=
  ⟨_, rfl, by decide⟩

end Decimals

end Json

end Untangle
