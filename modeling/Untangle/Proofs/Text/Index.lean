import Mathlib.Data.List.Induction
import Untangle.Proofs.Grammar.Numeral
import Untangle.Proofs.Text.Numeral

/-!
# Indices in text

The decimals that are read are those of the grammar without a minus sign, each as the
number nearest to its value. Behind the mark of a base a plus sign is read that the
grammar does not have, and the next line character is skipped although it is no space.
With these two exceptions a text that is read as an index is converted to that index.
-/
namespace Untangle.Text

open Numeral
open Binary64 (Rounds)

section Digits

variable {radix : Nat} {c : Char} {cs a b : List Char} {n d k : Nat}

theorem toNat_digitChar : ∀ d < 16,
    if d < 10 then (Nat.digitChar d).toNat = 48 + d
    else (Nat.digitChar d).toNat = 87 + d ∧ (Nat.digitChar d).toUpper.toNat = 55 + d := by
  decide

/-- A hexadecimal digit is a character in one of two cases. -/
theorem digitValue?_eq_some_iff (hd : d < 16) :
    digitValue? c = some d ↔ c = Nat.digitChar d ∨ c = (Nat.digitChar d).toUpper := by
  have hchar := toNat_digitChar d hd
  constructor
  · intro h
    unfold digitValue? at h
    split_ifs at h with hdigit hlower hupper
    · have hrange : 48 ≤ c.toNat ∧ c.toNat ≤ 57 := Char.isDigit_iff_toNat.1 hdigit
      have hvalue : c.toNat - 48 = d := Option.some.inj h
      rw [if_pos (by omega)] at hchar
      exact .inl (Char.toNat_inj.1 (by omega))
    · have h₁ : 97 ≤ c.toNat := hlower.1
      have hvalue : c.toNat - 97 + 10 = d := Option.some.inj h
      rw [if_neg (by omega)] at hchar
      exact .inl (Char.toNat_inj.1 (by omega))
    · have h₁ : 65 ≤ c.toNat := hupper.1
      have hvalue : c.toNat - 65 + 10 = d := Option.some.inj h
      rw [if_neg (by omega)] at hchar
      exact .inr (Char.toNat_inj.1 (by omega))
  · have hall : ∀ d < 16, digitValue? (Nat.digitChar d) = some d ∧
        digitValue? (Nat.digitChar d).toUpper = some d := by decide
    rintro (rfl | rfl)
    · exact (hall d hd).1
    · exact (hall d hd).2

theorem digits?_concat_eq_some_iff (hr : radix ≤ 16) :
    digits? radix (cs ++ [c]) = some k ↔
      ∃ n d, digits? radix cs = some n ∧ IsDigit radix c d ∧ k = n * radix + d := by
  simp only [digits?_concat, Option.bind_eq_bind, Option.bind_eq_some_iff, Option.guard_eq_some',
    exists_const]
  constructor
  · rintro ⟨n, hn, d, hd, hdr, hk⟩
    exact ⟨n, d, hn, ⟨hdr, (digitValue?_eq_some_iff (by omega)).1 hd⟩, (Option.some.inj hk).symm⟩
  · rintro ⟨n, d, hn, ⟨hdr, hc⟩, rfl⟩
    exact ⟨n, hn, d, (digitValue?_eq_some_iff (by omega)).2 hc, hdr, rfl⟩

/-- A run of digits is read as what it spells. -/
theorem digits_iff (hr : radix ≤ 16) :
    Digits radix cs n ↔ cs ≠ [] ∧ digits? radix cs = some n := by
  constructor
  · intro h
    refine ⟨h.ne_nil, ?_⟩
    induction h with
    | @one c d hc =>
      have h := (digits?_concat_eq_some_iff hr).2 ⟨0, d, digits?_nil radix, hc, rfl⟩
      rwa [List.nil_append, Nat.zero_mul, Nat.zero_add] at h
    | more _ hc ih => exact (digits?_concat_eq_some_iff hr).2 ⟨_, _, ih, hc, rfl⟩
  · rintro ⟨hne, h⟩
    induction cs using List.reverseRecOn generalizing n with
    | nil => exact absurd rfl hne
    | append_singleton cs c ih =>
      obtain ⟨m, d, hm, hc, rfl⟩ := (digits?_concat_eq_some_iff hr).1 h
      by_cases hcs : cs = []
      · subst hcs
        obtain rfl : 0 = m := Option.some.inj hm
        rw [Nat.zero_mul, Nat.zero_add]
        exact .one hc
      · exact .more (ih hcs hm) hc

theorem digits_ten_iff : Digits 10 cs n ↔ cs ≠ [] ∧ digits? 10 cs = some n :=
  digits_iff (by norm_num)

/-- Places may also be missing. -/
theorem places_iff : Places cs n ↔ digits? 10 cs = some n := by
  constructor
  · intro h
    cases h with
    | absent => rfl
    | digits hcs => exact (digits_ten_iff.1 hcs).2
  · intro h
    by_cases hcs : cs = []
    · subst hcs
      obtain rfl : 0 = n := Option.some.inj h
      exact .absent
    · exact .digits (digits_ten_iff.2 ⟨hcs, h⟩)

/-- Digits in a row make a number of both parts. -/
theorem digits?_append_eq_some_iff (hr : radix ≤ 16) :
    digits? radix (a ++ b) = some k ↔ ∃ n m,
      digits? radix a = some n ∧ digits? radix b = some m ∧ k = n * radix ^ b.length + m := by
  induction b using List.reverseRecOn generalizing k with
  | nil => simp
  | append_singleton b c ih =>
    rw [← List.append_assoc, digits?_concat_eq_some_iff hr, List.length_append,
      List.length_singleton]
    constructor
    · rintro ⟨p, d, hp, hc, rfl⟩
      obtain ⟨n, m, hn, hm, rfl⟩ := ih.1 hp
      refine ⟨n, _, hn, (digits?_concat_eq_some_iff hr).2 ⟨m, d, hm, hc, rfl⟩, ?_⟩
      ring
    · rintro ⟨n, p, hn, hp, rfl⟩
      obtain ⟨m, d, hm, hc, rfl⟩ := (digits?_concat_eq_some_iff hr).1 hp
      refine ⟨_, d, ih.2 ⟨n, m, hn, hm, rfl⟩, hc, ?_⟩
      ring

/-- A run that is read has digits only. -/
theorem isDigit_of_digits? (h : digits? 10 cs = some n) : ∀ c ∈ cs, c.isDigit = true :=
  (places_iff.2 h).isDigit

end Digits

section Decimals

variable {cs ws fs es : List Char} {n k : Nat} {x : Binary64}

theorem dropPlus_cases (cs : List Char) : cs = '+' :: dropPlus cs ∨ dropPlus cs = cs := by
  unfold dropPlus
  split
  · exact .inl rfl
  · exact .inr rfl

theorem dropPlus_of_isDigit (h : ∀ c ∈ cs, c.isDigit = true) : dropPlus cs = cs := by
  rcases dropPlus_cases cs with hcs | hcs
  · exact absurd (h '+' (hcs ▸ List.mem_cons_self)) (by decide)
  · exact hcs

theorem not_mem_of_isDigit (h : ∀ c ∈ cs, c.isDigit = true) {c : Char} (hc : c.isDigit = false) :
    c ∉ cs :=
  fun hmem => absurd (h c hmem) (by simp [hc])

/-- An exponent starts with its mark and may have a plus sign. -/
theorem exponent?_cons_eq_some_iff {e : Char} :
    exponent? (e :: cs) = some k ↔ (e = 'e' ∨ e = 'E') ∧ Digits 10 (dropPlus cs) k := by
  simp only [exponent?, Option.bind_eq_bind, Option.bind_eq_some_iff, Option.guard_eq_some',
    exists_const, Bool.or_eq_true, beq_iff_eq, digits_ten_iff,
    Bool.not_eq_true', List.isEmpty_eq_false_iff]

/-- The exponents that are read are those without a minus sign. -/
theorem exponent_of_exponent? (h : exponent? es = some k) : Exponent es k ∧ '-' ∉ es := by
  cases es with
  | nil =>
    obtain rfl : 0 = k := Option.some.inj h
    exact ⟨.absent, List.not_mem_nil⟩
  | cons e cs =>
    obtain ⟨he, hcs⟩ := exponent?_cons_eq_some_iff.1 h
    have hminus : '-' ∉ dropPlus cs := not_mem_of_isDigit hcs.isDigit rfl
    have hmark : '-' ≠ e := by rcases he with rfl | rfl <;> decide
    rcases dropPlus_cases cs with hplus | hplain
    · rw [hplus]
      exact ⟨.plus he hcs, by simp [hminus, hmark]⟩
    · rw [hplain] at hcs hminus
      exact ⟨.plain he hcs, by simp [hminus, hmark]⟩

/-- An exponent of the grammar without a minus sign is read. -/
theorem exponent?_of_exponent {i : Int} (h : Exponent es i) (hminus : '-' ∉ es) :
    ∃ k : Nat, i = k ∧ exponent? es = some k := by
  cases h with
  | absent => exact ⟨0, rfl, rfl⟩
  | plain he hcs =>
    refine ⟨_, rfl, exponent?_cons_eq_some_iff.2 ⟨he, ?_⟩⟩
    rwa [dropPlus_of_isDigit hcs.isDigit]
  | plus he hcs => exact ⟨_, rfl, exponent?_cons_eq_some_iff.2 ⟨he, hcs⟩⟩
  | minus => simp at hminus

/-- What does not begin with a digit ends a run of digits. -/
theorem span_digits {rest : List Char} (hws : ∀ c ∈ ws, c.isDigit = true)
    (hrest : ∀ c, rest.head? = some c → c.isDigit = false) :
    (ws ++ rest).takeWhile Char.isDigit = ws ∧ (ws ++ rest).dropWhile Char.isDigit = rest := by
  rw [List.takeWhile_append_of_pos hws, List.dropWhile_append_of_pos hws]
  cases rest with
  | nil => simp
  | cons c rest => simp [hrest c rfl]

theorem head?_of_exponent? (h : exponent? es = some k) :
    ∀ c, es.head? = some c → c.isDigit = false ∧ c ≠ '.' := by
  cases es with
  | nil => simp
  | cons e cs =>
    rintro c hc
    obtain rfl : e = c := Option.some.inj hc
    rcases (exponent?_cons_eq_some_iff.1 h).1 with rfl | rfl <;> decide

/-- A decimal is digits, some of them behind a point, and an exponent. -/
theorem decimal?_eq_some_iff :
    decimal? cs = some x ↔ ∃ ws fs es n k, digits? 10 (ws ++ fs) = some n ∧ ws ++ fs ≠ [] ∧
      exponent? es = some k ∧ x = .ofDecimal false n (k - fs.length) ∧
      (dropPlus cs = ws ++ es ∧ fs = [] ∨ dropPlus cs = ws ++ '.' :: (fs ++ es)) := by
  simp only [decimal?, Option.bind_eq_bind, Option.bind_eq_some_iff, Option.guard_eq_some',
    exists_const]
  generalize dropPlus cs = cs
  constructor
  · have hsplit := List.takeWhile_append_dropWhile (p := Char.isDigit) (l := cs)
    generalize cs.takeWhile Char.isDigit = ws at hsplit ⊢
    generalize cs.dropWhile Char.isDigit = rest at hsplit ⊢
    split
    · next rest =>
      rintro ⟨hne, k, hk, n, hn, hx⟩
      refine ⟨ws, _, _, n, k, hn, by simpa [imp_iff_not_or] using hne, hk,
        (Option.some.inj hx).symm, .inr ?_⟩
      rw [List.takeWhile_append_dropWhile, hsplit]
    · rintro ⟨hne, k, hk, n, hn, hx⟩
      exact ⟨ws, [], rest, n, k, hn, by simpa using hne, hk, (Option.some.inj hx).symm,
        .inl ⟨hsplit.symm, rfl⟩⟩
  · rintro ⟨ws, fs, es, n, k, hn, hne, hk, rfl, hcs⟩
    obtain ⟨w, f, hw, hf, -⟩ := (digits?_append_eq_some_iff (by norm_num)).1 hn
    -- neither a point nor an exponent starts with a digit, so the runs of digits end there
    have hends := head?_of_exponent? hk
    rcases hcs with ⟨rfl, rfl⟩ | rfl
    · obtain ⟨htake, hdrop⟩ :=
        span_digits (isDigit_of_digits? hw) fun c hc => (hends c hc).1
      rw [htake, hdrop]
      split
      · exact absurd rfl (hends '.' rfl).2
      · exact ⟨by simpa using hne, k, hk, n, hn, rfl⟩
    · have hpoint : ∀ c, ('.' :: (fs ++ es)).head? = some c → c.isDigit = false := by
        rintro c hc
        obtain rfl : '.' = c := Option.some.inj hc
        rfl
      obtain ⟨htake, hdrop⟩ := span_digits (isDigit_of_digits? hw) hpoint
      obtain ⟨htake', hdrop'⟩ :=
        span_digits (isDigit_of_digits? hf) fun c hc => (hends c hc).1
      rw [htake, hdrop]
      simp only [htake', hdrop']
      exact ⟨by simpa [imp_iff_not_or] using hne, k, hk, n, hn, rfl⟩

/-- The digits behind the point are worth as much as the exponent takes off for them. -/
theorem decimal_value (w f places : Nat) (k : Int) :
    ((w * 10 ^ places + f : Nat) : ℚ) * 10 ^ (k - places) = (w + f / 10 ^ places) * 10 ^ k := by
  rw [zpow_sub₀ (by norm_num), zpow_natCast]
  push_cast
  field_simp

/-- A decimal of the grammar has no sign in front. -/
theorem dropPlus_of_unsigned {v : ℚ} (h : Unsigned cs v) : dropPlus cs = cs := by
  have hdigits : ∀ {ws rest : List Char} {w : Nat}, Digits 10 ws w →
      dropPlus (ws ++ rest) = ws ++ rest := by
    intro ws rest w hws
    rcases dropPlus_cases (ws ++ rest) with hplus | hplain
    · cases ws with
      | nil => exact absurd rfl hws.ne_nil
      | cons c ws =>
        obtain ⟨rfl, -⟩ := List.cons.inj hplus
        exact absurd (hws.isDigit '+' List.mem_cons_self) (by decide)
    · exact hplain
  cases h with
  | whole hws => exact hdigits hws
  | point hws => exact hdigits hws
  | places => rfl

/-- What is read as a decimal is one of the grammar, without a minus sign. -/
theorem unsigned_of_decimal? (h : decimal? cs = some x) :
    ∃ v, Unsigned (dropPlus cs) v ∧ '-' ∉ dropPlus cs ∧ Rounds false v x := by
  obtain ⟨ws, fs, es, n, k, hn, hne, hk, rfl, hcs⟩ := decimal?_eq_some_iff.1 h
  obtain ⟨w, f, hw, hf, rfl⟩ := (digits?_append_eq_some_iff (by norm_num)).1 hn
  obtain ⟨hes, hminus⟩ := exponent_of_exponent? hk
  have hrounds := Binary64.rounds_ofDecimal false (w * 10 ^ fs.length + f) (k - fs.length)
  rw [decimal_value] at hrounds
  have hminus' : ∀ {ds : List Char} {n : Nat}, digits? 10 ds = some n → '-' ∉ ds :=
    fun hds => not_mem_of_isDigit (isDigit_of_digits? hds) rfl
  rcases hcs with ⟨hcs, rfl⟩ | hcs
  · obtain rfl : 0 = f := Option.some.inj hf
    rw [List.append_nil] at hne
    rw [hcs]
    refine ⟨_, .whole (digits_ten_iff.2 ⟨hne, hw⟩) hes,
      by simp [hminus' hw, hminus], ?_⟩
    simpa using hrounds
  · rw [hcs]
    by_cases hws : ws = []
    · subst hws
      obtain rfl : 0 = w := Option.some.inj hw
      refine ⟨_, .places (digits_ten_iff.2 ⟨by simpa using hne, hf⟩) hes,
        by simp [hminus' hf, hminus], ?_⟩
      simpa using hrounds
    · refine ⟨_, .point (digits_ten_iff.2 ⟨hws, hw⟩) (places_iff.2 hf) hes,
        by simp [hminus' hw, hminus' hf, hminus], hrounds⟩

/-- The decimals of the grammar without a minus sign are read, as the number for their value. -/
theorem decimal?_of_unsigned {v : ℚ} (h : Unsigned (dropPlus cs) v) (hminus : '-' ∉ dropPlus cs) :
    ∃ x, decimal? cs = some x ∧ Rounds false v x := by
  generalize hcs : dropPlus cs = us at h hminus
  cases h with
  | @whole ws es w i hws hes =>
    obtain ⟨hne, hw⟩ := digits_ten_iff.1 hws
    obtain ⟨k, rfl, hk⟩ := exponent?_of_exponent hes fun hmem => hminus (by simp [hmem])
    refine ⟨_, decimal?_eq_some_iff.2 ⟨ws, [], es, w, k, by rwa [List.append_nil],
      by rwa [List.append_nil], hk, rfl, .inl ⟨hcs, rfl⟩⟩, ?_⟩
    simpa using Binary64.rounds_ofDecimal false w k
  | @point ws fs es w f i hws hfs hes =>
    obtain ⟨hne, hw⟩ := digits_ten_iff.1 hws
    obtain ⟨k, rfl, hk⟩ := exponent?_of_exponent hes fun hmem => hminus (by simp [hmem])
    have hn := (digits?_append_eq_some_iff (by norm_num)).2 ⟨w, f, hw, places_iff.1 hfs, rfl⟩
    refine ⟨_, decimal?_eq_some_iff.2 ⟨ws, fs, es, _, k, hn, by simp [hne], hk, rfl, .inr hcs⟩, ?_⟩
    rw [← decimal_value]
    exact Binary64.rounds_ofDecimal false _ _
  | @places fs es f i hfs hes =>
    obtain ⟨hne, hf⟩ := digits_ten_iff.1 hfs
    obtain ⟨k, rfl, hk⟩ := exponent?_of_exponent hes fun hmem => hminus (by simp [hmem])
    refine ⟨_, decimal?_eq_some_iff.2 ⟨[], fs, es, f, k, hf, hne, hk, rfl, .inr hcs⟩, ?_⟩
    have hvalue := decimal_value 0 f fs.length k
    rw [Nat.zero_mul, Nat.zero_add, Nat.cast_zero, zero_add] at hvalue
    rw [← hvalue]
    exact Binary64.rounds_ofDecimal false _ _

end Decimals

section Space

variable {cs body a b : List Char} {c : Char} {x : Binary64}

theorem isVisible_of_isBlank (h : isBlank c = true) : isVisible c = false := by
  simp [isBlank, blanks, CodePoints.contains] at h
  simp [isVisible]
  omega

/-- The next line character is the only blank that is no space. -/
theorem isSpace_of_isBlank (h : isBlank c = true) (hc : c ≠ '\u0085') :
    spaces.contains c = true := by
  have hnat : c.toNat ≠ 0x85 := fun heq => hc (Char.toNat_inj.1 heq)
  simp [isBlank, blanks, CodePoints.contains] at h
  simp [spaces, CodePoints.contains]
  omega

theorem isVisible_of_isSpace (h : spaces.contains c = true) : isVisible c = false := by
  simp [spaces, CodePoints.contains] at h
  simp [isVisible]
  omega

/-- What is trimmed at the start is blank. -/
theorem trimStart_spec (cs : List Char) :
    ∃ a, cs = a ++ trimStart cs ∧ ∀ c ∈ a, isBlank c = true :=
  ⟨cs.takeWhile isBlank, List.takeWhile_append_dropWhile.symm,
    List.all_eq_true.1 List.all_takeWhile⟩

/-- Trimming takes blanks off both ends. -/
theorem trim_spec (cs : List Char) :
    ∃ a b, cs = a ++ trim cs ++ b ∧ (∀ c ∈ a, isBlank c = true) ∧ ∀ c ∈ b, isBlank c = true := by
  obtain ⟨a, hcs, ha⟩ := trimStart_spec cs
  obtain ⟨b, hrev, hb⟩ := trimStart_spec (trimStart cs).reverse
  refine ⟨a, b.reverse, ?_, ha, by simpa using hb⟩
  have hend : trimStart cs = trim cs ++ b.reverse := by
    rw [trim, trimEnd, ← List.reverse_append, ← hrev, List.reverse_reverse]
  rw [List.append_assoc, ← hend, ← hcs]

/-- Without its blanks a text is what is visible of it. -/
theorem filter_visible (ha : ∀ c ∈ a, isVisible c = false) (hb : ∀ c ∈ b, isVisible c = false)
    (hbody : ∀ c ∈ body, isVisible c = true) : (a ++ body ++ b).filter isVisible = body := by
  have hnone : ∀ {ds : List Char}, (∀ c ∈ ds, isVisible c = false) → ds.filter isVisible = [] :=
    fun hds => List.filter_eq_nil_iff.2 fun c hc => by simp [hds c hc]
  rw [List.filter_append, List.filter_append, hnone ha, hnone hb, List.filter_eq_self.2 hbody,
    List.nil_append, List.append_nil]

/-- The characters between the spaces are the number. -/
theorem spells_iff (ha : ∀ c ∈ a, isBlank c = true) (hb : ∀ c ∈ b, isBlank c = true)
    (hbody : ∀ c ∈ body, isVisible c = true) (hne : body ≠ []) :
    Spells (a ++ body ++ b) x ↔ '\u0085' ∉ a ++ body ++ b ∧ Written body x := by
  constructor
  · intro h
    -- Neither blanks nor spaces are visible, so both ways to split the text have one middle.
    have hfilter := filter_visible (fun c hc => isVisible_of_isBlank (ha c hc))
      (fun c hc => isVisible_of_isBlank (hb c hc)) hbody
    generalize a ++ body ++ b = text at h hfilter
    cases h with
    | space htext =>
      obtain ⟨c, hc⟩ := List.exists_mem_of_ne_nil _ hne
      rw [← hfilter, List.mem_filter] at hc
      exact absurd hc.2 (by simp [isVisible_of_isSpace (htext c hc.1)])
    | @number before cs after _ hbefore hafter hcs =>
      rw [filter_visible (fun c hc => isVisible_of_isSpace (hbefore c hc))
        (fun c hc => isVisible_of_isSpace (hafter c hc)) hcs.isVisible] at hfilter
      subst hfilter
      refine ⟨?_, hcs⟩
      rw [List.mem_append, List.mem_append]
      rintro ((hmem | hmem) | hmem)
      · exact absurd (hbefore _ hmem) (by decide)
      · exact absurd (hcs.isVisible _ hmem) (by decide)
      · exact absurd (hafter _ hmem) (by decide)
  · rintro ⟨hline, hcs⟩
    have hspace : ∀ {ds : List Char}, (∀ c ∈ ds, isBlank c = true) → '\u0085' ∉ ds →
        ∀ c ∈ ds, spaces.contains c = true :=
      fun hds hline c hc => isSpace_of_isBlank (hds c hc) fun heq => hline (heq ▸ hc)
    simp only [List.mem_append, not_or] at hline
    exact .number (hspace ha hline.1.1) (hspace hb hline.2) hcs

end Space

section Index

variable {radix n : Nat} {cs ds : List Char} {x y : Binary64}

theorem radix?_eq_some (h : radix? cs = some (radix, ds)) :
    ∃ mark, (mark, radix) ∈ marks ∧ cs = '0' :: mark :: ds := by
  unfold radix? at h
  split at h
  · split at h <;> simp only [Option.some.injEq, Prod.mk.injEq, reduceCtorEq] at h
    all_goals obtain ⟨rfl, rfl⟩ := h; exact ⟨_, by decide, rfl⟩
  · simp at h

/-- Digits behind a mark are digits of the grammar, behind a plus sign perhaps. -/
theorem digits_of_unsigned? (hr : radix ≤ 16) (h : unsigned? radix ds = some n) :
    Digits radix (dropPlus ds) n ∧ n < 2 ^ 64 := by
  simp only [unsigned?, Option.bind_eq_bind, Option.bind_eq_some_iff, Option.guard_eq_some',
    exists_const] at h
  obtain ⟨hne, m, hm, hlt, hn⟩ := h
  obtain rfl : m = n := Option.some.inj hn
  exact ⟨(digits_iff hr).2 ⟨by simpa using hne, hm⟩, hlt⟩

theorem plus_not_mem_digits (hr : radix ≤ 16) (h : Digits radix cs n) : '+' ∉ cs := by
  have hplus : ∀ d < 16, '+' ≠ Nat.digitChar d ∧ '+' ≠ (Nat.digitChar d).toUpper := by decide
  intro hmem
  refine h.forall_mem (P := fun c => c ≠ '+') ?_ '+' hmem rfl
  rintro c d ⟨hd, hc⟩ rfl
  exact hc.elim (hplus d (by omega)).1 (hplus d (by omega)).2

/-- A plus sign stands right behind the mark of a base. -/
def MarkedPlus (cs : List Char) : Prop := ∃ p ∈ marks, [p.1, '+'] <:+: cs

/-- A decimal that is read has the characters of a decimal. -/
theorem isDecimalChar_of_decimal? (h : decimal? cs = some x) :
    ∀ c ∈ cs, isDecimalChar c = true := by
  obtain ⟨v, hv, -⟩ := unsigned_of_decimal? h
  rcases dropPlus_cases cs with hcs | hcs
  · rw [hcs, List.forall_mem_cons]
    exact ⟨rfl, hv.isDecimalChar⟩
  · exact hcs ▸ hv.isDecimalChar

/-- What is read as a decimal is written as that number and as no other. -/
theorem written_decimal_iff (h : decimal? cs = some x) : Written cs y ↔ y = x := by
  obtain ⟨v, hv, hminus, hx⟩ := unsigned_of_decimal? h
  have hchars := isDecimalChar_of_decimal? h
  constructor
  · intro hy
    cases hy with
    | @decimal ss us negative w _ hss hus hy =>
      -- The plus sign that may be dropped is the sign of the grammar.
      have hread : ∀ {cs : List Char}, dropPlus cs = us → '-' ∉ dropPlus cs →
          decimal? cs = some x → Rounds false w y → y = x := by
        rintro cs rfl hminus hcs hy
        obtain ⟨z, hz, hw⟩ := decimal?_of_unsigned hus hminus
        obtain rfl : z = x := Option.some.inj (hz.symm.trans hcs)
        exact hy.unique hw
      cases hss with
      | absent => exact hread (dropPlus_of_unsigned hus) hminus h hy
      | plus => exact hread rfl hminus h hy
      | minus => exact absurd List.mem_cons_self hminus
    | @infinity ss => exact absurd (hchars 'I' (by simp)) (by decide)
    | integer hmark =>
      have hmark' := hchars _ (List.mem_cons_of_mem _ List.mem_cons_self)
      rw [(mark_facts _ hmark).1] at hmark'
      exact absurd hmark' (by decide)
  · rintro rfl
    rcases dropPlus_cases cs with hcs | hcs
    · rw [hcs]
      exact .decimal .plus hv hx
    · rw [← hcs]
      exact .decimal .absent hv hx

/-- A run of digits behind a mark is written as the number nearest to it. -/
theorem written_digits_iff {mark : Char} (hmark : (mark, radix) ∈ marks) (h : Digits radix ds n) :
    Written ('0' :: mark :: ds) y ↔ Rounds false n y := by
  obtain ⟨-, -, -, hr, -⟩ := mark_facts _ hmark
  rw [written_marked_iff hmark]
  constructor
  · rintro ⟨m, hm, hy⟩
    obtain rfl : n = m :=
      Option.some.inj (((digits_iff hr).1 h).2.symm.trans ((digits_iff hr).1 hm).2)
    exact hy
  · exact fun hy => ⟨n, h, hy⟩

/-- What an index that is read says about the number that is written. -/
structure Agrees (n : Nat) (x : Binary64) : Prop where
  integral : ∃ k : Nat, x.value? = some (k : ℚ)
  exact_below : n < 2 ^ 53 → x.value? = some (n : ℚ)

/-- An integer that is rounded to a number agrees with it. -/
theorem agrees_of_rounds (hn : n < 2 ^ 64) (h : Rounds false n x) : Agrees n x :=
  ⟨h.integral hn, fun hlt => h.value?_eq hlt⟩

theorem agrees_of_index? (h : x.index? = some n) : Agrees n x :=
  ⟨⟨n, Binary64.value?_of_index? h⟩, fun _ => Binary64.value?_of_index? h⟩

/-- The text between the blanks is a number that agrees with the index, unless a mark has a plus
sign behind it. -/
structure Settled (cs : List Char) (n : Nat) : Prop where
  visible : ∀ c ∈ cs, isVisible c = true
  ne_nil : cs ≠ []
  written : MarkedPlus cs ∧ (∀ y, ¬ Written cs y) ∨
    ¬ MarkedPlus cs ∧ ∃ x, (∀ y, Written cs y ↔ y = x) ∧ Agrees n x

/-- A number with the mark of a base is settled. -/
theorem settled_marked {mark : Char} (hmark : (mark, radix) ∈ marks)
    (h : unsigned? radix ds = some n) : Settled ('0' :: mark :: ds) n := by
  obtain ⟨hdecimal, -, hvisible, hr, -⟩ := mark_facts _ hmark
  obtain ⟨hdigits, hn⟩ := digits_of_unsigned? hr h
  have hrest := hdigits.forall_mem (isVisible_of_digit hr)
  rcases dropPlus_cases ds with hds | hds
  · -- The plus sign is dropped, but the grammar has only digits here.
    rw [hds]
    refine ⟨by simpa [hvisible] using ⟨rfl, rfl, hrest⟩, by simp, .inl ⟨⟨_, hmark, ?_⟩, ?_⟩⟩
    · exact ⟨['0'], dropPlus ds, rfl⟩
    · rintro y hy
      obtain ⟨m, hm, -⟩ := (written_marked_iff hmark).1 hy
      exact plus_not_mem_digits hr hm List.mem_cons_self
  · rw [hds] at hdigits hrest
    refine ⟨by simpa [hvisible] using ⟨rfl, hrest⟩, by simp, .inr ⟨?_, ?_⟩⟩
    · rintro ⟨p, -, hpair⟩
      have hplus : '+' ∈ '0' :: mark :: ds := hpair.subset (by simp)
      have hne : '+' ≠ mark := fun heq => by simp [← heq, isDecimalChar] at hdecimal
      simp [hne, plus_not_mem_digits hr hdigits] at hplus
    · have hx := Binary64.rounds_ofRatio false n one_pos
      rw [Nat.cast_one, div_one] at hx
      refine ⟨_, fun y => ?_, agrees_of_rounds hn hx⟩
      rw [written_digits_iff hmark hdigits]
      exact ⟨fun hy => hy.unique hx, fun hy => hy ▸ hx⟩

/-- A decimal is settled. -/
theorem settled_decimal (hx : decimal? cs = some x) (h : x.index? = some n) : Settled cs n := by
  have hchars := isDecimalChar_of_decimal? hx
  refine ⟨fun c hc => isVisible_of_isDecimalChar (hchars c hc), ?_,
    .inr ⟨?_, x, fun y => written_decimal_iff hx, agrees_of_index? h⟩⟩
  · rintro rfl
    have hnone : decimal? [] = none := rfl
    simp [hnone] at hx
  · rintro ⟨p, hp, hpair⟩
    have hmark := hchars p.1 (hpair.subset List.mem_cons_self)
    rw [(mark_facts p hp).1] at hmark
    exact absurd hmark (by decide)

/-- Whatever is read as an index is settled. -/
theorem settled_of_index? {s : String} (h : index? s = some n) : Settled (trim s.toList) n := by
  unfold index? at h
  dsimp only at h
  split at h
  · next radix ds hradix =>
    obtain ⟨mark, hmark, hcs⟩ := radix?_eq_some hradix
    rw [hcs]
    exact settled_marked hmark h
  · obtain ⟨x, hx, hindex⟩ := Option.bind_eq_some_iff.1 h
    exact settled_decimal hx hindex

end Index

/-- The texts that are read although they spell no number. -/
def Overread (s : String) : Prop := '\u0085' ∈ s.toList ∨ MarkedPlus s.toList

/-- Blanks around a number hide no mark. -/
theorem markedPlus_iff {a b body : List Char} (ha : ∀ c ∈ a, isBlank c = true)
    (hb : ∀ c ∈ b, isBlank c = true) (hbody : ∀ c ∈ body, isVisible c = true) :
    MarkedPlus (a ++ body ++ b) ↔ MarkedPlus body := by
  constructor
  · rintro ⟨p, hp, hpair⟩
    have hfilter := hpair.filter isVisible
    rw [filter_visible (fun c hc => isVisible_of_isBlank (ha c hc))
      (fun c hc => isVisible_of_isBlank (hb c hc)) hbody] at hfilter
    obtain ⟨-, -, hvisible, -⟩ := mark_facts p hp
    rw [List.filter_cons_of_pos hvisible] at hfilter
    exact ⟨p, hp, hfilter⟩
  · rintro ⟨p, hp, hpair⟩
    exact ⟨p, hp, hpair.trans (List.infix_append a body b)⟩

/-- A text that is read as an index is converted to one number. Where the text is overread that
number is `NaN`. All others are converted to a natural number, and below `2 ^ 53` to the index
itself. -/
theorem index_agrees_unless_overread {s : String} {n : Nat} (h : index? s = some n) :
    ∃ x, (∀ y, NumberOf s y ↔ y = x) ∧ (Overread s → x = .nan) ∧
      (¬ Overread s → (∃ k : Nat, x.value? = some (k : ℚ)) ∧
        (n < 2 ^ 53 → x.value? = some (n : ℚ))) := by
  obtain ⟨hvisible, hne, hwritten⟩ := settled_of_index? h
  obtain ⟨a, b, htext, ha, hb⟩ := trim_spec s.toList
  have hspells : ∀ y, Spells s.toList y ↔ '\u0085' ∉ s.toList ∧ Written (trim s.toList) y := by
    intro y
    have hiff := spells_iff (x := y) ha hb hvisible hne
    rwa [← htext] at hiff
  have hmarked : MarkedPlus s.toList ↔ MarkedPlus (trim s.toList) := by
    have hiff := markedPlus_iff ha hb hvisible
    rwa [← htext] at hiff
  by_cases hover : Overread s
  · have hnone : ∀ y, ¬ Spells s.toList y := by
      intro y hy
      obtain ⟨hline, hy⟩ := (hspells y).1 hy
      rcases hwritten with ⟨-, hnone⟩ | ⟨hplain, -⟩
      · exact hnone y hy
      · exact hover.elim hline fun hplus => hplain (hmarked.1 hplus)
    refine ⟨.nan, fun y => ?_, fun _ => rfl, fun hnot => absurd hover hnot⟩
    simp [NumberOf, hnone]
  · obtain ⟨hline, hplain⟩ := not_or.1 hover
    rw [hmarked] at hplain
    rcases hwritten with ⟨hplus, -⟩ | ⟨-, x, hx, hagrees⟩
    · exact absurd hplus hplain
    · have hone : ∀ y, Spells s.toList y ↔ y = x := by simp [hspells, hline, hx]
      refine ⟨x, fun y => ?_, fun hover' => absurd hover' hover, fun _ => ⟨hagrees.1, hagrees.2⟩⟩
      simp [NumberOf, hone]

/-- The plus sign behind the mark makes no difference to the index, but the text is no number. -/
theorem index_of_signed_hexadecimal :
    (index? "0x1f" = some 31 ∧
      ∃ x, (∀ y, NumberOf "0x1f" y ↔ y = x) ∧ x.value? = some ((31 : Nat) : ℚ)) ∧
      index? "0x+1f" = some 31 ∧ ∀ y, NumberOf "0x+1f" y ↔ y = .nan := by
  have hplain : index? "0x1f" = some 31 := by decide
  have hsigned : index? "0x+1f" = some 31 := by decide
  obtain ⟨x, hx, -, hagrees⟩ := index_agrees_unless_overread hplain
  obtain ⟨z, hz, hnan, -⟩ := index_agrees_unless_overread hsigned
  have hexact : ¬ Overread "0x1f" := by
    unfold Overread MarkedPlus
    decide
  have hover : Overread "0x+1f" := .inr ⟨('x', 16), by decide, ['0'], ['1', 'f'], rfl⟩
  exact ⟨⟨hplain, x, hx, (hagrees hexact).2 (by decide)⟩, hsigned, hnan hover ▸ hz⟩

example : index? "\u00857" = some 7 := by decide

end Untangle.Text
