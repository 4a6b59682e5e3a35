import Untangle.Proofs.Number.Rounding
import Untangle.Text.CodePoints

/-!
# Numbers in strings

The grammar of the strings that ECMAScript converts to a number, with the value of
each production: decimals with a sign, a point and an exponent, integers with
the mark of another base, and `Infinity`, each between white space. The value is
rounded once, at the end. A string outside the grammar is not a number.
-/
namespace Untangle.Numeral

open Binary64 (Rounds)

def spaces : CodePoints :=
  [(0x9, 0xD), (0x20, 0x20), (0xA0, 0xA0), (0x1680, 0x1680), (0x2000, 0x200A), (0x2028, 0x2029),
    (0x202F, 0x202F), (0x205F, 0x205F), (0x3000, 0x3000), (0xFEFF, 0xFEFF)]

/-- The letters behind a zero that stand for another base than ten. -/
def marks : List (Char × Nat) :=
  [('x', 16), ('X', 16), ('o', 8), ('O', 8), ('b', 2), ('B', 2)]

/-- Letters are digits from ten on, in either case. -/
def IsDigit (radix : Nat) (c : Char) (d : Nat) : Prop :=
  d < radix ∧ (c = Nat.digitChar d ∨ c = (Nat.digitChar d).toUpper)

/-- Digits and the integer that they spell. -/
inductive Digits (radix : Nat) : List Char → Nat → Prop
  | one {c : Char} {d : Nat} (hc : IsDigit radix c d) : Digits radix [c] d
  | more {cs : List Char} {n : Nat} {c : Char} {d : Nat} (hcs : Digits radix cs n)
    (hc : IsDigit radix c d) : Digits radix (cs ++ [c]) (n * radix + d)

inductive Places : List Char → Nat → Prop
  | absent : Places [] 0
  | digits {cs : List Char} {n : Nat} (hcs : Digits 10 cs n) : Places cs n

/-- The power of ten behind the digits, if any. -/
inductive Exponent : List Char → Int → Prop
  | absent : Exponent [] 0
  | plain {e : Char} {cs : List Char} {n : Nat} (he : e = 'e' ∨ e = 'E') (hcs : Digits 10 cs n) :
    Exponent (e :: cs) n
  | plus {e : Char} {cs : List Char} {n : Nat} (he : e = 'e' ∨ e = 'E') (hcs : Digits 10 cs n) :
    Exponent (e :: '+' :: cs) n
  | minus {e : Char} {cs : List Char} {n : Nat} (he : e = 'e' ∨ e = 'E') (hcs : Digits 10 cs n) :
    Exponent (e :: '-' :: cs) (-n)

/-- A decimal without a sign. -/
inductive Unsigned : List Char → ℚ → Prop
  | whole {ws es : List Char} {w : Nat} {k : Int} (hws : Digits 10 ws w) (hes : Exponent es k) :
    Unsigned (ws ++ es) (w * 10 ^ k)
  | point {ws fs es : List Char} {w f : Nat} {k : Int} (hws : Digits 10 ws w) (hfs : Places fs f)
    (hes : Exponent es k) :
    Unsigned (ws ++ '.' :: (fs ++ es)) ((w + f / 10 ^ fs.length) * 10 ^ k)
  | places {fs es : List Char} {f : Nat} {k : Int} (hfs : Digits 10 fs f) (hes : Exponent es k) :
    Unsigned ('.' :: (fs ++ es)) (f / 10 ^ fs.length * 10 ^ k)

/-- A sign, if any, and whether it is a minus. -/
inductive Sign : List Char → Bool → Prop
  | absent : Sign [] false
  | plus : Sign ['+'] false
  | minus : Sign ['-'] true

/-- A number without space around it. -/
inductive Written : List Char → Binary64 → Prop
  | decimal {ss cs : List Char} {negative : Bool} {v : ℚ} {x : Binary64} (hss : Sign ss negative)
    (hcs : Unsigned cs v) (hx : Rounds negative v x) : Written (ss ++ cs) x
  | infinity {ss : List Char} {negative : Bool} (hss : Sign ss negative) :
    Written (ss ++ "Infinity".toList) (.infinite negative)
  | integer {mark : Char} {radix : Nat} {cs : List Char} {n : Nat} {x : Binary64}
    (hmark : (mark, radix) ∈ marks) (hcs : Digits radix cs n) (hx : Rounds false n x) :
    Written ('0' :: mark :: cs) x

inductive Spells : List Char → Binary64 → Prop
  | space {cs : List Char} (hcs : ∀ c ∈ cs, spaces.contains c = true) : Spells cs (.zero false)
  | number {before cs after : List Char} {x : Binary64}
    (hbefore : ∀ c ∈ before, spaces.contains c = true)
    (hafter : ∀ c ∈ after, spaces.contains c = true) (hcs : Written cs x) :
    Spells (before ++ cs ++ after) x

/-- What a string is converted to. -/
def NumberOf (s : String) (x : Binary64) : Prop :=
  Spells s.toList x ∨ x = .nan ∧ ∀ y, ¬ Spells s.toList y

section Characters

variable {cs : List Char} {c : Char} {n : Nat}

def isDecimalChar (c : Char) : Bool := c.isDigit || ['.', 'e', 'E', '+', '-'].contains c

/-- The characters that are neither space nor beyond the ASCII ones. -/
def isVisible (c : Char) : Bool := 33 ≤ c.toNat && c.toNat ≤ 126

theorem isDigit_of_ten {d : Nat} (h : IsDigit 10 c d) : c.isDigit = true := by
  have hall : ∀ d < 10,
      (Nat.digitChar d).isDigit = true ∧ (Nat.digitChar d).toUpper.isDigit = true := by decide
  obtain ⟨hd, rfl | rfl⟩ := h
  · exact (hall d hd).1
  · exact (hall d hd).2

theorem isVisible_of_digit {radix d : Nat} (hr : radix ≤ 16) (h : IsDigit radix c d) :
    isVisible c = true := by
  have hall : ∀ d < 16,
      isVisible (Nat.digitChar d) = true ∧ isVisible (Nat.digitChar d).toUpper = true := by decide
  obtain ⟨hd, rfl | rfl⟩ := h
  · exact (hall d (by omega)).1
  · exact (hall d (by omega)).2

theorem isVisible_of_isDecimalChar (h : isDecimalChar c = true) : isVisible c = true := by
  rcases Bool.or_eq_true_iff.1 h with hdigit | hmark
  · have hrange : 48 ≤ c.toNat ∧ c.toNat ≤ 57 := Char.isDigit_iff_toNat.1 hdigit
    simp only [isVisible, Bool.and_eq_true, decide_eq_true_eq]
    omega
  · have hall : ['.', 'e', 'E', '+', '-'].all isVisible = true := by decide
    exact List.all_eq_true.1 hall c (List.contains_iff_mem.1 hmark)

/-- What holds of every digit holds of every character of a run. -/
theorem Digits.forall_mem {radix : Nat} {P : Char → Prop} (h : Digits radix cs n)
    (hP : ∀ {c d}, IsDigit radix c d → P c) : ∀ c ∈ cs, P c := by
  induction h with
  | one hc => simpa using hP hc
  | more _ hc ih =>
    rw [List.forall_mem_append]
    exact ⟨ih, by simpa using hP hc⟩

theorem Digits.isDigit (h : Digits 10 cs n) : ∀ c ∈ cs, c.isDigit = true :=
  h.forall_mem isDigit_of_ten

theorem Digits.ne_nil {radix : Nat} (h : Digits radix cs n) : cs ≠ [] := by
  cases h with
  | one => simp
  | more => simp

theorem Places.isDigit (h : Places cs n) : ∀ c ∈ cs, c.isDigit = true := by
  cases h with
  | absent => simp
  | digits hcs => exact hcs.isDigit

theorem isDecimalChar_of_isDigit (h : ∀ c ∈ cs, c.isDigit = true) :
    ∀ c ∈ cs, isDecimalChar c = true :=
  fun c hc => by simp [isDecimalChar, h c hc]

theorem Exponent.isDecimalChar {k : Int} (h : Exponent cs k) :
    ∀ c ∈ cs, isDecimalChar c = true := by
  have hmark : ∀ {e : Char}, e = 'e' ∨ e = 'E' → Numeral.isDecimalChar e = true := by
    rintro e (rfl | rfl) <;> rfl
  cases h with
  | absent => simp
  | plain he hcs =>
    rw [List.forall_mem_cons]
    exact ⟨hmark he, isDecimalChar_of_isDigit hcs.isDigit⟩
  | plus he hcs | minus he hcs =>
    rw [List.forall_mem_cons, List.forall_mem_cons]
    exact ⟨hmark he, rfl, isDecimalChar_of_isDigit hcs.isDigit⟩

theorem Unsigned.isDecimalChar {v : ℚ} (h : Unsigned cs v) :
    ∀ c ∈ cs, isDecimalChar c = true := by
  cases h with
  | whole hws hes =>
    rw [List.forall_mem_append]
    exact ⟨isDecimalChar_of_isDigit hws.isDigit, hes.isDecimalChar⟩
  | point hws hfs hes =>
    rw [List.forall_mem_append, List.forall_mem_cons, List.forall_mem_append]
    exact ⟨isDecimalChar_of_isDigit hws.isDigit, rfl, isDecimalChar_of_isDigit hfs.isDigit,
      hes.isDecimalChar⟩
  | places hfs hes =>
    rw [List.forall_mem_cons, List.forall_mem_append]
    exact ⟨rfl, isDecimalChar_of_isDigit hfs.isDigit, hes.isDecimalChar⟩

theorem Sign.isDecimalChar {negative : Bool} (h : Sign cs negative) :
    ∀ c ∈ cs, isDecimalChar c = true := by
  cases h <;> simp [Numeral.isDecimalChar]

/-- A mark occurs in no decimal and not in `Infinity`. -/
theorem mark_facts : ∀ p ∈ marks, isDecimalChar p.1 = false ∧ p.1 ∉ "Infinity".toList ∧
    isVisible p.1 = true ∧ p.2 ≤ 16 ∧ ∀ q ∈ marks, q.1 = p.1 → q.2 = p.2 := by
  decide

/-- There is no space in a number. -/
theorem Written.isVisible {x : Binary64} (h : Written cs x) : ∀ c ∈ cs, isVisible c = true := by
  cases h with
  | decimal hss hcs =>
    rw [List.forall_mem_append]
    exact ⟨fun c hc => isVisible_of_isDecimalChar (hss.isDecimalChar c hc),
      fun c hc => isVisible_of_isDecimalChar (hcs.isDecimalChar c hc)⟩
  | infinity hss =>
    rw [List.forall_mem_append]
    exact ⟨fun c hc => isVisible_of_isDecimalChar (hss.isDecimalChar c hc),
      List.all_eq_true.1 (by decide)⟩
  | integer hmark hcs =>
    obtain ⟨-, -, hvisible, hradix, -⟩ := mark_facts _ hmark
    rw [List.forall_mem_cons, List.forall_mem_cons]
    exact ⟨rfl, hvisible, hcs.forall_mem (isVisible_of_digit hradix)⟩

end Characters

/-- Behind a zero and a mark there are digits of its base and nothing else. -/
theorem written_marked_iff {mark : Char} {radix : Nat} {cs : List Char} {y : Binary64}
    (hmark : (mark, radix) ∈ marks) :
    Written ('0' :: mark :: cs) y ↔ ∃ n : Nat, Digits radix cs n ∧ Rounds false n y := by
  obtain ⟨hdecimal, hinfinity, -, -, hradix⟩ := mark_facts _ hmark
  constructor
  · intro h
    generalize htext : '0' :: mark :: cs = text at h
    have hmem : mark ∈ text := by simp [← htext]
    have hnot : ∀ {us : List Char}, (∀ c ∈ us, isDecimalChar c = true) → mark ∉ us :=
      fun hus hc => by simpa [hdecimal] using hus mark hc
    cases h with
    | decimal hss hcs =>
      rcases List.mem_append.1 hmem with hmem | hmem
      · exact absurd hmem (hnot hss.isDecimalChar)
      · exact absurd hmem (hnot hcs.isDecimalChar)
    | infinity hss =>
      rcases List.mem_append.1 hmem with hmem | hmem
      · exact absurd hmem (hnot hss.isDecimalChar)
      · exact absurd hmem hinfinity
    | integer hmark' hcs hx =>
      obtain ⟨-, htail⟩ := List.cons.inj htext
      obtain ⟨rfl, rfl⟩ := List.cons.inj htail
      obtain rfl := hradix _ hmark' rfl
      exact ⟨_, hcs, hx⟩
  · rintro ⟨n, hcs, hx⟩
    exact .integer hmark hcs hx

end Untangle.Numeral
