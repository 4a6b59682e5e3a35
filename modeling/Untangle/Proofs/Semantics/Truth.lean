import Untangle.Syntax.View

/-!
# The truth of constants

Some expressions have a value whatever the program does: literals, array and
object literals, and `!` before any of these. What is said of them without
evaluation, that they are always true or always false, is compared with the
truth of that value. The one literal that is misread is a big integer whose
value could not be kept in the file: the `null` in its place is taken for the
value, and so the literal for false.
-/
namespace Untangle

/-- The value of a constant expression, as far as its truth depends on it. -/
inductive ConstantValue where
  | null
  | boolean (value : Bool)
  | number (value : Binary64)
  | string (value : String)
  | bigint (value : Nat)
  | object

def ConstantValue.truth : ConstantValue → Bool
  | .null => false
  | .boolean b => b
  | .number .nan => false
  | .number (.finite _ 0 _) => false
  | .number _ => true
  | .string s => s ≠ ""
  | .bigint n => n ≠ 0
  | .object => true

@[simp] theorem ConstantValue.truth_boolean (b : Bool) : (boolean b).truth = b := rfl

namespace LiteralValue

/-- The value of a literal that is no regular expression and no big integer. -/
def constant? : LiteralValue → Option ConstantValue
  | .null => some .null
  | .boolean b => some (.boolean b)
  | .number x => some (.number x)
  | .string s => some (.string s)
  | .foreign _ => none

/-- What a file can hold where the value of a literal is none of JSON. -/
def isPlaceholder : LiteralValue → Bool
  | .null | .foreign _ => true
  | _ => false

end LiteralValue

/-- The integer that the text of a big integer spells, in decimal or in the radix that it names. -/
def bigint? (text : String) : Option Nat :=
  let (radix, digits) := (Text.radix? text.toList).getD (10, text.toList)
  if digits.isEmpty then none else Text.digits? radix digits

/-- The value of a literal in the form of a syntax tree. A regular expression or a big integer is
known by its spelling, and has a placeholder for its value. -/
def Literal.constant? (l : Literal) : Option ConstantValue :=
  match l.regex, l.bigint with
  | none, none => l.value.constant?
  | some _, none => if l.value.isPlaceholder then some .object else none
  | none, some digits => if l.value.isPlaceholder then (bigint? digits).map .bigint else none
  | some _, some _ => none

namespace Expression

/-- The value of a constant expression. An array or object literal is an object, whatever is in
it. -/
def constant? : Expression → Option ConstantValue
  | .literal l => l.constant?
  | .array _ | .object _ => some .object
  | .unary .not _ argument => argument.constant?.map fun v => .boolean !v.truth
  | _ => none
termination_by structural e => e

/-- A big integer other than zero with `null` for its value, behind any number of `!`. -/
def Misread : Expression → Prop
  | .literal l => l.value = .null ∧ l.regex = none ∧ ∃ n ∈ l.bigint.bind bigint?, n ≠ 0
  | .unary .not _ argument => argument.Misread
  | _ => False
termination_by structural e => e

/-- What is said of the truth of the expression is right for the value. -/
def Judged (e : Expression) (v : ConstantValue) : Prop :=
  (e.isTruthy → v.truth = true) ∧ (e.isFalsy → v.truth = false)

theorem isTruthy_number (x : Binary64) (raw : Option String) (regex : Option Regex)
    (bigint : Option String) :
    isTruthy (.literal ⟨.number x, raw, regex, bigint⟩) = (ConstantValue.number x).truth := by
  cases x with
  | finite negative m e => cases m <;> rfl
  | _ => rfl

theorem isFalsy_number (x : Binary64) (raw : Option String) (regex : Option Regex)
    (bigint : Option String) :
    isFalsy (.literal ⟨.number x, raw, regex, bigint⟩) = !(ConstantValue.number x).truth := by
  cases x with
  | finite negative m e => cases m <;> rfl
  | _ => rfl

/-- A literal is judged right unless it is misread. -/
theorem judged_literal {l : Literal} {v : ConstantValue} (h : l.constant? = some v) :
    Judged (.literal l) v ↔ ¬ Misread (.literal l) := by
  obtain ⟨value, raw, regex, bigint⟩ := l
  cases regex with
  | none =>
    cases bigint with
    | none =>
      have hm : ¬ Misread (.literal ⟨value, raw, none, none⟩) := by simp [Misread]
      refine iff_of_true ?_ hm
      cases value with
      | foreign w => cases h
      | number x =>
        obtain rfl := Option.some.inj h
        simp [Judged, isTruthy_number, isFalsy_number]
      | _ =>
        obtain rfl := Option.some.inj h
        simp [Judged, isTruthy, isFalsy, ConstantValue.truth]
    | some digits =>
      cases value with
      | null =>
        obtain ⟨n, hn, rfl⟩ := Option.map_eq_some_iff.1 h
        simp [Judged, Misread, isTruthy, isFalsy, ConstantValue.truth, hn]
      | foreign w => simp [Judged, Misread, isTruthy, isFalsy]
      | _ => cases h
  | some r =>
    cases bigint with
    | none =>
      cases value with
      | null => simp [Judged, Misread, isTruthy, isFalsy]
      | foreign w => simp [Judged, Misread, isTruthy, isFalsy]
      | _ => cases h
    | some digits => cases h

/-- Before an expression that is right in its judgement, so is `!`; and no other way. -/
theorem judged_not (leading : Bool) {e : Expression} {v : ConstantValue}
    (h : e.isContainer → v.truth = true) :
    Judged (.unary .not leading e) (.boolean !v.truth) ↔ Judged e v := by
  simp only [Judged, isTruthy, isFalsy, ConstantValue.truth_boolean, Bool.or_eq_true,
    Bool.not_eq_true', Bool.not_eq_false']
  constructor
  · rintro ⟨hf, ht⟩
    exact ⟨fun he => ht (.inl he), hf⟩
  · rintro ⟨ht, hf⟩
    exact ⟨hf, fun he => he.elim ht h⟩

/-- Containers are objects, and nothing is said of them without a `!`. -/
theorem judged_container {e : Expression} (h : e.isContainer) (v : ConstantValue) : Judged e v := by
  cases e with
  | array elements => simp [Judged, isTruthy, isFalsy]
  | object members => simp [Judged, isTruthy, isFalsy]
  | _ => cases h

/-- An array or an object is true. -/
theorem truth_of_isContainer {e : Expression} {v : ConstantValue} (hc : e.isContainer)
    (h : e.constant? = some v) : v.truth = true := by
  cases e with
  | array elements => cases h; rfl
  | object members => cases h; rfl
  | _ => cases hc

/-- What is said of a constant is right unless it is misread. -/
theorem judged_iff {e : Expression} {v : ConstantValue} (h : e.constant? = some v) :
    Judged e v ↔ ¬ Misread e := by
  fun_induction constant? e generalizing v with
  | case1 l => exact judged_literal h
  | case2 elements => exact iff_of_true (judged_container rfl v) id
  | case3 members => exact iff_of_true (judged_container rfl v) id
  | case4 leading argument ih =>
    obtain ⟨w, hw, rfl⟩ := Option.map_eq_some_iff.1 h
    rw [judged_not leading fun hc => truth_of_isContainer hc hw, ih hw]
    rfl
  | case5 => cases h

theorem isFalsy_of_isContainer {e : Expression} (h : e.isContainer) : e.isFalsy = false := by
  cases e with
  | array elements => rfl
  | object members => rfl
  | _ => cases h

/-- No expression is said to be both always true and always false. The expressions of which
something is said are among the constants, and so the induction is on these. -/
theorem isFalsy_of_isTruthy {e : Expression} (h : e.isTruthy) : e.isFalsy = false := by
  fun_induction constant? e with
  | case1 l =>
    obtain ⟨value, raw, regex, bigint⟩ := l
    cases value with
    | number x =>
      rw [isTruthy_number] at h
      rw [isFalsy_number, h]
      rfl
    | _ => simp_all [isTruthy, isFalsy]
  | case2 elements => rfl
  | case3 members => rfl
  | case4 leading argument ih =>
    have hf : argument.isFalsy = true := h
    have ht : argument.isTruthy = false :=
      Bool.eq_false_iff.2 fun hn => by simp [ih hn] at hf
    have hc : argument.isContainer = false :=
      Bool.eq_false_iff.2 fun hn => by simp [isFalsy_of_isContainer hn] at hf
    simp [isFalsy, ht, hc]
  | case5 e hl _ _ hn =>
    cases e with
    | literal l => exact absurd rfl (hl l)
    | unary op leading argument =>
      cases op
      case not => exact absurd rfl (hn leading argument)
      all_goals cases h
    | _ => cases h

/-- What is said of the truth of a constant agrees with its value, unless it is misread, and then it
does not; and never both is said. -/
theorem constant_truth_iff {e : Expression} {v : ConstantValue} (h : e.constant? = some v) :
    ((e.isTruthy → v.truth = true) ∧ (e.isFalsy → v.truth = false) ↔ ¬ e.Misread)
      ∧ ¬ (e.isTruthy ∧ e.isFalsy) :=
  ⟨judged_iff h, fun ⟨ht, hf⟩ => by simp [isFalsy_of_isTruthy ht] at hf⟩

/-- The big integer 1 behind a `!`: it is said to be true, and is false. -/
def negatedOne : Expression := .unary .not true (.literal ⟨.null, none, none, some "1"⟩)

/-- A big integer without its value is taken for false, and so its negation for true. -/
theorem negatedOne_misread :
    negatedOne.constant? = some (.boolean false) ∧ negatedOne.isTruthy ∧ negatedOne.Misread
      ∧ ¬ ((negatedOne.isTruthy → (ConstantValue.boolean false).truth = true)
        ∧ (negatedOne.isFalsy → (ConstantValue.boolean false).truth = false)) := by
  have hv : negatedOne.constant? = some (.boolean false) := by rfl
  have hm : negatedOne.Misread := ⟨rfl, rfl, 1, by decide, by decide⟩
  exact ⟨hv, by decide, hm, fun hj => (constant_truth_iff hv).1.1 hj hm⟩

end Expression
end Untangle
