import Untangle.Proofs.Json.RoundTrip
import Untangle.Proofs.Printer.Lexemes

/-!
# How printed expressions open

In front of a statement a brace is read as a block and `function` as a
declaration; behind an arrow a brace is read as the body of the function. An
expression that would open so is put in parentheses. What decides is the chain
of its leftmost operands, of which each is printed first in the text of the one
before. Only a tag can be lengthened by what follows it: a name in the place of
the template runs together with it.
-/
namespace Untangle

/-- Is a literal of this value printed as it was spelled? -/
def LiteralValue.keepsSpelling : LiteralValue → Bool
  | .number _ | .foreign _ => true
  | _ => false

namespace Printer

open Grammar (Loose)

/-- The expression, the operand that it starts with, the one that this starts with, and so on. -/
def leftChain : Expression → List Expression
  | .binary op left right => .binary op left right :: leftChain left
  | .logical op left right => .logical op left right :: leftChain left
  | .assignment op target value => .assignment op target value :: leftChain target
  | .conditional test consequent alternate =>
    .conditional test consequent alternate :: leftChain test
  | .call callee arguments optional => .call callee arguments optional :: leftChain callee
  | .member object property computed optional =>
    .member object property computed optional :: leftChain object
  | .sequence (first :: rest) => .sequence (first :: rest) :: leftChain first
  | .update op false argument => .update op false argument :: leftChain argument
  | .tagged tag quasi => .tagged tag quasi :: leftChain tag
  | e => [e]
termination_by structural e => e

def Numeric (text : String) : Prop := Starts text fun c => c.isDigit ∨ c ∈ ['.', '+', '-']

/-- An identifier has a name that is not reserved, and the spelling that a literal is printed in is
that of a number. -/
def WellSpelled : Expression → Prop
  | .identifier name => Text.isIdentifierName name ∧ name ∉ Grammar.reservedWords
  | .literal l =>
    (∀ digits ∈ l.bigint, Numeric digits) ∧ (l.value.keepsSpelling → ∀ raw ∈ l.raw, Numeric raw)
  | _ => True

/-- What is asked of the operands on the left. An assignment pattern is no expression. -/
structure Regular (e : Expression) : Prop where
  spelled : ∀ x ∈ leftChain e, WellSpelled x
  quasi : ∀ tag quasi, .tagged tag quasi ∈ leftChain e → WellSpelled quasi
  unpatterned : ∀ target fallback, .assignmentPattern target fallback ∉ leftChain e

/-- No tag on the left has a name in the place of its template. -/
def Templated (e : Expression) : Prop := ∀ tag name, .tagged tag (.identifier name) ∉ leftChain e

section Operand

variable {e first : Expression}

/-- The operands on the left of the first operand are operands on the left. -/
theorem leftChain_subset (hc : leftChain e = e :: leftChain first) :
    leftChain first ⊆ leftChain e := by
  rw [hc]
  exact List.subset_cons_self e (leftChain first)

/-- The first operand is as regular as the expression. -/
theorem Regular.operand (h : Regular e) (hc : leftChain e = e :: leftChain first) :
    Regular first where
  spelled x hx := h.spelled x (leftChain_subset hc hx)
  quasi tag quasi ht := h.quasi tag quasi (leftChain_subset hc ht)
  unpatterned target fallback hp := h.unpatterned target fallback (leftChain_subset hc hp)

theorem Templated.operand (h : Templated e) (hc : leftChain e = e :: leftChain first) :
    Templated first :=
  fun tag name ht => h tag name (leftChain_subset hc ht)

end Operand

def Yields {α : Type} (x : Except Unsupported α) (p : α → Prop) : Prop := ∀ a, x = .ok a → p a

theorem yields_pure {α : Type} {p : α → Prop} {a : α} (h : p a) :
    Yields (pure a : Except Unsupported α) p := by
  intro b hb
  cases hb
  exact h

/-- A property of what is printed first carries over to what is printed from it. -/
theorem Yields.bind {α β : Type} {x : Except Unsupported α} {f : α → Except Unsupported β}
    {p : α → Prop} {q : β → Prop} (hx : Yields x p) (hf : ∀ a, p a → Yields (f a) q) :
    Yields (x >>= f) q := by
  intro b hb
  cases x with
  | error u => cases hb
  | ok a => exact hf a (hx a rfl) b hb

theorem yields_ok {α : Type} (x : Except Unsupported α) : Yields x fun a => x = .ok a :=
  fun _ h => h

/-- A part of which nothing is asked. -/
theorem yields_bind {α β : Type} (x : Except Unsupported α) {f : α → Except Unsupported β}
    {q : β → Prop} (hf : ∀ a, Yields (f a) q) : Yields (x >>= f) q :=
  Yields.bind (p := fun _ => True) (fun _ _ => trivial) fun a _ => hf a

/-- A blank is followed by something, and not by an `f`. -/
def Calm (rest : List Char) : Prop := ∀ cs, rest = ' ' :: cs → ∃ d ds, cs = d :: ds ∧ d ≠ 'f'

/-- The text falls into a first word, which can be empty, and a rest. Without a word it does not
start with a brace, behind `async` comes no word with an `f` in front, and as far as `known` holds
the word is not `function`. -/
def Opens (known : Prop) (text : String) : Prop :=
  ∃ word rest, text.toList = word ++ rest ∧ (∀ c ∈ word, Text.isNamePart c) ∧ Loose rest
    ∧ (word = [] → ∃ c cs, rest = c :: cs ∧ c ≠ '\x7b')
    ∧ (known → word ≠ "function".toList)
    ∧ (word = "async".toList → Calm rest)

/-- Behind a text that opens well, this text completes neither `function` nor `async function`. -/
def Joins (known : Prop) (text : String) : Prop :=
  ∃ word rest, text.toList = word ++ rest ∧ (∀ c ∈ word, Text.isNamePart c) ∧ Loose rest
    ∧ (known → word <:+ "unction".toList → word = [])
    ∧ (word <:+ "sync".toList → Calm rest)

theorem calm_nil : Calm [] := by
  intro cs hcs
  cases hcs

theorem Calm.append {c : Char} {cs : List Char} (h : Calm (c :: cs)) (more : List Char) :
    Calm (c :: cs ++ more) := by
  intro ds hds
  obtain ⟨rfl, rfl⟩ := List.cons.inj hds
  obtain ⟨d, ds, rfl, hd⟩ := h cs rfl
  exact ⟨d, ds ++ more, rfl, hd⟩

theorem Opens.mono {known known' : Prop} {text : String} (h : Opens known text)
    (hk : known' → known) : Opens known' text := by
  obtain ⟨word, rest, he, hw, hl, hb, hf, ha⟩ := h
  exact ⟨word, rest, he, hw, hl, hb, fun k => hf (hk k), ha⟩

/-- A text that opens well still does with a text behind it that joins. -/
theorem Opens.append {known : Prop} {text more : String} (h : Opens known text)
    (hm : Joins known more) : Opens known (text ++ more) := by
  obtain ⟨word, rest, he, hw, hl, hb, hf, ha⟩ := h
  cases rest with
  | cons c cs =>
    -- the first word has ended already
    refine ⟨word, c :: cs ++ more.toList, ?_, hw, ?_, fun hn => ?_, hf, fun hs => ?_⟩
    · rw [String.toList_append, he, List.append_assoc]
    · rw [List.cons_append, Grammar.loose_cons]
      exact (Grammar.loose_cons c cs).1 hl
    · obtain ⟨_, _, hr, hc⟩ := hb hn
      obtain ⟨rfl, rfl⟩ := List.cons.inj hr
      exact ⟨c, cs ++ more.toList, rfl, hc⟩
    · exact (ha hs).append more.toList
  | nil =>
    -- the first word goes on with the first word of what follows
    obtain ⟨word', rest', he', hw', hl', hf', ha'⟩ := hm
    have hne : word ≠ [] := fun hn => by
      obtain ⟨_, _, hr, _⟩ := hb hn
      cases hr
    obtain ⟨c, cs, rfl⟩ := List.exists_cons_of_ne_nil hne
    refine ⟨c :: cs ++ word', rest', ?_, ?_, hl', by simp, fun k hs => ?_, fun hs => ?_⟩
    · rw [String.toList_append, he, he', List.append_nil, List.append_assoc]
    · exact List.forall_mem_append.2 ⟨hw, hw'⟩
    · have hsuffix : word' <:+ "unction".toList := ⟨cs, (List.cons.inj hs).2⟩
      rw [hf' k hsuffix, List.append_nil] at hs
      exact hf k hs
    · exact ha' ⟨cs, (List.cons.inj hs).2⟩

/-- A text falls into its first word, which can be empty, and the rest. -/
theorem exists_word (cs : List Char) :
    ∃ word rest, cs = word ++ rest ∧ (∀ c ∈ word, Text.isNamePart c) ∧ Loose rest := by
  refine ⟨cs.takeWhile Text.isNamePart, cs.dropWhile Text.isNamePart,
    List.takeWhile_append_dropWhile.symm, List.all_eq_true.1 List.all_takeWhile, ?_⟩
  intro d hd
  have := List.head?_dropWhile_not Text.isNamePart cs
  rw [Option.mem_def.1 hd] at this
  simpa using this

/-- The first characters of what a text must not open with. -/
def heads : List Char := "\x7bfa".toList

/-- The characters that the ends of `function` and `async` can start with, and a blank. -/
def tails : List Char := " syncuntio".toList

/-- What is to be avoided shows in the first character. -/
theorem opens_of_head {known : Prop} {text : String}
    (h : Starts text fun c => c ∉ heads) : Opens known text := by
  obtain ⟨c, cs, he, hc⟩ := h
  obtain ⟨word, rest, hs, hw, hl⟩ := exists_word text.toList
  refine ⟨word, rest, hs, hw, hl, ?_⟩
  rw [he] at hs
  cases word with
  | nil => exact ⟨fun _ => ⟨c, cs, hs.symm, fun hb => hc (hb ▸ by decide)⟩, by simp, by simp⟩
  | cons d ds =>
    obtain ⟨rfl, -⟩ := List.cons.inj hs
    exact ⟨by simp, fun _ hf => hc ((List.cons.inj hf).1 ▸ by decide),
      fun ha => absurd ((List.cons.inj ha).1 ▸ by decide) hc⟩

/-- A text joins if no end of `function` or `async` starts as it does. -/
theorem joins_of_head {known : Prop} {text : String}
    (h : Starts text fun c => c ∉ tails) : Joins known text := by
  obtain ⟨c, cs, he, hc⟩ := h
  obtain ⟨word, rest, hs, hw, hl⟩ := exists_word text.toList
  refine ⟨word, rest, hs, hw, hl, ?_⟩
  rw [he] at hs
  cases word with
  | nil =>
    refine ⟨fun _ _ => rfl, fun _ ds hds => absurd ?_ hc⟩
    rw [List.nil_append, hds] at hs
    rw [(List.cons.inj hs).1]
    decide
  | cons d ds =>
    obtain ⟨rfl, -⟩ := List.cons.inj hs
    have hmem : ∀ w : List Char, w ⊆ tails → ¬ c :: ds <:+ w :=
      fun w hw hsuffix => hc (hw (hsuffix.subset List.mem_cons_self))
    exact ⟨fun _ hf => absurd hf (hmem _ (by decide)), fun ha => absurd ha (hmem _ (by decide))⟩

/-- A blank with an operator behind it. -/
theorem joins_blank {known : Prop} {sign : String} (h : Starts sign (· ≠ 'f')) :
    Joins known (" " ++ sign) := by
  obtain ⟨c, cs, he, hc⟩ := h
  have hl : Text.isNamePart ' ' = false := Grammar.isNamePart_of_isSign (by decide)
  refine ⟨[], ' ' :: c :: cs, by simp [he], by simp, (Grammar.loose_cons _ _).2 hl,
    fun _ _ => rfl, fun _ ds hds => ?_⟩
  exact ⟨c, cs, (List.cons.inj hds).2.symm, hc⟩

theorem word_of_isIdentifierName {name : String} (h : Text.isIdentifierName name) :
    name.toList ≠ [] ∧ ∀ c ∈ name.toList, Text.isNamePart c := by
  unfold Text.isIdentifierName at h
  split at h
  · cases h
  · next c cs he =>
    rw [Bool.and_eq_true, List.all_eq_true] at h
    rw [he]
    refine ⟨by simp, List.forall_mem_cons.2 ⟨?_, h.2⟩⟩
    have hunderscore : Text.isNamePart '_' := by decide +kernel
    have hstart := h.1
    simp only [Text.isNameStart, Bool.or_eq_true, beq_iff_eq] at hstart
    rcases hstart with (rfl | rfl) | hc
    · rfl
    · exact hunderscore
    · simp [Text.isNamePart, hc]

/-- A name other than `function` opens well. -/
theorem opens_word {known : Prop} {name : String} (h : Text.isIdentifierName name)
    (hf : name ≠ "function") : Opens known name :=
  ⟨name.toList, [], (List.append_nil _).symm, (word_of_isIdentifierName h).2, Grammar.loose_nil,
    fun hn => absurd hn (word_of_isIdentifierName h).1, fun _ he => hf (String.toList_inj.1 he),
    fun _ => calm_nil⟩

/-- A name joins unless it is an end of `function`. -/
theorem joins_word {known : Prop} {name : String} (h : Text.isIdentifierName name)
    (hf : known → ¬ name.toList <:+ "unction".toList) : Joins known name :=
  ⟨name.toList, [], (List.append_nil _).symm, (word_of_isIdentifierName h).2,
    Grammar.loose_nil, fun k hs => absurd hs (hf k), fun _ => calm_nil⟩

theorem opens_parenthesis {known : Prop} (text : String) : Opens known ("(" ++ text ++ ")") :=
  opens_of_head (Starts.append (Starts.append ⟨'(', [], rfl, by decide⟩ text) ")")

/-- An arrow function opens with `async` or with a parenthesis, and both are harmless. -/
theorem opens_arrow {known : Prop} (async : Bool) (params body : String) :
    Opens known ((if async then "async " else "") ++ "(" ++ params ++ ") => " ++ body) := by
  cases async with
  | false =>
    exact opens_of_head (Starts.append (Starts.append (Starts.append
      (a := "" ++ "(") ⟨'(', [], rfl, by decide⟩ _) _) _)
  | true =>
    have hw : Text.isIdentifierName "async" := by decide +kernel
    have hblank : "async " = "async" ++ " " := rfl
    simp only [if_true, hblank, String.append_assoc]
    exact (opens_word hw (by decide)).append
      (joins_blank (Starts.append ⟨'(', [], rfl, by decide⟩ _))

/-- A number starts with none of the critical characters. -/
theorem Numeric.starts {text : String} (h : Numeric text) :
    Starts text fun c => c ∉ heads ++ tails := by
  have hnone : (heads ++ tails).all fun d => !(d.isDigit || ['.', '+', '-'].contains d) := by decide
  refine h.mono fun c hc hm => ?_
  have hout := List.all_eq_true.1 hnone c hm
  rcases hc with hd | hd <;> simp [hd] at hout

theorem starts_numberText (x : Binary64) :
    Starts (numberText x) fun c => c ∉ heads ++ tails := by
  unfold numberText
  split
  · exact ⟨'N', _, rfl, by decide⟩
  · split
    · exact ⟨'-', _, rfl, by decide⟩
    · exact ⟨'I', _, rfl, by decide⟩
  · split
    · exact ⟨'0', _, rfl, by decide⟩
    · split
      · exact Starts.append ⟨'-', [], rfl, by decide⟩ _
      · rw [String.empty_append]
        obtain ⟨c, cs, he, hc⟩ := (Json.digital_positional _).head
        exact Numeric.starts ⟨c, cs, he, .inl hc⟩

def literalWords : List String := ["null", "true", "false", "undefined"]

/-- A literal is one of four words, or starts with none of the critical characters. -/
theorem literalText_cases {layout : Layout} {l : Literal} (h : WellSpelled (.literal l)) :
    literalText layout l ∈ literalWords
      ∨ Starts (literalText layout l) fun c => c ∉ heads ++ tails := by
  obtain ⟨hbigint, hraw⟩ := h
  unfold literalText
  split
  · exact .inr (Starts.append (Starts.append (Starts.append ⟨'/', [], rfl, by decide⟩ _) _) _)
  · next digits _ hd => exact .inr ((hbigint digits hd).starts.append "n")
  · split
    · exact .inl (by decide)
    · next b _ => cases b <;> exact .inl (by decide)
    · next x hx =>
      rw [hx] at hraw
      cases hr : l.raw with
      | none => exact .inr (starts_numberText x)
      | some raw => exact .inr (hraw rfl raw hr).starts
    · exact .inr (Starts.append (Starts.append ⟨'"', [], rfl, by decide⟩ _) _)
    · next v hv =>
      rw [hv] at hraw
      cases hr : l.raw with
      | none => exact .inl (by simp [literalWords])
      | some raw => exact .inr (hraw rfl raw hr).starts

theorem opens_literal {known : Prop} {layout : Layout} {l : Literal}
    (h : WellSpelled (.literal l)) : Opens known (literalText layout l) := by
  rcases literalText_cases h with hw | hn
  · have hwords : ∀ w ∈ literalWords, Text.isIdentifierName w ∧ w ≠ "function" := by
      decide +kernel
    exact opens_word (hwords _ hw).1 (hwords _ hw).2
  · exact opens_of_head (hn.mono fun c hc hm => hc (List.mem_append_left _ hm))

theorem joins_literal {known : Prop} {layout : Layout} {l : Literal}
    (h : WellSpelled (.literal l)) : Joins known (literalText layout l) := by
  rcases literalText_cases h with hw | hn
  · have hwords : ∀ w ∈ literalWords,
        Text.isIdentifierName w ∧ ¬ w.toList <:+ "unction".toList := by
      decide +kernel
    exact joins_word (hwords _ hw).1 fun _ => (hwords _ hw).2
  · exact joins_of_head (hn.mono fun c hc hm => hc (List.mem_append_right _ hm))

/-- The text of an expression as it stands in its place: in parentheses, or as it is where it is
more than a list of expressions. -/
def Placed (e : Expression) (text placed : String) : Prop :=
  placed = "(" ++ text ++ ")" ∨ placed = text ∧ assignLevel ≤ precedence e

/-- Parentheses are left out only around what is more than a list of expressions. -/
theorem placed_grouped {least : Nat} (hl : assignLevel ≤ least) (e : Expression) (text : String) :
    Placed e text (grouped least e text) := by
  unfold grouped
  split
  · exact .inl rfl
  · next h => exact .inr ⟨rfl, Nat.le_trans hl (Nat.le_of_not_lt h)⟩

variable (layout : Layout) (depth : Nat)

/-- The text is that of the first operand in its place, with something behind it. -/
def Extends (e first : Expression) (text : String) : Prop :=
  ∃ t placed more, expressionText layout first depth = .ok t ∧ Placed first t placed
    ∧ text = placed ++ more ∧ Joins (Templated e) more

variable {layout depth} in
/-- An infix operator joins, since a blank and its sign come first. -/
theorem extends_operator {e left : Expression} {least : Nat} (hl : assignLevel ≤ least)
    {l sign : String} (hs : Starts sign (· ≠ 'f')) (more : String)
    (h : expressionText layout left depth = .ok l) :
    Extends layout depth e left (grouped least left l ++ " " ++ sign ++ " " ++ more) := by
  simp only [String.append_assoc]
  exact ⟨l, _, _, h, placed_grouped hl left l, rfl, joins_blank (hs.append _)⟩

theorem binary_extends (op : BinaryOperator) (left right : Expression) :
    Yields (expressionText layout (.binary op left right) depth)
      (Extends layout depth (.binary op left right) left) := by
  have hl : assignLevel ≤ (binaryLevels op).1 := by cases op <;> decide
  have hs : Starts op.text (· ≠ 'f') := by cases op <;> exact ⟨_, _, rfl, by decide⟩
  rw [expressionText]
  cases hlevels : binaryLevels op with
  | mk leftLevel rightLevel =>
    rw [hlevels] at hl
    exact (yields_ok _).bind fun l h => yields_bind _ fun r => yields_pure
      (extends_operator hl hs _ h)

theorem logical_extends (op : LogicalOperator) (left right : Expression) :
    Yields (expressionText layout (.logical op left right) depth)
      (Extends layout depth (.logical op left right) left) := by
  have hl : assignLevel ≤ (logicalLevels op).1 := by cases op <;> decide
  have hs : Starts op.text (· ≠ 'f') := by cases op <;> exact ⟨_, _, rfl, by decide⟩
  rw [expressionText]
  cases hlevels : logicalLevels op with
  | mk leftLevel rightLevel =>
    rw [hlevels] at hl
    exact (yields_ok _).bind fun l h => yields_bind _ fun r => yields_pure
      (extends_operator hl hs _ h)

theorem assignment_extends (op : AssignmentOperator) (target value : Expression) :
    Yields (expressionText layout (.assignment op target value) depth)
      (Extends layout depth (.assignment op target value) target) := by
  have hs : Starts op.text (· ≠ 'f') := by cases op <;> exact ⟨_, _, rfl, by decide⟩
  rw [expressionText]
  exact (yields_ok _).bind fun t h => yields_bind _ fun v => yields_pure
    (extends_operator (by decide) hs _ h)

theorem conditional_extends (test consequent alternate : Expression) :
    Yields (expressionText layout (.conditional test consequent alternate) depth)
      (Extends layout depth (.conditional test consequent alternate) test) := by
  rw [expressionText]
  refine (yields_ok _).bind fun t h => yields_bind _ fun c => yields_bind _ fun a => yields_pure ?_
  have hblank : " ? " = " " ++ "? " := rfl
  simp only [hblank, String.append_assoc]
  exact ⟨t, _, _, h, placed_grouped (by decide) test t, rfl,
    joins_blank (Starts.append ⟨'?', [' '], rfl, by decide⟩ _)⟩

theorem call_extends (callee : Expression) (arguments : List Expression) (optional : Bool) :
    Yields (expressionText layout (.call callee arguments optional) depth)
      (Extends layout depth (.call callee arguments optional) callee) := by
  rw [expressionText]
  refine (yields_ok _).bind fun c h => yields_bind _ fun as => yields_pure ?_
  simp only [String.append_assoc]
  refine ⟨c, _, _, h, placed_grouped (by decide) callee c, rfl, joins_of_head ?_⟩
  cases optional with
  | true => exact Starts.append ⟨'?', ['.'], rfl, by decide⟩ _
  | false => exact Starts.append (a := "" ++ "(") ⟨'(', [], rfl, by decide⟩ _

theorem member_extends (object property : Expression) (computed optional : Bool) :
    Yields (expressionText layout (.member object property computed optional) depth)
      (Extends layout depth (.member object property computed optional) object) := by
  rw [expressionText]
  refine (yields_ok _).bind fun o h => yields_bind _ fun p => yields_pure ?_
  refine ⟨o, _, _, h, ?_, rfl, joins_of_head ?_⟩
  · split
    · exact .inl rfl
    · exact placed_grouped (by decide) object o
  · cases computed <;> cases optional
    · exact Starts.append ⟨'.', [], rfl, by decide⟩ _
    · exact Starts.append ⟨'?', ['.'], rfl, by decide⟩ _
    · exact Starts.append (Starts.append ⟨'[', [], rfl, by decide⟩ _) _
    · exact Starts.append (Starts.append ⟨'?', ['.', '['], rfl, by decide⟩ _) _

theorem sequence_extends (first : Expression) (rest : List Expression) :
    Yields (expressionText layout (.sequence (first :: rest)) depth)
      (Extends layout depth (.sequence (first :: rest)) first) := by
  rw [expressionText, listText]
  refine (yields_ok _).bind fun t h => (yields_ok _).bind fun more hm => yields_pure ?_
  rw [String.append_assoc]
  refine ⟨t, _, _, h, placed_grouped (by decide) first t, rfl, ?_⟩
  cases rest with
  | nil =>
    cases hm
    exact ⟨[], [], rfl, by simp, Grammar.loose_nil, fun _ _ => rfl, fun _ => calm_nil⟩
  | cons =>
    rw [List.isEmpty_cons, if_neg Bool.false_ne_true]
    exact joins_of_head (Starts.append ⟨',', [' '], rfl, by decide⟩ more)

theorem update_extends (op : UpdateOperator) (argument : Expression) :
    Yields (expressionText layout (.update op false argument) depth)
      (Extends layout depth (.update op false argument) argument) := by
  have hs : Starts op.text fun c => c ∉ tails := by
    cases op <;> exact ⟨_, _, rfl, by decide⟩
  rw [expressionText]
  exact (yields_ok _).bind fun t h => yields_pure
    ⟨t, _, _, h, placed_grouped (by decide) argument t, rfl, joins_of_head hs⟩

theorem starts_inBraces (members : List Member) (text : String) :
    Starts (inBraces members text) (· = '\x7b') := by
  unfold inBraces
  split
  · exact ⟨_, _, rfl, rfl⟩
  · exact ⟨'\x7b', ' ' :: (text.toList ++ [' ', '\x7d']), by simp, rfl⟩

theorem starts_functionHead (f : Function) :
    Starts (functionHead f) fun c => c = 'a' ∨ c = 'f' := by
  unfold functionHead
  refine Starts.append (Starts.append ?_ _) _
  split
  · exact Starts.append ⟨'a', _, rfl, .inl rfl⟩ _
  · exact ⟨'f', _, rfl, .inr rfl⟩

/-- Whatever stands in the place of a template, only a name can complete a tag to `function`. -/
theorem template_joins {quasi : Expression} (hq : WellSpelled quasi) {known : Prop}
    (hn : known → ∀ name, quasi ≠ .identifier name) :
    Yields (expressionText layout quasi depth) fun text =>
      Joins known (grouped primaryLevel quasi text) := by
  by_cases hp : precedence quasi < primaryLevel
  · intro text _
    rw [grouped, if_pos hp]
    exact joins_of_head (Starts.append (Starts.append ⟨'(', [], rfl, by decide⟩ text) ")")
  · simp only [grouped, if_neg hp]
    cases quasi with
    | identifier name => exact yields_pure (joins_word hq.1 fun k => absurd rfl (hn k name))
    | literal l => exact yields_pure (joins_literal hq)
    | this => exact yields_pure (joins_word (by decide +kernel) fun _ => by decide)
    | array | arrayPattern =>
      exact yields_bind _ fun _ => yields_pure
        (joins_of_head (Starts.append (Starts.append ⟨'[', [], rfl, by decide⟩ _) _))
    | object | objectPattern =>
      exact yields_bind _ fun _ => yields_pure
        (joins_of_head ((starts_inBraces _ _).mono fun c hc => hc ▸ by decide))
    | function f =>
      refine yields_bind _ fun _ => yields_pure (joins_of_head (Starts.append ?_ _))
      refine (starts_functionHead f).mono fun c hc => ?_
      rcases hc with rfl | rfl <;> decide
    | template =>
      exact yields_bind _ fun _ => yields_pure
        (joins_of_head (Starts.append (Starts.append ⟨_, [], rfl, by decide⟩ _) _))
    | «foreign» => exact fun _ h => nomatch h
    -- the other kinds bind less than a primary expression
    | binary op | logical op => cases op <;> exact absurd (Nat.le_of_ble_eq_true rfl) hp
    | update op leading => cases leading <;> exact absurd (Nat.le_of_ble_eq_true rfl) hp
    | _ => exact absurd (Nat.le_of_ble_eq_true rfl) hp

/-- A tag is followed by its template, which joins if it is well spelled. -/
theorem tagged_extends {tag quasi : Expression} (hq : WellSpelled quasi) :
    Yields (expressionText layout (.tagged tag quasi) depth)
      (Extends layout depth (.tagged tag quasi) tag) := by
  have hn : Templated (.tagged tag quasi) → ∀ name, quasi ≠ .identifier name := by
    rintro h name rfl
    exact h tag name List.mem_cons_self
  rw [expressionText]
  exact (yields_ok _).bind fun t h => (template_joins layout depth hq hn).bind fun q hj =>
    yields_pure ⟨t, _, _, h, placed_grouped (by decide) tag t, rfl, hj⟩

/-- What the text of an expression satisfies: it opens well, or it is empty. -/
def Presents (e : Expression) (text : String) : Prop :=
  e = .sequence [] ∧ text = "" ∨ Opens (Templated e) text

/-- An operand in its place opens as well as its own text. -/
theorem Placed.opens {e : Expression} {text placed : String} (h : Placed e text placed)
    (ht : Presents e text) : Opens (Templated e) placed := by
  rcases h with rfl | ⟨rfl, hl⟩
  · exact opens_parenthesis text
  · rcases ht with ⟨rfl, -⟩ | ht
    · exact absurd hl (by decide)
    · exact ht

variable {layout depth}

theorem presents_head {e : Expression} {text : String}
    (h : Starts text fun c => c ∉ heads) : Presents e text :=
  .inr (opens_of_head h)

/-- An expression opens as its first operand does. -/
theorem presents_first {e first : Expression} (hc : leftChain e = e :: leftChain first)
    (he : Yields (expressionText layout e depth) (Extends layout depth e first))
    (hf : Yields (expressionText layout first depth) (Presents first)) :
    Yields (expressionText layout e depth) (Presents e) := by
  intro text ht
  obtain ⟨t, placed, more, h, hp, rfl, hj⟩ := he text ht
  exact .inr (((hp.opens (hf t h)).mono fun k => k.operand hc).append hj)

/-- The induction follows the operands on the left; a kind without one shows how it opens. -/
theorem expression_presents (layout : Layout) (depth : Nat) :
    (e : Expression) → Regular e → startsAmbiguously e = false →
      Yields (expressionText layout e depth) (Presents e)
  | .binary op left right, he, ha =>
    presents_first rfl (binary_extends layout depth op left right)
      (expression_presents layout depth left (he.operand rfl) ha)
  | .logical op left right, he, ha =>
    presents_first rfl (logical_extends layout depth op left right)
      (expression_presents layout depth left (he.operand rfl) ha)
  | .assignment op target value, he, ha =>
    presents_first rfl (assignment_extends layout depth op target value)
      (expression_presents layout depth target (he.operand rfl) ha)
  | .conditional test consequent alternate, he, ha =>
    presents_first rfl (conditional_extends layout depth test consequent alternate)
      (expression_presents layout depth test (he.operand rfl) ha)
  | .call callee arguments optional, he, ha =>
    presents_first rfl (call_extends layout depth callee arguments optional)
      (expression_presents layout depth callee (he.operand rfl) ha)
  | .member object property computed optional, he, ha =>
    presents_first rfl (member_extends layout depth object property computed optional)
      (expression_presents layout depth object (he.operand rfl) ha)
  | .sequence (first :: rest), he, ha =>
    presents_first rfl (sequence_extends layout depth first rest)
      (expression_presents layout depth first (he.operand rfl) ha)
  | .update op false argument, he, ha =>
    presents_first rfl (update_extends layout depth op argument)
      (expression_presents layout depth argument (he.operand rfl) ha)
  | .tagged tag quasi, he, ha =>
    presents_first rfl (tagged_extends layout depth (he.quasi tag quasi List.mem_cons_self))
      (expression_presents layout depth tag (he.operand rfl) ha)
  | .sequence [], _, _ => yields_pure (.inl ⟨rfl, rfl⟩)
  | .identifier name, he, _ => by
    obtain ⟨hn, hr⟩ := he.spelled (.identifier name) List.mem_cons_self
    exact yields_pure (.inr (opens_word hn fun hf => hr (by rw [hf]; decide)))
  | .literal l, he, _ =>
    yields_pure (.inr (opens_literal (he.spelled (.literal l) List.mem_cons_self)))
  | .this, _, _ => yields_pure (presents_head ⟨_, _, rfl, by decide⟩)
  | .array _, _, _ | .arrayPattern _, _, _ =>
    yields_bind _ fun _ => yields_pure
      (presents_head (Starts.append (Starts.append ⟨'[', [], rfl, by decide⟩ _) _))
  | .arrow _ _ _ async, _, _ =>
    yields_bind _ fun params => yields_bind _ fun body => yields_pure
      (.inr (opens_arrow async params body))
  | .unary op _ argument, _, _ => by
    have hs : Starts op.text fun c => c ∉ heads := by
      cases op <;> exact ⟨_, _, rfl, by decide⟩
    exact yields_bind _ fun _ => yields_pure (presents_head ((hs.append _).append _))
  | .update op true argument, _, _ => by
    have hs : Starts op.text fun c => c ∉ heads := by
      cases op <;> exact ⟨_, _, rfl, by decide⟩
    exact yields_bind _ fun _ => yields_pure (presents_head (hs.append _))
  | .new _ _, _, _ =>
    yields_bind _ fun _ => yields_bind _ fun _ => yields_pure
      (presents_head (((Starts.append ⟨'n', _, rfl, by decide⟩ _).append _).append _ |>.append _))
  | .template _ _, _, _ =>
    yields_bind _ fun _ => yields_pure
      (presents_head (Starts.append (Starts.append ⟨_, [], rfl, by decide⟩ _) _))
  | .spread _, _, _ | .rest _, _, _ =>
    yields_bind _ fun _ => yields_pure
      (presents_head (Starts.append ⟨'.', ['.', '.'], rfl, by decide⟩ _))
  | .assignmentPattern target fallback, he, _ =>
    absurd List.mem_cons_self (he.unpatterned target fallback)
  | .foreign _, _, _ => fun _ h => nomatch h
termination_by structural e => e

def StartsWithWord (word text : String) : Prop :=
  ∃ rest, text.toList = word.toList ++ rest ∧ Loose rest

/-- A text has one first word. -/
theorem word_unique {w w' rest rest' : List Char} (h : w ++ rest = w' ++ rest')
    (hw : ∀ c ∈ w, Text.isNamePart c) (hw' : ∀ c ∈ w', Text.isNamePart c) (hr : Loose rest)
    (hr' : Loose rest') : w = w' ∧ rest = rest' := by
  have heq : w = w' := by rw [← Grammar.takeWhile_word hw hr, h, Grammar.takeWhile_word hw' hr']
  subst heq
  exact ⟨rfl, List.append_cancel_left h⟩

/-- A text that opens well does not start with a brace. -/
theorem Opens.not_brace {known : Prop} {text : String} (h : Opens known text) :
    ¬ ['\x7b'] <+: text.toList := by
  rintro ⟨more, hm⟩
  obtain ⟨word, rest, he, hw, hl, hb, -⟩ := h
  have hbrace : Text.isNamePart '\x7b' = false := Grammar.isNamePart_of_isSign (by decide)
  have hm' : [] ++ ('\x7b' :: more) = word ++ rest := hm.trans he
  obtain ⟨rfl, rfl⟩ := word_unique hm' (by simp) hw ((Grammar.loose_cons _ _).2 hbrace) hl
  obtain ⟨c, cs, hcs, hc⟩ := hb rfl
  exact hc (List.cons.inj hcs).1.symm

/-- A text that opens well does not start with the word `function`. -/
theorem Opens.not_function {known : Prop} {text : String} (h : Opens known text) (hk : known) :
    ¬ StartsWithWord "function" text := by
  rintro ⟨more, hm, hmore⟩
  obtain ⟨word, rest, he, hw, hl, -, hf, -⟩ := h
  have hword : ∀ c ∈ "function".toList, Text.isNamePart c :=
    (word_of_isIdentifierName (by decide +kernel)).2
  exact hf hk (word_unique (he.symm.trans hm) hw hword hl hmore).1

theorem Opens.not_async_function {known : Prop} {text : String} (h : Opens known text) :
    ¬ "async function".toList <+: text.toList := by
  rintro ⟨more, hm⟩
  obtain ⟨word, rest, he, hw, hl, -, -, ha⟩ := h
  have hword : ∀ c ∈ "async".toList, Text.isNamePart c :=
    (word_of_isIdentifierName (by decide +kernel)).2
  have hblank : Text.isNamePart ' ' = false := Grammar.isNamePart_of_isSign (by decide)
  have hm' : "async".toList ++ (' ' :: ("function".toList ++ more)) = word ++ rest := hm.trans he
  obtain ⟨rfl, rfl⟩ := word_unique hm' hword hw ((Grammar.loose_cons _ _).2 hblank) hl
  obtain ⟨d, ds, hd, hne⟩ := ha rfl _ rfl
  exact hne (List.cons.inj hd).1.symm

/-- An expression statement opens well. -/
theorem statement_opens {e : Expression} (he : Regular e) (layout : Layout)
    (directive : Option String) (depth : Nat) :
    Yields (statementText layout (.expression e directive) depth) (Opens (Templated e)) := by
  have hsemicolon : ∀ k, Joins k ";" := fun _ => joins_of_head ⟨';', [], rfl, by decide⟩
  rw [statementText]
  cases ha : startsAmbiguously e with
  | true =>
    exact yields_bind _ fun text => yields_pure ((opens_parenthesis text).append (hsemicolon _))
  | false =>
    refine (expression_presents layout depth e he ha).bind fun text ht => yields_pure ?_
    rw [if_neg Bool.false_ne_true]
    rcases ht with ⟨-, rfl⟩ | ht
    · exact opens_of_head ⟨';', [], rfl, by decide⟩
    · exact ht.append (hsemicolon _)

/-- The expression behind an arrow opens well. -/
theorem arrowBody_opens {e : Expression} (he : Regular e) (layout : Layout) (depth : Nat) :
    Yields (arrowBodyText layout (.expression e) depth) (Opens (Templated e)) := by
  rw [arrowBodyText]
  cases ha : startsAmbiguously e with
  | true => exact yields_bind _ fun text => yields_pure (opens_parenthesis text)
  | false =>
    refine (expression_presents layout depth e he ha).bind fun text ht => yields_pure ?_
    exact (placed_grouped (by decide) e text).opens ht

/-- An expression as a statement is not read as a block or a declaration, and behind an arrow it is
not read as a block. Only a name in the place of a template can complete a tag to `function`. -/
theorem start_unambiguous (layout : Layout) (e : Expression) (directive : Option String)
    (depth : Nat) (he : Regular e) :
    (∀ text, statementText layout (.expression e directive) depth = .ok text →
      ¬ ['\x7b'] <+: text.toList ∧ ¬ "async function".toList <+: text.toList
        ∧ (Templated e → ¬ StartsWithWord "function" text))
    ∧ ∀ text, arrowBodyText layout (.expression e) depth = .ok text →
      ¬ ['\x7b'] <+: text.toList := by
  refine ⟨fun text ht => ?_, fun text ht => ?_⟩
  · have ho := statement_opens he layout directive depth text ht
    exact ⟨ho.not_brace, ho.not_async_function, fun hk => ho.not_function hk⟩
  · exact (arrowBody_opens he layout depth text ht).not_brace

/-- A template whose tag is a member of an object: the first of its operands is a brace. -/
def memberTag : Expression :=
  .tagged (.member (.object []) (.identifier "function") false false)
    (.template [⟨"x", some "x", true⟩] [])

/-- A brace on the left of a tag is put in parentheses, and `function` behind the point is harmless.
-/
theorem start_unambiguous_memberTag :
    Regular memberTag ∧ Templated memberTag
      ∧ statementText {} (.expression memberTag none) 0 = .ok "(\x7b\x7d.function`x`);"
      ∧ arrowBodyText {} (.expression memberTag) 0 = .ok "(\x7b\x7d.function`x`)"
      ∧ ¬ ['\x7b'] <+: "(\x7b\x7d.function`x`);".toList
      ∧ ¬ StartsWithWord "function" "(\x7b\x7d.function`x`);"
      ∧ ¬ ['\x7b'] <+: "(\x7b\x7d.function`x`)".toList := by
  have hregular : Regular memberTag := by
    refine ⟨?_, ?_, ?_⟩ <;> simp [memberTag, leftChain, WellSpelled]
  have htemplated : Templated memberTag := by simp [Templated, memberTag, leftChain]
  have hstatement : statementText {} (.expression memberTag none) 0
      = .ok "(\x7b\x7d.function`x`);" := by rfl
  have harrow : arrowBodyText {} (.expression memberTag) 0 = .ok "(\x7b\x7d.function`x`)" := by rfl
  obtain ⟨hs, hb⟩ := start_unambiguous {} memberTag none 0 hregular
  obtain ⟨hbrace, -, hfunction⟩ := hs _ hstatement
  exact ⟨hregular, htemplated, hstatement, harrow, hbrace, hfunction htemplated, hb _ harrow⟩

/-- A tag with a name in the place of its template: the two run together. -/
def fusedTag : Expression := .tagged (.identifier "func") (.identifier "tion")

/-- A tag and a name that run together can open with `function`. -/
theorem fusedTag_starts_function :
    Regular fusedTag ∧ statementText {} (.expression fusedTag none) 0 = .ok "function;"
      ∧ StartsWithWord "function" "function;" := by
  have hnames : ∀ name ∈ ["func", "tion"],
      Text.isIdentifierName name ∧ name ∉ Grammar.reservedWords := by decide +kernel
  refine ⟨⟨?_, ?_, ?_⟩, rfl, [';'], rfl, ?_⟩
  · simp [fusedTag, leftChain, WellSpelled, hnames "func"]
  · simp [fusedTag, leftChain, WellSpelled, hnames "tion"]
  · simp [fusedTag, leftChain]
  · exact (Grammar.loose_cons _ _).2 (Grammar.isNamePart_of_isSign (by decide))

end Printer
end Untangle
