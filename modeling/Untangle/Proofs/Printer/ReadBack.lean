import Untangle.Proofs.Printer.Lexemes

/-!
# Printed expressions read back

Reading the text of a readable expression by the expression grammar gives the
expression again, without the source spellings of its string literals, which
the printer does not use. Each level of the grammar has its own statement on
the lexemes of an expression in front of any rest that may follow there; the
statements hold for lexemes in parentheses too, so that a place which asks for
a level gets it.
-/
namespace Untangle

mutual
/-- The expression without the source spellings of its literals. -/
def Expression.unspelled : Expression → Expression
  | .literal l => .literal { l with raw := none }
  | .array elements => .array (unspelledElements elements)
  | .unary op leading argument => .unary op leading argument.unspelled
  | .update op leading argument => .update op leading argument.unspelled
  | .binary op left right => .binary op left.unspelled right.unspelled
  | .logical op left right => .logical op left.unspelled right.unspelled
  | .assignment op target value => .assignment op target.unspelled value.unspelled
  | .conditional test consequent alternate =>
    .conditional test.unspelled consequent.unspelled alternate.unspelled
  | .call callee arguments optional => .call callee.unspelled (unspelledList arguments) optional
  | .new callee arguments => .new callee.unspelled (unspelledList arguments)
  | .member object property computed optional =>
    .member object.unspelled property.unspelled computed optional
  | .sequence expressions => .sequence (unspelledList expressions)
  | e => e
termination_by structural e => e

def unspelledList : List Expression → List Expression
  | [] => []
  | e :: rest => e.unspelled :: unspelledList rest
termination_by structural l => l

def unspelledOption : Option Expression → Option Expression
  | none => none
  | some e => some e.unspelled
termination_by structural e => e

def unspelledElements : List (Option Expression) → List (Option Expression)
  | [] => []
  | e :: rest => unspelledOption e :: unspelledElements rest
termination_by structural l => l
end

namespace Printer

open Grammar

theorem isTarget_unspelled (e : Expression) : isTarget e.unspelled = isTarget e := by
  cases e <;> rfl

def rank : Expression → Nat
  | .sequence _ => 1
  | .assignment .. | .conditional .. => 2
  | .logical op _ _ => op.precedence
  | .binary op _ _ => op.precedence
  | .unary .. => 15
  | .update .. => 16
  | _ => 18

def phrase (e : Expression) : Phrase := ⟨e.unspelled, rank e⟩

/-- The least level of an infix operator that would go on with the last operand. -/
def reach : Expression → Nat
  | .logical op _ _ => (logicalLevels op).2
  | .binary op _ _ => (binaryLevels op).2
  | _ => 20

/-- No access or call goes on. -/
def Unlinked (rest : List Token) : Prop :=
  ∀ t ∈ rest.head?, t ∉ [.mark ".", .mark "[", .mark "(", .mark "?."]

/-- No access, call or step goes on. -/
def Ends (rest : List Token) : Prop :=
  ∀ t ∈ rest.head?, t ∉ [.mark ".", .mark "[", .mark "(", .mark "?.", .mark "++", .mark "--"]

/-- No infix operator of at least the level `bound` goes on. -/
def Below (bound : Nat) (rest : List Token) : Prop :=
  ∀ t ∈ rest.head?, ∀ rule ∈ infix? t, rule.level < bound

/-- What may stand behind an assignment expression. -/
def Closes (rest : List Token) : Prop :=
  ∀ t ∈ rest.head?, t ∈ [.mark ",", .mark ":", .mark ")", .mark "]"]

/-- What may stand behind an expression. -/
def Shut (rest : List Token) : Prop := ∀ t ∈ rest.head?, t ∈ [.mark ")", .mark "]"]

theorem Ends.unlinked {rest : List Token} (h : Ends rest) : Unlinked rest :=
  fun t ht hm => h t ht (List.mem_append_left [Token.mark "++", Token.mark "--"] hm)

theorem Shut.closes {rest : List Token} (h : Shut rest) : Closes rest := by
  intro t ht
  have hd : ∀ t ∈ [Token.mark ")", .mark "]"],
      t ∈ [Token.mark ",", .mark ":", .mark ")", .mark "]"] := by decide
  exact hd t (h t ht)

theorem Closes.ends {rest : List Token} (h : Closes rest) : Ends rest := by
  intro t ht
  have hd : ∀ t ∈ [Token.mark ",", .mark ":", .mark ")", .mark "]"],
      t ∉ [Token.mark ".", .mark "[", .mark "(", .mark "?.", .mark "++", .mark "--"] := by decide
  exact hd t (h t ht)

/-- What may stand behind an assignment expression is no infix operator. -/
theorem Closes.below {rest : List Token} (h : Closes rest) (bound : Nat) : Below bound rest := by
  intro t ht rule hr
  have hd : ∀ t ∈ [Token.mark ",", .mark ":", .mark ")", .mark "]"], (infix? t).isNone := by decide
  have hn := hd t (h t ht)
  rw [Option.isNone_iff_eq_none.1 hn] at hr
  cases hr

/-- A chain ends where no access or call goes on. -/
theorem links_unlinked {rest : List Token} (h : Unlinked rest) (calls : Bool) (p : Phrase) :
    standard.links calls p rest = some (p, rest) := by
  unfold Dialect.links
  split
  · exact absurd (h _ rfl) (by decide)
  · exact absurd (h _ rfl) (by decide)
  · exact absurd (h _ rfl) (by decide)
  · exact absurd (h _ rfl) (by decide)
  · rfl

/-- An operation ends where no operator of its level goes on. -/
theorem operators_below {bound : Nat} {rest : List Token} (h : Below bound rest) (p : Phrase) :
    standard.operators bound p rest = some (p, rest) := by
  unfold Dialect.operators
  split
  · rfl
  · next t rest =>
    split
    · next rule hr =>
      have hlt := h t rfl rule hr
      rw [if_neg (by omega)]
    · rfl

/-- The token starts no unary expression but a chain. -/
def Operand (t : Token) : Prop :=
  (Spelled.ofText? t.spelling : Option UnaryOperator) = none ∧
    (Spelled.ofText? t.spelling : Option UpdateOperator) = none

/-- A name that is not reserved starts no unary expression. -/
theorem operand_name {name : String} (hn : Text.isIdentifierName name) (hr : name ∉ reservedWords) :
    Operand (.word name) := by
  have hu : ∀ op ∈ (Spelled.all : List UnaryOperator),
      Spelled.text op ∈ reservedWords ∨ Text.isIdentifierName (Spelled.text op) = false := by
    decide +kernel
  have hs : ∀ op ∈ (Spelled.all : List UpdateOperator),
      Text.isIdentifierName (Spelled.text op) = false := by
    decide +kernel
  constructor
  · refine List.find?_eq_none.2 fun op hop he => ?_
    have ht : Spelled.text op = name := eq_of_beq he
    rcases hu op hop with h | h
    · exact hr (ht ▸ h)
    · rw [ht, hn] at h
      cases h
  · refine List.find?_eq_none.2 fun op hop he => ?_
    have ht : Spelled.text op = name := eq_of_beq he
    have h := hs op hop
    rw [ht, hn] at h
    cases h

/-- A chain in front of a token that does not go on with it is a unary expression. -/
theorem unary_of_chain {t : Token} {us rest : List Token} {p : Phrase} (ht : Operand t)
    (he : Ends rest) (h : standard.chain true (t :: us) = standard.links true p rest) :
    standard.unary (t :: us) = some (p, rest) := by
  rw [links_unlinked he.unlinked] at h
  rw [Dialect.unary, ht.1, Dialect.update, ht.2]
  simp only [h, Option.bind_eq_bind, Option.bind_some]
  split
  · next sign us =>
    have hs : (Spelled.ofText? sign : Option UpdateOperator) = none := by
      have hm := he _ rfl
      refine List.find?_eq_none.2 fun op _ ho => hm ?_
      rw [← eq_of_beq ho]
      cases op <;> decide
    rw [hs]
    rfl
  · rfl

/-- A unary expression is the first operand of an operation. -/
theorem operation_of_unary {ts rest : List Token} {p : Phrase} (least : Nat)
    (h : standard.unary ts = some (p, rest)) :
    standard.operation least ts = standard.operators least p rest := by
  rw [Dialect.operation, h]
  rfl

/-- An operation without a question mark behind it is a conditional expression. -/
theorem conditional_of_operation {ts rest : List Token} {p : Phrase} (hb : Below testLevel rest)
    (hq : ∀ us, rest ≠ .mark "?" :: us)
    (h : standard.operation testLevel ts = standard.operators testLevel p rest) :
    standard.conditional ts = some (p, rest) := by
  have hp : standard.operation 3 ts = some (p, rest) := h.trans (operators_below hb p)
  rw [Dialect.conditional, hp]
  simp only [Option.bind_eq_bind, Option.bind_some, Option.pure_def]

/-- A conditional expression without an assignment operator behind it is an assignment expression.
-/
theorem assignment_of_conditional {ts rest : List Token} {p : Phrase} (hc : Closes rest)
    (h : standard.conditional ts = some (p, rest)) : standard.assignment ts = some (p, rest) := by
  rw [Dialect.assignment, h]
  simp only [Option.bind_eq_bind, Option.bind_some]
  split
  · next sign us =>
    have hs : (Spelled.ofText? sign : Option AssignmentOperator) = none := by
      have hm := hc _ rfl
      refine List.find?_eq_none.2 fun op _ ho => ?_
      rw [← eq_of_beq ho] at hm
      revert hm
      cases op <;> decide
    rw [hs]
    rfl
  · rfl

theorem assignment_of_operation {ts rest : List Token} {p : Phrase} (hc : Closes rest)
    (h : standard.operation testLevel ts = standard.operators testLevel p rest) :
    standard.assignment ts = some (p, rest) := by
  have hq : ∀ us, rest ≠ .mark "?" :: us := by
    rintro us rfl
    exact absurd (hc _ rfl) (by decide)
  exact assignment_of_conditional hc (conditional_of_operation (hc.below _) hq h)

/-- An assignment expression without a comma behind it is an expression. -/
theorem expression_of_assignment {ts rest : List Token} {p : Phrase} (hs : Shut rest)
    (h : standard.assignment ts = some (p, rest)) : standard.expression ts = some (p, rest) := by
  rw [Dialect.expression, h]
  simp only [Option.bind_eq_bind, Option.bind_some]
  split
  · exact absurd (hs _ rfl) (by decide)
  · rfl

/-- The lexemes read as the phrase at each level of the grammar up to their own, whatever comes
behind that does not go on with them. An infix operator goes on from the level `bound`, and the
arguments of a `new` in front only if the lexemes have no calls of their own. -/
structure Reads (ts : List Token) (p : Phrase) (level bound : Nat) (calls : Bool) : Prop where
  rank_ge : min level memberLevel ≤ p.level
  bound_gt : ∀ m ≤ level, (m = 14 → unaryLevel ≤ level) → m < bound
  head : callLevel ≤ level → ∃ t us, ts = t :: us ∧ Operand t
  chain : callLevel ≤ level → ∀ c rest, c = true ∨ calls = false →
    standard.chain c (ts ++ rest) = standard.links c p rest
  unary : unaryLevel ≤ level → ∀ rest, Ends rest → standard.unary (ts ++ rest) = some (p, rest)
  operation : testLevel ≤ level → ∀ least ≤ level, ∀ rest, Ends rest → Below bound rest →
    standard.operation least (ts ++ rest) = standard.operators least p rest
  assignment : assignLevel ≤ level → ∀ rest, Closes rest →
    standard.assignment (ts ++ rest) = some (p, rest)
  expression : ∀ rest, Shut rest → standard.expression (ts ++ rest) = some (p, rest)

section Levels
variable {ts : List Token} {p : Phrase} {level : Nat} {calls : Bool}

/-- What reads as an expression reads at each level below that of an assignment. -/
theorem Reads.ofExpression (hl : level < assignLevel) (hp : level ≤ p.level)
    (h : ∀ rest, Shut rest → standard.expression (ts ++ rest) = some (p, rest)) :
    Reads ts p level 20 calls := by
  unfold assignLevel at hl
  constructor
  case rank_ge => omega
  case bound_gt => omega
  case expression => exact h
  all_goals
    intro h
    exact absurd h (by simp only [callLevel, unaryLevel, testLevel, assignLevel]; omega)

/-- What reads as an assignment expression reads at each level below that of a conditional. -/
theorem Reads.ofAssignment (hl : level < testLevel) (hp : level ≤ p.level)
    (h : ∀ rest, Closes rest → standard.assignment (ts ++ rest) = some (p, rest)) :
    Reads ts p level 20 calls := by
  unfold testLevel at hl
  constructor
  case rank_ge => omega
  case bound_gt => omega
  case assignment => exact fun _ => h
  case expression => exact fun rest hs => expression_of_assignment hs (h rest hs.closes)
  all_goals
    intro h
    exact absurd h (by simp only [callLevel, unaryLevel, testLevel]; omega)

/-- What reads as an operation reads at each level below that of a unary expression. -/
theorem Reads.ofOperation {bound : Nat} (hl : level < unaryLevel) (ht : testLevel ≤ level)
    (hp : level ≤ p.level) (hb : ∀ m ≤ level, (m = 14 → unaryLevel ≤ level) → m < bound)
    (h : ∀ least ≤ level, ∀ rest, Ends rest → Below bound rest →
      standard.operation least (ts ++ rest) = standard.operators least p rest) :
    Reads ts p level bound calls := by
  have ha : ∀ rest, Closes rest → standard.assignment (ts ++ rest) = some (p, rest) :=
    fun rest hc => assignment_of_operation hc (h _ ht rest hc.ends (hc.below _))
  constructor
  case rank_ge => omega
  case bound_gt => exact hb
  case operation => exact fun _ => h
  case assignment => exact fun _ => ha
  case expression => exact fun rest hs => expression_of_assignment hs (ha rest hs.closes)
  all_goals
    intro h
    unfold unaryLevel at hl
    exact absurd h (by simp only [callLevel, unaryLevel]; omega)

/-- What reads as a unary expression reads at each level below that of a call. -/
theorem Reads.ofUnary (hl : level < callLevel) (hp : level ≤ p.level)
    (h : ∀ rest, Ends rest → standard.unary (ts ++ rest) = some (p, rest)) :
    Reads ts p level 20 calls := by
  have ho : ∀ least rest, Ends rest →
      standard.operation least (ts ++ rest) = standard.operators least p rest :=
    fun least rest he => operation_of_unary least (h rest he)
  have ha : ∀ rest, Closes rest → standard.assignment (ts ++ rest) = some (p, rest) :=
    fun rest hc => assignment_of_operation hc (ho _ rest hc.ends)
  unfold callLevel at hl
  constructor
  case rank_ge => omega
  case bound_gt => omega
  case unary => exact fun _ => h
  case operation => exact fun _ least _ rest he _ => ho least rest he
  case assignment => exact fun _ => ha
  case expression => exact fun rest hs => expression_of_assignment hs (ha rest hs.closes)
  all_goals
    intro h
    exact absurd h (by simp only [callLevel]; omega)

/-- What reads as a chain reads at every level. -/
theorem Reads.ofChain {t : Token} {us : List Token} (hl : level ≤ primaryLevel)
    (hp : memberLevel ≤ p.level) (hts : ts = t :: us) (ht : Operand t)
    (h : ∀ c rest, c = true ∨ calls = false →
      standard.chain c (ts ++ rest) = standard.links c p rest) :
    Reads ts p level 20 calls := by
  have hu : ∀ rest, Ends rest → standard.unary (ts ++ rest) = some (p, rest) := by
    subst hts
    exact fun rest he => unary_of_chain ht he (h true rest (.inl rfl))
  have ho : ∀ least rest, Ends rest →
      standard.operation least (ts ++ rest) = standard.operators least p rest :=
    fun least rest he => operation_of_unary least (hu rest he)
  have ha : ∀ rest, Closes rest → standard.assignment (ts ++ rest) = some (p, rest) :=
    fun rest hc => assignment_of_operation hc (ho _ rest hc.ends)
  unfold primaryLevel at hl
  constructor
  case rank_ge => omega
  case bound_gt => omega
  case head => exact fun _ => ⟨t, us, hts, ht⟩
  case chain => exact fun _ => h
  case unary => exact fun _ => hu
  case operation => exact fun _ least _ rest he _ => ho least rest he
  case assignment => exact fun _ => ha
  case expression => exact fun rest hs => expression_of_assignment hs (ha rest hs.closes)

end Levels

theorem chain_primary {ts rest : List Token} {p : Phrase} (c : Bool)
    (hn : ∀ us, ts ≠ .word "new" :: us) (h : standard.primary ts = some (p, rest)) :
    standard.chain c ts = standard.links c p rest := by
  rw [Dialect.chain]
  · rw [h]
    rfl
  · exact hn

/-- Any expression in parentheses is a primary expression. -/
theorem reads_parentheses {ts : List Token} {p : Phrase}
    (h : ∀ rest, Shut rest → standard.expression (ts ++ rest) = some (p, rest)) :
    Reads (.mark "(" :: (ts ++ [.mark ")"])) ⟨p.tree, 18⟩ primaryLevel 20 false := by
  refine Reads.ofChain (Nat.le_refl _) (Nat.le_refl _) rfl ⟨rfl, rfl⟩ fun c rest _ => ?_
  refine chain_primary c (by simp) ?_
  simp only [List.cons_append, List.append_assoc, List.nil_append]
  rw [Dialect.primary, h (.mark ")" :: rest) (by simp [Shut])]
  rfl

def ReadsBack (e : Expression) : Prop :=
  Reads (lexemes e) (phrase e) (precedence e) (reach e) (containsCall e)

/-- In a place that needs a level the lexemes read at that level, in parentheses if need be. -/
theorem ReadsBack.grouped {e : Expression} (h : ReadsBack e) (least : Nat)
    (hl : least ≤ primaryLevel) : ∃ p level bound calls,
      Reads (groupedLexemes least e (lexemes e)) p level bound calls ∧ p.tree = e.unspelled ∧
        least ≤ level ∧ (containsCall e = false → calls = false) := by
  unfold groupedLexemes
  split
  · exact ⟨_, _, _, _, reads_parentheses h.expression, rfl, hl, fun _ => rfl⟩
  · next hp => exact ⟨_, _, _, _, h, rfl, Nat.le_of_not_lt hp, id⟩

/-- An assignment expression in a list, with what may stand behind it. -/
theorem ReadsBack.assignment_grouped {e : Expression} (h : ReadsBack e) (rest : List Token)
    (hc : Closes rest) : ∃ p : Phrase, p.tree = e.unspelled ∧
      standard.assignment (groupedLexemes assignLevel e (lexemes e) ++ rest) = some (p, rest) := by
  obtain ⟨p, level, bound, calls, hp, ht, hl, -⟩ := h.grouped assignLevel (by decide)
  exact ⟨p, ht, hp.assignment hl rest hc⟩

theorem assignment_closing {s : String} (hs : s ∈ [",", ")", "]"]) (ts : List Token) :
    standard.assignment (.mark s :: ts) = none := by
  have hu : standard.unary (.mark s :: ts) = none := by
    simp only [List.mem_cons, List.not_mem_nil, or_false] at hs
    rcases hs with rfl | rfl | rfl
    all_goals
      rw [Dialect.unary, show (Spelled.ofText? _ : Option UnaryOperator) = none from rfl]
      rw [Dialect.update, show (Spelled.ofText? _ : Option UpdateOperator) = none from rfl]
      rw [Dialect.chain, Dialect.primary] <;> simp
  rw [Dialect.assignment, Dialect.conditional, Dialect.operation, hu]
  rfl

/-- A list of assignment expressions reads as its items. -/
theorem assignments_list {es : List Expression} (h : ∀ e ∈ es, ReadsBack e) (hne : es ≠ [])
    {rest : List Token} (hs : Shut rest) :
    standard.assignments (listLexemes es ++ rest) = some (unspelledList es, rest) := by
  induction es with
  | nil => exact absurd rfl hne
  | cons e es ih =>
    have he := h e List.mem_cons_self
    cases es with
    | nil =>
      obtain ⟨p, hp, ha⟩ := he.assignment_grouped rest hs.closes
      simp only [listLexemes, List.isEmpty_nil, if_true, List.append_nil, unspelledList]
      rw [Dialect.assignments, ha]
      simp only [Option.bind_eq_bind, Option.bind_some, hp]
      split
      · exact absurd (hs _ rfl) (by decide)
      · rfl
    | cons e2 es =>
      have hi := ih (fun e he => h e (List.mem_cons_of_mem _ he)) (List.cons_ne_nil _ _)
      obtain ⟨p, hp, ha⟩ := he.assignment_grouped
        (.mark "," :: (listLexemes (e2 :: es) ++ rest)) (by simp [Closes])
      rw [listLexemes, unspelledList, List.append_assoc, List.append_assoc, Dialect.assignments]
      simp only [List.isEmpty_cons, Bool.false_eq_true, if_false, List.cons_append,
        List.nil_append, ha, Option.bind_eq_bind, Option.bind_some, hi, hp, Option.pure_def]

/-- The arguments of a call read as its items, also if there are none. -/
theorem arguments_list {es : List Expression} (h : ∀ e ∈ es, ReadsBack e) (rest : List Token) :
    standard.arguments (listLexemes es ++ .mark ")" :: rest) = some (unspelledList es, rest) := by
  induction es with
  | nil =>
    simp only [listLexemes, List.nil_append, unspelledList]
    rw [Dialect.arguments]
  | cons e es ih =>
    have hi := ih fun e he => h e (List.mem_cons_of_mem _ he)
    obtain ⟨p, hp, ha⟩ := (h e List.mem_cons_self).assignment_grouped
      ((if es.isEmpty then [] else [.mark ","]) ++ (listLexemes es ++ .mark ")" :: rest))
      (by cases es <;> simp [Closes, listLexemes])
    rw [listLexemes, unspelledList, List.append_assoc, List.append_assoc, Dialect.arguments]
    · rw [ha]
      cases es with
      | nil => simp [listLexemes, unspelledList, hp]
      | cons e2 es => simp [hi, hp]
    · intro us hus
      rw [hus, assignment_closing (by decide)] at ha
      cases ha

/-- The elements of an array read as its items, with the holes in their places. -/
theorem elements_list {es : List (Option Expression)} (h : ∀ e, some e ∈ es → ReadsBack e)
    (rest : List Token) :
    standard.elements (elementLexemes es ++ .mark "]" :: rest) =
      some (unspelledElements es, rest) := by
  induction es with
  | nil =>
    simp only [elementLexemes, List.nil_append, unspelledElements]
    rw [Dialect.elements]
  | cons e es ih =>
    have hi := ih fun e he => h e (List.mem_cons_of_mem _ he)
    cases e with
    | none =>
      simp only [elementLexemes, optionLexemes, Option.isSome_none, Bool.false_eq_true, and_false,
        if_false, List.nil_append, List.cons_append]
      rw [Dialect.elements, hi]
      rfl
    | some e =>
      obtain ⟨p, hp, ha⟩ := (h e List.mem_cons_self).assignment_grouped
        ((if es.isEmpty ∧ (some e).isSome then [] else [.mark ","])
          ++ (elementLexemes es ++ .mark "]" :: rest))
        (by cases es <;> simp [Closes, elementLexemes])
      rw [elementLexemes, optionLexemes, unspelledElements, List.append_assoc, List.append_assoc,
        Dialect.elements]
      · rw [ha]
        cases es with
        | nil => simp [elementLexemes, unspelledElements, unspelledOption, hp]
        | cons e2 es => simp [hi, hp, unspelledOption]
      · intro us hus
        rw [hus, assignment_closing (by decide)] at ha
        cases ha
      · intro us hus
        rw [hus, assignment_closing (by decide)] at ha
        cases ha

/-- The token is an infix operator with the rule, and a left operand of the level `low` is one for
the rule. It does not take the operator for its own, and the right operand takes no operator of
the rule's level unless the rule is that of `**`. -/
structure Fits (t : Token) (rule : Infix) (low : Nat) : Prop where
  rule_eq : infix? t = some rule
  ends : ∀ ts, Ends (t :: ts)
  left : ∀ n, low ≤ n → rule.left n
  levels : testLevel ≤ rule.level ∧ rule.level ≤ low ∧ low ≤ memberLevel ∧
    rule.level ≤ rule.right ∧ rule.right < unaryLevel ∧
    (rule.level = 14 → unaryLevel ≤ low) ∧ (rule.right = rule.level → rule.level = 14)

theorem fits_binary (op : BinaryOperator) :
    Fits (operatorToken op.isKeyword op.text) (binaryInfix op) (binaryLevels op).1 where
  rule_eq := by cases op <;> rfl
  ends := by
    rintro ts t ⟨⟩
    cases op <;> decide
  left n h := by cases op <;> exact decide_eq_true h
  levels := by cases op <;> decide

theorem fits_logical (op : LogicalOperator) :
    Fits (.mark op.text) (logicalInfix op) (logicalLevels op).1 where
  rule_eq := by cases op <;> rfl
  ends := by
    rintro ts t ⟨⟩
    cases op <;> decide
  left n h := by
    cases op with
    | coalesce => exact decide_eq_true (Or.inr h)
    | or | and => exact decide_eq_true h
  levels := by cases op <;> decide

/-- An infix expression reads back if its operands do, each in the parentheses that its level asks
for. -/
theorem reads_infix {l r : Expression} {t : Token} {rule : Infix} {low : Nat} (calls : Bool)
    (hl : ReadsBack l) (hr : ReadsBack r) (hf : Fits t rule low) :
    Reads (groupedLexemes low l (lexemes l) ++ t :: groupedLexemes rule.right r (lexemes r))
      ⟨rule.build l.unspelled r.unspelled, rule.level⟩ rule.level rule.right calls := by
  have hpl : memberLevel ≤ primaryLevel := by decide
  have hup : unaryLevel ≤ primaryLevel := by decide
  obtain ⟨htest, hlow, hlt, hright, hrt, hpow, hpow'⟩ := hf.levels
  obtain ⟨p, m, bl, cl, hp, hpt, hm, -⟩ := hl.grouped low (Nat.le_trans hlt hpl)
  obtain ⟨q, n, br, cr, hq, hqt, hn, -⟩ :=
    hr.grouped rule.right (Nat.le_trans (Nat.le_of_lt hrt) hup)
  refine Reads.ofOperation (Nat.lt_of_le_of_lt hright hrt) htest (Nat.le_refl _) ?_ ?_
  · intro k hk h14
    unfold unaryLevel at *
    omega
  · intro least hleast rest hends hbelow
    have htm : testLevel ≤ m := by omega
    have htn : testLevel ≤ n := by omega
    -- The left operand ends in front of the operator.
    have hbl : Below bl (t :: (groupedLexemes rule.right r (lexemes r) ++ rest)) := by
      intro t' ht' rule' hr'
      cases ht'
      cases hf.rule_eq.symm.trans hr'
      exact hp.bound_gt _ (by omega) fun h => Nat.le_trans (hpow h) hm
    -- What follows does not go on with the right operand.
    have hbr : Below br rest := by
      intro t' ht' rule' hr'
      have hb := hbelow t' ht' rule' hr'
      exact hq.bound_gt _ (by omega) fun h => show 15 ≤ n by omega
    rw [List.append_assoc, List.cons_append,
      hp.operation htm least (by omega) _ (hf.ends _) hbl, Dialect.operators]
    have hpl := hf.left p.level (by have := hp.rank_ge; omega)
    simp only [hf.rule_eq, hleast, hpl, and_self, if_true]
    rw [hq.operation htn _ hn rest hends hbr, operators_below hbelow]
    simp only [Option.bind_eq_bind, Option.bind_some, hpt, hqt]

theorem readsBack_binary (op : BinaryOperator) {l r : Expression} (hl : ReadsBack l)
    (hr : ReadsBack r) : ReadsBack (.binary op l r) := by
  have h := reads_infix false hl hr (fits_binary op)
  cases op <;> exact h

theorem readsBack_logical (op : LogicalOperator) {l r : Expression} (hl : ReadsBack l)
    (hr : ReadsBack r) : ReadsBack (.logical op l r) := by
  have h := reads_infix false hl hr (fits_logical op)
  cases op <;> exact h

theorem readsBack_unary (op : UnaryOperator) {e : Expression} (h : ReadsBack e) :
    ReadsBack (.unary op true e) := by
  obtain ⟨p, level, bound, calls, hp, ht, hl, -⟩ := h.grouped unaryLevel (by decide)
  refine Reads.ofUnary (show unaryLevel < callLevel by decide) (Nat.le_refl _) fun rest he => ?_
  have ho : Spelled.ofText? (operatorToken op.isKeyword op.text).spelling = some op := by
    cases op <;> rfl
  rw [lexemes, List.cons_append, Dialect.unary, ho]
  simp only [hp.unary hl rest he, Option.bind_eq_bind, Option.bind_some, ht]
  rfl

/-- A step reads back in front of its target and behind it. -/
theorem readsBack_update (op : UpdateOperator) (leading : Bool) {e : Expression}
    (htarget : isTarget e) (h : ReadsBack e) : ReadsBack (.update op leading e) := by
  have ho : Spelled.ofText? op.text = some op := by cases op <;> rfl
  have hg : isTarget e.unspelled = true := (isTarget_unspelled e).trans htarget
  cases leading with
  | true =>
    obtain ⟨p, level, bound, calls, hp, ht, hl, -⟩ := h.grouped unaryLevel (by decide)
    refine Reads.ofUnary (show unaryLevel < callLevel by decide) (show unaryLevel ≤ 16 by decide)
      fun rest he => ?_
    have hu : (Spelled.ofText? op.text : Option UnaryOperator) = none := by cases op <;> rfl
    simp only [lexemes, if_true, List.cons_append]
    rw [Dialect.unary, Token.spelling, hu, Dialect.update, Token.spelling, ho]
    simp only [hp.unary hl rest he, Option.bind_eq_bind, Option.bind_some, ht, hg, guard, if_true,
      Option.pure_def]
    rfl
  | false =>
    obtain ⟨p, level, bound, calls, hp, ht, hl, -⟩ := h.grouped callLevel (by decide)
    refine Reads.ofUnary (show postfixLevel < callLevel by decide)
      (show postfixLevel ≤ 16 by decide)
      fun rest _ => ?_
    obtain ⟨t, us, hts, hu, hs⟩ := hp.head hl
    have hr : Unlinked (.mark op.text :: rest) := by
      rintro t ⟨⟩
      cases op <;> decide
    have hc := hp.chain hl true (.mark op.text :: rest) (.inl rfl)
    rw [links_unlinked hr, hts, List.cons_append] at hc
    simp only [lexemes, Bool.false_eq_true, if_false, List.append_assoc, List.cons_append,
      List.nil_append]
    rw [hts, List.cons_append, Dialect.unary, hu, Dialect.update, hs]
    simp only [hc, ho, Option.bind_eq_bind, Option.bind_some, ht, hg, guard, if_true,
      Option.pure_def]
    rfl

/-- An assignment reads back, since its target is in no need of parentheses. -/
theorem readsBack_assignment (op : AssignmentOperator) {target value : Expression}
    (htarget : isTarget target) (hl : ReadsBack target) (hr : ReadsBack value) :
    ReadsBack (.assignment op target value) := by
  have ho : Spelled.ofText? op.text = some op := by cases op <;> rfl
  have hg : isTarget target.unspelled = true := (isTarget_unspelled target).trans htarget
  obtain ⟨p, level, bound, calls, hp, ht, hl, -⟩ := hl.grouped callLevel (by decide)
  refine Reads.ofAssignment (show assignLevel < testLevel by decide) (Nat.le_refl _)
    fun rest hc => ?_
  obtain ⟨q, hqt, hq⟩ := hr.assignment_grouped rest hc
  have hends : ∀ ts, Ends (.mark op.text :: ts) := by
    rintro ts t ⟨⟩
    cases op <;> decide
  have hi : ∀ bound ts, Below bound (.mark op.text :: ts) := by
    rintro bound ts t ⟨⟩ rule hr
    cases op <;> cases hr
  have hm : .mark op.text ≠ Token.mark "?" := by cases op <;> decide
  have hlow : testLevel ≤ level := Nat.le_trans (by decide) hl
  have hcond := fun ts => conditional_of_operation (hi _ ts) (fun us h => hm (List.cons.inj h).1)
    (hp.operation hlow _ hlow _ (hends ts) (hi _ ts))
  rw [lexemes, List.append_assoc, List.cons_append, Dialect.assignment, hcond]
  simp only [ho, Option.bind_eq_bind, Option.bind_some, ht, hg, guard, if_true, Option.pure_def, hq,
    hqt]
  rfl

theorem readsBack_conditional {test consequent alternate : Expression} (ht : ReadsBack test)
    (hc : ReadsBack consequent) (ha : ReadsBack alternate) :
    ReadsBack (.conditional test consequent alternate) := by
  obtain ⟨p, level, bound, calls, hp, hpt, hl, -⟩ := ht.grouped testLevel (by decide)
  refine Reads.ofAssignment (show assignLevel < testLevel by decide) (Nat.le_refl _)
    fun rest hrest => ?_
  obtain ⟨r, hrt, hr⟩ := ha.assignment_grouped rest hrest
  obtain ⟨q, hqt, hq⟩ := hc.assignment_grouped
    (.mark ":" :: (groupedLexemes assignLevel alternate (lexemes alternate) ++ rest))
    (by simp [Closes])
  have hi : ∀ bound ts, Below bound (.mark "?" :: ts) := by
    rintro bound ts t ⟨⟩ rule ⟨⟩
  have hop := fun ts => hp.operation hl 3 hl (.mark "?" :: ts) (by simp [Ends]) (hi _ ts)
  refine assignment_of_conditional hrest ?_
  simp only [lexemes, List.append_assoc, List.cons_append]
  rw [Dialect.conditional, hop, operators_below (hi _ _)]
  simp only [Option.bind_eq_bind, Option.bind_some, behind?_mark, hpt, hq, hqt, hr, hrt]
  rfl

/-- A single token reads back if it is a primary expression. -/
theorem readsBack_primary {e : Expression} {t : Token} {us : List Token}
    (hl : lexemes e = t :: us) (ht : Operand t) (hn : t ≠ .word "new") (hr : rank e = 18)
    (hp : precedence e ≤ primaryLevel) (hb : reach e = 20)
    (h : ∀ rest, standard.primary (t :: (us ++ rest)) = some (⟨e.unspelled, 18⟩, rest)) :
    ReadsBack e := by
  rw [ReadsBack, hb]
  refine Reads.ofChain hp (Nat.le_of_eq hr.symm) hl ht fun c rest _ => ?_
  rw [hl, List.cons_append, phrase, hr]
  exact chain_primary c (fun us h => hn (List.cons.inj h).1) (h rest)

theorem readsBack_call {callee : Expression} {es : List Expression} (optional : Bool)
    (hc : ReadsBack callee) (h : ∀ e ∈ es, ReadsBack e) : ReadsBack (.call callee es optional) := by
  obtain ⟨p, level, bound, calls, hp, ht, hl, -⟩ := hc.grouped callLevel (by decide)
  obtain ⟨t, us, hts, hop⟩ := hp.head hl
  refine Reads.ofChain (show callLevel ≤ primaryLevel by decide) (Nat.le_refl _)
    (by rw [lexemes, hts]; rfl) hop fun c rest hcalls => ?_
  obtain rfl : c = true := hcalls.resolve_right (by simp [containsCall])
  rw [lexemes, List.append_assoc, hp.chain hl true _ (.inl rfl)]
  cases optional with
  | true =>
    simp only [if_true, List.cons_append, List.nil_append, List.append_assoc]
    rw [Dialect.links]
    simp only [if_true, arguments_list h, Option.bind_eq_bind, Option.bind_some, ht]
    rfl
  | false =>
    simp only [Bool.false_eq_true, if_false, List.cons_append, List.nil_append, List.append_assoc]
    rw [Dialect.links]
    simp only [if_true, arguments_list h, Option.bind_eq_bind, Option.bind_some, ht]
    rfl

/-- A construction reads back: a callee with a call in it is in parentheses. -/
theorem readsBack_new {callee : Expression} {es : List Expression} (hc : ReadsBack callee)
    (h : ∀ e ∈ es, ReadsBack e) : ReadsBack (.new callee es) := by
  refine Reads.ofChain (show callLevel ≤ primaryLevel by decide) (Nat.le_refl _) rfl ⟨rfl, rfl⟩
    fun c rest _ => ?_
  have hs : ∀ (p : Phrase) ts,
      standard.links false p (.mark "(" :: ts) = some (p, .mark "(" :: ts) := by
    intro p ts
    rw [Dialect.links]
    rfl
  -- Where the callee has calls it stands in parentheses, so its arguments are not taken for these.
  have hcallee : ∃ p : Phrase, p.tree = callee.unspelled ∧ ∀ ts, standard.chain false
      ((if containsCall callee then .mark "(" :: (lexemes callee ++ [.mark ")"])
        else groupedLexemes memberLevel callee (lexemes callee)) ++ .mark "(" :: ts)
      = some (p, .mark "(" :: ts) := by
    split
    · refine ⟨⟨callee.unspelled, 18⟩, rfl, fun ts => ?_⟩
      exact ((reads_parentheses hc.expression).chain (by decide) false _ (.inr rfl)).trans (hs _ _)
    · next hcall =>
      obtain ⟨p, level, bound, calls, hp, ht, hl, hcalls⟩ :=
        hc.grouped memberLevel (by decide)
      have hfalse := hcalls (Bool.eq_false_iff.2 hcall)
      refine ⟨p, ht, fun ts => ?_⟩
      rw [hp.chain (Nat.le_trans (by decide) hl) false _ (.inr hfalse), hs]
  obtain ⟨p, ht, hp⟩ := hcallee
  rw [lexemes, List.cons_append, List.append_assoc, List.cons_append, Dialect.chain, hp]
  simp only [List.append_assoc, List.cons_append, List.nil_append, Option.bind_eq_bind,
    Option.bind_some, arguments_list h, ht]
  rfl

theorem readsBack_dot {object : Expression} (name : String) (h : ReadsBack object) :
    ReadsBack (.member object (.identifier name) false false) := by
  obtain ⟨p, level, bound, calls, hp, ht, hl, hcalls⟩ := h.grouped callLevel (by decide)
  obtain ⟨t, us, hts, hop⟩ := hp.head hl
  refine Reads.ofChain (show memberLevel ≤ primaryLevel by decide) (Nat.le_refl _)
    (by rw [lexemes, hts]; rfl) hop fun c rest hc => ?_
  rw [lexemes, List.append_assoc, hp.chain hl c _ (hc.imp_right hcalls)]
  simp only [Bool.false_eq_true, if_false, lexemes, List.cons_append, List.nil_append]
  rw [Dialect.links, ht]
  rfl

theorem readsBack_index {object property : Expression} (ho : ReadsBack object)
    (hprop : ReadsBack property) : ReadsBack (.member object property true false) := by
  obtain ⟨p, level, bound, calls, hp, ht, hl, hcalls⟩ := ho.grouped callLevel (by decide)
  obtain ⟨t, us, hts, hop⟩ := hp.head hl
  refine Reads.ofChain (show memberLevel ≤ primaryLevel by decide) (Nat.le_refl _)
    (by rw [lexemes, hts]; rfl) hop fun c rest hc => ?_
  rw [lexemes, List.append_assoc, hp.chain hl c _ (hc.imp_right hcalls)]
  simp only [if_true, List.cons_append, List.append_assoc, List.nil_append]
  rw [Dialect.links, hprop.expression (.mark "]" :: rest) (by simp [Shut]), ht]
  rfl

/-- A list of expressions reads back from two items on. -/
theorem readsBack_sequence {es : List Expression} (h2 : 2 ≤ es.length)
    (h : ∀ e ∈ es, ReadsBack e) : ReadsBack (.sequence es) := by
  refine Reads.ofExpression (show sequenceLevel < assignLevel by decide) (Nat.le_refl _)
    fun rest hs => ?_
  match es, h2 with
  | e :: e2 :: es, _ =>
    have hi := assignments_list (fun e he => h e (List.mem_cons_of_mem _ he))
      (List.cons_ne_nil e2 es) hs
    obtain ⟨p, hp, ha⟩ := (h e List.mem_cons_self).assignment_grouped
      (.mark "," :: (listLexemes (e2 :: es) ++ rest)) (by simp [Closes])
    rw [lexemes, listLexemes, List.append_assoc, List.append_assoc, Dialect.expression]
    simp only [List.isEmpty_cons, Bool.false_eq_true, if_false, List.cons_append,
      List.nil_append, ha, Option.bind_eq_bind, Option.bind_some, hi, hp]
    rfl

/-- The lexemes of a readable expression read as that expression. -/
theorem Readable.readsBack {e : Expression} (h : Readable e) : ReadsBack e := by
  induction h with
  | @identifier name hn hr =>
    have hnew : (Token.word name) ≠ .word "new" := by
      intro h
      cases h
      exact hr (by decide)
    have hthis : name ≠ "this" := by
      rintro rfl
      exact hr (by decide)
    refine readsBack_primary rfl (operand_name hn hr) hnew rfl (Nat.le_refl _) rfl fun rest => ?_
    rw [Dialect.primary]
    · rw [if_neg (by simpa [standard] using hr)]
      rfl
    · exact fun h => hthis h
  | this =>
    refine readsBack_primary rfl ⟨rfl, rfl⟩ (by simp) rfl (Nat.le_refl _) rfl fun rest => ?_
    rw [Dialect.primary]
    rfl
  | string s raw =>
    refine readsBack_primary rfl ⟨rfl, rfl⟩ (by simp) rfl (Nat.le_refl _) rfl fun rest => ?_
    rw [Dialect.primary]
    rfl
  | array h ih =>
    refine readsBack_primary rfl ⟨rfl, rfl⟩ (by simp) rfl (Nat.le_refl _) rfl fun rest => ?_
    rw [List.append_assoc, Dialect.primary]
    simp only [List.cons_append, List.nil_append, elements_list ih, Option.bind_eq_bind,
      Option.bind_some]
    rfl
  | unary op _ ih => exact readsBack_unary op ih
  | update op leading ht _ ih => exact readsBack_update op leading ht ih
  | binary op _ _ ihl ihr => exact readsBack_binary op ihl ihr
  | logical op _ _ ihl ihr => exact readsBack_logical op ihl ihr
  | assignment op ht _ _ ihl ihr => exact readsBack_assignment op ht ihl ihr
  | conditional _ _ _ iht ihc iha => exact readsBack_conditional iht ihc iha
  | call optional _ _ ihc ih => exact readsBack_call optional ihc ih
  | new _ _ ihc ih => exact readsBack_new ihc ih
  | dot _ _ ih => exact readsBack_dot _ ih
  | index _ _ iho ihp => exact readsBack_index iho ihp
  | sequence h2 _ ih => exact readsBack_sequence h2 ih

/-- The text of an expression, printed where any expression may stand, is one expression of the
grammar from its first character to its last, and it is the expression that was printed. -/
theorem read_expressionText (layout : Layout) {e : Expression} (h : Readable e) (depth : Nat) :
    ∃ text, expressionText layout e depth = .ok text ∧
      Grammar.read (grouped sequenceLevel e text) = some e.unspelled := by
  obtain ⟨text, hok, -, hs⟩ := (h.lexed : Lexed layout e) depth
  have hlex := hs [] Grammar.loose_nil
  have hread := h.readsBack.expression [] (by simp [Shut])
  refine ⟨text, hok, ?_⟩
  simp only [List.append_nil, Grammar.lex_nil, Option.map_some] at hlex hread
  simp only [grouped_sequenceLevel, Grammar.read, hlex, hread, Option.bind_eq_bind,
    Option.bind_some]
  rfl

/-- An expression that needs parentheses and blanks in several places. -/
def tangled : Expression :=
  .sequence [
    .binary .power (.unary .minus true (.unary .minus true (.identifier "x"))) (.identifier "y"),
    .logical .or (.logical .coalesce (.identifier "x") .this)
      (.literal ⟨.string "\n", none, none, none⟩),
    .new (.member (.call (.identifier "x") [] false) (.identifier "y") false false)
      [.array [none, some (.identifier "x"), none]],
    .assignment .plain (.identifier "x")
      (.binary .add (.identifier "y") (.update .increment true (.identifier "x")))]

/-- An expression whose text has parentheses and blanks in several places reads back. -/
theorem read_tangled : Readable tangled ∧
    expressionText {} tangled 0 = .ok
      "(- -x) ** y, (x ?? this) || \"\\n\", new (x().y)([, x, ,]), x = y + ++x" ∧
    Grammar.read "(- -x) ** y, (x ?? this) || \"\\n\", new (x().y)([, x, ,]), x = y + ++x"
      = some tangled := by
  have hx : Readable (.identifier "x") := .identifier (by decide +kernel) (by decide)
  have hy : Readable (.identifier "y") := .identifier (by decide +kernel) (by decide)
  have hr : Readable tangled := by
    refine .sequence (by decide) ?_
    simp only [List.forall_mem_cons, List.not_mem_nil, false_implies, implies_true, and_true]
    refine ⟨?_, ?_, ?_, ?_⟩
    · exact .binary _ (.unary _ (.unary _ hx)) hy
    · exact .logical _ (.logical _ hx .this) (.string _ _)
    · refine .new (.dot (.call _ hx nofun) (by decide +kernel)) ?_
      simpa using Readable.array (by simpa using hx)
    · exact .assignment _ rfl hx (.binary _ hy (.update _ _ rfl hx))
  have ht : expressionText {} tangled 0 = .ok
      "(- -x) ** y, (x ?? this) || \"\\n\", new (x().y)([, x, ,]), x = y + ++x" := by
    cbv
  obtain ⟨text, hok, hread⟩ := read_expressionText {} hr 0
  cases ht.symm.trans hok
  exact ⟨hr, ht, hread⟩

end Printer
end Untangle
