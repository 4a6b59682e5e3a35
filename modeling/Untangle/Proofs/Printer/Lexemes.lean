import Untangle.Printer.Source
import Untangle.Proofs.Grammar.Expression

/-!
# The lexemes of printed expressions

Which expressions can be read again is `Readable`. Their text falls into the
lexemes that the tree asks for: blanks and parentheses keep apart what the
longest match would join.
-/
namespace Untangle.Printer

open Grammar (Token Loose lex mark? marks isTarget)

/-- Expressions of names, `this`, strings, arrays and operators. What is assigned to or stepped is a
name or a member, and a list of expressions has at least two. -/
inductive Readable : Expression → Prop where
  | identifier {name : String} (hn : Text.isIdentifierName name)
      (hr : name ∉ Grammar.reservedWords) : Readable (.identifier name)
  | this : Readable .this
  | string (s : String) (raw : Option String) : Readable (.literal ⟨.string s, raw, none, none⟩)
  | array {elements : List (Option Expression)} (h : ∀ e, some e ∈ elements → Readable e) :
      Readable (.array elements)
  | unary (op : UnaryOperator) {argument : Expression} (h : Readable argument) :
      Readable (.unary op true argument)
  | update (op : UpdateOperator) (leading : Bool) {argument : Expression}
      (ht : isTarget argument) (h : Readable argument) : Readable (.update op leading argument)
  | binary (op : BinaryOperator) {left right : Expression} (hl : Readable left)
      (hr : Readable right) : Readable (.binary op left right)
  | logical (op : LogicalOperator) {left right : Expression} (hl : Readable left)
      (hr : Readable right) : Readable (.logical op left right)
  | assignment (op : AssignmentOperator) {target value : Expression} (ht : isTarget target)
      (hl : Readable target) (hr : Readable value) : Readable (.assignment op target value)
  | conditional {test consequent alternate : Expression} (ht : Readable test)
      (hc : Readable consequent) (ha : Readable alternate) :
      Readable (.conditional test consequent alternate)
  | call {callee : Expression} {arguments : List Expression} (optional : Bool)
      (hc : Readable callee) (h : ∀ e ∈ arguments, Readable e) :
      Readable (.call callee arguments optional)
  | new {callee : Expression} {arguments : List Expression} (hc : Readable callee)
      (h : ∀ e ∈ arguments, Readable e) : Readable (.new callee arguments)
  | dot {object : Expression} {name : String} (ho : Readable object)
      (hn : Text.isIdentifierName name) : Readable (.member object (.identifier name) false false)
  | index {object property : Expression} (ho : Readable object) (hp : Readable property) :
      Readable (.member object property true false)
  | sequence {expressions : List Expression} (h2 : 2 ≤ expressions.length)
      (h : ∀ e ∈ expressions, Readable e) : Readable (.sequence expressions)

def operatorToken (keyword : Bool) (text : String) : Token :=
  if keyword then .word text else .mark text

/-- Lexemes in parentheses, where the place needs a higher level than the expression has. -/
def groupedLexemes (least : Nat) (e : Expression) (ts : List Token) : List Token :=
  if precedence e < least then .mark "(" :: (ts ++ [.mark ")"]) else ts

mutual
def lexemes : Expression → List Token
  | .identifier name => [.word name]
  | .this => [.word "this"]
  | .literal ⟨.string s, _, _, _⟩ => [.text s]
  | .array elements => .mark "[" :: (elementLexemes elements ++ [.mark "]"])
  | .unary op _ argument =>
    operatorToken op.isKeyword op.text :: groupedLexemes unaryLevel argument (lexemes argument)
  | .update op leading argument =>
    if leading then .mark op.text :: groupedLexemes unaryLevel argument (lexemes argument)
    else groupedLexemes callLevel argument (lexemes argument) ++ [.mark op.text]
  | .binary op left right =>
    groupedLexemes (binaryLevels op).1 left (lexemes left)
      ++ operatorToken op.isKeyword op.text
        :: groupedLexemes (binaryLevels op).2 right (lexemes right)
  | .logical op left right =>
    groupedLexemes (logicalLevels op).1 left (lexemes left)
      ++ .mark op.text :: groupedLexemes (logicalLevels op).2 right (lexemes right)
  | .assignment op target value =>
    groupedLexemes callLevel target (lexemes target)
      ++ .mark op.text :: groupedLexemes assignLevel value (lexemes value)
  | .conditional test consequent alternate =>
    groupedLexemes testLevel test (lexemes test)
      ++ .mark "?" :: (groupedLexemes assignLevel consequent (lexemes consequent)
      ++ .mark ":" :: groupedLexemes assignLevel alternate (lexemes alternate))
  | .call callee arguments optional =>
    groupedLexemes callLevel callee (lexemes callee)
      ++ ((if optional then [.mark "?.", .mark "("] else [.mark "("])
      ++ (listLexemes arguments ++ [.mark ")"]))
  | .new callee arguments =>
    .word "new"
      :: ((if containsCall callee then .mark "(" :: (lexemes callee ++ [.mark ")"])
          else groupedLexemes memberLevel callee (lexemes callee))
        ++ .mark "(" :: (listLexemes arguments ++ [.mark ")"]))
  | .member object property computed _ =>
    groupedLexemes callLevel object (lexemes object)
      ++ if computed then .mark "[" :: (lexemes property ++ [.mark "]"])
        else .mark "." :: lexemes property
  | .sequence expressions => listLexemes expressions
  | _ => []
termination_by structural e => e

def listLexemes : List Expression → List Token
  | [] => []
  | e :: rest =>
    groupedLexemes assignLevel e (lexemes e)
      ++ ((if rest.isEmpty then [] else [.mark ","]) ++ listLexemes rest)
termination_by structural l => l

def optionLexemes : Option Expression → List Token
  | none => []
  | some e => groupedLexemes assignLevel e (lexemes e)
termination_by structural e => e

/-- A hole at the end has a comma of its own. -/
def elementLexemes : List (Option Expression) → List Token
  | [] => []
  | e :: rest =>
    optionLexemes e
      ++ ((if rest.isEmpty ∧ e.isSome then [] else [.mark ","]) ++ elementLexemes rest)
termination_by structural l => l
end

/-- The text has these lexemes wherever no word follows. -/
def Spells (text : String) (ts : List Token) : Prop :=
  ∀ rest, Loose rest → lex (text.toList ++ rest) = (lex rest).map (ts ++ ·)

/-- The text has these lexemes whatever follows. -/
def Closed (text : String) (ts : List Token) : Prop :=
  ∀ rest, lex (text.toList ++ rest) = (lex rest).map (ts ++ ·)

/-- The text cannot go on with a word in front of it. -/
def Apart (text : String) : Prop := ∀ rest, Loose (text.toList ++ rest)

theorem Closed.spells {text : String} {ts : List Token} (h : Closed text ts) : Spells text ts :=
  fun rest _ => h rest

theorem closed_empty : Closed "" [] := by
  intro rest
  simp

theorem Closed.append {a b : String} {ts us : List Token} (ha : Closed a ts) (hb : Closed b us) :
    Closed (a ++ b) (ts ++ us) := by
  intro rest
  rw [String.toList_append, List.append_assoc, ha, hb, Option.map_map]
  congr 1
  funext l
  simp

/-- Behind a closed text another text keeps its lexemes. -/
theorem Closed.append_spells {a b : String} {ts us : List Token} (ha : Closed a ts)
    (hb : Spells b us) : Spells (a ++ b) (ts ++ us) := by
  intro rest hr
  rw [String.toList_append, List.append_assoc, ha, hb rest hr, Option.map_map]
  congr 1
  funext l
  simp

/-- A text that ends in a word keeps its lexemes in front of a text that is no part of a word. -/
theorem Spells.append_closed {a b : String} {ts us : List Token} (ha : Spells a ts)
    (hb : Closed b us) (hs : Apart b) : Closed (a ++ b) (ts ++ us) := by
  intro rest
  rw [String.toList_append, List.append_assoc, ha _ (hs rest), hb, Option.map_map]
  congr 1
  funext l
  simp

/-- A first character that is no part of a name keeps two texts apart. -/
theorem apart_of_cons {text : String} {c : Char} {cs : List Char} (ht : text.toList = c :: cs)
    (hc : Text.isNamePart c = false) : Apart text := by
  intro rest
  simp [ht, hc]

theorem Apart.append {a : String} (ha : Apart a) (b : String) : Apart (a ++ b) := by
  intro rest
  rw [String.toList_append, List.append_assoc]
  exact ha _

theorem apart_blank (b : String) : Apart (" " ++ b) :=
  (apart_of_cons rfl (Grammar.isNamePart_of_isSign (by decide))).append b

theorem apart_mark {m : String} (hm : m ∈ marks) : Apart m := by
  obtain ⟨c, cs, he, hs, _⟩ := Grammar.mark_head m hm
  exact apart_of_cons he (Grammar.isNamePart_of_isSign hs)

/-- Marks of the printer that are the start of no other. -/
def finalMarks : List String := ["(", ")", "[", "]", ",", "?.", "++", "--"]

/-- A mark that starts no other one is a lexeme whatever follows. -/
theorem closed_mark {m : String} (hm : m ∈ finalMarks) : Closed m [.mark m] := by
  have hfinal : ∀ m ∈ finalMarks, m ∈ marks ∧ Grammar.followers m = [] := by decide +kernel
  obtain ⟨hmark, hf⟩ := hfinal m hm
  exact fun _ => Grammar.lex_mark hmark (by simp [hf])

theorem closed_open : Closed "(" [.mark "("] := closed_mark (by decide)

theorem closed_close : Closed ")" [.mark ")"] := closed_mark (by decide)

theorem closed_openBracket : Closed "[" [.mark "["] := closed_mark (by decide)

theorem closed_closeBracket : Closed "]" [.mark "]"] := closed_mark (by decide)

theorem closed_comma : Closed "," [.mark ","] := closed_mark (by decide)

theorem closed_chaining : Closed "?." [.mark "?."] := closed_mark (by decide)

theorem closed_step (op : UpdateOperator) : Closed op.text [.mark op.text] := by
  cases op <;> exact closed_mark (by decide)

theorem closed_blank : Closed " " [] := by
  intro rest
  rw [show " ".toList = [' '] from rfl, List.cons_append, Grammar.lex_blank]
  simp

/-- A name is one lexeme where no part of a name follows. -/
theorem spells_word {w : String} (hw : Text.isIdentifierName w) : Spells w [.word w] :=
  fun _ hr => Grammar.lex_word hw hr

theorem closed_word {w : String} (hw : Text.isIdentifierName w) : Closed (w ++ " ") [.word w] :=
  (spells_word hw).append_closed closed_blank (apart_blank "")

/-- A blank ends every mark. -/
theorem closed_mark_blank {m : String} (hm : m ∈ marks) : Closed (m ++ " ") [.mark m] := by
  intro rest
  rw [String.toList_append, List.append_assoc, Grammar.lex_mark hm, closed_blank]
  · simp
  · intro c hc
    obtain rfl : ' ' = c := by simpa using hc
    exact Grammar.blank_notMem_followers m

theorem closed_separator : Closed ", " [.mark ","] := closed_comma.append closed_blank

theorem apart_separator : Apart ", " := (apart_mark (m := ",") (by decide)).append " "

/-- An operator with a blank on either side. -/
theorem closed_operator (keyword : Bool) {m : String}
    (h : if keyword then Text.isIdentifierName m = true else m ∈ marks) :
    Closed (" " ++ m ++ " ") [operatorToken keyword m] := by
  rw [String.append_assoc]
  cases keyword with
  | false => exact closed_blank.append (closed_mark_blank h)
  | true => exact closed_blank.append (closed_word h)

/-- A binary operator is a word or a mark of the grammar. -/
theorem binary_operator (op : BinaryOperator) :
    if op.isKeyword then Text.isIdentifierName op.text = true else op.text ∈ marks := by
  cases op <;> decide +kernel

theorem logical_operator (op : LogicalOperator) : op.text ∈ marks := by cases op <;> decide

theorem assignment_operator (op : AssignmentOperator) : op.text ∈ marks := by cases op <;> decide

theorem unary_operator (op : UnaryOperator) :
    if op.isKeyword then Text.isIdentifierName op.text = true else op.text ∈ marks := by
  cases op <;> decide +kernel

/-- The operands of infix operators with the operator between them. -/
theorem Spells.operator {a b m : String} {ts us : List Token} (ha : Spells a ts) (keyword : Bool)
    (h : if keyword then Text.isIdentifierName m = true else m ∈ marks) (hb : Spells b us) :
    Spells (a ++ " " ++ m ++ " " ++ b) (ts ++ operatorToken keyword m :: us) := by
  have hs : Apart (" " ++ m ++ " ") := by rw [String.append_assoc]; exact apart_blank _
  have hm := ha.append_closed (closed_operator keyword h) hs
  simpa [String.append_assoc] using hm.append_spells hb

theorem Spells.parentheses {a : String} {ts : List Token} (ha : Spells a ts) :
    Closed ("(" ++ a ++ ")") (.mark "(" :: (ts ++ [.mark ")"])) := by
  rw [String.append_assoc]
  exact closed_open.append (ha.append_closed closed_close (apart_mark (by decide)))

/-- An expression in its place has its lexemes, in parentheses where it needs them. -/
theorem Spells.grouped {a : String} {ts : List Token} (ha : Spells a ts) (least : Nat)
    (e : Expression) : Spells (grouped least e a) (groupedLexemes least e ts) := by
  unfold Printer.grouped groupedLexemes
  split
  · exact ha.parentheses.spells
  · exact ha

/-- The text is not empty and its first character has a property. -/
def Starts (text : String) (p : Char → Prop) : Prop := ∃ c cs, text.toList = c :: cs ∧ p c

theorem Starts.append {a : String} {p : Char → Prop} (h : Starts a p) (b : String) :
    Starts (a ++ b) p := by
  obtain ⟨c, cs, he, hc⟩ := h
  exact ⟨c, cs ++ b.toList, by simp [he], hc⟩

theorem Starts.mono {a : String} {p q : Char → Prop} (h : Starts a p) (hpq : ∀ c, p c → q c) :
    Starts a q := by
  obtain ⟨c, cs, he, hc⟩ := h
  exact ⟨c, cs, he, hpq c hc⟩

/-- What the first character of a text tells about its expression: a sign is that of a unary or a
stepping operator, or stands in an operand of something looser. -/
structure Leads (e : Expression) (c : Char) : Prop where
  equals : c ≠ '='
  minus : c = '-' → signsMeet .minus e ∨ precedence e < unaryLevel
  plus : c = '+' → signsMeet .plus e ∨ precedence e < unaryLevel

def Unsigned (c : Char) : Prop := c ≠ '=' ∧ c ≠ '-' ∧ c ≠ '+'

theorem Unsigned.leads {c : Char} (h : Unsigned c) (e : Expression) : Leads e c :=
  ⟨h.1, fun hm => absurd hm h.2.1, fun hp => absurd hp h.2.2⟩

/-- A sign in front of a loose expression belongs to one of its operands. -/
theorem leads_of_lt {e : Expression} {c : Char} (h : precedence e < unaryLevel) (hc : c ≠ '=') :
    Leads e c :=
  ⟨hc, fun _ => .inr h, fun _ => .inr h⟩

/-- Two signs can meet only if the operand is a unary expression. -/
theorem precedence_of_signsMeet {op : UnaryOperator} {e : Expression} (h : Readable e)
    (hs : signsMeet op e) : precedence e = unaryLevel := by
  cases h with
  | unary => rfl
  | update step leading =>
    cases leading with
    | true => rfl
    | false => cases op <;> cases step <;> simp [signsMeet] at hs
  | _ => cases op <;> simp [signsMeet] at hs

theorem sequenceLevel_le (e : Expression) : sequenceLevel ≤ precedence e := by
  cases e with
  | binary op => change 1 ≤ op.precedence; cases op <;> decide
  | logical op => change 1 ≤ op.precedence; cases op <;> decide
  | update _ leading => cases leading <;> exact Nat.le_of_ble_eq_true rfl
  | literal l =>
    simp only [precedence, literalLevel]
    split
    · split <;> decide
    · decide
  | _ => exact Nat.le_of_ble_eq_true rfl

@[simp] theorem grouped_sequenceLevel (e : Expression) (text : String) :
    grouped sequenceLevel e text = text :=
  if_neg (Nat.not_lt.2 (sequenceLevel_le e))

theorem starts_parenthesis (a : String) : Starts ("(" ++ a ++ ")") Unsigned := by
  refine Starts.append (Starts.append ⟨'(', [], rfl, ?_⟩ a) ")"
  simp [Unsigned]

/-- Where a unary operand is asked for, a sign in front is that of the operand itself. -/
theorem starts_grouped_unary {e : Expression} {text : String} (h : Starts text (Leads e)) :
    Starts (grouped unaryLevel e text) fun c =>
      c ≠ '=' ∧ (c = '-' → signsMeet .minus e) ∧ (c = '+' → signsMeet .plus e) := by
  unfold grouped
  split
  · refine (starts_parenthesis text).mono fun c hc => ⟨hc.1, ?_, ?_⟩
    · exact fun hm => absurd hm hc.2.1
    · exact fun hp => absurd hp hc.2.2
  · next hlt =>
    refine h.mono fun c hc => ⟨hc.equals, ?_, ?_⟩
    · exact fun hm => (hc.minus hm).resolve_right hlt
    · exact fun hp => (hc.plus hp).resolve_right hlt

/-- Where a callee or an object is asked for, no sign is in front. -/
theorem starts_grouped_call {e : Expression} {text : String} (least : Nat) (hr : Readable e)
    (hl : unaryLevel < least) (h : Starts text (Leads e)) :
    Starts (grouped least e text) Unsigned := by
  unfold grouped
  split
  · exact starts_parenthesis text
  · next hlt =>
    refine h.mono fun c hc => ⟨hc.equals, fun hm => ?_, fun hp => ?_⟩
    · obtain hs | hs := hc.minus hm
      · have := precedence_of_signsMeet hr hs
        omega
      · omega
    · obtain hs | hs := hc.plus hp
      · have := precedence_of_signsMeet hr hs
        omega
      · omega

/-- No operand starts with the sign of an assignment. -/
theorem starts_grouped {e : Expression} {text : String} (least : Nat)
    (h : Starts text (Leads e)) : Starts (grouped least e text) (· ≠ '=') := by
  unfold grouped
  split
  · exact (starts_parenthesis text).mono fun c hc => hc.1
  · exact h.mono fun c hc => hc.equals

variable (layout : Layout)

/-- The expression is printed, and its text has its lexemes. -/
def Lexed (e : Expression) : Prop :=
  ∀ depth, ∃ text, expressionText layout e depth = .ok text ∧ Starts text (Leads e) ∧
    Spells text (lexemes e)

variable {layout}

/-- A list of expressions is printed with a comma between its items. -/
theorem lexed_list {es : List Expression} (h : ∀ e ∈ es, Lexed layout e) (depth : Nat) :
    ∃ text, listText layout es depth = .ok text ∧ (es ≠ [] → Starts text (· ≠ '=')) ∧
      Spells text (listLexemes es) := by
  induction es with
  | nil =>
    exact ⟨"", by simp [listText]; rfl, by simp, by simpa [listLexemes] using closed_empty.spells⟩
  | cons e es ih =>
    obtain ⟨t, ht, hl, hs⟩ := h e (by simp) depth
    obtain ⟨more, hm, _, hms⟩ := ih fun e he => h e (by simp [he])
    refine ⟨grouped assignLevel e t ++ (if es.isEmpty then "" else ", ") ++ more, ?_, ?_, ?_⟩
    · simp only [listText, ht, hm]; rfl
    · exact fun _ => ((starts_grouped _ hl).append _).append _
    · rw [listLexemes]
      cases es with
      | nil =>
        obtain rfl : more = "" := by simpa [listText, pure, Except.pure] using hm
        simpa [listLexemes] using hs.grouped assignLevel e
      | cons e' es =>
        have hc := (hs.grouped assignLevel e).append_closed closed_separator apart_separator
        simpa using hc.append_spells hms

/-- The elements of an array are printed with a comma behind each hole. -/
theorem lexed_elements {es : List (Option Expression)}
    (h : ∀ e, some e ∈ es → Lexed layout e) (depth : Nat) :
    ∃ text, elementsText layout es depth = .ok text ∧ Spells text (elementLexemes es) := by
  induction es with
  | nil => exact ⟨"", rfl, by simpa [elementLexemes] using closed_empty.spells⟩
  | cons e es ih =>
    obtain ⟨more, hm, hms⟩ := ih fun e he => h e (by simp [he])
    have hlast : es = [] → more = "" := by
      rintro rfl
      simpa [elementsText, pure, Except.pure] using hm.symm
    cases e with
    | none =>
      refine ⟨(if es.isEmpty then "," else "") ++ (if es.isEmpty then "" else ", ") ++ more, ?_, ?_⟩
      · simp only [elementsText, elementText, hm]; rfl
      · rw [elementLexemes, optionLexemes]
        cases es with
        | nil => simpa [elementLexemes, hlast rfl] using closed_comma.spells
        | cons e' es => simpa using closed_separator.append_spells hms
    | some e =>
      obtain ⟨t, ht, _, hs⟩ := h e (by simp) depth
      refine ⟨grouped assignLevel e t ++ (if es.isEmpty then "" else ", ") ++ more, ?_, ?_⟩
      · simp only [elementsText, elementText, ht, hm]; rfl
      · rw [elementLexemes, optionLexemes]
        cases es with
        | nil => simpa [elementLexemes, hlast rfl] using hs.grouped assignLevel e
        | cons e' es =>
          have hc := (hs.grouped assignLevel e).append_closed closed_separator apart_separator
          simpa using hc.append_spells hms

/-- A sign in front of an operand is a mark of its own, if the operand does not start with the same
sign. -/
theorem spells_sign {op : UnaryOperator} (ho : op.isKeyword = false) {e : Expression}
    (hm : signsMeet op e = false) {a : String} {ts : List Token} (ha : Spells a ts)
    (hs : Starts a fun c =>
      c ≠ '=' ∧ (c = '-' → signsMeet .minus e) ∧ (c = '+' → signsMeet .plus e)) :
    Spells (op.text ++ a) (.mark op.text :: ts) := by
  obtain ⟨c, cs, he, hc, hminus, hplus⟩ := hs
  have hmem : op.text ∈ marks := by simpa [ho] using unary_operator op
  have hf : c ∉ Grammar.followers op.text := by
    cases op with
    | minus =>
      have hd : Grammar.followers "-" = ['-', '='] := by decide +kernel
      have hne : c ≠ '-' := fun h => absurd (hminus h) (by simp [hm])
      simp [UnaryOperator.text, hd, hc, hne]
    | plus =>
      have hd : Grammar.followers "+" = ['+', '='] := by decide +kernel
      have hne : c ≠ '+' := fun h => absurd (hplus h) (by simp [hm])
      simp [UnaryOperator.text, hd, hc, hne]
    | not =>
      have hd : Grammar.followers "!" = ['=', '='] := by decide +kernel
      simp [UnaryOperator.text, hd, hc]
    | bitNot =>
      have hd : Grammar.followers "~" = [] := by decide +kernel
      simp [UnaryOperator.text, hd]
    | typeOf | void | delete => cases ho
  intro rest hr
  have hl := ha rest hr
  rw [String.toList_append, List.append_assoc, Grammar.lex_mark hmem (by simpa [he] using hf), hl,
    Option.map_map]
  rfl

/-- A unary expression has its lexemes: a blank keeps two signs apart that would join. -/
theorem lexed_unary (op : UnaryOperator) {e : Expression} (h : Lexed layout e) :
    Lexed layout (.unary op true e) := by
  intro depth
  obtain ⟨t, ht, hl, hs⟩ := h depth
  have hg := hs.grouped unaryLevel e
  refine ⟨op.text ++ (if op.isKeyword || signsMeet op e then " " else "") ++ grouped unaryLevel e t,
    ?_, ?_, ?_⟩
  · simp only [expressionText, ht]; rfl
  · rw [String.append_assoc]
    refine Starts.append ?_ _
    cases op
    · exact ⟨'-', [], rfl, by decide, fun _ => .inl rfl, by simp⟩
    · exact ⟨'+', [], rfl, by decide, by simp, fun _ => .inl rfl⟩
    · exact ⟨'!', [], rfl, Unsigned.leads (by simp [Unsigned]) _⟩
    · exact ⟨'~', [], rfl, Unsigned.leads (by simp [Unsigned]) _⟩
    · exact ⟨'t', _, rfl, Unsigned.leads (by simp [Unsigned]) _⟩
    · exact ⟨'v', _, rfl, Unsigned.leads (by simp [Unsigned]) _⟩
    · exact ⟨'d', _, rfl, Unsigned.leads (by simp [Unsigned]) _⟩
  · rw [lexemes]
    have ho := unary_operator op
    cases hk : op.isKeyword with
    | true =>
      rw [hk] at ho
      simpa [operatorToken] using (closed_word ho).append_spells hg
    | false =>
      rw [hk] at ho
      cases hm : signsMeet op e with
      | true => simpa [operatorToken] using (closed_mark_blank ho).append_spells hg
      | false => simpa [operatorToken] using spells_sign hk hm hg (starts_grouped_unary hl)

theorem starts_name {name : String} (hn : Text.isIdentifierName name) : Starts name Unsigned := by
  unfold Text.isIdentifierName at hn
  split at hn
  · cases hn
  · next c cs he =>
    have hc : Text.isNameStart c := by simp at hn; exact hn.1
    refine ⟨c, cs, he, ?_, ?_, ?_⟩
    all_goals
      rintro rfl
      rw [Grammar.isNameStart_of_isSign (by decide)] at hc
      cases hc

/-- A step has its lexemes, since no sign meets it. -/
theorem lexed_update (op : UpdateOperator) (leading : Bool) {e : Expression} (hr : Readable e)
    (h : Lexed layout e) : Lexed layout (.update op leading e) := by
  intro depth
  obtain ⟨t, ht, hl, hs⟩ := h depth
  refine ⟨if leading then op.text ++ grouped unaryLevel e t else grouped callLevel e t ++ op.text,
    ?_, ?_, ?_⟩
  · simp only [expressionText, ht]; rfl
  · cases leading with
    | true =>
      refine Starts.append ?_ _
      cases op
      · exact ⟨'+', _, rfl, by decide, by simp, fun _ => .inl rfl⟩
      · exact ⟨'-', _, rfl, by decide, fun _ => .inl rfl, by simp⟩
    | false =>
      have hu := starts_grouped_call callLevel hr (by decide) hl
      exact (hu.append op.text).mono fun c hc => hc.leads _
  · rw [lexemes]
    cases leading with
    | true => simpa using (closed_step op).append_spells (hs.grouped unaryLevel e)
    | false =>
      have ha : Apart op.text := apart_mark (by cases op <;> decide)
      simpa using ((hs.grouped callLevel e).append_closed (closed_step op) ha).spells

/-- Two operands with an operator of a loose level between them. -/
theorem lexed_infix {e l r : Expression} {m : String} (low high : Nat) (keyword : Bool)
    (hm : if keyword then Text.isIdentifierName m = true else m ∈ marks)
    (ht : ∀ depth, expressionText layout e depth = do
      let lt ← expressionText layout l depth
      let rt ← expressionText layout r depth
      return grouped low l lt ++ " " ++ m ++ " " ++ grouped high r rt)
    (hs : lexemes e = groupedLexemes low l (lexemes l)
      ++ operatorToken keyword m :: groupedLexemes high r (lexemes r))
    (hp : precedence e < unaryLevel) (hl : Lexed layout l) (hr : Lexed layout r) :
    Lexed layout e := by
  intro depth
  obtain ⟨lt, hlt, hll, hls⟩ := hl depth
  obtain ⟨rt, hrt, _, hrs⟩ := hr depth
  refine ⟨grouped low l lt ++ " " ++ m ++ " " ++ grouped high r rt, ?_, ?_, ?_⟩
  · rw [ht, hlt, hrt]; rfl
  · simp only [String.append_assoc]
    exact ((starts_grouped low hll).append _).mono fun c hc => leads_of_lt hp hc
  · rw [hs]
    exact (hls.grouped low l).operator keyword hm (hrs.grouped high r)

theorem binary_precedence_lt (op : BinaryOperator) : op.precedence < unaryLevel := by
  cases op <;> decide

theorem logical_precedence_lt (op : LogicalOperator) : op.precedence < unaryLevel := by
  cases op <;> decide

theorem lexed_conditional {t c a : Expression} (ht : Lexed layout t) (hc : Lexed layout c)
    (ha : Lexed layout a) : Lexed layout (.conditional t c a) := by
  intro depth
  obtain ⟨tt, htt, htl, hts⟩ := ht depth
  obtain ⟨ct, hct, _, hcs⟩ := hc depth
  obtain ⟨et, het, _, hes⟩ := ha depth
  refine ⟨grouped testLevel t tt ++ " ? " ++ grouped assignLevel c ct ++ " : " ++
    grouped assignLevel a et, ?_, ?_, ?_⟩
  · simp only [expressionText, htt, hct, het]; rfl
  · simp only [String.append_assoc]
    have hp : precedence (.conditional t c a) < unaryLevel := Nat.lt_of_sub_eq_succ rfl
    exact ((starts_grouped _ htl).append _).mono fun c hc => leads_of_lt hp hc
  · have hq : "?" ∈ marks := by decide
    have hn : ":" ∈ marks := by decide
    have h₂ := (hcs.grouped assignLevel c).operator false hn (hes.grouped assignLevel a)
    have h₁ := (hts.grouped testLevel t).operator false hq h₂
    simpa [lexemes, operatorToken, String.append_assoc] using h₁

/-- Arguments in parentheses, with the mark of an optional call in front. -/
theorem closed_arguments (optional : Bool) {a : String} {ts : List Token} (ha : Spells a ts) :
    Closed ((if optional then "?." else "") ++ ("(" ++ a ++ ")"))
        ((if optional then [.mark "?.", .mark "("] else [.mark "("]) ++ (ts ++ [.mark ")"])) ∧
      Apart ((if optional then "?." else "") ++ ("(" ++ a ++ ")")) := by
  cases optional with
  | false =>
    have hs : Apart ("(" ++ a ++ ")") :=
      ((apart_mark (m := "(") (by decide)).append a).append ")"
    exact ⟨closed_empty.append ha.parentheses, by simpa using hs⟩
  | true =>
    have hs : Apart ("?." ++ ("(" ++ a ++ ")")) := (apart_mark (by decide)).append _
    exact ⟨closed_chaining.append ha.parentheses, hs⟩

theorem lexed_call {callee : Expression} {es : List Expression} (optional : Bool)
    (hr : Readable callee) (hc : Lexed layout callee) (he : ∀ e ∈ es, Lexed layout e) :
    Lexed layout (.call callee es optional) := by
  intro depth
  obtain ⟨ct, hct, hcl, hcs⟩ := hc depth
  obtain ⟨et, het, _, hes⟩ := lexed_list he depth
  obtain ⟨hclosed, hapart⟩ := closed_arguments optional hes
  refine ⟨grouped callLevel callee ct ++ (if optional then "?." else "") ++ "(" ++ et ++ ")",
    ?_, ?_, ?_⟩
  · simp only [expressionText, hct, het]; rfl
  · simp only [String.append_assoc]
    have hu := starts_grouped_call callLevel hr (by decide) hcl
    exact (hu.append _).mono fun c hc => hc.leads _
  · have hs := (hcs.grouped callLevel callee).append_closed hclosed hapart
    rw [lexemes]
    simpa only [String.append_assoc] using hs.spells

theorem lexed_new {callee : Expression} {es : List Expression} (hc : Lexed layout callee)
    (he : ∀ e ∈ es, Lexed layout e) : Lexed layout (.new callee es) := by
  intro depth
  obtain ⟨ct, hct, _, hcs⟩ := hc depth
  obtain ⟨et, het, _, hes⟩ := lexed_list he depth
  obtain ⟨hclosed, hapart⟩ := closed_arguments false hes
  refine ⟨"new " ++
      (if containsCall callee then "(" ++ ct ++ ")" else grouped memberLevel callee ct)
    ++ "(" ++ et ++ ")", ?_, ?_, ?_⟩
  · simp only [expressionText, hct, het]; rfl
  · simp only [String.append_assoc]
    exact Starts.append ⟨'n', _, rfl, Unsigned.leads (by simp [Unsigned]) _⟩ _
  · have hcallee : Spells
        (if containsCall callee then "(" ++ ct ++ ")" else grouped memberLevel callee ct)
        (if containsCall callee then .mark "(" :: (lexemes callee ++ [.mark ")"])
          else groupedLexemes memberLevel callee (lexemes callee)) := by
      split
      · exact hcs.parentheses.spells
      · exact hcs.grouped memberLevel callee
    have hn : Closed "new " [.word "new"] := closed_word (w := "new") (by decide +kernel)
    have hs := hn.append_spells (hcallee.append_closed hclosed hapart).spells
    rw [lexemes]
    simpa [String.append_assoc] using hs

theorem lexed_dot {object : Expression} {name : String} (hr : Readable object)
    (ho : Lexed layout object) (hn : Text.isIdentifierName name) :
    Lexed layout (.member object (.identifier name) false false) := by
  intro depth
  obtain ⟨ot, hot, hol, hos⟩ := ho depth
  have hb : isBareInteger object = false := by
    cases hr <;> rfl
  refine ⟨grouped callLevel object ot ++ ("." ++ name), ?_, ?_, ?_⟩
  · simp only [expressionText, hot, hb]; rfl
  · have hu := starts_grouped_call callLevel hr (by decide) hol
    exact (hu.append _).mono fun c hc => hc.leads _
  · have hf : Grammar.followers "." = ['.'] := by decide +kernel
    obtain ⟨c, cs, he, _⟩ := starts_name hn
    have hc : c ≠ '.' := by
      rintro rfl
      simp only [Text.isIdentifierName, he, Bool.and_eq_true] at hn
      rw [Grammar.isNameStart_of_isSign (by decide)] at hn
      exact absurd hn.1 (by decide)
    intro rest hrest
    have hword := spells_word hn rest hrest
    have hdot : lex (("." ++ name).toList ++ rest) =
        (lex rest).map ([.mark ".", .word name] ++ ·) := by
      rw [String.toList_append, List.append_assoc,
        Grammar.lex_mark (by decide) (by simp [he, hf, hc]),
        hword, Option.map_map]
      rfl
    have hs : Apart ("." ++ name) := (apart_mark (by decide)).append name
    rw [String.toList_append, List.append_assoc, hos.grouped callLevel object _ (hs rest), hdot,
      Option.map_map]
    simp [lexemes, Function.comp_def]

theorem lexed_index {object property : Expression} (hr : Readable object)
    (ho : Lexed layout object) (hp : Lexed layout property) :
    Lexed layout (.member object property true false) := by
  intro depth
  obtain ⟨ot, hot, hol, hos⟩ := ho depth
  obtain ⟨pt, hpt, _, hps⟩ := hp depth
  refine ⟨grouped callLevel object ot ++ ("[" ++ pt ++ "]"), ?_, ?_, ?_⟩
  · simp only [expressionText, hot, hpt, grouped_sequenceLevel]
    simp [bind, Except.bind, pure, Except.pure]
  · have hu := starts_grouped_call callLevel hr (by decide) hol
    exact (hu.append _).mono fun c hc => hc.leads _
  · have hb := hps.append_closed closed_closeBracket (apart_mark (by decide))
    have hc := closed_openBracket.append hb
    have hs : Apart ("[" ++ (pt ++ "]")) := (apart_mark (by decide)).append _
    rw [lexemes, String.append_assoc]
    simpa using ((hos.grouped callLevel object).append_closed hc hs).spells

/-- The text of a readable expression has the lexemes of the expression. -/
theorem Readable.lexed {e : Expression} (h : Readable e) : Lexed layout e := by
  induction h with
  | identifier hn _ =>
    exact fun _ => ⟨_, rfl, (starts_name hn).mono fun c hc => hc.leads _, spells_word hn⟩
  | this =>
    have hn : Text.isIdentifierName "this" := by decide +kernel
    exact fun _ => ⟨_, rfl, (starts_name hn).mono fun c hc => hc.leads _, spells_word hn⟩
  | string s raw =>
    intro depth
    refine ⟨quote layout.asciiOnly s, rfl, ?_, fun rest _ => Grammar.lex_text _ s rest⟩
    refine Starts.append (Starts.append ⟨'"', [], rfl, ?_⟩ _) _
    exact Unsigned.leads (by simp [Unsigned]) _
  | array _ ih =>
    intro depth
    obtain ⟨t, ht, hs⟩ := lexed_elements ih depth
    refine ⟨"[" ++ t ++ "]", by simp only [expressionText, ht]; rfl, ?_, ?_⟩
    · refine Starts.append (Starts.append ⟨'[', [], rfl, ?_⟩ _) _
      exact Unsigned.leads (by simp [Unsigned]) _
    · have hb := hs.append_closed closed_closeBracket (apart_mark (by decide))
      rw [lexemes, String.append_assoc]
      exact (closed_openBracket.append hb).spells
  | unary op _ ih => exact lexed_unary op ih
  | update op leading _ hr ih => exact lexed_update op leading hr ih
  | binary op _ _ hl hr =>
    exact lexed_infix (binaryLevels op).1 (binaryLevels op).2 op.isKeyword (binary_operator op)
      (fun _ => rfl) (by rw [lexemes]) (binary_precedence_lt op) hl hr
  | logical op _ _ hl hr =>
    exact lexed_infix (logicalLevels op).1 (logicalLevels op).2 false (logical_operator op)
      (fun _ => rfl) (by rw [lexemes]; rfl) (logical_precedence_lt op) hl hr
  | assignment op _ _ _ hl hr =>
    exact lexed_infix callLevel assignLevel false (assignment_operator op) (fun _ => rfl)
      (by rw [lexemes]; rfl) (Nat.lt_of_sub_eq_succ rfl) hl hr
  | conditional _ _ _ ht hc ha => exact lexed_conditional ht hc ha
  | call optional hr _ hc he => exact lexed_call optional hr hc he
  | new _ _ hc he => exact lexed_new hc he
  | dot hr hn ho => exact lexed_dot hr ho hn
  | index hr _ ho hp => exact lexed_index hr ho hp
  | sequence h2 _ ih =>
    intro depth
    obtain ⟨t, ht, hstart, hs⟩ := lexed_list ih depth
    refine ⟨t, by simp only [expressionText, ht], ?_, by rw [lexemes]; exact hs⟩
    have hne := hstart (by rintro rfl; simp at h2)
    exact hne.mono fun c hc => leads_of_lt (Nat.lt_of_sub_eq_succ rfl) hc

end Untangle.Printer
