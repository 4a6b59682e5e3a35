import Untangle.Proofs.Grammar.StringLiteral
import Untangle.Syntax.Operator
import Untangle.Text.IdentifierName

/-!
# Lexemes of expressions

A text is cut into words, string literals and marks, of which each is as long
as it can be. Blanks between lexemes are passed over. Expressions stand on one
line: line terminators are no blanks, and comments, numerals, templates and
regular expressions are refused.
-/
namespace Untangle.Grammar

inductive Token where
  | word (name : String)
  | text (value : String)
  | mark (sign : String)
  deriving DecidableEq, Repr

/-- A range beyond ASCII does not matter for an ASCII character. -/
theorem contains_ascii {c : Char} (hc : c.toNat < 0x80) (low high : CodePoints)
    (hh : ∀ r ∈ high, 0x80 ≤ r.1) : (low ++ high).contains c = low.contains c := by
  have hnone : high.contains c = false := by
    rw [CodePoints.contains, List.any_eq_false]
    intro r hr
    have := hh r hr
    simp only [Bool.and_eq_true, decide_eq_true_eq]
    omega
  have happend : (low ++ high).contains c = (low.contains c || high.contains c) :=
    List.any_append
  rw [happend, hnone, Bool.or_false]

theorem identifierStarts_ascii {c : Char} (hc : c.toNat < 0x80) :
    Text.identifierStarts.contains c = CodePoints.contains [(0x41, 0x5A), (0x61, 0x7A)] c :=
  contains_ascii hc [(0x41, 0x5A), (0x61, 0x7A)] (Text.identifierStarts.drop 2) (by decide +kernel)

theorem identifierExtras_ascii {c : Char} (hc : c.toNat < 0x80) :
    Text.identifierExtras.contains c = CodePoints.contains [(0x30, 0x39), (0x5F, 0x5F)] c :=
  contains_ascii hc [(0x30, 0x39), (0x5F, 0x5F)] (Text.identifierExtras.drop 2) (by decide +kernel)

/-- An ASCII character that no name has. -/
def isSign (c : Char) : Bool :=
  c.toNat < 0x80 && c != '$'
    && !CodePoints.contains [(0x30, 0x39), (0x41, 0x5A), (0x5F, 0x5F), (0x61, 0x7A)] c

theorem isNamePart_of_isSign {c : Char} (h : isSign c) : Text.isNamePart c = false := by
  simp only [isSign, Bool.and_eq_true, decide_eq_true_eq] at h
  obtain ⟨⟨hc, hd⟩, hn⟩ := h
  have h₁ : c ≠ '\u200C' := by rintro rfl; exact absurd hc (by decide)
  have h₂ : c ≠ '\u200D' := by rintro rfl; exact absurd hc (by decide)
  simp only [Text.isNamePart, identifierStarts_ascii hc, identifierExtras_ascii hc]
  simp [CodePoints.contains] at hd hn ⊢
  refine ⟨⟨⟨⟨hd, h₁⟩, h₂⟩, ?_⟩, ?_⟩ <;> omega

theorem isNameStart_of_isSign {c : Char} (h : isSign c) : Text.isNameStart c = false := by
  have hp := isNamePart_of_isSign h
  have hu : c ≠ '_' := by rintro rfl; exact absurd h (by decide)
  simp [Text.isNamePart, Text.isNameStart, hu] at hp ⊢
  exact ⟨hp.1.1.1.1, hp.1.2⟩

def blanks : CodePoints :=
  [(0x9, 0x9), (0xB, 0xC), (0x20, 0x20), (0xA0, 0xA0), (0x1680, 0x1680), (0x2000, 0x200A),
    (0x202F, 0x202F), (0x205F, 0x205F), (0x3000, 0x3000), (0xFEFF, 0xFEFF)]

/-- The punctuators, each in front of all that it starts with. -/
def marks : List String :=
  [">>>=", "...", "===", "!==", "**=", "<<=", ">>=", ">>>", "&&=", "||=", "??=",
    "=>", "==", "!=", "<=", ">=", "&&", "||", "??", "?.", "++", "--", "+=", "-=", "*=", "/=",
    "%=", "&=", "|=", "^=", "<<", ">>", "**",
    "\x7b", "\x7d", "(", ")", "[", "]", ";", ",", "<", ">", "+", "-", "*", "/", "%", "&", "|",
    "^", "!", "~", "?", ":", "=", "."]

def commentStarts : List String := ["//", "/*"]

/-- The longest mark that a text starts with; the start of a comment is none. -/
def mark? (cs : List Char) : Option String :=
  if commentStarts.any fun m => m.toList.isPrefixOf cs then none
  else marks.find? fun m => m.toList.isPrefixOf cs

/-- The characters that go on with something longer behind a mark. -/
def followers (m : String) : List Char :=
  (commentStarts ++ marks).filterMap fun a =>
    if m.toList.isPrefixOf a.toList then (a.toList.drop m.toList.length).head? else none

/-- What a text starts with is the start of the mark in front, unless the text goes on with a
follower of the mark. -/
theorem prefix_of_prefix_append {a m : String} (ha : a ∈ commentStarts ++ marks)
    {rest : List Char} (hr : ∀ c ∈ rest.head?, c ∉ followers m)
    (h : a.toList <+: m.toList ++ rest) : a.toList <+: m.toList := by
  obtain hp | ⟨t, ht⟩ := List.prefix_or_prefix_of_prefix h (List.prefix_append m.toList rest)
  · exact hp
  cases t with
  | nil => exact ⟨[], by rw [← ht, List.append_nil, List.append_nil]⟩
  | cons c t =>
    have hc : c :: t <+: rest := by
      rw [← ht] at h
      exact (List.prefix_append_right_inj m.toList).1 h
    obtain ⟨u, rfl⟩ := hc
    refine absurd ?_ (hr c (by simp))
    refine List.mem_filterMap.2 ⟨a, ha, ?_⟩
    simp [← ht]

/-- A mark is the longest where no follower of it comes next: no other that comes before it in the
list is the start of it. -/
theorem mark?_append {m : String} (hm : m ∈ marks) {rest : List Char}
    (hr : ∀ c ∈ rest.head?, c ∉ followers m) : mark? (m.toList ++ rest) = some m := by
  have hc : ∀ a ∈ commentStarts, ∀ b ∈ marks, ¬a.toList <+: b.toList := by decide +kernel
  have hp : (marks.map String.toList).Pairwise fun a b => ¬a <+: b := by decide +kernel
  have hnone : ¬commentStarts.any fun a => a.toList.isPrefixOf (m.toList ++ rest) := by
    simp only [List.any_eq_true, List.isPrefixOf_iff_prefix, not_exists, not_and]
    intro a ha h
    exact hc a ha m hm (prefix_of_prefix_append (by simp [ha]) hr h)
  obtain ⟨as, bs, he⟩ := List.append_of_mem hm
  rw [mark?, if_neg hnone, List.find?_eq_some_iff_append]
  refine ⟨by simp, as, bs, he, ?_⟩
  intro a ha
  rw [List.pairwise_map, he, List.pairwise_append] at hp
  have hfirst := hp.2.2 a ha m (by simp)
  rw [Bool.not_eq_true', Bool.eq_false_iff, ne_eq, List.isPrefixOf_iff_prefix]
  exact fun h => hfirst (prefix_of_prefix_append (by simp [he, ha]) hr h)

theorem blank_notMem_followers (m : String) : ' ' ∉ followers m := by
  have hb : ∀ a ∈ commentStarts ++ marks, ' ' ∉ a.toList := by decide +kernel
  intro h
  obtain ⟨a, ha, hc⟩ := List.mem_filterMap.1 h
  split at hc
  · exact hb a ha (List.mem_of_mem_drop (List.mem_of_mem_head? hc))
  · cases hc

theorem length_literalUnits? (cs : List Char) :
    ∀ {units : List Nat} {rest : List Char}, literalUnits? cs = some (units, rest) →
      rest.length < cs.length := by
  fun_induction literalUnits? cs with
  | case1 => simp
  | case2 rest => rintro _ _ ⟨⟩; simp
  | case3 a b rest ih | case4 a b c d rest ih | case5 c rest _ _ ih | case6 c rest _ _ _ _ ih =>
    intro units rest' h
    simp only [Option.bind_eq_bind, Option.bind_eq_some_iff, Option.pure_def, Option.some.injEq,
      Prod.mk.injEq, Prod.exists] at h
    obtain ⟨_, _, units', r, hr, _, rfl⟩ := h
    have := ih hr
    simp only [List.length_cons]
    omega

theorem length_stringLiteral? {cs rest : List Char} {s : String}
    (h : stringLiteral? cs = some (s, rest)) : rest.length < cs.length := by
  simp only [stringLiteral?, Option.bind_eq_bind, Option.bind_eq_some_iff, Option.pure_def,
    Option.some.injEq, Prod.mk.injEq, Prod.exists] at h
  obtain ⟨units, r, hr, _, _, _, rfl⟩ := h
  exact length_literalUnits? cs hr

/-- The lexemes of a text. -/
def lex : List Char → Option (List Token)
  | [] => some []
  | c :: cs =>
    if Text.isNameStart c then
      (lex (cs.dropWhile Text.isNamePart)).map
        (.word (String.ofList (c :: cs.takeWhile Text.isNamePart)) :: ·)
    else if blanks.contains c then lex cs
    else if c = '"' then
      match _h : stringLiteral? cs with
      | some (s, rest) => (lex rest).map (.text s :: ·)
      | none => none
    else
      match mark? (c :: cs) with
      | some m => (lex (cs.drop (m.toList.length - 1))).map (.mark m :: ·)
      | none => none
termination_by cs => cs.length
decreasing_by
  · have := (List.dropWhile_sublist Text.isNamePart (l := cs)).length_le
    simp only [List.length_cons]
    omega
  · simp
  · have := length_stringLiteral? _h
    simp only [List.length_cons]
    omega
  · simp only [List.length_drop, List.length_cons]
    omega

/-- A text that does not go on with a word. -/
def Loose (rest : List Char) : Prop := ∀ c ∈ rest.head?, Text.isNamePart c = false

@[simp] theorem loose_nil : Loose [] := by simp [Loose]

@[simp] theorem loose_cons (c : Char) (rest : List Char) :
    Loose (c :: rest) ↔ Text.isNamePart c = false := by simp [Loose]

@[simp] theorem lex_nil : lex [] = some [] := by rw [lex]

theorem lex_blank (cs : List Char) : lex (' ' :: cs) = lex cs := by
  have hs : Text.isNameStart ' ' = false := isNameStart_of_isSign (by decide)
  rw [lex, if_neg (by simp [hs]), if_pos (by decide)]

/-- A word ends where no name goes on. -/
theorem takeWhile_word {cs rest : List Char} (hcs : ∀ c ∈ cs, Text.isNamePart c)
    (hr : Loose rest) : (cs ++ rest).takeWhile Text.isNamePart = cs := by
  rw [List.takeWhile_append_of_pos hcs]
  cases rest with
  | nil => simp
  | cons d rest => simp [(loose_cons d rest).1 hr]

/-- An identifier is one word where no part of a name follows. -/
theorem lex_word {s : String} (hs : Text.isIdentifierName s) {rest : List Char}
    (hr : Loose rest) : lex (s.toList ++ rest) = (lex rest).map (.word s :: ·) := by
  unfold Text.isIdentifierName at hs
  split at hs
  · cases hs
  · next c cs he =>
    rw [Bool.and_eq_true, List.all_eq_true] at hs
    obtain ⟨hc, hcs⟩ := hs
    have hdrop : (cs ++ rest).dropWhile Text.isNamePart = rest := by
      rw [List.dropWhile_append_of_pos hcs]
      cases rest with
      | nil => simp
      | cons d rest => simp [(loose_cons d rest).1 hr]
    rw [he, List.cons_append, lex, if_pos hc, takeWhile_word hcs hr, hdrop, ← he,
      String.ofList_toList]

/-- A quoted string is one lexeme whatever follows. -/
theorem lex_text (asciiOnly : Bool) (s : String) (rest : List Char) :
    lex ((Printer.quote asciiOnly s).toList ++ rest) = (lex rest).map (.text s :: ·) := by
  have hq : (Printer.quote asciiOnly s).toList ++ rest =
      '"' :: (s.toList.flatMap (Printer.escaped asciiOnly) ++ '"' :: rest) := by
    simp [Printer.quote]
  have hs : Text.isNameStart '"' = false := isNameStart_of_isSign (by decide)
  rw [hq, lex, if_neg (by simp [hs]), if_neg (by decide), if_pos rfl]
  split
  · next h => rw [stringLiteral?_escaped] at h; cases h; rfl
  · next h => rw [stringLiteral?_escaped] at h; cases h

theorem mark_head (m : String) (hm : m ∈ marks) :
    ∃ c cs, m.toList = c :: cs ∧ isSign c ∧ blanks.contains c = false ∧ c ≠ '"' := by
  have hall : marks.all (fun m => m.toList.head?.any fun c =>
      isSign c && !blanks.contains c && c != '"') = true := by decide +kernel
  have h := List.all_eq_true.1 hall m hm
  cases hcs : m.toList with
  | nil =>
    rw [hcs] at h
    cases h
  | cons c cs =>
    rw [hcs] at h
    simp only [List.head?_cons, Option.any_some, Bool.and_eq_true, Bool.not_eq_true',
      bne_iff_ne] at h
    exact ⟨c, cs, rfl, h.1.1, h.1.2, h.2⟩

/-- A mark is one lexeme where nothing follows that would make it longer. -/
theorem lex_mark {m : String} (hm : m ∈ marks) {rest : List Char}
    (hr : ∀ c ∈ rest.head?, c ∉ followers m) :
    lex (m.toList ++ rest) = (lex rest).map (.mark m :: ·) := by
  have h := mark?_append hm hr
  obtain ⟨c, cs, he, hs, hb, hq⟩ := mark_head m hm
  rw [he, List.cons_append] at h ⊢
  rw [lex, if_neg (by simp [isNameStart_of_isSign hs]), if_neg (by simp [hb]), if_neg hq, h]
  simp [he]

end Untangle.Grammar
