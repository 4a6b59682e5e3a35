import Untangle.Proofs.Printer.Openings

/-!
# The operator `in` at the head of a loop

A text is cut into pieces that say which of it is an operator and which of it
stands in brackets. An `in` outside of all brackets in the first clause of a
`for` would be read as the `in` of a loop over keys. Printing keeps such an
`in` away if it is the outermost operator of the clause. It is shown where
else an `in` can stand without brackets, and that it does stand there.
-/
namespace Untangle.Printer

inductive Bracket where
  | round | square | curly
  deriving DecidableEq

def Bracket.opening : Bracket → String
  | .round => "("
  | .square => "["
  | .curly => "\x7b"

def Bracket.closing : Bracket → String
  | .round => ")"
  | .square => "]"
  | .curly => "\x7d"

/-- A part of a printed text. What a pair of brackets encloses is one piece with them. -/
inductive Piece where
  | plain (text : String)
  | operator (op : BinaryOperator)
  | enclosed (bracket : Bracket) (text : String)
  deriving DecidableEq

def Piece.text : Piece → String
  | .plain text => text
  | .operator op => op.text
  | .enclosed bracket text => bracket.opening ++ text ++ bracket.closing

@[simp] theorem Piece.text_plain (text : String) : (plain text).text = text := rfl

@[simp] theorem Piece.text_operator (op : BinaryOperator) : (operator op).text = op.text := rfl

@[simp] theorem Piece.text_round (text : String) :
    (enclosed .round text).text = "(" ++ text ++ ")" := rfl

@[simp] theorem Piece.text_square (text : String) :
    (enclosed .square text).text = "[" ++ text ++ "]" := rfl

@[simp] theorem Piece.text_curly (text : String) :
    (enclosed .curly text).text = "\x7b" ++ text ++ "\x7d" := rfl

def joined : List Piece → String
  | [] => ""
  | p :: ps => p.text ++ joined ps

@[simp] theorem joined_nil : joined [] = "" := rfl

@[simp] theorem joined_cons (p : Piece) (ps : List Piece) :
    joined (p :: ps) = p.text ++ joined ps :=
  rfl

@[simp] theorem joined_append (ps qs : List Piece) :
    joined (ps ++ qs) = joined ps ++ joined qs := by
  induction ps with
  | nil => simp
  | cons p ps ih => simp [ih, String.append_assoc]

theorem joined_ite (c : Prop) [Decidable c] (ps qs : List Piece) :
    joined (if c then ps else qs) = if c then joined ps else joined qs :=
  apply_ite joined c ps qs

def placed (least : Nat) (e : Expression) (ps : List Piece) : List Piece :=
  if precedence e < least then [.enclosed .round (joined ps)] else ps

/-- An expression in its place has the same text in pieces. -/
@[simp] theorem joined_placed (least : Nat) (e : Expression) (ps : List Piece) :
    joined (placed least e ps) = grouped least e (joined ps) := by
  unfold placed grouped
  split <;> simp

variable (layout : Layout)

/-- What `braced` puts between its braces. -/
def bodyText (depth : Nat) (body : List Statement) (lines : String) : String :=
  if body.isEmpty then "" else "\n" ++ lines ++ layout.lineStart depth

theorem braced_eq (depth : Nat) (body : List Statement) (lines : String) :
    braced layout depth body lines = "\x7b" ++ bodyText layout depth body lines ++ "\x7d" := by
  unfold braced bodyText
  split
  · rfl
  · simp only [String.append_assoc]
    rfl

/-- What `inBraces` puts between its braces. -/
def membersInside (members : List Member) (text : String) : String :=
  if members.isEmpty then "" else " " ++ text ++ " "

/-- The members of an object stand between braces. -/
theorem inBraces_eq (members : List Member) (text : String) :
    inBraces members text = "\x7b" ++ membersInside members text ++ "\x7d" := by
  unfold inBraces membersInside
  split
  · rfl
  · simp only [String.append_assoc]
    rfl

def templatePieces : List Quasi → List String → List Piece
  | [], _ => []
  | q :: quasis, [] => .plain q.raw :: templatePieces quasis []
  | q :: quasis, e :: rest =>
    .plain q.raw :: .plain "$" :: .enclosed .curly e :: templatePieces quasis rest

mutual
/-- The pieces of the text of an expression. Inside of brackets it is not cut further. -/
def expressionPieces : Expression → Nat → Except Unsupported (List Piece)
  | .identifier name, _ => return [.plain name]
  | .literal l, _ => return [.plain (literalText layout l)]
  | .this, _ => return [.plain "this"]
  | .array elements, depth => do
    return [.enclosed .square (← elementsText layout elements depth)]
  | .arrayPattern elements, depth => do
    return [.enclosed .square (← elementsText layout elements depth)]
  | .object members, depth => do
    return [.enclosed .curly (membersInside members (← membersText layout members depth))]
  | .objectPattern members, depth => do
    return [.enclosed .curly (membersInside members (← membersText layout members depth))]
  | .function ⟨name, params, body, generator, async⟩, depth => do
    let ps ← listText layout params depth
    let lines ← statementLines layout body (depth + 1)
    return [.plain (functionHead ⟨name, params, body, generator, async⟩), .enclosed .round ps,
      .plain " ", .enclosed .curly (bodyText layout depth body lines)]
  | .arrow params (.block body) _ async, depth => do
    let ps ← listText layout params depth
    let lines ← statementLines layout body (depth + 1)
    return [.plain (if async then "async " else ""), .enclosed .round ps, .plain " => ",
      .enclosed .curly (bodyText layout depth body lines)]
  | .arrow params (.expression e) _ async, depth => do
    let params ← listText layout params depth
    let ps ← expressionPieces e depth
    return .plain (if async then "async " else "") :: .enclosed .round params :: .plain " => " ::
      if startsAmbiguously e then [.enclosed .round (joined ps)] else placed assignLevel e ps
  | .unary op _ argument, depth => do
    let ps ← expressionPieces argument depth
    return .plain (op.text ++ if op.isKeyword || signsMeet op argument then " " else "") ::
      placed unaryLevel argument ps
  | .update op leading argument, depth => do
    let ps ← expressionPieces argument depth
    return if leading then .plain op.text :: placed unaryLevel argument ps
      else placed callLevel argument ps ++ [.plain op.text]
  | .binary op left right, depth => do
    let l ← expressionPieces left depth
    let r ← expressionPieces right depth
    return placed (binaryLevels op).1 left l ++ .plain " " :: .operator op :: .plain " " ::
      placed (binaryLevels op).2 right r
  | .logical op left right, depth => do
    let l ← expressionPieces left depth
    let r ← expressionPieces right depth
    return placed (logicalLevels op).1 left l ++ .plain (" " ++ op.text ++ " ") ::
      placed (logicalLevels op).2 right r
  | .assignment op target value, depth => do
    let t ← expressionPieces target depth
    let v ← expressionPieces value depth
    return placed callLevel target t ++ .plain (" " ++ op.text ++ " ") :: placed assignLevel value v
  | .assignmentPattern target fallback, depth => do
    let t ← expressionPieces target depth
    let v ← expressionPieces fallback depth
    return placed callLevel target t ++ .plain " = " :: placed assignLevel fallback v
  | .conditional test consequent alternate, depth => do
    let t ← expressionPieces test depth
    let c ← expressionPieces consequent depth
    let a ← expressionPieces alternate depth
    return placed testLevel test t ++ .plain " ? " :: placed assignLevel consequent c
      ++ .plain " : " :: placed assignLevel alternate a
  | .call callee arguments optional, depth => do
    let c ← expressionPieces callee depth
    let as ← listText layout arguments depth
    return placed callLevel callee c
      ++ [.plain (if optional then "?." else ""), .enclosed .round as]
  | .new callee arguments, depth => do
    let c ← expressionPieces callee depth
    let as ← listText layout arguments depth
    return .plain "new " ::
      (if containsCall callee then [.enclosed .round (joined c)] else placed memberLevel callee c)
      ++ [.enclosed .round as]
  | .member object property computed optional, depth => do
    let o ← expressionPieces object depth
    let p ← expressionPieces property depth
    let o :=
      if isBareInteger object && !computed then [.enclosed .round (joined o)]
      else placed callLevel object o
    return o ++
      if computed then
        [.plain (if optional then "?." else ""),
          .enclosed .square (grouped sequenceLevel property (joined p))]
      else .plain (if optional then "?." else ".") :: placed primaryLevel property p
  | .sequence expressions, depth => listPieces expressions depth
  | .template quasis expressions, depth => do
    let texts ← splicesText layout quasis.length expressions depth
    return .plain "`" :: templatePieces quasis texts ++ [.plain "`"]
  | .tagged tag quasi, depth => do
    let t ← expressionPieces tag depth
    let q ← expressionPieces quasi depth
    return placed callLevel tag t ++ placed primaryLevel quasi q
  | .spread argument, depth => do
    return .plain "..." :: placed assignLevel argument (← expressionPieces argument depth)
  | .rest argument, depth => do
    return .plain "..." :: placed assignLevel argument (← expressionPieces argument depth)
  | .foreign v, _ => throw ⟨v.kindName⟩
termination_by structural e => e

def listPieces : List Expression → Nat → Except Unsupported (List Piece)
  | [], _ => return []
  | e :: rest, depth => do
    let ps ← expressionPieces e depth
    let more ← listPieces rest depth
    return placed assignLevel e ps ++ .plain (if rest.isEmpty then "" else ", ") :: more
termination_by structural l => l
end

/-- A template in pieces: each expression is enclosed in braces of its own. -/
theorem joined_templatePieces (quasis : List Quasi) (texts : List String) :
    joined (templatePieces quasis texts) = spliced quasis texts := by
  fun_induction templatePieces quasis texts with
  | case1 => rfl
  | case2 q quasis ih => simp [spliced, ih]
  | case3 q quasis e rest ih =>
    simp only [joined_cons, Piece.text_plain, Piece.text_curly, ih, spliced, String.append_assoc]
    rfl

variable {layout}

theorem closing_blank (text : String) : ")" ++ (" " ++ text) = ") " ++ text := by
  rw [← String.append_assoc]
  rfl

theorem closing_arrow (text : String) : ")" ++ (" => " ++ text) = ") => " ++ text := by
  rw [← String.append_assoc]
  rfl

theorem optional_opening (text : String) : "?." ++ ("[" ++ text) = "?.[" ++ text := by
  rw [← String.append_assoc]
  rfl

mutual
/-- The pieces of an expression make its text. -/
theorem joined_expressionPieces : (e : Expression) → (depth : Nat) →
    joined <$> expressionPieces layout e depth = expressionText layout e depth
  | .identifier _, _ | .literal _, _ | .this, _ => by simp [expressionPieces, expressionText]
  | .array _, _ | .arrayPattern _, _ => by simp [expressionPieces, expressionText]
  | .object _, _ | .objectPattern _, _ => by
    simp [expressionPieces, expressionText, inBraces_eq]
  | .function ⟨name, params, body, generator, async⟩, depth => by
    simp [expressionPieces, expressionText, functionRest, braced_eq, closing_blank,
      String.append_assoc]
  | .arrow params (.block body) _ async, depth => by
    simp [expressionPieces, expressionText, arrowBodyText, braced_eq, closing_arrow,
      String.append_assoc]
  | .arrow params (.expression e) _ async, depth => by
    simp [expressionPieces, expressionText, arrowBodyText, joined_ite, closing_arrow,
      String.append_assoc, ← joined_expressionPieces e depth]
  | .unary op _ argument, depth => by
    simp [expressionPieces, expressionText, ← joined_expressionPieces argument depth]
  | .update op leading argument, depth => by
    simp [expressionPieces, expressionText, joined_ite, ← joined_expressionPieces argument depth]
  | .binary op left right, depth => by
    simp [expressionPieces, expressionText, String.append_assoc,
      ← joined_expressionPieces left depth, ← joined_expressionPieces right depth]
  | .logical op left right, depth => by
    simp [expressionPieces, expressionText, String.append_assoc,
      ← joined_expressionPieces left depth, ← joined_expressionPieces right depth]
  | .assignment op target value, depth => by
    simp [expressionPieces, expressionText, String.append_assoc,
      ← joined_expressionPieces target depth, ← joined_expressionPieces value depth]
  | .assignmentPattern target fallback, depth => by
    simp [expressionPieces, expressionText, String.append_assoc,
      ← joined_expressionPieces target depth, ← joined_expressionPieces fallback depth]
  | .conditional test consequent alternate, depth => by
    simp [expressionPieces, expressionText, String.append_assoc,
      ← joined_expressionPieces test depth, ← joined_expressionPieces consequent depth,
      ← joined_expressionPieces alternate depth]
  | .call callee arguments optional, depth => by
    simp [expressionPieces, expressionText, String.append_assoc,
      ← joined_expressionPieces callee depth]
  | .new callee arguments, depth => by
    simp [expressionPieces, expressionText, joined_ite, String.append_assoc,
      ← joined_expressionPieces callee depth]
  | .member object property computed optional, depth => by
    cases computed <;> cases optional <;>
      simp [expressionPieces, expressionText, joined_ite,
      optional_opening, String.append_assoc, ← joined_expressionPieces object depth,
      ← joined_expressionPieces property depth]
  | .sequence expressions, depth => joined_listPieces expressions depth
  | .template quasis expressions, depth => by
    simp [expressionPieces, expressionText, joined_templatePieces, String.append_assoc]
  | .tagged tag quasi, depth => by
    simp [expressionPieces, expressionText, ← joined_expressionPieces tag depth,
      ← joined_expressionPieces quasi depth]
  | .spread argument, depth => by
    simp [expressionPieces, expressionText, ← joined_expressionPieces argument depth]
  | .rest argument, depth => by
    simp [expressionPieces, expressionText, ← joined_expressionPieces argument depth]
  | .foreign _, _ => rfl
termination_by structural e => e

theorem joined_listPieces : (es : List Expression) → (depth : Nat) →
    joined <$> listPieces layout es depth = listText layout es depth
  | [], depth => by rfl
  | e :: rest, depth => by
    simp [listPieces, listText, ← joined_expressionPieces e depth, ← joined_listPieces rest depth,
      String.append_assoc]
termination_by structural es => es
end

/-- Is there an operator `in` outside of all brackets? -/
def Bare (ps : List Piece) : Prop := .operator .inside ∈ ps

/-- A place that needs the level puts no parentheses around the expression. -/
def stays (least : Nat) (e : Expression) : Bool := least ≤ precedence e

mutual
/-- Can an `in` be reached from the outside without passing through brackets? The operands that are
left out here bind too strongly to have an `in` of their own. -/
def exposes : Expression → Bool
  | .binary op left right =>
    op = .inside || (stays (binaryLevels op).1 left && exposes left)
      || (stays (binaryLevels op).2 right && exposes right)
  | .logical op left right =>
    (stays (logicalLevels op).1 left && exposes left)
      || (stays (logicalLevels op).2 right && exposes right)
  | .assignment _ _ value => stays assignLevel value && exposes value
  | .assignmentPattern _ fallback => stays assignLevel fallback && exposes fallback
  | .conditional test consequent alternate =>
    (stays testLevel test && exposes test) || (stays assignLevel consequent && exposes consequent)
      || (stays assignLevel alternate && exposes alternate)
  | .arrow _ (.expression e) _ _ => !startsAmbiguously e && stays assignLevel e && exposes e
  | .sequence expressions => exposesOne expressions
  | .spread argument | .rest argument => stays assignLevel argument && exposes argument
  | _ => false
termination_by structural e => e

def exposesOne : List Expression → Bool
  | [] => false
  | e :: rest => (stays assignLevel e && exposes e) || exposesOne rest
termination_by structural es => es
end

/-- Nothing that binds more strongly than an `in` has one outside of brackets. -/
theorem precedence_le_of_exposes :
    (e : Expression) → exposes e → precedence e ≤ BinaryOperator.inside.precedence
  | .binary op left right, h => by
    have hl := precedence_le_of_exposes left
    have hr := precedence_le_of_exposes right
    simp only [exposes, stays, Bool.or_eq_true, Bool.and_eq_true, decide_eq_true_eq] at h
    have hop : op = .inside ∨ (binaryLevels op).1 ≤ BinaryOperator.inside.precedence
        ∨ (binaryLevels op).2 ≤ BinaryOperator.inside.precedence := by
      rcases h with (h | h) | h
      · exact .inl h
      · exact .inr (.inl (Nat.le_trans h.1 (hl h.2)))
      · exact .inr (.inr (Nat.le_trans h.1 (hr h.2)))
    show op.precedence ≤ BinaryOperator.inside.precedence
    cases op <;> revert hop <;> decide
  | .logical op _ _, _ => by cases op <;> exact Nat.le_of_ble_eq_true rfl
  | .assignment .., _ | .assignmentPattern .., _ | .conditional .., _ | .arrow .., _
  | .sequence _, _ | .spread _, _ | .rest _, _ => Nat.le_of_ble_eq_true rfl
  | .identifier _, h | .literal _, h | .this, h | .array _, h | .object _, h | .function _, h
  | .unary .., h | .update .., h | .call .., h | .new .., h | .member .., h | .template .., h
  | .tagged .., h | .arrayPattern _, h | .objectPattern _, h | .foreign _, h => by cases h
termination_by structural e => e

/-- An `in` shows in a place only if there are no parentheses around the expression. -/
theorem bare_placed {e : Expression} {ps : List Piece} (h : Bare ps ↔ exposes e) (least : Nat) :
    Bare (placed least e ps) ↔ stays least e && exposes e := by
  unfold placed
  split
  · next hlt => simp [Bare, stays, Nat.not_le.2 hlt]
  · next hle => simpa [stays, Nat.not_lt.1 hle] using h

/-- In a place for operands that bind more strongly there is no `in` outside of brackets. -/
theorem not_bare_placed {e : Expression} {ps : List Piece} (h : Bare ps ↔ exposes e) {least : Nat}
    (hl : BinaryOperator.inside.precedence < least) : ¬ Bare (placed least e ps) := by
  rw [bare_placed h, Bool.and_eq_true, stays, decide_eq_true_eq]
  rintro ⟨hp, he⟩
  exact absurd (Nat.le_trans hp (precedence_le_of_exposes e he)) (Nat.not_le.2 hl)

@[simp] theorem bare_nil : ¬ Bare [] := by simp [Bare]

@[simp] theorem bare_cons (p : Piece) (ps : List Piece) :
    Bare (p :: ps) ↔ p = .operator .inside ∨ Bare ps := by
  simp [Bare, eq_comm]

@[simp] theorem bare_append (ps qs : List Piece) : Bare (ps ++ qs) ↔ Bare ps ∨ Bare qs :=
  List.mem_append

/-- What a template holds is in braces. -/
theorem not_bare_templatePieces (quasis : List Quasi) (texts : List String) :
    ¬ Bare (templatePieces quasis texts) := by
  fun_induction templatePieces quasis texts <;> simp [*]

mutual
/-- The pieces of an expression have a bare `in` exactly if the expression exposes one. -/
theorem bare_expressionPieces (layout : Layout) (depth : Nat) : (e : Expression) →
    Yields (expressionPieces layout e depth) fun ps => Bare ps ↔ exposes e
  | .identifier _ | .literal _ | .this => yields_pure (by simp [exposes])
  | .array _ | .arrayPattern _ | .object _ | .objectPattern _ =>
    yields_bind _ fun _ => yields_pure (by simp [exposes])
  | .function ⟨_, _, _, _, _⟩ | .arrow _ (.block _) _ _ =>
    yields_bind _ fun _ => yields_bind _ fun _ => yields_pure (by simp [exposes])
  | .arrow _ (.expression e) _ _ =>
    yields_bind _ fun _ => (bare_expressionPieces layout depth e).bind fun ps he =>
      yields_pure <| by
        cases ha : startsAmbiguously e <;> simp [exposes, ha, bare_placed he]
  | .unary _ _ argument =>
    (bare_expressionPieces layout depth argument).bind fun ps ha =>
      yields_pure <| by simp [exposes, not_bare_placed ha (by decide : _ < unaryLevel)]
  | .update _ leading argument =>
    (bare_expressionPieces layout depth argument).bind fun ps ha => yields_pure <| by
      cases leading <;> simp [exposes, not_bare_placed ha (by decide : _ < unaryLevel),
        not_bare_placed ha (by decide : _ < callLevel)]
  | .binary op left right =>
    (bare_expressionPieces layout depth left).bind fun l hl =>
      (bare_expressionPieces layout depth right).bind fun r hr => yields_pure <| by
        simp [exposes, bare_placed hl, bare_placed hr, or_left_comm, or_assoc]
  | .logical op left right =>
    (bare_expressionPieces layout depth left).bind fun l hl =>
      (bare_expressionPieces layout depth right).bind fun r hr => yields_pure <| by
        simp [exposes, bare_placed hl, bare_placed hr]
  | .assignment _ target value =>
    (bare_expressionPieces layout depth target).bind fun t ht =>
      (bare_expressionPieces layout depth value).bind fun v hv => yields_pure <| by
        simp [exposes, not_bare_placed ht (by decide : _ < callLevel), bare_placed hv]
  | .assignmentPattern target fallback =>
    (bare_expressionPieces layout depth target).bind fun t ht =>
      (bare_expressionPieces layout depth fallback).bind fun v hv => yields_pure <| by
        simp [exposes, not_bare_placed ht (by decide : _ < callLevel), bare_placed hv]
  | .conditional test consequent alternate =>
    (bare_expressionPieces layout depth test).bind fun t ht =>
      (bare_expressionPieces layout depth consequent).bind fun c hc =>
        (bare_expressionPieces layout depth alternate).bind fun a ha => yields_pure <| by
          simp [exposes, bare_placed ht, bare_placed hc, bare_placed ha, or_assoc]
  | .call callee _ _ =>
    (bare_expressionPieces layout depth callee).bind fun c hc => yields_bind _ fun _ =>
      yields_pure <| by simp [exposes, not_bare_placed hc (by decide : _ < callLevel)]
  | .new callee _ =>
    (bare_expressionPieces layout depth callee).bind fun c hc => yields_bind _ fun _ =>
      yields_pure <| by
        cases hn : containsCall callee <;>
          simp [exposes, not_bare_placed hc (by decide : _ < memberLevel)]
  | .member object property computed optional =>
    (bare_expressionPieces layout depth object).bind fun o ho =>
      (bare_expressionPieces layout depth property).bind fun p hp => yields_pure <| by
        have hobject := not_bare_placed ho (by decide : _ < callLevel)
        have hproperty := not_bare_placed hp (by decide : _ < primaryLevel)
        cases computed <;> cases isBareInteger object <;> simp [exposes, hobject, hproperty]
  | .sequence expressions => bare_listPieces layout depth expressions
  | .template quasis _ =>
    yields_bind _ fun texts => yields_pure <| by
      simp [exposes, not_bare_templatePieces quasis texts]
  | .tagged tag quasi =>
    (bare_expressionPieces layout depth tag).bind fun t ht =>
      (bare_expressionPieces layout depth quasi).bind fun q hq => yields_pure <| by
        simp [exposes, not_bare_placed ht (by decide : _ < callLevel),
          not_bare_placed hq (by decide : _ < primaryLevel)]
  | .spread argument | .rest argument =>
    (bare_expressionPieces layout depth argument).bind fun ps ha =>
      yields_pure <| by simp [exposes, bare_placed ha]
  | .foreign _ => fun _ h => nomatch h
termination_by structural e => e

/-- A list shows an `in` if one of its items does. -/
theorem bare_listPieces (layout : Layout) (depth : Nat) : (es : List Expression) →
    Yields (listPieces layout es depth) fun ps => Bare ps ↔ exposesOne es
  | [] => yields_pure (by simp [exposesOne])
  | e :: rest =>
    (bare_expressionPieces layout depth e).bind fun ps he =>
      (bare_listPieces layout depth rest).bind fun more hr => yields_pure <| by
        simp [exposesOne, bare_placed he, hr]
termination_by structural es => es
end

section Init

variable (layout : Layout)

def initialPieces : Option Expression → Nat → Except Unsupported (List Piece)
  | none, _ => return []
  | some e, depth => do
    return .plain " = " :: placed assignLevel e (← expressionPieces layout e depth)

def declaratorsPieces : List Declarator → Nat → Except Unsupported (List Piece)
  | [], _ => return []
  | ⟨target, init⟩ :: rest, depth => do
    let t ← expressionPieces layout target depth
    let i ← initialPieces layout init depth
    let more ← declaratorsPieces rest depth
    return placed assignLevel target t ++ i ++ .plain (if rest.isEmpty then "" else ", ") :: more

def initPieces : Option LoopHead → Nat → Except Unsupported (List Piece)
  | none, _ => return []
  | some (.declaration ⟨declarators, kind⟩), depth => do
    return .plain (kind.text ++ " ") :: (← declaratorsPieces layout declarators depth)
  | some (.expression e), depth => do
    let ps ← expressionPieces layout e depth
    return match e with
      | .binary .inside _ _ => [.enclosed .round (joined ps)]
      | _ => ps

end Init

theorem joined_initialPieces (init : Option Expression) (depth : Nat) :
    joined <$> initialPieces layout init depth = initialText layout init depth := by
  cases init with
  | none => simp [initialPieces, initialText]
  | some e => simp [initialPieces, initialText, ← joined_expressionPieces e depth]

theorem joined_declaratorsPieces (ds : List Declarator) (depth : Nat) :
    joined <$> declaratorsPieces layout ds depth = declaratorsText layout ds depth := by
  induction ds with
  | nil => simp [declaratorsPieces, declaratorsText]
  | cons d rest ih =>
    obtain ⟨target, init⟩ := d
    simp [declaratorsPieces, declaratorsText, ← ih, ← joined_initialPieces init depth,
      ← joined_expressionPieces target depth, String.append_assoc]

theorem joined_initPieces (init : Option LoopHead) (depth : Nat) :
    joined <$> initPieces layout init depth = initText layout init depth := by
  cases init with
  | none => simp [initPieces, initText]
  | some head =>
    cases head with
    | declaration d =>
      obtain ⟨declarators, kind⟩ := d
      simp [initPieces, initText, declarationText, ← joined_declaratorsPieces declarators depth]
    | expression e =>
      simp only [initPieces, initText, ← joined_expressionPieces e depth, map_bind, bind_map_left,
        map_pure]
      split <;> simp

/-- A variable whose pattern or initial value exposes an `in`. -/
def declaratorExposes (d : Declarator) : Bool :=
  (stays assignLevel d.target && exposes d.target)
    || d.init.any fun e => stays assignLevel e && exposes e

/-- Can an `in` be reached from the outside of a first clause? Only as the outermost operator it is
kept in parentheses. -/
def initExposes : Option LoopHead → Bool
  | none => false
  | some (.declaration d) => d.declarators.any declaratorExposes
  | some (.expression (.binary .inside _ _)) => false
  | some (.expression e) => exposes e

theorem bare_initialPieces (layout : Layout) (init : Option Expression) (depth : Nat) :
    Yields (initialPieces layout init depth) fun ps =>
      Bare ps ↔ init.any fun e => stays assignLevel e && exposes e := by
  cases init with
  | none => exact yields_pure (by simp)
  | some e =>
    exact (bare_expressionPieces layout depth e).bind fun ps he =>
      yields_pure (by simp [bare_placed he])

/-- Some pattern or initial value shows the `in` of the declarators. -/
theorem bare_declaratorsPieces (layout : Layout) (ds : List Declarator) (depth : Nat) :
    Yields (declaratorsPieces layout ds depth) fun ps => Bare ps ↔ ds.any declaratorExposes := by
  induction ds with
  | nil => exact yields_pure (by simp)
  | cons d rest ih =>
    obtain ⟨target, init⟩ := d
    refine (bare_expressionPieces layout depth target).bind fun t ht =>
      (bare_initialPieces layout init depth).bind fun i hi => ih.bind fun more hm => yields_pure ?_
    simp only [bare_append, bare_cons, bare_placed ht, hi, hm, List.any_cons, declaratorExposes,
      Bool.or_eq_true, reduceCtorEq, false_or]

/-- The first clause has an `in` outside of brackets exactly where it exposes one. -/
theorem bare_initPieces (layout : Layout) (init : Option LoopHead) (depth : Nat) :
    Yields (initPieces layout init depth) fun ps => Bare ps ↔ initExposes init := by
  cases init with
  | none => exact yields_pure (by simp [initExposes])
  | some head =>
    cases head with
    | declaration d =>
      obtain ⟨declarators, kind⟩ := d
      exact (bare_declaratorsPieces layout declarators depth).bind fun ps hd =>
        yields_pure (by simp [initExposes, hd])
    | expression e =>
      refine (bare_expressionPieces layout depth e).bind fun ps he => yields_pure ?_
      split
      · simp [initExposes]
      · next hne => rw [he, initExposes.eq_4 _ hne]

theorem clause_eq (t : Option String) : ∃ rest, clause t = ";" ++ rest := by
  cases t with
  | none => exact ⟨"", rfl⟩
  | some text => exact ⟨" " ++ text, by rw [← String.append_assoc]; rfl⟩

/-- In the text between the parenthesis of a `for` and its first semicolon, an `in` stands outside
of all brackets exactly if the first clause exposes one. -/
theorem forLoop_bare_iff {layout : Layout} {init : Option LoopHead}
    {test update : Option Expression} {body : Statement} {depth : Nat} (text : String)
    (h : statementText layout (.forLoop init test update body) depth = .ok text) :
    ∃ ps rest, initPieces layout init depth = .ok ps ∧ text = "for (" ++ joined ps ++ ";" ++ rest
      ∧ (Bare ps ↔ initExposes init) := by
  revert text
  rw [statementText, ← joined_initPieces, bind_map_left]
  refine Yields.bind (yields_ok _) fun ps hps => yields_bind _ fun t => yields_bind _ fun u =>
    yields_bind _ fun b => yields_pure ?_
  obtain ⟨rest, hrest⟩ := clause_eq t
  refine ⟨ps, rest ++ clause u ++ ") " ++ b, hps, ?_, bare_initPieces layout init depth ps hps⟩
  simp only [hrest, String.append_assoc]

/-- `for (var x = a in b;;)`: the initial value of a variable is not put in parentheses. -/
def keyedLoop : Statement :=
  .forLoop (some (.declaration
    ⟨[⟨.identifier "x", some (.binary .inside (.identifier "a") (.identifier "b"))⟩], .var⟩))
    none none (.block [])

/-- The `in` of an initial value stands in no brackets. -/
theorem keyedLoop_bare :
    statementText {} keyedLoop 0 = .ok "for (var x = a in b;;) \x7b\x7d"
      ∧ ∃ ps rest, "for (var x = a in b;;) \x7b\x7d" = "for (" ++ joined ps ++ ";" ++ rest
        ∧ Bare ps := by
  have ht : statementText {} keyedLoop 0 = .ok "for (var x = a in b;;) \x7b\x7d" := by rfl
  obtain ⟨ps, rest, -, hs, hb⟩ := forLoop_bare_iff _ ht
  exact ⟨ht, ps, rest, hs, hb.2 (by decide)⟩

end Untangle.Printer
