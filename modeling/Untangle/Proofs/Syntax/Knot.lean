import Untangle.Proofs.Syntax.Reread
import Untangle.Syntax.Equality

/-!
# Knots

The body of an arrow function that is an arrow function again, whose body in
turn is a foreign list, reads again as a block with that list for its
statements. This is a knot, and the only place where the JSON of a tree loses
what it was written for: a tree with a knot is not the same when it is read
again.
-/
namespace Untangle

def ArrowBody.isKnot : ArrowBody → Bool
  | .expression (.arrow _ (.expression (.foreign (.array _))) _ _) => true
  | _ => false

mutual
/-- Is there a knot anywhere in the tree? -/
def Expression.knotted : Expression → Bool
  | .array es => knottedElements es
  | .object ms => knottedMembers ms
  | .function f => f.knotted
  | .arrow params body _ _ => body.isKnot || knottedExpressions params || body.knotted
  | .unary _ _ e => e.knotted
  | .update _ _ e => e.knotted
  | .binary _ l r => l.knotted || r.knotted
  | .logical _ l r => l.knotted || r.knotted
  | .assignment _ l r => l.knotted || r.knotted
  | .conditional t c a => t.knotted || c.knotted || a.knotted
  | .call callee es _ => callee.knotted || knottedExpressions es
  | .new callee es => callee.knotted || knottedExpressions es
  | .member o p _ _ => o.knotted || p.knotted
  | .sequence es => knottedExpressions es
  | .template _ es => knottedExpressions es
  | .tagged tag quasi => tag.knotted || quasi.knotted
  | .spread e => e.knotted
  | .assignmentPattern l r => l.knotted || r.knotted
  | .arrayPattern es => knottedElements es
  | .objectPattern ms => knottedMembers ms
  | .rest e => e.knotted
  | _ => false
termination_by structural e => e

def knottedExpressions : List Expression → Bool
  | [] => false
  | e :: rest => e.knotted || knottedExpressions rest
termination_by structural l => l

def knottedOption : Option Expression → Bool
  | none => false
  | some e => e.knotted
termination_by structural e => e

def knottedElements : List (Option Expression) → Bool
  | [] => false
  | e :: rest => knottedOption e || knottedElements rest
termination_by structural l => l

def Member.knotted : Member → Bool
  | .property key value _ _ _ _ => key.knotted || value.knotted
  | .spread e => e.knotted
  | .rest e => e.knotted
  | .foreign _ => false
termination_by structural m => m

def knottedMembers : List Member → Bool
  | [] => false
  | m :: rest => m.knotted || knottedMembers rest
termination_by structural l => l

def Function.knotted : Function → Bool
  | ⟨_, params, body, _, _⟩ => knottedExpressions params || knottedStatements body
termination_by structural f => f

def ArrowBody.knotted : ArrowBody → Bool
  | .block body => knottedStatements body
  | .expression e => e.knotted
termination_by structural b => b

def Statement.knotted : Statement → Bool
  | .expression e _ => e.knotted
  | .block body => knottedStatements body
  | .returns argument => knottedOption argument
  | .labeled _ body => body.knotted
  | .branch test consequent alternate =>
    test.knotted || consequent.knotted || knottedAlternate alternate
  | .switch discriminant cases => discriminant.knotted || knottedCases cases
  | .throws argument => argument.knotted
  | .attempt body handler finalizer =>
    knottedStatements body || knottedHandler handler || knottedFinalizer finalizer
  | .whileLoop test body => test.knotted || body.knotted
  | .doWhile body test => body.knotted || test.knotted
  | .forLoop init test update body =>
    knottedInit init || knottedOption test || knottedOption update || body.knotted
  | .forIn left right body => left.knotted || right.knotted || body.knotted
  | .forOf left right body _ => left.knotted || right.knotted || body.knotted
  | .function f => f.knotted
  | .declaration d => d.knotted
  | _ => false
termination_by structural s => s

def knottedStatements : List Statement → Bool
  | [] => false
  | s :: rest => s.knotted || knottedStatements rest
termination_by structural l => l

def knottedAlternate : Option Statement → Bool
  | none => false
  | some s => s.knotted
termination_by structural s => s

def knottedFinalizer : Option (List Statement) → Bool
  | none => false
  | some body => knottedStatements body
termination_by structural b => b

def knottedCases : List Case → Bool
  | [] => false
  | ⟨test, consequent⟩ :: rest =>
    knottedOption test || knottedStatements consequent || knottedCases rest
termination_by structural l => l

def knottedHandler : Option Handler → Bool
  | none => false
  | some ⟨param, body⟩ => knottedOption param || knottedStatements body
termination_by structural h => h

def Declaration.knotted : Declaration → Bool
  | ⟨declarators, _⟩ => knottedDeclarators declarators
termination_by structural d => d

def knottedDeclarators : List Declarator → Bool
  | [] => false
  | ⟨target, init⟩ :: rest => target.knotted || knottedOption init || knottedDeclarators rest
termination_by structural l => l

def LoopHead.knotted : LoopHead → Bool
  | .declaration d => d.knotted
  | .expression e => e.knotted
termination_by structural h => h

def knottedInit : Option LoopHead → Bool
  | none => false
  | some h => h.knotted
termination_by structural h => h
end

def Program.knotted (p : Program) : Bool := knottedStatements p.body

theorem Reading.arrowBody_ofJson (v : Json) :
    (ofJson v).arrowBody
      = ((ofJson v).block.map .block).getD (.expression (ofJson v).expression) := by
  cases v <;> rfl

/-- The block of an arrow function reads as a block. -/
theorem ArrowBody.reread_block (body : List Statement) :
    reread (.block body) = .block (body.map Statement.reread) := by
  rw [reread, again, Reading.arrowBody_ofJson]
  have h := again_blockJson body
  rw [again] at h
  rw [arrowBodyJson, h]
  rfl

/-- An expression behind an arrow reads as a block if its JSON has a list as its body. -/
theorem ArrowBody.reread_expression (e : Expression) :
    reread (.expression e) = ((again e.toJson).block.map .block).getD (.expression e.reread) :=
  Reading.arrowBody_ofJson _

theorem LoopHead.reread_declaration (d : Declaration) :
    reread (.declaration d) = .declaration d.reread := by
  obtain ⟨ds, kind⟩ := d
  have hk : (Spelled.ofText? StatementKind.declaration.text : Option HeadKind)
      = some .declaration := rfl
  simp [reread, headJson, declarationJson, nodeJson, again_object, Reading.ofParts,
    headDeclaration?, tagged?_node, hk, declaration_ofParts?]

/-- A head is a declaration or the expression that the value reads as. -/
theorem Reading.loopHead_ofJson (v : Json) :
    (∃ d, (ofJson v).loopHead = .declaration d) ∨
      (ofJson v).loopHead = .expression (ofJson v).expression := by
  have hparts : ∀ parts : Parts, (∃ d, (ofParts v parts).loopHead = .declaration d) ∨
      (ofParts v parts).loopHead = .expression (ofParts v parts).expression := by
    intro parts
    simp only [ofParts]
    cases headDeclaration? parts with
    | none => exact .inr rfl
    | some d => exact .inl ⟨d, rfl⟩
  cases v with
  | array items => exact hparts _
  | object members => exact hparts _
  | _ => exact .inr rfl

/-- What is the same after reading was not lost. -/
theorem same_rereadIf {α : Type} {write : α → Json} {read : Reading → α} {same : α → α → Bool}
    {sameOption : Option α → Option α → Bool} {a : α}
    (hnone : sameOption none (some a) = false)
    (hsome : ∀ b, sameOption (some b) (some a) = same b a)
    (h : sameOption (rereadIf write read (some a)) (some a)) : same (read (again (write a))) a := by
  simp only [rereadIf, Option.bind_some] at h
  split at h
  · rw [hnone] at h
    cases h
  · rwa [hsome] at h

/-- The inner arrow of a knot has a list as its body, so it reads as a block. -/
theorem block_of_isKnot {e : Expression} (h : (ArrowBody.expression e).isKnot) :
    ∃ body, (again e.toJson).block = some body := by
  unfold ArrowBody.isKnot at h
  split at h
  · next params items concise async he =>
    cases he
    refine ⟨items.map fun v => (again v).statement, ?_⟩
    simp [Expression.toJson, arrowBodyJson, nodeJson, again_object, Reading.ofParts, blockOfParts?,
      Fields.required, guard, Json.lookup_member, again_statements]
  · cases h

/-- The body of an arrow function that reads as the same expression is no knot. -/
theorem ArrowBody.same_expression {e : Expression}
    (h : (reread (.expression e)).same (.expression e)) :
    (ArrowBody.expression e).isKnot = false ∧ e.reread.same e := by
  rw [reread_expression] at h
  cases hb : (again e.toJson).block with
  | none =>
    rw [hb] at h
    refine ⟨?_, h⟩
    rw [Bool.eq_false_iff]
    intro hk
    obtain ⟨body, hbody⟩ := block_of_isKnot hk
    cases hb.symm.trans hbody
  | some body =>
    rw [hb] at h
    cases h

theorem LoopHead.same_expression {e : Expression}
    (h : (reread (.expression e)).same (.expression e)) : e.reread.same e := by
  rcases Reading.loopHead_ofJson e.toJson.normal with ⟨d, hd⟩ | he
  · rw [reread, headJson, again, hd] at h
    cases h
  · rw [reread, headJson, again, he] at h
    exact h

mutual
/-- A tree that is the same when read again has no knot. The induction goes over all kinds of nodes
at once. -/
theorem Expression.unknotted_of_same : ∀ e : Expression, e.reread.same e → e.knotted = false
  | .identifier _, _ | .literal _, _ | .this, _ | .foreign _, _ => rfl
  | .array es, h => by
    rw [Expression.reread_eq] at h
    exact elements_unknotted es h
  | .object ms, h => by
    rw [Expression.reread_eq] at h
    exact members_unknotted ms h
  | .function f, h => by
    rw [Expression.reread_eq] at h
    exact Function.unknotted_of_same f h
  | .arrow params body _ _, h => by
    rw [Expression.reread_eq] at h
    simp only [Expression.rereadParts, Expression.same, Bool.and_eq_true] at h
    simp [Expression.knotted, expressions_unknotted params h.1.1.1,
      ArrowBody.unknotted_of_same body h.1.1.2]
  | .unary _ _ e, h => by
    rw [Expression.reread_eq] at h
    simp only [Expression.rereadParts, Expression.same, Bool.and_eq_true] at h
    exact Expression.unknotted_of_same e h.2
  | .update _ _ e, h => by
    rw [Expression.reread_eq] at h
    simp only [Expression.rereadParts, Expression.same, Bool.and_eq_true] at h
    exact Expression.unknotted_of_same e h.2
  | .binary _ l r, h => by
    rw [Expression.reread_eq] at h
    simp only [Expression.rereadParts, Expression.same, Bool.and_eq_true] at h
    simp [Expression.knotted, Expression.unknotted_of_same l h.1.2,
      Expression.unknotted_of_same r h.2]
  | .logical _ l r, h => by
    rw [Expression.reread_eq] at h
    simp only [Expression.rereadParts, Expression.same, Bool.and_eq_true] at h
    simp [Expression.knotted, Expression.unknotted_of_same l h.1.2,
      Expression.unknotted_of_same r h.2]
  | .assignment _ l r, h => by
    rw [Expression.reread_eq] at h
    simp only [Expression.rereadParts, Expression.same, Bool.and_eq_true] at h
    simp [Expression.knotted, Expression.unknotted_of_same l h.1.2,
      Expression.unknotted_of_same r h.2]
  | .conditional t c a, h => by
    rw [Expression.reread_eq] at h
    simp only [Expression.rereadParts, Expression.same, Bool.and_eq_true] at h
    simp [Expression.knotted, Expression.unknotted_of_same t h.1.1,
      Expression.unknotted_of_same c h.1.2, Expression.unknotted_of_same a h.2]
  | .call callee es _, h => by
    rw [Expression.reread_eq] at h
    simp only [Expression.rereadParts, Expression.same, Bool.and_eq_true] at h
    simp [Expression.knotted, Expression.unknotted_of_same callee h.1.1,
      expressions_unknotted es h.1.2]
  | .new callee es, h => by
    rw [Expression.reread_eq] at h
    simp only [Expression.rereadParts, Expression.same, Bool.and_eq_true] at h
    simp [Expression.knotted, Expression.unknotted_of_same callee h.1,
      expressions_unknotted es h.2]
  | .member o p _ _, h => by
    rw [Expression.reread_eq] at h
    simp only [Expression.rereadParts, Expression.same, Bool.and_eq_true] at h
    simp [Expression.knotted, Expression.unknotted_of_same o h.1.1.1,
      Expression.unknotted_of_same p h.1.1.2]
  | .sequence es, h => by
    rw [Expression.reread_eq] at h
    exact expressions_unknotted es h
  | .template _ es, h => by
    rw [Expression.reread_eq] at h
    simp only [Expression.rereadParts, Expression.same, Bool.and_eq_true] at h
    exact expressions_unknotted es h.2
  | .tagged t q, h => by
    rw [Expression.reread_eq] at h
    simp only [Expression.rereadParts, Expression.same, Bool.and_eq_true] at h
    simp [Expression.knotted, Expression.unknotted_of_same t h.1,
      Expression.unknotted_of_same q h.2]
  | .spread e, h => by
    rw [Expression.reread_eq] at h
    exact Expression.unknotted_of_same e h
  | .assignmentPattern l r, h => by
    rw [Expression.reread_eq] at h
    simp only [Expression.rereadParts, Expression.same, Bool.and_eq_true] at h
    simp [Expression.knotted, Expression.unknotted_of_same l h.1,
      Expression.unknotted_of_same r h.2]
  | .arrayPattern es, h => by
    rw [Expression.reread_eq] at h
    exact elements_unknotted es h
  | .objectPattern ms, h => by
    rw [Expression.reread_eq] at h
    exact members_unknotted ms h
  | .rest e, h => by
    rw [Expression.reread_eq] at h
    exact Expression.unknotted_of_same e h
termination_by structural e => e

theorem expressions_unknotted : ∀ es : List Expression,
    sameExpressions (es.map Expression.reread) es → knottedExpressions es = false
  | [], _ => rfl
  | e :: es, h => by
    simp only [List.map_cons, sameExpressions, Bool.and_eq_true] at h
    simp [knottedExpressions, Expression.unknotted_of_same e h.1, expressions_unknotted es h.2]
termination_by structural l => l

theorem option_unknotted : ∀ x : Option Expression,
    sameExpression? (rereadOption x) x → knottedOption x = false
  | none, _ => rfl
  | some e, h => Expression.unknotted_of_same e (same_rereadIf rfl (fun _ => rfl) h)
termination_by structural x => x

theorem elements_unknotted : ∀ es : List (Option Expression),
    sameElements (es.map rereadOption) es → knottedElements es = false
  | [], _ => rfl
  | e :: es, h => by
    simp only [List.map_cons, sameElements, Bool.and_eq_true] at h
    simp [knottedElements, option_unknotted e h.1, elements_unknotted es h.2]
termination_by structural l => l

theorem Member.unknotted_of_same : ∀ m : Member, m.reread.same m → m.knotted = false
  | .foreign _, _ => rfl
  | .property key value _ _ _ _, h => by
    rw [Member.reread_eq] at h
    simp only [Member.rereadParts, Member.same, Bool.and_eq_true] at h
    simp [Member.knotted, Expression.unknotted_of_same key h.1.1.1.1.1,
      Expression.unknotted_of_same value h.1.1.1.1.2]
  | .spread e, h => by
    rw [Member.reread_eq] at h
    exact Expression.unknotted_of_same e h
  | .rest e, h => by
    rw [Member.reread_eq] at h
    exact Expression.unknotted_of_same e h
termination_by structural m => m

theorem members_unknotted : ∀ ms : List Member,
    sameMembers (ms.map Member.reread) ms → knottedMembers ms = false
  | [], _ => rfl
  | m :: ms, h => by
    simp only [List.map_cons, sameMembers, Bool.and_eq_true] at h
    simp [knottedMembers, Member.unknotted_of_same m h.1, members_unknotted ms h.2]
termination_by structural l => l

theorem Function.unknotted_of_same : ∀ f : Function, f.reread.same f → f.knotted = false
  | ⟨_, params, body, _, _⟩, h => by
    simp only [Function.reread, Function.same, Bool.and_eq_true] at h
    simp [Function.knotted, expressions_unknotted params h.1.1.1.2,
      statements_unknotted body h.1.1.2]
termination_by structural f => f

/-- The body of an arrow function that is the same when read again neither has a knot nor is one. -/
theorem ArrowBody.unknotted_of_same : ∀ b : ArrowBody,
    b.reread.same b → b.isKnot = false ∧ b.knotted = false
  | .block body, h => by
    rw [ArrowBody.reread_block] at h
    exact ⟨rfl, statements_unknotted body h⟩
  | .expression e, h => by
    have hs := ArrowBody.same_expression h
    exact ⟨hs.1, Expression.unknotted_of_same e hs.2⟩
termination_by structural b => b

theorem Statement.unknotted_of_same : ∀ s : Statement, s.reread.same s → s.knotted = false
  | .empty, _ | .debugger, _ | .breaks _, _ | .continues _, _ | .foreign _, _ => rfl
  | .expression e _, h => by
    rw [Statement.reread_eq] at h
    simp only [Statement.rereadParts, Statement.same, Bool.and_eq_true] at h
    exact Expression.unknotted_of_same e h.1
  | .block body, h => by
    rw [Statement.reread_eq] at h
    exact statements_unknotted body h
  | .returns x, h => by
    rw [Statement.reread_eq] at h
    exact option_unknotted x h
  | .labeled _ body, h => by
    rw [Statement.reread_eq] at h
    simp only [Statement.rereadParts, Statement.same, Bool.and_eq_true] at h
    exact Statement.unknotted_of_same body h.2
  | .branch t c a, h => by
    rw [Statement.reread_eq] at h
    simp only [Statement.rereadParts, Statement.same, Bool.and_eq_true] at h
    simp [Statement.knotted, Expression.unknotted_of_same t h.1.1,
      Statement.unknotted_of_same c h.1.2, alternate_unknotted a h.2]
  | .switch d cs, h => by
    rw [Statement.reread_eq] at h
    simp only [Statement.rereadParts, Statement.same, Bool.and_eq_true] at h
    simp [Statement.knotted, Expression.unknotted_of_same d h.1, cases_unknotted cs h.2]
  | .throws e, h => by
    rw [Statement.reread_eq] at h
    exact Expression.unknotted_of_same e h
  | .attempt body handler finalizer, h => by
    rw [Statement.reread_eq] at h
    simp only [Statement.rereadParts, Statement.same, Bool.and_eq_true] at h
    simp [Statement.knotted, statements_unknotted body h.1.1, handler_unknotted handler h.1.2,
      finalizer_unknotted finalizer h.2]
  | .whileLoop t b, h => by
    rw [Statement.reread_eq] at h
    simp only [Statement.rereadParts, Statement.same, Bool.and_eq_true] at h
    simp [Statement.knotted, Expression.unknotted_of_same t h.1, Statement.unknotted_of_same b h.2]
  | .doWhile b t, h => by
    rw [Statement.reread_eq] at h
    simp only [Statement.rereadParts, Statement.same, Bool.and_eq_true] at h
    simp [Statement.knotted, Statement.unknotted_of_same b h.1, Expression.unknotted_of_same t h.2]
  | .forLoop i t u b, h => by
    rw [Statement.reread_eq] at h
    simp only [Statement.rereadParts, Statement.same, Bool.and_eq_true] at h
    simp [Statement.knotted, init_unknotted i h.1.1.1, option_unknotted t h.1.1.2,
      option_unknotted u h.1.2, Statement.unknotted_of_same b h.2]
  | .forIn l r b, h => by
    rw [Statement.reread_eq] at h
    simp only [Statement.rereadParts, Statement.same, Bool.and_eq_true] at h
    simp [Statement.knotted, LoopHead.unknotted_of_same l h.1.1,
      Expression.unknotted_of_same r h.1.2, Statement.unknotted_of_same b h.2]
  | .forOf l r b _, h => by
    rw [Statement.reread_eq] at h
    simp only [Statement.rereadParts, Statement.same, Bool.and_eq_true] at h
    simp [Statement.knotted, LoopHead.unknotted_of_same l h.1.1.1,
      Expression.unknotted_of_same r h.1.1.2, Statement.unknotted_of_same b h.1.2]
  | .function f, h => by
    rw [Statement.reread_eq] at h
    exact Function.unknotted_of_same f h
  | .declaration d, h => by
    rw [Statement.reread_eq] at h
    exact Declaration.unknotted_of_same d h
termination_by structural s => s

theorem statements_unknotted : ∀ ss : List Statement,
    sameStatements (ss.map Statement.reread) ss → knottedStatements ss = false
  | [], _ => rfl
  | s :: ss, h => by
    simp only [List.map_cons, sameStatements, Bool.and_eq_true] at h
    simp [knottedStatements, Statement.unknotted_of_same s h.1, statements_unknotted ss h.2]
termination_by structural l => l

theorem alternate_unknotted : ∀ x : Option Statement,
    sameStatement? (rereadIf Statement.toJson Reading.statement x) x → knottedAlternate x = false
  | none, _ => rfl
  | some s, h => Statement.unknotted_of_same s (same_rereadIf rfl (fun _ => rfl) h)
termination_by structural x => x

theorem finalizer_unknotted : ∀ x : Option (List Statement),
    sameBlock? (x.map (List.map Statement.reread)) x → knottedFinalizer x = false
  | none, _ => rfl
  | some body, h => statements_unknotted body h
termination_by structural x => x

theorem cases_unknotted : ∀ cs : List Case,
    sameCases (cs.map Case.reread) cs → knottedCases cs = false
  | [], _ => rfl
  | ⟨test, consequent⟩ :: cs, h => by
    simp only [List.map_cons, Case.reread, sameCases, Bool.and_eq_true] at h
    simp [knottedCases, option_unknotted test h.1.1, statements_unknotted consequent h.1.2,
      cases_unknotted cs h.2]
termination_by structural l => l

theorem handler_unknotted : ∀ x : Option Handler,
    sameHandler? (x.map Handler.reread) x → knottedHandler x = false
  | none, _ => rfl
  | some ⟨param, body⟩, h => by
    simp only [Option.map_some, Handler.reread, sameHandler?, Bool.and_eq_true] at h
    simp [knottedHandler, option_unknotted param h.1, statements_unknotted body h.2]
termination_by structural x => x

theorem Declaration.unknotted_of_same : ∀ d : Declaration, d.reread.same d → d.knotted = false
  | ⟨ds, _⟩, h => by
    simp only [Declaration.reread, Declaration.same, Bool.and_eq_true] at h
    exact declarators_unknotted ds h.1
termination_by structural d => d

theorem declarators_unknotted : ∀ ds : List Declarator,
    sameDeclarators (ds.map Declarator.reread) ds → knottedDeclarators ds = false
  | [], _ => rfl
  | ⟨target, init⟩ :: ds, h => by
    simp only [List.map_cons, Declarator.reread, sameDeclarators, Bool.and_eq_true] at h
    simp [knottedDeclarators, Expression.unknotted_of_same target h.1.1,
      option_unknotted init h.1.2, declarators_unknotted ds h.2]
termination_by structural l => l

theorem LoopHead.unknotted_of_same : ∀ h : LoopHead, h.reread.same h → h.knotted = false
  | .declaration d, h => by
    rw [LoopHead.reread_declaration] at h
    exact Declaration.unknotted_of_same d h
  | .expression e, h => Expression.unknotted_of_same e (LoopHead.same_expression h)
termination_by structural h => h

theorem init_unknotted : ∀ x : Option LoopHead,
    sameHead? (rereadIf headJson Reading.loopHead x) x → knottedInit x = false
  | none, _ => rfl
  | some l, h => LoopHead.unknotted_of_same l (same_rereadIf rfl (fun _ => rfl) h)
termination_by structural x => x
end

end Untangle
