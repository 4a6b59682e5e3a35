import Untangle.Proofs.Json.RoundTrip
import Untangle.Syntax.Equality
import Untangle.Syntax.Writer

/-!
# Trees are the same as themselves

Only a NaN differs from itself. A number that reads back from its text is none,
so a tree is the same as itself if the numbers in its JSON do.
-/
namespace Untangle

namespace Json

theorem same_of_legible {x : Binary64} (h : read (doubleText x) = .ok (.double x)) : x.same x := by
  cases x with
  | finite negative m e => simp [Binary64.same]
  | infinite negative => simp [Binary64.same]
  | nan =>
    have hn : read "null" = .ok .null := rfl
    cases hn.symm.trans h

mutual
/-- A value is the same as itself if its numbers read back. -/
theorem same_self : ∀ v : Json, v.Legible → v.same v
  | .null, _ => rfl
  | .boolean _, _ => by simp [same]
  | .integer _, _ => by simp [same]
  | .double _, h => same_of_legible h
  | .string _, _ => by simp [same]
  | .array items, h => sameItems_self items h
  | .object members, h => sameMembers_self members h
termination_by structural v => v
theorem sameItems_self : ∀ items : List Json, LegibleItems items → sameItems items items
  | [], _ => rfl
  | v :: items, h => by simp [sameItems, same_self v h.1, sameItems_self items h.2]
termination_by structural l => l
theorem sameMembers_self : ∀ members : List (String × Json), LegibleMembers members →
    sameMembers members members
  | [], _ => rfl
  | (_, v) :: members, h => by simp [sameMembers, same_self v h.1, sameMembers_self members h.2]
termination_by structural l => l
end

@[simp] theorem legible_node (kind : String) (fields : List (String × Json)) :
    (nodeJson kind fields).Legible ↔ LegibleMembers fields := by
  simp [nodeJson, Legible, LegibleMembers]

theorem legible_block {body : List Json} : (blockJson body).Legible ↔ LegibleItems body := by
  simp [blockJson, LegibleMembers, Legible]

end Json

open Json (Legible LegibleItems LegibleMembers)

theorem Literal.same_self (l : Literal) (h : l.value.toJson.Legible) : l.same l := by
  have hv : l.value.same l.value := by
    cases hl : l.value with
    | number x =>
      rw [hl] at h
      exact Json.same_of_legible h
    | foreign v =>
      rw [hl] at h
      exact Json.same_self v h
    | _ => simp [LiteralValue.same]
  simp [Literal.same, hv]

mutual
/-- An expression is the same as itself if the numbers in its JSON read back. The induction goes
over all kinds of nodes at once. -/
theorem Expression.same_self : ∀ e : Expression, e.toJson.Legible → e.same e
  | .identifier _, _ => by simp [Expression.same]
  | .literal l, h => by
    simp only [Expression.toJson, Literal.fields, Json.legible_node] at h
    exact l.same_self h.1
  | .this, _ => rfl
  | .array es, h => by
    simp only [Expression.toJson, Json.legible_node] at h
    exact sameElements_self es h.1
  | .object ms, h => by
    simp only [Expression.toJson, Json.legible_node] at h
    exact sameMembers_self ms h.1
  | .function f, h => by
    simp only [Expression.toJson, Json.legible_node] at h
    exact f.same_self h
  | .arrow params body _ _, h => by
    simp only [Expression.toJson, Json.legible_node] at h
    obtain ⟨hp, hb, -⟩ := h
    simp [Expression.same, sameExpressions_self params hp, body.same_self hb]
  | .unary _ _ e, h => by
    simp only [Expression.toJson, Json.legible_node] at h
    obtain ⟨-, -, he, -⟩ := h
    simp [Expression.same, Expression.same_self e he]
  | .update _ _ e, h => by
    simp only [Expression.toJson, Json.legible_node] at h
    obtain ⟨-, -, he, -⟩ := h
    simp [Expression.same, Expression.same_self e he]
  | .binary _ l r, h => by
    simp only [Expression.toJson, Json.legible_node] at h
    obtain ⟨-, hl, hr, -⟩ := h
    simp [Expression.same, Expression.same_self l hl, Expression.same_self r hr]
  | .logical _ l r, h => by
    simp only [Expression.toJson, Json.legible_node] at h
    obtain ⟨-, hl, hr, -⟩ := h
    simp [Expression.same, Expression.same_self l hl, Expression.same_self r hr]
  | .assignment _ l r, h => by
    simp only [Expression.toJson, Json.legible_node] at h
    obtain ⟨-, hl, hr, -⟩ := h
    simp [Expression.same, Expression.same_self l hl, Expression.same_self r hr]
  | .conditional t c a, h => by
    simp only [Expression.toJson, Json.legible_node] at h
    obtain ⟨ht, hc, ha, -⟩ := h
    simp [Expression.same, Expression.same_self t ht, Expression.same_self c hc,
      Expression.same_self a ha]
  | .call callee es _, h => by
    simp only [Expression.toJson, Json.legible_node] at h
    obtain ⟨hc, hes, -⟩ := h
    simp [Expression.same, Expression.same_self callee hc, sameExpressions_self es hes]
  | .new callee es, h => by
    simp only [Expression.toJson, Json.legible_node] at h
    obtain ⟨hc, hes, -⟩ := h
    simp [Expression.same, Expression.same_self callee hc, sameExpressions_self es hes]
  | .member o p _ _, h => by
    simp only [Expression.toJson, Json.legible_node] at h
    obtain ⟨ho, hp, -⟩ := h
    simp [Expression.same, Expression.same_self o ho, Expression.same_self p hp]
  | .sequence es, h => by
    simp only [Expression.toJson, Json.legible_node] at h
    exact sameExpressions_self es h.1
  | .template _ es, h => by
    simp only [Expression.toJson, Json.legible_node] at h
    obtain ⟨-, hes, -⟩ := h
    simp [Expression.same, sameExpressions_self es hes]
  | .tagged t q, h => by
    simp only [Expression.toJson, Json.legible_node] at h
    obtain ⟨ht, hq, -⟩ := h
    simp [Expression.same, Expression.same_self t ht, Expression.same_self q hq]
  | .spread e, h => by
    simp only [Expression.toJson, Json.legible_node] at h
    exact Expression.same_self e h.1
  | .assignmentPattern l r, h => by
    simp only [Expression.toJson, Json.legible_node] at h
    obtain ⟨hl, hr, -⟩ := h
    simp [Expression.same, Expression.same_self l hl, Expression.same_self r hr]
  | .arrayPattern es, h => by
    simp only [Expression.toJson, Json.legible_node] at h
    exact sameElements_self es h.1
  | .objectPattern ms, h => by
    simp only [Expression.toJson, Json.legible_node] at h
    exact sameMembers_self ms h.1
  | .rest e, h => by
    simp only [Expression.toJson, Json.legible_node] at h
    exact Expression.same_self e h.1
  | .foreign v, h => v.same_self h
termination_by structural e => e

theorem sameExpressions_self : ∀ es : List Expression, LegibleItems (expressionsJson es) →
    sameExpressions es es
  | [], _ => rfl
  | e :: es, h => by
    simp [sameExpressions, Expression.same_self e h.1, sameExpressions_self es h.2]
termination_by structural l => l

theorem sameOption_self : ∀ x : Option Expression, (expressionOrNull x).Legible →
    sameExpression? x x
  | none, _ => rfl
  | some e, h => Expression.same_self e h
termination_by structural x => x

theorem sameElements_self : ∀ es : List (Option Expression), LegibleItems (elementsJson es) →
    sameElements es es
  | [], _ => rfl
  | e :: es, h => by simp [sameElements, sameOption_self e h.1, sameElements_self es h.2]
termination_by structural l => l

theorem Member.same_self : ∀ m : Member, m.toJson.Legible → m.same m
  | .property key value _ _ _ _, h => by
    simp only [Member.toJson, Json.legible_node] at h
    obtain ⟨hk, hv, -⟩ := h
    simp [Member.same, Expression.same_self key hk, Expression.same_self value hv]
  | .spread e, h => by
    simp only [Member.toJson, Json.legible_node] at h
    exact Expression.same_self e h.1
  | .rest e, h => by
    simp only [Member.toJson, Json.legible_node] at h
    exact Expression.same_self e h.1
  | .foreign v, h => v.same_self h
termination_by structural m => m

theorem sameMembers_self : ∀ ms : List Member, LegibleItems (membersJson ms) → sameMembers ms ms
  | [], _ => rfl
  | m :: ms, h => by simp [sameMembers, Member.same_self m h.1, sameMembers_self ms h.2]
termination_by structural l => l

theorem Function.same_self : ∀ f : Function, LegibleMembers (functionFields f) → f.same f
  | ⟨_, params, body, _, _⟩, h => by
    obtain ⟨-, hp, hb, -⟩ := h
    simp [Function.same, sameExpressions_self params hp,
      sameStatements_self body (Json.legible_block.1 hb)]
termination_by structural f => f

theorem ArrowBody.same_self : ∀ b : ArrowBody, (arrowBodyJson b).Legible → b.same b
  | .block body, h => sameStatements_self body (Json.legible_block.1 h)
  | .expression e, h => Expression.same_self e h
termination_by structural b => b

/-- A statement is the same as itself if the numbers in its JSON read back. -/
theorem Statement.same_self : ∀ s : Statement, s.toJson.Legible → s.same s
  | .expression e _, h => by
    simp only [Statement.toJson, Json.legible_node] at h
    obtain ⟨he, -⟩ := h
    simp [Statement.same, Expression.same_self e he]
  | .block body, h => sameStatements_self body (Json.legible_block.1 h)
  | .empty, _ => rfl
  | .debugger, _ => rfl
  | .returns x, h => by
    simp only [Statement.toJson, Json.legible_node] at h
    exact sameOption_self x h.1
  | .breaks _, _ => by simp [Statement.same]
  | .continues _, _ => by simp [Statement.same]
  | .labeled _ body, h => by
    simp only [Statement.toJson, Json.legible_node] at h
    obtain ⟨-, hb, -⟩ := h
    simp [Statement.same, Statement.same_self body hb]
  | .branch t c a, h => by
    simp only [Statement.toJson, Json.legible_node] at h
    obtain ⟨ht, hc, ha, -⟩ := h
    simp [Statement.same, Expression.same_self t ht, Statement.same_self c hc,
      sameAlternate_self a ha]
  | .switch d cs, h => by
    simp only [Statement.toJson, Json.legible_node] at h
    obtain ⟨hd, hc, -⟩ := h
    simp [Statement.same, Expression.same_self d hd, sameCases_self cs hc]
  | .throws e, h => by
    simp only [Statement.toJson, Json.legible_node] at h
    exact Expression.same_self e h.1
  | .attempt b c f, h => by
    simp only [Statement.toJson, Json.legible_node] at h
    obtain ⟨hb, hc, hf, -⟩ := h
    simp [Statement.same, sameStatements_self b (Json.legible_block.1 hb), sameHandler_self c hc,
      sameFinalizer_self f hf]
  | .whileLoop t b, h => by
    simp only [Statement.toJson, Json.legible_node] at h
    obtain ⟨ht, hb, -⟩ := h
    simp [Statement.same, Expression.same_self t ht, Statement.same_self b hb]
  | .doWhile b t, h => by
    simp only [Statement.toJson, Json.legible_node] at h
    obtain ⟨hb, ht, -⟩ := h
    simp [Statement.same, Statement.same_self b hb, Expression.same_self t ht]
  | .forLoop i t u b, h => by
    simp only [Statement.toJson, Json.legible_node] at h
    obtain ⟨hi, ht, hu, hb, -⟩ := h
    simp [Statement.same, sameInit_self i hi, sameOption_self t ht, sameOption_self u hu,
      Statement.same_self b hb]
  | .forIn l r b, h => by
    simp only [Statement.toJson, Json.legible_node] at h
    obtain ⟨hl, hr, hb, -⟩ := h
    simp [Statement.same, LoopHead.same_self l hl, Expression.same_self r hr,
      Statement.same_self b hb]
  | .forOf l r b _, h => by
    simp only [Statement.toJson, Json.legible_node] at h
    obtain ⟨hl, hr, hb, -⟩ := h
    simp [Statement.same, LoopHead.same_self l hl, Expression.same_self r hr,
      Statement.same_self b hb]
  | .function f, h => by
    simp only [Statement.toJson, Json.legible_node] at h
    exact f.same_self h
  | .declaration d, h => d.same_self h
  | .foreign v, h => v.same_self h
termination_by structural s => s

theorem sameStatements_self : ∀ ss : List Statement, LegibleItems (statementsJson ss) →
    sameStatements ss ss
  | [], _ => rfl
  | s :: ss, h => by
    simp [sameStatements, Statement.same_self s h.1, sameStatements_self ss h.2]
termination_by structural l => l

theorem sameAlternate_self : ∀ x : Option Statement, (statementOrNull x).Legible →
    sameStatement? x x
  | none, _ => rfl
  | some s, h => Statement.same_self s h
termination_by structural x => x

theorem sameFinalizer_self : ∀ x : Option (List Statement), (blockOrNull x).Legible →
    sameBlock? x x
  | none, _ => rfl
  | some body, h => sameStatements_self body (Json.legible_block.1 h)
termination_by structural x => x

theorem sameCases_self : ∀ cs : List Case, LegibleItems (casesJson cs) → sameCases cs cs
  | [], _ => rfl
  | ⟨test, consequent⟩ :: cs, h => by
    obtain ⟨ht, hc, -⟩ := (Json.legible_node _ _).1 h.1
    simp [sameCases, sameOption_self test ht, sameStatements_self consequent hc,
      sameCases_self cs h.2]
termination_by structural l => l

theorem sameHandler_self : ∀ x : Option Handler, (handlerOrNull x).Legible → sameHandler? x x
  | none, _ => rfl
  | some ⟨param, body⟩, h => by
    obtain ⟨hp, hb, -⟩ := (Json.legible_node _ _).1 h
    simp [sameHandler?, sameOption_self param hp,
      sameStatements_self body (Json.legible_block.1 hb)]
termination_by structural x => x

theorem Declaration.same_self : ∀ d : Declaration, (declarationJson d).Legible → d.same d
  | ⟨ds, _⟩, h => by
    obtain ⟨hd, -⟩ := (Json.legible_node _ _).1 h
    simp [Declaration.same, sameDeclarators_self ds hd]
termination_by structural d => d

theorem sameDeclarators_self : ∀ ds : List Declarator, LegibleItems (declaratorsJson ds) →
    sameDeclarators ds ds
  | [], _ => rfl
  | ⟨target, init⟩ :: ds, h => by
    obtain ⟨ht, hi, -⟩ := (Json.legible_node _ _).1 h.1
    simp [sameDeclarators, Expression.same_self target ht, sameOption_self init hi,
      sameDeclarators_self ds h.2]
termination_by structural l => l

theorem LoopHead.same_self : ∀ l : LoopHead, (headJson l).Legible → l.same l
  | .declaration d, h => Declaration.same_self d h
  | .expression e, h => Expression.same_self e h
termination_by structural l => l

theorem sameInit_self : ∀ x : Option LoopHead, (headOrNull x).Legible → sameHead? x x
  | none, _ => rfl
  | some l, h => LoopHead.same_self l h
termination_by structural x => x
end

/-- A program is the same as itself if the numbers in its JSON read back. -/
theorem Program.same_self (p : Program) (h : p.toJson.Legible) : p.same p := by
  obtain ⟨hb, -⟩ := (Json.legible_node _ _).1 h
  simp [Program.same, sameStatements_self p.body hb]

end Untangle
