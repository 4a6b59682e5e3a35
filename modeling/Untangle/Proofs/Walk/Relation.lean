import Untangle.Proofs.Syntax.Diagram
import Untangle.Walk.Visitor

/-!
# What a walk makes of a tree

A relation between two diagrams and two states says what can become of a node
while the state changes. If it holds across every call of a visitor, given that
it holds of the parts, then it holds across the whole walk. The inductions over
the walk are all in this module; a statement about a pass only has to look at
the calls of its visitor.
-/
namespace Untangle

variable {σ : Type} {P : Diagram → Diagram → σ → σ → Prop}

/-- Parts that are walked one after the other. -/
inductive Diagram.InTurn (P : Diagram → Diagram → σ → σ → Prop) :
    Diagram → Diagram → σ → σ → Prop
  | nothing (s : σ) : InTurn P .nothing .nothing s s
  | pair {a a' b b' : Diagram} {s t u : σ} (first : P a a' s t) (rest : InTurn P b b' t u) :
    InTurn P (.pair a b) (.pair a' b') s u

open Diagram (InTurn parts ofProperty)

/-- The walk over the parameters and the block of a function. -/
def Visitor.parts (v : Visitor σ) (params : List Expression) (body : List Statement) :
    StateM σ (List Expression × List Statement) := do
  let cut ← v.enterFunction params (some body)
  let params ← v.expressions params
  let body ← v.around (body.drop cut) (v.statementsFrom cut body)
  v.leaveFunction
  return (params, body)

/-- The relation holds across every call of the visitor. A list of statements is settled when it is
entered, or its statements are walked before it is left; of a function the statements at the front
may be taken off. -/
structure Visitor.Upholds (v : Visitor σ) (P : Diagram → Diagram → σ → σ → Prop) : Prop where
  nothing : ∀ s, P .nothing .nothing s s
  passed : ∀ name s, P (.passed name) (.passed name) s s
  clause : ∀ {root a a' s t}, InTurn P a a' s t → P (.clause root a) (.clause root a') s t
  statement : ∀ {root a a' s t}, InTurn P a a' s t → P (.statement root a) (.statement root a') s t
  expression : ∀ {e root a a' s t}, Expression.diagram e = .expression root a' → InTurn P a a' s t →
    P (.expression root a) ((v.leaveExpression e).run t).1.diagram s
      ((v.leaveExpression e).run t).2
  settle : ∀ {body body' s t}, (v.enterStatements body).run s = (.settle body', t) →
    P (blockDiagram body) (blockDiagram body') s t
  descend : ∀ {body body' s t u}, (v.enterStatements body).run s = (.descend, t) →
    InTurn P (statementsDiagram body) (statementsDiagram body') t u →
    P (blockDiagram body) (blockDiagram ((v.leaveStatements body').run u).1) s
      ((v.leaveStatements body').run u).2
  function : ∀ {params params' body body' cut s t u w},
    (v.enterFunction params (some body)).run s = (cut, t) →
    InTurn P (expressionsDiagram params) (expressionsDiagram params') t u →
    P (blockDiagram (body.drop cut)) (blockDiagram body') u w →
    P (functionDiagram params body) (functionDiagram params' body') s (v.leaveFunction.run w).2
  concise : ∀ {params params' e e' cut s t u w},
    (v.enterFunction params none).run s = (cut, t) →
    InTurn P (expressionsDiagram params) (expressionsDiagram params') t u →
    P (Expression.diagram e) (Expression.diagram e') u w →
    P (.function params (expressionsDiagram params) e.diagram)
      (.function params' (expressionsDiagram params') e'.diagram) s (v.leaveFunction.run w).2

section Carried

variable {α β γ δ ε : Type}

/-- What `m` gives back is related to `x`. -/
def Carried (P : Diagram → Diagram → σ → σ → Prop) (diagram : α → Diagram) (x : α)
    (m : StateM σ α) : Prop :=
  ∀ s, P (diagram x) (diagram (m.run s).1) s (m.run s).2

/-- A node is related to what the call `f` at its end gives back, if its parts are related. -/
def Finishes (P : Diagram → Diagram → σ → σ → Prop) (node : Diagram → Diagram)
    (diagram : ε → Diagram) (f : ε → StateM σ ε) : Prop :=
  ∀ ⦃x a a' s t⦄, diagram x = node a' → InTurn P a a' s t →
    P (node a) (diagram ((f x).run t).1) s ((f x).run t).2

variable {node : Diagram → Diagram}
variable {da : α → Diagram} {db : β → Diagram} {dc : γ → Diagram} {dd : δ → Diagram}
variable {de : ε → Diagram}
variable {a : α} {b : β} {c : γ} {d : δ}
variable {ma : StateM σ α} {mb : StateM σ β} {mc : StateM σ γ} {md : StateM σ δ}

/-- A node without a call at its end. -/
theorem finishes_pure (h : ∀ {a a' s t}, InTurn P a a' s t → P (node a) (node a') s t) :
    Finishes P node de pure := by
  intro x a a' s t hx hparts
  show P (node a) (de x) s t
  rw [hx]
  exact h hparts

namespace Carried

/-- What is walked can be part of a larger tree with the same diagram. -/
theorem map (ha : Carried P da a ma) (f : α → β) (hf : ∀ a, db (f a) = da a) :
    Carried P db (f a) (do return f (← ma)) := by
  intro s
  show P (db (f a)) (db (f (ma.run s).1)) s (ma.run s).2
  rw [hf, hf]
  exact ha s

theorem nil {dl : List α → Diagram} (h : dl [] = .nothing) :
    Carried (InTurn P) dl [] (pure []) := by
  intro s
  show InTurn P (dl []) (dl []) s s
  rw [h]
  exact .nothing s

/-- A list is walked from its first item on. -/
theorem cons {l : List α} {ml : StateM σ (List α)} {dl : List α → Diagram}
    (ha : Carried P da a ma) (hl : Carried (InTurn P) dl l ml)
    (hcons : ∀ a l, dl (a :: l) = .pair (da a) (dl l)) :
    Carried (InTurn P) dl (a :: l) (do let a ← ma; return a :: (← ml)) := by
  intro s
  show InTurn P (dl (a :: l)) (dl ((ma.run s).1 :: (ml.run (ma.run s).2).1)) s _
  rw [hcons, hcons]
  exact .pair (ha s) (hl _)

/-- A list whose first element has two parts. -/
theorem cons₂ {f : α → β → ε} {l : List ε} {ml : StateM σ (List ε)} {dl : List ε → Diagram}
    (ha : Carried P da a ma) (hb : Carried P db b mb) (hl : Carried (InTurn P) dl l ml)
    (hnode : ∀ {a a' s t}, InTurn P a a' s t → P (node a) (node a') s t)
    (hcons : ∀ a b l, dl (f a b :: l) = .pair (node (parts [da a, db b])) (dl l)) :
    Carried (InTurn P) dl (f a b :: l) (do
      let a ← ma
      let b ← mb
      return f a b :: (← ml)) := by
  intro s
  show InTurn P (dl (f a b :: l)) (dl (f (ma.run s).1 (mb.run (ma.run s).2).1 ::
    (ml.run (mb.run (ma.run s).2).2).1)) s _
  rw [hcons, hcons]
  exact .pair (hnode (.pair (ha s) (.pair (hb _) (.nothing _)))) (hl _)

/-- A node without parts. -/
theorem leaf {x : ε} {f : ε → StateM σ ε} (hf : Finishes P node de f)
    (hx : de x = node .nothing) : Carried P de x (f x) := by
  intro s
  have h := hf hx (.nothing s)
  rwa [← hx] at h

/-- A node whose parts are a list. -/
theorem list {dl : α → Diagram} {f : α → ε} {g : ε → StateM σ ε} (ha : Carried (InTurn P) dl a ma)
    (hg : Finishes P node de g) (hf : ∀ a, de (f a) = node (dl a)) :
    Carried P de (f a) (ma >>= fun a => g (f a)) := by
  intro s
  rw [hf a]
  exact hg (hf _) (ha s)

/-- A node with a part and a list of parts. -/
theorem listAfter {dl : β → Diagram} {f : α → β → ε} {g : ε → StateM σ ε} (ha : Carried P da a ma)
    (hb : Carried (InTurn P) dl b mb) (hg : Finishes P node de g)
    (hf : ∀ a b, de (f a b) = node (.pair (da a) (dl b))) :
    Carried P de (f a b) (ma >>= fun a => mb >>= fun b => g (f a b)) := by
  intro s
  rw [hf a b]
  exact hg (hf _ _) (.pair (ha s) (hb _))

/-- A node with one part; the next three have more. -/
theorem node₁ {f : α → ε} {g : ε → StateM σ ε} (ha : Carried P da a ma)
    (hg : Finishes P node de g) (hf : ∀ a, de (f a) = node (parts [da a])) :
    Carried P de (f a) (ma >>= fun a => g (f a)) := by
  have hparts : Carried (InTurn P) (fun a => parts [da a]) a ma :=
    fun s => .pair (ha s) (.nothing _)
  exact hparts.list hg hf

theorem node₂ {f : α → β → ε} {g : ε → StateM σ ε} (ha : Carried P da a ma)
    (hb : Carried P db b mb) (hg : Finishes P node de g)
    (hf : ∀ a b, de (f a b) = node (parts [da a, db b])) :
    Carried P de (f a b) (ma >>= fun a => mb >>= fun b => g (f a b)) := by
  have hparts : Carried (InTurn P) (fun b => parts [db b]) b mb :=
    fun s => .pair (hb s) (.nothing _)
  exact ha.listAfter hparts hg hf

theorem node₃ {f : α → β → γ → ε} {g : ε → StateM σ ε} (ha : Carried P da a ma)
    (hb : Carried P db b mb) (hc : Carried P dc c mc) (hg : Finishes P node de g)
    (hf : ∀ a b c, de (f a b c) = node (parts [da a, db b, dc c])) :
    Carried P de (f a b c) (ma >>= fun a => mb >>= fun b => mc >>= fun c => g (f a b c)) := by
  intro s
  rw [hf a b c]
  exact hg (hf _ _ _) (.pair (ha s) (.pair (hb _) (.pair (hc _) (.nothing _))))

theorem node₄ {f : α → β → γ → δ → ε} {g : ε → StateM σ ε} (ha : Carried P da a ma)
    (hb : Carried P db b mb) (hc : Carried P dc c mc) (hd : Carried P dd d md)
    (hg : Finishes P node de g)
    (hf : ∀ a b c d, de (f a b c d) = node (parts [da a, db b, dc c, dd d])) :
    Carried P de (f a b c d)
      (ma >>= fun a => mb >>= fun b => mc >>= fun c => md >>= fun d => g (f a b c d)) := by
  intro s
  rw [hf a b c d]
  exact hg (hf _ _ _ _) (.pair (ha s) (.pair (hb _) (.pair (hc _) (.pair (hd _) (.nothing _)))))

end Carried

end Carried

namespace Visitor.Upholds

variable {v : Visitor σ}

section Calls

variable (h : v.Upholds P)

include h

theorem finishes_expression (root : ExpressionRoot) :
    Finishes P (.expression root) Expression.diagram v.leaveExpression :=
  fun _ _ _ _ _ hx hparts => h.expression hx hparts

theorem finishes_statement (root : StatementRoot) :
    Finishes P (.statement root) Statement.diagram pure :=
  finishes_pure h.statement

theorem finishes_clause {ε : Type} {diagram : ε → Diagram} (root : ClauseRoot) :
    Finishes P (.clause root) diagram pure :=
  finishes_pure h.clause

theorem absent {α : Type} {diagram : Option α → Diagram} (hnone : diagram none = .nothing) :
    Carried P diagram none (pure none) := by
  intro s
  show P (diagram none) (diagram none) s s
  rw [hnone]
  exact h.nothing s

/-- The name of a property is walked, or passed over. -/
theorem property {p : Expression} (computed : Bool)
    (hp : Carried P Expression.diagram p (v.expression p)) :
    Carried P (fun p => ofProperty computed p.diagram) p
      (if computed then v.expression p else pure p) := by
  cases computed with
  | false => exact fun s => h.passed p.diagram s
  | true => exact hp

/-- A list of statements, if the walk over its statements is related to it. -/
theorem around {body : List Statement} {m : StateM σ (List Statement)}
    (hm : Carried (InTurn P) statementsDiagram body m) :
    Carried P blockDiagram body (v.around body m) := by
  intro s
  unfold Visitor.around
  simp only [StateT.run_bind]
  cases hr : (v.enterStatements body).run s with
  | mk entry t =>
    cases entry with
    | settle body' => exact h.settle hr
    | descend => exact h.descend hr (hm t)

/-- The parameters and the block of a function, if the walks over them are related to them. -/
theorem parts {params : List Expression} {body : List Statement}
    (hp : Carried (InTurn P) expressionsDiagram params (v.expressions params))
    (hb : ∀ cut, Carried P blockDiagram (body.drop cut)
      (v.around (body.drop cut) (v.statementsFrom cut body))) :
    Carried P (fun x : List Expression × List Statement => functionDiagram x.1 x.2) (params, body)
      (v.parts params body) := by
  intro s
  unfold Visitor.parts
  simp only [StateT.run_bind]
  cases hr : (v.enterFunction params (some body)).run s with
  | mk cut t => exact h.function hr (hp t) (hb cut _)

end Calls

mutual
/-- The relation holds across the walk over an expression: its parts are walked in the order in
which its diagram shows them, and then it is left. -/
theorem carries_expression (h : v.Upholds P) : ∀ e, Carried P Expression.diagram e (v.expression e)
  | .identifier _ | .literal _ | .this | .foreign _ =>
    .leaf (f := v.leaveExpression) (h.finishes_expression _) rfl
  | .array es => (carries_optionals h es).list (h.finishes_expression _) fun _ => rfl
  | .object ms => (carries_members h ms).list (h.finishes_expression _) fun _ => rfl
  | .function ⟨name, params, body, generator, async⟩ =>
    (h.parts (carries_expressions h params)
        fun cut => h.around (carries_statementsFrom h cut body)).node₁
      (f := fun x => .function ⟨name, x.1, x.2, generator, async⟩) (h.finishes_expression _)
      fun _ => rfl
  | .arrow params (.block body) concise async =>
    (h.parts (carries_expressions h params)
        fun cut => h.around (carries_statementsFrom h cut body)).node₁
      (f := fun x => .arrow x.1 (.block x.2) concise async) (h.finishes_expression _) fun _ => rfl
  | .arrow params (.expression body) concise async => by
    intro s
    have henter : (v.enterFunction params none).run s = (_, _) := rfl
    have hfunction :=
      h.concise henter (carries_expressions h params _) (carries_expression h body _)
    exact h.finishes_expression (.arrow concise async) (x := .arrow _ (.expression _) concise async)
      rfl (.pair hfunction (.nothing _))
  | .unary op leading e =>
    (carries_expression h e).node₁ (f := .unary op leading) (h.finishes_expression _) fun _ => rfl
  | .update op leading e =>
    (carries_expression h e).node₁ (f := .update op leading) (h.finishes_expression _) fun _ => rfl
  | .binary op l r =>
    (carries_expression h l).node₂ (carries_expression h r) (f := .binary op)
      (h.finishes_expression _) fun _ _ => rfl
  | .logical op l r =>
    (carries_expression h l).node₂ (carries_expression h r) (f := .logical op)
      (h.finishes_expression _) fun _ _ => rfl
  | .assignment op l r =>
    (carries_expression h l).node₂ (carries_expression h r) (f := .assignment op)
      (h.finishes_expression _) fun _ _ => rfl
  | .conditional t c a =>
    (carries_expression h t).node₃ (carries_expression h c) (carries_expression h a)
      (h.finishes_expression _) fun _ _ _ => rfl
  | .call callee es optional =>
    (carries_expression h callee).listAfter (carries_expressions h es)
      (f := fun callee es => .call callee es optional) (h.finishes_expression _) fun _ _ => rfl
  | .new callee es =>
    (carries_expression h callee).listAfter (carries_expressions h es) (h.finishes_expression _)
      fun _ _ => rfl
  | .member o p true optional =>
    (carries_expression h o).node₂ (h.property true (carries_expression h p))
      (f := fun o p => .member o p true optional) (h.finishes_expression _) fun _ _ => rfl
  | .member o p false optional =>
    (carries_expression h o).node₂ (h.property false (carries_expression h p))
      (f := fun o p => .member o p false optional) (h.finishes_expression _) fun _ _ => rfl
  | .sequence es => (carries_expressions h es).list (h.finishes_expression _) fun _ => rfl
  | .template quasis es =>
    (carries_expressions h es).list (f := .template quasis) (h.finishes_expression _) fun _ => rfl
  | .tagged tag quasi =>
    (carries_expression h tag).node₂ (carries_expression h quasi) (h.finishes_expression _)
      fun _ _ => rfl
  | .spread e => (carries_expression h e).node₁ (h.finishes_expression _) fun _ => rfl
  | .assignmentPattern l r =>
    (carries_expression h l).node₂ (carries_expression h r) (h.finishes_expression _) fun _ _ => rfl
  | .arrayPattern es => (carries_optionals h es).list (h.finishes_expression _) fun _ => rfl
  | .objectPattern ms => (carries_members h ms).list (h.finishes_expression _) fun _ => rfl
  | .rest e => (carries_expression h e).node₁ (h.finishes_expression _) fun _ => rfl
termination_by structural e => e

theorem carries_expressions (h : v.Upholds P) :
    ∀ es, Carried (InTurn P) expressionsDiagram es (v.expressions es)
  | [] => .nil rfl
  | e :: es => (carries_expression h e).cons (carries_expressions h es) fun _ _ => rfl
termination_by structural l => l

theorem carries_optional (h : v.Upholds P) : ∀ e, Carried P optionDiagram e (v.optional e)
  | none => h.absent rfl
  | some e => (carries_expression h e).map some fun _ => rfl
termination_by structural e => e

theorem carries_optionals (h : v.Upholds P) :
    ∀ es, Carried (InTurn P) elementsDiagram es (v.optionals es)
  | [] => .nil rfl
  | e :: es => (carries_optional h e).cons (carries_optionals h es) fun _ _ => rfl
termination_by structural l => l

/-- The walk over a member; its name is walked only in brackets. -/
theorem carries_member (h : v.Upholds P) : ∀ m, Carried P Member.diagram m (v.member m)
  | .property key value kind true method shorthand =>
    (h.property true (carries_expression h key)).node₂ (carries_expression h value)
      (f := fun key value => Member.property key value kind true method shorthand)
      (h.finishes_clause _) fun _ _ => rfl
  | .property key value kind false method shorthand =>
    (h.property false (carries_expression h key)).node₂ (carries_expression h value)
      (f := fun key value => Member.property key value kind false method shorthand)
      (h.finishes_clause _) fun _ _ => rfl
  | .spread e =>
    (carries_expression h e).node₁ (f := Member.spread) (h.finishes_clause _) fun _ => rfl
  | .rest e => (carries_expression h e).node₁ (f := Member.rest) (h.finishes_clause _) fun _ => rfl
  | .foreign _ => .leaf (f := pure) (h.finishes_clause _) rfl
termination_by structural m => m

theorem carries_members (h : v.Upholds P) :
    ∀ ms, Carried (InTurn P) membersDiagram ms (v.members ms)
  | [] => .nil rfl
  | m :: ms => (carries_member h m).cons (carries_members h ms) fun _ _ => rfl
termination_by structural l => l

/-- The walk over a statement is carried, for each sort of statement by the walks over its parts. -/
theorem carries_statement (h : v.Upholds P) : ∀ s, Carried P Statement.diagram s (v.statement s)
  | .expression e directive =>
    (carries_expression h e).node₁ (f := fun e => Statement.expression e directive)
      (h.finishes_statement _) fun _ => rfl
  | .block body =>
    (h.around (carries_statementsFrom h 0 body)).node₁ (f := Statement.block)
      (h.finishes_statement _) fun _ => rfl
  | .empty | .debugger | .breaks _ | .continues _ | .foreign _ =>
    .leaf (f := pure) (h.finishes_statement _) rfl
  | .returns argument =>
    (carries_optional h argument).node₁ (f := Statement.returns) (h.finishes_statement _)
      fun _ => rfl
  | .labeled label body =>
    (carries_statement h body).node₁ (f := Statement.labeled label) (h.finishes_statement _)
      fun _ => rfl
  | .branch test consequent alternate =>
    (carries_expression h test).node₃ (carries_statement h consequent)
      (carries_statementOption h alternate) (f := Statement.branch) (h.finishes_statement _)
      fun _ _ _ => rfl
  | .switch discriminant cs =>
    (carries_expression h discriminant).listAfter (carries_cases h cs) (f := Statement.switch)
      (h.finishes_statement _) fun _ _ => rfl
  | .throws argument =>
    (carries_expression h argument).node₁ (f := Statement.throws) (h.finishes_statement _)
      fun _ => rfl
  | .attempt block handler finalizer =>
    (h.around (carries_statementsFrom h 0 block)).node₃ (carries_handlerOption h handler)
      (carries_blockOption h finalizer) (f := Statement.attempt) (h.finishes_statement _)
      fun _ _ _ => rfl
  | .whileLoop test body =>
    (carries_expression h test).node₂ (carries_statement h body) (f := Statement.whileLoop)
      (h.finishes_statement _) fun _ _ => rfl
  | .doWhile body test =>
    (carries_expression h test).node₂ (carries_statement h body)
      (f := fun test body => Statement.doWhile body test) (h.finishes_statement _) fun _ _ => rfl
  | .forLoop init test update body =>
    (carries_headOption h init).node₄ (carries_optional h test) (carries_optional h update)
      (carries_statement h body) (f := Statement.forLoop) (h.finishes_statement _)
      fun _ _ _ _ => rfl
  | .forIn left right body =>
    (carries_head h left).node₃ (carries_expression h right) (carries_statement h body)
      (f := Statement.forIn) (h.finishes_statement _) fun _ _ _ => rfl
  | .forOf left right body await =>
    (carries_head h left).node₃ (carries_expression h right) (carries_statement h body)
      (f := fun left right body => Statement.forOf left right body await)
      (h.finishes_statement _) fun _ _ _ => rfl
  | .function ⟨name, params, body, generator, async⟩ =>
    (h.parts (carries_expressions h params)
        fun cut => h.around (carries_statementsFrom h cut body)).node₁
      (f := fun x => Statement.function ⟨name, x.1, x.2, generator, async⟩)
      (h.finishes_statement _) fun _ => rfl
  | .declaration d =>
    (carries_declaration h d).node₁ (f := Statement.declaration) (h.finishes_statement _)
      fun _ => rfl
termination_by structural s => s

/-- The statements behind those that are taken off are walked one after the other. -/
theorem carries_statementsFrom (h : v.Upholds P) : ∀ cut body,
    Carried (InTurn P) statementsDiagram (body.drop cut) (v.statementsFrom cut body)
  | 0, [] => .nil rfl
  | _ + 1, [] => .nil rfl
  | cut + 1, _ :: rest => carries_statementsFrom h cut rest
  | 0, s :: rest => (carries_statement h s).cons (carries_statementsFrom h 0 rest) fun _ _ => rfl
termination_by structural _ l => l

theorem carries_statementOption (h : v.Upholds P) :
    ∀ s, Carried P alternateDiagram s (v.statementOption s)
  | none => h.absent rfl
  | some s => (carries_statement h s).map some fun _ => rfl
termination_by structural s => s

theorem carries_blockOption (h : v.Upholds P) : ∀ b, Carried P finalizerDiagram b (v.blockOption b)
  | none => h.absent rfl
  | some body => (h.around (carries_statementsFrom h 0 body)).map some fun _ => rfl
termination_by structural b => b

/-- The cases of a `switch` are walked one after the other, each as a clause with a list of its own.
-/
theorem carries_cases (h : v.Upholds P) : ∀ cs, Carried (InTurn P) casesDiagram cs (v.cases cs)
  | [] => .nil rfl
  | ⟨_, consequent⟩ :: rest =>
    (carries_optional h _).cons₂ (h.around (carries_statementsFrom h 0 consequent))
      (carries_cases h rest) (f := Case.mk) h.clause fun _ _ _ => rfl
termination_by structural l => l

theorem carries_handlerOption (h : v.Upholds P) :
    ∀ x, Carried P handlerDiagram x (v.handlerOption x)
  | none => h.absent rfl
  | some ⟨param, body⟩ =>
    (carries_optional h param).node₂ (h.around (carries_statementsFrom h 0 body))
      (f := fun param body => some (Handler.mk param body)) (h.finishes_clause .handler)
      fun _ _ => rfl
termination_by structural x => x

theorem carries_declaration (h : v.Upholds P) :
    ∀ d, Carried P Declaration.diagram d (v.declaration d)
  | ⟨ds, kind⟩ =>
    (carries_declarators h ds).list (f := fun ds => Declaration.mk ds kind)
      (h.finishes_clause (.declaration kind)) fun _ => rfl
termination_by structural d => d

theorem carries_declarators (h : v.Upholds P) :
    ∀ ds, Carried (InTurn P) declaratorsDiagram ds (v.declarators ds)
  | [] => .nil rfl
  | ⟨target, init⟩ :: rest =>
    (carries_expression h target).cons₂ (carries_optional h init) (carries_declarators h rest)
      (f := Declarator.mk) h.clause fun _ _ _ => rfl
termination_by structural l => l

theorem carries_head (h : v.Upholds P) : ∀ x, Carried P LoopHead.diagram x (v.head x)
  | .declaration d => (carries_declaration h d).map LoopHead.declaration fun _ => rfl
  | .expression e => (carries_expression h e).map LoopHead.expression fun _ => rfl
termination_by structural x => x

theorem carries_headOption (h : v.Upholds P) : ∀ x, Carried P initDiagram x (v.headOption x)
  | none => h.absent rfl
  | some x => (carries_head h x).map some fun _ => rfl
termination_by structural x => x
end

/-- The walk over a list of statements is carried by the two calls for the list. -/
theorem carries_statements (h : v.Upholds P) (body : List Statement) :
    Carried P blockDiagram body (v.statements body) :=
  h.around (h.carries_statementsFrom 0 body)

/-- The relation holds across the walk over a program. -/
theorem carries_program (h : v.Upholds P) (p : Program) :
    Carried P Program.diagram p (v.program p) :=
  (h.carries_statements p.body).map (fun body => { p with body }) fun _ => rfl

end Visitor.Upholds

/-- The walk over a list goes over a first part of it and then, from where that ends, over the
rest. -/
theorem Visitor.run_statementsFrom_append (v : Visitor σ) (a b : List Statement) (s : σ) :
    ((v.statementsFrom 0 (a ++ b)).run s).1 =
      ((v.statementsFrom 0 a).run s).1 ++
        ((v.statementsFrom 0 b).run ((v.statementsFrom 0 a).run s).2).1 := by
  induction a generalizing s with
  | nil => rfl
  | cons first rest ih =>
    have hcons : ∀ l : List Statement, (v.statementsFrom 0 (first :: l)).run s =
        (((v.statement first).run s).1 ::
          ((v.statementsFrom 0 l).run ((v.statement first).run s).2).1,
          ((v.statementsFrom 0 l).run ((v.statement first).run s).2).2) := fun _ => rfl
    rw [List.cons_append, hcons, hcons, ih]
    rfl

end Untangle
