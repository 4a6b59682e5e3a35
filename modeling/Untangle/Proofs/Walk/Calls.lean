import Untangle.Proofs.Syntax.Fragment
import Untangle.Proofs.Walk.Relation

/-!
# The calls of a walk

The rules of a walk say in which order the calls for a tree are made, with the
functions around the place of each call. They are stated for calls that may
rewrite a list of statements or the body of a function and have the result
walked. Every walk of a visitor goes by the rules, and they leave no choice. So
two walks are compared by their rules, call by call: one whose calls are also
written down is the same walk, and the steps that are written down are its
steps.
-/
namespace Untangle

variable {σ τ α : Type}

/-- A function as it is entered: its parameters and, unless it is an expression, its body. -/
structure Entered where
  params : List Expression
  body : Option (List Statement)

/-- Whether the statements of a list are walked. -/
inductive Flow where
  | walk
  | skip

/-- What a walk calls, in general. A list may be rewritten before its statements are walked, and so
may the body of a function. -/
structure Hooks (σ : Type) where
  enterStatements : List Statement → StateM σ (Flow × List Statement)
  leaveStatements : List Statement → StateM σ (List Statement)
  /-- Gives back the body that is walked in the place of the one that the function has. -/
  enterFunction : Entered → StateM σ (Option (List Statement))
  leaveFunction : StateM σ Unit
  leaveExpression : Expression → StateM σ Expression

/-- A call with what it is given; an expression is left with what takes its place. -/
inductive Call where
  | enterStatements (body : List Statement)
  | leaveStatements (body : List Statement)
  | enterFunction (f : Entered)
  | leaveFunction
  | leaveExpression (e e' : Expression)

/-- A call, with the states before and after it. -/
structure Step (σ : Type) where
  call : Call
  before : σ
  after : σ

/-- A step with the functions around its place in the tree, innermost first. -/
structure Placed (σ : Type) extends Step σ where
  around : List Entered

/-- The body of a function, after a call that may have rewritten it. -/
def Diagram.rewritten : Diagram → Option (List Statement) → Diagram
  | .block _ _, some body => blockDiagram body
  | b, _ => b

namespace Hooks

/-- The walk over a tree inside of some functions: what becomes of the tree and of the state, and
the steps that are made. The parameters and the body of a function are inside of it, and so is the
call that leaves it. -/
inductive Walks (h : Hooks σ) :
    List Entered → Diagram → Diagram → σ → σ → List (Placed σ) → Prop
  | nothing (around : List Entered) (s : σ) : Walks h around .nothing .nothing s s []
  | passed (around : List Entered) (name : Diagram) (s : σ) :
    Walks h around (.passed name) (.passed name) s s []
  | pair {around : List Entered} {a a' b b' : Diagram} {s t u : σ} {cs cs' : List (Placed σ)}
    (first : Walks h around a a' s t cs) (rest : Walks h around b b' t u cs') :
    Walks h around (.pair a b) (.pair a' b') s u (cs ++ cs')
  | statement {around : List Entered} {a a' : Diagram} {s t : σ} {cs : List (Placed σ)}
    (root : StatementRoot) (parts : Walks h around a a' s t cs) :
    Walks h around (.statement root a) (.statement root a') s t cs
  | clause {around : List Entered} {a a' : Diagram} {s t : σ} {cs : List (Placed σ)}
    (root : ClauseRoot) (parts : Walks h around a a' s t cs) :
    Walks h around (.clause root a) (.clause root a') s t cs
  | expression {around : List Entered} {root : ExpressionRoot} {a a' : Diagram} {e e' : Expression}
    {s t u : σ} {cs : List (Placed σ)} (parts : Walks h around a a' s t cs)
    (he : e.diagram = .expression root a') (leave : (h.leaveExpression e).run t = (e', u)) :
    Walks h around (.expression root a) e'.diagram s u
      (cs ++ [⟨⟨.leaveExpression e e', t, u⟩, around⟩])
  | skipped {around : List Entered} {body body' : List Statement} {s t : σ}
    (enter : (h.enterStatements body).run s = ((.skip, body'), t)) :
    Walks h around (blockDiagram body) (blockDiagram body') s t
      [⟨⟨.enterStatements body, s, t⟩, around⟩]
  | walked {around : List Entered} {body body' walked left : List Statement} {s t u w : σ}
    {cs : List (Placed σ)} (enter : (h.enterStatements body).run s = ((.walk, body'), t))
    (inside : Walks h around (statementsDiagram body') (statementsDiagram walked) t u cs)
    (leave : (h.leaveStatements walked).run u = (left, w)) :
    Walks h around (blockDiagram body) (blockDiagram left) s w
      (⟨⟨.enterStatements body, s, t⟩, around⟩ :: cs ++ [⟨⟨.leaveStatements walked, u, w⟩, around⟩])
  | function {around : List Entered} {params params' : List Expression} {b b' : Diagram}
    {body : Option (List Statement)} {s t u w x : σ} {cs cs' : List (Placed σ)}
    (hb : b.rewritten b.statements? = b)
    (enter : (h.enterFunction ⟨params, b.statements?⟩).run s = (body, t))
    (first : Walks h (⟨params, b.statements?⟩ :: around) (expressionsDiagram params)
      (expressionsDiagram params') t u cs)
    (rest : Walks h (⟨params, b.statements?⟩ :: around) (b.rewritten body) b' u w cs')
    (leave : h.leaveFunction.run w = ((), x)) :
    Walks h around (.function params (expressionsDiagram params) b)
      (.function params' (expressionsDiagram params') b') s x
      (⟨⟨.enterFunction ⟨params, b.statements?⟩, s, t⟩, around⟩ :: (cs ++ cs') ++
        [⟨⟨.leaveFunction, w, x⟩, ⟨params, b.statements?⟩ :: around⟩])

/-- The rules leave no choice: a walk is determined by its start. -/
theorem Walks.unique {h : Hooks σ} {around : List Entered} {d d₁ d₂ : Diagram} {s t₁ t₂ : σ}
    {cs₁ cs₂ : List (Placed σ)} (hw : h.Walks around d d₁ s t₁ cs₁)
    (hw' : h.Walks around d d₂ s t₂ cs₂) : d₁ = d₂ ∧ t₁ = t₂ ∧ cs₁ = cs₂ := by
  induction hw generalizing d₂ t₂ cs₂ with
  | nothing => cases hw'; exact ⟨rfl, rfl, rfl⟩
  | passed => cases hw'; exact ⟨rfl, rfl, rfl⟩
  | pair _ _ ihfirst ihrest =>
    cases hw' with
    | pair first rest =>
      obtain ⟨rfl, rfl, rfl⟩ := ihfirst first
      obtain ⟨rfl, rfl, rfl⟩ := ihrest rest
      exact ⟨rfl, rfl, rfl⟩
  | statement root _ ih =>
    cases hw' with
    | statement _ parts =>
      obtain ⟨rfl, rfl, rfl⟩ := ih parts
      exact ⟨rfl, rfl, rfl⟩
  | clause root _ ih =>
    cases hw' with
    | clause _ parts =>
      obtain ⟨rfl, rfl, rfl⟩ := ih parts
      exact ⟨rfl, rfl, rfl⟩
  | expression _ he leave ih =>
    cases hw' with
    | expression parts he' leave' =>
      obtain ⟨rfl, rfl, rfl⟩ := ih parts
      obtain rfl := Expression.eq_of_diagram (he.trans he'.symm)
      obtain ⟨rfl, rfl⟩ := Prod.mk.inj (leave.symm.trans leave')
      exact ⟨rfl, rfl, rfl⟩
  | skipped enter =>
    cases hw' with
    | skipped enter' =>
      obtain ⟨hflow, rfl⟩ := Prod.mk.inj (enter.symm.trans enter')
      cases hflow
      exact ⟨rfl, rfl, rfl⟩
    | walked enter' =>
      obtain ⟨hflow, -⟩ := Prod.mk.inj (enter.symm.trans enter')
      cases hflow
  | walked enter _ leave ih =>
    cases hw' with
    | skipped enter' =>
      obtain ⟨hflow, -⟩ := Prod.mk.inj (enter.symm.trans enter')
      cases hflow
    | walked enter' inside' leave' =>
      obtain ⟨hflow, rfl⟩ := Prod.mk.inj (enter.symm.trans enter')
      cases hflow
      obtain ⟨hwalked, rfl, rfl⟩ := ih inside'
      obtain rfl := eq_of_statementsDiagram hwalked
      obtain ⟨rfl, rfl⟩ := Prod.mk.inj (leave.symm.trans leave')
      exact ⟨rfl, rfl, rfl⟩
  | function _ enter _ _ leave ihfirst ihrest =>
    cases hw' with
    | function _ enter' first' rest' leave' =>
      obtain ⟨rfl, rfl⟩ := Prod.mk.inj (enter.symm.trans enter')
      obtain ⟨hparams, rfl, rfl⟩ := ihfirst first'
      obtain rfl := eq_of_expressionsDiagram hparams
      obtain ⟨rfl, rfl, rfl⟩ := ihrest rest'
      obtain ⟨-, rfl⟩ := Prod.mk.inj (leave.symm.trans leave')
      exact ⟨rfl, rfl, rfl⟩

/-! ## Walks side by side -/

/-- A call and the same call from a state of another sort give back the same. What relates the two
states may depend on the steps that were made. -/
def Agrees (S : List (Placed σ) → σ → τ → Prop) (call : α → Call) (m : StateM σ α)
    (m' : StateM τ α) : Prop :=
  ∀ ⦃cs s s' a t⦄ (around : List Entered), m.run s = (a, t) → S cs s s' →
    ∃ t', m'.run s' = (a, t') ∧ S (cs ++ [⟨⟨call a, s, t⟩, around⟩]) t t'

/-- Every call of the one agrees with that of the other. -/
structure Simulates (h : Hooks σ) (h' : Hooks τ) (S : List (Placed σ) → σ → τ → Prop) : Prop where
  enterStatements : ∀ body,
    Agrees S (fun _ => .enterStatements body) (h.enterStatements body) (h'.enterStatements body)
  leaveStatements : ∀ body,
    Agrees S (fun _ => .leaveStatements body) (h.leaveStatements body) (h'.leaveStatements body)
  enterFunction : ∀ f, Agrees S (fun _ => .enterFunction f) (h.enterFunction f) (h'.enterFunction f)
  leaveFunction : Agrees S (fun _ => .leaveFunction) h.leaveFunction h'.leaveFunction
  leaveExpression : ∀ e, Agrees S (.leaveExpression e) (h.leaveExpression e) (h'.leaveExpression e)

/-- If the calls agree, then the walks do. -/
theorem Simulates.walks {h : Hooks σ} {h' : Hooks τ} {S : List (Placed σ) → σ → τ → Prop}
    (hsim : h.Simulates h' S) {around : List Entered} {d d' : Diagram} {s t : σ}
    {cs : List (Placed σ)} (hw : h.Walks around d d' s t cs) (before : List (Placed σ)) {s' : τ}
    (hs : S before s s') : ∃ t' cs', h'.Walks around d d' s' t' cs' ∧ S (before ++ cs) t t' := by
  induction hw generalizing before s' with
  | nothing around s => exact ⟨s', [], .nothing around s', by simpa using hs⟩
  | passed around name s => exact ⟨s', [], .passed around name s', by simpa using hs⟩
  | pair _ _ ihfirst ihrest =>
    obtain ⟨t', cs', hfirst, ht⟩ := ihfirst _ hs
    obtain ⟨u', cs'', hrest, hu⟩ := ihrest _ ht
    exact ⟨u', _, .pair hfirst hrest, by simpa using hu⟩
  | statement root _ ih =>
    obtain ⟨t', cs', hparts, ht⟩ := ih _ hs
    exact ⟨t', cs', .statement root hparts, ht⟩
  | clause root _ ih =>
    obtain ⟨t', cs', hparts, ht⟩ := ih _ hs
    exact ⟨t', cs', .clause root hparts, ht⟩
  | expression _ he leave ih =>
    obtain ⟨t', cs', hparts, ht⟩ := ih _ hs
    obtain ⟨u', hleave, hu⟩ := hsim.leaveExpression _ _ leave ht
    exact ⟨u', _, .expression hparts he hleave, by simpa using hu⟩
  | skipped enter =>
    obtain ⟨t', henter, ht⟩ := hsim.enterStatements _ _ enter hs
    exact ⟨t', _, .skipped henter, ht⟩
  | walked enter _ leave ih =>
    obtain ⟨t', henter, ht⟩ := hsim.enterStatements _ _ enter hs
    obtain ⟨u', cs', hinside, hu⟩ := ih _ ht
    obtain ⟨w', hleave, hw'⟩ := hsim.leaveStatements _ _ leave hu
    exact ⟨w', _, .walked henter hinside hleave, by simpa using hw'⟩
  | function hb enter _ _ leave ihfirst ihrest =>
    obtain ⟨t', henter, ht⟩ := hsim.enterFunction _ _ enter hs
    obtain ⟨u', cs', hfirst, hu⟩ := ihfirst _ ht
    obtain ⟨w', cs'', hrest, hw'⟩ := ihrest _ hu
    obtain ⟨x', hleave, hx⟩ := hsim.leaveFunction _ leave hw'
    exact ⟨x', _, .function hb henter hfirst hrest hleave, by simpa using hx⟩

/-- What a tree and a state become by the rules, wherever the tree stands. -/
def Makes (h : Hooks σ) (d d' : Diagram) (s t : σ) : Prop :=
  ∀ around, ∃ cs, h.Walks around d d' s t cs

theorem Makes.parts {h : Hooks σ} {d d' : Diagram} {s t : σ}
    (hparts : Diagram.InTurn h.Makes d d' s t) : h.Makes d d' s t := by
  intro around
  induction hparts with
  | nothing s => exact ⟨[], .nothing around s⟩
  | pair first _ ih =>
    obtain ⟨cs, hfirst⟩ := first around
    obtain ⟨cs', hrest⟩ := ih
    exact ⟨cs ++ cs', .pair hfirst hrest⟩

end Hooks

/-- A state, and the steps that were made on the way to it. -/
structure Recording (σ : Type) where
  state : σ
  steps : List (Step σ) := []

namespace Recording

/-- Makes a call and writes it down. -/
def note (call : α → Call) (m : StateM σ α) : StateM (Recording σ) α := fun r =>
  let (a, s) := m.run r.state
  (a, ⟨s, r.steps ++ [⟨call a, r.state, s⟩]⟩)

theorem run_note (call : α → Call) {m : StateM σ α} {r : Recording σ} {a : α} {t : σ}
    (h : m.run r.state = (a, t)) :
    (note call m).run r = (a, ⟨t, r.steps ++ [⟨call a, r.state, t⟩]⟩) := by
  have hm : m r.state = (a, t) := h
  simp only [note, StateT.run, hm]

/-- A state with all steps of a walk, without their places. -/
def Of (cs : List (Placed σ)) (s : σ) (r : Recording σ) : Prop := r = ⟨s, cs.map (·.toStep)⟩

/-- Writing a call down agrees with making it. -/
theorem agrees_note (call : α → Call) (m : StateM σ α) :
    Hooks.Agrees Of call m (note call m) := by
  rintro cs s - a t around hrun rfl
  exact ⟨_, run_note call hrun, by simp [Of]⟩

end Recording

namespace Visitor

def hooks (v : Visitor σ) : Hooks σ where
  enterStatements body := do
    match ← v.enterStatements body with
    | .descend => return (.walk, body)
    | .settle body => return (.skip, body)
  leaveStatements := v.leaveStatements
  enterFunction f := do
    let cut ← v.enterFunction f.params f.body
    return f.body.map (·.drop cut)
  leaveFunction := v.leaveFunction
  leaveExpression := v.leaveExpression

/-- Makes the calls of another visitor and writes them down. -/
def recorded (v : Visitor σ) : Visitor (Recording σ) where
  enterStatements body := Recording.note (fun _ => .enterStatements body) (v.enterStatements body)
  leaveStatements body := Recording.note (fun _ => .leaveStatements body) (v.leaveStatements body)
  enterFunction params body :=
    Recording.note (fun _ => .enterFunction ⟨params, body⟩) (v.enterFunction params body)
  leaveFunction := Recording.note (fun _ => .leaveFunction) v.leaveFunction
  leaveExpression e := Recording.note (.leaveExpression e) (v.leaveExpression e)

def steps (v : Visitor σ) (p : Program) (s : σ) : List (Step σ) :=
  ((v.recorded.program p).run ⟨s, []⟩).2.steps

section Run

variable {v : Visitor σ} {s t : σ}

theorem run_enterStatements_settle {body body' : List Statement}
    (h : (v.enterStatements body).run s = (.settle body', t)) :
    (v.hooks.enterStatements body).run s = ((.skip, body'), t) := by
  simp only [hooks, StateT.run_bind, h]
  rfl

theorem run_enterStatements_descend {body : List Statement}
    (h : (v.enterStatements body).run s = (.descend, t)) :
    (v.hooks.enterStatements body).run s = ((.walk, body), t) := by
  simp only [hooks, StateT.run_bind, h]
  rfl

/-- A visitor takes statements off the front of a function, and the rest is walked. -/
theorem run_enterFunction {params : List Expression} {body : Option (List Statement)} {cut : Nat}
    (h : (v.enterFunction params body).run s = (cut, t)) :
    (v.hooks.enterFunction ⟨params, body⟩).run s = (body.map (·.drop cut), t) := by
  simp only [hooks, StateT.run_bind, h]
  rfl

end Run

/-- A function with a body of either sort. -/
theorem makes_function {v : Visitor σ} {b b' : Diagram} {params params' : List Expression}
    {body : Option (List Statement)} {cut : Nat} {s t u w : σ} (hbody : b.statements? = body)
    (hb : b.rewritten b.statements? = b) (henter : (v.enterFunction params body).run s = (cut, t))
    (hfirst : Diagram.InTurn v.hooks.Makes (expressionsDiagram params)
      (expressionsDiagram params') t u)
    (hrest : v.hooks.Makes (b.rewritten (body.map (·.drop cut))) b' u w) :
    v.hooks.Makes (.function params (expressionsDiagram params) b)
      (.function params' (expressionsDiagram params') b') s (v.leaveFunction.run w).2 := by
  intro around
  subst hbody
  obtain ⟨cs, hwalks⟩ := Hooks.Makes.parts hfirst (⟨params, b.statements?⟩ :: around)
  obtain ⟨cs', hwalks'⟩ := hrest (⟨params, b.statements?⟩ :: around)
  exact ⟨_, .function hb (run_enterFunction henter) hwalks hwalks' rfl⟩

/-- The walk of every visitor goes by the rules. -/
theorem upholds_makes (v : Visitor σ) : v.Upholds v.hooks.Makes where
  nothing s := .parts (.nothing s)
  passed name s around := ⟨[], .passed around name s⟩
  clause := by
    intro root a a' s t hparts around
    obtain ⟨cs, hwalks⟩ := Hooks.Makes.parts hparts around
    exact ⟨cs, .clause root hwalks⟩
  statement := by
    intro root a a' s t hparts around
    obtain ⟨cs, hwalks⟩ := Hooks.Makes.parts hparts around
    exact ⟨cs, .statement root hwalks⟩
  expression := by
    intro e root a a' s t he hparts around
    obtain ⟨cs, hwalks⟩ := Hooks.Makes.parts hparts around
    exact ⟨_, .expression hwalks he rfl⟩
  settle henter around := ⟨_, .skipped (run_enterStatements_settle henter)⟩
  descend := by
    intro body body' s t u henter hparts around
    obtain ⟨cs, hwalks⟩ := Hooks.Makes.parts hparts around
    exact ⟨_, .walked (run_enterStatements_descend henter) hwalks rfl⟩
  function henter hparams hbody := makes_function rfl rfl henter hparams hbody
  concise := by
    intro params params' e e' cut s t u w henter hparams hbody
    obtain ⟨root, a, he⟩ := e.exists_diagram
    rw [he] at hbody ⊢
    exact makes_function rfl rfl henter hparams hbody

/-- Writing down the calls changes nothing else. -/
theorem simulates_recorded (v : Visitor σ) :
    v.hooks.Simulates v.recorded.hooks Recording.Of where
  enterStatements body := by
    rintro cs s - a t around hrun rfl
    cases henter : (v.enterStatements body).run s with
    | mk entry t' =>
      have hnote := Recording.run_note (fun _ => .enterStatements body)
        (r := ⟨s, cs.map (·.toStep)⟩) henter
      cases entry with
      | descend =>
        obtain ⟨rfl, rfl⟩ := Prod.mk.inj ((run_enterStatements_descend henter).symm.trans hrun)
        exact ⟨_, run_enterStatements_descend hnote, by simp [Recording.Of]⟩
      | settle body' =>
        obtain ⟨rfl, rfl⟩ := Prod.mk.inj ((run_enterStatements_settle henter).symm.trans hrun)
        exact ⟨_, run_enterStatements_settle hnote, by simp [Recording.Of]⟩
  leaveStatements body := Recording.agrees_note _ _
  enterFunction f := by
    rintro cs s - a t around hrun rfl
    cases henter : (v.enterFunction f.params f.body).run s with
    | mk cut t' =>
      have hnote := Recording.run_note (fun _ => .enterFunction f)
        (r := ⟨s, cs.map (·.toStep)⟩) henter
      obtain ⟨rfl, rfl⟩ := Prod.mk.inj ((run_enterFunction henter).symm.trans hrun)
      exact ⟨_, run_enterFunction hnote, by simp [Recording.Of]⟩
  leaveFunction := Recording.agrees_note _ _
  leaveExpression e := Recording.agrees_note _ _

/-- The walk over a program goes by the rules, and its steps are those that are written down. -/
theorem exists_walks (v : Visitor σ) (p : Program) (s : σ) :
    ∃ cs, v.hooks.Walks [] p.diagram ((v.program p).run s).1.diagram s ((v.program p).run s).2 cs ∧
      cs.map (·.toStep) = v.steps p s := by
  obtain ⟨cs, hwalks⟩ := v.upholds_makes.carries_program p s []
  obtain ⟨r, cs', hsame, rfl⟩ := v.simulates_recorded.walks hwalks [] rfl
  obtain ⟨cs'', hrecorded⟩ := v.recorded.upholds_makes.carries_program p ⟨s, []⟩ []
  obtain ⟨-, hend, -⟩ := hsame.unique hrecorded
  exact ⟨cs, hwalks, congrArg Recording.steps hend⟩

end Visitor
end Untangle
