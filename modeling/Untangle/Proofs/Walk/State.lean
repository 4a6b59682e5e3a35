import Untangle.Proofs.Walk.Calls

/-!
# What a walk does to its state

A relation between states that holds across every call of a visitor holds across
its walk. And if no call tells two states apart, it makes no difference from
which of them the walk starts.
-/
namespace Untangle

variable {σ α β : Type} {R : σ → σ → Prop}

section Keeps

def Keeps (R : σ → σ → Prop) (m : StateM σ α) : Prop := ∀ s, R s (m.run s).2

/-- A relation between states that holds across every call of the visitor. What happens inside a
function is between the two calls for it. -/
structure Visitor.Respects (v : Visitor σ) (R : σ → σ → Prop) : Prop where
  refl : ∀ s, R s s
  trans : ∀ {s t u}, R s t → R t u → R s u
  enterStatements : ∀ body, Keeps R (v.enterStatements body)
  leaveStatements : ∀ body, Keeps R (v.leaveStatements body)
  leaveExpression : ∀ e, Keeps R (v.leaveExpression e)
  function : ∀ params body s t,
    R ((v.enterFunction params body).run s).2 t → R s (v.leaveFunction.run t).2

namespace Visitor.Respects

variable {v : Visitor σ} (h : v.Respects R) {s t : σ}

include h

/-- The parts of a node are walked one after the other, so their changes of state can be composed.
-/
theorem inTurn {d d' : Diagram} (hparts : Diagram.InTurn (fun _ _ => R) d d' s t) : R s t := by
  induction hparts with
  | nothing s => exact h.refl s
  | pair first _ ih => exact h.trans first ih

/-- The relation holds across the walk, whatever becomes of the tree. -/
theorem upholds : v.Upholds fun _ _ => R where
  nothing := h.refl
  passed _ := h.refl
  clause := h.inTurn
  statement := h.inTurn
  expression _ hparts := h.trans (h.inTurn hparts) (h.leaveExpression _ _)
  settle := by
    intro body body' s t henter
    have hentered := h.enterStatements body s
    rwa [henter] at hentered
  descend := by
    intro body body' s t u henter hparts
    have hentered := h.enterStatements body s
    rw [henter] at hentered
    exact h.trans (h.trans hentered (h.inTurn hparts)) (h.leaveStatements body' u)
  function := by
    intro params params' body body' cut s t u w henter hparams hbody
    apply h.function params (some body)
    rw [henter]
    exact h.trans (h.inTurn hparams) hbody
  concise := by
    intro params params' e e' cut s t u w henter hparams hbody
    apply h.function params none
    rw [henter]
    exact h.trans (h.inTurn hparams) hbody

/-- A relation that a visitor respects holds across the walk over some statements. -/
theorem keeps_statementsFrom (cut : Nat) (body : List Statement) :
    Keeps R (v.statementsFrom cut body) :=
  fun s => h.inTurn (h.upholds.carries_statementsFrom cut body s)

theorem keeps_program (p : Program) : Keeps R (v.program p) := h.upholds.carries_program p

end Visitor.Respects

end Keeps

section Alike

/-- From related states the computation gives the same and ends in related states. -/
def Alike (R : σ → σ → Prop) (m : StateM σ α) : Prop :=
  ∀ ⦃s t⦄, R s t → (m.run s).1 = (m.run t).1 ∧ R (m.run s).2 (m.run t).2

/-- Computations that do not tell states apart can be put one after the other. -/
theorem Alike.bind {m : StateM σ α} {k : α → StateM σ β} (hm : Alike R m)
    (hk : ∀ a, Alike R (k a)) : Alike R (m >>= k) := by
  intro s t hst
  obtain ⟨hsame, hthen⟩ := hm hst
  have hrun := hk (m.run s).1 hthen
  have hleft : (m >>= k).run s = (k (m.run s).1).run (m.run s).2 := rfl
  have hright : (m >>= k).run t = (k (m.run t).1).run (m.run t).2 := rfl
  rw [hleft, hright, ← hsame]
  exact hrun

theorem Alike.agrees {m : StateM σ α} (h : Alike R m) (call : α → Call) :
    Hooks.Agrees (fun _ => R) call m m := by
  intro cs s s' a t around hrun hs
  obtain ⟨hsame, hthen⟩ := h hs
  rw [hrun] at hsame hthen
  exact ⟨(m.run s').2, Prod.ext hsame.symm rfl, hthen⟩

/-- No call of the visitor tells related states apart. -/
structure Visitor.Overlooks (v : Visitor σ) (R : σ → σ → Prop) : Prop where
  enterStatements : ∀ body, Alike R (v.enterStatements body)
  leaveStatements : ∀ body, Alike R (v.leaveStatements body)
  enterFunction : ∀ params body, Alike R (v.enterFunction params body)
  leaveFunction : Alike R v.leaveFunction
  leaveExpression : ∀ e, Alike R (v.leaveExpression e)

namespace Visitor.Overlooks

variable {v : Visitor σ} (h : v.Overlooks R)

include h

/-- From related states the same calls are made. -/
theorem simulates : v.hooks.Simulates v.hooks fun _ => R where
  enterStatements body := by
    refine Alike.agrees ((h.enterStatements body).bind fun entry => ?_) _
    cases entry <;> exact fun _ _ hst => ⟨rfl, hst⟩
  leaveStatements body := (h.leaveStatements body).agrees _
  enterFunction f := by
    refine Alike.agrees ((h.enterFunction f.params f.body).bind fun cut => ?_) _
    exact fun _ _ hst => ⟨rfl, hst⟩
  leaveFunction := h.leaveFunction.agrees _
  leaveExpression e := (h.leaveExpression e).agrees _

theorem alike_statementsFrom (cut : Nat) (body : List Statement) :
    Alike R (v.statementsFrom cut body) := by
  intro s t hst
  -- the walk from `s` is also one from `t`, and there is only one from there
  obtain ⟨cs, hs⟩ := Hooks.Makes.parts (v.upholds_makes.carries_statementsFrom cut body s) []
  obtain ⟨cs', ht⟩ := Hooks.Makes.parts (v.upholds_makes.carries_statementsFrom cut body t) []
  obtain ⟨u, cs'', hsame, hu⟩ := h.simulates.walks hs [] hst
  obtain ⟨hdiagram, rfl, -⟩ := hsame.unique ht
  exact ⟨eq_of_statementsDiagram hdiagram, hu⟩

end Visitor.Overlooks

end Alike

/-- As many statements are left as were walked. -/
theorem Diagram.InTurn.length_eq {P : Diagram → Diagram → σ → σ → Prop} {s t : σ}
    {l l' : List Statement} (h : InTurn P (statementsDiagram l) (statementsDiagram l') s t) :
    l'.length = l.length := by
  induction l generalizing l' s with
  | nil =>
    cases l' with
    | nil => rfl
    | cons => cases h
  | cons first rest ih =>
    cases l' with
    | nil => cases h
    | cons =>
      cases h with
      | pair _ hrest => exact congrArg (· + 1) (ih hrest)

/-- A walk over a list gives back as many statements as it does not skip. -/
theorem Visitor.length_statementsFrom (v : Visitor σ) (cut : Nat) (body : List Statement) (s : σ) :
    ((v.statementsFrom cut body).run s).1.length = body.length - cut := by
  rw [(v.upholds_makes.carries_statementsFrom cut body s).length_eq, List.length_drop]

end Untangle
