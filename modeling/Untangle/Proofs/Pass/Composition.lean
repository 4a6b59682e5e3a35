import Untangle.Pass.LoopExit
import Untangle.Proofs.Pass.Replacement
import Untangle.Proofs.Walk.State

/-!
# Passes over statements one after the other

What two passes make of a list of statements outside of all functions is what
they make of each part of it. A walk carries a state from one statement to the
next; but the pass that inlines dictionaries only looks at what the functions
around it bind, and there are none between two statements of the program. The
pass that rebuilds loops looks at nothing at all, and treats every statement of
a list alone.
-/
namespace Untangle

namespace Visitor

variable {σ : Type} {v : Visitor σ}

/-- The second part of a list becomes what it would become alone, if the walk over the first part
ends in a state that the visitor does not tell from the one at the start. -/
theorem Overlooks.run_append {R : σ → σ → Prop} (h : v.Overlooks R) (a b : List Statement) {s : σ}
    (hs : R ((v.statementsFrom 0 a).run s).2 s) :
    ((v.statementsFrom 0 (a ++ b)).run s).1 =
      ((v.statementsFrom 0 a).run s).1 ++ ((v.statementsFrom 0 b).run s).1 := by
  rw [run_statementsFrom_append, (h.alike_statementsFrom 0 b hs).1]

end Visitor

/-- The pass treats the parts of a list of statements apart. -/
def Pass.Distributes (pass : Pass) : Prop :=
  ∀ (a b : List Statement) (t : SourceType), (pass.run ⟨a ++ b, t⟩).program.body =
    (pass.run ⟨a, t⟩).program.body ++ (pass.run ⟨b, t⟩).program.body

namespace DictionaryInlining

/-- What an expression becomes is determined by what the functions around it bind. -/
theorem Leaves.eq_getD {e e' : Expression} {s t : State} (h : Leaves e s e' t) :
    e' = ((replacement? (binders s) e).map Prod.snd).getD e := by
  cases h with
  | met he _ =>
    rw [he]
    rfl
  | kept _ hnone _ => rw [hnone]; rfl
  | replaced he _ => rw [he]; rfl

/-- Leaving an expression goes by the binders alone. -/
theorem alike_leaveExpression (e : Expression) :
    Alike (fun s t => binders s = binders t) (leaveExpression e) := by
  intro s t hst
  have hs := leaves e s
  have ht := leaves e t
  constructor
  · rw [hs.eq_getD, ht.eq_getD, hst]
  · exact hs.binders_eq.trans (hst.trans ht.binders_eq.symm)

theorem alike_enterFunction (params : List Expression) (body : Option (List Statement)) :
    Alike (fun s t => binders s = binders t) (enterFunction params body) := by
  intro s t hst
  constructor
  · obtain ⟨s', hs', -⟩ := run_enterFunction params body s
    obtain ⟨t', ht', -⟩ := run_enterFunction params body t
    rw [hs', ht']
  · show binders _ = binders _
    rw [binders_enterFunction, binders_enterFunction, hst]

theorem alike_leaveFunction : Alike (fun s t => binders s = binders t) leaveFunction := by
  intro s t hst
  refine ⟨rfl, ?_⟩
  show binders _ = binders _
  rw [binders_leaveFunction, binders_leaveFunction, hst]

/-- The visitor only looks at what the functions around bind. -/
theorem overlooks : visitor.Overlooks fun s t => binders s = binders t where
  enterStatements _ _ _ hst := ⟨rfl, hst⟩
  leaveStatements _ _ _ hst := ⟨rfl, hst⟩
  enterFunction := alike_enterFunction
  leaveFunction := alike_leaveFunction
  leaveExpression := alike_leaveExpression

/-- After a part of the tree the functions around bind the same as before. -/
theorem respects_binders : visitor.Respects fun s t => binders t = binders s where
  refl _ := rfl
  trans h h' := h'.trans h
  enterStatements _ _ := rfl
  leaveStatements _ _ := rfl
  leaveExpression e s := (leaves e s).binders_eq
  function params body s t h := by
    have hleave : binders (leaveFunction.run t).2 = (binders t).tail := binders_leaveFunction t
    have henter : binders ((enterFunction params body).run s).2 =
        .ofFunction params body :: binders s := binders_enterFunction params body s
    exact hleave.trans (by rw [h]; exact congrArg List.tail henter)

/-- Inlining dictionaries keeps the number of statements outside of all functions. -/
theorem length_body_run (p : Program) : (run p).program.body.length = p.body.length := by
  show ((visitor.statementsFrom 0 p.body).run {}).1.length = _
  rw [Visitor.length_statementsFrom, Nat.sub_zero]

end DictionaryInlining

/-- The pass that inlines dictionaries treats the parts of a program apart. -/
theorem dictionaryInlining_distributes : dictionaryInlining.Distributes := by
  intro a b t
  have hbinders := DictionaryInlining.respects_binders.keeps_statementsFrom 0 a {}
  exact DictionaryInlining.overlooks.run_append a b hbinders

/-- What comes behind some statements becomes the same with them and without them. -/
theorem DictionaryInlining.drop_body_run {p : Program} {n : Nat} (h : n ≤ p.body.length) :
    (run p).program.body.drop n = (run { p with body := p.body.drop n }).program.body := by
  have hfront : (run ⟨p.body.take n, p.sourceType⟩).program.body.length = n := by
    rw [length_body_run, List.length_take, Nat.min_eq_left h]
  have hwhole : (run ⟨p.body.take n ++ p.body.drop n, p.sourceType⟩).program.body =
      (run ⟨p.body.take n, p.sourceType⟩).program.body ++
        (run { p with body := p.body.drop n }).program.body :=
    dictionaryInlining_distributes _ _ _
  rw [List.take_append_drop] at hwhole
  rw [hwhole, List.drop_left' hfront]

namespace LoopRebuilding

def rebuilt (s : Statement) : List Statement :=
  match LoopExit.find s with
  | .exit x => if x.isRebuildable then x.loop :: x.spliced else [s]
  | _ => [s]

/-- Each statement of a list is rebuilt by itself. -/
theorem run_rebuild (location : Nat) (body : List Statement) (s : Progress) :
    ((rebuild location body).run s).1 = body.flatMap rebuilt := by
  induction body generalizing location s with
  | nil => rfl
  | cons first rest ih =>
    rw [rebuild, List.flatMap_cons, rebuilt]
    cases LoopExit.find first with
    | nothing => exact congrArg (first :: ·) (ih (location + 1) s)
    | wrongBranch => exact congrArg (first :: ·) (ih (location + 1) _)
    | exit x =>
      by_cases hx : x.isRebuildable = true
      · simp only [hx, if_true]
        exact congrArg (x.loop :: x.spliced ++ ·) (ih _ _)
      · simp only [hx]
        exact congrArg (first :: ·) (ih (location + 1) s)

theorem overlooks : visitor.Overlooks fun _ _ => True where
  enterStatements _ _ _ _ := ⟨rfl, trivial⟩
  leaveStatements body s t _ := ⟨(run_rebuild 0 body s).trans (run_rebuild 0 body t).symm, trivial⟩
  enterFunction _ _ _ _ _ := ⟨rfl, trivial⟩
  leaveFunction _ _ _ := ⟨rfl, trivial⟩
  leaveExpression _ _ _ _ := ⟨rfl, trivial⟩

end LoopRebuilding

/-- The pass that rebuilds loops treats the parts of a program apart. -/
theorem loopRebuilding_distributes : loopRebuilding.Distributes := by
  intro a b t
  have hbody : ∀ l : List Statement, (loopRebuilding.run ⟨l, t⟩).program.body =
      ((LoopRebuilding.visitor.statementsFrom 0 l).run {}).1.flatMap LoopRebuilding.rebuilt :=
    fun _ => LoopRebuilding.run_rebuild 0 _ _
  rw [hbody, hbody, hbody, LoopRebuilding.overlooks.run_append a b trivial, List.flatMap_append]

end Untangle
