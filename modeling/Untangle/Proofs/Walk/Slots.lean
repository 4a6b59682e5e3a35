import Untangle.Proofs.Walk.Nesting

/-!
# Every expression is left once

A visitor that only edits expressions is handed each of them once, after its
parts and with what has become of these. What it puts in the place of an
expression is not handed to it again. The order is that in which the program is
written, but for the test of a `do` loop, which comes before the body.
-/
namespace Untangle

variable {σ : Type}

namespace Diagram

/-- The expressions of a tree, each after its parts; with the test of a `do` loop before its body,
or behind it as it is written. -/
def slots (testFirst : Bool) : Diagram → List Diagram
  | .nothing | .passed _ => []
  | .pair first rest => first.slots testFirst ++ rest.slots testFirst
  | .expression root parts => parts.slots testFirst ++ [.expression root parts]
  | .statement .doWhile (.pair test body) =>
    if testFirst then test.slots testFirst ++ body.slots testFirst
    else body.slots testFirst ++ test.slots testFirst
  | .statement _ parts | .clause _ parts | .block _ parts => parts.slots testFirst
  | .function _ parts body => parts.slots testFirst ++ body.slots testFirst

theorem slots_statement (root : StatementRoot) (parts : Diagram) :
    (Diagram.statement root parts).slots true = parts.slots true := by
  cases root with
  | doWhile => cases parts <;> rfl
  | _ => rfl

/-- Every expression of a tree is handed to `f` when its parts have been, with what has become of
them, and what `f` gives back is left in its place. The list is of what `f` is handed and of what it
gives back. -/
inductive Edits (f : Expression → StateM σ Expression) :
    Diagram → Diagram → σ → σ → List (Expression × Expression) → Prop
  | nothing (s : σ) : Edits f .nothing .nothing s s []
  | passed (name : Diagram) (s : σ) : Edits f (.passed name) (.passed name) s s []
  | pair {a a' b b' : Diagram} {s t u : σ} {cs cs' : List (Expression × Expression)}
    (first : Edits f a a' s t cs) (rest : Edits f b b' t u cs') :
    Edits f (.pair a b) (.pair a' b') s u (cs ++ cs')
  | statement {a a' : Diagram} {s t : σ} {cs : List (Expression × Expression)}
    (root : StatementRoot) (parts : Edits f a a' s t cs) :
    Edits f (.statement root a) (.statement root a') s t cs
  | clause {a a' : Diagram} {s t : σ} {cs : List (Expression × Expression)} (root : ClauseRoot)
    (parts : Edits f a a' s t cs) : Edits f (.clause root a) (.clause root a') s t cs
  | block {body body' : List Statement} {s t : σ} {cs : List (Expression × Expression)}
    (inside : Edits f (statementsDiagram body) (statementsDiagram body') s t cs) :
    Edits f (blockDiagram body) (blockDiagram body') s t cs
  | function {params params' : List Expression} {b b' : Diagram} {s t u : σ}
    {cs cs' : List (Expression × Expression)}
    (first : Edits f (expressionsDiagram params) (expressionsDiagram params') s t cs)
    (rest : Edits f b b' t u cs') :
    Edits f (.function params (expressionsDiagram params) b)
      (.function params' (expressionsDiagram params') b') s u (cs ++ cs')
  | expression {root : ExpressionRoot} {a a' : Diagram} {e e' : Expression} {s t u : σ}
    {cs : List (Expression × Expression)} (parts : Edits f a a' s t cs)
    (he : e.diagram = .expression root a') (leave : (f e).run t = (e', u)) :
    Edits f (.expression root a) e'.diagram s u (cs ++ [(e, e')])

variable {f : Expression → StateM σ Expression} {d d' : Diagram} {s t : σ}
variable {cs : List (Expression × Expression)}

/-- What stands at an expression is still there when it is handed over. -/
theorem Edits.roots_eq (h : Edits f d d' s t cs) :
    cs.map (fun c => c.1.diagram.root?) = (d.slots true).map root? := by
  induction h with
  | nothing | passed => rfl
  | statement root _ ih => rw [slots_statement, ih]
  | clause _ _ ih => exact ih
  | block _ ih => exact ih
  | pair _ _ ihfirst ihrest => rw [slots, List.map_append, List.map_append, ihfirst, ihrest]
  | function _ _ ihfirst ihrest => rw [slots, List.map_append, List.map_append, ihfirst, ihrest]
  | expression _ he _ ih =>
    rw [slots, List.map_append, List.map_append, ih, List.map_singleton, he]
    rfl

end Diagram

def Call.left? : Call → Option (Expression × Expression)
  | .leaveExpression e e' => some (e, e')
  | _ => none

theorem Call.left?_eq_some_iff {c : Call} {e e' : Expression} :
    c.left? = some (e, e') ↔ c = .leaveExpression e e' := by
  cases c <;> simp [left?]

namespace Visitor

def left (v : Visitor σ) (p : Program) (s : σ) : List (Expression × Expression) :=
  (v.steps p s).filterMap (·.call.left?)

/-- A visitor that only edits expressions. -/
def editing (f : Expression → StateM σ Expression) : Visitor σ := { leaveExpression := f }

/-- A walk that only edits expressions edits them one after the other. -/
theorem edits_of_walks {f : Expression → StateM σ Expression} {around : List Entered}
    {d d' : Diagram} {s t : σ} {cs : List (Placed σ)}
    (h : (editing f).hooks.Walks around d d' s t cs) :
    d.Edits f d' s t (cs.filterMap (·.call.left?)) := by
  induction h with
  | nothing _ s => exact .nothing s
  | passed _ name s => exact .passed name s
  | statement root _ ih => exact .statement root ih
  | clause root _ ih => exact .clause root ih
  | pair _ _ ihfirst ihrest =>
    rw [List.filterMap_append]
    exact .pair ihfirst ihrest
  | expression _ he leave ih =>
    rw [List.filterMap_append]
    exact .expression ih he leave
  | skipped enter => cases enter
  | walked enter _ leave ih =>
    cases enter
    cases leave
    simpa [Call.left?] using ih.block
  | @function _ _ _ b _ _ _ _ _ _ _ _ _ hb enter _ _ leave ihfirst ihrest =>
    cases enter
    cases leave
    have hkept : b.statements?.map (·.drop 0) = b.statements? := by
      cases b.statements? <;> rfl
    rw [hkept, hb] at ihrest
    simpa [Call.left?] using ihfirst.function ihrest

theorem eq_of_inTurn {d d' : Diagram} {s t : σ}
    (h : Diagram.InTurn (fun d d' _ _ => d' = d) d d' s t) : d' = d := by
  induction h with
  | nothing => rfl
  | pair first _ ih => rw [first, ih]

/-- A visitor that only looks at expressions leaves every tree as it is. -/
theorem upholds_eq (look : Expression → StateM σ Unit) :
    (editing fun e => do look e; return e).Upholds fun d d' _ _ => d' = d where
  nothing _ := rfl
  passed _ _ := rfl
  clause hparts := congrArg _ (eq_of_inTurn hparts)
  statement hparts := congrArg _ (eq_of_inTurn hparts)
  expression he hparts := he.trans (congrArg _ (eq_of_inTurn hparts))
  settle henter := by cases henter
  descend _ hparts := congrArg blockDiagram (eq_of_statementsDiagram (eq_of_inTurn hparts))
  function := by
    intro params params' body body' cut s t u w henter hparams hbody
    cases henter
    obtain rfl := eq_of_expressionsDiagram (eq_of_inTurn hparams)
    exact congrArg (Diagram.function params' (expressionsDiagram params')) hbody
  concise := by
    intro params params' e e' cut s t u w _ hparams hbody
    obtain rfl := eq_of_expressionsDiagram (eq_of_inTurn hparams)
    exact congrArg (Diagram.function params' (expressionsDiagram params')) hbody

/-- What is looked at is not changed. -/
theorem run_program_look (look : Expression → StateM σ Unit) (p : Program) (s : σ) :
    (((editing fun e => do look e; return e).program p).run s).1 = p := by
  have hdiagram := (upholds_eq look).carries_program p s
  exact congrArg (Program.mk · p.sourceType) (Diagram.block.inj hdiagram).1

end Visitor

/-- A visitor that only edits expressions is handed every expression of the program once, after its
parts, with what has become of these, and never what it has put in the place of one. The expressions
come in the order in which they are written, but that the test of a `do` loop comes before its body.
If nothing is edited, the program is left as it is. -/
theorem expressions_left_once {σ : Type} (f : Expression → StateM σ Expression)
    (look : Expression → StateM σ Unit) (p : Program) (s : σ) :
    p.diagram.Edits f (((Visitor.editing f).program p).run s).1.diagram s
        (((Visitor.editing f).program p).run s).2 ((Visitor.editing f).left p s) ∧
      ((Visitor.editing f).left p s).map (fun c => c.1.diagram.root?) =
        (p.diagram.slots true).map Diagram.root? ∧
      (((Visitor.editing fun e => do look e; return e).program p).run s).1 = p := by
  obtain ⟨cs, hwalks, hsteps⟩ := (Visitor.editing f).exists_walks p s
  have hedits := Visitor.edits_of_walks hwalks
  have hleft : (Visitor.editing f).left p s = cs.filterMap (·.call.left?) := by
    rw [Visitor.left, ← hsteps, List.filterMap_map]
    rfl
  rw [hleft]
  exact ⟨hedits, hedits.roots_eq, Visitor.run_program_look look p s⟩

/-- A `do` loop whose test is not left where it is written: `do { a; } while (b);`. -/
theorem do_test_left_before_body :
    let p : Program :=
      ⟨[.doWhile (.block [.expression (.identifier "a") none]) (.identifier "b")], .script⟩
    ((Visitor.editing pure : Visitor Unit).left p ()).map (fun c => c.1.diagram.root?) ≠
      (p.diagram.slots false).map Diagram.root? := by
  intro p h
  have ha : (p.diagram.slots false).map Diagram.root? =
    [some (.identifier "a"), some (.identifier "b")] := rfl
  have hb : ((Visitor.editing pure : Visitor Unit).left p ()).map (fun c => c.1.diagram.root?) =
    [some (.identifier "b"), some (.identifier "a")] := rfl
  rw [ha, hb] at h
  simp at h

end Untangle
