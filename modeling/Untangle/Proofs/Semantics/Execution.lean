import Untangle.Proofs.Semantics.Behavior
import Untangle.Syntax.Tree

/-!
# What statements do

What expressions do is left open, but for tests: these only look at the state,
and a `!` turns them around. A block has no scope of its own, and a statement
that was not understood may do anything.
-/
namespace Untangle

/-- What a loop goes through. -/
inductive Traversal where
  | keys
  | items
  | awaited

/-- What is done by the parts of statements that are not statements. Nothing of it jumps, but it may
throw or not end. -/
structure Interpretation (σ ν ι : Type) where
  holds : Expression → σ → Bool
  holds_not : ∀ leading e s, holds (.unary .not leading e) s = !holds e s
  evaluate : Expression → Effect σ ν ν
  declare : Declaration → Effect σ ν Unit
  /-- The number of the case that a `switch` goes to, by its value and the tests of its cases. -/
  choose : Expression → List (Option Expression) → Effect σ ν Nat
  /-- Binds an error that was thrown. -/
  bind : Option Expression → ν → Effect σ ν Unit
  start : Traversal → Expression → Effect σ ν ι
  /-- Binds what comes next, if there is something. -/
  next : LoopHead → ι → Effect σ ν (Option ι)
  /-- What is done when a loop is left before its end. -/
  close : ι → Completion ν → Effect σ ν Unit
  foreign : Json → Behavior σ ν

namespace Interpretation

open Behavior

variable {σ ν ι : Type} (M : Interpretation σ ν ι)

def optional : Option Expression → Behavior σ ν
  | none => skip
  | some e => after (M.evaluate e) fun _ => skip

def initial : Option LoopHead → Behavior σ ν
  | none => skip
  | some (.expression e) => after (M.evaluate e) fun _ => skip
  | some (.declaration d) => after (M.declare d) fun _ => skip

/-- A loop without a test goes on. -/
def passes : Option Expression → σ → Bool
  | none, _ => true
  | some e, s => M.holds e s

/-- Goes on to the next item, or leaves the loop. -/
def advance (left : LoopHead) : Behavior (σ × ι) ν := fun (s, i) =>
  (M.next left i s).map fun
    | (t, .ok (some j)) => ((t, j), .normal)
    | (t, .ok none) => ((t, i), .breaks none)
    | (t, .error x) => ((t, i), .throws x)

/-- A behavior for an item, which closes what is gone through if it does not end normally. -/
def visit (m : Behavior σ ν) : Behavior (σ × ι) ν := fun (s, i) =>
  (m s).bind fun
    | (t, .normal) => .some ((t, i), .normal)
    | (t, c) =>
      (M.close i c t).map fun
        | (u, .ok _) => ((u, i), c)
        | (u, .error x) => ((u, i), .throws x)

/-- Goes through all items. -/
def traverse (kind : Traversal) (left : LoopHead) (right : Expression) (m : Behavior σ ν) :
    Behavior σ ν :=
  after (M.start kind right) fun i s =>
    (repeated ((M.advance left).andThen (M.visit m)) (s, i)).map fun r => (r.1.1, r.2)

mutual
/-- What a statement does that has some labels. -/
def statement (labels : List String) : Statement → Behavior σ ν
  | .expression e _ => after (M.evaluate e) fun _ => skip
  | .block body => statements body
  | .empty | .debugger | .function _ => skip
  | .returns none => ends (.returns none)
  | .returns (some e) => after (M.evaluate e) fun v => ends (.returns (some v))
  | .breaks label => ends (.breaks label)
  | .continues label => ends (.continues label)
  | .labeled label body => (statement (label :: labels) body).ending (.broken (some label))
  | .branch test consequent alternate =>
    either (M.holds test) (statement [] consequent) (otherwise alternate)
  | .switch discriminant cases =>
    (after (M.choose discriminant (cases.map (·.test))) fun n => casesFrom n cases).ending
      (.broken none)
  | .throws e => after (M.evaluate e) fun v => ends (.throws v)
  | .attempt block handler finalizer =>
    ((statements block).rescued (recover handler)).lastly (cleanUp finalizer)
  | .whileLoop test body =>
    repeated (guarded (M.holds test) ((statement [] body).ending (.continued labels)))
  | .doWhile body test =>
    repeated (((statement [] body).ending (.continued labels)).andThen
      (guarded (M.holds test) skip))
  | .forLoop init test update body =>
    (M.initial init).andThen (repeated (guarded (M.passes test)
      (((statement [] body).ending (.continued labels)).andThen (M.optional update))))
  | .forIn left right body =>
    M.traverse .keys left right ((statement [] body).ending (.continued labels))
  | .forOf left right body await =>
    M.traverse (if await then .awaited else .items) left right
      ((statement [] body).ending (.continued labels))
  | .declaration d => after (M.declare d) fun _ => skip
  | .foreign value => M.foreign value
termination_by structural s => s

def statements : List Statement → Behavior σ ν
  | [] => skip
  | s :: rest => (statement [] s).andThen (statements rest)
termination_by structural l => l

def otherwise : Option Statement → Behavior σ ν
  | none => skip
  | some s => statement [] s
termination_by structural s => s

/-- The cases from a number on, one after the other. -/
def casesFrom : Nat → List Case → Behavior σ ν
  | _, [] => skip
  | n + 1, _ :: rest => casesFrom n rest
  | 0, ⟨_, consequent⟩ :: rest => (statements consequent).andThen (casesFrom 0 rest)
termination_by structural _ l => l

def recover : Option Handler → ν → Behavior σ ν
  | none, x => ends (.throws x)
  | some ⟨param, body⟩, x => after (M.bind param x) fun _ => statements body
termination_by structural h => h

def cleanUp : Option (List Statement) → Behavior σ ν
  | none => skip
  | some body => statements body
termination_by structural b => b
end

section Loops

variable {M}

/-- Where the test holds and the body ends normally, another round of the loop follows. -/
theorem whileLoop_next {test : Expression} {body : Statement} {s t : σ} {r : σ × Completion ν}
    (htest : M.holds test s = true) (hbody : (t, .normal) ∈ M.statement [] body s)
    (hr : r ∈ M.statement [] (.whileLoop test body) t) :
    r ∈ M.statement [] (.whileLoop test body) s := by
  refine repeated_next (t := t) ?_ hr
  rw [guarded_true _ htest]
  exact mem_ending.2 ⟨.normal, hbody, rfl⟩

/-- Where the test holds and the body breaks, the loop ends. -/
theorem whileLoop_break {test : Expression} {body : Statement} {s t : σ}
    (htest : M.holds test s = true) (hbody : (t, .breaks none) ∈ M.statement [] body s) :
    (t, .normal) ∈ M.statement [] (.whileLoop test body) s := by
  refine repeated_last (c := .breaks none) ?_ nofun
  rw [guarded_true _ htest]
  exact mem_ending.2 ⟨.breaks none, hbody, rfl⟩

theorem whileLoop_end {test : Expression} {body : Statement} {s : σ}
    (htest : M.holds test s = false) : (s, .normal) ∈ M.statement [] (.whileLoop test body) s :=
  repeated_guarded_false _ htest

end Loops

def noted (note : List String → String → List String) : Expression → List String → List String
  | .call (.identifier name) _ _, s => note s name
  | _, s => s

def compared (less : List String → Bool) : Expression → List String → Bool
  | .unary .not _ e, s => !compared less e s
  | .binary _ _ _, s => less s
  | _, _ => true
termination_by structural e => e

/-- All that is done is to note which functions are called. A comparison goes by the notes. -/
def calls (note : List String → String → List String) (less : List String → Bool) :
    Interpretation (List String) Unit Unit where
  holds := compared less
  holds_not _ _ _ := rfl
  evaluate e s := .some (noted note e s, .ok ())
  declare _ s := .some (s, .ok ())
  choose _ _ s := .some (s, .ok 0)
  bind _ _ s := .some (s, .ok ())
  start _ _ s := .some (s, .ok ())
  next _ _ s := .some (s, .ok none)
  close _ _ s := .some (s, .ok ())
  foreign _ := skip

def call (name : String) : Statement := .expression (.call (.identifier name) [] false) none

/-- Calls in order are noted in order. -/
theorem statements_call (note : List String → String → List String) (less : List String → Bool)
    (names : List String) (s : List String) :
    (calls note less).statements (names.map call) s = .some (names.foldl note s, .normal) := by
  induction names generalizing s with
  | nil => rfl
  | cons name names ih =>
    have hfirst : (calls note less).statement [] (call name) s = .some (note s name, .normal) := by
      rw [call, statement, after]
      exact Part.bind_some _ _
    rw [List.map_cons, statements, andThen, hfirst, Part.bind_some]
    exact ih (note s name)

end Interpretation
end Untangle
