import Untangle.Proofs.Pass.Jumps
import Untangle.Proofs.Pass.LoopExits
import Untangle.Proofs.Walk.Congruence

/-!
# What rebuilding loops leaves as it is

A rebuilt loop loses an `if` and a `break`, and what is done on the way out of it
is put behind it. So the jumps of those statements lose a target, but they have
been searched for jumps that need it. And no statement is lost, doubled or put
before another one, but for the `if`, the `break` and the blocks around.
-/
namespace Untangle

mutual
/-- A search for jumps that also counts a `break` finds more. The induction goes over the statements
inside. -/
theorem jumpsToLoop_mono : ∀ (s : Statement) (inSwitch : Bool),
    jumpsToLoop false inSwitch s = true → jumpsToLoop true inSwitch s = true
  | .continues none, _ => id
  | .block body, inSwitch => anyJumps_mono body inSwitch
  | .labeled _ body, inSwitch => jumpsToLoop_mono body inSwitch
  | .branch _ consequent alternate, inSwitch => by
    simp only [jumpsToLoop, Bool.or_eq_true]
    exact Or.imp (jumpsToLoop_mono consequent inSwitch) (optionJumps_mono alternate inSwitch)
  | .switch _ cases, _ => casesJump_mono cases
  | .attempt block handler finalizer, inSwitch => by
    simp only [jumpsToLoop, Bool.or_eq_true]
    exact Or.imp (Or.imp (anyJumps_mono block inSwitch) (handlerJumps_mono handler inSwitch))
      (blockJumps_mono finalizer inSwitch)
  | .breaks none, _ | .breaks (some _), _ | .continues (some _), _ | .expression _ _, _
  | .empty, _ | .debugger, _ | .returns _, _ | .throws _, _ | .whileLoop _ _, _ | .doWhile _ _, _
  | .forLoop _ _ _ _, _ | .forIn _ _ _, _ | .forOf _ _ _ _, _ | .function _, _
  | .declaration _, _ | .foreign _, _ => nofun
termination_by structural s => s

theorem anyJumps_mono : ∀ (body : List Statement) (inSwitch : Bool),
    anyJumps false inSwitch body = true → anyJumps true inSwitch body = true
  | [], _ => nofun
  | s :: rest, inSwitch => by
    simp only [anyJumps, Bool.or_eq_true]
    exact Or.imp (jumpsToLoop_mono s inSwitch) (anyJumps_mono rest inSwitch)
termination_by structural l => l

theorem optionJumps_mono : ∀ (s : Option Statement) (inSwitch : Bool),
    optionJumps false inSwitch s = true → optionJumps true inSwitch s = true
  | none, _ => nofun
  | some s, inSwitch => jumpsToLoop_mono s inSwitch
termination_by structural s => s

theorem casesJump_mono : ∀ cases : List Case,
    casesJump false cases = true → casesJump true cases = true
  | [] => nofun
  | ⟨_, consequent⟩ :: rest => by
    simp only [casesJump, Bool.or_eq_true]
    exact Or.imp (anyJumps_mono consequent true) (casesJump_mono rest)
termination_by structural l => l

theorem handlerJumps_mono : ∀ (h : Option Handler) (inSwitch : Bool),
    handlerJumps false inSwitch h = true → handlerJumps true inSwitch h = true
  | none, _ => nofun
  | some ⟨_, body⟩, inSwitch => anyJumps_mono body inSwitch
termination_by structural h => h

theorem blockJumps_mono : ∀ (b : Option (List Statement)) (inSwitch : Bool),
    blockJumps false inSwitch b = true → blockJumps true inSwitch b = true
  | none, _ => nofun
  | some body, inSwitch => anyJumps_mono body inSwitch
termination_by structural b => b
end

section JumpsLegal

variable {c : JumpContext}

/-- Statements that do not jump to the loop around them may as well be outside of it. -/
theorem jumpsLegal_outside {body : List Statement} (hquiet : anyJumps true false body = false)
    (h : (statementsDiagram body).jumpsLegal c.looping = true) :
    (statementsDiagram body).jumpsLegal c = true := by
  have hnone : ∀ breaks, anyJumps breaks false body ≠ true := by
    intro breaks hjumps
    have hbreaks : anyJumps true false body = true := by
      cases breaks with
      | true => exact hjumps
      | false => exact anyJumps_mono body false hjumps
    rw [hquiet] at hbreaks
    cases hbreaks
  obtain ⟨-, hjudged⟩ := judged_block body c false h
  exact hjudged ⟨fun hjumps => absurd hjumps (hnone _), fun hjumps => absurd hjumps (hnone _)⟩

theorem jumpsLegal_append {a b : List Statement} :
    (statementsDiagram (a ++ b)).jumpsLegal c = true ↔
      (statementsDiagram a).jumpsLegal c = true ∧ (statementsDiagram b).jumpsLegal c = true := by
  simp only [jumpsLegal_statements, List.forall_mem_append]

/-- Without the block around them the jumps of statements are as legal as before. -/
theorem jumpsLegal_asList (s : Statement) :
    (statementsDiagram s.asList).jumpsLegal c = s.diagram.jumpsLegal c := by
  cases s with
  | block body => exact (Bool.and_true _).symm
  | _ => exact Bool.and_true _

theorem jumpsLegal_negated (e : Expression) :
    e.negated.diagram.jumpsLegal c = e.diagram.jumpsLegal c := by
  unfold Expression.negated
  split
  · next leading argument =>
    have hnot : (Expression.unary .not leading argument).diagram.jumpsLegal c =
        (argument.diagram.jumpsLegal .outermost && true) := rfl
    rw [hnot, Bool.and_true]
    exact Diagram.Enclosed.expression argument c .outermost
  · have hnot : (Expression.unary .not true e).diagram.jumpsLegal c =
        (e.diagram.jumpsLegal .outermost && true) := rfl
    rw [hnot, Bool.and_true]
    exact Diagram.Enclosed.expression e .outermost c

end JumpsLegal

namespace LoopExit

variable {x : LoopExit} {s branch : Statement} {c : JumpContext}

theorem jumpsLegal_stays (x : LoopExit) :
    x.stays.diagram.jumpsLegal c = x.test.diagram.jumpsLegal c := by
  unfold stays
  split
  · exact jumpsLegal_negated x.test
  · rfl

/-- What a way out is made of jumps only where the branch did. -/
theorem Takes.jumpsLegal (hx : x.Takes branch) (h : branch.diagram.jumpsLegal c = true) :
    x.test.diagram.jumpsLegal c = true ∧ (statementsDiagram x.retained).jumpsLegal c = true ∧
      (statementsDiagram x.spliced).jumpsLegal c = true := by
  cases hx with
  | @consequent s side retained spliced =>
    have hparts : (x.test.diagram.jumpsLegal c && (s.diagram.jumpsLegal c && true)) = true := h
    simp only [Bool.and_true, Bool.and_eq_true, ← jumpsLegal_asList s, spliced,
      jumpsLegal_append] at hparts
    refine ⟨hparts.1, ?_, hparts.2.1⟩
    rw [retained]
    rfl
  | @alternate s other side retained spliced =>
    have hparts : (x.test.diagram.jumpsLegal c && (s.diagram.jumpsLegal c &&
      (other.diagram.jumpsLegal c && true))) = true := h
    simp only [Bool.and_true, Bool.and_eq_true, ← jumpsLegal_asList other, spliced,
      jumpsLegal_append] at hparts
    refine ⟨hparts.1, ?_, hparts.2.2.1⟩
    rw [retained, jumpsLegal_asList]
    exact hparts.2.1

/-- A loop in which an exit is found, with the `if` that it is found in. -/
theorem exists_loop (h : find s = .exit x) :
    ∃ constant branch, s = .whileLoop constant (.block (x.head ++ [branch])) ∧ x.Takes branch := by
  obtain ⟨constant, consequent, alternate, rfl, -⟩ := exists_of_find h
  obtain ⟨branch, hbody, hbranch⟩ := exists_branch h
  exact ⟨constant, branch, congrArg (Statement.whileLoop constant) hbody, hbranch⟩

/-- The loop with its new test, and what is put behind it, jump only where they could before. -/
theorem jumpsLegal_rebuilt (hfind : find s = .exit x) (hx : x.isRebuildable = true)
    (h : s.diagram.jumpsLegal c = true) :
    (statementsDiagram (x.loop :: x.spliced)).jumpsLegal c = true := by
  obtain ⟨constant, branch, rfl, hbranch⟩ := exists_loop hfind
  have hloop : (constant.diagram.jumpsLegal c.looping &&
      (((statementsDiagram (x.head ++ [branch])).jumpsLegal c.looping && true) && true)) = true := h
  simp only [Bool.and_true, Bool.and_eq_true, jumpsLegal_append] at hloop
  obtain ⟨-, hhead, hlast⟩ := hloop
  obtain ⟨htest, hretained, hspliced⟩ := hbranch.jumpsLegal ((Bool.and_true _).symm.trans hlast)
  have hquiet : anyJumps true false x.spliced = false := by
    simp only [isRebuildable, Bool.and_eq_true, Bool.not_eq_true'] at hx
    exact hx.1.2
  have hbody := jumpsLegal_append.2 ⟨hhead, hretained⟩
  show ((x.stays.diagram.jumpsLegal c.looping &&
    (((statementsDiagram (x.head ++ x.retained)).jumpsLegal c.looping && true) && true)) &&
      (statementsDiagram x.spliced).jumpsLegal c) = true
  rw [jumpsLegal_stays, htest, hbody, jumpsLegal_outside hquiet hspliced]
  rfl

end LoopExit

namespace LoopRebuilding

/-- What the walk needs of a relation is known once it holds of each loop that is rebuilt. How a
list is cut must not matter to the relation. -/
theorem upholds_of_rebuilt {R : Diagram → Diagram → Prop}
    (h : Diagram.Congruence fun d d' _ _ => R d d')
    (happend : ∀ a b : List Statement,
      R (.pair (statementsDiagram a) (statementsDiagram b)) (statementsDiagram (a ++ b)))
    (hrebuilt : ∀ {s x}, LoopExit.find s = .exit x → x.isRebuildable = true →
      R s.diagram (statementsDiagram (x.loop :: x.spliced))) :
    visitor.Upholds fun d d' _ _ => R d d' := by
  have hpair : ∀ {a a' b b'}, R a a' → R b b' → R (.pair a b) (.pair a' b') :=
    fun ha hb => h.pair (s := {}) (t := {}) (u := {}) ha hb
  have hlist : ∀ body : List Statement,
      R (statementsDiagram body) (statementsDiagram (body.flatMap rebuilt)) := by
    intro body
    induction body with
    | nil => exact h.refl _ {}
    | cons first rest ih =>
      have hstays : R (statementsDiagram (first :: rest))
          (statementsDiagram ([first] ++ rest.flatMap rebuilt)) := hpair (h.refl _ {}) ih
      rw [List.flatMap_cons, rebuilt]
      split
      · next x hfind =>
        split
        · next hx =>
          exact h.trans (s := {}) (t := {}) (u := {}) (hpair (hrebuilt hfind hx) ih) (happend _ _)
        · exact hstays
      · exact hstays
  refine h.upholds rfl rfl (fun _ => rfl) (fun body s => ?_) fun e s => h.refl _ s
  show R _ (statementsDiagram ((rebuild 0 body).run s).1)
  rw [run_rebuild]
  exact hlist body

/-- All jumps that were legal are legal still. -/
def Admits (d d' : Diagram) : Prop := ∀ c, d.jumpsLegal c = true → d'.jumpsLegal c = true

/-- What was legal stays legal in a walk if it does at each of its calls. -/
theorem congruence_admits : Diagram.Congruence fun d d' _ _ => Admits d d' where
  refl _ _ := fun _ h => h
  trans h h' := fun c hc => h' c (h c hc)
  pair h h' := fun c hc => by
    obtain ⟨hfirst, hrest⟩ := Bool.and_eq_true_iff.1 hc
    exact Bool.and_eq_true_iff.2 ⟨h c hfirst, h' c hrest⟩
  expression h := fun _ hc => h .outermost hc
  statement {root} _ _ _ _ h := fun c hc => by
    obtain ⟨hroot, hparts⟩ := Bool.and_eq_true_iff.1 hc
    exact Bool.and_eq_true_iff.2 ⟨hroot, h (root.inside c) hparts⟩
  clause h := h
  block h := h
  function h h' := fun _ hc => by
    obtain ⟨hparams, hbody⟩ := Bool.and_eq_true_iff.1 hc
    exact Bool.and_eq_true_iff.2 ⟨h .outermost hparams, h' .outermost hbody⟩
  scope h := h

/-- Rebuilding loops keeps the jumps of a program legal. -/
theorem run_jumpsLegal (p : Program) (h : p.jumpsLegal = true) :
    (run p).program.jumpsLegal = true := by
  have hupholds : visitor.Upholds fun d d' _ _ => Admits d d' := by
    apply upholds_of_rebuilt congruence_admits
    · intro a b c hc
      exact jumpsLegal_append.2 (Bool.and_eq_true_iff.1 hc)
    · intro s x hfind hx c hc
      exact LoopExit.jumpsLegal_rebuilt hfind hx hc
  exact hupholds.carries_program p {} .outermost h

/-- `outer: for (;;) { while (true) { f; if (t) { switch (v) { default: break; } continue outer;
break; } } }` -/
def leavingBoth : Program :=
  ⟨[.labeled "outer" (.forLoop none none none (.block
    [.whileLoop LoopExit.always (.block
      [.expression (.identifier "f") none,
        .branch (.identifier "t") (.block
          [.switch (.identifier "v") [⟨none, [.breaks none]⟩], .continues (some "outer"),
            .breaks none]) none])]))], .script⟩

/-- The `switch` and the jump to the label are put behind the loop, and find their targets there. -/
theorem run_leavingBoth_jumpsLegal :
    leavingBoth.jumpsLegal = true ∧ (run leavingBoth).changed = true ∧
      (run leavingBoth).program.jumpsLegal = true :=
  ⟨rfl, rfl, run_jumpsLegal leavingBoth rfl⟩

end LoopRebuilding

namespace StatementRoot

def isBranch : StatementRoot → Bool
  | branch => true
  | _ => false

def isPlainBreak : StatementRoot → Bool
  | breaks none => true
  | _ => false

/-- What a loop may lose when it is rebuilt: blocks, an `if` and a `break` without a label. -/
def isScaffold : StatementRoot → Bool
  | block | branch | breaks none => true
  | _ => false

end StatementRoot

namespace Diagram

/-- The statements of a tree as they are written, each before those inside of it. What is in
expressions is not looked at, but the bodies of functions that are declared are. -/
def statementRoots : Diagram → List StatementRoot
  | nothing | passed _ | expression _ _ => []
  | pair first rest => first.statementRoots ++ rest.statementRoots
  | statement root parts => root :: parts.statementRoots
  | clause _ parts | block _ parts => parts.statementRoots
  | function _ _ body => body.statementRoots

end Diagram

def Program.statementRoots (p : Program) : List StatementRoot := p.diagram.statementRoots

/-- Two lists of statements that differ only in what a loop may lose, and in as many `if`s as
`break`s. -/
structure Relisted (l l' : List StatementRoot) : Prop where
  kept : l'.filter (!·.isScaffold) = l.filter (!·.isScaffold)
  balance : (l'.countP (·.isBranch) : ℤ) - l'.countP (·.isPlainBreak) =
    l.countP (·.isBranch) - l.countP (·.isPlainBreak)

namespace Relisted

variable {a a' b b' l l' l'' : List StatementRoot}

theorem refl (l : List StatementRoot) : Relisted l l := ⟨rfl, rfl⟩

theorem trans (h : Relisted l l') (h' : Relisted l' l'') : Relisted l l'' :=
  ⟨h'.kept.trans h.kept, h'.balance.trans h.balance⟩

theorem append (h : Relisted a a') (h' : Relisted b b') : Relisted (a ++ b) (a' ++ b') := by
  have hfirst := h.balance
  have hrest := h'.balance
  refine ⟨?_, ?_⟩
  · rw [List.filter_append, List.filter_append, h.kept, h'.kept]
  · simp only [List.countP_append, Nat.cast_add]
    omega

theorem cons (root : StatementRoot) (h : Relisted l l') : Relisted (root :: l) (root :: l') :=
  (refl [root]).append h

/-- A block is taken off. -/
theorem unwrapped (l : List StatementRoot) : Relisted (.block :: l) l := ⟨rfl, rfl⟩

/-- An `if` goes together with the `break` at the end of it. -/
theorem unbranched (l : List StatementRoot) : Relisted (.branch :: (l ++ [.breaks none])) l := by
  refine ⟨?_, ?_⟩
  · simp [StatementRoot.isScaffold]
  · simp [StatementRoot.isBranch, StatementRoot.isPlainBreak]

end Relisted

/-- There are no statements in an expression, apart from functions. -/
theorem Expression.statementRoots_eq_nil (e : Expression) : e.diagram.statementRoots = [] := by
  obtain ⟨root, parts, he⟩ := e.exists_diagram
  rw [he]
  rfl

theorem statementRoots_append (a b : List Statement) :
    (statementsDiagram (a ++ b)).statementRoots =
      (statementsDiagram a).statementRoots ++ (statementsDiagram b).statementRoots :=
  statementsDiagram_append List.nil_append List.append_assoc (fun _ _ => rfl) a b

theorem statementRoots_single (s : Statement) :
    (statementsDiagram [s]).statementRoots = s.diagram.statementRoots :=
  List.append_nil _

/-- A block may be dropped around its statements. -/
theorem relisted_asList (s : Statement) :
    Relisted s.diagram.statementRoots (statementsDiagram s.asList).statementRoots := by
  unfold Statement.asList
  split
  · next body =>
    have hblock : (Statement.block body).diagram.statementRoots =
        .block :: ((statementsDiagram body).statementRoots ++ []) := rfl
    rw [hblock, List.append_nil]
    exact .unwrapped _
  · rw [statementRoots_single]
    exact .refl _

namespace LoopExit

variable {x : LoopExit} {s branch : Statement}

/-- A branch that leaves the loop is relisted as what is kept and what is put behind. -/
theorem Takes.relisted (hx : x.Takes branch) :
    Relisted branch.diagram.statementRoots
      ((statementsDiagram x.retained).statementRoots ++
        (statementsDiagram x.spliced).statementRoots) := by
  have hexit : ∀ {s : Statement}, s.asList = x.spliced ++ [.breaks none] →
      Relisted s.diagram.statementRoots
        ((statementsDiagram x.spliced).statementRoots ++ [.breaks none]) := by
    intro s hs
    have hlist := relisted_asList s
    rw [hs, statementRoots_append] at hlist
    exact hlist
  cases hx with
  | @consequent s side retained spliced =>
    have hbranch : (Statement.branch x.test s none).diagram.statementRoots =
        .branch :: (x.test.diagram.statementRoots ++ (s.diagram.statementRoots ++ [])) := rfl
    rw [hbranch, x.test.statementRoots_eq_nil, List.append_nil, List.nil_append, retained]
    exact ((hexit spliced).cons .branch).trans (.unbranched _)
  | @alternate s other side retained spliced =>
    have hbranch : (Statement.branch x.test s (some other)).diagram.statementRoots =
        .branch :: (x.test.diagram.statementRoots ++ (s.diagram.statementRoots ++
          (other.diagram.statementRoots ++ []))) := rfl
    rw [hbranch, x.test.statementRoots_eq_nil, List.append_nil, List.nil_append, retained]
    have hparts := (relisted_asList s).append (hexit spliced)
    rw [← List.append_assoc] at hparts
    exact (hparts.cons .branch).trans (.unbranched _)

/-- A rebuilt loop is relisted as the loop and what is put behind it. -/
theorem relisted_rebuilt (hfind : find s = .exit x) :
    Relisted s.diagram.statementRoots (statementsDiagram (x.loop :: x.spliced)).statementRoots := by
  obtain ⟨constant, branch, rfl, hbranch⟩ := exists_loop hfind
  have hloop : ∀ (test : Expression) (body : List Statement),
      (Statement.whileLoop test (.block body)).diagram.statementRoots =
        .whileLoop :: .block :: (statementsDiagram body).statementRoots := by
    intro test body
    have hparts : (Statement.whileLoop test (.block body)).diagram.statementRoots =
        .whileLoop :: (test.diagram.statementRoots ++
          (.block :: ((statementsDiagram body).statementRoots ++ []) ++ [])) := rfl
    rw [hparts, test.statementRoots_eq_nil, List.append_nil, List.append_nil, List.nil_append]
  have hnew : (statementsDiagram (x.loop :: x.spliced)).statementRoots =
      x.loop.diagram.statementRoots ++ (statementsDiagram x.spliced).statementRoots := rfl
  rw [hnew, loop_eq, hloop, hloop, statementRoots_append, statementRoots_append,
    statementRoots_single, List.cons_append, List.cons_append, List.append_assoc]
  exact (((Relisted.refl _).append hbranch.relisted).cons .block).cons .whileLoop

end LoopExit

namespace LoopRebuilding

/-- Relisting goes through all nodes. -/
theorem congruence_relisted :
    Diagram.Congruence fun d d' _ _ => Relisted d.statementRoots d'.statementRoots where
  refl _ _ := .refl _
  trans := .trans
  pair := .append
  expression _ := .refl []
  statement {root} _ _ _ _ h := h.cons root
  clause h := h
  block h := h
  function _ h := h
  scope h := h

/-- Rebuilding loops neither loses nor doubles a statement and keeps their order, but for blocks,
`if`s and `break`s without a label; and it takes away as many `if`s as such `break`s. -/
theorem run_statementRoots (p : Program) :
    (run p).program.statementRoots.filter (!·.isScaffold) =
        p.statementRoots.filter (!·.isScaffold) ∧
      ((run p).program.statementRoots.countP (·.isBranch) : ℤ) -
          (run p).program.statementRoots.countP (·.isPlainBreak) =
        p.statementRoots.countP (·.isBranch) - p.statementRoots.countP (·.isPlainBreak) := by
  have hupholds : visitor.Upholds fun d d' _ _ => Relisted d.statementRoots d'.statementRoots := by
    apply upholds_of_rebuilt congruence_relisted
    · intro a b
      rw [statementRoots_append]
      exact .refl _
    · intro s x hfind _
      exact LoopExit.relisted_rebuilt hfind
  have hrelisted := hupholds.carries_program p {}
  exact ⟨hrelisted.kept, hrelisted.balance⟩

end LoopRebuilding

end Untangle
