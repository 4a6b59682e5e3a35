import Untangle.Pass.Basic
import Untangle.Syntax.View

/-!
# Loops with an exit at the end

Such a loop is endless but for a `break` in a last `if`. The pass makes the
condition of the `if` the test of the loop and puts what the exit does behind
the loop. The test then comes before the first round and not after it, so the
rebuilt loop agrees with the old one only if its test holds at the start.
-/
namespace Untangle

/-- The statements of a branch or a body: those of a block, or the single one. -/
def Statement.asList : Statement → List Statement
  | .block body => body
  | s => [s]

/-- The statements before a last `break` without a label. -/
def beforeBreak? (body : List Statement) : Option (List Statement) :=
  match body.getLast? with
  | some s => if s.isPlainBreak then some body.dropLast else none
  | none => none

mutual
/-- Does the statement jump, without a label, to the loop around it? A `continue` always counts, a
`break` if `breaks` asks for it and no `switch` is in between. -/
def jumpsToLoop (breaks inSwitch : Bool) : Statement → Bool
  | .continues none => true
  | .breaks none => breaks && !inSwitch
  | .block body => anyJumps breaks inSwitch body
  | .labeled _ body => jumpsToLoop breaks inSwitch body
  | .branch _ consequent alternate =>
    jumpsToLoop breaks inSwitch consequent || optionJumps breaks inSwitch alternate
  | .switch _ cases => casesJump breaks cases
  | .attempt block handler finalizer =>
    anyJumps breaks inSwitch block || handlerJumps breaks inSwitch handler
      || blockJumps breaks inSwitch finalizer
  | _ => false
termination_by structural s => s

def anyJumps (breaks inSwitch : Bool) : List Statement → Bool
  | [] => false
  | s :: rest => jumpsToLoop breaks inSwitch s || anyJumps breaks inSwitch rest
termination_by structural l => l

def optionJumps (breaks inSwitch : Bool) : Option Statement → Bool
  | none => false
  | some s => jumpsToLoop breaks inSwitch s
termination_by structural s => s

def casesJump (breaks : Bool) : List Case → Bool
  | [] => false
  | ⟨_, consequent⟩ :: rest => anyJumps breaks true consequent || casesJump breaks rest
termination_by structural l => l

def handlerJumps (breaks inSwitch : Bool) : Option Handler → Bool
  | none => false
  | some ⟨_, body⟩ => anyJumps breaks inSwitch body
termination_by structural h => h

def blockJumps (breaks inSwitch : Bool) : Option (List Statement) → Bool
  | none => false
  | some body => anyJumps breaks inSwitch body
termination_by structural b => b
end

/-- The branch of the `if` that leaves the loop. -/
inductive ExitSide where
  | consequent | alternate
  deriving DecidableEq, Repr

/-- An endless loop with an exit at its end: the statements before the `if`, its test, the branch
that stays in the loop and what the other branch does before it leaves. -/
structure LoopExit where
  side : ExitSide
  head : List Statement
  test : Expression
  retained : List Statement
  spliced : List Statement

namespace LoopExit

/-- The loop with its new test. -/
def loop (x : LoopExit) : Statement :=
  let test := match x.side with
    | .consequent => x.test.negated
    | .alternate => x.test
  .whileLoop test (.block (x.head ++ x.retained))

/-- Nothing in the loop may jump to it, apart from a `break` when the exit does nothing else. -/
def isRebuildable (x : LoopExit) : Bool :=
  !anyJumps false false x.head && !anyJumps false false x.retained && !anyJumps true false x.spliced
    && (x.spliced.isEmpty || !(anyJumps true false x.head || anyJumps true false x.retained))

/-- What is found of an exit at the end of a loop. An exit from the first of two branches is
reported but not taken. -/
inductive Finding where
  | nothing
  | wrongBranch
  | exit (x : LoopExit)

/-- The `if` that ends the body of an endless loop, with the statements before it. -/
def lastBranch? : Statement → Option (List Statement × Expression × Statement × Option Statement)
  | .whileLoop test (.block body) =>
    if test.isTruthy then
      match body.getLast? with
      | some (.branch t consequent alternate) => some (body.dropLast, t, consequent, alternate)
      | _ => none
    else none
  | _ => none

def find (s : Statement) : Finding :=
  match lastBranch? s with
  | none => .nothing
  | some (head, test, consequent, none) =>
    match beforeBreak? consequent.asList with
    | some spliced => .exit ⟨.consequent, head, test, [], spliced⟩
    | none => .nothing
  | some (head, test, consequent, some alternate) =>
    match beforeBreak? consequent.asList, beforeBreak? alternate.asList with
    | some _, _ => .wrongBranch
    | none, some spliced => .exit ⟨.alternate, head, test, consequent.asList, spliced⟩
    | none, none => .nothing

end LoopExit

namespace LoopRebuilding

def passName : String := "loops"

def sideText : ExitSide → String
  | .consequent => "exit in then-branch"
  | .alternate => "exit in else-branch"

/-- Rebuilds the loops of a list; `location` is the place of its first statement. What is put behind
a loop is not looked at again. -/
def rebuild (location : Nat) : List Statement → StateM Progress (List Statement)
  | [] => return []
  | s :: rest => do
    match LoopExit.find s with
    | .nothing => return s :: (← rebuild (location + 1) rest)
    | .wrongBranch =>
      modify fun p => p.record passName .warning (some location)
        "loop exits from the then-branch of an if/else"
      return s :: (← rebuild (location + 1) rest)
    | .exit x =>
      if x.isRebuildable then
        modify fun p => p.record passName .loopReconstructed (some location) (sideText x.side)
        modify Progress.change
        return x.loop :: x.spliced ++ (← rebuild (location + x.spliced.length + 1) rest)
      else return s :: (← rebuild (location + 1) rest)

def visitor : Visitor Progress := { scopeVisitor with leaveStatements := rebuild 0 }

def run (p : Program) : Outcome := Progress.walk visitor p

end LoopRebuilding

def loopRebuilding : Pass where
  name := LoopRebuilding.passName
  description := "Rebuilds while(true) loops that exit through a trailing if/break"
  run := LoopRebuilding.run

end Untangle
