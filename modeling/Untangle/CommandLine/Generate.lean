import Untangle.CommandLine.Failure

/-!
# The command that prints a program

The source goes to the answer stream unless a file is named for it.
-/
namespace Untangle.CommandLine

variable {m : Type → Type} [Monad m] [Host m]

def runGenerate (p : Path) (output : Option Path) (layout : Printer.Layout) : Action m Unit := do
  let program ← Action.load "failed to load program: " p
  let source ← Action.print "failed to print program: " p layout program
  match output with
  | some output => Action.store "failed to write output: " output source
  | none => Action.answer source

end Untangle.CommandLine
