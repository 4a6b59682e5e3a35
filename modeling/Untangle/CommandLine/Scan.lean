import Untangle.CommandLine.Failure

/-!
# The programs in a directory

These are its files with the extension `json`, except those that a run over
the directory has written itself: outputs are told by the suffix of their
names and the report by being the same file.
-/
namespace Untangle.CommandLine

/-- How to tell what a run writes: programs by the suffix of their names, and the report. -/
structure ScanFilter where
  suffix : String := ""
  report : Option Path := none

namespace ScanFilter

/-- Whether a name without its extension ends in the suffix. The empty suffix marks nothing. -/
def marks (f : ScanFilter) (stem : String) : Bool :=
  f.suffix ≠ "" && f.suffix.toList.isSuffixOf stem.toList

/-- Whether a file counts as a program by its name. -/
def acceptsName (f : ScanFilter) (p : Path) : Bool :=
  p.extension? == some "json" && !p.stem?.any f.marks

variable {m : Type → Type} [Monad m] [Host m]

/-- Whether two paths lead to the same file; where that cannot be said, whether they are alike. -/
def sameFile (p q : Path) : m Bool := do
  match ← Host.locate p, ← Host.locate q with
  | some a, some b => return a = b
  | _, _ => return p.alike q

def accepts (f : ScanFilter) (p : Path) : m Bool := do
  if !f.acceptsName p then return false
  match f.report with
  | none => return true
  | some report => return !(← sameFile p report)

/-- The programs in a directory and below it, ordered name by name along their paths. -/
def programs (f : ScanFilter) (directory : Path) : Action m (List Path) := do
  let files ←
    match ← liftM (Host.filesBelow (m := m) directory) with
    | .ok files => pure files
    | .error (p, fault) => throw ⟨"failed to read directory: " ++ p.text, [fault.message]⟩
  let accepted ← liftM (files.filterM (f.accepts (m := m)))
  return accepted.mergeSort fun p q => Path.ordered p.components q.components

/-- Treats each program in a directory. Gives the results and the number of programs that could not
be treated; why they could not is told after the last of them. -/
def forEach (f : ScanFilter) (directory : Path) (treat : Path → Action m α) :
    Action m (List α × Nat) := do
  let programs ← f.programs directory
  if programs.isEmpty then
    throw ⟨"no .json files found in " ++ directory.text, []⟩
  let outcomes ← liftM (programs.mapM fun p => do return (p, ← (treat p).run) : m _)
  for (p, outcome) in outcomes do
    if let .error failure := outcome then
      Action.notice (p.shownName ++ ": " ++ failure.line ++ "\n")
  let results := outcomes.filterMap fun (_, outcome) => outcome.toOption
  return (results, outcomes.length - results.length)

end ScanFilter
end Untangle.CommandLine
