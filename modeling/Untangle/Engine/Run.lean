import Untangle.Detection
import Untangle.Engine.Settings
import Untangle.Event.Statistics
import Untangle.Pass.LoopExit

/-!
# The run over a program

Detection comes first, then the enabled passes in order. The dictionary pass
does not get to see the first two statements of a string table, since the
array and the rotating function are no part of the program proper.
-/
namespace Untangle

structure Stage where
  pass : Pass
  /-- The pass is repeated until it changes nothing, at most so often. -/
  rounds : Nat
  /-- Whether the start of a string table is kept from the pass. -/
  shielded : Bool

def Settings.stages (s : Settings) : List Stage :=
  (if s.strings then [⟨stringDecoding s.normalize, 1, false⟩] else [])
    ++ (if s.dictionaries then [⟨dictionaryInlining, 1, true⟩] else [])
    ++ (if s.unflatten && 0 < s.rounds then [⟨unflattening, s.rounds, false⟩] else [])
    ++ (if s.loops then [⟨loopRebuilding, 1, false⟩] else [])

def Settings.passNames (s : Settings) : List String := s.stages.map fun stage => stage.pass.name

/-- A program in the course of a run, with the events so far and the number of pass runs. -/
structure RunState where
  program : Program
  events : EventLog := []
  iterations : Nat := 0

namespace RunState

/-- Repeats a pass until it changes nothing. Says whether it changed anything at all. -/
def repeatPass (pass : Pass) : Nat → RunState → RunState × Bool
  | 0, s => (s, false)
  | rounds + 1, s =>
    let outcome := pass.run s.program
    let s := ⟨outcome.program, s.events ++ outcome.events, s.iterations + 1⟩
    if outcome.changed then ((repeatPass pass rounds s).1, true) else (s, false)

def shieldedCount : Nat := 2

/-- Runs a stage on the statements after the first `kept`. -/
def runBehind (kept : Nat) (stage : Stage) (s : RunState) : RunState × Bool :=
  let front := s.program.body.take kept
  let rest := { s.program with body := s.program.body.drop kept }
  let (s, changed) := repeatPass stage.pass stage.rounds { s with program := rest }
  ({ s with program := { s.program with body := front ++ s.program.body } }, changed)

/-- An event of a pass as a whole. -/
def passEvent (pass : Pass) (kind : EventKind) (message : String) : Event :=
  { kind, message, pass := some pass.name }

def runStage (hasTable : Bool) (s : RunState) (stage : Stage) : RunState :=
  let s := { s with
    events := s.events.record (passEvent stage.pass .passStarted stage.pass.description) }
  let kept := if stage.shielded && hasTable then shieldedCount else 0
  let (s, changed) := runBehind kept stage s
  { s with
    events := s.events.record
      (passEvent stage.pass .passCompleted (if changed then "changed" else "no change")) }

end RunState

/-- What a run did. -/
structure RunResult where
  program : Program
  detection : Detection
  events : EventLog
  iterations : Nat

namespace RunResult

def statistics (r : RunResult) : Statistics :=
  { Statistics.ofLog r.events with iterations := r.iterations }

def changed (r : RunResult) : Bool := !r.events.transformations.isEmpty

def summary (r : RunResult) : String := r.statistics.summary

def detailed (r : RunResult) : String :=
  "Deobfuscation complete: " ++ r.summary ++ "\nDetection: " ++ r.detection.summary

end RunResult

def deobfuscate (settings : Settings) (p : Program) : RunResult :=
  let detection := detect p
  let s := settings.stages.foldl (RunState.runStage detection.hasStringTable) { program := p }
  ⟨s.program, detection, s.events, s.iterations⟩

end Untangle
