import Untangle.CommandLine.Arguments
import Untangle.CommandLine.Scan
import Untangle.CommandLine.Table
import Untangle.Engine.Run

/-!
# The command that undoes obfuscation

The result is written next to the input, or where the user wants it, and what
was done is reported. Over a directory the programs are treated one after the
other; one that fails does not stop the others.
-/
namespace Untangle.CommandLine

/-- What was done to a file. -/
structure Report where
  file : String
  output : String
  passes : List String
  milliseconds : Nat
  result : RunResult

namespace Report

/-- The warnings of a run, after the scope that they are about. -/
def warnings (r : Report) : List String :=
  (r.result.events.filter fun e => e.kind == .warning).map fun e =>
    match e.scope with
    | some scope => scope ++ ": " ++ e.message
    | none => e.message

def statisticsJson (s : Statistics) : Json :=
  .object [("scopes_transformed", .integer s.scopesTransformed),
    ("strings_decoded", .integer s.stringsDecoded),
    ("members_normalized", .integer s.membersNormalized),
    ("constants_inlined", .integer s.constantsInlined),
    ("calls_inlined", .integer s.callsInlined), ("dictionaries", .integer s.dictionaries),
    ("dispatchers", .integer s.dispatchers),
    ("loops_reconstructed", .integer s.loopsReconstructed)]

def toJson (r : Report) : Json :=
  .object [("file", .string r.file), ("output", .string r.output),
    ("detected", .boolean r.result.detection.isObfuscated),
    ("score", .integer r.result.detection.score),
    ("passes", .array (r.passes.map .string)), ("iterations", .integer r.result.iterations),
    ("time_ms", .integer r.milliseconds), ("stats", statisticsJson r.result.statistics),
    ("warnings", .array (r.warnings.map .string))]

/-- The counts that are not zero. -/
def statisticsTable (s : Statistics) : Table :=
  let counts := [("Scopes transformed", s.scopesTransformed), ("Strings decoded", s.stringsDecoded),
    ("Members normalized", s.membersNormalized), ("Dictionaries removed", s.dictionaries),
    ("Constants inlined", s.constantsInlined), ("Calls inlined", s.callsInlined),
    ("Dispatchers flattened", s.dispatchers), ("Loops rebuilt", s.loopsReconstructed)]
  { columns := [⟨"Transformation", .left⟩, ⟨"Count", .right⟩]
    rows := (counts.filter fun (_, n) => n > 0).map fun (what, n) => [what, toString n] }

def warningsText (r : Report) : String :=
  if r.warnings.isEmpty then ""
  else
    "  Warnings:    " ++ toString r.warnings.length ++ "\n"
      ++ String.join (r.warnings.map fun w => "    - " ++ w ++ "\n")

def text (r : Report) (stats : Bool) : String :=
  "Deobfuscation complete: " ++ r.file ++ " -> " ++ r.output ++ "\n"
    ++ "  Detection:   " ++ (if r.result.detection.isObfuscated then "obfuscated" else "none")
    ++ " (score: " ++ toString r.result.detection.score ++ ")\n"
    ++ "  Passes:      " ++ ", ".intercalate r.passes ++ "\n"
    ++ (if stats then (statisticsTable r.result.statistics).text "  " else "")
    ++ "  Iterations:  " ++ toString r.result.iterations ++ "\n"
    ++ "  Time:        " ++ toString r.milliseconds ++ "ms\n"
    ++ r.warningsText

/-- The line about one file of several. -/
def line (r : Report) : String :=
  r.file ++ ": " ++ toString r.result.events.transformations.length ++ " transformations, "
    ++ toString r.milliseconds ++ "ms\n"

def total (count : Statistics → Nat) (rs : List Report) : String :=
  toString (rs.foldr (fun r n => count r.result.statistics + n) 0)

def listText (rs : List Report) (failures : Nat) (stats : Bool) : String :=
  "\nProcessed " ++ toString (rs.length + failures) ++ " files: " ++ toString rs.length
    ++ " succeeded, " ++ toString failures ++ " failed\n"
    ++ if stats then
      "  Total strings decoded:       " ++ total Statistics.stringsDecoded rs ++ "\n"
        ++ "  Total dispatchers flattened: " ++ total Statistics.dispatchers rs ++ "\n"
    else ""

end Report

namespace DeobfuscateOptions

variable (o : DeobfuscateOptions)

/-- The name of the output for an input. -/
def outputName (input : Path) : String :=
  input.stem?.getD "output" ++ o.suffix ++ "." ++ Spelled.text o.emit

/-- The output for one of several inputs: in the output directory, or else next to the input. -/
def outputBeside (input : Path) : Path :=
  (o.output.getD (input.parent?.getD ⟨"."⟩)).join (o.outputName input)

variable {m : Type → Type} [Monad m] [Host m]

/-- The output for a single input. An output that is no directory is the file itself. -/
def outputFor (input : Path) : m Path := do
  match o.output with
  | none => return o.outputBeside input
  | some output =>
    if ← Host.isDirectory output then return o.outputBeside input else return output

def writeProgram (p : Program) (output : Path) : Action m Unit := do
  let text ←
    match o.emit with
    | .json => pure p.toJson.pretty
    | .js => Action.print "failed to print program for " output o.layout p
  Action.store "failed to write output: " output text

/-- Undoes the obfuscation of one file. -/
def process (place : m Path) (input : Path) : Action m Report := do
  let program ← Action.load "deobfuscation failed: " input
  let start ← liftM (Host.milliseconds (m := m))
  let result := deobfuscate o.settings program
  let stop ← liftM (Host.milliseconds (m := m))
  let output ← liftM place
  o.writeProgram result.program output
  return {
    file := input.shownName
    output := output.shownName
    passes := o.settings.passNames
    milliseconds := stop - start
    result }

def writeReport (report : Json) : Action m Unit := do
  match o.report with
  | none => return
  | some p =>
    Action.store "failed to write report: " p report.pretty
    Action.notice ("Report written to " ++ p.text ++ "\n")

def runSingle (input : Path) (json : Bool) : Action m Unit := do
  let report ← o.process (o.outputFor input) input
  o.writeReport report.toJson
  if json then Action.answer (report.toJson.pretty ++ "\n") else Action.notice (report.text o.stats)

def runRecursive (directory : Path) (json : Bool) : Action m Unit := do
  if let some output := o.output then
    Action.check ("failed to create output directory: " ++ output.text)
      (fun fault => [fault.message]) (← liftM (Host.makeDirectories (m := m) output))
  let filter : ScanFilter := { suffix := o.suffix, report := o.report }
  let (reports, failures) ← filter.forEach directory fun input => do
    let report ← o.process (pure (o.outputBeside input)) input
    if !json then Action.notice report.line
    return report
  let list : Json := .array (reports.map Report.toJson)
  o.writeReport list
  if json then Action.answer (list.pretty ++ "\n")
  else Action.notice (Report.listText reports failures o.stats)

def run (p : Path) (json : Bool) : Action m Unit :=
  if o.recursive then o.runRecursive p json else o.runSingle p json

end DeobfuscateOptions
end Untangle.CommandLine
