import Untangle.CommandLine.Scan
import Untangle.CommandLine.Table
import Untangle.Detection
import Untangle.Json.Writer

/-!
# The command that detects obfuscation

For one program every find is listed; for a directory there is a line for each
program.
-/
namespace Untangle

namespace Evidence

def label : Evidence → String
  | .stringTable .. => "StringTable"
  | .dictionary .. => "Dictionary"
  | .dispatcher .. => "Dispatcher"
  | .endlessLoop _ => "ConstantLoop"

def scope : Evidence → String
  | .stringTable .. => "program"
  | .dictionary scope _ _ | .dispatcher scope _ _ | .endlessLoop scope => scope

end Evidence

namespace CommandLine

/-- What was found in a file. -/
structure Finding where
  file : String
  detection : Detection

namespace Finding

/-- A score in words. -/
def confidence (score : Nat) : String :=
  if score ≤ 20 then "very low"
  else if score ≤ 50 then "low"
  else if score ≤ 75 then "medium"
  else if score ≤ 90 then "high"
  else "very high"

def evidenceJson (e : Evidence) : Json :=
  .object [("evidence_type", .string e.label), ("scope", .string e.scope),
    ("description", .string e.short), ("confidence", .integer e.confidence)]

def toJson (f : Finding) : Json :=
  .object [("file", .string f.file), ("detected", .boolean f.detection.isObfuscated),
    ("score", .integer f.detection.score), ("summary", .string f.detection.summary),
    ("evidence", .array (f.detection.evidence.map evidenceJson))]

def evidenceTable (evidence : List Evidence) : Table where
  columns := [⟨"Kind", .left⟩, ⟨"Scope", .left⟩, ⟨"Details", .left⟩, ⟨"Confidence", .right⟩]
  rows := evidence.map fun e => [e.label, e.scope, e.short, toString e.confidence]

def text (f : Finding) : String :=
  let score := toString f.detection.score
  let verdict :=
    if f.detection.isObfuscated then
      "obfuscated (confidence: " ++ confidence f.detection.score ++ ", score: " ++ score ++ ")"
    else "no obfuscation detected (score: " ++ score ++ ")"
  let evidence :=
    if f.detection.evidence.isEmpty then ""
    else "  Evidence:\n" ++ (evidenceTable f.detection.evidence).text "    "
  f.file ++ ": " ++ verdict ++ "\n" ++ evidence

/-- The number of files with obfuscation. -/
def detected (fs : List Finding) : Nat := fs.countP fun f => f.detection.isObfuscated

def listJson (fs : List Finding) : Json :=
  .object [("results", .array (fs.map toJson)), ("total_files", .integer fs.length),
    ("detected_count", .integer (detected fs))]

def table (fs : List Finding) : Table where
  columns := [⟨"File", .left⟩, ⟨"Score", .right⟩, ⟨"Confidence", .left⟩, ⟨"Findings", .left⟩]
  rows := fs.map fun f =>
    [f.file, toString f.detection.score, confidence f.detection.score, f.detection.summary]

def listText (fs : List Finding) : String :=
  (table fs).text "" ++ "\nScanned " ++ toString fs.length ++ " files, " ++ toString (detected fs)
    ++ " with obfuscation detected\n"

end Finding

variable {m : Type → Type} [Monad m] [Host m]

def find (p : Path) : Action m Finding := do
  return ⟨p.shownName, detect (← Action.load "failed to load program: " p)⟩

def runDetect (p : Path) (recursive json : Bool) : Action m Unit := do
  if recursive then
    let (findings, _) ← ({} : ScanFilter).forEach p find
    Action.answer
      (if json then (Finding.listJson findings).pretty ++ "\n" else Finding.listText findings)
  else
    let finding ← find p
    Action.answer (if json then finding.toJson.pretty ++ "\n" else finding.text)

end CommandLine
end Untangle
