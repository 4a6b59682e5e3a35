import Untangle.CommandLine.Host
import Untangle.Printer.Source
import Untangle.Syntax.Program

/-!
# Failing commands

A failure tells what the command was about to do and what came in the way.
Faults of the file system and of the JSON that a program is read from have a
cause of their own with the same text, so they are told twice.
-/
namespace Untangle

structure Failure where
  context : String
  causes : List String := []

namespace Failure

/-- A cause behind its mark. Further lines of it are indented as far. -/
def indented (mark indent text : String) : String :=
  mark ++ ("\n" ++ indent).intercalate (Text.splitText '\n' text)

def causeLines : List String → List String
  | [cause] => [indented "    " "    " cause]
  | causes =>
    causes.zipIdx.map fun (cause, n) => indented ("    " ++ toString n ++ ": ") "       " cause

/-- All that is known, on lines of their own. -/
def report (f : Failure) : String :=
  let causes :=
    if f.causes.isEmpty then "" else "\n\nCaused by:\n" ++ "\n".intercalate (causeLines f.causes)
  "Error: " ++ f.context ++ causes ++ "\n"

def line (f : Failure) : String := ": ".intercalate (f.context :: f.causes)

end Failure

/-- Why there is no program in a file. -/
inductive LoadError where
  | file (fault : FileFault)
  | notText
  | program (error : ReadError)

def ReadError.causes (e : ReadError) : List String :=
  match e with
  | .blank => [e.message]
  | .notNode | .notProgram _ => ["Malformed - " ++ e.message]
  | .notJson _ | .shape _ => [e.message, e.message]

def LoadError.causes : LoadError → List String
  | .file fault => [fault.message, fault.message]
  | .notText =>
    ["stream did not contain valid UTF-8", "stream did not contain valid UTF-8"]
  | .program error => error.causes

/-- The program in the content of a file. -/
def Program.ofContent (content : Except FileFault ByteArray) : Except LoadError Program := do
  let content ← content.mapError .file
  match String.fromUTF8? content with
  | none => throw .notText
  | some text => (Program.ofText text).mapError .program

/-- What a command does on a host, unless it fails. -/
abbrev Action (m : Type → Type) := ExceptT Failure m

namespace Action

variable {m : Type → Type} [Monad m] [Host m]

def check (context : String) (causes : ε → List String) (outcome : Except ε α) : Action m α :=
  match outcome with
  | .ok a => pure a
  | .error e => throw ⟨context, causes e⟩

/-- The program in a file. -/
def load (context : String) (p : Path) : Action m Program := do
  check (context ++ p.text) LoadError.causes (Program.ofContent (← liftM (Host.read (m := m) p)))

def store (context : String) (p : Path) (text : String) : Action m Unit := do
  check (context ++ p.text) (fun fault => [fault.message])
    (← liftM (Host.write (m := m) p text.toUTF8))

/-- The JavaScript source of a program. -/
def print (context : String) (p : Path) (layout : Printer.Layout) (program : Program) :
    Action m String :=
  check (context ++ p.text) (fun u => [u.message]) (Printer.source layout program)

def answer (s : String) : Action m Unit := liftM (Host.answer (m := m) s)

def notice (s : String) : Action m Unit := liftM (Host.notice (m := m) s)

end Action
end Untangle
