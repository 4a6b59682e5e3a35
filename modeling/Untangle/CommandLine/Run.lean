import Untangle.CommandLine.Deobfuscate
import Untangle.CommandLine.Detect
import Untangle.CommandLine.Generate

/-!
# From arguments to an exit code

The same function runs on the machine itself and on a file tree.
-/
namespace Untangle.CommandLine

def usage : String :=
  "Usage: untangle [--json] [--verbose] <COMMAND>\n\n"
    ++ "Commands:\n"
    ++ "  detect FILE [--recursive]\n"
    ++ "  deobfuscate FILE [--output PATH] [--suffix TEXT] [--recursive] [--emit json|js]\n"
    ++ "      [--no-strings] [--no-dictionaries] [--no-unflatten] [--no-normalize] [--loops]\n"
    ++ "      [--rounds N] [--stats] [--report FILE] [--indent N | --tabs] [--ascii]\n"
    ++ "  generate FILE [--output PATH] [--indent N | --tabs] [--ascii]\n"

def version : String := "untangle 0.1.0\n"

variable {m : Type → Type} [Monad m] [Host m]

def runCommand (json : Bool) : Command → Action m Unit
  | .detect p recursive => runDetect p recursive json
  | .deobfuscate p options => options.run p json
  | .generate p output layout => runGenerate p output layout

/-- Runs a command line. The exit code is 0 for success, 1 for a command that fails and 2 for
arguments that make no command. -/
def run (args : List String) : m Nat := do
  match Invocation.ofArguments args with
  | .error .misuse => Host.notice usage; return 2
  | .error .help => Host.answer usage; return 0
  | .error .version => Host.answer version; return 0
  | .ok invocation =>
    match ← (runCommand invocation.json invocation.command).run with
    | .ok () => return 0
    | .error failure => Host.notice failure.report; return 1

/-- Runs a command line on a file tree. -/
def runOn (tree : FileTree) (args : List String) : Nat × Desk :=
  (run (m := StateM Desk) args).run { tree }

end Untangle.CommandLine
