import Untangle.CommandLine.Options
import Untangle.CommandLine.Path
import Untangle.Engine.Settings
import Untangle.Printer.Source
import Untangle.Text.Numeral

/-!
# Commands and their arguments

`detect` says what obfuscation there is in a program, `deobfuscate` undoes it,
and `generate` prints a program as it is. Options that all commands have may
stand before the name of the command or after it.
-/
namespace Untangle.CommandLine

/-- The form in which a program is written. -/
inductive Emit where
  | json
  | js
  deriving DecidableEq, Repr

instance : Spelled Emit where
  all := [.json, .js]
  text
    | .json => "json"
    | .js => "js"

structure DeobfuscateOptions where
  output : Option Path := none
  suffix : String := ".deobf"
  /-- Whether the path is a directory, all programs of which are meant. -/
  recursive : Bool := false
  emit : Emit := .js
  settings : Settings := {}
  stats : Bool := false
  report : Option Path := none
  layout : Printer.Layout := {}

inductive Command where
  | detect (path : Path) (recursive : Bool)
  | deobfuscate (path : Path) (options : DeobfuscateOptions)
  | generate (path : Path) (output : Option Path) (layout : Printer.Layout)

structure Invocation where
  command : Command
  /-- Whether answers are given as JSON. -/
  json : Bool

namespace Command

def isPath (s : String) : Bool := s ≠ ""

def number? (s : String) : Option Nat := Text.unsigned? 10 s.toList

def isNumber (s : String) : Bool := (number? s).isSome

def isEmit (s : String) : Bool := (Spelled.ofText? s : Option Emit).isSome

def generalFlags : List Flag :=
  [{ name := "json" }, { name := "verbose", letter := some 'v' },
    { name := "help", letter := some 'h', stop := some .help }]

def versionFlag : Flag := { name := "version", letter := some 'V', stop := some .version }

def recursiveFlag : Flag := { name := "recursive", letter := some 'r' }

def outputFlag : Flag := { name := "output", letter := some 'o', value := some isPath }

def layoutFlags : List Flag :=
  [{ name := "indent", value := some isNumber }, { name := "tabs" }, { name := "ascii" }]

def deobfuscateFlags : List Flag :=
  [outputFlag, { name := "suffix", value := some fun _ => true }, recursiveFlag,
    { name := "emit", value := some isEmit }, { name := "no-strings" },
    { name := "no-dictionaries" }, { name := "no-unflatten" }, { name := "loops" },
    { name := "no-normalize" }, { name := "rounds", value := some isNumber }, { name := "stats" },
    { name := "report", value := some isPath }]

def layout (g : Given) : Except Stop Printer.Layout :=
  let layout : Printer.Layout := { asciiOnly := g.has "ascii" }
  match g.has "tabs", g.value? "indent" with
  | true, some _ => .error .misuse
  | true, none => .ok layout.withTabs
  | false, width => .ok (layout.withWidth ((width.bind number?).getD 2))

def settings (g : Given) : Settings :=
  let s : Settings := { normalize := !g.has "no-normalize" }
  { s.withPasses (!g.has "no-strings") (!g.has "no-dictionaries") (!g.has "no-unflatten")
      (g.has "loops") with
    rounds := ((g.value? "rounds").bind number?).getD s.rounds }

def options (g : Given) : Except Stop DeobfuscateOptions := do
  let standard : DeobfuscateOptions := {}
  return {
    output := (g.value? "output").map Path.mk
    suffix := (g.value? "suffix").getD standard.suffix
    recursive := g.has "recursive"
    emit := ((g.value? "emit").bind Spelled.ofText?).getD standard.emit
    settings := settings g
    stats := g.has "stats"
    report := (g.value? "report").map Path.mk
    layout := ← layout g }

/-- The command of a name, with the options for all commands among its arguments. -/
def ofArguments (name : String) (args : List String) : Except Stop (Command × Given) :=
  match name with
  | "detect" => do
    let (path, g) ← Given.ofArguments (generalFlags ++ [recursiveFlag]) args
    return (.detect ⟨path⟩ (g.has "recursive"), g)
  | "deobfuscate" => do
    let (path, g) ← Given.ofArguments (generalFlags ++ deobfuscateFlags ++ layoutFlags) args
    return (.deobfuscate ⟨path⟩ (← options g), g)
  | "generate" => do
    let (path, g) ← Given.ofArguments (generalFlags ++ [outputFlag] ++ layoutFlags) args
    return (.generate ⟨path⟩ ((g.value? "output").map Path.mk) (← layout g), g)
  | "help" => .error (if args.length ≤ 1 then .help else .misuse)
  | _ => .error .misuse

end Command

/-- Options for all commands stand before or after the name of the command. -/
def Invocation.ofArguments (args : List String) : Except Stop Invocation := do
  match ← Given.leading (Command.generalFlags ++ [Command.versionFlag]) args {} with
  | (_, []) => throw .misuse
  | (before, name :: rest) =>
    let (command, after) ← Command.ofArguments name rest
    return ⟨command, before.has "json" || after.has "json"⟩

end Untangle.CommandLine
