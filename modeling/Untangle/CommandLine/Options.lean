/-!
# Options among arguments

An option has a long name after two dashes, and may have a letter after one
dash, where several letters may follow one another. A value is attached by an
equals sign, to a letter also directly, or is the next argument unless that
begins with a dash itself. No option may be given twice. Two dashes alone end
the options. A command has one operand, which is not empty.
-/
namespace Untangle.CommandLine

/-- Why there is no command to run. -/
inductive Stop where
  | misuse
  | help
  | version
  deriving DecidableEq, Repr

structure Flag where
  name : String
  letter : Option Char := none
  /-- Which values are accepted, if the option takes a value at all. -/
  value : Option (String → Bool) := none
  /-- What the option asks for in the place of the command. -/
  stop : Option Stop := none

/-- An argument, by its dashes. -/
inductive Token where
  | operand (text : String)
  | long (name : String) (value : Option String)
  | letters (first : Char) (rest : List Char)
  | endOfOptions
  deriving DecidableEq, Repr

def Token.ofText (arg : String) : Token :=
  match arg.toList with
  | ['-', '-'] => .endOfOptions
  | '-' :: '-' :: cs =>
    let value :=
      match cs.dropWhile (· ≠ '=') with
      | [] => none
      | _ :: value => some (String.ofList value)
    .long (String.ofList (cs.takeWhile (· ≠ '='))) value
  | '-' :: c :: cs => .letters c cs
  | _ => .operand arg

/-- The options and the operand found so far. -/
structure Given where
  /-- Options by name; the value is empty for those that take none. -/
  options : List (String × String) := []
  operand : Option String := none
  /-- An option whose value is to be the next argument. -/
  waiting : Option Flag := none
  /-- Whether two dashes have ended the options. -/
  ended : Bool := false

namespace Given

def has (g : Given) (name : String) : Bool := (g.options.lookup name).isSome

def value? (g : Given) (name : String) : Option String := g.options.lookup name

def add (g : Given) (flag : Flag) (value : String) : Except Stop Given :=
  match flag.stop with
  | some stop => .error stop
  | none =>
    if g.has flag.name then .error .misuse
    else .ok { g with options := g.options ++ [(flag.name, value)], waiting := none }

/-- Adds an option with a value, which must be one that the option accepts. -/
def addValue (g : Given) (flag : Flag) (value : String) : Except Stop Given :=
  match flag.value with
  | some accepts => if accepts value then g.add flag value else .error .misuse
  | none => .error .misuse

/-- Adds an option to which no value is attached. -/
def addBare (g : Given) (flag : Flag) : Except Stop Given :=
  if flag.value.isSome then .ok { g with waiting := some flag } else g.add flag ""

def addLetters (flags : List Flag) (c : Char) : List Char → Given → Except Stop Given
  | rest, g =>
    match flags.find? fun flag => flag.letter == some c, rest with
    | none, _ => .error .misuse
    | some flag, [] => g.addBare flag
    | some flag, next :: rest =>
      if flag.value.isSome then
        g.addValue flag (String.ofList (if next = '=' then rest else next :: rest))
      else do addLetters flags next rest (← g.addBare flag)

def addToken (flags : List Flag) (g : Given) : Token → Except Stop Given
  | .operand text =>
    if g.operand.isSome || text = "" then .error .misuse else .ok { g with operand := some text }
  | .endOfOptions => .ok { g with ended := true }
  | .letters first rest => addLetters flags first rest g
  | .long name value =>
    match flags.find? fun flag => flag.name == name, value with
    | none, _ => .error .misuse
    | some flag, some value => g.addValue flag value
    | some flag, none => g.addBare flag

def addArgument (flags : List Flag) (g : Given) (arg : String) : Except Stop Given :=
  if g.ended then g.addToken flags (.operand arg)
  else
    match g.waiting, Token.ofText arg with
    | none, token => g.addToken flags token
    | some flag, .operand value => g.addValue flag value
    | some _, _ => .error .misuse

/-- The operand of a command with all its options. -/
def ofArguments (flags : List Flag) (args : List String) : Except Stop (String × Given) := do
  let g ← args.foldlM (addArgument flags) {}
  match g.waiting, g.operand with
  | none, some operand => return (operand, g)
  | _, _ => throw .misuse

/-- The options before the first operand, and the arguments from there on. Here two dashes have
nothing to end. -/
def leading (flags : List Flag) : List String → Given → Except Stop (Given × List String)
  | [], g => .ok (g, [])
  | arg :: rest, g =>
    match Token.ofText arg with
    | .operand _ => .ok (g, arg :: rest)
    | .endOfOptions => .error .misuse
    | token => do leading flags rest (← g.addToken flags token)

end Given
end Untangle.CommandLine
