import Untangle.Pass.Basic
import Untangle.Syntax.Kind
import Untangle.Syntax.View

/-!
# Dictionaries

A function may start with an object literal that holds constants and functions
of one `return`, and use it instead of the constants and operators themselves.
The pass removes such an object and puts its entries in the place of the
lookups. Inner functions see the dictionaries of the functions around them,
unless a parameter has the same name.
-/
namespace Untangle

/-- A function that only returns an expression. -/
structure Template where
  params : List String
  body : Expression

namespace Template

/-- An operand of the body: a parameter stands for the argument in its place, or for `undefined`. -/
def bind (t : Template) (args : List Expression) (operand : Expression) : Expression :=
  match operand.identifier?.bind fun name => t.params.idxOf? name with
  | some i => args[i]?.getD (.identifier "undefined")
  | none => operand

/-- The body with its direct operands bound. Only calls and binary operations are taken. -/
def instantiate? (t : Template) (args : List Expression) : Option Expression :=
  match t.body with
  | .call callee arguments optional =>
    some (.call (t.bind args callee) (arguments.map (t.bind args)) optional)
  | .binary op left right => some (.binary op (t.bind args left) (t.bind args right))
  | _ => none

end Template

inductive DictionaryEntry where
  | literal (literal : Literal)
  | template (template : Template)

/-- The entries by key, each key once. -/
structure Dictionary where
  name : String
  entries : List (String × DictionaryEntry)

namespace Dictionary

def get? (d : Dictionary) (key : String) : Option DictionaryEntry := d.entries.lookup key

/-- Of two entries for one key the later one counts. -/
def put (entries : List (String × DictionaryEntry)) (entry : String × DictionaryEntry) :
    List (String × DictionaryEntry) :=
  entries.filter (fun e => e.1 != entry.1) ++ [entry]

def entry? : Expression → Option DictionaryEntry
  | .literal l => if l.regex.isNone then some (.literal l) else none
  | .function ⟨_, params, [.returns (some body)], _, _⟩ => do
    return .template ⟨← params.mapM Expression.identifier?, body⟩
  | _ => none

/-- The key that a property has without evaluation. -/
def key? (key : Expression) (computed : Bool) : Option String :=
  if computed then key.string? else key.identifier? <|> key.string?

def member? : Member → Option (String × DictionaryEntry)
  | .property key value .init computed false _ => do
    let entry ← entry? value
    return (← key? key computed, entry)
  | _ => none

/-- The dictionary that the first of several statements declares: a single variable with a
non-empty object in which everything is an entry. -/
def capture? : List Statement → Option Dictionary
  | .declaration d :: _ :: _ => do
    let (name, init) ← d.single?
    let some (.object (m :: ms)) := init | none
    let entries ← (m :: ms).mapM member?
    return ⟨name, entries.foldl put []⟩
  | _ => none

end Dictionary

namespace DictionaryInlining

def passName : String := "dictionaries"

/-- A removed dictionary, how often its name was met, and how many of these were inlined. -/
structure Tracked where
  dictionary : Dictionary
  references : Nat := 0
  inlined : Nat := 0

/-- What a function binds: its dictionary, if it had one, and its plain parameters. -/
structure Frame where
  dictionary : Option Tracked := none
  params : List String := []

def Frame.declares (f : Frame) (name : String) : Bool :=
  match f.dictionary with
  | some t => t.dictionary.name == name
  | none => false

/-- The dictionary that a name refers to. The innermost function that binds the name decides, and
within it the dictionary comes before the parameters. -/
def resolve? (name : String) : List Frame → Option Tracked
  | [] => none
  | f :: rest =>
    if f.declares name then f.dictionary
    else if f.params.contains name then none
    else resolve? name rest

/-- Changes the dictionary that a name refers to. -/
def updateResolved (name : String) (g : Tracked → Tracked) : List Frame → List Frame
  | [] => []
  | f :: rest =>
    if f.declares name then { f with dictionary := f.dictionary.map g } :: rest
    else if f.params.contains name then f :: rest
    else f :: updateResolved name g rest

/-- The frames of the functions around the current place, innermost first. -/
structure State where
  progress : Progress := {}
  frames : List Frame := [{}]

def record (kind : EventKind) (location : Option Nat) (message : String) : StateM State Unit :=
  modify fun s => { s with progress := s.progress.record passName kind location message }

/-- Counts a change, and a lookup in the dictionary that `name` refers to. -/
def countInlined (name : String) : StateM State Unit :=
  modify fun s =>
    { s with
      progress := s.progress.change
      frames := updateResolved name (fun t => { t with inlined := t.inlined + 1 }) s.frames }

def enterFunction (params : List Expression) (body : Option (List Statement)) :
    StateM State Nat := do
  modify fun s => { s with progress := s.progress.enterScope }
  let params := params.filterMap Expression.identifier?
  match body.bind Dictionary.capture? with
  | none =>
    modify fun s => { s with frames := { params } :: s.frames }
    return 0
  | some d =>
    record .dictionaryIdentified none (d.name ++ " (" ++ toString d.entries.length ++ " entries)")
    record .dictionaryRemoved (some 0) d.name
    modify fun s =>
      { s with
        progress := s.progress.change
        frames := { dictionary := some { dictionary := d }, params } :: s.frames }
    return 1

/-- Says so when the name of a removed dictionary is still in use. -/
def warnIfReferenced (t : Tracked) : StateM State Unit := do
  if t.inlined < t.references then
    record .warning none
      (t.dictionary.name ++ " removed but still referenced " ++ toString (t.references - t.inlined)
        ++ " times")

def leaveFunction : StateM State Unit := do
  match (← get).frames with
  | { dictionary := some t, .. } :: _ => warnIfReferenced t
  | _ => pure ()
  modify fun s => { progress := s.progress.leaveScope, frames := s.frames.tail }

/-- The entry that an access by a static name refers to, with both names. -/
def entryAt? (frames : List Frame) (object property : Expression) (computed : Bool) :
    Option (String × String × DictionaryEntry) := do
  let name ← object.identifier?
  let key ← staticName? property computed
  let t ← resolve? name frames
  return (name, key, ← t.dictionary.get? key)

def inlineConstant (object property : Expression) (computed optional : Bool) :
    StateM State Expression := do
  match entryAt? (← get).frames object property computed with
  | some (name, key, .literal l) =>
    countInlined name
    record .constantInlined none (name ++ "." ++ key)
    return .literal l
  | _ => return .member object property computed optional

def isSpread : Expression → Bool
  | .spread _ => true
  | _ => false

/-- The call of a template with its arguments bound, or a warning that it cannot be had. -/
def inlineTemplate (name key : String) (t : Template) (arguments : List Expression) :
    StateM State (Option Expression) := do
  if arguments.any isSpread then
    record .warning none (name ++ "." ++ key ++ ": spread arguments not inlined")
    return none
  match t.instantiate? arguments with
  | some e =>
    countInlined name
    record .callInlined none (name ++ "." ++ key ++ "(..)")
    return some e
  | none =>
    record .warning none
      (name ++ "." ++ key ++ ": unsupported template " ++ t.body.kindName)
    return none

def leaveExpression : Expression → StateM State Expression
  | .identifier name => do
    modify fun s =>
      { s with
        frames :=
          updateResolved name (fun t => { t with references := t.references + 1 }) s.frames }
    return .identifier name
  | .member object property computed optional => inlineConstant object property computed optional
  | .call (.member object property computed chained) arguments optional => do
    let call : Expression := .call (.member object property computed chained) arguments optional
    match entryAt? (← get).frames object property computed with
    | some (name, key, .template t) =>
      return (← inlineTemplate name key t arguments).getD call
    | _ => return call
  | e => return e

def visitor : Visitor State where
  enterFunction
  leaveFunction
  leaveExpression

def run (p : Program) : Outcome :=
  let (program, s) := (visitor.program p).run {}
  ⟨program, s.progress.events, s.progress.changes > 0⟩

end DictionaryInlining

def dictionaryInlining : Pass where
  name := DictionaryInlining.passName
  description := "Inlines object-literal dictionaries of constants and wrapper functions"
  run := DictionaryInlining.run

end Untangle
