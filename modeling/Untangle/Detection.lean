import Untangle.Pass.Dictionary
import Untangle.Pass.Dispatcher
import Untangle.Pass.StringTable

/-!
# Detection of obfuscation

The program is searched for what the passes undo, and each find adds to a
score of at most 100. The program stays as it is.
-/
namespace Untangle

inductive Evidence where
  | stringTable (name : String) (size rotation : Nat) (decoder : String)
  | dictionary (scope name : String) (entries : Nat)
  | dispatcher (scope : String) (cases : Nat) (order : Option String)
  | endlessLoop (scope : String)
  deriving DecidableEq, Repr

namespace Evidence

/-- What a find adds to the score. -/
def confidence : Evidence → Nat
  | .stringTable .. => 50
  | .dictionary .. => 15
  | .dispatcher _ _ order => if order.isSome then 20 else 5
  | .endlessLoop _ => 1

def short : Evidence → String
  | .stringTable name size _ _ => "table:" ++ name ++ "x" ++ toString size
  | .dictionary _ name entries => "dict:" ++ name ++ "x" ++ toString entries
  | .dispatcher _ cases (some order) =>
    "dispatcher:" ++ toString cases ++ " cases (" ++ order ++ ")"
  | .dispatcher _ cases none => "dispatcher:" ++ toString cases ++ " cases"
  | .endlessLoop scope => "loop:" ++ scope

def isStringTable : Evidence → Bool
  | .stringTable .. => true
  | _ => false

def isDictionary : Evidence → Bool
  | .dictionary .. => true
  | _ => false

def isDispatcher : Evidence → Bool
  | .dispatcher .. => true
  | _ => false

def isEndlessLoop : Evidence → Bool
  | .endlessLoop _ => true
  | _ => false

end Evidence

structure Detection where
  evidence : List Evidence
  deriving DecidableEq, Repr

namespace Detection

def hasStringTable (d : Detection) : Bool := d.evidence.any Evidence.isStringTable
def dictionaries (d : Detection) : Nat := d.evidence.countP Evidence.isDictionary
def dispatchers (d : Detection) : Nat := d.evidence.countP Evidence.isDispatcher
def endlessLoops (d : Detection) : Nat := d.evidence.countP Evidence.isEndlessLoop

def score (d : Detection) : Nat := min 100 (d.evidence.foldr (fun e n => e.confidence + n) 0)

def isObfuscated (d : Detection) : Bool := 50 ≤ d.score

def tableSummary (d : Detection) : String :=
  match d.evidence.find? Evidence.isStringTable with
  | some (.stringTable name size rotation decoder) =>
    "string table " ++ name ++ " (" ++ toString size ++ " entries, rotation " ++ toString rotation
      ++ ", decoder " ++ decoder ++ ")"
  | _ => "no string table"

def summary (d : Detection) : String :=
  d.tableSummary ++ ", " ++ toString d.dictionaries ++ " dictionaries, " ++ toString d.dispatchers
    ++ " dispatchers, " ++ toString d.endlessLoops ++ " constant loops, score " ++ toString d.score

/-- The state of the search: the current scope and what has been found. -/
structure Search where
  scopes : Scopes := {}
  evidence : List Evidence := []

def Search.add (s : Search) (found : List Evidence) : Search :=
  { s with evidence := s.evidence ++ found }

/-- What a statement of a list is evidence of. -/
def ofStatement (scope : String) (order : Option String) (s : Statement) : List Evidence :=
  (match Dispatcher.cases? s with
    | some cases => [.dispatcher scope cases.length order]
    | none => [])
    ++ if s.isEndlessLoop then [.endlessLoop scope] else []

def enterStatements (body : List Statement) : StateM Search Entry := do
  modify fun s => s.add (body.flatMap (ofStatement s.scopes.label (Dispatcher.orderText? body)))
  return .descend

def enterFunction (_ : List Expression) (body : Option (List Statement)) : StateM Search Nat := do
  modify fun s => { s with scopes := s.scopes.enter }
  match body.bind Dictionary.capture? with
  | some d => modify fun s => s.add [.dictionary s.scopes.label d.name d.entries.length]
  | none => pure ()
  return 0

def visitor : Visitor Search where
  enterStatements
  enterFunction
  leaveFunction := modify fun s => { s with scopes := s.scopes.leave }

def ofPrologue (p : Prologue) : Evidence :=
  .stringTable p.tableName p.encoded.length p.rotation p.decoder

end Detection

def detect (p : Program) : Detection :=
  let table := ((Prologue.find? p.body).map Detection.ofPrologue).toList
  ⟨table ++ ((Detection.visitor.program p).run {}).2.evidence⟩

end Untangle
