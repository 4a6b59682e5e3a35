import Untangle.Text.Spelled

/-!
# Events of a run

A log holds what happened, in order. Events that change the program are
transformations; the others say what was found, which pass ran, or what could
not be done.
-/
namespace Untangle

inductive EventKind where
  | stringDecoded | memberNormalized | constantInlined | callInlined | dictionaryRemoved
  | controlFlowRestructured | loopReconstructed
  | stringTableIdentified | dictionaryIdentified | dispatcherIdentified
  | passStarted | passCompleted
  | info | warning | error
  deriving DecidableEq, Repr

namespace EventKind

def name : EventKind → String
  | .stringDecoded => "StringDecoded"
  | .memberNormalized => "MemberNormalized"
  | .constantInlined => "ConstantInlined"
  | .callInlined => "CallInlined"
  | .dictionaryRemoved => "DictionaryRemoved"
  | .controlFlowRestructured => "ControlFlowRestructured"
  | .loopReconstructed => "LoopReconstructed"
  | .stringTableIdentified => "StringTableIdentified"
  | .dictionaryIdentified => "DictionaryIdentified"
  | .dispatcherIdentified => "DispatcherIdentified"
  | .passStarted => "PassStarted"
  | .passCompleted => "PassCompleted"
  | .info => "Info"
  | .warning => "Warning"
  | .error => "Error"

instance : Spelled EventKind :=
  ⟨[.stringDecoded, .memberNormalized, .constantInlined, .callInlined, .dictionaryRemoved,
    .controlFlowRestructured, .loopReconstructed, .stringTableIdentified, .dictionaryIdentified,
    .dispatcherIdentified, .passStarted, .passCompleted, .info, .warning, .error], name⟩

def description : EventKind → String
  | .stringDecoded => "string decoded"
  | .memberNormalized => "member normalized"
  | .constantInlined => "constant inlined"
  | .callInlined => "call inlined"
  | .dictionaryRemoved => "dictionary removed"
  | .controlFlowRestructured => "control flow restructured"
  | .loopReconstructed => "loop reconstructed"
  | .stringTableIdentified => "string table identified"
  | .dictionaryIdentified => "dictionary identified"
  | .dispatcherIdentified => "dispatcher identified"
  | .passStarted => "pass started"
  | .passCompleted => "pass completed"
  | .info => "info"
  | .warning => "warning"
  | .error => "error"

def isTransformation : EventKind → Bool
  | .stringDecoded | .memberNormalized | .constantInlined | .callInlined | .dictionaryRemoved
  | .controlFlowRestructured | .loopReconstructed => true
  | _ => false

end EventKind

/-- An event in a scope, or at the statement number `location` of one. -/
structure Event where
  kind : EventKind
  scope : Option String := none
  location : Option Nat := none
  message : String := kind.description
  pass : Option String := none
  deriving DecidableEq, Repr

/-- One line: the kind, the place if there is one, the message. -/
def Event.text (e : Event) : String :=
  let place :=
    match e.scope, e.location with
    | some scope, some n => " " ++ scope ++ "#" ++ toString n
    | some scope, none => " " ++ scope
    | none, _ => ""
  "[" ++ e.kind.description ++ "]" ++ place ++ " " ++ e.message

abbrev EventLog := List Event

namespace EventLog

def record (log : EventLog) (e : Event) : EventLog := log ++ [e]

def count (log : EventLog) (kind : EventKind) : Nat := log.countP fun e => e.kind == kind

def transformations (log : EventLog) : List Event := log.filter fun e => e.kind.isTransformation

/-- The number of different scopes in which something was changed. -/
def scopesAffected (log : EventLog) : Nat :=
  (log.transformations.filterMap Event.scope).eraseDups.length

/-- How many transformations of each kind there were, as sorted text. -/
def summary (log : EventLog) : String :=
  if log.isEmpty then "no events"
  else
    let kinds :=
      (Spelled.all : List EventKind).filter fun k => k.isTransformation && log.count k > 0
    if kinds.isEmpty then toString log.length ++ " events"
    else
      let parts := kinds.map fun k => toString (log.count k) ++ " " ++ k.description
      ", ".intercalate (parts.mergeSort fun a b => a ≤ b)

end EventLog
end Untangle
