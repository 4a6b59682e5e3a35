import Untangle.Event.Log
import Untangle.Walk.Scope
import Untangle.Walk.Visitor

/-!
# Passes over programs

A pass gives back the program, the events it recorded and whether it changed
anything. Most passes keep no more state than their scope.
-/
namespace Untangle

structure Outcome where
  program : Program
  events : EventLog
  changed : Bool

structure Pass where
  name : String
  description : String
  run : Program → Outcome

/-- The state of a pass that only needs to know its scope: where it is, what it has recorded and how
many changes it has made. -/
structure Progress where
  scopes : Scopes := {}
  events : EventLog := []
  changes : Nat := 0

namespace Progress

/-- Records an event in the current scope. -/
def record (s : Progress) (pass : String) (kind : EventKind) (location : Option Nat)
    (message : String) : Progress :=
  { s with events := s.events.record ⟨kind, some s.scopes.label, location, message, some pass⟩ }

def change (s : Progress) : Progress := { s with changes := s.changes + 1 }

def enterScope (s : Progress) : Progress := { s with scopes := s.scopes.enter }

def leaveScope (s : Progress) : Progress := { s with scopes := s.scopes.leave }

end Progress

/-- A visitor that keeps track of its scope and does nothing else. -/
def scopeVisitor : Visitor Progress where
  enterFunction _ _ := do modify Progress.enterScope; return 0
  leaveFunction := modify Progress.leaveScope

/-- Runs a visitor over a whole program. -/
def Progress.walk (v : Visitor Progress) (p : Program) : Outcome :=
  let (program, s) := (v.program p).run {}
  ⟨program, s.events, s.changes > 0⟩

end Untangle
