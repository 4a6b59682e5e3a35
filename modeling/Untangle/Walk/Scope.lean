/-!
# Labels of function scopes

Functions are numbered in the order in which a walk enters them, so a scope
has the same label in every walk over the same tree.
-/
namespace Untangle

/-- The numbers of the functions around the current place, innermost first, and how many functions
have been entered so far. -/
structure Scopes where
  around : List Nat := []
  entered : Nat := 0
  deriving DecidableEq, Repr

namespace Scopes

def enter (s : Scopes) : Scopes := ⟨(s.entered + 1) :: s.around, s.entered + 1⟩

def leave (s : Scopes) : Scopes := { s with around := s.around.tail }

def label (s : Scopes) : String :=
  match s.around with
  | [] => "program"
  | n :: _ => "function#" ++ toString n

end Scopes
end Untangle
