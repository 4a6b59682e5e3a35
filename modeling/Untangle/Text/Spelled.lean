/-!
# Finite types whose values have a written form

A value is found again by its text or by its number.
-/
namespace Untangle

class Spelled (α : Type) where
  /-- Every value, in the order in which the values are numbered. -/
  all : List α
  text : α → String

namespace Spelled

variable {α : Type} [Spelled α]

def ofText? (s : String) : Option α := all.find? fun a => text a == s

def ofNumber? (n : Nat) : Option α := (all : List α)[n]?

end Spelled
end Untangle
