/-!
# Settings of a run

They say which passes run, and how often.
-/
namespace Untangle

structure Settings where
  strings : Bool := true
  /-- Whether the string pass also writes `object["name"]` as `object.name`. -/
  normalize : Bool := true
  dictionaries : Bool := true
  unflatten : Bool := true
  /-- How often the unflattening pass runs at most. -/
  rounds : Nat := 2
  loops : Bool := false
  deriving DecidableEq, Repr

namespace Settings

def minimal : Settings :=
  { dictionaries := false, unflatten := false, loops := false }

def aggressive : Settings :=
  { rounds := 4, loops := true }

def withPasses (s : Settings) (strings dictionaries unflatten loops : Bool) : Settings :=
  { s with strings, dictionaries, unflatten, loops }

def allPassesEnabled (s : Settings) : Bool :=
  s.strings && s.dictionaries && s.unflatten && 0 < s.rounds && s.loops

end Settings
end Untangle
