import Untangle.Event.Log

/-!
# Counts of what a run did

All of them are read off the events; none is kept beside the log.
-/
namespace Untangle

structure Statistics where
  scopesTransformed : Nat := 0
  stringsDecoded : Nat := 0
  membersNormalized : Nat := 0
  constantsInlined : Nat := 0
  callsInlined : Nat := 0
  dictionaries : Nat := 0
  dispatchers : Nat := 0
  loopsReconstructed : Nat := 0
  warnings : Nat := 0
  errors : Nat := 0
  iterations : Nat := 0
  microseconds : Nat := 0
  deriving DecidableEq, Repr

/-- Digits after the point, in a field of `width`, without trailing zeros and without the point if
nothing is left. -/
def fractionText (width n : Nat) : String :=
  let digits := (toString n).toList
  let padded := List.replicate (width - digits.length) '0' ++ digits
  let kept := (padded.reverse.dropWhile (· == '0')).reverse
  if kept.isEmpty then "" else "." ++ String.ofList kept

/-- A time of at least a millisecond, in seconds from one second on. -/
def durationText (microseconds : Nat) : String :=
  if microseconds < 1000000 then
    toString (microseconds / 1000) ++ fractionText 3 (microseconds % 1000) ++ "ms"
  else
    toString (microseconds / 1000000) ++ fractionText 6 (microseconds % 1000000) ++ "s"

namespace Statistics

def ofLog (log : EventLog) : Statistics where
  scopesTransformed := log.scopesAffected
  stringsDecoded := log.count .stringDecoded
  membersNormalized := log.count .memberNormalized
  constantsInlined := log.count .constantInlined
  callsInlined := log.count .callInlined
  dictionaries := log.count .dictionaryRemoved
  dispatchers := log.count .controlFlowRestructured
  loopsReconstructed := log.count .loopReconstructed
  warnings := log.count .warning
  errors := log.count .error

/-- The counts that are not zero, and the time if it is worth telling. -/
def summary (s : Statistics) : String :=
  let counts := [(s.scopesTransformed, "scopes"), (s.stringsDecoded, "strings decoded"),
    (s.membersNormalized, "members normalized"), (s.dictionaries, "dictionaries"),
    (s.constantsInlined, "constants inlined"), (s.callsInlined, "calls inlined"),
    (s.dispatchers, "dispatchers"), (s.loopsReconstructed, "loops"), (s.errors, "errors"),
    (s.warnings, "warnings")]
  let parts := (counts.filter fun (n, _) => n > 0).map fun (n, what) => toString n ++ " " ++ what
  let text := if parts.isEmpty then "no transformations" else ", ".intercalate parts
  if s.microseconds < 1000 then text
  else
    text ++ " in " ++ durationText s.microseconds ++ " (" ++ toString s.iterations ++ " iterations)"

end Statistics
end Untangle
