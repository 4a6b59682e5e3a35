import Untangle.Pass.Basic
import Untangle.Syntax.View
import Untangle.Text.Split

/-!
# Dispatchers

Flattened code keeps the statements of a block as the cases of a `switch` in
an endless loop, and their order as a string such as `"2|0|1"` that is split
at the start of the block. The pass puts the cases back in order in the place
of the block. Cases count by position, not by their tests. A block that has
been put back is not looked into by the same run.
-/
namespace Untangle

namespace Dispatcher

/-- The cases of a loop whose body is, or starts with, a `switch`. -/
def cases? : Statement → Option (List Case)
  | .whileLoop _ (.block (.switch _ cases :: _)) => some cases
  | .whileLoop _ (.switch _ cases) => some cases
  | _ => none

/-- The first dispatcher of a list, with its place. -/
def find? : List Statement → Option (Nat × List Case)
  | [] => none
  | s :: rest =>
    match cases? s with
    | some cases => some (0, cases)
    | none => (find? rest).map fun (n, cases) => (n + 1, cases)

/-- The order of the cases as text: the string on which the first variable of the first statement
calls a method. -/
def orderText? : List Statement → Option String
  | .declaration ⟨⟨_, some (.call (.member object _ _ _) _ _)⟩ :: _, _⟩ :: _ => object.string?
  | _ => none

/-- The places of the cases in the order in which they run. -/
def order? (text : String) : Option (List Nat) :=
  (Text.split '|' text.toList).mapM fun part => Text.unsigned? 10 (Text.trim part)

/-- The statements of the cases in order, without `continue`. -/
def merge? (cases : List Case) (order : List Nat) : Option (List Statement) := do
  let chosen ← order.mapM fun i => cases[i]?
  return chosen.flatMap fun c => c.consequent.filter fun s => !s.isContinue

/-- A list of statements with a dispatcher and the order of its cases. -/
structure Flattened where
  location : Nat
  cases : List Case
  order : String
  merged : List Statement

def flattened? (body : List Statement) : Option Flattened := do
  let (location, cases) ← find? body
  let text ← orderText? body
  let order ← order? text
  return ⟨location, cases, text, ← merge? cases order⟩

end Dispatcher

namespace Unflattening

def passName : String := "unflatten"

def enterStatements (body : List Statement) : StateM Progress Entry := do
  match Dispatcher.flattened? body with
  | none => return .descend
  | some f =>
    modify fun s => s.record passName .dispatcherIdentified (some f.location)
      (toString f.cases.length ++ " cases, order " ++ f.order)
    modify fun s => s.record passName .controlFlowRestructured (some f.location)
      (toString body.length ++ " statements -> " ++ toString f.merged.length)
    modify Progress.change
    return .settle f.merged

def visitor : Visitor Progress := { scopeVisitor with enterStatements }

def run (p : Program) : Outcome := Progress.walk visitor p

end Unflattening

def unflattening : Pass where
  name := Unflattening.passName
  description := "Replaces while/switch dispatchers with their cases in execution order"
  run := Unflattening.run

end Untangle
