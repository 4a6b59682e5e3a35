import Untangle.Syntax.Tree
import Untangle.Text.Numeral

/-!
# What can be seen of a node without evaluating it

These are names, literal values, constant truth, and the index that a literal
stands for.
-/
namespace Untangle

namespace Expression

def identifier? : Expression → Option String
  | .identifier name => some name
  | _ => none

/-- The value of a string literal. -/
def string? : Expression → Option String
  | .literal ⟨.string s, _, _, _⟩ => some s
  | _ => none

/-- The value of a number literal. -/
def number? : Expression → Option Binary64
  | .literal ⟨.number x, _, _, _⟩ => some x
  | _ => none

/-- The table index that a number literal, or a string literal that spells a number, stands for. -/
def index? : Expression → Option Nat
  | .literal ⟨.number x, _, _, _⟩ => x.index?
  | .literal ⟨.string s, _, _, _⟩ => Text.index? s
  | _ => none

def ofString (s : String) : Expression := .literal ⟨.string s, none, none, none⟩

/-- The negation of a test, taking off a `!` that is already there. -/
def negated : Expression → Expression
  | .unary .not _ argument => argument
  | test => .unary .not true test

def isContainer : Expression → Bool
  | .array _ | .object _ => true
  | _ => false

mutual
/-- A constant that is always true: a literal, or `!` before one that is always false. -/
def isTruthy : Expression → Bool
  | .literal ⟨.boolean b, _, _, _⟩ => b
  | .literal ⟨.number x, _, _, _⟩ => !x.isZero && !x.isNaN
  | .literal ⟨.string s, _, _, _⟩ => !s.isEmpty
  | .unary .not _ argument => argument.isFalsy
  | _ => false
termination_by structural e => e
/-- A constant that is always false. An array or object literal is an object, so `!` makes it
false although it is not itself counted as a constant. -/
def isFalsy : Expression → Bool
  | .literal ⟨.boolean b, _, _, _⟩ => !b
  | .literal ⟨.number x, _, _, _⟩ => x.isZero || x.isNaN
  | .literal ⟨.string s, _, _, _⟩ => s.isEmpty
  | .literal ⟨.null, _, regex, _⟩ => regex.isNone
  | .unary .not _ argument => argument.isTruthy || argument.isContainer
  | _ => false
termination_by structural e => e
end

end Expression

/-- The name of a property known without evaluation: `key` or `["key"]`. -/
def staticName? (property : Expression) (computed : Bool) : Option String :=
  if computed then property.string? else property.identifier?

namespace Statement

/-- A `break` without a label. -/
def isPlainBreak : Statement → Bool
  | .breaks none => true
  | _ => false

def isContinue : Statement → Bool
  | .continues _ => true
  | _ => false

/-- A `while` whose test is constant and true. -/
def isEndlessLoop : Statement → Bool
  | .whileLoop test _ => test.isTruthy
  | _ => false

def declaration? : Statement → Option Declaration
  | .declaration d => some d
  | _ => none

end Statement

/-- The name and initial value of the only variable that a declaration declares. -/
def Declaration.single? (d : Declaration) : Option (String × Option Expression) :=
  match d.declarators with
  | [⟨.identifier name, init⟩] => some (name, init)
  | _ => none

/-- The name and initial value of the first variable that a statement declares. -/
def Statement.firstVariable? : Statement → Option (String × Option Expression)
  | .declaration ⟨⟨.identifier name, init⟩ :: _, _⟩ => some (name, init)
  | _ => none

end Untangle
