import Untangle.Syntax.View

/-!
# Binding strength of expressions

An expression is put in parentheses where its place needs a higher level than
it has. There are a few places where the level alone does not decide.
-/
namespace Untangle.Printer

/-- Levels of binding strength; those of binary and logical operators lie between the test of a
conditional and a unary operator. -/
def sequenceLevel : Nat := 1
def assignLevel : Nat := 2
def testLevel : Nat := 3
def unaryLevel : Nat := 15
def postfixLevel : Nat := 16
def callLevel : Nat := 17
def memberLevel : Nat := 18
def primaryLevel : Nat := 19

def literalLevel (l : Literal) : Nat :=
  match l.value with
  | .number x => if x.isNegative && !x.isZero then unaryLevel else primaryLevel
  | _ => primaryLevel

def precedence : Expression → Nat
  | .sequence _ => sequenceLevel
  | .arrow .. | .assignment .. | .conditional .. | .assignmentPattern .. | .spread _ | .rest _ =>
    assignLevel
  | .logical op _ _ => op.precedence
  | .binary op _ _ => op.precedence
  | .unary .. => unaryLevel
  | .update _ leading _ => if leading then unaryLevel else postfixLevel
  | .call .. | .new .. | .tagged .. => callLevel
  | .member .. => memberLevel
  | .literal l => literalLevel l
  | _ => primaryLevel

/-- The levels that the operands of a binary operator need. Operators group to the left, except for
`**`, which also takes no unary operand on its left. -/
def binaryLevels (op : BinaryOperator) : Nat × Nat :=
  if op = .power then (postfixLevel, op.precedence) else (op.precedence, op.precedence + 1)

/-- The levels that the operands of a logical operator need: `??` mixes with no other one. -/
def logicalLevels (op : LogicalOperator) : Nat × Nat :=
  if op = .coalesce then
    (LogicalOperator.and.precedence + 1, LogicalOperator.and.precedence + 1)
  else (op.precedence, op.precedence + 1)

/-- Would the text of the expression, first in a statement, read as a block or a declaration? The
chain of leftmost operands decides. -/
def startsAmbiguously : Expression → Bool
  | .object _ | .objectPattern _ | .function _ => true
  | .binary _ left _ => startsAmbiguously left
  | .logical _ left _ => startsAmbiguously left
  | .assignment _ target _ => startsAmbiguously target
  | .conditional test _ _ => startsAmbiguously test
  | .call callee _ _ => startsAmbiguously callee
  | .member object _ _ _ => startsAmbiguously object
  | .sequence (first :: _) => startsAmbiguously first
  | .update _ leading argument => !leading && startsAmbiguously argument
  | .tagged tag _ => startsAmbiguously tag
  | _ => false
termination_by structural e => e

/-- Would `new` take a call inside its callee for its own? -/
def containsCall : Expression → Bool
  | .call .. => true
  | .member object _ _ _ => containsCall object
  | .tagged tag _ => containsCall tag
  | _ => false
termination_by structural e => e

/-- Would a sign run together with the sign that its operand starts with? -/
def signsMeet (op : UnaryOperator) (argument : Expression) : Bool :=
  match op, argument with
  | .minus, .unary .minus _ _ => true
  | .plus, .unary .plus _ _ => true
  | .minus, .update .decrement leading _ => leading
  | .plus, .update .increment leading _ => leading
  | .minus, .literal ⟨.number x, _, _, _⟩ => x.isNegative
  | _, _ => false

/-- A number literal whose text could take a following dot for a decimal point. -/
def isBareInteger (e : Expression) : Bool :=
  match e.number? with
  | some x => x.integral?.isSome && (x.isZero || !x.isNegative)
  | none => false

/-- The text of an expression in a place that needs at least the level `least`. -/
def grouped (least : Nat) (e : Expression) (text : String) : String :=
  if precedence e < least then "(" ++ text ++ ")" else text

end Untangle.Printer
