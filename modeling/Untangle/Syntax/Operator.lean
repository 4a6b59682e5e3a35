import Untangle.Text.Spelled

/-!
# Operators of JavaScript expressions

Each has its spelling, and the ones with two operands have a level of binding
strength.
-/
namespace Untangle

inductive UnaryOperator where
  | minus | plus | not | bitNot | typeOf | void | delete
  deriving DecidableEq, Repr

namespace UnaryOperator

def text : UnaryOperator → String
  | .minus => "-"
  | .plus => "+"
  | .not => "!"
  | .bitNot => "~"
  | .typeOf => "typeof"
  | .void => "void"
  | .delete => "delete"

instance : Spelled UnaryOperator :=
  ⟨[.minus, .plus, .not, .bitNot, .typeOf, .void, .delete], text⟩

/-- Is the operator a word, so that a blank must follow it? -/
def isKeyword : UnaryOperator → Bool
  | .typeOf | .void | .delete => true
  | _ => false

end UnaryOperator

inductive UpdateOperator where
  | increment | decrement
  deriving DecidableEq, Repr

def UpdateOperator.text : UpdateOperator → String
  | .increment => "++"
  | .decrement => "--"

instance : Spelled UpdateOperator := ⟨[.increment, .decrement], UpdateOperator.text⟩

inductive BinaryOperator where
  | equal | notEqual | strictEqual | strictNotEqual
  | less | lessEqual | greater | greaterEqual
  | shiftLeft | shiftRight | shiftRightZero
  | add | subtract | multiply | divide | remainder | power
  | bitOr | bitXor | bitAnd
  | inside | instanceOf
  deriving DecidableEq, Repr

namespace BinaryOperator

def text : BinaryOperator → String
  | .equal => "=="
  | .notEqual => "!="
  | .strictEqual => "==="
  | .strictNotEqual => "!=="
  | .less => "<"
  | .lessEqual => "<="
  | .greater => ">"
  | .greaterEqual => ">="
  | .shiftLeft => "<<"
  | .shiftRight => ">>"
  | .shiftRightZero => ">>>"
  | .add => "+"
  | .subtract => "-"
  | .multiply => "*"
  | .divide => "/"
  | .remainder => "%"
  | .power => "**"
  | .bitOr => "|"
  | .bitXor => "^"
  | .bitAnd => "&"
  | .inside => "in"
  | .instanceOf => "instanceof"

instance : Spelled BinaryOperator :=
  ⟨[.equal, .notEqual, .strictEqual, .strictNotEqual, .less, .lessEqual, .greater, .greaterEqual,
    .shiftLeft, .shiftRight, .shiftRightZero, .add, .subtract, .multiply, .divide, .remainder,
    .power, .bitOr, .bitXor, .bitAnd, .inside, .instanceOf], text⟩

def precedence : BinaryOperator → Nat
  | .bitOr => 6
  | .bitXor => 7
  | .bitAnd => 8
  | .equal | .notEqual | .strictEqual | .strictNotEqual => 9
  | .less | .lessEqual | .greater | .greaterEqual | .inside | .instanceOf => 10
  | .shiftLeft | .shiftRight | .shiftRightZero => 11
  | .add | .subtract => 12
  | .multiply | .divide | .remainder => 13
  | .power => 14

def isKeyword : BinaryOperator → Bool
  | .inside | .instanceOf => true
  | _ => false

end BinaryOperator

inductive LogicalOperator where
  | or | and | coalesce
  deriving DecidableEq, Repr

namespace LogicalOperator

def text : LogicalOperator → String
  | .or => "||"
  | .and => "&&"
  | .coalesce => "??"

instance : Spelled LogicalOperator := ⟨[.or, .and, .coalesce], text⟩

def precedence : LogicalOperator → Nat
  | .coalesce => 3
  | .or => 4
  | .and => 5

end LogicalOperator

inductive AssignmentOperator where
  | plain | add | subtract | multiply | divide | remainder | power
  | shiftLeft | shiftRight | shiftRightZero | bitOr | bitXor | bitAnd | or | and | coalesce
  deriving DecidableEq, Repr

def AssignmentOperator.text : AssignmentOperator → String
  | .plain => "="
  | .add => "+="
  | .subtract => "-="
  | .multiply => "*="
  | .divide => "/="
  | .remainder => "%="
  | .power => "**="
  | .shiftLeft => "<<="
  | .shiftRight => ">>="
  | .shiftRightZero => ">>>="
  | .bitOr => "|="
  | .bitXor => "^="
  | .bitAnd => "&="
  | .or => "||="
  | .and => "&&="
  | .coalesce => "??="

instance : Spelled AssignmentOperator :=
  ⟨[.plain, .add, .subtract, .multiply, .divide, .remainder, .power, .shiftLeft, .shiftRight,
    .shiftRightZero, .bitOr, .bitXor, .bitAnd, .or, .and, .coalesce], AssignmentOperator.text⟩

end Untangle
