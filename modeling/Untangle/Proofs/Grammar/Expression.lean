import Untangle.Proofs.Grammar.Token
import Untangle.Syntax.Tree

/-!
# The expression grammar

A reader by recursive descent for the expressions of ECMAScript that are made
of names, `this`, strings, arrays and operators. It has one function for each
group of productions. What is read comes with the level of its production, so
that a production can ask for operands of a level: the numbers grow from the
comma to the primary expressions.

The productions have no bound on their nesting, so the functions are least
fixed points: one that does not come to an end reads nothing.
-/
namespace Untangle.Grammar

/-- An expression with the level of the production it was read by. -/
structure Phrase where
  tree : Expression
  level : Nat

/-- The words that are no identifiers. -/
def reservedWords : List String :=
  ["await", "break", "case", "catch", "class", "const", "continue", "debugger", "default",
    "delete", "do", "else", "enum", "export", "extends", "false", "finally", "for", "function",
    "if", "import", "in", "instanceof", "new", "null", "return", "super", "switch", "this",
    "throw", "true", "try", "typeof", "var", "void", "while", "with", "yield"]

/-- What the grammar leaves open: the words that are no identifiers. -/
structure Dialect where
  reserved : List String

def standard : Dialect := ⟨reservedWords⟩

/-- A production with an operator between two operands: its own level, the levels of its left
operand and the least level of its right one. -/
structure Infix where
  level : Nat
  left : Nat → Bool
  right : Nat
  build : Expression → Expression → Expression

/-- An operator that groups to the left. -/
def leftInfix (level : Nat) (build : Expression → Expression → Expression) : Infix :=
  ⟨level, fun l => level ≤ l, level + 1, build⟩

/-- The binary operators that group to the left, from the loosest row to the tightest. -/
def infixRows : List (List BinaryOperator) :=
  [[.bitOr], [.bitXor], [.bitAnd],
    [.equal, .notEqual, .strictEqual, .strictNotEqual],
    [.less, .lessEqual, .greater, .greaterEqual, .inside, .instanceOf],
    [.shiftLeft, .shiftRight, .shiftRightZero],
    [.add, .subtract],
    [.multiply, .divide, .remainder]]

/-- The rows stand above the logical operators. What is left is `**`: it groups to the right, and
its left operand is no unary expression. -/
def binaryInfix (op : BinaryOperator) : Infix :=
  match infixRows.findIdx? fun row => row.contains op with
  | some row => leftInfix (6 + row) (.binary op)
  | none => ⟨14, fun l => 16 ≤ l, 14, .binary op⟩

/-- A chain of `??` has no `||` and no `&&` among its operands. -/
def logicalInfix (op : LogicalOperator) : Infix :=
  match op with
  | .coalesce => ⟨3, fun l => l = 3 ∨ 6 ≤ l, 6, .logical op⟩
  | .or => leftInfix 4 (.logical op)
  | .and => leftInfix 5 (.logical op)

/-- The text of a token that may be an operator. -/
def Token.spelling : Token → String
  | .word s | .mark s => s
  | .text _ => ""

def infix? (t : Token) : Option Infix :=
  match (Spelled.ofText? t.spelling : Option BinaryOperator) with
  | some op => some (binaryInfix op)
  | none => (Spelled.ofText? t.spelling).map logicalInfix

def isTarget : Expression → Bool
  | .identifier _ | .member .. => true
  | _ => false

def behind? (sign : String) : List Token → Option (List Token)
  | .mark s :: ts => if s = sign then some ts else none
  | _ => none

@[simp] theorem behind?_mark (sign : String) (ts : List Token) :
    behind? sign (.mark sign :: ts) = some ts :=
  if_pos rfl

namespace Dialect

mutual
/-- `Assignment` or `Assignment, Assignment, ..`. -/
def expression (d : Dialect) (ts : List Token) : Option (Phrase × List Token) := do
  let (first, ts) ← d |>.assignment ts
  match ts with
  | .mark "," :: ts => do
    let (others, ts) ← d |>.assignments ts
    return (⟨.sequence (first.tree :: others), 1⟩, ts)
  | ts => return (first, ts)
partial_fixpoint

def assignments (d : Dialect) (ts : List Token) : Option (List Expression × List Token) := do
  let (first, ts) ← d |>.assignment ts
  match ts with
  | .mark "," :: ts => do
    let (others, ts) ← d |>.assignments ts
    return (first.tree :: others, ts)
  | ts => return ([first.tree], ts)
partial_fixpoint

/-- `Conditional` or `Target = Assignment`. -/
def assignment (d : Dialect) (ts : List Token) : Option (Phrase × List Token) := do
  let (left, ts) ← d |>.conditional ts
  match ts with
  | .mark sign :: rest =>
    match Spelled.ofText? sign with
    | some op => do
      guard (isTarget left.tree)
      let (value, ts) ← d |>.assignment rest
      return (⟨.assignment op left.tree value.tree, 2⟩, ts)
    | none => return (left, ts)
  | ts => return (left, ts)
partial_fixpoint

/-- `ShortCircuit` or `ShortCircuit ? Assignment : Assignment`. -/
def conditional (d : Dialect) (ts : List Token) : Option (Phrase × List Token) := do
  let (test, ts) ← d |>.operation 3 ts
  match ts with
  | .mark "?" :: ts => do
    let (consequent, ts) ← d |>.assignment ts
    let ts ← behind? ":" ts
    let (alternate, ts) ← d |>.assignment ts
    return (⟨.conditional test.tree consequent.tree alternate.tree, 2⟩, ts)
  | ts => return (test, ts)
partial_fixpoint

/-- Operands of unary operators with infix operators of at least the level `least` between. -/
def operation (d : Dialect) (least : Nat) (ts : List Token) : Option (Phrase × List Token) := do
  let (left, ts) ← d |>.unary ts
  d |>.operators least left ts
partial_fixpoint

/-- The infix operators behind an operand, as far as their productions take what is read. -/
def operators (d : Dialect) (least : Nat) (left : Phrase) (ts : List Token) :
    Option (Phrase × List Token) :=
  match ts with
  | [] => some (left, [])
  | t :: rest =>
    match infix? t with
    | some rule =>
      if least ≤ rule.level ∧ rule.left left.level then do
        let (right, ts) ← d |>.operation rule.right rest
        d |>.operators least ⟨rule.build left.tree right.tree, rule.level⟩ ts
      else some (left, t :: rest)
    | none => some (left, t :: rest)
partial_fixpoint

/-- `- Unary`, `typeof Unary`, .., or `Update`. -/
def unary (d : Dialect) (ts : List Token) : Option (Phrase × List Token) :=
  match ts with
  | [] => none
  | t :: rest =>
    match (Spelled.ofText? t.spelling : Option UnaryOperator) with
    | some op => do
      let (argument, ts) ← d |>.unary rest
      return (⟨.unary op true argument.tree, 15⟩, ts)
    | none => d |>.update t rest
partial_fixpoint

/-- `++ Unary`, `Target ++` or `LeftHandSide`. -/
def update (d : Dialect) (t : Token) (rest : List Token) : Option (Phrase × List Token) :=
  match (Spelled.ofText? t.spelling : Option UpdateOperator) with
  | some op => do
    let (argument, ts) ← d |>.unary rest
    guard (isTarget argument.tree)
    return (⟨.update op true argument.tree, 16⟩, ts)
  | none => do
    let (argument, ts) ← d |>.chain true (t :: rest)
    match ts with
    | .mark sign :: rest =>
      match Spelled.ofText? sign with
      | some op => do
        guard (isTarget argument.tree)
        return (⟨.update op false argument.tree, 16⟩, rest)
      | none => return (argument, ts)
    | ts => return (argument, ts)
partial_fixpoint

/-- A `new` or a primary expression, with the accesses behind it and, if `calls` says so, the
calls. The callee of a `new` has no calls: the first arguments are those of the `new`. -/
def chain (d : Dialect) (calls : Bool) (ts : List Token) : Option (Phrase × List Token) := do
  match ts with
  | .word "new" :: ts => do
    let (callee, ts) ← d |>.chain false ts
    match ts with
    | .mark "(" :: ts => do
      let (args, ts) ← d |>.arguments ts
      d |>.links calls ⟨.new callee.tree args, 18⟩ ts
    | ts => return (⟨.new callee.tree [], 17⟩, ts)
  | ts => do
    let (head, ts) ← d |>.primary ts
    d |>.links calls head ts
partial_fixpoint

def links (d : Dialect) (calls : Bool) (left : Phrase) (ts : List Token) :
    Option (Phrase × List Token) :=
  match ts with
  | .mark "." :: .word name :: ts =>
    d |>.links calls ⟨.member left.tree (.identifier name) false false, 18⟩ ts
  | .mark "[" :: ts => do
    let (property, ts) ← d |>.expression ts
    let ts ← behind? "]" ts
    d |>.links calls ⟨.member left.tree property.tree true false, 18⟩ ts
  | .mark "(" :: ts =>
    if calls then do
      let (args, ts) ← d |>.arguments ts
      d |>.links calls ⟨.call left.tree args false, 18⟩ ts
    else some (left, .mark "(" :: ts)
  | .mark "?." :: .mark "(" :: ts =>
    if calls then do
      let (args, ts) ← d |>.arguments ts
      d |>.links calls ⟨.call left.tree args true, 18⟩ ts
    else some (left, .mark "?." :: .mark "(" :: ts)
  | ts => some (left, ts)
partial_fixpoint

/-- The arguments behind an opening parenthesis. The last may have a comma behind it. -/
def arguments (d : Dialect) (ts : List Token) : Option (List Expression × List Token) :=
  match ts with
  | .mark ")" :: ts => some ([], ts)
  | ts => do
    let (first, ts) ← d |>.assignment ts
    match ts with
    | .mark "," :: ts => do
      let (others, ts) ← d |>.arguments ts
      return (first.tree :: others, ts)
    | .mark ")" :: ts => return ([first.tree], ts)
    | _ => none
partial_fixpoint

/-- The elements behind an opening bracket. A comma where an element could start is a hole; the
comma behind a last element is none. -/
def elements (d : Dialect) (ts : List Token) : Option (List (Option Expression) × List Token) :=
  match ts with
  | .mark "]" :: ts => some ([], ts)
  | .mark "," :: ts => do
    let (others, ts) ← d |>.elements ts
    return (none :: others, ts)
  | ts => do
    let (first, ts) ← d |>.assignment ts
    match ts with
    | .mark "," :: ts => do
      let (others, ts) ← d |>.elements ts
      return (some first.tree :: others, ts)
    | .mark "]" :: ts => return ([some first.tree], ts)
    | _ => none
partial_fixpoint

def primary (d : Dialect) (ts : List Token) : Option (Phrase × List Token) :=
  match ts with
  | .word "this" :: ts => some (⟨.this, 18⟩, ts)
  | .word name :: ts =>
    if d.reserved.contains name then none else some (⟨.identifier name, 18⟩, ts)
  | .text s :: ts => some (⟨.literal ⟨.string s, none, none, none⟩, 18⟩, ts)
  | .mark "(" :: ts => do
    let (inner, ts) ← d |>.expression ts
    let ts ← behind? ")" ts
    return (⟨inner.tree, 18⟩, ts)
  | .mark "[" :: ts => do
    let (es, ts) ← d |>.elements ts
    return (⟨.array es, 18⟩, ts)
  | _ => none
partial_fixpoint
end

end Dialect

def read (text : String) : Option Expression := do
  let ts ← lex text.toList
  match ← standard.expression ts with
  | (p, []) => return p.tree
  | _ => none

end Untangle.Grammar
