import Untangle.Syntax.Tree

/-!
# Kinds of nodes

Every kind has a name. The order of the kinds is the one by which a node may
also be tagged with a number.
-/
namespace Untangle

inductive ExpressionKind where
  | identifier | literal | this | array | object | function | arrow | unary | update | binary
  | logical | assignment | conditional | call | new | member | sequence | template | tagged
  | spread | assignmentPattern | arrayPattern | objectPattern | rest
  deriving DecidableEq, Repr

def ExpressionKind.text : ExpressionKind → String
  | .identifier => "Identifier"
  | .literal => "Literal"
  | .this => "ThisExpression"
  | .array => "ArrayExpression"
  | .object => "ObjectExpression"
  | .function => "FunctionExpression"
  | .arrow => "ArrowFunctionExpression"
  | .unary => "UnaryExpression"
  | .update => "UpdateExpression"
  | .binary => "BinaryExpression"
  | .logical => "LogicalExpression"
  | .assignment => "AssignmentExpression"
  | .conditional => "ConditionalExpression"
  | .call => "CallExpression"
  | .new => "NewExpression"
  | .member => "MemberExpression"
  | .sequence => "SequenceExpression"
  | .template => "TemplateLiteral"
  | .tagged => "TaggedTemplateExpression"
  | .spread => "SpreadElement"
  | .assignmentPattern => "AssignmentPattern"
  | .arrayPattern => "ArrayPattern"
  | .objectPattern => "ObjectPattern"
  | .rest => "RestElement"

instance : Spelled ExpressionKind :=
  ⟨[.identifier, .literal, .this, .array, .object, .function, .arrow, .unary, .update, .binary,
    .logical, .assignment, .conditional, .call, .new, .member, .sequence, .template, .tagged,
    .spread, .assignmentPattern, .arrayPattern, .objectPattern, .rest], ExpressionKind.text⟩

inductive StatementKind where
  | expression | block | empty | debugger | returns | breaks | continues | labeled | branch
  | switch | throws | attempt | whileLoop | doWhile | forLoop | forIn | forOf | function
  | declaration
  deriving DecidableEq, Repr

def StatementKind.text : StatementKind → String
  | .expression => "ExpressionStatement"
  | .block => "BlockStatement"
  | .empty => "EmptyStatement"
  | .debugger => "DebuggerStatement"
  | .returns => "ReturnStatement"
  | .breaks => "BreakStatement"
  | .continues => "ContinueStatement"
  | .labeled => "LabeledStatement"
  | .branch => "IfStatement"
  | .switch => "SwitchStatement"
  | .throws => "ThrowStatement"
  | .attempt => "TryStatement"
  | .whileLoop => "WhileStatement"
  | .doWhile => "DoWhileStatement"
  | .forLoop => "ForStatement"
  | .forIn => "ForInStatement"
  | .forOf => "ForOfStatement"
  | .function => "FunctionDeclaration"
  | .declaration => "VariableDeclaration"

instance : Spelled StatementKind :=
  ⟨[.expression, .block, .empty, .debugger, .returns, .breaks, .continues, .labeled, .branch,
    .switch, .throws, .attempt, .whileLoop, .doWhile, .forLoop, .forIn, .forOf, .function,
    .declaration], StatementKind.text⟩

inductive MemberKind where
  | property | spread | rest
  deriving DecidableEq, Repr

def MemberKind.text : MemberKind → String
  | .property => "Property"
  | .spread => "SpreadElement"
  | .rest => "RestElement"

instance : Spelled MemberKind := ⟨[.property, .spread, .rest], MemberKind.text⟩

/-- The name that a foreign value gives itself. -/
def Json.kindName (v : Json) : String :=
  ((v.member? "type").bind Json.string?).getD "<untyped>"

def Expression.kindName : Expression → String
  | .identifier .. => ExpressionKind.identifier.text
  | .literal .. => ExpressionKind.literal.text
  | .this => ExpressionKind.this.text
  | .array .. => ExpressionKind.array.text
  | .object .. => ExpressionKind.object.text
  | .function .. => ExpressionKind.function.text
  | .arrow .. => ExpressionKind.arrow.text
  | .unary .. => ExpressionKind.unary.text
  | .update .. => ExpressionKind.update.text
  | .binary .. => ExpressionKind.binary.text
  | .logical .. => ExpressionKind.logical.text
  | .assignment .. => ExpressionKind.assignment.text
  | .conditional .. => ExpressionKind.conditional.text
  | .call .. => ExpressionKind.call.text
  | .new .. => ExpressionKind.new.text
  | .member .. => ExpressionKind.member.text
  | .sequence .. => ExpressionKind.sequence.text
  | .template .. => ExpressionKind.template.text
  | .tagged .. => ExpressionKind.tagged.text
  | .spread .. => ExpressionKind.spread.text
  | .assignmentPattern .. => ExpressionKind.assignmentPattern.text
  | .arrayPattern .. => ExpressionKind.arrayPattern.text
  | .objectPattern .. => ExpressionKind.objectPattern.text
  | .rest .. => ExpressionKind.rest.text
  | .foreign v => v.kindName

def Statement.kindName : Statement → String
  | .expression .. => StatementKind.expression.text
  | .block .. => StatementKind.block.text
  | .empty => StatementKind.empty.text
  | .debugger => StatementKind.debugger.text
  | .returns .. => StatementKind.returns.text
  | .breaks .. => StatementKind.breaks.text
  | .continues .. => StatementKind.continues.text
  | .labeled .. => StatementKind.labeled.text
  | .branch .. => StatementKind.branch.text
  | .switch .. => StatementKind.switch.text
  | .throws .. => StatementKind.throws.text
  | .attempt .. => StatementKind.attempt.text
  | .whileLoop .. => StatementKind.whileLoop.text
  | .doWhile .. => StatementKind.doWhile.text
  | .forLoop .. => StatementKind.forLoop.text
  | .forIn .. => StatementKind.forIn.text
  | .forOf .. => StatementKind.forOf.text
  | .function .. => StatementKind.function.text
  | .declaration .. => StatementKind.declaration.text
  | .foreign v => v.kindName

end Untangle
