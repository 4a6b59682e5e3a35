import Untangle.Json.Value
import Untangle.Syntax.Operator

/-!
# Syntax trees of JavaScript programs

Patterns share the type of expressions, since their place tells them apart. A
node of a kind outside this model is kept as the JSON value it came from: it
is `foreign`. Constructors whose natural names are reserved words go by what
they do: `branch` is an `if`, `attempt` a `try`.
-/
namespace Untangle

structure Regex where
  pattern : String
  flags : String
  deriving DecidableEq, Repr

inductive LiteralValue where
  | null
  | boolean (value : Bool)
  | number (value : Binary64)
  | string (value : String)
  | foreign (value : Json)

/-- A literal. `raw` is its source text, where known; a regular expression or a big integer carries
its own spelling, and its `value` is what a JSON file could hold of it. -/
structure Literal where
  value : LiteralValue
  raw : Option String
  regex : Option Regex
  bigint : Option String

/-- A text segment of a template, as written and with its escapes resolved. -/
structure Quasi where
  raw : String
  cooked : Option String
  tail : Bool
  deriving DecidableEq, Repr

inductive PropertyKind where
  | init | get | set
  deriving DecidableEq, Repr

def PropertyKind.text : PropertyKind → String
  | .init => "init"
  | .get => "get"
  | .set => "set"

instance : Spelled PropertyKind := ⟨[.init, .get, .set], PropertyKind.text⟩

inductive VariableKind where
  | var | lexical | constant
  deriving DecidableEq, Repr

def VariableKind.text : VariableKind → String
  | .var => "var"
  | .lexical => "let"
  | .constant => "const"

instance : Spelled VariableKind := ⟨[.var, .lexical, .constant], VariableKind.text⟩

mutual
inductive Expression where
  | identifier (name : String)
  | literal (literal : Literal)
  | this
  | array (elements : List (Option Expression))
  | object (members : List Member)
  | function (function : Function)
  | arrow (params : List Expression) (body : ArrowBody) (concise async : Bool)
  | unary (op : UnaryOperator) (leading : Bool) (argument : Expression)
  | update (op : UpdateOperator) (leading : Bool) (argument : Expression)
  | binary (op : BinaryOperator) (left right : Expression)
  | logical (op : LogicalOperator) (left right : Expression)
  | assignment (op : AssignmentOperator) (target value : Expression)
  | conditional (test consequent alternate : Expression)
  | call (callee : Expression) (arguments : List Expression) (optional : Bool)
  | new (callee : Expression) (arguments : List Expression)
  | member (object property : Expression) (computed optional : Bool)
  | sequence (expressions : List Expression)
  | template (quasis : List Quasi) (expressions : List Expression)
  | tagged (tag quasi : Expression)
  | spread (argument : Expression)
  | assignmentPattern (target fallback : Expression)
  | arrayPattern (elements : List (Option Expression))
  | objectPattern (members : List Member)
  | rest (argument : Expression)
  | foreign (value : Json)

/-- A member of an object literal or an object pattern. -/
inductive Member where
  | property (key value : Expression) (kind : PropertyKind) (computed method shorthand : Bool)
  | spread (argument : Expression)
  | rest (argument : Expression)
  | foreign (value : Json)

structure Function where
  name : Option String
  params : List Expression
  body : List Statement
  generator : Bool
  async : Bool

inductive ArrowBody where
  | block (body : List Statement)
  | expression (value : Expression)

inductive Statement where
  | expression (expression : Expression) (directive : Option String)
  | block (body : List Statement)
  | empty
  | debugger
  | returns (argument : Option Expression)
  | breaks (label : Option String)
  | continues (label : Option String)
  | labeled (label : String) (body : Statement)
  | branch (test : Expression) (consequent : Statement) (alternate : Option Statement)
  | switch (discriminant : Expression) (cases : List Case)
  | throws (argument : Expression)
  | attempt (block : List Statement) (handler : Option Handler)
    (finalizer : Option (List Statement))
  | whileLoop (test : Expression) (body : Statement)
  | doWhile (body : Statement) (test : Expression)
  | forLoop (init : Option LoopHead) (test update : Option Expression) (body : Statement)
  | forIn (left : LoopHead) (right : Expression) (body : Statement)
  | forOf (left : LoopHead) (right : Expression) (body : Statement) (await : Bool)
  | function (function : Function)
  | declaration (declaration : Declaration)
  | foreign (value : Json)

/-- A case of a `switch`; without a test it is the default. -/
structure Case where
  test : Option Expression
  consequent : List Statement

structure Handler where
  param : Option Expression
  body : List Statement

structure Declaration where
  declarators : List Declarator
  kind : VariableKind

structure Declarator where
  target : Expression
  init : Option Expression

inductive LoopHead where
  | declaration (declaration : Declaration)
  | expression (expression : Expression)
end

inductive SourceType where
  | script | esModule
  deriving DecidableEq, Repr

def SourceType.text : SourceType → String
  | .script => "script"
  | .esModule => "module"

instance : Spelled SourceType := ⟨[.script, .esModule], SourceType.text⟩

structure Program where
  body : List Statement
  sourceType : SourceType

end Untangle
