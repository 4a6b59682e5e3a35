import Untangle.Json.Fields
import Untangle.Syntax.Kind

/-!
# Reading syntax trees from JSON

A value is read for every place it could stand in: as an expression, a
statement, a member, a list of these and so on. The readings of a value are
made from the readings of its parts, so that no part is read twice and the
recursion is on the value itself. Reading an expression, statement or member
never fails: what has no known kind, or lacks a field of its kind, is foreign.
-/
namespace Untangle

/-- A JSON value and what it reads as in each kind of place. -/
structure Reading where
  value : Json
  expression : Expression
  statement : Statement
  member : Member
  loopHead : LoopHead
  arrowBody : ArrowBody
  block : Option (List Statement)
  handler : Option Handler
  case : Option Case
  declarator : Option Declarator
  expressions : Option (List Expression)
  elements : Option (List (Option Expression))
  statements : Option (List Statement)
  members : Option (List Member)
  cases : Option (List Case)
  declarators : Option (List Declarator)

namespace Reading

def boolean? (r : Reading) : Option Bool := r.value.boolean?
def string? (r : Reading) : Option String := r.value.string?
def word? [Spelled α] (r : Reading) : Option α := r.value.word?

/-- Reads `null` as an absent part. -/
def nullable (read : Reading → Option α) (r : Reading) : Option (Option α) :=
  if r.value.isNull then some none else (read r).map some

def expression? (r : Reading) : Option (Option Expression) :=
  r.nullable fun r => some r.expression

/-- The name in a label or in the head of a function; its own kind is not looked at. -/
def name? (r : Reading) : Option String := do
  let f ← r.value.fields?
  guard (f.fits 1)
  f.required 0 "name" Json.string?

end Reading

abbrev Parts := Fields Reading

/-- The kind that a tag names, or that it gives the number of. -/
def kindOfTag? [Spelled α] : Json → Option α
  | .string s => Spelled.ofText? s
  | .integer (.ofNat n) => Spelled.ofNumber? n
  | _ => none

/-- The kind of a tagged record and its fields: the tag is the member `type`, or the first item. -/
def tagged? [Spelled α] : Parts → Option (α × Parts)
  | .named members => do
    let tag ← members.lookup "type"
    return (← kindOfTag? tag.value, .named members)
  | .listed (tag :: items) => do return (← kindOfTag? tag.value, .listed items)
  | .listed [] => none

def Regex.ofJson? (v : Json) : Option Regex := do
  let f ← v.fields?
  guard (f.fits 2)
  return ⟨← f.required 0 "pattern" Json.string?, ← f.required 1 "flags" Json.string?⟩

def Quasi.ofJson? (v : Json) : Option Quasi := do
  let f ← v.fields?
  guard (f.fits 2)
  let text ← (← f.get? 0 "value").fields?
  guard (text.fits 2)
  let raw ← text.required 0 "raw" Json.string?
  let cooked ← text.orElse 1 "cooked" none (Json.nullable Json.string?)
  return ⟨raw, cooked, ← f.orElse 1 "tail" false Json.boolean?⟩

def LiteralValue.ofJson : Json → LiteralValue
  | .null => .null
  | .boolean b => .boolean b
  | .integer n => .number (.ofInt n)
  | .double x => .number x
  | .string s => .string s
  | v => .foreign v

def Literal.ofParts? (f : Parts) : Option Literal := do
  guard (f.fits 4)
  let value ← f.get? 0 "value"
  let raw ← f.orElse 1 "raw" none fun r => r.nullable Reading.string?
  let regex ← f.orElse 2 "regex" none fun r => r.nullable fun r => Regex.ofJson? r.value
  let bigint ← f.orElse 3 "bigint" none fun r => r.nullable Reading.string?
  return ⟨.ofJson value.value, raw, regex, bigint⟩

def Function.ofParts? (f : Parts) : Option Function := do
  guard (f.fits 5)
  let name ← f.optional 0 "id" fun r => r.nullable Reading.name?
  let params ← f.required 1 "params" Reading.expressions
  let body ← f.required 2 "body" Reading.block
  let generator ← f.orElse 3 "generator" false Reading.boolean?
  let async ← f.orElse 4 "async" false Reading.boolean?
  return ⟨name, params, body, generator, async⟩

def Declaration.ofParts? (f : Parts) : Option Declaration := do
  guard (f.fits 2)
  return ⟨← f.required 0 "declarations" Reading.declarators, ← f.required 1 "kind" Reading.word?⟩

namespace Expression

/-- One operator and two operands, named `left` and `right`. -/
def infixParts? [Spelled α] (f : Parts) : Option (α × Expression × Expression) := do
  guard (f.fits 3)
  let op ← f.required 0 "operator" Reading.word?
  let left ← f.get? 1 "left"
  let right ← f.get? 2 "right"
  return (op, left.expression, right.expression)

def ofParts? (kind : ExpressionKind) (f : Parts) : Option Expression :=
  match kind with
  | .identifier => do
    guard (f.fits 1)
    return .identifier (← f.required 0 "name" Reading.string?)
  | .literal => (Literal.ofParts? f).map .literal
  | .this => do
    guard (f.fits 0)
    return .this
  | .array => do
    guard (f.fits 1)
    return .array (← f.required 0 "elements" Reading.elements)
  | .object => do
    guard (f.fits 1)
    return .object (← f.required 0 "properties" Reading.members)
  | .function => (Function.ofParts? f).map .function
  | .arrow => do
    guard (f.fits 4)
    let params ← f.required 0 "params" Reading.expressions
    let body ← f.get? 1 "body"
    let concise ← f.orElse 2 "expression" false Reading.boolean?
    let async ← f.orElse 3 "async" false Reading.boolean?
    return .arrow params body.arrowBody concise async
  | .unary => do
    guard (f.fits 3)
    let op ← f.required 0 "operator" Reading.word?
    let leading ← f.orElse 1 "prefix" true Reading.boolean?
    let argument ← f.get? 2 "argument"
    return .unary op leading argument.expression
  | .update => do
    guard (f.fits 3)
    let op ← f.required 0 "operator" Reading.word?
    let leading ← f.required 1 "prefix" Reading.boolean?
    let argument ← f.get? 2 "argument"
    return .update op leading argument.expression
  | .binary => do
    let (op, left, right) ← infixParts? f
    return .binary op left right
  | .logical => do
    let (op, left, right) ← infixParts? f
    return .logical op left right
  | .assignment => do
    let (op, left, right) ← infixParts? f
    return .assignment op left right
  | .conditional => do
    guard (f.fits 3)
    let test ← f.get? 0 "test"
    let consequent ← f.get? 1 "consequent"
    let alternate ← f.get? 2 "alternate"
    return .conditional test.expression consequent.expression alternate.expression
  | .call => do
    guard (f.fits 3)
    let callee ← f.get? 0 "callee"
    let arguments ← f.required 1 "arguments" Reading.expressions
    let optional ← f.orElse 2 "optional" false Reading.boolean?
    return .call callee.expression arguments optional
  | .new => do
    guard (f.fits 2)
    let callee ← f.get? 0 "callee"
    return .new callee.expression (← f.required 1 "arguments" Reading.expressions)
  | .member => do
    guard (f.fits 4)
    let object ← f.get? 0 "object"
    let property ← f.get? 1 "property"
    let computed ← f.required 2 "computed" Reading.boolean?
    let optional ← f.orElse 3 "optional" false Reading.boolean?
    return .member object.expression property.expression computed optional
  | .sequence => do
    guard (f.fits 1)
    return .sequence (← f.required 0 "expressions" Reading.expressions)
  | .template => do
    guard (f.fits 2)
    let quasis ← f.required 0 "quasis" fun r => do (← r.value.array?).mapM Quasi.ofJson?
    return .template quasis (← f.required 1 "expressions" Reading.expressions)
  | .tagged => do
    guard (f.fits 2)
    let tag ← f.get? 0 "tag"
    let quasi ← f.get? 1 "quasi"
    return .tagged tag.expression quasi.expression
  | .spread => do
    guard (f.fits 1)
    return .spread (← f.get? 0 "argument").expression
  | .assignmentPattern => do
    guard (f.fits 2)
    let target ← f.get? 0 "left"
    let fallback ← f.get? 1 "right"
    return .assignmentPattern target.expression fallback.expression
  | .arrayPattern => do
    guard (f.fits 1)
    return .arrayPattern (← f.required 0 "elements" Reading.elements)
  | .objectPattern => do
    guard (f.fits 1)
    return .objectPattern (← f.required 0 "properties" Reading.members)
  | .rest => do
    guard (f.fits 1)
    return .rest (← f.get? 0 "argument").expression

end Expression

def Member.ofParts? (kind : MemberKind) (f : Parts) : Option Member :=
  match kind with
  | .property => do
    guard (f.fits 6)
    let key ← f.get? 0 "key"
    let value ← f.get? 1 "value"
    let kind ← f.orElse 2 "kind" .init Reading.word?
    let computed ← f.orElse 3 "computed" false Reading.boolean?
    let method ← f.orElse 4 "method" false Reading.boolean?
    let shorthand ← f.orElse 5 "shorthand" false Reading.boolean?
    return .property key.expression value.expression kind computed method shorthand
  | .spread => do
    guard (f.fits 1)
    return .spread (← f.get? 0 "argument").expression
  | .rest => do
    guard (f.fits 1)
    return .rest (← f.get? 0 "argument").expression

def Statement.ofParts? (kind : StatementKind) (f : Parts) : Option Statement :=
  match kind with
  | .expression => do
    guard (f.fits 2)
    let expression ← f.get? 0 "expression"
    let directive ← f.orElse 1 "directive" none fun r => r.nullable Reading.string?
    return .expression expression.expression directive
  | .block => do
    guard (f.fits 1)
    return .block (← f.required 0 "body" Reading.statements)
  | .empty => do
    guard (f.fits 0)
    return .empty
  | .debugger => do
    guard (f.fits 0)
    return .debugger
  | .returns => do
    guard (f.fits 1)
    return .returns (← f.optional 0 "argument" Reading.expression?)
  | .breaks => do
    guard (f.fits 1)
    return .breaks (← f.optional 0 "label" fun r => r.nullable Reading.name?)
  | .continues => do
    guard (f.fits 1)
    return .continues (← f.optional 0 "label" fun r => r.nullable Reading.name?)
  | .labeled => do
    guard (f.fits 2)
    let label ← f.required 0 "label" Reading.name?
    return .labeled label (← f.get? 1 "body").statement
  | .branch => do
    guard (f.fits 3)
    let test ← f.get? 0 "test"
    let consequent ← f.get? 1 "consequent"
    let alternate ← f.optional 2 "alternate" fun r => r.nullable fun r => some r.statement
    return .branch test.expression consequent.statement alternate
  | .switch => do
    guard (f.fits 2)
    let discriminant ← f.get? 0 "discriminant"
    return .switch discriminant.expression (← f.required 1 "cases" Reading.cases)
  | .throws => do
    guard (f.fits 1)
    return .throws (← f.get? 0 "argument").expression
  | .attempt => do
    guard (f.fits 3)
    let block ← f.required 0 "block" Reading.block
    let handler ← f.optional 1 "handler" fun r => r.nullable Reading.handler
    let finalizer ← f.optional 2 "finalizer" fun r => r.nullable Reading.block
    return .attempt block handler finalizer
  | .whileLoop => do
    guard (f.fits 2)
    let test ← f.get? 0 "test"
    return .whileLoop test.expression (← f.get? 1 "body").statement
  | .doWhile => do
    guard (f.fits 2)
    let body ← f.get? 0 "body"
    return .doWhile body.statement (← f.get? 1 "test").expression
  | .forLoop => do
    guard (f.fits 4)
    let init ← f.optional 0 "init" fun r => r.nullable fun r => some r.loopHead
    let test ← f.optional 1 "test" Reading.expression?
    let update ← f.optional 2 "update" Reading.expression?
    return .forLoop init test update (← f.get? 3 "body").statement
  | .forIn => do
    guard (f.fits 3)
    let left ← f.get? 0 "left"
    let right ← f.get? 1 "right"
    return .forIn left.loopHead right.expression (← f.get? 2 "body").statement
  | .forOf => do
    guard (f.fits 4)
    let left ← f.get? 0 "left"
    let right ← f.get? 1 "right"
    let body ← f.get? 2 "body"
    let await ← f.orElse 3 "await" false Reading.boolean?
    return .forOf left.loopHead right.expression body.statement await
  | .function => (Function.ofParts? f).map .function
  | .declaration => (Declaration.ofParts? f).map .declaration

/-- A block of statements; its own kind is not looked at. -/
def blockOfParts? (f : Parts) : Option (List Statement) := do
  guard (f.fits 1)
  f.required 0 "body" Reading.statements

def Handler.ofParts? (f : Parts) : Option Handler := do
  guard (f.fits 2)
  return ⟨← f.optional 0 "param" Reading.expression?, ← f.required 1 "body" Reading.block⟩

def Case.ofParts? (f : Parts) : Option Case := do
  guard (f.fits 2)
  return ⟨← f.optional 0 "test" Reading.expression?, ← f.required 1 "consequent" Reading.statements⟩

def Declarator.ofParts? (f : Parts) : Option Declarator := do
  guard (f.fits 2)
  let target ← f.get? 0 "id"
  return ⟨target.expression, ← f.optional 1 "init" Reading.expression?⟩

/-- The one kind that a record at the head of a loop may have beside those of expressions. -/
inductive HeadKind where
  | declaration

instance : Spelled HeadKind := ⟨[.declaration], fun _ => StatementKind.declaration.text⟩

def headDeclaration? (f : Parts) : Option Declaration := do
  let (HeadKind.declaration, f) ← tagged? f
  Declaration.ofParts? f

namespace Reading

/-- A value without parts. -/
def ofScalar (v : Json) : Reading where
  value := v
  expression := .foreign v
  statement := .foreign v
  member := .foreign v
  loopHead := .expression (.foreign v)
  arrowBody := .expression (.foreign v)
  block := none
  handler := none
  case := none
  declarator := none
  expressions := none
  elements := none
  statements := none
  members := none
  cases := none
  declarators := none

/-- A value that is a record of `parts`. -/
def ofParts (v : Json) (parts : Parts) : Reading :=
  let expression :=
    ((tagged? parts).bind fun (kind, f) => Expression.ofParts? kind f).getD (.foreign v)
  let block := blockOfParts? parts
  { ofScalar v with
    expression
    statement := ((tagged? parts).bind fun (kind, f) => Statement.ofParts? kind f).getD (.foreign v)
    member := ((tagged? parts).bind fun (kind, f) => Member.ofParts? kind f).getD (.foreign v)
    loopHead := ((headDeclaration? parts).map .declaration).getD (.expression expression)
    arrowBody := (block.map .block).getD (.expression expression)
    block
    handler := Handler.ofParts? parts
    case := Case.ofParts? parts
    declarator := Declarator.ofParts? parts }

/-- An array is a record by place, and a list. -/
def ofItems (v : Json) (items : List Reading) : Reading :=
  { ofParts v (.listed items) with
    expressions := some (items.map expression)
    elements := items.mapM expression?
    statements := some (items.map statement)
    members := some (items.map member)
    cases := items.mapM case
    declarators := items.mapM declarator }

mutual
def ofJson : Json → Reading
  | .array items => ofItems (.array items) (ofList items)
  | .object members => ofParts (.object members) (.named (ofMembers members))
  | v => ofScalar v
termination_by structural v => v
def ofList : List Json → List Reading
  | [] => []
  | v :: rest => ofJson v :: ofList rest
termination_by structural v => v
def ofMembers : List (String × Json) → List (String × Reading)
  | [] => []
  | (name, v) :: rest => (name, ofJson v) :: ofMembers rest
termination_by structural v => v
end

end Reading

def Expression.ofJson (v : Json) : Expression := (Reading.ofJson v).expression

def Statement.ofJson (v : Json) : Statement := (Reading.ofJson v).statement

end Untangle
