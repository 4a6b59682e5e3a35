import Untangle.Syntax.Tree

/-!
# Depth-first traversal of syntax trees

A walk carries a state. A visitor is called when the walk enters and leaves a
list of statements, when it enters and leaves a function, and after it has
walked the parts of an expression. Names of members and properties that are
not computed are no expressions of the program and are passed over.
-/
namespace Untangle

/-- What becomes of a list of statements when it is entered: its statements are walked, or the
list is settled as it is given back and nothing in it is walked. -/
inductive Entry where
  | descend
  | settle (body : List Statement)

structure Visitor (σ : Type) where
  enterStatements : List Statement → StateM σ Entry := fun _ => pure .descend
  leaveStatements : List Statement → StateM σ (List Statement) := pure
  /-- Called with the parameters and, unless the function is an expression, its body. Gives back
  how many statements to take off the front of the body before it is walked. -/
  enterFunction : List Expression → Option (List Statement) → StateM σ Nat := fun _ _ => pure 0
  leaveFunction : StateM σ Unit := pure ()
  leaveExpression : Expression → StateM σ Expression := pure

namespace Visitor

variable {σ : Type} (v : Visitor σ)

/-- Brackets the walk over a list of statements by the two calls for the list. -/
def around (body : List Statement) (walk : StateM σ (List Statement)) :
    StateM σ (List Statement) := do
  match ← v.enterStatements body with
  | .settle body => return body
  | .descend => v.leaveStatements (← walk)

mutual
def expression : Expression → StateM σ Expression
  | .identifier name => v.leaveExpression (.identifier name)
  | .literal l => v.leaveExpression (.literal l)
  | .this => v.leaveExpression .this
  | .array elements => do
    let elements ← optionals elements
    v.leaveExpression (.array elements)
  | .object ms => do
    let ms ← members ms
    v.leaveExpression (.object ms)
  | .function f => do
    let f ← function f
    v.leaveExpression (.function f)
  | .arrow params (.block body) concise async => do
    let cut ← v.enterFunction params (some body)
    let params ← expressions params
    let body ← v.around (body.drop cut) (statementsFrom cut body)
    v.leaveFunction
    v.leaveExpression (.arrow params (.block body) concise async)
  | .arrow params (.expression body) concise async => do
    let _ ← v.enterFunction params none
    let params ← expressions params
    let body ← expression body
    v.leaveFunction
    v.leaveExpression (.arrow params (.expression body) concise async)
  | .unary op leading argument => do
    let argument ← expression argument
    v.leaveExpression (.unary op leading argument)
  | .update op leading argument => do
    let argument ← expression argument
    v.leaveExpression (.update op leading argument)
  | .binary op left right => do
    let left ← expression left
    let right ← expression right
    v.leaveExpression (.binary op left right)
  | .logical op left right => do
    let left ← expression left
    let right ← expression right
    v.leaveExpression (.logical op left right)
  | .assignment op target value => do
    let target ← expression target
    let value ← expression value
    v.leaveExpression (.assignment op target value)
  | .conditional test consequent alternate => do
    let test ← expression test
    let consequent ← expression consequent
    let alternate ← expression alternate
    v.leaveExpression (.conditional test consequent alternate)
  | .call callee arguments optional => do
    let callee ← expression callee
    let arguments ← expressions arguments
    v.leaveExpression (.call callee arguments optional)
  | .new callee arguments => do
    let callee ← expression callee
    let arguments ← expressions arguments
    v.leaveExpression (.new callee arguments)
  | .member object property computed optional => do
    let object ← expression object
    let property ← if computed then expression property else pure property
    v.leaveExpression (.member object property computed optional)
  | .sequence es => do
    let es ← expressions es
    v.leaveExpression (.sequence es)
  | .template quasis es => do
    let es ← expressions es
    v.leaveExpression (.template quasis es)
  | .tagged tag quasi => do
    let tag ← expression tag
    let quasi ← expression quasi
    v.leaveExpression (.tagged tag quasi)
  | .spread argument => do
    let argument ← expression argument
    v.leaveExpression (.spread argument)
  | .assignmentPattern target fallback => do
    let target ← expression target
    let fallback ← expression fallback
    v.leaveExpression (.assignmentPattern target fallback)
  | .arrayPattern elements => do
    let elements ← optionals elements
    v.leaveExpression (.arrayPattern elements)
  | .objectPattern ms => do
    let ms ← members ms
    v.leaveExpression (.objectPattern ms)
  | .rest argument => do
    let argument ← expression argument
    v.leaveExpression (.rest argument)
  | .foreign value => v.leaveExpression (.foreign value)
termination_by structural e => e

def expressions : List Expression → StateM σ (List Expression)
  | [] => return []
  | e :: rest => do
    let e ← expression e
    return e :: (← expressions rest)
termination_by structural l => l

def optional : Option Expression → StateM σ (Option Expression)
  | none => return none
  | some e => do return some (← expression e)
termination_by structural e => e

def optionals : List (Option Expression) → StateM σ (List (Option Expression))
  | [] => return []
  | e :: rest => do
    let e ← optional e
    return e :: (← optionals rest)
termination_by structural l => l

def member : Member → StateM σ Member
  | .property key value kind computed method shorthand => do
    let key ← if computed then expression key else pure key
    let value ← expression value
    return .property key value kind computed method shorthand
  | .spread argument => do return .spread (← expression argument)
  | .rest argument => do return .rest (← expression argument)
  | .foreign value => return .foreign value
termination_by structural m => m

def members : List Member → StateM σ (List Member)
  | [] => return []
  | m :: rest => do
    let m ← member m
    return m :: (← members rest)
termination_by structural l => l

def function : Function → StateM σ Function
  | ⟨name, params, body, generator, async⟩ => do
    let cut ← v.enterFunction params (some body)
    let params ← expressions params
    let body ← v.around (body.drop cut) (statementsFrom cut body)
    v.leaveFunction
    return ⟨name, params, body, generator, async⟩
termination_by structural f => f

def statement : Statement → StateM σ Statement
  | .expression e directive => do return .expression (← expression e) directive
  | .block body => do return .block (← v.around body (statementsFrom 0 body))
  | .empty => return .empty
  | .debugger => return .debugger
  | .returns argument => do return .returns (← optional argument)
  | .breaks label => return .breaks label
  | .continues label => return .continues label
  | .labeled label body => do return .labeled label (← statement body)
  | .branch test consequent alternate => do
    let test ← expression test
    let consequent ← statement consequent
    return .branch test consequent (← statementOption alternate)
  | .switch discriminant cs => do
    let discriminant ← expression discriminant
    return .switch discriminant (← cases cs)
  | .throws argument => do return .throws (← expression argument)
  | .attempt block handler finalizer => do
    let block ← v.around block (statementsFrom 0 block)
    let handler ← handlerOption handler
    return .attempt block handler (← blockOption finalizer)
  | .whileLoop test body => do
    let test ← expression test
    return .whileLoop test (← statement body)
  | .doWhile body test => do
    let test ← expression test
    return .doWhile (← statement body) test
  | .forLoop init test update body => do
    let init ← headOption init
    let test ← optional test
    let update ← optional update
    return .forLoop init test update (← statement body)
  | .forIn left right body => do
    let left ← head left
    let right ← expression right
    return .forIn left right (← statement body)
  | .forOf left right body await => do
    let left ← head left
    let right ← expression right
    return .forOf left right (← statement body) await
  | .function f => do return .function (← function f)
  | .declaration d => do return .declaration (← declaration d)
  | .foreign value => return .foreign value
termination_by structural s => s

/-- The statements after the first `cut`. -/
def statementsFrom : Nat → List Statement → StateM σ (List Statement)
  | _, [] => return []
  | cut + 1, _ :: rest => statementsFrom cut rest
  | 0, s :: rest => do
    let s ← statement s
    return s :: (← statementsFrom 0 rest)
termination_by structural _ l => l

def statementOption : Option Statement → StateM σ (Option Statement)
  | none => return none
  | some s => do return some (← statement s)
termination_by structural s => s

def blockOption : Option (List Statement) → StateM σ (Option (List Statement))
  | none => return none
  | some body => do return some (← v.around body (statementsFrom 0 body))
termination_by structural b => b

def cases : List Case → StateM σ (List Case)
  | [] => return []
  | ⟨test, consequent⟩ :: rest => do
    let test ← optional test
    let consequent ← v.around consequent (statementsFrom 0 consequent)
    return ⟨test, consequent⟩ :: (← cases rest)
termination_by structural l => l

def handlerOption : Option Handler → StateM σ (Option Handler)
  | none => return none
  | some ⟨param, body⟩ => do
    let param ← optional param
    return some ⟨param, ← v.around body (statementsFrom 0 body)⟩
termination_by structural h => h

def declaration : Declaration → StateM σ Declaration
  | ⟨ds, kind⟩ => do return ⟨← declarators ds, kind⟩
termination_by structural d => d

def declarators : List Declarator → StateM σ (List Declarator)
  | [] => return []
  | ⟨target, init⟩ :: rest => do
    let target ← expression target
    let init ← optional init
    return ⟨target, init⟩ :: (← declarators rest)
termination_by structural l => l

def head : LoopHead → StateM σ LoopHead
  | .declaration d => do return .declaration (← declaration d)
  | .expression e => do return .expression (← expression e)
termination_by structural h => h

def headOption : Option LoopHead → StateM σ (Option LoopHead)
  | none => return none
  | some h => do return some (← head h)
termination_by structural h => h
end

def statements (body : List Statement) : StateM σ (List Statement) :=
  v.around body (v.statementsFrom 0 body)

def program (p : Program) : StateM σ Program := do
  return { p with body := ← v.statements p.body }

end Visitor
end Untangle
