import Untangle.Syntax.Tree

/-!
# Diagrams of trees

A diagram shows a tree with one shape for all sorts of nodes: what stands at a
node, and the parts of the node in the order in which a walk comes to them. A
property of all nodes is then a recursion over a handful of shapes. Lists of
statements and functions are shapes of their own, since a walk treats them as
units; so is a name that a walk passes over.
-/
namespace Untangle

/-- An expression without its parts. -/
inductive ExpressionRoot where
  | identifier (name : String)
  | literal (literal : Literal)
  | this
  | array
  | object
  | function (name : Option String) (generator async : Bool)
  | arrow (concise async : Bool)
  | unary (op : UnaryOperator) (leading : Bool)
  | update (op : UpdateOperator) (leading : Bool)
  | binary (op : BinaryOperator)
  | logical (op : LogicalOperator)
  | assignment (op : AssignmentOperator)
  | conditional
  | call (optional : Bool)
  | new
  | member (computed optional : Bool)
  | sequence
  | template (quasis : List Quasi)
  | tagged
  | spread
  | assignmentPattern
  | arrayPattern
  | objectPattern
  | rest
  | foreign (value : Json)

inductive StatementRoot where
  | expression (directive : Option String)
  | block
  | empty
  | debugger
  | returns
  | breaks (label : Option String)
  | continues (label : Option String)
  | labeled (label : String)
  | branch
  | switch
  | throws
  | attempt
  | whileLoop
  | doWhile
  | forLoop
  | forIn
  | forOf (await : Bool)
  | function (name : Option String) (generator async : Bool)
  | declaration
  | foreign (value : Json)

/-- What stands at a node that is neither an expression nor a statement. -/
inductive ClauseRoot where
  | property (kind : PropertyKind) (computed method shorthand : Bool)
  | spread
  | rest
  | foreign (value : Json)
  | case
  | handler
  | declaration (kind : VariableKind)
  | declarator

inductive Node where
  | expression (root : ExpressionRoot)
  | statement (root : StatementRoot)
  | clause (root : ClauseRoot)

def Node.foreign? : Node → Option Json
  | .expression (.foreign v) | .statement (.foreign v) | .clause (.foreign v) => some v
  | _ => none

/-- A part may be missing: then `nothing` stands in its place, as at the end of the parts. -/
inductive Diagram where
  | nothing
  | pair (first rest : Diagram)
  | passed (name : Diagram)
  | expression (root : ExpressionRoot) (parts : Diagram)
  | statement (root : StatementRoot) (parts : Diagram)
  | clause (root : ClauseRoot) (parts : Diagram)
  | block (body : List Statement) (parts : Diagram)
  | function (params : List Expression) (parts body : Diagram)

namespace Diagram

def parts : List Diagram → Diagram
  | [] => nothing
  | d :: rest => pair d (parts rest)

/-- The name of a property is walked only in brackets. -/
def ofProperty (computed : Bool) (name : Diagram) : Diagram :=
  if computed then name else passed name

def root? : Diagram → Option ExpressionRoot
  | .expression root _ => some root
  | _ => none

end Diagram

open Diagram (parts ofProperty)

mutual
def Expression.diagram : Expression → Diagram
  | .identifier name => .expression (.identifier name) .nothing
  | .literal l => .expression (.literal l) .nothing
  | .this => .expression .this .nothing
  | .array es => .expression .array (elementsDiagram es)
  | .object ms => .expression .object (membersDiagram ms)
  | .function ⟨name, params, body, generator, async⟩ =>
    .expression (.function name generator async)
      (parts [.function params (expressionsDiagram params) (.block body (statementsDiagram body))])
  | .arrow params body concise async =>
    .expression (.arrow concise async)
      (parts [.function params (expressionsDiagram params) body.diagram])
  | .unary op leading e => .expression (.unary op leading) (parts [e.diagram])
  | .update op leading e => .expression (.update op leading) (parts [e.diagram])
  | .binary op l r => .expression (.binary op) (parts [l.diagram, r.diagram])
  | .logical op l r => .expression (.logical op) (parts [l.diagram, r.diagram])
  | .assignment op l r => .expression (.assignment op) (parts [l.diagram, r.diagram])
  | .conditional t c a => .expression .conditional (parts [t.diagram, c.diagram, a.diagram])
  | .call callee es optional =>
    .expression (.call optional) (.pair callee.diagram (expressionsDiagram es))
  | .new callee es => .expression .new (.pair callee.diagram (expressionsDiagram es))
  | .member o p computed optional =>
    .expression (.member computed optional) (parts [o.diagram, ofProperty computed p.diagram])
  | .sequence es => .expression .sequence (expressionsDiagram es)
  | .template quasis es => .expression (.template quasis) (expressionsDiagram es)
  | .tagged tag quasi => .expression .tagged (parts [tag.diagram, quasi.diagram])
  | .spread e => .expression .spread (parts [e.diagram])
  | .assignmentPattern l r => .expression .assignmentPattern (parts [l.diagram, r.diagram])
  | .arrayPattern es => .expression .arrayPattern (elementsDiagram es)
  | .objectPattern ms => .expression .objectPattern (membersDiagram ms)
  | .rest e => .expression .rest (parts [e.diagram])
  | .foreign v => .expression (.foreign v) .nothing
termination_by structural e => e

def expressionsDiagram : List Expression → Diagram
  | [] => .nothing
  | e :: rest => .pair e.diagram (expressionsDiagram rest)
termination_by structural l => l

def optionDiagram : Option Expression → Diagram
  | none => .nothing
  | some e => e.diagram
termination_by structural e => e

def elementsDiagram : List (Option Expression) → Diagram
  | [] => .nothing
  | e :: rest => .pair (optionDiagram e) (elementsDiagram rest)
termination_by structural l => l

def Member.diagram : Member → Diagram
  | .property key value kind computed method shorthand =>
    .clause (.property kind computed method shorthand)
      (parts [ofProperty computed key.diagram, value.diagram])
  | .spread e => .clause .spread (parts [e.diagram])
  | .rest e => .clause .rest (parts [e.diagram])
  | .foreign v => .clause (.foreign v) .nothing
termination_by structural m => m

def membersDiagram : List Member → Diagram
  | [] => .nothing
  | m :: rest => .pair m.diagram (membersDiagram rest)
termination_by structural l => l

def ArrowBody.diagram : ArrowBody → Diagram
  | .block body => .block body (statementsDiagram body)
  | .expression e => e.diagram
termination_by structural b => b

def Statement.diagram : Statement → Diagram
  | .expression e directive => .statement (.expression directive) (parts [e.diagram])
  | .block body => .statement .block (parts [.block body (statementsDiagram body)])
  | .empty => .statement .empty .nothing
  | .debugger => .statement .debugger .nothing
  | .returns argument => .statement .returns (parts [optionDiagram argument])
  | .breaks label => .statement (.breaks label) .nothing
  | .continues label => .statement (.continues label) .nothing
  | .labeled label body => .statement (.labeled label) (parts [body.diagram])
  | .branch test consequent alternate =>
    .statement .branch (parts [test.diagram, consequent.diagram, alternateDiagram alternate])
  | .switch discriminant cases =>
    .statement .switch (.pair discriminant.diagram (casesDiagram cases))
  | .throws argument => .statement .throws (parts [argument.diagram])
  | .attempt block handler finalizer =>
    .statement .attempt (parts [.block block (statementsDiagram block), handlerDiagram handler,
      finalizerDiagram finalizer])
  | .whileLoop test body => .statement .whileLoop (parts [test.diagram, body.diagram])
  | .doWhile body test => .statement .doWhile (parts [test.diagram, body.diagram])
  | .forLoop init test update body =>
    .statement .forLoop
      (parts [initDiagram init, optionDiagram test, optionDiagram update, body.diagram])
  | .forIn left right body =>
    .statement .forIn (parts [left.diagram, right.diagram, body.diagram])
  | .forOf left right body await =>
    .statement (.forOf await) (parts [left.diagram, right.diagram, body.diagram])
  | .function ⟨name, params, body, generator, async⟩ =>
    .statement (.function name generator async)
      (parts [.function params (expressionsDiagram params) (.block body (statementsDiagram body))])
  | .declaration d => .statement .declaration (parts [d.diagram])
  | .foreign v => .statement (.foreign v) .nothing
termination_by structural s => s

def statementsDiagram : List Statement → Diagram
  | [] => .nothing
  | s :: rest => .pair s.diagram (statementsDiagram rest)
termination_by structural l => l

def alternateDiagram : Option Statement → Diagram
  | none => .nothing
  | some s => s.diagram
termination_by structural s => s

def finalizerDiagram : Option (List Statement) → Diagram
  | none => .nothing
  | some body => .block body (statementsDiagram body)
termination_by structural b => b

def casesDiagram : List Case → Diagram
  | [] => .nothing
  | ⟨test, consequent⟩ :: rest =>
    .pair (.clause .case
        (parts [optionDiagram test, .block consequent (statementsDiagram consequent)]))
      (casesDiagram rest)
termination_by structural l => l

def handlerDiagram : Option Handler → Diagram
  | none => .nothing
  | some ⟨param, body⟩ =>
    .clause .handler (parts [optionDiagram param, .block body (statementsDiagram body)])
termination_by structural h => h

def Declaration.diagram : Declaration → Diagram
  | ⟨declarators, kind⟩ => .clause (.declaration kind) (declaratorsDiagram declarators)
termination_by structural d => d

def declaratorsDiagram : List Declarator → Diagram
  | [] => .nothing
  | ⟨target, init⟩ :: rest =>
    .pair (.clause .declarator (parts [target.diagram, optionDiagram init]))
      (declaratorsDiagram rest)
termination_by structural l => l

def LoopHead.diagram : LoopHead → Diagram
  | .declaration d => d.diagram
  | .expression e => e.diagram
termination_by structural h => h

def initDiagram : Option LoopHead → Diagram
  | none => .nothing
  | some h => h.diagram
termination_by structural h => h
end

/-- What is put together from the two parts of a pair is so from two lists of statements. -/
theorem statementsDiagram_append {α : Type} {f : Diagram → α} {op : α → α → α}
    (hnothing : ∀ x, op (f .nothing) x = x) (hassoc : ∀ x y z, op (op x y) z = op x (op y z))
    (hpair : ∀ first rest, f (.pair first rest) = op (f first) (f rest)) (l m : List Statement) :
    f (statementsDiagram (l ++ m)) = op (f (statementsDiagram l)) (f (statementsDiagram m)) := by
  induction l with
  | nil => exact (hnothing _).symm
  | cons s l ih =>
    rw [List.cons_append, statementsDiagram, statementsDiagram, hpair, hpair, ih, hassoc]

/-- The diagram of an expression has the shape of one. -/
theorem Expression.exists_diagram (e : Expression) :
    ∃ root parts, e.diagram = .expression root parts := by
  cases e with
  | function f => cases f; exact ⟨_, _, rfl⟩
  | _ => exact ⟨_, _, rfl⟩

theorem Expression.eq_identifier {e : Expression} {name : String} {d : Diagram}
    (h : e.diagram = .expression (.identifier name) d) : e = .identifier name := by
  cases e with
  | identifier => cases h; rfl
  | function f => cases f; cases h
  | _ => cases h

/-- The diagram of a statement has the shape of one. -/
theorem Statement.exists_diagram (s : Statement) :
    ∃ root parts, s.diagram = .statement root parts := by
  cases s with
  | function f => cases f; exact ⟨_, _, rfl⟩
  | _ => exact ⟨_, _, rfl⟩

/-- The statements of a function, unless its body is an expression. -/
def Diagram.statements? : Diagram → Option (List Statement)
  | .block body _ => some body
  | _ => none

def blockDiagram (body : List Statement) : Diagram := .block body (statementsDiagram body)

def Program.diagram (p : Program) : Diagram := blockDiagram p.body

def functionDiagram (params : List Expression) (body : List Statement) : Diagram :=
  .function params (expressionsDiagram params) (blockDiagram body)

end Untangle
