import Mathlib.Logic.Basic
import Untangle.Proofs.Syntax.Binding

/-!
# Trees read back from their diagrams

A diagram tells all of a tree, also without the copies that it has of functions
and blocks: the tree can be read back from it.
-/
namespace Untangle

/-- A part of a tree, or parts in order. -/
inductive Fragment where
  | nothing
  | pair (first rest : Fragment)
  | expression (e : Expression)
  | statement (s : Statement)
  | member (m : Member)
  | case (c : Case)
  | handler (h : Handler)
  | declaration (d : Declaration)
  | declarator (d : Declarator)
  | block (body : List Statement)
  | function (params : List Expression) (body : ArrowBody)

namespace Fragment

def first : Fragment → Fragment
  | pair a _ => a
  | _ => nothing

def rest : Fragment → Fragment
  | pair _ b => b
  | _ => nothing

def second (r : Fragment) : Fragment := r.rest.first

def third (r : Fragment) : Fragment := r.rest.rest.first

def fourth (r : Fragment) : Fragment := r.rest.rest.rest.first

def toExpression : Fragment → Expression
  | expression e => e
  | _ => .this

def expression? : Fragment → Option Expression
  | nothing => none
  | r => some r.toExpression

def expressions : Fragment → List Expression
  | pair first rest => first.toExpression :: rest.expressions
  | _ => []

def elements : Fragment → List (Option Expression)
  | pair first rest => first.expression? :: rest.elements
  | _ => []

def toMember : Fragment → Member
  | member m => m
  | _ => .foreign .null

def members : Fragment → List Member
  | pair first rest => first.toMember :: rest.members
  | _ => []

def toStatement : Fragment → Statement
  | statement s => s
  | _ => .empty

def statement? : Fragment → Option Statement
  | nothing => none
  | r => some r.toStatement

def statements : Fragment → List Statement
  | pair first rest => first.toStatement :: rest.statements
  | _ => []

def toBlock : Fragment → List Statement
  | block body => body
  | _ => []

def block? : Fragment → Option (List Statement)
  | nothing => none
  | r => some r.toBlock

def toCase : Fragment → Case
  | case c => c
  | _ => ⟨none, []⟩

def cases : Fragment → List Case
  | pair first rest => first.toCase :: rest.cases
  | _ => []

def handler? : Fragment → Option Handler
  | handler h => some h
  | _ => none

def toDeclaration : Fragment → Declaration
  | declaration d => d
  | _ => ⟨[], .var⟩

def toDeclarator : Fragment → Declarator
  | declarator d => d
  | _ => ⟨.this, none⟩

def declarators : Fragment → List Declarator
  | pair first rest => first.toDeclarator :: rest.declarators
  | _ => []

def toHead : Fragment → LoopHead
  | declaration d => .declaration d
  | r => .expression r.toExpression

def head? : Fragment → Option LoopHead
  | nothing => none
  | r => some r.toHead

def toArrowBody : Fragment → ArrowBody
  | block body => .block body
  | r => .expression r.toExpression

def params : Fragment → List Expression
  | function params _ => params
  | _ => []

def functionBody : Fragment → ArrowBody
  | function _ body => body
  | _ => .block []

def functionBlock (r : Fragment) : List Statement :=
  match r.functionBody with
  | .block body => body
  | _ => []

end Fragment

/-- The expression with this root and these parts. -/
def ExpressionRoot.assemble (r : Fragment) : ExpressionRoot → Expression
  | identifier name => .identifier name
  | literal l => .literal l
  | this => .this
  | array => .array r.elements
  | object => .object r.members
  | function name generator async =>
    .function ⟨name, r.first.params, r.first.functionBlock, generator, async⟩
  | arrow concise async => .arrow r.first.params r.first.functionBody concise async
  | unary op leading => .unary op leading r.first.toExpression
  | update op leading => .update op leading r.first.toExpression
  | binary op => .binary op r.first.toExpression r.second.toExpression
  | logical op => .logical op r.first.toExpression r.second.toExpression
  | assignment op => .assignment op r.first.toExpression r.second.toExpression
  | conditional =>
    .conditional r.first.toExpression r.second.toExpression r.third.toExpression
  | call optional => .call r.first.toExpression r.rest.expressions optional
  | new => .new r.first.toExpression r.rest.expressions
  | member computed optional =>
    .member r.first.toExpression r.second.toExpression computed optional
  | sequence => .sequence r.expressions
  | template quasis => .template quasis r.expressions
  | tagged => .tagged r.first.toExpression r.second.toExpression
  | spread => .spread r.first.toExpression
  | assignmentPattern => .assignmentPattern r.first.toExpression r.second.toExpression
  | arrayPattern => .arrayPattern r.elements
  | objectPattern => .objectPattern r.members
  | rest => .rest r.first.toExpression
  | foreign value => .foreign value

def StatementRoot.assemble (r : Fragment) : StatementRoot → Statement
  | expression directive => .expression r.first.toExpression directive
  | block => .block r.first.toBlock
  | empty => .empty
  | debugger => .debugger
  | returns => .returns r.first.expression?
  | breaks label => .breaks label
  | continues label => .continues label
  | labeled label => .labeled label r.first.toStatement
  | branch => .branch r.first.toExpression r.second.toStatement r.third.statement?
  | switch => .switch r.first.toExpression r.rest.cases
  | throws => .throws r.first.toExpression
  | attempt => .attempt r.first.toBlock r.second.handler? r.third.block?
  | whileLoop => .whileLoop r.first.toExpression r.second.toStatement
  | doWhile => .doWhile r.second.toStatement r.first.toExpression
  | forLoop =>
    .forLoop r.first.head? r.second.expression? r.third.expression? r.fourth.toStatement
  | forIn => .forIn r.first.toHead r.second.toExpression r.third.toStatement
  | forOf await => .forOf r.first.toHead r.second.toExpression r.third.toStatement await
  | function name generator async =>
    .function ⟨name, r.first.params, r.first.functionBlock, generator, async⟩
  | declaration => .declaration r.first.toDeclaration
  | foreign value => .foreign value

def ClauseRoot.assemble (r : Fragment) : ClauseRoot → Fragment
  | property kind computed method shorthand =>
    .member (.property r.first.toExpression r.second.toExpression kind computed method shorthand)
  | spread => .member (.spread r.first.toExpression)
  | rest => .member (.rest r.first.toExpression)
  | foreign value => .member (.foreign value)
  | case => .case ⟨r.first.expression?, r.second.toBlock⟩
  | handler => .handler ⟨r.first.expression?, r.second.toBlock⟩
  | declaration kind => .declaration ⟨r.declarators, kind⟩
  | declarator => .declarator ⟨r.first.toExpression, r.second.expression?⟩

namespace Diagram

/-- Reads the tree that a diagram shows, from the bottom up. The copies are not looked at. -/
def read : Diagram → Fragment
  | nothing => .nothing
  | pair first rest => .pair first.read rest.read
  | passed name => name.read
  | expression root parts => .expression (root.assemble parts.read)
  | statement root parts => .statement (root.assemble parts.read)
  | clause root parts => root.assemble parts.read
  | block _ parts => .block parts.read.statements
  | function _ params body => .function params.read.expressions body.read.toArrowBody

/-- The copies of functions and blocks do not matter to reading. -/
theorem read_plain (d : Diagram) : d.plain.read = d.read := by
  induction d with
  | nothing => rfl
  | pair first rest ihfirst ihrest => rw [plain, read, read, ihfirst, ihrest]
  | passed name ih => exact ih
  | expression root parts ih => rw [plain, read, read, ih]
  | statement root parts ih => rw [plain, read, read, ih]
  | clause root parts ih => rw [plain, read, read, ih]
  | block body parts ih => rw [plain, read, read, ih]
  | function params first rest ihfirst ihrest => rw [plain, read, read, ihfirst, ihrest]

theorem read_ofProperty (computed : Bool) (d : Diagram) :
    (ofProperty computed d).read = d.read := by
  cases computed <;> rfl

end Diagram

theorem Expression.read_diagram (e : Expression) :
    e.diagram.read = .expression e.diagram.read.toExpression := by
  obtain ⟨root, parts, he⟩ := e.exists_diagram
  rw [he]
  rfl

theorem Statement.read_diagram (s : Statement) :
    s.diagram.read = .statement s.diagram.read.toStatement := by
  obtain ⟨root, parts, hs⟩ := s.exists_diagram
  rw [hs]
  rfl

mutual
/-- An expression is read from its diagram. The induction goes over all kinds of nodes at once. -/
theorem Expression.ofRead : ∀ e : Expression, e.diagram.read.toExpression = e
  | .identifier _ => rfl
  | .literal _ => rfl
  | .this => rfl
  | .array es => congrArg Expression.array (elements_ofRead es)
  | .object ms => congrArg Expression.object (members_ofRead ms)
  | .function ⟨name, params, body, generator, async⟩ =>
    congrArg₂ (fun params body => Expression.function ⟨name, params, body, generator, async⟩)
      (expressions_ofRead params) (statements_ofRead body)
  | .arrow params body concise async =>
    congrArg₂ (Expression.arrow · · concise async) (expressions_ofRead params) body.ofRead
  | .unary op leading e => congrArg (Expression.unary op leading) e.ofRead
  | .update op leading e => congrArg (Expression.update op leading) e.ofRead
  | .binary op l r => congrArg₂ (Expression.binary op) l.ofRead r.ofRead
  | .logical op l r => congrArg₂ (Expression.logical op) l.ofRead r.ofRead
  | .assignment op l r => congrArg₂ (Expression.assignment op) l.ofRead r.ofRead
  | .conditional t c a => congr (congrArg₂ Expression.conditional t.ofRead c.ofRead) a.ofRead
  | .call callee es optional =>
    congrArg₂ (Expression.call · · optional) callee.ofRead (expressions_ofRead es)
  | .new callee es => congrArg₂ Expression.new callee.ofRead (expressions_ofRead es)
  | .member o p computed optional => by
    have hp := congrArg Fragment.toExpression (Diagram.read_ofProperty computed p.diagram)
    exact congrArg₂ (Expression.member · · computed optional) o.ofRead (hp.trans p.ofRead)
  | .sequence es => congrArg Expression.sequence (expressions_ofRead es)
  | .template quasis es => congrArg (Expression.template quasis) (expressions_ofRead es)
  | .tagged tag quasi => congrArg₂ Expression.tagged tag.ofRead quasi.ofRead
  | .spread e => congrArg Expression.spread e.ofRead
  | .assignmentPattern l r => congrArg₂ Expression.assignmentPattern l.ofRead r.ofRead
  | .arrayPattern es => congrArg Expression.arrayPattern (elements_ofRead es)
  | .objectPattern ms => congrArg Expression.objectPattern (members_ofRead ms)
  | .rest e => congrArg Expression.rest e.ofRead
  | .foreign _ => rfl
termination_by structural e => e

theorem expressions_ofRead : ∀ es : List Expression, (expressionsDiagram es).read.expressions = es
  | [] => rfl
  | e :: rest => congrArg₂ List.cons e.ofRead (expressions_ofRead rest)
termination_by structural l => l

theorem option_ofRead : ∀ e : Option Expression, (optionDiagram e).read.expression? = e
  | none => rfl
  | some e => by
    rw [optionDiagram, e.read_diagram]
    exact congrArg some e.ofRead
termination_by structural e => e

theorem elements_ofRead : ∀ es : List (Option Expression), (elementsDiagram es).read.elements = es
  | [] => rfl
  | e :: rest => congrArg₂ List.cons (option_ofRead e) (elements_ofRead rest)
termination_by structural l => l

theorem Member.ofRead : ∀ m : Member, m.diagram.read.toMember = m
  | .property key value kind computed method shorthand => by
    have hkey := congrArg Fragment.toExpression (Diagram.read_ofProperty computed key.diagram)
    exact congrArg₂ (Member.property · · kind computed method shorthand) (hkey.trans key.ofRead)
      value.ofRead
  | .spread e => congrArg Member.spread e.ofRead
  | .rest e => congrArg Member.rest e.ofRead
  | .foreign _ => rfl
termination_by structural m => m

theorem members_ofRead : ∀ ms : List Member, (membersDiagram ms).read.members = ms
  | [] => rfl
  | m :: rest => congrArg₂ List.cons m.ofRead (members_ofRead rest)
termination_by structural l => l

theorem ArrowBody.ofRead : ∀ b : ArrowBody, b.diagram.read.toArrowBody = b
  | .block body => congrArg ArrowBody.block (statements_ofRead body)
  | .expression e => by
    rw [ArrowBody.diagram, e.read_diagram]
    exact congrArg ArrowBody.expression e.ofRead
termination_by structural b => b

/-- A statement is read from its diagram. -/
theorem Statement.ofRead : ∀ s : Statement, s.diagram.read.toStatement = s
  | .expression e directive => congrArg (Statement.expression · directive) e.ofRead
  | .block body => congrArg Statement.block (statements_ofRead body)
  | .empty => rfl
  | .debugger => rfl
  | .returns argument => congrArg Statement.returns (option_ofRead argument)
  | .breaks _ => rfl
  | .continues _ => rfl
  | .labeled label body => congrArg (Statement.labeled label) body.ofRead
  | .branch test consequent alternate =>
    congr (congrArg₂ Statement.branch test.ofRead consequent.ofRead) (alternate_ofRead alternate)
  | .switch discriminant cases =>
    congrArg₂ Statement.switch discriminant.ofRead (cases_ofRead cases)
  | .throws argument => congrArg Statement.throws argument.ofRead
  | .attempt block handler finalizer =>
    congr (congrArg₂ Statement.attempt (statements_ofRead block) (handler_ofRead handler))
      (finalizer_ofRead finalizer)
  | .whileLoop test body => congrArg₂ Statement.whileLoop test.ofRead body.ofRead
  | .doWhile body test => congrArg₂ Statement.doWhile body.ofRead test.ofRead
  | .forLoop init test update body =>
    congr (congr (congrArg₂ Statement.forLoop (init_ofRead init) (option_ofRead test))
      (option_ofRead update)) body.ofRead
  | .forIn left right body =>
    congr (congrArg₂ Statement.forIn left.ofRead right.ofRead) body.ofRead
  | .forOf left right body await =>
    congrFun (congr (congrArg₂ Statement.forOf left.ofRead right.ofRead) body.ofRead) await
  | .function ⟨name, params, body, generator, async⟩ =>
    congrArg₂ (fun params body => Statement.function ⟨name, params, body, generator, async⟩)
      (expressions_ofRead params) (statements_ofRead body)
  | .declaration d => congrArg Statement.declaration d.ofRead
  | .foreign _ => rfl
termination_by structural s => s

theorem statements_ofRead :
    ∀ body : List Statement, (statementsDiagram body).read.statements = body
  | [] => rfl
  | s :: rest => congrArg₂ List.cons s.ofRead (statements_ofRead rest)
termination_by structural l => l

theorem alternate_ofRead : ∀ s : Option Statement, (alternateDiagram s).read.statement? = s
  | none => rfl
  | some s => by
    rw [alternateDiagram, s.read_diagram]
    exact congrArg some s.ofRead
termination_by structural s => s

theorem finalizer_ofRead : ∀ b : Option (List Statement), (finalizerDiagram b).read.block? = b
  | none => rfl
  | some body => congrArg some (statements_ofRead body)
termination_by structural b => b

theorem cases_ofRead : ∀ cases : List Case, (casesDiagram cases).read.cases = cases
  | [] => rfl
  | ⟨test, consequent⟩ :: rest =>
    congrArg₂ List.cons
      (congrArg₂ Case.mk (option_ofRead test) (statements_ofRead consequent)) (cases_ofRead rest)
termination_by structural l => l

theorem handler_ofRead : ∀ h : Option Handler, (handlerDiagram h).read.handler? = h
  | none => rfl
  | some ⟨param, body⟩ =>
    congrArg some (congrArg₂ Handler.mk (option_ofRead param) (statements_ofRead body))
termination_by structural h => h

theorem Declaration.ofRead : ∀ d : Declaration, d.diagram.read.toDeclaration = d
  | ⟨declarators, kind⟩ => congrArg (Declaration.mk · kind) (declarators_ofRead declarators)
termination_by structural d => d

theorem declarators_ofRead : ∀ ds : List Declarator, (declaratorsDiagram ds).read.declarators = ds
  | [] => rfl
  | ⟨target, init⟩ :: rest =>
    congrArg₂ List.cons (congrArg₂ Declarator.mk target.ofRead (option_ofRead init))
      (declarators_ofRead rest)
termination_by structural l => l

theorem LoopHead.ofRead : ∀ h : LoopHead, h.diagram.read.toHead = h
  | .declaration ⟨declarators, kind⟩ =>
    congrArg (LoopHead.declaration ⟨·, kind⟩) (declarators_ofRead declarators)
  | .expression e => by
    rw [LoopHead.diagram, e.read_diagram]
    exact congrArg LoopHead.expression e.ofRead
termination_by structural h => h

theorem init_ofRead : ∀ h : Option LoopHead, (initDiagram h).read.head? = h
  | none => rfl
  | some (.declaration ⟨declarators, kind⟩) =>
    congrArg (fun ds => some (LoopHead.declaration ⟨ds, kind⟩)) (declarators_ofRead declarators)
  | some (.expression e) => by
    rw [initDiagram, LoopHead.diagram, e.read_diagram]
    exact congrArg (fun e => some (LoopHead.expression e)) e.ofRead
termination_by structural h => h
end

/-! ## Trees are told by their diagrams -/

/-- Expressions with the same diagram are equal. -/
theorem Expression.eq_of_diagram {e e' : Expression} (h : e.diagram = e'.diagram) : e = e' := by
  rw [← e.ofRead, h, e'.ofRead]

theorem eq_of_expressionsDiagram {es es' : List Expression}
    (h : expressionsDiagram es = expressionsDiagram es') : es = es' := by
  rw [← expressions_ofRead es, h, expressions_ofRead es']

/-- Lists of statements with the same diagram are equal. -/
theorem eq_of_statementsDiagram {body body' : List Statement}
    (h : statementsDiagram body = statementsDiagram body') : body = body' := by
  rw [← statements_ofRead body, h, statements_ofRead body']

/-- The statements of a program can be read from its diagram without the copies. -/
theorem Program.ofRead (p : Program) : p.diagram.plain.read.toBlock = p.body := by
  rw [Diagram.read_plain]
  exact statements_ofRead p.body

end Untangle
