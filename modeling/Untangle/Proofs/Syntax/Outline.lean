import Untangle.Proofs.Syntax.Diagram

/-!
# Outlines of trees

An outline says how the statements, the functions and the expressions of a tree
nest and which of the expressions are calls or accesses in brackets, and
nothing else: trees with different outlines differ in more than a name, a
number or a text.
-/
namespace Untangle

/-- Calls and accesses in brackets, which a string or a name can take the place of. -/
def ExpressionRoot.isLookup : ExpressionRoot → Bool
  | .call _ | .member true _ => true
  | _ => false

/-- A diagram in which one root stands for all statements, one for all lookups and one for all other
expressions. -/
def Diagram.outline : Diagram → Diagram
  | nothing | passed _ => nothing
  | pair first rest => pair first.outline rest.outline
  | expression root parts => expression (if root.isLookup then .call false else .this) parts.outline
  | statement _ parts => statement .empty parts.outline
  | clause _ parts | block _ parts => parts.outline
  | function _ params body => function [] params.outline body.outline

def Program.outline (p : Program) : Diagram := p.diagram.outline

end Untangle
