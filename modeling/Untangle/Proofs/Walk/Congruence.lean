import Untangle.Pass.Basic
import Untangle.Proofs.Walk.Relation

/-!
# Relations that go up the tree

Many relations between what a tree was and what it has become hold of a node as
soon as they hold of its parts, and hold of two changes together if they hold of
each. Of a pass that only keeps track of its scope all there is to ask is then
what it does when it leaves a list of statements and when it leaves an
expression.
-/
namespace Untangle

variable {R : Diagram → Diagram → Progress → Progress → Prop}

/-- A relation that goes from the parts of a node to the node, and from one change to the next. The
scope does not matter to it. -/
structure Diagram.Congruence (R : Diagram → Diagram → Progress → Progress → Prop) : Prop where
  refl : ∀ d s, R d d s s
  trans : ∀ {d d' d'' s t u}, R d d' s t → R d' d'' t u → R d d'' s u
  pair : ∀ {a a' b b' s t u}, R a a' s t → R b b' t u → R (.pair a b) (.pair a' b') s u
  expression : ∀ {root a a' s t}, R a a' s t → R (.expression root a) (.expression root a') s t
  statement : ∀ {root a a' s t}, R a a' s t → R (.statement root a) (.statement root a') s t
  clause : ∀ {root a a' s t}, R a a' s t → R (.clause root a) (.clause root a') s t
  block : ∀ {body body' s t}, R (statementsDiagram body) (statementsDiagram body') s t →
    R (blockDiagram body) (blockDiagram body') s t
  function : ∀ {params params' b b' s t u},
    R (expressionsDiagram params) (expressionsDiagram params') s t → R b b' t u →
    R (.function params (expressionsDiagram params) b)
      (.function params' (expressionsDiagram params') b') s u
  scope : ∀ {d d' s t}, R d d' s.enterScope t → R d d' s t.leaveScope

namespace Diagram.Congruence

theorem parts (h : Congruence R) {d d' : Diagram} {s t : Progress} (hparts : InTurn R d d' s t) :
    R d d' s t := by
  induction hparts with
  | nothing s => exact h.refl _ s
  | pair first _ ih => exact h.pair first ih

/-- What is asked of a pass that only keeps track of its scope and settles no list. -/
theorem upholds (h : Congruence R) {v : Visitor Progress}
    (hf : v.enterFunction = scopeVisitor.enterFunction)
    (hl : v.leaveFunction = scopeVisitor.leaveFunction)
    (henter : ∀ body, v.enterStatements body = pure .descend)
    (hleave : ∀ body s, R (statementsDiagram body)
      (statementsDiagram ((v.leaveStatements body).run s).1) s ((v.leaveStatements body).run s).2)
    (hexpression : ∀ e s, R e.diagram ((v.leaveExpression e).run s).1.diagram s
      ((v.leaveExpression e).run s).2) : v.Upholds R where
  nothing s := h.refl _ s
  passed name s := h.refl _ s
  clause hparts := h.clause (h.parts hparts)
  statement hparts := h.statement (h.parts hparts)
  expression := by
    intro e root a a' s t he hparts
    have hnode : R (.expression root a) (.expression root a') s t := h.expression (h.parts hparts)
    rw [← he] at hnode
    exact h.trans hnode (hexpression e t)
  settle henters := by
    rw [henter] at henters
    cases henters
  descend := by
    intro body body' s t u henters hparts
    rw [henter] at henters
    cases henters
    exact h.block (h.trans (h.parts hparts) (hleave body' u))
  function := by
    intro params params' body body' cut s t u w henters hparams hbody
    rw [hf] at henters
    cases henters
    rw [hl]
    exact h.scope (h.function (h.parts hparams) hbody)
  concise := by
    intro params params' e e' cut s t u w henters hparams hbody
    rw [hf] at henters
    cases henters
    rw [hl]
    exact h.scope (h.function (h.parts hparams) hbody)

end Diagram.Congruence

end Untangle
