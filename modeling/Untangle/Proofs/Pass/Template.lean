import Mathlib.Data.List.Forall2
import Mathlib.Data.List.Nodup
import Untangle.Proofs.Pass.Replacement
import Untangle.Proofs.Syntax.Binding

/-!
# Templates

A template is instantiated by putting arguments in the place of parameters, but
only where a parameter is itself an operand of the call or of the operation that
the template returns. This is a substitution of all free occurrences just when
there are none inside of the other operands.
-/
namespace Untangle

def Expression.operands? : Expression → Option (List Expression)
  | .call callee arguments _ => some (callee :: arguments)
  | .binary _ left right => some [left, right]
  | _ => none

theorem Expression.diagram_of_operands? {e : Expression} {os : List Expression}
    (h : e.operands? = some os) :
    ∃ root, e.diagram = .expression root (expressionsDiagram os) ∧
      (∀ θ hidden, e.diagram.subst θ hidden =
        .expression root ((expressionsDiagram os).subst θ hidden)) ∧
      ∀ hidden, e.diagram.free hidden = (expressionsDiagram os).free hidden := by
  unfold operands? at h
  split at h
  · cases h
    exact ⟨_, rfl, fun _ _ => rfl, fun _ => rfl⟩
  · cases h
    exact ⟨_, rfl, fun _ _ => rfl, fun _ => rfl⟩
  · cases h

theorem mem_free_expressionsDiagram {es : List Expression} {hidden : List String} {name : String} :
    name ∈ (expressionsDiagram es).free hidden ↔ ∃ e ∈ es, name ∈ e.diagram.free hidden := by
  induction es with
  | nil => simp [expressionsDiagram, Diagram.free]
  | cons e rest ih => rw [expressionsDiagram, Diagram.free, List.mem_append, ih]; simp

theorem plain_expressionsDiagram_map {es : List Expression} {g : Expression → Expression}
    {θ : String → Option Diagram} {hidden : List String} :
    (expressionsDiagram (es.map g)).plain = (expressionsDiagram es).subst θ hidden ↔
      ∀ e ∈ es, (g e).diagram.plain = e.diagram.subst θ hidden := by
  induction es with
  | nil => simp [expressionsDiagram, Diagram.subst, Diagram.plain]
  | cons e rest ih =>
    rw [List.map_cons, expressionsDiagram, expressionsDiagram, Diagram.plain, Diagram.subst,
      Diagram.pair.injEq, ih, List.forall_mem_cons]

namespace Template

variable (t : Template) (args : List Expression)

/-- The argument in the place of a parameter, or `undefined`. -/
def argument? (name : String) : Option Expression :=
  (t.params.idxOf? name).map fun i => args[i]?.getD (.identifier "undefined")

def substitution (name : String) : Option Diagram := (t.argument? args name).map (·.diagram.plain)

/-- What becomes of an operand: a parameter is replaced, and all else is kept. -/
inductive Binds : Expression → Expression → Prop
  | parameter {i : Nat} {name : String} (hi : t.params[i]? = some name) :
    Binds (.identifier name) (args[i]?.getD (.identifier "undefined"))
  | other {operand : Expression} (h : ∀ name ∈ t.params, operand ≠ .identifier name) :
    Binds operand operand

/-- A parameter is bound to its argument, and any other name to itself. -/
theorem bind_identifier (name : String) :
    t.bind args (.identifier name) = (t.argument? args name).getD (.identifier name) := by
  rw [argument?, bind, Expression.identifier?, Option.bind_some]
  cases t.params.idxOf? name <;> rfl

theorem bind_of_identifier?_eq_none {operand : Expression} (h : operand.identifier? = none) :
    t.bind args operand = operand := by
  rw [bind, h]
  rfl

/-- Each operand is bound as a parameter or kept. -/
theorem binds_bind (operand : Expression) : t.Binds args operand (t.bind args operand) := by
  cases hname : operand.identifier? with
  | none =>
    rw [bind_of_identifier?_eq_none t args hname]
    refine .other ?_
    rintro name - rfl
    cases hname
  | some name =>
    obtain rfl := Expression.eq_of_identifier? hname
    rw [bind_identifier, argument?]
    cases hi : t.params.idxOf? name with
    | none =>
      refine .other ?_
      rintro name' hmem heq
      cases heq
      exact List.idxOf?_eq_none_iff.1 hi hmem
    | some i =>
      obtain ⟨hlt, hget, -⟩ := List.idxOf?_eq_some_iff.1 hi
      exact .parameter (List.getElem?_eq_some_iff.2 ⟨hlt, hget⟩)

/-- An operand that is a name is replaced as by the substitution. -/
theorem plain_bind_identifier (name : String) :
    (t.bind args (.identifier name)).diagram.plain =
      (Expression.identifier name).diagram.subst (t.substitution args) [] := by
  rw [bind_identifier, Expression.diagram, Diagram.subst, if_neg List.not_mem_nil, substitution]
  cases t.argument? args name <;> rfl

/-- Where no parameter is named twice, each stands for the argument at its own position. -/
theorem argument?_of_nodup (hdistinct : t.params.Nodup) {i : Nat} {name : String}
    (hi : t.params[i]? = some name) :
    t.argument? args name = some (args[i]?.getD (.identifier "undefined")) := by
  obtain ⟨hlt, hget⟩ := List.getElem?_eq_some_iff.1 hi
  have hindex : t.params.idxOf? name = some i := by
    refine List.idxOf?_eq_some_iff.2 ⟨hlt, hget, ?_⟩
    intro j hj heq
    have hsame := (List.Nodup.getElem_inj_iff hdistinct).1 (heq.trans hget.symm)
    omega
  rw [argument?, hindex, Option.map_some]

theorem argument?_eq_none {name : String} (h : name ∉ t.params) : t.argument? args name = none := by
  rw [argument?, List.idxOf?_eq_none_iff.2 h, Option.map_none]

/-- The result has the operands of the body, bound one by one. -/
theorem operands_of_instantiate? {e : Expression} (h : t.instantiate? args = some e) :
    ∃ os, t.body.operands? = some os ∧ e.operands? = some (os.map (t.bind args)) ∧
      e.diagram.root? = t.body.diagram.root? := by
  unfold instantiate? at h
  split at h
  · next hbody =>
    cases h
    rw [hbody]
    exact ⟨_, rfl, rfl, rfl⟩
  · next hbody =>
    cases h
    rw [hbody]
    exact ⟨_, rfl, rfl, rfl⟩
  · cases h

variable {t args}

/-- The result is the body with all free occurrences replaced just when the replacement changes
nothing in the operands that are no names. -/
theorem plain_eq_subst_iff {e : Expression} {os : List Expression}
    (hos : t.body.operands? = some os)
    (hos' : e.operands? = some (os.map (t.bind args)))
    (hroot : e.diagram.root? = t.body.diagram.root?) :
    e.diagram.plain = t.body.diagram.subst (t.substitution args) [] ↔
      ∀ o ∈ os, o.identifier? = none →
        o.diagram.subst (t.substitution args) [] = o.diagram.plain := by
  obtain ⟨root, hbody, hsubst, -⟩ := Expression.diagram_of_operands? hos
  obtain ⟨root', he, -, -⟩ := Expression.diagram_of_operands? hos'
  rw [hbody, he] at hroot
  obtain rfl : root' = root := Option.some.inj hroot
  rw [hsubst, he, Diagram.plain, Diagram.expression.injEq, plain_expressionsDiagram_map]
  refine ⟨?_, ?_⟩
  · rintro ⟨-, h⟩ o ho hname
    rw [← h o ho, bind_of_identifier?_eq_none t args hname]
  · intro h
    refine ⟨rfl, fun o ho => ?_⟩
    cases hname : o.identifier? with
    | none => rw [bind_of_identifier?_eq_none t args hname, h o ho hname]
    | some name =>
      obtain rfl := Expression.eq_of_identifier? hname
      exact plain_bind_identifier t args name

/-- A name that is free in the result is free in an operand that was kept, or in what a parameter
stands for. -/
theorem exists_of_mem_free {e : Expression} {os : List Expression} {name : String}
    (hos' : e.operands? = some (os.map (t.bind args))) (hname : name ∈ e.diagram.free []) :
    (∃ o ∈ os, (∀ p ∈ t.params, o ≠ .identifier p) ∧ name ∈ o.diagram.free []) ∨
      ∃ (i : Nat) (p : String), t.params[i]? = some p ∧ Expression.identifier p ∈ os ∧
        name ∈ (args[i]?.getD (.identifier "undefined")).diagram.free [] := by
  obtain ⟨-, -, -, hfree⟩ := Expression.diagram_of_operands? hos'
  rw [hfree] at hname
  obtain ⟨e', he', hname⟩ := mem_free_expressionsDiagram.1 hname
  obtain ⟨o, ho, rfl⟩ := List.mem_map.1 he'
  have hbinds := t.binds_bind args o
  generalize t.bind args o = o' at hbinds hname
  cases hbinds with
  | @parameter i p hi => exact .inr ⟨i, p, hi, ho, hname⟩
  | other h => exact .inl ⟨o, ho, h, hname⟩

end Template

/-- A template that can be instantiated becomes its body with the arguments in the place of those
operands that are parameters, and with all other operands as they are. These are all free
occurrences of the parameters, at any depth, just when the replacement of these would change no
other operand; so where no parameter is free in an operand that is not a name. Then no parameter is
left but in what has been put in. -/
theorem instantiate_substitutes_operands (t : Template) (args : List Expression) (e : Expression)
    (hdistinct : t.params.Nodup) (h : t.instantiate? args = some e) :
    (∀ (i : Nat) (name : String), t.params[i]? = some name →
      t.argument? args name = some (args[i]?.getD (.identifier "undefined"))) ∧
    ∃ os os', t.body.operands? = some os ∧ e.operands? = some os' ∧
      e.diagram.root? = t.body.diagram.root? ∧ List.Forall₂ (t.Binds args) os os' ∧
      (e.diagram.plain = t.body.diagram.subst (t.substitution args) [] ↔
        ∀ o ∈ os, o.identifier? = none →
          o.diagram.subst (t.substitution args) [] = o.diagram.plain) ∧
      ((∀ o ∈ os, o.identifier? = none → ∀ p ∈ t.params, p ∉ o.diagram.free []) →
        e.diagram.plain = t.body.diagram.subst (t.substitution args) [] ∧
        ∀ p ∈ t.params, p ∈ e.diagram.free [] →
          ∃ (i : Nat) (p' : String), t.params[i]? = some p' ∧ Expression.identifier p' ∈ os ∧
            p ∈ (args[i]?.getD (.identifier "undefined")).diagram.free []) := by
  obtain ⟨os, hos, hos', hroot⟩ := t.operands_of_instantiate? args h
  have hiff := Template.plain_eq_subst_iff hos hos' hroot
  refine ⟨fun i name => t.argument?_of_nodup args hdistinct, os, _, hos, hos', hroot, ?_, hiff, ?_⟩
  · exact List.forall₂_map_right_iff.2 (List.forall₂_same.2 fun o _ => t.binds_bind args o)
  · intro hkept
    refine ⟨hiff.2 fun o ho hname => Diagram.subst_eq_plain fun x hx => ?_, ?_⟩
    · have hx' : x ∉ t.params := fun hp => hkept o ho hname x hp hx
      rw [Template.substitution, t.argument?_eq_none args hx', Option.map_none]
    · intro p hp hfree
      refine (Template.exists_of_mem_free hos' hfree).resolve_left ?_
      rintro ⟨o, ho, hother, hmem⟩
      cases hname : o.identifier? with
      | none => exact hkept o ho hname p hp hmem
      | some name =>
        obtain rfl := Expression.eq_of_identifier? hname
        obtain rfl : p = name := List.mem_singleton.1 hmem
        exact hother p hp rfl

/-- `(x, y) => x(function (x) { return x; }, y, z)`: the inner function has an `x` of its own. -/
def Template.shadowing : Template where
  params := ["x", "y"]
  body := .call (.identifier "x")
    [.function ⟨none, [.identifier "x"], [.returns (some (.identifier "x"))], false, false⟩,
      .identifier "y", .identifier "z"] false

/-- The argument for `y` is missing, and the inner `x` is not the parameter. -/
theorem instantiate_substitutes_shadowing :
    Template.shadowing.params.Nodup ∧
    ∃ e, Template.shadowing.instantiate? [.identifier "f"] = some e ∧
      e = .call (.identifier "f")
        [.function ⟨none, [.identifier "x"], [.returns (some (.identifier "x"))], false, false⟩,
          .identifier "undefined", .identifier "z"] false ∧
      e.diagram.plain = Template.shadowing.body.diagram.subst
        (Template.shadowing.substitution [.identifier "f"]) [] := by
  have hdistinct : Template.shadowing.params.Nodup := by decide
  obtain ⟨-, os, os', hos, -, -, -, -, hfull⟩ :=
    instantiate_substitutes_operands Template.shadowing [.identifier "f"] _ hdistinct rfl
  obtain rfl := Option.some.inj hos
  refine ⟨hdistinct, _, rfl, rfl, (hfull ?_).1⟩
  have hfunction : ∀ p ∈ Template.shadowing.params, p ∉ (Expression.function ⟨none,
      [.identifier "x"], [.returns (some (.identifier "x"))], false, false⟩).diagram.free [] := by
    decide
  refine List.forall_mem_cons.2 ⟨nofun, List.forall_mem_cons.2 ⟨fun _ => hfunction, ?_⟩⟩
  exact List.forall_mem_cons.2 ⟨nofun, List.forall_mem_singleton.2 nofun⟩

/-- `(x) => f(g(x))`: the parameter stands inside of an operand. -/
def Template.nested : Template where
  params := ["x"]
  body := .call (.identifier "f") [.call (.identifier "g") [.identifier "x"] false] false

/-- The parameter is still there, though the argument is something else. -/
theorem instantiate_keeps_nested_parameter :
    ∃ e, Template.nested.instantiate? [.identifier "y"] = some e ∧
      e.diagram.plain ≠
        Template.nested.body.diagram.subst (Template.nested.substitution [.identifier "y"]) [] ∧
      "x" ∈ e.diagram.free [] ∧ "x" ∉ (Expression.identifier "y").diagram.free [] := by
  refine ⟨_, rfl, ?_, ?_, ?_⟩
  · intro h
    have hfree := congrArg (Diagram.free []) h
    revert hfree
    decide
  · decide
  · decide

end Untangle
