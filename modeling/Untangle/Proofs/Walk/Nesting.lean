import Untangle.Proofs.Walk.Calls

/-!
# The nesting of calls

The calls for functions are brackets in the sequence of all calls. They are
balanced, and at each call just the functions are open that stand around its
place in the tree. What a state has to do with the functions around a place can
then be checked call by call.
-/
namespace Untangle

variable {σ : Type}

namespace Call

/-- The functions that are open after a call. -/
def opened (around : List Entered) : Call → List Entered
  | .enterFunction f => f :: around
  | .leaveFunction => around.tail
  | _ => around

/-- With `depth` functions open, every function is left that is entered, and no other. -/
def balanced : Nat → List Call → Bool
  | depth, [] => depth == 0
  | depth, .enterFunction _ :: rest => balanced (depth + 1) rest
  | 0, .leaveFunction :: _ => false
  | depth + 1, .leaveFunction :: rest => balanced depth rest
  | depth, .enterStatements _ :: rest => balanced depth rest
  | depth, .leaveStatements _ :: rest => balanced depth rest
  | depth, .leaveExpression _ _ :: rest => balanced depth rest

/-- The calls for functions are the brackets. -/
def isBracket : Call → Bool
  | .enterFunction _ | .leaveFunction => true
  | _ => false

/-- Only the calls for functions open or close something. -/
theorem opened_of_not_isBracket {c : Call} (hc : c.isBracket = false) (around : List Entered) :
    c.opened around = around := by
  cases c with
  | enterFunction | leaveFunction => cases hc
  | _ => rfl

theorem balanced_cons_of_not_isBracket {c : Call} (hc : c.isBracket = false) (depth : Nat)
    (rest : List Call) : balanced depth (c :: rest) = balanced depth rest := by
  cases c with
  | enterFunction | leaveFunction => cases hc
  | _ => cases depth <;> rfl

end Call

/-- Places each step inside of the functions that are entered before it and not left yet. -/
def Step.place (around : List Entered) : List (Step σ) → List (Placed σ)
  | [] => []
  | step :: rest => ⟨step, around⟩ :: place (step.call.opened around) rest

namespace Placed

/-- The steps close what they open, and each is placed where it is made. What comes after them is
arbitrary, so that steps can be put together. -/
structure Nested (around : List Entered) (cs : List (Placed σ)) : Prop where
  place : ∀ rest, Step.place around (cs.map (·.toStep) ++ rest) = cs ++ Step.place around rest
  balanced : ∀ depth rest,
    Call.balanced depth (cs.map (·.call) ++ rest) = Call.balanced depth rest
  leaves : ∀ c ∈ cs, c.call = .leaveFunction → c.around ≠ []

namespace Nested

variable {around : List Entered} {cs cs' : List (Placed σ)}

theorem nil (around : List Entered) : Nested around ([] : List (Placed σ)) :=
  ⟨fun _ => rfl, fun _ _ => rfl, fun _ hc => absurd hc List.not_mem_nil⟩

theorem append (h : Nested around cs) (h' : Nested around cs') : Nested around (cs ++ cs') := by
  constructor
  · intro rest
    rw [List.map_append, List.append_assoc, h.place, h'.place, List.append_assoc]
  · intro depth rest
    rw [List.map_append, List.append_assoc, h.balanced, h'.balanced]
  · exact List.forall_mem_append.2 ⟨h.leaves, h'.leaves⟩

theorem single {step : Step σ} (hc : step.call.isBracket = false) :
    Nested around [⟨step, around⟩] := by
  constructor
  · intro rest
    show ⟨step, around⟩ :: Step.place (step.call.opened around) rest = _
    rw [Call.opened_of_not_isBracket hc]
    rfl
  · intro depth rest
    exact Call.balanced_cons_of_not_isBracket hc depth rest
  · refine List.forall_mem_singleton.2 fun hleave => ?_
    rw [hleave] at hc
    cases hc

/-- Steps inside of a function are nested between the two calls for it. -/
theorem function {f : Entered} {s t u w : σ} (h : Nested (f :: around) cs) :
    Nested around
      (⟨⟨.enterFunction f, s, t⟩, around⟩ :: cs ++ [⟨⟨.leaveFunction, u, w⟩, f :: around⟩]) := by
  constructor
  · intro rest
    have hinside := h.place (⟨.leaveFunction, u, w⟩ :: rest)
    simp only [List.cons_append, List.map_cons, List.map_append, List.append_assoc, Step.place,
      List.cons.injEq, true_and]
    exact hinside
  · intro depth rest
    have hinside := h.balanced (depth + 1) (.leaveFunction :: rest)
    simp only [List.cons_append, List.map_cons, List.map_append, List.append_assoc, Call.balanced]
    exact hinside
  · refine List.forall_mem_cons.2 ⟨nofun, List.forall_mem_append.2 ⟨h.leaves, ?_⟩⟩
    exact List.forall_mem_singleton.2 fun _ => List.cons_ne_nil f around

end Nested
end Placed

namespace Hooks

variable {h : Hooks σ} {around : List Entered} {d d' : Diagram} {s t : σ} {cs : List (Placed σ)}

/-- One case for each rule: only the rule for a function has brackets of its own. -/
theorem Walks.nested (hw : h.Walks around d d' s t cs) : Placed.Nested around cs := by
  induction hw with
  | nothing around s => exact .nil around
  | passed around name s => exact .nil around
  | pair _ _ ihfirst ihrest => exact ihfirst.append ihrest
  | statement _ _ ih => exact ih
  | clause _ _ ih => exact ih
  | expression _ _ _ ih => exact ih.append (.single rfl)
  | skipped _ => exact .single rfl
  | walked _ _ _ ih => exact (Placed.Nested.single rfl).append (ih.append (.single rfl))
  | function _ _ _ _ _ ihfirst ihrest => exact (ihfirst.append ihrest).function

/-- The places of the steps can be told from the steps alone. -/
theorem Walks.place_eq (hw : h.Walks around d d' s t cs) :
    Step.place around (cs.map (·.toStep)) = cs := by
  have hplace := hw.nested.place []
  rwa [List.append_nil, Step.place, List.append_nil] at hplace

/-- The calls of a walk are balanced. -/
theorem Walks.balanced_eq (hw : h.Walks around d d' s t cs) :
    Call.balanced 0 (cs.map (·.call)) = true := by
  have hbalanced := hw.nested.balanced 0 []
  rwa [List.append_nil] at hbalanced

/-- What holds of a state inside of some functions still holds after each call, inside of the
functions that are open then. -/
structure Maintains (h : Hooks σ) (I : List Entered → σ → Prop) : Prop where
  enterStatements : ∀ {around s} body, I around s → I around ((h.enterStatements body).run s).2
  leaveStatements : ∀ {around s} body, I around s → I around ((h.leaveStatements body).run s).2
  leaveExpression : ∀ {around s} e, I around s → I around ((h.leaveExpression e).run s).2
  enterFunction : ∀ {around s} f, I around s → I (f :: around) ((h.enterFunction f).run s).2
  leaveFunction : ∀ {around s} f, I (f :: around) s → I around (h.leaveFunction.run s).2

/-- It holds at every call of a walk, and at its end, if it holds at the start. -/
theorem Maintains.walks {I : List Entered → σ → Prop} (hI : h.Maintains I)
    (hw : h.Walks around d d' s t cs) (hs : I around s) :
    I around t ∧ ∀ c ∈ cs, I c.around c.before ∧ I (c.call.opened c.around) c.after := by
  induction hw with
  | nothing | passed => exact ⟨hs, fun _ hc => absurd hc List.not_mem_nil⟩
  | statement _ _ ih => exact ih hs
  | clause _ _ ih => exact ih hs
  | pair _ _ ihfirst ihrest =>
    obtain ⟨ht, hcs⟩ := ihfirst hs
    obtain ⟨hu, hcs'⟩ := ihrest ht
    exact ⟨hu, List.forall_mem_append.2 ⟨hcs, hcs'⟩⟩
  | @expression _ _ _ _ e _ _ _ _ _ _ _ leave ih =>
    obtain ⟨ht, hcs⟩ := ih hs
    have hu := hI.leaveExpression e ht
    rw [leave] at hu
    exact ⟨hu, List.forall_mem_append.2 ⟨hcs, List.forall_mem_singleton.2 ⟨ht, hu⟩⟩⟩
  | @skipped _ body _ _ _ enter =>
    have ht := hI.enterStatements body hs
    rw [enter] at ht
    exact ⟨ht, List.forall_mem_singleton.2 ⟨hs, ht⟩⟩
  | @walked _ body _ walked _ _ _ _ _ _ enter _ leave ih =>
    have ht := hI.enterStatements body hs
    rw [enter] at ht
    obtain ⟨hu, hcs⟩ := ih ht
    have hw := hI.leaveStatements walked hu
    rw [leave] at hw
    exact ⟨hw, List.forall_mem_cons.2 ⟨⟨hs, ht⟩,
      List.forall_mem_append.2 ⟨hcs, List.forall_mem_singleton.2 ⟨hu, hw⟩⟩⟩⟩
  | @function _ params _ b _ _ _ _ _ _ _ _ _ _ enter _ _ leave ihfirst ihrest =>
    have ht := hI.enterFunction ⟨params, b.statements?⟩ hs
    rw [enter] at ht
    obtain ⟨hu, hcs⟩ := ihfirst ht
    obtain ⟨hw, hcs'⟩ := ihrest hu
    have hx := hI.leaveFunction _ hw
    rw [leave] at hx
    have hinside := List.forall_mem_append.2 ⟨hcs, hcs'⟩
    exact ⟨hx, List.forall_mem_cons.2 ⟨⟨hs, ht⟩,
      List.forall_mem_append.2 ⟨hinside, List.forall_mem_singleton.2 ⟨hw, hx⟩⟩⟩⟩

/-- Where an expression is left, this is what the call does. -/
theorem Walks.run_leaveExpression (hw : h.Walks around d d' s t cs) {c : Placed σ} (hc : c ∈ cs)
    {e e' : Expression} (hcall : c.call = .leaveExpression e e') :
    (h.leaveExpression e).run c.before = (e', c.after) := by
  induction hw with
  | nothing | passed => cases hc
  | statement _ _ ih => exact ih hc
  | clause _ _ ih => exact ih hc
  | pair _ _ ihfirst ihrest => exact (List.mem_append.1 hc).elim ihfirst ihrest
  | expression _ _ leave ih =>
    rcases List.mem_append.1 hc with hc | hc
    · exact ih hc
    · obtain rfl := List.mem_singleton.1 hc
      cases hcall
      exact leave
  | skipped _ =>
    obtain rfl := List.mem_singleton.1 hc
    cases hcall
  | walked _ _ _ ih =>
    rcases List.mem_cons.1 hc with rfl | hc
    · cases hcall
    · rcases List.mem_append.1 hc with hc | hc
      · exact ih hc
      · obtain rfl := List.mem_singleton.1 hc
        cases hcall
  | function _ _ _ _ _ ihfirst ihrest =>
    rcases List.mem_cons.1 hc with rfl | hc
    · cases hcall
    · rcases List.mem_append.1 hc with hc | hc
      · exact (List.mem_append.1 hc).elim ihfirst ihrest
      · obtain rfl := List.mem_singleton.1 hc
        cases hcall

end Hooks

namespace Visitor

/-- The steps of a walk over a program, in their places. -/
def placed (v : Visitor σ) (p : Program) (s : σ) : List (Placed σ) := Step.place [] (v.steps p s)

/-- The steps of a walk, in their places, go by the rules. -/
theorem walks_placed (v : Visitor σ) (p : Program) (s : σ) :
    v.hooks.Walks [] p.diagram ((v.program p).run s).1.diagram s ((v.program p).run s).2
      (v.placed p s) := by
  obtain ⟨cs, hwalks, hsteps⟩ := v.exists_walks p s
  rwa [placed, ← hsteps, hwalks.place_eq]

theorem snd_enterStatements (v : Visitor σ) (body : List Statement) (s : σ) :
    ((v.hooks.enterStatements body).run s).2 = ((v.enterStatements body).run s).2 := by
  rcases hrun : (v.enterStatements body).run s with ⟨_ | body', t⟩
  · rw [run_enterStatements_descend hrun]
  · rw [run_enterStatements_settle hrun]

end Visitor
end Untangle
