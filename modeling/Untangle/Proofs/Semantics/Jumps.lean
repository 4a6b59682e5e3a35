import Untangle.Pass.LoopExit
import Untangle.Proofs.Semantics.Execution
import Untangle.Proofs.Syntax.Diagram

/-!
# Jumps to the loop around

Statements among which no jump to the loop around them is found do not end in
such a jump, if all of them were understood.
-/
namespace Untangle

/-- Outside of expressions and functions, there is no statement that was not understood. -/
def Diagram.isUnderstood : Diagram → Bool
  | nothing | passed _ | expression _ _ | function _ _ _ => true
  | pair first rest => first.isUnderstood && rest.isUnderstood
  | statement (.foreign _) _ => false
  | statement _ parts | clause _ parts | block _ parts => parts.isUnderstood

variable {σ ν ι : Type}

/-- Not a jump to the loop, where a `break` counts if `breaks` asks for it and no `switch` is in
between. -/
structure Completion.Spares (breaks inSwitch : Bool) (c : Completion ν) : Prop where
  continues_ne : c ≠ .continues none
  breaks_ne : (breaks && !inSwitch) = true → c ≠ .breaks none

namespace Completion.Spares

variable {breaks inSwitch : Bool} {c : Completion ν}

theorem normal : (Completion.normal (ν := ν)).Spares breaks inSwitch := ⟨nofun, nofun⟩

theorem throws (x : ν) : (Completion.throws x).Spares breaks inSwitch := ⟨nofun, nofun⟩

/-- Leaving a statement makes no jump to the loop. -/
theorem broken (label : Option String) (hc : c.Spares breaks inSwitch) :
    (c.broken label).Spares breaks inSwitch := by
  rcases c.broken_eq_or label with h | h
  · rw [h]
    exact .normal
  · rwa [h]

/-- A `switch` catches every `break`. -/
theorem switched (hc : c.Spares breaks true) : (c.broken none).Spares breaks inSwitch :=
  ⟨(hc.broken none).continues_ne, fun _ => c.broken_ne none⟩

end Completion.Spares

namespace Behavior

variable {breaks inSwitch : Bool} {labels : List String} {m k : Behavior σ ν} {α : Type}

theorem Ends.skip : (Behavior.skip : Behavior σ ν).Ends (·.Spares breaks inSwitch) := .ends .normal

/-- Evaluating an expression makes no jump to the loop. -/
theorem Ends.evaluation {e : Effect σ ν α} {k : α → Behavior σ ν}
    (hk : ∀ a, (k a).Ends (·.Spares breaks inSwitch)) :
    (Behavior.after e k).Ends (·.Spares breaks inSwitch) :=
  .after .throws hk

/-- The rounds of a loop keep the `continue` that is meant for it. -/
theorem ending_continued_ends (m : Behavior σ ν) (labels : List String) :
    (m.ending (.continued labels)).Ends (· ≠ .continues none) := by
  intro s r hr
  obtain ⟨c, -, hrc⟩ := mem_ending.1 hr
  rw [hrc]
  exact c.continued_ne labels

/-- A loop catches every jump without a label. -/
theorem Ends.loop (hm : m.Ends (· ≠ .continues none)) :
    (Behavior.repeated m).Ends (·.Spares breaks inSwitch) :=
  (hm.repeated nofun).mono fun _ hc => ⟨hc.1, fun _ => hc.2⟩

end Behavior

namespace Interpretation

open Behavior

variable (M : Interpretation σ ν ι) (breaks inSwitch : Bool)

theorem initial_ends (init : Option LoopHead) :
    (M.initial init).Ends (·.Spares breaks inSwitch) := by
  rcases init with _ | d | e
  · exact .skip
  · exact .evaluation fun _ => .skip
  · exact .evaluation fun _ => .skip

theorem optional_ends {Q : Completion ν → Prop} (hnormal : Q .normal) (hthrows : ∀ x, Q (.throws x))
    (e : Option Expression) : (M.optional e).Ends Q := by
  cases e with
  | none => exact .ends hnormal
  | some e => exact .after hthrows fun _ => .ends hnormal

theorem advance_ends (left : LoopHead) : (M.advance left).Ends (· ≠ .continues none) := by
  rintro ⟨s, i⟩ r hr
  obtain ⟨⟨t, _ | _ | j⟩, -, rfl⟩ := (Part.mem_map_iff _).1 hr <;> exact nofun

/-- Closing what is gone through makes no jump to the loop. -/
theorem visit_ends {m : Behavior σ ν} (hm : m.Ends (· ≠ .continues none)) :
    (M.visit m).Ends (· ≠ .continues none) := by
  rintro ⟨s, i⟩ r hr
  obtain ⟨⟨t, c⟩, hq, hr⟩ := Part.mem_bind_iff.1 hr
  have hc := hm s _ hq
  cases c with
  | normal =>
    rw [Part.mem_some_iff.1 hr]
    exact nofun
  | _ =>
    obtain ⟨⟨u, _ | _⟩, -, rfl⟩ := (Part.mem_map_iff _).1 hr
    · exact nofun
    · exact hc

/-- A loop over keys or items makes no jump to the loop around it. -/
theorem traverse_ends (kind : Traversal) (left : LoopHead) (right : Expression) {m : Behavior σ ν}
    (hm : m.Ends (· ≠ .continues none)) :
    (M.traverse kind left right m).Ends (·.Spares breaks inSwitch) := by
  refine .evaluation fun i s r hr => ?_
  obtain ⟨q, hq, rfl⟩ := (Part.mem_map_iff _).1 hr
  exact Ends.loop ((M.advance_ends left).andThen (M.visit_ends hm)) _ q hq

variable {M breaks inSwitch}

mutual
/-- A statement in which no jump to the loop is found makes none. The induction goes over all
statements inside of it, with the labels in front and with the `switch` that is in between. -/
theorem statement_ends : ∀ (s : Statement) (labels : List String) (inSwitch : Bool),
    s.diagram.isUnderstood = true → jumpsToLoop breaks inSwitch s = false →
      (M.statement labels s).Ends (·.Spares breaks inSwitch)
  | .expression _ _, _, _, _, _ => .evaluation fun _ => .skip
  | .block body, _, inSwitch, hu, hj => by
    simp only [Statement.diagram, Diagram.parts, Diagram.isUnderstood, Bool.and_true] at hu
    exact statements_ends body inSwitch hu hj
  | .empty, _, _, _, _ => .skip
  | .debugger, _, _, _, _ => .skip
  | .function _, _, _, _, _ => .skip
  | .returns none, _, _, _, _ => .ends ⟨nofun, nofun⟩
  | .returns (some _), _, _, _, _ => .evaluation fun _ => .ends ⟨nofun, nofun⟩
  | .breaks none, _, _, _, hj => .ends ⟨nofun, fun h => absurd (h.symm.trans hj) nofun⟩
  | .breaks (some _), _, _, _, _ => .ends ⟨nofun, nofun⟩
  | .continues none, _, _, _, hj => absurd hj nofun
  | .continues (some _), _, _, _, _ => .ends ⟨nofun, nofun⟩
  | .labeled label body, labels, inSwitch, hu, hj => by
    simp only [Statement.diagram, Diagram.parts, Diagram.isUnderstood, Bool.and_true] at hu
    have hbody := statement_ends body (label :: labels) inSwitch hu hj
    exact hbody.ending fun _ hc => hc.broken (some label)
  | .branch _ consequent alternate, _, inSwitch, hu, hj => by
    simp only [Statement.diagram, Diagram.parts, Diagram.isUnderstood, Bool.and_true,
      Bool.and_eq_true] at hu
    obtain ⟨hconsequent, halternate⟩ := Bool.or_eq_false_iff.1 hj
    exact (statement_ends consequent [] inSwitch hu.2.1 hconsequent).either
      (otherwise_ends alternate inSwitch hu.2.2 halternate)
  | .switch _ cases, _, inSwitch, hu, hj => by
    have hcases : (casesDiagram cases).isUnderstood = true := (Bool.and_eq_true_iff.1 hu).2
    exact Ends.ending (.evaluation fun n => casesFrom_ends cases n hcases hj)
      fun _ hc => hc.switched
  | .throws _, _, _, _, _ => .evaluation fun v => .ends (.throws v)
  | .attempt block handler finalizer, _, inSwitch, hu, hj => by
    simp only [Statement.diagram, Diagram.parts, Diagram.isUnderstood, Bool.and_true,
      Bool.and_eq_true] at hu
    obtain ⟨hj, hfinalizer⟩ := Bool.or_eq_false_iff.1 hj
    obtain ⟨hblock, hhandler⟩ := Bool.or_eq_false_iff.1 hj
    exact ((statements_ends block inSwitch hu.1 hblock).rescued
      (recover_ends handler inSwitch hu.2.1 hhandler)).lastly
        (cleanUp_ends finalizer inSwitch hu.2.2 hfinalizer)
  | .whileLoop _ _, labels, _, _, _ =>
    .loop (.either (ending_continued_ends _ labels) (.ends nofun))
  | .doWhile _ _, labels, _, _, _ =>
    .loop ((ending_continued_ends _ labels).andThen (.either (.ends nofun) (.ends nofun)))
  | .forLoop init _ update body, labels, inSwitch, _, _ => by
    have hround := (ending_continued_ends (M.statement [] body) labels).andThen
      (M.optional_ends nofun (fun _ => nofun) update)
    exact (M.initial_ends breaks inSwitch init).andThen (.loop (hround.either (.ends nofun)))
  | .forIn left right _, labels, inSwitch, _, _ =>
    M.traverse_ends breaks inSwitch .keys left right (ending_continued_ends _ labels)
  | .forOf left right _ await, labels, inSwitch, _, _ =>
    M.traverse_ends breaks inSwitch _ left right (ending_continued_ends _ labels)
  | .declaration _, _, _, _, _ => .evaluation fun _ => .skip
  | .foreign _, _, _, hu, _ => absurd hu nofun
termination_by structural s => s

/-- Statements in order make no jump to the loop if none of them does. -/
theorem statements_ends : ∀ (body : List Statement) (inSwitch : Bool),
    (statementsDiagram body).isUnderstood = true → anyJumps breaks inSwitch body = false →
      (M.statements body).Ends (·.Spares breaks inSwitch)
  | [], _, _, _ => .skip
  | s :: rest, inSwitch, hu, hj => by
    obtain ⟨hfirst, hrest⟩ := Bool.and_eq_true_iff.1 hu
    obtain ⟨hjfirst, hjrest⟩ := Bool.or_eq_false_iff.1 hj
    exact (statement_ends s [] inSwitch hfirst hjfirst).andThen
      (statements_ends rest inSwitch hrest hjrest)
termination_by structural l => l

theorem otherwise_ends : ∀ (s : Option Statement) (inSwitch : Bool),
    (alternateDiagram s).isUnderstood = true → optionJumps breaks inSwitch s = false →
      (M.otherwise s).Ends (·.Spares breaks inSwitch)
  | none, _, _, _ => .skip
  | some s, inSwitch, hu, hj => statement_ends s [] inSwitch hu hj
termination_by structural s => s

/-- Cases that fall through make no jump to the loop; a `break` leaves the `switch`. -/
theorem casesFrom_ends : ∀ (cases : List Case) (n : Nat),
    (casesDiagram cases).isUnderstood = true → casesJump breaks cases = false →
      (M.casesFrom n cases).Ends (·.Spares breaks true)
  | [], 0, _, _ => .skip
  | [], _ + 1, _, _ => .skip
  | ⟨_, consequent⟩ :: rest, 0, hu, hj => by
    simp only [casesDiagram, Diagram.parts, Diagram.isUnderstood, Bool.and_true,
      Bool.and_eq_true] at hu
    obtain ⟨hjfirst, hjrest⟩ := Bool.or_eq_false_iff.1 hj
    exact (statements_ends consequent true hu.1.2 hjfirst).andThen
      (casesFrom_ends rest 0 hu.2 hjrest)
  | ⟨_, _⟩ :: rest, n + 1, hu, hj =>
    casesFrom_ends rest n (Bool.and_eq_true_iff.1 hu).2 (Bool.or_eq_false_iff.1 hj).2
termination_by structural l => l

theorem recover_ends : ∀ (h : Option Handler) (inSwitch : Bool),
    (handlerDiagram h).isUnderstood = true → handlerJumps breaks inSwitch h = false →
      ∀ x, (M.recover h x).Ends (·.Spares breaks inSwitch)
  | none, _, _, _, x => .ends (.throws x)
  | some ⟨_, body⟩, inSwitch, hu, hj, _ => by
    simp only [handlerDiagram, Diagram.parts, Diagram.isUnderstood, Bool.and_true,
      Bool.and_eq_true] at hu
    exact .evaluation fun _ => statements_ends body inSwitch hu.2 hj
termination_by structural h => h

theorem cleanUp_ends : ∀ (b : Option (List Statement)) (inSwitch : Bool),
    (finalizerDiagram b).isUnderstood = true → blockJumps breaks inSwitch b = false →
      (M.cleanUp b).Ends (·.Spares breaks inSwitch)
  | none, _, _, _ => .skip
  | some body, inSwitch, hu, hj => statements_ends body inSwitch hu hj
termination_by structural b => b
end

end Interpretation
end Untangle
