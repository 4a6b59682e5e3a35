import Untangle.Pass.LoopExit
import Untangle.Proofs.Pass.Flattening
import Untangle.Proofs.Walk.Relation

/-!
# Jumps and their targets

A `break` needs a loop or a `switch` around it, a `continue` a loop, and a jump
to a label a statement with that label, all within the same function. Cases of
a dispatcher lose a loop and a `switch` when they are merged. What they jump to
must then be found further outside: exactly if it is, for every dispatcher that
is undone, the jumps of the program are still legal.
-/
namespace Untangle

/-- What a jump can find around it in its function. Every loop can be left. -/
structure JumpContext where
  breakable : Bool
  continuable : Bool
  labels : List String
  breakable_of_continuable : continuable = true → breakable = true

namespace JumpContext

def outermost : JumpContext := ⟨false, false, [], id⟩

def looping (c : JumpContext) : JumpContext := ⟨true, true, c.labels, id⟩

def switching (c : JumpContext) : JumpContext := ⟨true, c.continuable, c.labels, fun _ => rfl⟩

def labeling (c : JumpContext) (label : String) : JumpContext :=
  ⟨c.breakable, c.continuable, label :: c.labels, c.breakable_of_continuable⟩

/-- The context itself, or that of a `switch` in it. -/
def within (c : JumpContext) (inSwitch : Bool) : JumpContext :=
  match inSwitch with
  | true => c.switching
  | false => c

end JumpContext

namespace StatementRoot

def inside (c : JumpContext) : StatementRoot → JumpContext
  | whileLoop | doWhile | forLoop | forIn | forOf _ => c.looping
  | switch => c.switching
  | labeled label => c.labeling label
  | _ => c

/-- A statement that jumps finds its target. -/
def jumpsLegal (c : JumpContext) : StatementRoot → Bool
  | breaks none => c.breakable
  | continues none => c.continuable
  | breaks (some label) | continues (some label) => c.labels.contains label
  | _ => true

end StatementRoot

namespace Diagram

/-- All jumps find their targets. A statement inside an expression is in a function of its own. -/
def jumpsLegal (c : JumpContext) : Diagram → Bool
  | nothing => true
  | pair first rest => first.jumpsLegal c && rest.jumpsLegal c
  | passed name => name.jumpsLegal .outermost
  | expression _ parts => parts.jumpsLegal .outermost
  | statement root parts => root.jumpsLegal c && parts.jumpsLegal (root.inside c)
  | clause _ parts | block _ parts => parts.jumpsLegal c
  | function _ params body => params.jumpsLegal .outermost && body.jumpsLegal .outermost

/-- Where a dispatcher is undone, the jumps of the merged cases that went to its loop or its
`switch` find another target. Nothing inside of the merged cases is looked at. -/
def caught (c : JumpContext) : Diagram → Bool
  | nothing | passed _ => true
  | pair first rest => first.caught c && rest.caught c
  | expression _ parts => parts.caught .outermost
  | statement root parts => parts.caught (root.inside c)
  | clause _ parts => parts.caught c
  | block body parts =>
    match Dispatcher.flattened? body with
    | some f =>
      (!anyJumps false false f.merged || c.continuable) &&
        (!anyJumps true false f.merged || c.breakable)
    | none => parts.caught c
  | function _ params body => params.caught .outermost && body.caught .outermost

end Diagram

def Program.jumpsLegal (p : Program) : Bool := p.diagram.jumpsLegal .outermost

section Judged

variable {c : JumpContext} {inSwitch : Bool} {a b d : Diagram} {j k : Bool → Bool}

/-- Jumps that are legal in a loop are legal without it if the ones that go to the loop find another
target: a `continue` one, and a `break`, unless it is in a `switch`. -/
def Judged (c : JumpContext) (inSwitch : Bool) (d : Diagram) (jumps : Bool → Bool) : Prop :=
  d.jumpsLegal c.looping = true →
    (d.jumpsLegal (c.within inSwitch) = true ↔
      (jumps false = true → c.continuable = true) ∧ (jumps true = true → c.breakable = true))

/-- No jump leaves the node. -/
def Diagram.Enclosed (d : Diagram) : Prop := ∀ c c', d.jumpsLegal c = d.jumpsLegal c'

namespace Diagram.Enclosed

theorem pair (ha : a.Enclosed) (hb : b.Enclosed) : (Diagram.pair a b).Enclosed := by
  intro c c'
  rw [jumpsLegal, jumpsLegal, ha c c', hb c c']

/-- No jump leaves an expression. -/
theorem expression (e : Expression) : e.diagram.Enclosed := by
  obtain ⟨root, parts, he⟩ := e.exists_diagram
  rw [he]
  exact fun _ _ => rfl

theorem option (e : Option Expression) : (optionDiagram e).Enclosed := by
  cases e with
  | none => exact fun _ _ => rfl
  | some e => exact expression e

theorem declarators (ds : List Declarator) : (declaratorsDiagram ds).Enclosed := by
  induction ds with
  | nil => exact fun _ _ => rfl
  | cons first rest ih =>
    obtain ⟨target, init⟩ := first
    have hfirst : (Diagram.parts [target.diagram, optionDiagram init]).Enclosed :=
      (expression target).pair ((option init).pair fun _ _ => rfl)
    have hclause : (Diagram.clause .declarator
        (.parts [target.diagram, optionDiagram init])).Enclosed := hfirst
    exact hclause.pair ih

theorem declaration (d : Declaration) : d.diagram.Enclosed := by
  obtain ⟨ds, kind⟩ := d
  exact declarators ds

theorem single (h : d.Enclosed) : (Diagram.parts [d]).Enclosed := h.pair fun _ _ => rfl

/-- A statement that does not jump, around a node that no jump leaves. -/
theorem statement {root : StatementRoot} (hroot : ∀ c, root.jumpsLegal c = true)
    (h : d.Enclosed) : (Diagram.statement root d).Enclosed := by
  intro c c'
  rw [jumpsLegal, jumpsLegal, hroot, hroot, h (root.inside c) (root.inside c')]

end Diagram.Enclosed

namespace Judged

theorem enclosed (h : d.Enclosed) : Judged c inSwitch d fun _ => false := by
  intro hlegal
  rw [h (c.within inSwitch) c.looping]
  simp [hlegal]

theorem pair (ha : Judged c inSwitch a j) (hb : Judged c inSwitch b k) :
    Judged c inSwitch (.pair a b) fun breaks => j breaks || k breaks := by
  intro hlegal
  obtain ⟨hla, hlb⟩ := Bool.and_eq_true_iff.1 hlegal
  have hpair : (Diagram.pair a b).jumpsLegal (c.within inSwitch) = true ↔
      a.jumpsLegal (c.within inSwitch) = true ∧ b.jumpsLegal (c.within inSwitch) = true :=
    Bool.and_eq_true_iff
  rw [hpair, ha hla, hb hlb]
  simp only [Bool.or_eq_true, or_imp]
  exact and_and_and_comm

/-- A statement that neither jumps nor catches jumps. -/
theorem statement {root : StatementRoot} (hroot : ∀ c, root.jumpsLegal c = true)
    (hinside : ∀ c, root.inside c = c) (h : Judged c inSwitch d j) :
    Judged c inSwitch (.statement root d) j := by
  intro hlegal
  rw [Diagram.jumpsLegal, hroot, hinside, Bool.true_and] at hlegal ⊢
  exact h hlegal

/-- A jump to the loop, from anywhere but a `switch` in it. -/
theorem continues : Judged c inSwitch (.statement (.continues none) .nothing) fun _ => true := by
  intro _
  have hlegal : (Diagram.statement (.continues none) .nothing).jumpsLegal (c.within inSwitch) =
      c.continuable := by
    cases inSwitch <;> exact Bool.and_true _
  rw [hlegal]
  exact ⟨fun h => ⟨fun _ => h, fun _ => c.breakable_of_continuable h⟩, fun h => h.1 rfl⟩

/-- A `break` needs a target unless it leaves a `switch`. -/
theorem breaks :
    Judged c inSwitch (.statement (.breaks none) .nothing) fun breaks => breaks && !inSwitch := by
  intro _
  cases inSwitch with
  | true => simp [Diagram.jumpsLegal, JumpContext.within, JumpContext.switching,
      StatementRoot.jumpsLegal]
  | false => simp [Diagram.jumpsLegal, JumpContext.within, StatementRoot.jumpsLegal]

/-- Labels are the same with the loop and without it. -/
theorem labels {root : StatementRoot}
    (hroot : ∀ c c' : JumpContext, c.labels = c'.labels → root.jumpsLegal c = root.jumpsLegal c') :
    Judged c inSwitch (.statement root .nothing) fun _ => false := by
  intro hlegal
  have hlabels : (c.within inSwitch).labels = c.looping.labels := by
    cases inSwitch <;> rfl
  rw [Diagram.jumpsLegal, hroot _ _ hlabels]
  simpa [Diagram.jumpsLegal] using hlegal

/-- The jumps inside of a loop go to it. -/
theorem loop {root : StatementRoot} (hroot : ∀ c, root.jumpsLegal c = true)
    (hinside : ∀ c, root.inside c = c.looping) :
    Judged c inSwitch (.statement root d) fun _ => false := by
  intro hlegal
  have hsame : (c.within inSwitch).looping = c.looping.looping := by
    cases inSwitch <;> rfl
  rw [Diagram.jumpsLegal, hroot, hinside] at hlegal ⊢
  rw [hsame]
  simp [hlegal]

theorem labeled (label : String) (h : Judged (c.labeling label) inSwitch d j) :
    Judged c inSwitch (.statement (.labeled label) d) j := by
  intro hlegal
  have hinside : (c.within inSwitch).labeling label = (c.labeling label).within inSwitch := by
    cases inSwitch <;> rfl
  have hnode : ∀ c : JumpContext, (Diagram.statement (.labeled label) d).jumpsLegal c =
      d.jumpsLegal (c.labeling label) := fun _ => Bool.true_and _
  rw [hnode] at hlegal ⊢
  rw [hinside]
  exact h hlegal

/-- Inside of a `switch` a `break` finds a target. -/
theorem switch (h : Judged c true d j) : Judged c inSwitch (.statement .switch d) j := by
  intro hlegal
  have hinside : (c.within inSwitch).switching = c.within true := by
    cases inSwitch <;> rfl
  have hnode : ∀ c : JumpContext, (Diagram.statement .switch d).jumpsLegal c =
      d.jumpsLegal c.switching := fun _ => Bool.true_and _
  rw [hnode] at hlegal ⊢
  rw [hinside]
  exact h hlegal

theorem single (h : Judged c inSwitch d j) : Judged c inSwitch (.parts [d]) j := by
  have hpair := h.pair (enclosed (d := .nothing) fun _ _ => rfl)
  simp only [Bool.or_false] at hpair
  exact hpair

end Judged

end Judged

mutual
/-- A statement is judged by the search for jumps. The induction goes over the statements inside of
it. -/
theorem judged_statement : ∀ (s : Statement) (c : JumpContext) (inSwitch : Bool),
    Judged c inSwitch s.diagram fun breaks => jumpsToLoop breaks inSwitch s
  | .continues none, _, _ => .continues
  | .breaks none, _, _ => .breaks
  | .continues (some _), _, _ => .labels fun _ _ h => by simp only [StatementRoot.jumpsLegal, h]
  | .breaks (some _), _, _ => .labels fun _ _ h => by simp only [StatementRoot.jumpsLegal, h]
  | .block body, c, inSwitch =>
    (judged_block body c inSwitch).single.statement (fun _ => rfl) fun _ => rfl
  | .labeled label body, c, inSwitch =>
    (judged_statement body (c.labeling label) inSwitch).single.labeled label
  | .branch test consequent alternate, c, inSwitch => by
    have hbranches := (judged_statement consequent c inSwitch).pair
      (judged_alternate alternate c inSwitch).single
    have htest := (Judged.enclosed (.expression test)).pair hbranches
    exact htest.statement (fun _ => rfl) fun _ => rfl
  | .switch discriminant cases, c, inSwitch =>
    ((Judged.enclosed (.expression discriminant)).pair (judged_cases cases c)).switch
  | .attempt block handler finalizer, c, inSwitch => by
    have hrest := (judged_handler handler c inSwitch).pair
      (judged_finalizer finalizer c inSwitch).single
    have hall := (judged_block block c inSwitch).pair hrest
    refine Judged.statement (fun _ => rfl) (fun _ => rfl) ?_
    simp only [jumpsToLoop, Bool.or_assoc]
    exact hall
  | .expression e _, _, _ => .enclosed (.statement (fun _ => rfl) (.single (.expression e)))
  | .empty, _, _ => .enclosed fun _ _ => rfl
  | .debugger, _, _ => .enclosed fun _ _ => rfl
  | .returns e, _, _ => .enclosed (.statement (fun _ => rfl) (.single (.option e)))
  | .throws e, _, _ => .enclosed (.statement (fun _ => rfl) (.single (.expression e)))
  | .whileLoop _ _, _, _ => .loop (fun _ => rfl) fun _ => rfl
  | .doWhile _ _, _, _ => .loop (fun _ => rfl) fun _ => rfl
  | .forLoop _ _ _ _, _, _ => .loop (fun _ => rfl) fun _ => rfl
  | .forIn _ _ _, _, _ => .loop (fun _ => rfl) fun _ => rfl
  | .forOf _ _ _ _, _, _ => .loop (fun _ => rfl) fun _ => rfl
  | .function ⟨_, _, _, _, _⟩, _, _ => .enclosed fun _ _ => rfl
  | .declaration d, _, _ => .enclosed (.statement (fun _ => rfl) (.single (.declaration d)))
  | .foreign _, _, _ => .enclosed fun _ _ => rfl
termination_by structural s => s

/-- Statements in order are judged by the search through all of them. -/
theorem judged_block : ∀ (body : List Statement) (c : JumpContext) (inSwitch : Bool),
    Judged c inSwitch (statementsDiagram body) fun breaks => anyJumps breaks inSwitch body
  | [], _, _ => .enclosed fun _ _ => rfl
  | s :: rest, c, inSwitch => (judged_statement s c inSwitch).pair (judged_block rest c inSwitch)
termination_by structural l => l

theorem judged_alternate : ∀ (s : Option Statement) (c : JumpContext) (inSwitch : Bool),
    Judged c inSwitch (alternateDiagram s) fun breaks => optionJumps breaks inSwitch s
  | none, _, _ => .enclosed fun _ _ => rfl
  | some s, c, inSwitch => judged_statement s c inSwitch
termination_by structural s => s

theorem judged_cases : ∀ (cases : List Case) (c : JumpContext),
    Judged c true (casesDiagram cases) fun breaks => casesJump breaks cases
  | [], _ => .enclosed fun _ _ => rfl
  | ⟨test, consequent⟩ :: rest, c => by
    have hcase := (Judged.enclosed (.option test)).pair (judged_block consequent c true).single
    exact hcase.pair (judged_cases rest c)
termination_by structural l => l

theorem judged_handler : ∀ (h : Option Handler) (c : JumpContext) (inSwitch : Bool),
    Judged c inSwitch (handlerDiagram h) fun breaks => handlerJumps breaks inSwitch h
  | none, _, _ => .enclosed fun _ _ => rfl
  | some ⟨param, body⟩, c, inSwitch =>
    (Judged.enclosed (.option param)).pair (judged_block body c inSwitch).single
termination_by structural h => h

theorem judged_finalizer : ∀ (b : Option (List Statement)) (c : JumpContext) (inSwitch : Bool),
    Judged c inSwitch (finalizerDiagram b) fun breaks => blockJumps breaks inSwitch b
  | none, _, _ => .enclosed fun _ _ => rfl
  | some body, c, inSwitch => judged_block body c inSwitch
termination_by structural b => b
end

/-- The jumps of a list are legal if those of each statement are. -/
theorem jumpsLegal_statements {body : List Statement} {c : JumpContext} :
    (statementsDiagram body).jumpsLegal c = true ↔ ∀ s ∈ body, s.diagram.jumpsLegal c = true := by
  induction body with
  | nil => simp [statementsDiagram, Diagram.jumpsLegal]
  | cons s rest ih =>
    have hcons : (statementsDiagram (s :: rest)).jumpsLegal c =
        (s.diagram.jumpsLegal c && (statementsDiagram rest).jumpsLegal c) := rfl
    rw [hcons, Bool.and_eq_true, ih, List.forall_mem_cons]

theorem jumpsLegal_case {cases : List Case} {c : JumpContext}
    (h : (casesDiagram cases).jumpsLegal c = true) {x : Case} (hx : x ∈ cases) :
    (statementsDiagram x.consequent).jumpsLegal c = true := by
  induction cases with
  | nil => cases hx
  | cons first rest ih =>
    obtain ⟨test, consequent⟩ := first
    have hcons : (casesDiagram (⟨test, consequent⟩ :: rest)).jumpsLegal c =
        (((optionDiagram test).jumpsLegal c &&
          ((statementsDiagram consequent).jumpsLegal c && true)) &&
          (casesDiagram rest).jumpsLegal c) := rfl
    simp only [hcons, Bool.and_eq_true] at h
    rcases List.mem_cons.1 hx with rfl | hmem
    · exact h.1.2.1
    · exact ih h.2 hmem

namespace Dispatcher

/-- The cases of a dispatcher are in a loop and a `switch`. -/
theorem jumpsLegal_of_cases? {s : Statement} {cases : List Case} {c : JumpContext}
    (hs : cases? s = some cases) (h : s.diagram.jumpsLegal c = true) :
    (casesDiagram cases).jumpsLegal c.looping = true := by
  have hswitch : ∀ discriminant,
      (Statement.switch discriminant cases).diagram.jumpsLegal c.looping = true →
      (casesDiagram cases).jumpsLegal c.looping = true := by
    intro discriminant hlegal
    exact (Bool.and_eq_true_iff.1 (Bool.and_eq_true_iff.1 hlegal).2).2
  unfold cases? at hs
  split at hs
  · next test discriminant _ more =>
    cases hs
    have hloop : (Statement.whileLoop test
          (.block (.switch discriminant cases :: more))).diagram.jumpsLegal c =
        (true && (test.diagram.jumpsLegal c.looping && ((true &&
          (((Statement.switch discriminant cases).diagram.jumpsLegal c.looping &&
            (statementsDiagram more).jumpsLegal c.looping) && true)) && true))) := rfl
    simp only [hloop, Bool.and_eq_true] at h
    exact hswitch discriminant h.2.2.1.2.1.1
  · next test discriminant _ =>
    cases hs
    have hloop : (Statement.whileLoop test (.switch discriminant cases)).diagram.jumpsLegal c =
        (true && (test.diagram.jumpsLegal c.looping &&
          ((Statement.switch discriminant cases).diagram.jumpsLegal c.looping && true))) := rfl
    simp only [hloop, Bool.and_eq_true] at h
    exact hswitch discriminant h.2.2.1
  · cases hs

/-- The merged cases are legal inside of some loop if the dispatcher was. -/
theorem jumpsLegal_merged {body : List Statement} {f : Flattened} {c : JumpContext}
    (hf : flattened? body = some f) (h : (statementsDiagram body).jumpsLegal c = true) :
    (statementsDiagram f.merged).jumpsLegal c.looping = true := by
  obtain ⟨loop, hloop, hcases, hmerged⟩ := exists_of_flattened? hf
  have hlegal := jumpsLegal_of_cases? hcases (jumpsLegal_statements.1 h loop hloop)
  apply jumpsLegal_statements.2
  intro s hs
  obtain ⟨x, hx, hsx⟩ := hmerged s hs
  exact jumpsLegal_statements.1 (jumpsLegal_case hlegal hx) s hsx

end Dispatcher

namespace Unflattening

/-- After the run the jumps are legal just when they were caught. -/
def Lands (d d' : Diagram) (_ _ : Progress) : Prop :=
  ∀ c, d.jumpsLegal c = true → (d'.jumpsLegal c = true ↔ d.caught c = true)

theorem Lands.parts {d d' : Diagram} {s t : Progress} (h : Diagram.InTurn Lands d d' s t) :
    Lands d d' s t := by
  induction h with
  | nothing s => exact fun _ _ => Iff.rfl
  | @pair a a' b b' s t u first rest ih =>
    intro c hlegal
    obtain ⟨hfirst, hrest⟩ := Bool.and_eq_true_iff.1 hlegal
    have hlands := and_congr (first c hfirst) (ih c hrest)
    rw [← Bool.and_eq_true_iff, ← Bool.and_eq_true_iff] at hlands
    exact hlands

/-- Every call of the pass keeps the jumps legal that are caught. -/
theorem upholds_lands : visitor.Upholds Lands where
  nothing s := fun _ _ => Iff.rfl
  passed name s := fun c hlegal => ⟨fun _ => rfl, fun _ => hlegal⟩
  clause hparts := fun c hlegal => Lands.parts hparts c hlegal
  statement := by
    intro root a a' s t hparts c hlegal
    obtain ⟨hroot, hinside⟩ := Bool.and_eq_true_iff.1 hlegal
    have hlands := Lands.parts hparts (root.inside c) hinside
    rw [Diagram.jumpsLegal, hroot, Bool.true_and]
    exact hlands
  expression := by
    intro e root a a' s t he hparts c hlegal
    show e.diagram.jumpsLegal c = true ↔ _
    rw [he]
    exact Lands.parts hparts .outermost hlegal
  settle := by
    intro body body' s t henter c hlegal
    change (enterStatements body).run s = _ at henter
    unfold enterStatements at henter
    split at henter
    · cases henter
    · next f hf =>
      cases henter
      -- the merged statements stand outside of the loop and the `switch` that their jumps had
      have hjudged := judged_block f.merged c false (Dispatcher.jumpsLegal_merged hf hlegal)
      have himp : ∀ a b : Bool, (!a || b) = true ↔ (a = true → b = true) := by decide
      rw [blockDiagram, blockDiagram, Diagram.caught, hf]
      simp only [Bool.and_eq_true, himp]
      exact hjudged
  descend := by
    intro body body' s t u henter hparts c hlegal
    change (enterStatements body).run s = _ at henter
    unfold enterStatements at henter
    split at henter
    · next hf =>
      have hcaught : (blockDiagram body).caught c = (statementsDiagram body).caught c := by
        rw [blockDiagram, Diagram.caught, hf]
      rw [hcaught]
      exact Lands.parts hparts c hlegal
    · cases henter
  function := by
    intro params params' body body' cut s t u w henter hparams hbody c hlegal
    cases henter
    obtain ⟨hp, hb⟩ := Bool.and_eq_true_iff.1 hlegal
    have hlands := and_congr (Lands.parts hparams .outermost hp) (hbody .outermost hb)
    rw [← Bool.and_eq_true_iff, ← Bool.and_eq_true_iff] at hlands
    exact hlands
  concise := by
    intro params params' e e' cut s t u w henter hparams hbody c hlegal
    obtain ⟨hp, hb⟩ := Bool.and_eq_true_iff.1 hlegal
    have hlands := and_congr (Lands.parts hparams .outermost hp) (hbody .outermost hb)
    rw [← Bool.and_eq_true_iff, ← Bool.and_eq_true_iff] at hlands
    exact hlands

/-- Unflattening keeps the jumps of a program legal just when, wherever a dispatcher is undone, the
jumps to its loop and its `switch` find another target. -/
theorem run_jumpsLegal_iff (p : Program) (h : p.jumpsLegal = true) :
    (run p).program.jumpsLegal = true ↔ p.diagram.caught .outermost = true :=
  upholds_lands.carries_program p {} .outermost h

/-- A dispatcher with a single case, which ends in `break`. -/
def leaving : List Statement :=
  [.declaration ⟨[⟨.identifier "order",
      some (.call (.member (.ofString "0") (.identifier "split") false false) [.ofString "|"]
        false)⟩], .var⟩,
    .whileLoop (.literal ⟨.boolean true, none, none, none⟩)
      (.block [.switch (.identifier "order")
          [⟨some (.ofString "0"), [.expression (.identifier "work") none, .breaks none]⟩],
        .breaks none])]

def leavingProgram : Program := ⟨leaving, .script⟩

def leavingLoop : Program := ⟨[.forLoop none none none (.block leaving)], .script⟩

/-- Only in a loop is there a target for the `break` that is left over. -/
theorem run_leaving_jumpsLegal :
    leavingProgram.jumpsLegal = true ∧ (run leavingProgram).program.jumpsLegal ≠ true ∧
      leavingLoop.jumpsLegal = true ∧ (run leavingLoop).program.jumpsLegal = true := by
  refine ⟨rfl, fun h => ?_, rfl, ?_⟩
  · have hcaught := (run_jumpsLegal_iff leavingProgram rfl).1 h
    exact absurd hcaught (by decide)
  · exact (run_jumpsLegal_iff leavingLoop rfl).2 rfl

end Unflattening

end Untangle
