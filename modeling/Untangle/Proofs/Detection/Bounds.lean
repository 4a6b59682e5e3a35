import Untangle.Pass.LoopExit
import Untangle.Proofs.Detection.Evidence
import Untangle.Proofs.Pass.Dictionary
import Untangle.Proofs.Pass.Flattening
import Untangle.Proofs.Walk.State

/-!
# What the passes do was found

Detection looks at the program before the passes change it. Still no pass does
more than was found: every dictionary that is removed, every dispatcher that is
put back and every loop that is rebuilt was seen by the search. The passes for
dictionaries and dispatchers act before they go further into the tree, so what
they act on is still as it was. A loop is rebuilt after what is in it, but what
makes it endless does not change until then.
-/
namespace Untangle

open Detection

section Bounds

variable {σ : Type} {count : σ → Nat} {found : Evidence → Bool}
variable {a b c d d' : Diagram} {s t u w x : σ}

/-- As much was counted as evidence can be found, whatever its labels. -/
def Bounds (count : σ → Nat) (found : Evidence → Bool) (d : Diagram) (s t : σ) : Prop :=
  ∀ scope entered, count t ≤ count s + (ofDiagram scope entered d).countP found

namespace Bounds

theorem of_eq (h : count t = count s) : Bounds count found d s t :=
  fun _ _ => h ▸ Nat.le_add_right _ _

theorem pair (h : Bounds count found a s t) (h' : Bounds count found b t u) :
    Bounds count found (.pair a b) s u := by
  intro scope entered
  have hfirst := h scope entered
  have hrest := h' scope (entered + a.functions)
  rw [ofDiagram, List.countP_append]
  omega

theorem parts (h : Diagram.InTurn (fun d _ => Bounds count found d) d d' s t) :
    Bounds count found d s t := by
  induction h with
  | nothing s => exact of_eq rfl
  | pair first _ ih => exact first.pair ih

theorem clause (root : ClauseRoot) (h : Bounds count found d s t) :
    Bounds count found (.clause root d) s t := h

theorem statement (root : StatementRoot) (h : Bounds count found d s t) :
    Bounds count found (.statement root d) s t := h

theorem expression (root : ExpressionRoot) (h : Bounds count found d s t) :
    Bounds count found (.expression root d) s t := h

theorem thereupon (h : Bounds count found d s t) (hu : count u = count t) :
    Bounds count found d s u := by
  intro scope entered
  rw [hu]
  exact h scope entered

/-- A list of statements of which so many are found, and in which more are found. -/
theorem block {body : List Statement} {n : Nat} (h : Bounds count found d s t)
    (hn : ∀ scope, (ofStatements scope body).countP found = n) (hu : count u ≤ count t + n) :
    Bounds count found (.block body d) s u := by
  intro scope entered
  have hbefore := h scope entered
  rw [ofDiagram, List.countP_append, hn]
  omega

theorem function (params : List Expression)
    (henter : ∀ scope, count t ≤ count s + (ofFunction scope c.statements?).countP found)
    (hparams : Bounds count found a t u) (hbody : Bounds count found c u w)
    (hleave : count x = count w) : Bounds count found (.function params a c) s x := by
  intro scope entered
  have h₁ := henter (functionLabel (entered + 1))
  have h₂ := hparams (functionLabel (entered + 1)) (entered + 1)
  have h₃ := hbody (functionLabel (entered + 1)) (entered + 1 + a.functions)
  rw [ofDiagram, List.countP_append, List.countP_append]
  omega

end Bounds

end Bounds

namespace Detection

theorem countP_ofStatements (found : Evidence → Bool) (sees : Statement → Bool)
    (h : ∀ scope order s, (ofStatement scope order s).countP found = if sees s then 1 else 0)
    (scope : String) (body : List Statement) :
    (ofStatements scope body).countP found = body.countP sees := by
  unfold ofStatements
  generalize Dispatcher.orderText? body = order
  induction body with
  | nil => rfl
  | cons s rest ih =>
    rw [List.flatMap_cons, List.countP_append, ih, h, List.countP_cons, Nat.add_comm]

theorem dictionaries_ofStatements (scope : String) (body : List Statement) :
    (ofStatements scope body).countP Evidence.isDictionary = 0 := by
  have hnone := countP_ofStatements Evidence.isDictionary (fun _ => false) ?_ scope body
  · rw [hnone, List.countP_false]
    rfl
  intro scope order s
  unfold ofStatement
  cases Dispatcher.cases? s <;> cases s.isEndlessLoop <;> rfl

/-- As many dispatchers are found in a list as stand in it. -/
theorem dispatchers_ofStatements (scope : String) (body : List Statement) :
    (ofStatements scope body).countP Evidence.isDispatcher =
      body.countP fun s => (Dispatcher.cases? s).isSome := by
  apply countP_ofStatements
  intro scope order s
  unfold ofStatement
  cases Dispatcher.cases? s <;> cases s.isEndlessLoop <;> rfl

theorem endlessLoops_ofStatements (scope : String) (body : List Statement) :
    (ofStatements scope body).countP Evidence.isEndlessLoop =
      body.countP Statement.isEndlessLoop := by
  apply countP_ofStatements
  intro scope order s
  unfold ofStatement
  cases Dispatcher.cases? s <;> cases s.isEndlessLoop <;> rfl

/-- The string table is none of what the passes count. -/
theorem countP_evidence_detect {found : Evidence → Bool}
    (h : ∀ prologue, found (ofPrologue prologue) = false) (p : Program) :
    (detect p).evidence.countP found = (ofDiagram "program" 0 p.diagram).countP found := by
  rw [evidence_detect, List.countP_append]
  cases Prologue.find? p.body with
  | none => exact Nat.zero_add _
  | some prologue => simp [h]

end Detection

theorem EventLog.count_record (log : EventLog) (e : Event) (kind : EventKind) :
    (log.record e).count kind = log.count kind + if e.kind = kind then 1 else 0 := by
  by_cases h : e.kind = kind <;> simp [record, count, h]

namespace DictionaryInlining

/-- Events were added, but none that tells of a dictionary as a whole. -/
def Remarks (s t : State) : Prop :=
  ∃ added, t.progress.events = s.progress.events ++ added ∧
    ∀ e ∈ added, e.kind ≠ .dictionaryIdentified ∧ e.kind ≠ .dictionaryRemoved

theorem remarks_refl (s : State) : Remarks s s := ⟨[], (List.append_nil _).symm, by simp⟩

theorem remarks_record (kind : EventKind)
    (h : kind ≠ .dictionaryIdentified ∧ kind ≠ .dictionaryRemoved) (location : Option Nat)
    (message : String) : Keeps Remarks (record kind location message) :=
  fun _ => ⟨[_], rfl, by simpa using h⟩

theorem remarks_inlined (kind : EventKind)
    (h : kind ≠ .dictionaryIdentified ∧ kind ≠ .dictionaryRemoved) (name message : String) :
    Keeps Remarks (do countInlined name; record kind none message) :=
  fun _ => ⟨[_], rfl, by simpa using h⟩

/-- Leaving an expression tells of no dictionary as a whole. -/
theorem remarks_leaveExpression (e : Expression) : Keeps Remarks (leaveExpression e) := by
  refine keeps_of_steps remarks_refl (fun _ s => remarks_refl s) (fun name message kind hk => ?_)
    (remarks_record .warning (by decide) none) e
  have hother : ∀ kind ∈ [EventKind.constantInlined, .callInlined],
      kind ≠ .dictionaryIdentified ∧ kind ≠ .dictionaryRemoved := by decide
  exact remarks_inlined kind (hother kind hk) name message

theorem remarks_leaveFunction : Keeps Remarks leaveFunction := by
  intro s
  simp only [leaveFunction, StateT.run_bind, StateT.run_get, pure_bind]
  split
  · unfold warnIfReferenced
    split
    · exact remarks_record .warning (by decide) none _ s
    · exact remarks_refl s
  · exact remarks_refl s

def removals (s : State) : Nat := s.progress.events.count .dictionaryRemoved

theorem Remarks.removals_eq {s t : State} (h : Remarks s t) : removals t = removals s := by
  obtain ⟨added, hevents, hadded⟩ := h
  have hnone : added.countP (fun e => e.kind == .dictionaryRemoved) = 0 := by
    rw [List.countP_eq_zero]
    intro e he
    simpa using (hadded e he).2
  rw [removals, EventLog.count, hevents, List.countP_append, hnone]
  rfl

/-- Entering a function removes as many dictionaries as it is evidence of. -/
theorem removals_enterFunction (params : List Expression) (body : Option (List Statement))
    (s : State) (scope : String) :
    removals ((enterFunction params body).run s).2 =
      removals s + (ofFunction scope body).countP Evidence.isDictionary := by
  unfold enterFunction ofFunction
  cases body.bind Dictionary.capture? with
  | none => rfl
  | some d =>
    show EventLog.count (EventLog.record (EventLog.record _ _) _) _ = _
    rw [EventLog.count_record, EventLog.count_record]
    rfl

/-- What is found behind the first statements is found in the whole list. -/
theorem bounds_of_drop {cut : Nat} {body : List Statement} {s t : State}
    (h : Bounds removals Evidence.isDictionary (blockDiagram (body.drop cut)) s t) :
    Bounds removals Evidence.isDictionary (blockDiagram body) s t := by
  induction body generalizing cut with
  | nil => rwa [List.drop_nil] at h
  | cons first rest ih =>
    cases cut with
    | zero => exact h
    | succ cut =>
      have hrest := ih h
      intro scope entered
      have hcount := hrest scope (entered + first.diagram.functions)
      simp only [blockDiagram, ofDiagram, List.countP_append, dictionaries_ofStatements,
        statementsDiagram] at hcount ⊢
      omega

/-- The pass removes no more dictionaries than are found. -/
theorem upholds_bounds :
    visitor.Upholds fun d _ => Bounds removals Evidence.isDictionary d where
  nothing _ := .of_eq rfl
  passed _ _ := .of_eq rfl
  clause hparts := (Bounds.parts hparts).clause _
  statement hparts := (Bounds.parts hparts).statement _
  expression _ hparts :=
    ((Bounds.parts hparts).expression _).thereupon (remarks_leaveExpression _ _).removals_eq
  settle henter := by cases henter
  descend := by
    intro body body' s t u henter hparts
    cases henter
    exact (Bounds.parts hparts).block (fun scope => dictionaries_ofStatements scope body)
      (Nat.le_refl _)
  function := by
    intro params params' body body' cut s t u w henter hparams hbody
    obtain rfl : ((enterFunction params (some body)).run s).2 = t := congrArg Prod.snd henter
    refine .function params (fun scope => ?_) (.parts hparams) (bounds_of_drop hbody)
      (remarks_leaveFunction w).removals_eq
    exact Nat.le_of_eq (removals_enterFunction params (some body) s scope)
  concise := by
    intro params params' e e' cut s t u w henter hparams hbody
    obtain rfl : ((enterFunction params none).run s).2 = t := congrArg Prod.snd henter
    refine .function params (fun scope => ?_) (.parts hparams) hbody
      (remarks_leaveFunction w).removals_eq
    rw [removals_enterFunction params none s scope]
    exact Nat.le_add_right _ _

end DictionaryInlining

namespace Progress

def counted (kind : EventKind) (s : Progress) : Nat := s.events.count kind

theorem counted_record (s : Progress) (pass : String) (kind kind' : EventKind)
    (location : Option Nat) (message : String) :
    (s.record pass kind location message).counted kind' =
      s.counted kind' + if kind = kind' then 1 else 0 :=
  EventLog.count_record _ _ _

/-- Where only the scope is kept track of, nothing is counted between a function and its parts. -/
theorem bounds_function {kind : EventKind} {found : Evidence → Bool} {a c : Diagram}
    {s u w : Progress} (params : List Expression)
    (hparams : Bounds (counted kind) found a s.enterScope u)
    (hbody : Bounds (counted kind) found c u w) :
    Bounds (counted kind) found (.function params a c) s w.leaveScope := by
  refine Bounds.function params (fun scope => ?_) hparams hbody rfl
  exact Nat.le_add_right (s.counted kind) _

end Progress

namespace Unflattening

/-- A dispatcher that is put back is one of those in the list. -/
theorem counted_settle {body body' : List Statement} {s t : Progress}
    (h : (enterStatements body).run s = (.settle body', t)) :
    t.counted .dispatcherIdentified = s.counted .dispatcherIdentified + 1 ∧
      0 < body.countP fun s => (Dispatcher.cases? s).isSome := by
  unfold enterStatements at h
  split at h
  · cases h
  · next f hf =>
    cases h
    constructor
    · show Progress.counted .dispatcherIdentified (Progress.record _ _ _ _ _) = _
      rw [Progress.counted_record, Progress.counted_record]
      rfl
    · obtain ⟨loop, hloop, hcases, -⟩ := Dispatcher.exists_of_flattened? hf
      exact List.countP_pos_iff.2 ⟨loop, hloop, by rw [hcases]; rfl⟩

/-- The pass puts back no more dispatchers than are found. -/
theorem upholds_bounds :
    visitor.Upholds fun d _ =>
      Bounds (Progress.counted .dispatcherIdentified) Evidence.isDispatcher d where
  nothing _ := .of_eq rfl
  passed _ _ := .of_eq rfl
  clause hparts := (Bounds.parts hparts).clause _
  statement hparts := (Bounds.parts hparts).statement _
  expression _ hparts := (Bounds.parts hparts).expression _
  settle := by
    intro body body' s t henter
    obtain ⟨hcount, hpos⟩ := counted_settle henter
    refine Bounds.block (t := s) (.of_eq rfl) (fun scope => dispatchers_ofStatements scope body) ?_
    omega
  descend := by
    intro body body' s t u henter hparts
    have hsame : t = s := by
      change (enterStatements body).run s = _ at henter
      unfold enterStatements at henter
      split at henter
      · cases henter
        rfl
      · cases henter
    subst hsame
    exact (Bounds.parts hparts).block (fun scope => dispatchers_ofStatements scope body)
      (Nat.le_add_right _ _)
  function := by
    intro params params' body body' cut s t u w henter hparams hbody
    cases henter
    exact Progress.bounds_function params (.parts hparams) hbody
  concise := by
    intro params params' e e' cut s t u w henter hparams hbody
    cases henter
    exact Progress.bounds_function params (.parts hparams) hbody

end Unflattening

namespace Diagram

def isContainer : Diagram → Bool
  | .expression .array _ | .expression .object _ => true
  | _ => false

mutual
/-- The diagram shows a constant that is always true. -/
def isTruthy : Diagram → Bool
  | .expression (.literal l) _ => (Expression.literal l).isTruthy
  | .expression (.unary .not _) (.pair argument _) => argument.isFalsy
  | _ => false
termination_by structural d => d

def isFalsy : Diagram → Bool
  | .expression (.literal l) _ => (Expression.literal l).isFalsy
  | .expression (.unary .not _) (.pair argument _) => argument.isTruthy || argument.isContainer
  | _ => false
termination_by structural d => d
end

def isEndlessLoop : Diagram → Bool
  | .statement .whileLoop (.pair test _) => test.isTruthy
  | _ => false

end Diagram

theorem Expression.isContainer_diagram (e : Expression) :
    e.diagram.isContainer = e.isContainer := by
  cases e with
  | function f => cases f; rfl
  | _ => rfl

/-- The truth of a constant can be seen in its diagram. -/
theorem Expression.truth_diagram : ∀ e : Expression,
    e.diagram.isTruthy = e.isTruthy ∧ e.diagram.isFalsy = e.isFalsy
  | .unary op _ argument => by
    obtain ⟨htruthy, hfalsy⟩ := argument.truth_diagram
    cases op with
    | not =>
      refine ⟨hfalsy, ?_⟩
      show (argument.diagram.isTruthy || argument.diagram.isContainer) = _
      rw [htruthy, argument.isContainer_diagram]
      rfl
    | _ => exact ⟨rfl, rfl⟩
  | .function f => by cases f; exact ⟨rfl, rfl⟩
  | .identifier _ | .literal _ | .this | .array _ | .object _ | .arrow _ _ _ _ | .update _ _ _
  | .binary _ _ _ | .logical _ _ _ | .assignment _ _ _ | .conditional _ _ _ | .call _ _ _
  | .new _ _ | .member _ _ _ _ | .sequence _ | .template _ _ | .tagged _ _ | .spread _
  | .assignmentPattern _ _ | .arrayPattern _ | .objectPattern _ | .rest _ | .foreign _ =>
    ⟨rfl, rfl⟩
termination_by structural e => e

/-- An endless loop can be seen in its diagram. -/
theorem Statement.isEndlessLoop_diagram (s : Statement) :
    s.diagram.isEndlessLoop = s.isEndlessLoop := by
  cases s with
  | whileLoop test body => exact test.truth_diagram.1
  | function f => cases f; rfl
  | _ => rfl

namespace LoopRebuilding

/-- The search would see the same in both diagrams: the same constants, and the same endless
loops. -/
structure LooksAlike (d d' : Diagram) : Prop where
  truthy : d'.isTruthy = d.isTruthy
  falsy : d'.isFalsy = d.isFalsy
  container : d'.isContainer = d.isContainer
  endless : d'.isEndlessLoop = d.isEndlessLoop

/-- No more loops were rebuilt than were found, and what can be seen from outside is the same. -/
structure Rebuilds (d d' : Diagram) (s t : Progress) : Prop where
  bounds : Bounds (Progress.counted .loopReconstructed) Evidence.isEndlessLoop d s t
  alike : LooksAlike d d'

namespace Rebuilds

variable {a a' b b' d d' : Diagram} {s t u : Progress}

theorem parts (h : Diagram.InTurn Rebuilds d d' s t) :
    Bounds (Progress.counted .loopReconstructed) Evidence.isEndlessLoop d s t := by
  induction h with
  | nothing s => exact .of_eq rfl
  | pair first _ ih => exact first.bounds.pair ih

/-- What is seen of an expression is seen at its root, or in the argument of a `!`. -/
theorem expression (root : ExpressionRoot) (h : Diagram.InTurn Rebuilds a a' s t) :
    LooksAlike (.expression root a) (.expression root a') := by
  cases root with
  | unary op leading =>
    cases op with
    | not =>
      cases h with
      | nothing => exact ⟨rfl, rfl, rfl, rfl⟩
      | pair first _ =>
        obtain ⟨htruthy, hfalsy, hcontainer, -⟩ := first.alike
        refine ⟨hfalsy, ?_, rfl, rfl⟩
        show (_ || _) = (_ || _)
        rw [htruthy, hcontainer]
    | _ => exact ⟨rfl, rfl, rfl, rfl⟩
  | _ => exact ⟨rfl, rfl, rfl, rfl⟩

theorem statement (root : StatementRoot) (h : Diagram.InTurn Rebuilds a a' s t) :
    LooksAlike (.statement root a) (.statement root a') := by
  cases root with
  | whileLoop =>
    cases h with
    | nothing => exact ⟨rfl, rfl, rfl, rfl⟩
    | pair first _ => exact ⟨rfl, rfl, rfl, first.alike.truthy⟩
  | _ => exact ⟨rfl, rfl, rfl, rfl⟩

/-- The walk leaves as many endless loops in a list as there were. -/
theorem countP_eq {body body' : List Statement}
    (h : Diagram.InTurn Rebuilds (statementsDiagram body) (statementsDiagram body') s t) :
    body'.countP Statement.isEndlessLoop = body.countP Statement.isEndlessLoop := by
  induction body generalizing body' s with
  | nil =>
    cases body' with
    | nil => rfl
    | cons _ _ => cases h
  | cons first rest ih =>
    cases body' with
    | nil => cases h
    | cons first' rest' =>
      cases h with
      | pair hfirst hrest =>
        have hendless := hfirst.alike.endless
        rw [Statement.isEndlessLoop_diagram, Statement.isEndlessLoop_diagram] at hendless
        rw [List.countP_cons, List.countP_cons, ih hrest, hendless]

end Rebuilds

/-- Only an endless loop has a way out that is looked for. -/
theorem isEndlessLoop_of_find {s : Statement} {x : LoopExit} (h : LoopExit.find s = .exit x) :
    s.isEndlessLoop = true := by
  have hlast : (LoopExit.lastBranch? s).isSome = true := by
    unfold LoopExit.find at h
    split at h
    · cases h
    · next hsome => rw [hsome]; rfl
    · next hsome => rw [hsome]; rfl
  unfold LoopExit.lastBranch? at hlast
  split at hlast
  · next test body =>
    split at hlast
    · next htest => exact htest
    · cases hlast
  · cases hlast

/-- Every loop that is rebuilt is an endless loop of the list. -/
theorem counted_rebuild (location : Nat) (body : List Statement) (s : Progress) :
    ((rebuild location body).run s).2.counted .loopReconstructed ≤
      s.counted .loopReconstructed + body.countP Statement.isEndlessLoop := by
  induction body generalizing location s with
  | nil => exact Nat.le_refl _
  | cons first rest ih =>
    rw [rebuild, List.countP_cons]
    cases hfind : LoopExit.find first with
    | nothing =>
      have hrest := ih (location + 1) s
      exact Nat.le_trans hrest (by omega)
    | wrongBranch =>
      have hrest := ih (location + 1) (s.record passName .warning (some location)
        "loop exits from the then-branch of an if/else")
      rw [Progress.counted_record, if_neg (by decide)] at hrest
      exact Nat.le_trans hrest (by omega)
    | exit x =>
      rw [if_pos (isEndlessLoop_of_find hfind)]
      by_cases hx : x.isRebuildable = true
      · have hrest := ih (location + x.spliced.length + 1)
          (s.record passName .loopReconstructed (some location) (sideText x.side)).change
        have hcount : (s.record passName .loopReconstructed (some location)
            (sideText x.side)).change.counted .loopReconstructed =
            s.counted .loopReconstructed + 1 := Progress.counted_record _ _ _ _ _ _
        rw [hcount] at hrest
        simp only [hx, if_true]
        exact Nat.le_trans hrest (by omega)
      · have hrest := ih (location + 1) s
        simp only [hx]
        exact Nat.le_trans hrest (by omega)

/-- The pass rebuilds no more loops than are found. -/
theorem upholds_rebuilds : visitor.Upholds Rebuilds where
  nothing _ := ⟨.of_eq rfl, rfl, rfl, rfl, rfl⟩
  passed _ _ := ⟨.of_eq rfl, rfl, rfl, rfl, rfl⟩
  clause hparts := ⟨(Rebuilds.parts hparts).clause _, rfl, rfl, rfl, rfl⟩
  statement hparts := ⟨(Rebuilds.parts hparts).statement _, Rebuilds.statement _ hparts⟩
  expression := by
    intro e root a a' s t he hparts
    refine ⟨(Rebuilds.parts hparts).expression root, ?_⟩
    show LooksAlike _ e.diagram
    rw [he]
    exact Rebuilds.expression root hparts
  settle henter := by cases henter
  descend := by
    intro body body' s t u henter hparts
    cases henter
    refine ⟨?_, rfl, rfl, rfl, rfl⟩
    have hcount := counted_rebuild 0 body' u
    rw [Rebuilds.countP_eq hparts] at hcount
    exact (Rebuilds.parts hparts).block (fun scope => endlessLoops_ofStatements scope body) hcount
  function := by
    intro params params' body body' cut s t u w henter hparams hbody
    cases henter
    refine ⟨?_, rfl, rfl, rfl, rfl⟩
    exact Progress.bounds_function params (Rebuilds.parts hparams) hbody.bounds
  concise := by
    intro params params' e e' cut s t u w henter hparams hbody
    cases henter
    refine ⟨?_, rfl, rfl, rfl, rfl⟩
    exact Progress.bounds_function params (Rebuilds.parts hparams) hbody.bounds

end LoopRebuilding

/-- Detection reports at least as many dictionaries, dispatchers and endless loops as the passes
then remove, put back and rebuild. -/
theorem events_le_detect (p : Program) :
    (dictionaryInlining.run p).events.count .dictionaryRemoved ≤ (detect p).dictionaries ∧
      (unflattening.run p).events.count .dispatcherIdentified ≤ (detect p).dispatchers ∧
      (loopRebuilding.run p).events.count .loopReconstructed ≤ (detect p).endlessLoops := by
  have hremoved := DictionaryInlining.upholds_bounds.carries_program p {} "program" 0
  have hidentified := Unflattening.upholds_bounds.carries_program p {} "program" 0
  have hrebuilt := (LoopRebuilding.upholds_rebuilds.carries_program p {}).bounds "program" 0
  refine ⟨?_, ?_, ?_⟩
  · rw [Detection.dictionaries, countP_evidence_detect fun _ => rfl]
    exact Nat.le_trans hremoved (Nat.le_of_eq (Nat.zero_add _))
  · rw [Detection.dispatchers, countP_evidence_detect fun _ => rfl]
    exact Nat.le_trans hidentified (Nat.le_of_eq (Nat.zero_add _))
  · rw [Detection.endlessLoops, countP_evidence_detect fun _ => rfl]
    exact Nat.le_trans hrebuilt (Nat.le_of_eq (Nat.zero_add _))

end Untangle
