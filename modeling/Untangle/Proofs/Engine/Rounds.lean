import Untangle.Proofs.Engine.Verdict
import Untangle.Proofs.Pass.FixedPoint

/-!
# Rounds of a pass

A stage repeats its pass until a round changes nothing. A round that changes
nothing leaves the program as it is, and so would all further rounds: stopping
there makes no difference to the program, but only to the number of rounds.
-/
namespace Untangle

namespace Pass

variable {pass : Pass} {p : Program} {k : ℕ}

/-- The longest streak ends with a run that changes nothing. -/
theorem isGreatest_streaks (hstreak : k ∈ pass.streaks p)
    (hend : (pass.run (pass.step^[k] p)).changed = false) : IsGreatest (pass.streaks p) k := by
  refine ⟨hstreak, fun m hm => ?_⟩
  by_contra hlt
  have hchanged := hm k (by omega)
  rw [hend] at hchanged
  cases hchanged

theorem zero_mem_streaks : 0 ∈ pass.streaks p := fun i hi => absurd hi (Nat.not_lt_zero i)

/-- A run that changes the program comes before the streaks of what it makes of it. -/
theorem succ_mem_streaks :
    k + 1 ∈ pass.streaks p ↔ (pass.run p).changed = true ∧ k ∈ pass.streaks (pass.step p) := by
  constructor
  · intro h
    exact ⟨h 0 (Nat.succ_pos k), fun i hi => h (i + 1) (Nat.succ_lt_succ hi)⟩
  · rintro ⟨hchanged, h⟩ i hi
    cases i with
    | zero => exact hchanged
    | succ i => exact h i (Nat.lt_of_succ_lt_succ hi)

/-- A pass that changes nothing has no streak. -/
theorem eq_zero_of_unchanged (h : IsGreatest (pass.streaks p) k)
    (hchanged : (pass.run p).changed = false) : k = 0 := by
  cases k with
  | zero => rfl
  | succ k =>
    have hfirst := (succ_mem_streaks.1 h.1).1
    rw [hchanged] at hfirst
    cases hfirst

/-- Behind a round that changes something the streak is one shorter. -/
theorem exists_of_changed (h : IsGreatest (pass.streaks p) k)
    (hchanged : (pass.run p).changed = true) :
    ∃ m, k = m + 1 ∧ IsGreatest (pass.streaks (pass.step p)) m := by
  have hone : 1 ≤ k := h.2 (succ_mem_streaks.2 ⟨hchanged, zero_mem_streaks⟩)
  obtain ⟨m, rfl⟩ := Nat.exists_eq_add_of_le' hone
  refine ⟨m, rfl, (succ_mem_streaks.1 h.1).2, fun n hn => ?_⟩
  have hle := h.2 (succ_mem_streaks.2 ⟨hchanged, hn⟩)
  omega

end Pass

/-- Unflattening a program changes something only finitely often. -/
theorem exists_isGreatest_streaks (p : Program) : ∃ k, IsGreatest (unflattening.streaks p) k := by
  classical
  have hend := exists_unchanged p
  refine ⟨Nat.find hend, Pass.isGreatest_streaks (fun i hi => ?_) (Nat.find_spec hend)⟩
  exact Bool.eq_true_of_not_eq_false (Nat.find_min hend hi)

namespace RunState

variable {pass : Pass}

/-- One round of a stage, and the rest if the round changed something. -/
theorem repeatPass_succ (pass : Pass) (rounds : ℕ) (s : RunState) :
    (repeatPass pass (rounds + 1) s).1 =
      if (pass.run s.program).changed then
        (repeatPass pass rounds
          ⟨pass.step s.program, s.events ++ (pass.run s.program).events, s.iterations + 1⟩).1
      else ⟨pass.step s.program, s.events ++ (pass.run s.program).events, s.iterations + 1⟩ := by
  rw [repeatPass]
  split
  · rfl
  · rfl

/-- Rounds that were not made would have changed nothing. -/
theorem program_repeatPass (h : ∀ p, (pass.run p).Exact p) (rounds : ℕ) (s : RunState) :
    (repeatPass pass rounds s).1.program = pass.step^[rounds] s.program := by
  induction rounds generalizing s with
  | zero => rfl
  | succ rounds ih =>
    rw [repeatPass_succ]
    cases hchanged : (pass.run s.program).changed with
    | true => exact ih _
    | false =>
      have hfixed : pass.step s.program = s.program := (h s.program).program_eq hchanged
      rw [Function.iterate_fixed hfixed]
      exact hfixed

/-- A stage makes one round more than those that change something, if it may. -/
theorem iterations_repeatPass {s : RunState} {k : ℕ} (h : IsGreatest (pass.streaks s.program) k)
    (rounds : ℕ) :
    (repeatPass pass rounds s).1.iterations = s.iterations + min rounds (k + 1) := by
  induction rounds generalizing s k with
  | zero => rw [Nat.zero_min]; rfl
  | succ rounds ih =>
    rw [repeatPass_succ]
    cases hchanged : (pass.run s.program).changed with
    | true =>
      obtain ⟨m, rfl, hm⟩ := Pass.exists_of_changed h hchanged
      rw [if_pos rfl, ih hm]
      show s.iterations + 1 + min rounds (m + 1) = _
      omega
    | false =>
      obtain rfl := Pass.eq_zero_of_unchanged h hchanged
      show s.iterations + 1 = _
      omega

/-- Nothing is kept from a stage that is not shielded. -/
theorem runStage_open (hasTable : Bool) (pass : Pass) (rounds : ℕ) (s : RunState) :
    ∃ events, (runStage hasTable s ⟨pass, rounds, false⟩).program =
        (repeatPass pass rounds { s with events }).1.program ∧
      (runStage hasTable s ⟨pass, rounds, false⟩).iterations =
        (repeatPass pass rounds { s with events }).1.iterations :=
  ⟨s.events.record (passEvent pass .passStarted pass.description), rfl, rfl⟩

end RunState

/-- The stages of a run are told apart by the names of their passes. -/
theorem Settings.Runs.eq_of_name {settings : Settings} {stage stage' : Stage}
    (h : settings.Runs stage) (h' : settings.Runs stage')
    (hname : stage.pass.name = stage'.pass.name) : stage = stage' := by
  cases h <;> cases h' <;> first
    | rfl
    | simp [stringDecoding, StringDecoding.passName, dictionaryInlining,
        DictionaryInlining.passName, unflattening, Unflattening.passName, loopRebuilding,
        LoopRebuilding.passName] at hname

/-- Stopping after the first round that changes nothing makes no difference to the program, and the
rounds are those that change something and the one that does not. -/
theorem runStage_unflattening {settings : Settings} {stage : Stage}
    (hstage : stage ∈ settings.stages) (hname : stage.pass.name = Unflattening.passName)
    (hasTable : Bool) (s : RunState) :
    ∃ k, IsGreatest (unflattening.streaks s.program) k ∧
      (RunState.runStage hasTable s stage).program =
        unflattening.step^[settings.rounds] s.program ∧
      (RunState.runStage hasTable s stage).iterations =
        s.iterations + min settings.rounds (k + 1) := by
  obtain ⟨k, hk⟩ := exists_isGreatest_streaks s.program
  obtain rfl := (Settings.runs_of_mem_stages hstage).eq_of_name .unflatten hname
  obtain ⟨events, hprogram, hiterations⟩ :=
    RunState.runStage_open hasTable unflattening settings.rounds s
  rw [hprogram, hiterations]
  refine ⟨k, hk, ?_, ?_⟩
  · exact RunState.program_repeatPass unflattening_lowers.exact settings.rounds _
  · exact RunState.iterations_repeatPass (s := { s with events }) hk settings.rounds

def orderDeclaration (order : String) : Statement :=
  .declaration ⟨[⟨.identifier "order", some (.call (.member (.ofString order)
    (.identifier "split") false false) [.ofString "|"] false)⟩], .var⟩

def dispatcherLoop (cases : List (List Statement)) : Statement :=
  .whileLoop .this (.block [.switch (.identifier "next") (cases.map (Case.mk none))])

/-- A case of the outer dispatcher holds another one, and runs twice. -/
def nestedDispatchers : Program where
  body := [orderDeclaration "1|0|1", dispatcherLoop [[.debugger],
    [.block [orderDeclaration "1|0", dispatcherLoop [[.empty], [.returns none]]]]]]
  sourceType := .script

/-- One dispatcher inside of another takes two rounds, and a third one finds nothing. -/
theorem runStage_nestedDispatchers :
    ⟨unflattening, 4, false⟩ ∈ Settings.aggressive.stages ∧
      unflattening.name = Unflattening.passName ∧
      IsGreatest (unflattening.streaks nestedDispatchers) 2 ∧
      (RunState.runStage false { program := nestedDispatchers } ⟨unflattening, 4, false⟩).program =
        ⟨[.block [.returns none, .empty], .debugger, .block [.returns none, .empty]], .script⟩ ∧
      (RunState.runStage false { program := nestedDispatchers }
        ⟨unflattening, 4, false⟩).iterations = 3 := by
  have hstage : ⟨unflattening, 4, false⟩ ∈ Settings.aggressive.stages := by
    simp [Settings.stages, Settings.aggressive]
  have hgreatest : IsGreatest (unflattening.streaks nestedDispatchers) 2 := by
    refine Pass.isGreatest_streaks (Pass.succ_mem_streaks.2 ⟨rfl, ?_⟩) rfl
    exact Pass.succ_mem_streaks.2 ⟨rfl, Pass.zero_mem_streaks⟩
  obtain ⟨k, hk, hprogram, hiterations⟩ :=
    runStage_unflattening hstage rfl false { program := nestedDispatchers }
  obtain rfl := hk.unique hgreatest
  exact ⟨hstage, rfl, hgreatest, hprogram, hiterations⟩

end Untangle
