import Untangle.Engine.Run
import Untangle.Proofs.Pass.Changes

/-!
# The verdict of a run

A run says that it changed the program if it recorded a transformation. That is
so just when the program is another one in the end: every pass that changes the
program lowers its rank, and no pass raises it, so no pass brings back what an
earlier one has changed.
-/
namespace Untangle

/-- The outcomes of the pass are exact, and its changes lower the rank. -/
structure Pass.Lowers (pass : Pass) : Prop where
  exact : ∀ p, (pass.run p).Exact p
  rank_lt : ∀ {p}, (pass.run p).changed = true → (pass.run p).program.rank < p.rank

theorem stringDecoding_lowers (normalizing : Bool) : (stringDecoding normalizing).Lowers :=
  ⟨StringDecoding.run_exact normalizing, StringDecoding.rank_run_lt⟩

theorem dictionaryInlining_lowers : dictionaryInlining.Lowers :=
  ⟨DictionaryInlining.run_exact, DictionaryInlining.rank_run_lt⟩

theorem unflattening_lowers : unflattening.Lowers :=
  ⟨Unflattening.run_exact, Progress.rank_walk_lt Unflattening.upholds_descends⟩

theorem loopRebuilding_lowers : loopRebuilding.Lowers :=
  ⟨LoopRebuilding.run_exact, Progress.rank_walk_lt LoopRebuilding.upholds_descends⟩

/-- The stages that a run can have. -/
inductive Settings.Runs (settings : Settings) : Stage → Prop
  | strings : Runs settings ⟨stringDecoding settings.normalize, 1, false⟩
  | dictionaries : Runs settings ⟨dictionaryInlining, 1, true⟩
  | unflatten : Runs settings ⟨unflattening, settings.rounds, false⟩
  | loops : Runs settings ⟨loopRebuilding, 1, false⟩

/-- A run has no other stages than these. -/
theorem Settings.runs_of_mem_stages {settings : Settings} {stage : Stage}
    (h : stage ∈ settings.stages) : settings.Runs stage := by
  have hif : ∀ {b : Bool} {s : Stage}, stage ∈ (if b then [s] else []) → stage = s := by
    intro b s hmem
    split at hmem
    · exact List.mem_singleton.1 hmem
    · cases hmem
  simp only [stages, List.mem_append] at h
  rcases h with ((h | h) | h) | h
  · exact hif h ▸ .strings
  · exact hif h ▸ .dictionaries
  · exact hif h ▸ .unflatten
  · exact hif h ▸ .loops

/-- Every stage of a run lowers the rank if it changes something. -/
theorem Settings.lowers_of_mem_stages {settings : Settings} {stage : Stage}
    (h : stage ∈ settings.stages) : stage.pass.Lowers := by
  cases runs_of_mem_stages h with
  | strings => exact stringDecoding_lowers settings.normalize
  | dictionaries => exact dictionaryInlining_lowers
  | unflatten => exact unflattening_lowers
  | loops => exact loopRebuilding_lowers

namespace RunState

/-- From one state of a run to a later one: the program is the same and no transformation was
recorded, or its rank is smaller and one was. -/
inductive Leads (s t : RunState) : Prop
  | kept (hprogram : t.program = s.program)
    (hrecorded : t.events.transformations.length = s.events.transformations.length)
  | lowered (hrank : t.program.rank < s.program.rank)
    (hrecorded : s.events.transformations.length < t.events.transformations.length)

namespace Leads

theorem refl (s : RunState) : Leads s s := .kept rfl rfl

theorem trans {s t u : RunState} (h : Leads s t) (h' : Leads t u) : Leads s u := by
  cases h with
  | kept hp hr =>
    cases h' with
    | kept hp' hr' => exact .kept (hp'.trans hp) (hr'.trans hr)
    | lowered hp' hr' => exact .lowered (hp ▸ hp') (hr ▸ hr')
  | lowered hp hr =>
    cases h' with
    | kept hp' hr' => exact .lowered (hp' ▸ hp) (hr' ▸ hr)
    | lowered hp' hr' => exact .lowered (hp'.trans hp) (hr.trans hr')

theorem rank_le {s t : RunState} (h : Leads s t) : t.program.rank ≤ s.program.rank := by
  cases h with
  | kept hp _ => rw [hp]
  | lowered hp _ => exact hp.le

/-- A program that has come back was never left. -/
theorem program_eq {s t u : RunState} (h : Leads s t) (h' : Leads t u)
    (heq : u.program = s.program) : t.program = s.program := by
  cases h with
  | kept hp _ => exact hp
  | lowered hp _ =>
    have hlt : u.program.rank < s.program.rank := h'.rank_le.trans_lt hp
    rw [heq] at hlt
    exact absurd hlt (lt_irrefl _)

end Leads

theorem transformations_append (log log' : EventLog) :
    EventLog.transformations (log ++ log') = log.transformations ++ log'.transformations := by
  simp only [EventLog.transformations, List.filter_append]

/-- An event that is no transformation leaves the verdict as it is. -/
theorem leads_record (s : RunState) {e : Event} (h : e.kind.isTransformation = false) :
    Leads s { s with events := s.events.record e } := by
  refine .kept rfl ?_
  rw [EventLog.transformations_record, h]
  rfl

/-- One run of a pass. -/
theorem leads_run {pass : Pass} (h : pass.Lowers) (s : RunState) (n : Nat) :
    Leads s ⟨(pass.run s.program).program, s.events ++ (pass.run s.program).events, n⟩ := by
  have hexact := h.exact s.program
  have hpos := EventLog.transformations_length_pos (pass.run s.program).events
  have hlength := congrArg List.length
    (transformations_append s.events (pass.run s.program).events)
  rw [List.length_append] at hlength
  by_cases hchanged : (pass.run s.program).changed = true
  · have hrecorded := hpos.2 (hexact.recorded.1 hchanged)
    refine .lowered (h.rank_lt hchanged) ?_
    show _ < (EventLog.transformations (s.events ++ _)).length
    omega
  · have hprogram := hexact.program_eq (Bool.eq_false_of_not_eq_true hchanged)
    have hnone : ¬ 0 < (pass.run s.program).events.transformations.length :=
      fun hlt => hchanged (hexact.recorded.2 (hpos.1 hlt))
    refine .kept hprogram ?_
    show (EventLog.transformations (s.events ++ _)).length = _
    omega

/-- The rounds of a pass lead on. The induction is on the rounds that are left. -/
theorem leads_repeatPass {pass : Pass} (h : pass.Lowers) (rounds : Nat) (s : RunState) :
    Leads s (repeatPass pass rounds s).1 := by
  induction rounds generalizing s with
  | zero => exact .refl s
  | succ rounds ih =>
    have hrun := leads_run h s (s.iterations + 1)
    rw [repeatPass]
    by_cases hchanged : (pass.run s.program).changed = true
    · simp only [hchanged, if_true]
      exact hrun.trans (ih _)
    · simp only [hchanged]
      exact hrun

/-- The statements that are kept from a stage make no difference. -/
theorem leads_runBehind (kept : Nat) {stage : Stage} (h : stage.pass.Lowers) (s : RunState) :
    Leads s (runBehind kept stage s).1 := by
  let rest : RunState := { s with program := { s.program with body := s.program.body.drop kept } }
  have hbody : s.program.body.take kept ++ rest.program.body = s.program.body :=
    List.take_append_drop kept s.program.body
  cases leads_repeatPass h stage.rounds rest with
  | kept hprogram hrecorded =>
    refine .kept ?_ hrecorded
    show { (repeatPass stage.pass stage.rounds rest).1.program with
      body := s.program.body.take kept ++
        (repeatPass stage.pass stage.rounds rest).1.program.body } = s.program
    rw [hprogram, hbody]
  | lowered hrank hrecorded =>
    refine .lowered ?_ hrecorded
    have hwhole := rank_statementsDiagram_append (s.program.body.take kept) rest.program.body
    rw [hbody] at hwhole
    show (statementsDiagram (s.program.body.take kept ++
        (repeatPass stage.pass stage.rounds rest).1.program.body)).rank <
      (statementsDiagram s.program.body).rank
    rw [hwhole, rank_statementsDiagram_append]
    exact add_lt_add_of_le_of_lt le_rfl hrank

/-- A stage leads on, with its pass behind the prologue or not. -/
theorem leads_runStage (hasTable : Bool) {stage : Stage} (h : stage.pass.Lowers) (s : RunState) :
    Leads s (runStage hasTable s stage) := by
  let started := passEvent stage.pass .passStarted stage.pass.description
  have hstarted : Leads s { s with events := s.events.record started } := leads_record s rfl
  exact (hstarted.trans (leads_runBehind _ h _)).trans (leads_record _ rfl)

/-- The stages lead on, one after the other. -/
theorem leads_foldl (hasTable : Bool) {stages : List Stage}
    (h : ∀ stage ∈ stages, stage.pass.Lowers) (s : RunState) :
    Leads s (stages.foldl (runStage hasTable) s) := by
  induction stages generalizing s with
  | nil => exact .refl s
  | cons stage rest ih =>
    obtain ⟨hstage, hrest⟩ := List.forall_mem_cons.1 h
    exact (leads_runStage hasTable hstage s).trans (ih hrest _)

end RunState

/-- The verdict goes by the transformations in the log. -/
theorem RunResult.changed_iff (r : RunResult) :
    r.changed = true ↔ 0 < r.events.transformations.length := by
  simp [changed, List.length_pos_iff]

/-- A run after its first stages. -/
def stateAfter (settings : Settings) (p : Program) (n : Nat) : RunState :=
  (settings.stages.take n).foldl (RunState.runStage (detect p).hasStringTable) { program := p }

theorem stateAfter_length (settings : Settings) (p : Program) :
    stateAfter settings p settings.stages.length =
      ⟨(deobfuscate settings p).program, (deobfuscate settings p).events,
        (deobfuscate settings p).iterations⟩ := by
  rw [stateAfter, List.take_length]
  rfl

/-- A run leads from each of its states to the later ones. -/
theorem leads_stateAfter (settings : Settings) (p : Program) (n m : Nat) :
    (stateAfter settings p n).Leads (stateAfter settings p (n + m)) := by
  have hsplit : settings.stages.take (n + m) =
      settings.stages.take n ++ (settings.stages.drop n).take m := List.take_add
  rw [stateAfter, stateAfter, hsplit, List.foldl_append]
  apply RunState.leads_foldl
  intro stage hstage
  exact Settings.lowers_of_mem_stages (List.mem_of_mem_drop (List.mem_of_mem_take hstage))

/-- A run says that it changed the program just when it did. If the program is the same before some
stages and after them, then none of these stages changed it. -/
theorem deobfuscate_changed_iff (settings : Settings) (p : Program) :
    ((deobfuscate settings p).changed = true ↔ (deobfuscate settings p).program ≠ p) ∧
      ∀ n m k, (stateAfter settings p (n + m + k)).program = (stateAfter settings p n).program ↔
        (stateAfter settings p (n + m)).program = (stateAfter settings p n).program ∧
        (stateAfter settings p (n + m + k)).program = (stateAfter settings p (n + m)).program := by
  constructor
  · have hrun := leads_stateAfter settings p 0 settings.stages.length
    rw [Nat.zero_add, stateAfter_length] at hrun
    rw [RunResult.changed_iff]
    cases hrun with
    | kept hprogram hrecorded =>
      have hnone : ¬ 0 < (deobfuscate settings p).events.transformations.length :=
        Nat.not_lt.2 (Nat.le_of_eq hrecorded)
      exact ⟨fun hpos => absurd hpos hnone, fun hne => absurd hprogram hne⟩
    | lowered hrank hrecorded =>
      refine ⟨fun _ heq => ?_, fun _ => hrecorded⟩
      have hlt : (deobfuscate settings p).program.rank < p.rank := hrank
      rw [heq] at hlt
      exact lt_irrefl _ hlt
  · intro n m k
    have hfirst := leads_stateAfter settings p n m
    have hsecond := leads_stateAfter settings p (n + m) k
    constructor
    · intro heq
      have hback := hfirst.program_eq hsecond heq
      exact ⟨hback, heq.trans hback.symm⟩
    · rintro ⟨hback, heq⟩
      exact heq.trans hback

end Untangle
