import Untangle.Proofs.Engine.Rounds
import Untangle.Proofs.Pass.Composition
import Untangle.Proofs.Pass.Prologue

/-!
# The prologue in a run

A prologue that a program starts with is there after every stage. So the stage
that inlines dictionaries always finds it, and keeps its first two statements
as they are. The others do not notice: they become what they would become if
the pass saw the whole program.
-/
namespace Untangle

variable {prologue : Prologue} {settings : Settings} {p : Program}

theorem hasStringTable_detect (h : Prologue.find? p.body = some prologue) :
    (detect p).hasStringTable = true := by
  simp [Detection.hasStringTable, detect, h, Detection.ofPrologue, Evidence.isStringTable]

theorem Prologue.Opens.exists_eq_cons {body : List Statement} (h : prologue.Opens body) :
    ∃ table rotate rest, body = table :: rotate :: rest := by
  obtain ⟨-, -⟩ := h
  exact ⟨_, _, _, rfl⟩

namespace RunState

/-- What a shielded stage is kept from stands in front again afterwards. -/
theorem program_runStage_shielded (pass : Pass) (rounds : ℕ) (s : RunState) :
    ∃ events, (runStage true s ⟨pass, rounds, true⟩).program =
      let behind := (repeatPass pass rounds
        { s with program := { s.program with body := s.program.body.drop 2 }, events }).1.program
      { behind with body := s.program.body.take 2 ++ behind.body } :=
  ⟨s.events.record (passEvent pass .passStarted pass.description), rfl⟩

/-- The rounds of a pass keep the prologue if one of them does. -/
theorem opens_repeatPass {pass : Pass} {front : List Statement} (h : pass.KeepsPrologue front)
    (rounds : ℕ) {s : RunState} (hs : prologue.Opens (front ++ s.program.body)) :
    prologue.Opens (front ++ (repeatPass pass rounds s).1.program.body) := by
  induction rounds generalizing s with
  | zero => exact hs
  | succ rounds ih =>
    rw [repeatPass_succ]
    split
    · exact ih (h hs)
    · exact h hs

/-- A stage that sees the whole program keeps the prologue. -/
theorem opens_runStage_open {pass : Pass} (h : pass.KeepsPrologue []) (hasTable : Bool)
    (rounds : ℕ) {s : RunState} (hs : prologue.Opens s.program.body) :
    prologue.Opens (runStage hasTable s ⟨pass, rounds, false⟩).program.body := by
  obtain ⟨events, hprogram, -⟩ := runStage_open hasTable pass rounds s
  rw [hprogram]
  exact opens_repeatPass h rounds (s := { s with events }) hs

/-- A stage that runs behind the prologue keeps it. -/
theorem opens_runStage_shielded {pass : Pass}
    (h : ∀ table rotate, pass.KeepsPrologue [table, rotate]) (rounds : ℕ) {s : RunState}
    (hs : prologue.Opens s.program.body) :
    prologue.Opens (runStage true s ⟨pass, rounds, true⟩).program.body := by
  obtain ⟨table, rotate, rest, hbody⟩ := hs.exists_eq_cons
  obtain ⟨events, hprogram⟩ := program_runStage_shielded pass rounds s
  rw [hbody] at hs hprogram
  rw [hprogram]
  exact opens_repeatPass (h table rotate) rounds
    (s := { s with program := { s.program with body := rest }, events }) hs

/-- No stage of a run touches what the prologue is read off. -/
theorem opens_runStage {stage : Stage} (h : settings.Runs stage) {s : RunState}
    (hs : prologue.Opens s.program.body) : prologue.Opens (runStage true s stage).program.body := by
  cases h with
  | strings => exact opens_runStage_open (stringDecoding_keepsPrologue settings.normalize) _ _ hs
  | dictionaries => exact opens_runStage_shielded dictionaryInlining_keepsPrologue _ hs
  | unflatten => exact opens_runStage_open unflattening_keepsPrologue _ _ hs
  | loops => exact opens_runStage_open loopRebuilding_keepsPrologue _ _ hs

end RunState

theorem stateAfter_succ {stage : Stage} {n : ℕ} (h : settings.stages[n]? = some stage) :
    stateAfter settings p (n + 1) =
      RunState.runStage (detect p).hasStringTable (stateAfter settings p n) stage := by
  rw [stateAfter, List.take_add_one, h, List.foldl_append]
  rfl

theorem stateAfter_succ_of_le {n : ℕ} (h : settings.stages.length ≤ n) :
    stateAfter settings p (n + 1) = stateAfter settings p n := by
  rw [stateAfter, stateAfter, List.take_of_length_le h, List.take_of_length_le (by omega)]

/-- The prologue is there after every stage. The induction is on the stages. -/
theorem opens_stateAfter (settings : Settings) (h : Prologue.find? p.body = some prologue) (n : ℕ) :
    prologue.Opens (stateAfter settings p n).program.body := by
  induction n with
  | zero => exact Prologue.find?_eq_some.1 h
  | succ n ih =>
    cases hstage : settings.stages[n]? with
    | none => rwa [stateAfter_succ_of_le (List.getElem?_eq_none_iff.1 hstage)]
    | some stage =>
      rw [stateAfter_succ hstage, hasStringTable_detect h]
      exact RunState.opens_runStage (Settings.runs_of_mem_stages (List.mem_of_getElem? hstage)) ih

/-- A run leaves the prologue of a program. -/
theorem find?_deobfuscate (settings : Settings) (p : Program) {prologue : Prologue}
    (h : Prologue.find? p.body = some prologue) :
    Prologue.find? (deobfuscate settings p).program.body = some prologue := by
  have hopens := opens_stateAfter settings h settings.stages.length
  rw [stateAfter_length] at hopens
  exact Prologue.find?_eq_some.2 hopens

/-- A function that takes what it returns from a dictionary. -/
def keyedFunction : Expression :=
  .function ⟨none, [], [.declaration ⟨[⟨.identifier "entries", some (.object
      [.property (.identifier "first") (.ofString "a") .init false false false])⟩], .var⟩,
    .returns (some (.member (.identifier "entries") (.identifier "first") false false))],
    false, false⟩

def plainFunction : Expression :=
  .function ⟨none, [], [.returns (some (.ofString "a"))], false, false⟩

def tableStatements : List Statement :=
  [.declaration ⟨[⟨.identifier "table", some (.array [some (.ofString "YQ=="),
      some (.ofString "Yg==")])⟩], .var⟩,
    .expression (.call keyedFunction [.identifier "table", .ofString "1"] false) none]

/-- Every pass has something to change behind the table. -/
def tableProgram : Program where
  body := tableStatements ++
    [.declaration ⟨[⟨.identifier "decoder", some keyedFunction⟩], .var⟩,
      .expression (.call (.identifier "decoder") [.ofString "0"] false) none,
      .block [orderDeclaration "0", dispatcherLoop [[.debugger]]],
      .whileLoop (.ofString "endless") (.block [.branch .this (.breaks none) none])]
  sourceType := .script

theorem find?_tableProgram :
    Prologue.find? tableProgram.body = some ⟨"table", ["YQ==", "Yg=="], 1, "decoder"⟩ := by
  decide +kernel

/-- All four passes change the program, and the prologue is still found. -/
theorem find?_deobfuscate_tableProgram :
    Prologue.find? tableProgram.body = some ⟨"table", ["YQ==", "Yg=="], 1, "decoder"⟩ ∧
      (deobfuscate .aggressive tableProgram).events.transformations.map Event.kind =
        [.stringDecoded, .dictionaryRemoved, .constantInlined, .controlFlowRestructured,
          .loopReconstructed] ∧
      Prologue.find? (deobfuscate .aggressive tableProgram).program.body =
        some ⟨"table", ["YQ==", "Yg=="], 1, "decoder"⟩ := by
  refine ⟨find?_tableProgram, ?_, find?_deobfuscate .aggressive tableProgram find?_tableProgram⟩
  decide +kernel

/-- The pass sees the statements behind the prologue only, but makes of them what it would if it saw
the whole program, since it treats the parts of a program apart. -/
theorem shielded_stage_distributes :
    dictionaryInlining.Distributes ∧ loopRebuilding.Distributes ∧
      ∀ (settings : Settings) (p : Program) (prologue : Prologue) (n : ℕ) (stage : Stage),
        Prologue.find? p.body = some prologue → settings.stages[n]? = some stage →
        stage.pass.name = DictionaryInlining.passName →
        (stateAfter settings p (n + 1)).program.body =
          (stateAfter settings p n).program.body.take 2 ++
            (dictionaryInlining.run (stateAfter settings p n).program).program.body.drop 2 := by
  refine ⟨dictionaryInlining_distributes, loopRebuilding_distributes, ?_⟩
  intro settings p prologue n stage hfind hstage hname
  rw [stateAfter_succ hstage, hasStringTable_detect hfind]
  have hruns := Settings.runs_of_mem_stages (List.mem_of_getElem? hstage)
  obtain rfl := hruns.eq_of_name .dictionaries hname
  obtain ⟨events, hprogram⟩ :=
    RunState.program_runStage_shielded dictionaryInlining 1 (stateAfter settings p n)
  obtain ⟨table, rotate, rest, hbody⟩ := (opens_stateAfter settings hfind n).exists_eq_cons
  have htwo : 2 ≤ (stateAfter settings p n).program.body.length := by
    rw [hbody, List.length_cons, List.length_cons]
    omega
  rw [hprogram, RunState.program_repeatPass dictionaryInlining_lowers.exact]
  exact congrArg _ (DictionaryInlining.drop_body_run htwo).symm

/-- The function that rotates the table keeps its dictionary, the decoder does not. -/
theorem shielded_tableProgram :
    Prologue.find? tableProgram.body = some ⟨"table", ["YQ==", "Yg=="], 1, "decoder"⟩ ∧
      ({ strings := false } : Settings).stages[0]? = some ⟨dictionaryInlining, 1, true⟩ ∧
      dictionaryInlining.name = DictionaryInlining.passName ∧
      (stateAfter { strings := false } tableProgram 1).program.body = tableStatements ++
        .declaration ⟨[⟨.identifier "decoder", some plainFunction⟩], .var⟩ ::
          tableProgram.body.drop 3 ∧
      (dictionaryInlining.run tableProgram).program.body[1]? = some
        (.expression (.call plainFunction [.identifier "table", .ofString "1"] false) none) := by
  have hshielded := shielded_stage_distributes.2.2 { strings := false } tableProgram _ 0
    ⟨dictionaryInlining, 1, true⟩ find?_tableProgram rfl rfl
  exact ⟨find?_tableProgram, rfl, rfl, hshielded, rfl⟩

end Untangle
