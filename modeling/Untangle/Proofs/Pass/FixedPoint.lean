import Untangle.Proofs.Pass.Changes
import Untangle.Proofs.Syntax.Depth

/-!
# Unflattening comes to an end

Runs of the pass can be repeated only so often until one of them changes
nothing. A run may repeat the cases of a dispatcher any number of times, so the
program may grow; but its rank gets smaller with every change. And no run makes
the program deeper, since all that is left of a dispatcher was inside of it, so
the rank cannot get smaller for ever.
-/
namespace Untangle

namespace Dispatcher

theorem depth_case_le {c : Case} {cases : List Case} (h : c ∈ cases) :
    (statementsDiagram c.consequent).depth ≤ (casesDiagram cases).depth := by
  induction cases with
  | nil => cases h
  | cons first rest ih =>
    obtain ⟨test, consequent⟩ := first
    have hcons : (casesDiagram (⟨test, consequent⟩ :: rest)).depth =
        max (max (optionDiagram test).depth (max (statementsDiagram consequent).depth 0))
          (casesDiagram rest).depth := rfl
    rcases List.mem_cons.1 h with rfl | hmem
    · change (statementsDiagram consequent).depth ≤ _
      omega
    · have hrest := ih hmem
      omega

/-- The cases of a dispatcher are not deeper than its loop. -/
theorem depth_le_of_cases? {s : Statement} {cases : List Case} (h : cases? s = some cases) :
    (casesDiagram cases).depth ≤ s.diagram.depth := by
  unfold cases? at h
  split at h
  · next test discriminant _ more =>
    cases h
    have hloop :
        (Statement.whileLoop test (.block (.switch discriminant cases :: more))).diagram.depth =
          max test.diagram.depth (max (max (max (max discriminant.diagram.depth
            (casesDiagram cases).depth) (statementsDiagram more).depth) 0) 0) := rfl
    omega
  · next test discriminant _ =>
    cases h
    have hloop : (Statement.whileLoop test (.switch discriminant cases)).diagram.depth =
        max test.diagram.depth
          (max (max discriminant.diagram.depth (casesDiagram cases).depth) 0) := rfl
    omega
  · cases h

/-- The merged cases are not deeper than the list that they replace. -/
theorem depth_merged_le {body : List Statement} {f : Flattened} (h : flattened? body = some f) :
    (statementsDiagram f.merged).depth ≤ (statementsDiagram body).depth := by
  obtain ⟨loop, hloop, hcases, hmerged⟩ := exists_of_flattened? h
  apply depth_statementsDiagram_le
  intro t ht
  obtain ⟨c, hc, htc⟩ := hmerged t ht
  calc t.diagram.depth
    _ ≤ (statementsDiagram c.consequent).depth := depth_le_of_mem htc
    _ ≤ (casesDiagram f.cases).depth := depth_case_le hc
    _ ≤ loop.diagram.depth := depth_le_of_cases? hcases
    _ ≤ (statementsDiagram body).depth := depth_le_of_mem hloop

end Dispatcher

section Shallower

variable {σ : Type} {d d' : Diagram} {s t : σ}

/-- Nothing gets deeper, whatever the states. -/
def Shallower (d d' : Diagram) (_ _ : σ) : Prop := d'.depth ≤ d.depth

theorem Shallower.parts (h : Diagram.InTurn Shallower d d' s t) : Shallower d d' s t := by
  induction h with
  | nothing s => exact le_rfl
  | pair first rest ih => exact max_le_max first ih

end Shallower

namespace Unflattening

/-- No call of the pass makes anything deeper. -/
theorem upholds_shallower : visitor.Upholds Shallower where
  nothing _ := le_rfl
  passed _ _ := le_rfl
  clause := by
    intro root a a' s t hparts
    have hinside := Shallower.parts hparts
    exact hinside
  statement := by
    intro root a a' s t hparts
    have hinside := Shallower.parts hparts
    exact hinside
  expression := by
    intro e root a a' s t he hparts
    show e.diagram.depth ≤ _
    rw [he]
    exact Nat.succ_le_succ (Shallower.parts hparts)
  settle := by
    intro body body' s t henter
    change (enterStatements body).run s = _ at henter
    unfold enterStatements at henter
    split at henter
    · cases henter
    · next f hf =>
      cases henter
      exact Dispatcher.depth_merged_le hf
  descend := by
    intro body body' s t u _ hparts
    have hinside := Shallower.parts hparts
    exact hinside
  function := by
    intro params params' body body' cut s t u w henter hparams hbody
    cases henter
    exact Nat.succ_le_succ (max_le_max (Shallower.parts hparams) hbody)
  concise _ hparams hbody := Nat.succ_le_succ (max_le_max (Shallower.parts hparams) hbody)

theorem depth_run_le (p : Program) : (run p).program.diagram.depth ≤ p.diagram.depth :=
  upholds_shallower.carries_program p {}

/-- A run that changes the program lowers its rank. -/
theorem rank_run_lt {p : Program} (h : (run p).changed = true) :
    (run p).program.rank < p.rank :=
  Progress.rank_walk_lt upholds_descends h

/-- A run that changes `p` makes `q` of it. -/
def Follows (q p : Program) : Prop := (run p).changed = true ∧ (run p).program = q

/-- Among programs of a bounded depth the ranks are well-founded. -/
theorem acc_of_depth_le {n : ℕ} {p : Program} (h : p.diagram.depth ≤ n) : Acc Follows p := by
  have hshallow : ∀ q : Program, q.diagram.depth ≤ n → q.rank ∈ Rank.shallow n :=
    fun q hq => Rank.shallow_mono hq q.diagram.rank_mem_shallow
  have hacc : ∀ r ∈ Rank.shallow n, ∀ q : Program, q.diagram.depth ≤ n → q.rank = r →
      Acc Follows q := by
    intro r hr
    apply (Rank.wellFoundedOn_shallow n).induction hr
    rintro _ _ ih q hq rfl
    constructor
    rintro _ ⟨hchanged, rfl⟩
    have hdepth : (run q).program.diagram.depth ≤ n := (depth_run_le q).trans hq
    exact ih _ (hshallow _ hdepth) (rank_run_lt hchanged) _ hdepth rfl
  exact hacc p.rank (hshallow p h) p h rfl

/-- Runs that change the program do not follow each other for ever. -/
theorem wellFounded_follows : WellFounded Follows := ⟨fun _ => acc_of_depth_le le_rfl⟩

end Unflattening

namespace Pass

def step (pass : Pass) (p : Program) : Program := (pass.run p).program

/-- The numbers of runs, one after the other and each on what the one before it left, that all
change the program. -/
def streaks (pass : Pass) (p : Program) : Set ℕ :=
  {k | ∀ i < k, (pass.run (pass.step^[i] p)).changed = true}

end Pass

/-- After some runs there is one that changes nothing. -/
theorem exists_unchanged (p : Program) :
    ∃ k, (unflattening.run (unflattening.step^[k] p)).changed = false := by
  induction p using Unflattening.wellFounded_follows.induction with
  | h p ih =>
    cases hchanged : (unflattening.run p).changed with
    | false => exact ⟨0, hchanged⟩
    | true =>
      obtain ⟨k, hk⟩ := ih (unflattening.step p) ⟨hchanged, rfl⟩
      exact ⟨k + 1, hk⟩

/-- Repeated runs come to a program that the next run leaves as it is, and so no sequence of
programs, each made of the one before by a run that changes it, goes on for ever. -/
theorem unflattening_reaches_fixedPoint :
    (∀ p, ∃ k, (unflattening.run (unflattening.step^[k] p)).changed = false ∧
      (unflattening.run (unflattening.step^[k] p)).program = unflattening.step^[k] p) ∧
    ¬ ∃ ps : ℕ → Program, ∀ i, (unflattening.run (ps i)).changed = true ∧
      (unflattening.run (ps i)).program = ps (i + 1) := by
  constructor
  · intro p
    obtain ⟨k, hk⟩ := exists_unchanged p
    exact ⟨k, hk, (Unflattening.run_exact _).program_eq hk⟩
  · rintro ⟨ps, hps⟩
    have hchain := wellFounded_iff_isEmpty_descending_chain.1 Unflattening.wellFounded_follows
    exact hchain.false ⟨ps, hps⟩

end Untangle
