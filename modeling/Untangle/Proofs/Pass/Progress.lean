import Untangle.Pass.Basic
import Untangle.Proofs.Syntax.Outline

/-!
# Exact outcomes

The outcome of a pass is exact if it says that the program changed just when it
did, and has recorded a transformation just when it did. Changes are counted and
transformations are recorded along the walk; the two have to be in balance.
-/
namespace Untangle

/-- The program changed, in its outline and not only in names and values, just when the outcome says
so, and just when a transformation was recorded. -/
structure Outcome.Exact (o : Outcome) (p : Program) : Prop where
  differs : o.changed = true ↔ o.program ≠ p
  reshaped : o.changed = true ↔ o.program.outline ≠ p.outline
  recorded : o.changed = true ↔ ∃ e ∈ o.events, e.kind.isTransformation = true

/-- An outcome that reports no change has the program it was given. -/
theorem Outcome.Exact.program_eq {o : Outcome} {p : Program} (h : o.Exact p)
    (hchanged : o.changed = false) : o.program = p := by
  apply Classical.byContradiction
  intro hne
  have hdiffers := h.differs.2 hne
  rw [hchanged] at hdiffers
  cases hdiffers

namespace EventLog

theorem transformations_record (log : EventLog) (e : Event) :
    (log.record e).transformations.length =
      log.transformations.length + if e.kind.isTransformation then 1 else 0 := by
  cases h : e.kind.isTransformation <;> simp [record, transformations, h]

theorem transformations_length_pos (log : EventLog) :
    0 < log.transformations.length ↔ ∃ e ∈ log, e.kind.isTransformation = true := by
  simp [transformations, List.length_pos_iff_exists_mem]

end EventLog

namespace Progress

/-- As many transformations are recorded as changes were counted. -/
def Balanced (s : Progress) : Prop := s.changes = s.events.transformations.length

variable {s : Progress} {pass message : String} {kind : EventKind} {location : Option Nat}

theorem Balanced.record (h : s.Balanced) (hk : kind.isTransformation = false) :
    (s.record pass kind location message).Balanced := by
  simp only [Balanced, Progress.record, EventLog.transformations_record, hk] at h ⊢
  exact h

/-- A transformation and a change go together. -/
theorem Balanced.change (h : s.Balanced) (hk : kind.isTransformation = true) :
    (s.record pass kind location message).change.Balanced := by
  simp only [Balanced, Progress.change, Progress.record, EventLog.transformations_record, hk] at h ⊢
  rw [h]
  rfl

end Progress

/-- What is asked of the state at the end of a walk. -/
theorem Outcome.exact_of_balanced {p : Program} {body : List Statement} {s : Progress}
    (hbalanced : s.Balanced) (hkept : s.changes = 0 → body = p.body)
    (haltered : 0 < s.changes → ({ p with body } : Program).outline ≠ p.outline) :
    Exact ⟨{ p with body }, s.events, s.changes > 0⟩ p := by
  have hcounted : body ≠ p.body → 0 < s.changes := by
    intro hne
    apply Nat.pos_of_ne_zero
    intro hc
    exact hne (hkept hc)
  have hchanged : decide (s.changes > 0) = true ↔ 0 < s.changes := decide_eq_true_iff
  refine ⟨hchanged.trans ⟨?_, ?_⟩, hchanged.trans ⟨haltered, ?_⟩, hchanged.trans ?_⟩
  · intro hc he
    exact haltered hc (congrArg Program.outline he)
  · intro hne
    apply hcounted
    rintro rfl
    exact hne rfl
  · intro hne
    apply hcounted
    rintro rfl
    exact hne rfl
  · rw [hbalanced]
    exact EventLog.transformations_length_pos s.events

end Untangle
