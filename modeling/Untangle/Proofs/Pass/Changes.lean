import Untangle.Proofs.Pass.Descent
import Untangle.Proofs.Walk.State

/-!
# What the passes count

Every pass says that it changed the program just when it did. What it does not
count stays as it was, and what it counts lowers the rank, which the outline
tells. And whatever is counted is recorded as a transformation.
-/
namespace Untangle

/-- A program that has become another one, with what was counted and recorded on the way. -/
theorem Outcome.exact_of_descends {σ : Type} {count : σ → ℕ} {p : Program}
    {body : List Statement} {s t : σ} {u : Progress}
    (h : Descends count p.diagram (blockDiagram body) s t) (hs : count s = 0)
    (ht : count t = u.changes) (hbalanced : u.Balanced) :
    Exact ⟨{ p with body }, u.events, u.changes > 0⟩ p := by
  refine exact_of_balanced hbalanced (fun hcount => ?_) (fun hcounted => ?_)
  · cases h with
    | level _ hkept => exact (Diagram.block.inj hkept).1
    | down hcounted _ _ => omega
  · cases h with
    | level hcount _ => omega
    | down _ hrank _ => exact Program.outline_ne_of_rank hrank.ne

namespace Progress

variable {v : Visitor Progress}

/-- A visitor that enters and leaves functions only to keep track of them is in balance if its other
calls are. -/
theorem respects_balanced_of_scope (hf : v.enterFunction = scopeVisitor.enterFunction)
    (hl : v.leaveFunction = scopeVisitor.leaveFunction)
    (henter : ∀ body s, Balanced s → Balanced ((v.enterStatements body).run s).2)
    (hleave : ∀ body s, Balanced s → Balanced ((v.leaveStatements body).run s).2)
    (hexpression : ∀ e s, Balanced s → Balanced ((v.leaveExpression e).run s).2) :
    v.Respects fun s t => s.Balanced → t.Balanced where
  refl _ := id
  trans h h' := h' ∘ h
  enterStatements := henter
  leaveStatements := hleave
  leaveExpression := hexpression
  function params body s t h hs := by
    rw [hf] at h
    rw [hl]
    exact h hs

/-- A walk is exact that lowers the rank with every change and keeps its state in balance. -/
theorem walk_exact (h : v.Upholds (Descends changes))
    (hbalanced : v.Respects fun s t => s.Balanced → t.Balanced) (p : Program) :
    (walk v p).Exact p :=
  Outcome.exact_of_descends (h.carries_program p {}) rfl rfl (hbalanced.keeps_program p {} rfl)

end Progress

namespace Unflattening

theorem respects_balanced : visitor.Respects fun s t => s.Balanced → t.Balanced := by
  refine Progress.respects_balanced_of_scope rfl rfl ?_ (fun _ _ => id) (fun _ _ => id)
  intro body s hs
  change Progress.Balanced ((enterStatements body).run s).2
  unfold enterStatements
  cases Dispatcher.flattened? body with
  | none => exact hs
  | some f => exact (hs.record rfl).change rfl

/-- Unflattening says that it changed the program just when it did. -/
theorem run_exact (p : Program) : (run p).Exact p :=
  Progress.walk_exact upholds_descends respects_balanced p

end Unflattening

namespace LoopRebuilding

theorem balanced_rebuild (location : Nat) (body : List Statement) {s : Progress}
    (hs : s.Balanced) : ((rebuild location body).run s).2.Balanced := by
  induction body generalizing location s with
  | nil => exact hs
  | cons first rest ih =>
    unfold rebuild
    split
    · exact ih (location + 1) hs
    · exact ih (location + 1) (hs.record rfl)
    · split
      · exact ih _ (hs.change rfl)
      · exact ih (location + 1) hs

/-- Rebuilding loops says that it changed the program just when it did. -/
theorem run_exact (p : Program) : (run p).Exact p :=
  Progress.walk_exact upholds_descends (Progress.respects_balanced_of_scope rfl rfl (fun _ _ => id)
    (fun body _ => balanced_rebuild 0 body) (fun _ _ => id)) p

end LoopRebuilding

namespace StringDecoding

theorem balanced_leaveExpression (prologue : Prologue) (table : StringTable) (normalizing : Bool)
    (e : Expression) (s : Progress) (hs : s.Balanced) :
    ((leaveExpression prologue table normalizing e).run s).2.Balanced := by
  rcases leaves prologue table normalizing e s with hkept | ⟨-, kind, message, hkind, hcounted⟩
  · rw [hkept]
    exact hs
  · rw [hcounted]
    exact hs.change hkind

/-- Decoding strings says that it changed the program just when it did. -/
theorem run_exact (normalizing : Bool) (p : Program) : (run normalizing p).Exact p := by
  unfold run
  cases Prologue.find? p.body with
  | none => exact ⟨by simp, by simp, by simp⟩
  | some prologue =>
    have hbalanced := Progress.respects_balanced_of_scope
      (v := visitor prologue prologue.decode normalizing) rfl rfl (fun _ _ => id) (fun _ _ => id)
      (balanced_leaveExpression prologue prologue.decode normalizing)
    obtain ⟨hdiffers, hreshaped, hrecorded⟩ :=
      Progress.walk_exact (upholds_descends prologue prologue.decode normalizing) hbalanced p
    have hkind : (identified prologue prologue.decode).kind.isTransformation = false := rfl
    refine ⟨hdiffers, hreshaped, hrecorded.trans ?_⟩
    simp [hkind]

end StringDecoding

/-- Inlining dictionaries says that it changed the program just when it did. -/
theorem DictionaryInlining.run_exact (p : Program) : (run p).Exact p := by
  have hsettles := upholds_settles.carries_program p {}
  have hplain : Plain ({} : State).frames := by simp [Plain]
  exact Outcome.exact_of_descends (hsettles.descends hplain) rfl rfl
    (hsettles.advances.balanced rfl)

/-- The outcome of every pass is exact. -/
theorem passes_exact (p : Program) :
    (∀ normalizing, ((stringDecoding normalizing).run p).Exact p) ∧
      (dictionaryInlining.run p).Exact p ∧ (unflattening.run p).Exact p ∧
      (loopRebuilding.run p).Exact p :=
  ⟨fun normalizing => StringDecoding.run_exact normalizing p, DictionaryInlining.run_exact p,
    Unflattening.run_exact p, LoopRebuilding.run_exact p⟩

end Untangle
