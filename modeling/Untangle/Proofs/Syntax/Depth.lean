import Mathlib.Data.Finsupp.WellFounded
import Mathlib.Order.WellFoundedSet
import Untangle.Proofs.Syntax.Rank

/-!
# Depths of trees

The outer levels of a rank decide before the inner ones, so a rank can get
smaller for ever if there are always new levels further inside. It cannot if
the depth of the trees is bounded: then only the levels down to that depth
count, and there are finitely many of them.
-/
namespace Untangle

namespace Rank

def shallow (depth : ℕ) : Set Rank := {r | ∀ level, depth < level → ofLex r level = 0}

theorem shallow_mono {m n : ℕ} (h : m ≤ n) : shallow m ⊆ shallow n :=
  fun _ hr level hlevel => hr level (Nat.lt_of_le_of_lt h hlevel)

theorem level_inside (r : Rank) (level : ℕ) : ofLex r.inside (level + 1) = ofLex r level := rfl

theorem level_unit {height level : ℕ} (h : 0 < level) : ofLex (unit height) level = 0 := by
  rw [unit, ofLex_toLex]
  exact Pi.single_eq_of_ne (Nat.ne_of_gt h) _

def levels (depth : ℕ) (r : Rank) : Lex (Fin (depth + 1) → Colex (ℕ →₀ ℕ)) :=
  toLex fun level => ofLex r level

/-- Ranks without anything below a depth are compared by the levels down to it. -/
theorem levels_lt {depth : ℕ} {r s : Rank} (hr : r ∈ shallow depth) (hs : s ∈ shallow depth)
    (h : r < s) : levels depth r < levels depth s := by
  obtain ⟨level, heq, hlt⟩ := h
  have hlevel : level < depth + 1 := by
    by_contra hdeep
    have hbelow : depth < level := by omega
    have hzero : ofLex r level = ofLex s level := (hr level hbelow).trans (hs level hbelow).symm
    exact absurd hzero hlt.ne
  exact ⟨⟨level, hlevel⟩, fun outer houter => heq outer houter, hlt⟩

/-- Ranks of a bounded depth do not get smaller for ever. -/
theorem wellFoundedOn_shallow (depth : ℕ) : (shallow depth).WellFoundedOn (· < ·) := by
  have hlevels : WellFounded fun r s : Rank => levels depth r < levels depth s :=
    InvImage.wf (levels depth) wellFounded_lt
  apply Set.wellFoundedOn_iff.2
  exact Subrelation.wf (fun ⟨hlt, hr, hs⟩ => levels_lt hr hs hlt) hlevels

end Rank

namespace Diagram

/-- The innermost level of a tree. -/
def depth : Diagram → ℕ
  | nothing | passed _ => 0
  | pair first rest => max first.depth rest.depth
  | expression _ parts => parts.depth + 1
  | statement _ parts | clause _ parts | block _ parts => parts.depth
  | function _ params body => max params.depth body.depth + 1

/-- A tree of some depth has a rank of this depth. -/
theorem rank_mem_shallow (d : Diagram) : d.rank ∈ Rank.shallow d.depth := by
  induction d with
  | nothing | passed => exact fun _ _ => rfl
  | pair first rest ihf ihr =>
    intro level hlevel
    obtain ⟨hf, hr⟩ := max_lt_iff.1 hlevel
    rw [rank, ofLex_add, Pi.add_apply, ihf level hf, ihr level hr, add_zero]
  | expression root parts ih =>
    intro level hlevel
    cases level with
    | zero => exact absurd hlevel (Nat.not_lt_zero _)
    | succ level =>
      have hparts := ih level (Nat.lt_of_succ_lt_succ hlevel)
      rw [rank, ofLex_add, Pi.add_apply, Rank.level_inside, hparts, zero_add]
      split
      · exact Rank.level_unit (Nat.succ_pos level)
      · rfl
  | statement root parts ih =>
    intro level hlevel
    rw [rank, ofLex_add, Pi.add_apply, ih level hlevel,
      Rank.level_unit (Nat.lt_of_le_of_lt (Nat.zero_le _) hlevel), add_zero]
  | clause root parts ih | block body parts ih => exact ih
  | function params parts body ihp ihb =>
    intro level hlevel
    cases level with
    | zero => exact absurd hlevel (Nat.not_lt_zero _)
    | succ level =>
      obtain ⟨hp, hb⟩ := max_lt_iff.1 (Nat.lt_of_succ_lt_succ hlevel)
      rw [rank, Rank.level_inside, ofLex_add, Pi.add_apply, ihp level hp, ihb level hb, add_zero]

end Diagram

theorem depth_le_of_mem {body : List Statement} {s : Statement} (h : s ∈ body) :
    s.diagram.depth ≤ (statementsDiagram body).depth :=
  measure_le_of_mem (fun _ _ => le_max_left _ _) (fun _ _ => le_max_right _ _) h

/-- Statements of a bounded depth make a body of this depth. -/
theorem depth_statementsDiagram_le {body : List Statement} {n : ℕ}
    (h : ∀ s ∈ body, s.diagram.depth ≤ n) : (statementsDiagram body).depth ≤ n := by
  induction body with
  | nil => exact Nat.zero_le n
  | cons s rest ih =>
    obtain ⟨hs, hrest⟩ := List.forall_mem_cons.1 h
    exact max_le hs (ih hrest)

end Untangle
