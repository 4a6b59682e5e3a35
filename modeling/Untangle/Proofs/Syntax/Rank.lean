import Mathlib.Algebra.Order.Group.PiLex
import Mathlib.Data.Finsupp.Lex
import Untangle.Proofs.Syntax.Outline

/-!
# Ranks of trees

The rank of a tree counts its statements by their height, level by level: what
is inside an expression or a function is one level below it. The outer level
decides before the inner ones, and within a level a higher statement decides
before any number of lower ones. So a rank gets smaller if a statement makes
room for many copies of lower statements, or if something is lost at one level
while anything happens further inside.

At the height zero of a level the rank counts the calls and the accesses in
brackets.
-/
namespace Untangle

/-- For every level, outermost first, how many nodes there are of every height. -/
abbrev Rank := Lex (ℕ → Colex (ℕ →₀ ℕ))

namespace Rank

noncomputable def unit (height : ℕ) : Rank :=
  toLex (Pi.single 0 (toColex (Finsupp.single height 1)))

def inside (r : Rank) : Rank :=
  toLex fun
    | 0 => 0
    | level + 1 => ofLex r level

def outer (r : Rank) (height : ℕ) : ℕ := ofColex (ofLex r 0) height

/-- At the outermost level the greatest height where two ranks differ decides. -/
theorem lt_of_outer {r s : Rank} {k : ℕ} (hlt : r.outer k < s.outer k)
    (heq : ∀ j, k < j → r.outer j = s.outer j) : r < s := by
  refine ⟨0, fun j hj => absurd hj (Nat.not_lt_zero j), ?_⟩
  exact Finsupp.Colex.lt_iff.2 ⟨k, heq, hlt⟩

@[simp] theorem outer_add (r s : Rank) (k : ℕ) : (r + s).outer k = r.outer k + s.outer k := rfl

@[simp] theorem outer_inside (r : Rank) (k : ℕ) : r.inside.outer k = 0 := rfl

theorem outer_unit (height k : ℕ) : (unit height).outer k = if height = k then 1 else 0 := by
  simp only [outer, unit, ofLex_toLex, Pi.single_eq_same, ofColex_toColex]
  exact Finsupp.single_apply

theorem inside_zero : inside 0 = 0 := by
  funext level
  cases level <;> rfl

/-- Going further inside keeps the order of ranks. -/
theorem inside_lt {r s : Rank} (h : r < s) : r.inside < s.inside := by
  obtain ⟨level, heq, hlt⟩ := h
  refine ⟨level + 1, fun j hj => ?_, hlt⟩
  cases j with
  | zero => rfl
  | succ j => exact heq j (Nat.lt_of_succ_lt_succ hj)

theorem inside_le {r s : Rank} (h : r ≤ s) : r.inside ≤ s.inside := by
  rcases h.lt_or_eq with hlt | rfl
  · exact (inside_lt hlt).le
  · exact le_refl _

/-- A single higher node outranks a lower one. -/
theorem unit_lt {j k : ℕ} (h : j < k) : unit j < unit k := by
  apply lt_of_outer (k := k)
  · rw [outer_unit, outer_unit, if_neg (by omega), if_pos rfl]
    exact Nat.one_pos
  · intro i hi
    rw [outer_unit, outer_unit, if_neg (by omega), if_neg (by omega)]

theorem unit_le {j k : ℕ} (h : j ≤ k) : unit j ≤ unit k := by
  rcases h.lt_or_eq with hlt | rfl
  · exact (unit_lt hlt).le
  · exact le_refl _

theorem unit_pos (k : ℕ) : 0 < unit k := by
  apply lt_of_outer (k := k)
  · rw [outer_unit, if_pos rfl]
    exact Nat.one_pos
  · intro i hi
    rw [outer_unit, if_neg (by omega)]
    rfl

end Rank

namespace Diagram

/-- How deep statements are nested, apart from those inside of expressions and functions. -/
def height : Diagram → ℕ
  | nothing | passed _ | expression _ _ | function _ _ _ => 0
  | pair first rest => max first.height rest.height
  | statement _ parts => parts.height + 1
  | clause _ parts | block _ parts => parts.height

noncomputable def rank : Diagram → Rank
  | nothing | passed _ => 0
  | pair first rest => first.rank + rest.rank
  | expression root parts => parts.rank.inside + if root.isLookup then .unit 0 else 0
  | statement _ parts => parts.rank + .unit (parts.height + 1)
  | clause _ parts | block _ parts => parts.rank
  | function _ params body => (params.rank + body.rank).inside

theorem height_outline (d : Diagram) : d.outline.height = d.height := by
  induction d with
  | nothing | passed | expression | function => rfl
  | pair first rest ihf ihr => exact congrArg₂ max ihf ihr
  | statement root parts ih => exact congrArg (· + 1) ih
  | clause root parts ih | block body parts ih => exact ih

/-- The outline tells the rank. -/
theorem rank_outline (d : Diagram) : d.outline.rank = d.rank := by
  induction d with
  | nothing | passed => rfl
  | pair first rest ihf ihr => exact congrArg₂ (· + ·) ihf ihr
  | expression root parts ih =>
    have hlookup : (if root.isLookup then ExpressionRoot.call false else .this).isLookup
        = root.isLookup := by cases root.isLookup <;> rfl
    rw [outline, rank, rank, hlookup, ih]
  | statement root parts ih => rw [outline, rank, rank, height_outline, ih]
  | clause root parts ih | block body parts ih => exact ih
  | function params parts body ihp ihb => rw [outline, rank, rank, ihp, ihb]

/-- Ranks are counts, so none is below zero. -/
theorem rank_nonneg (d : Diagram) : 0 ≤ d.rank := by
  induction d with
  | nothing | passed => exact le_refl 0
  | pair first rest ihf ihr => exact add_nonneg ihf ihr
  | expression root parts ih =>
    apply add_nonneg
    · exact Rank.inside_zero ▸ Rank.inside_le ih
    · split
      · exact (Rank.unit_pos 0).le
      · exact le_refl 0
  | statement root parts ih => exact add_nonneg ih (Rank.unit_pos _).le
  | clause root parts ih | block body parts ih => exact ih
  | function params parts body ihp ihb =>
    exact Rank.inside_zero ▸ Rank.inside_le (add_nonneg ihp ihb)

/-- Nothing at the outermost level is higher than the height. -/
theorem outer_eq_zero {d : Diagram} {k : ℕ} (h : d.height < k) : d.rank.outer k = 0 := by
  induction d with
  | nothing | passed => rfl
  | pair first rest ihf ihr =>
    obtain ⟨hf, hr⟩ := max_lt_iff.1 h
    rw [rank, Rank.outer_add, ihf hf, ihr hr]
  | expression root parts =>
    have hk : 0 ≠ k := Nat.ne_of_lt h
    rw [rank, Rank.outer_add, Rank.outer_inside]
    split
    · rw [Rank.outer_unit, if_neg hk]
    · rfl
  | statement root parts ih =>
    have hk : parts.height + 1 ≠ k := Nat.ne_of_lt h
    rw [rank, Rank.outer_add, ih (Nat.lt_of_succ_lt h), Rank.outer_unit, if_neg hk]
  | clause root parts ih | block body parts ih => exact ih h
  | function params parts body => rfl

/-- A node outweighs any tree of a smaller height. -/
theorem rank_lt_unit {d : Diagram} {k : ℕ} (h : d.height < k) : d.rank < .unit k := by
  apply Rank.lt_of_outer (k := k)
  · rw [outer_eq_zero h, Rank.outer_unit, if_pos rfl]
    exact Nat.one_pos
  · intro j hj
    rw [outer_eq_zero (Nat.lt_trans h hj), Rank.outer_unit, if_neg (Nat.ne_of_lt hj)]

end Diagram

/-- An expression has no statements at its own level. -/
theorem Expression.height_diagram (e : Expression) : e.diagram.height = 0 := by
  obtain ⟨root, parts, he⟩ := e.exists_diagram
  rw [he]
  rfl

theorem Statement.height_diagram_pos (s : Statement) : 0 < s.diagram.height := by
  obtain ⟨root, parts, hs⟩ := s.exists_diagram
  rw [hs]
  exact Nat.succ_pos _

/-- A statement is the only one of its height. -/
theorem Statement.outer_height (s : Statement) : s.diagram.rank.outer s.diagram.height = 1 := by
  obtain ⟨root, parts, hs⟩ := s.exists_diagram
  rw [hs, Diagram.rank, Diagram.height, Rank.outer_add, Rank.outer_unit, if_pos rfl,
    Diagram.outer_eq_zero (Nat.lt_succ_self _)]

/-- A statement counts at its own height. -/
theorem Statement.unit_le_rank (s : Statement) : .unit s.diagram.height ≤ s.diagram.rank := by
  obtain ⟨root, parts, hs⟩ := s.exists_diagram
  rw [hs]
  exact le_add_of_nonneg_left parts.rank_nonneg

theorem height_whileLoop (test : Expression) (body : Statement) :
    (Statement.whileLoop test body).diagram.height = body.diagram.height + 1 := by
  have hloop : (Statement.whileLoop test body).diagram.height =
      max test.diagram.height (max body.diagram.height 0) + 1 := rfl
  rw [hloop, test.height_diagram, Nat.zero_max, Nat.max_zero]

theorem height_whileLoop_block (test : Expression) (body : List Statement) :
    (Statement.whileLoop test (.block body)).diagram.height =
      (statementsDiagram body).height + 2 := by
  have hblock : (Statement.block body).diagram.height =
      max (statementsDiagram body).height 0 + 1 := rfl
  rw [height_whileLoop, hblock, Nat.max_zero]

/-- The rank of a loop with a block: the loop and the block count above what they hold. -/
theorem rank_whileLoop_block (test : Expression) (body : List Statement) :
    (Statement.whileLoop test (.block body)).diagram.rank = test.diagram.rank +
      (statementsDiagram body).rank + .unit ((statementsDiagram body).height + 1) +
      .unit ((statementsDiagram body).height + 2) := by
  have hloop : (Statement.whileLoop test (.block body)).diagram.rank = test.diagram.rank +
      ((statementsDiagram body).rank + 0 + .unit (max (statementsDiagram body).height 0 + 1) + 0) +
      .unit (Statement.whileLoop test (.block body)).diagram.height := rfl
  rw [hloop, height_whileLoop_block, add_zero, add_zero, Nat.max_zero,
    ← add_assoc test.diagram.rank]

theorem height_statementsDiagram_append (l m : List Statement) :
    (statementsDiagram (l ++ m)).height =
      max (statementsDiagram l).height (statementsDiagram m).height :=
  statementsDiagram_append Nat.zero_max max_assoc (fun _ _ => rfl) l m

/-- The rank of statements in order is the sum of their ranks. -/
theorem rank_statementsDiagram_append (l m : List Statement) :
    (statementsDiagram (l ++ m)).rank =
      (statementsDiagram l).rank + (statementsDiagram m).rank :=
  statementsDiagram_append zero_add add_assoc (fun _ _ => rfl) l m

theorem height_statementsDiagram_lt {body : List Statement} {k : ℕ} (hk : 0 < k)
    (h : ∀ s ∈ body, s.diagram.height < k) : (statementsDiagram body).height < k := by
  induction body with
  | nil => exact hk
  | cons s rest ih =>
    obtain ⟨hs, hrest⟩ := List.forall_mem_cons.1 h
    exact max_lt hs (ih hrest)

/-- What a measure finds in both parts of a pair it finds in each statement of a list. -/
theorem measure_le_of_mem {α : Type} [Preorder α] {f : Diagram → α}
    (hfirst : ∀ first rest, f first ≤ f (.pair first rest))
    (hrest : ∀ first rest, f rest ≤ f (.pair first rest)) {body : List Statement} {s : Statement}
    (h : s ∈ body) : f s.diagram ≤ f (statementsDiagram body) := by
  induction body with
  | nil => cases h
  | cons t rest ih =>
    rcases List.mem_cons.1 h with rfl | hmem
    · exact hfirst _ _
    · exact (ih hmem).trans (hrest _ _)

theorem height_le_of_mem {body : List Statement} {s : Statement} (h : s ∈ body) :
    s.diagram.height ≤ (statementsDiagram body).height :=
  measure_le_of_mem (fun _ _ => le_max_left _ _) (fun _ _ => le_max_right _ _) h

/-- A statement does not outrank the body that it stands in. -/
theorem rank_le_of_mem {body : List Statement} {s : Statement} (h : s ∈ body) :
    s.diagram.rank ≤ (statementsDiagram body).rank :=
  measure_le_of_mem (fun _ rest => le_add_of_nonneg_right rest.rank_nonneg)
    (fun first _ => le_add_of_nonneg_left first.rank_nonneg) h

end Untangle
