import Mathlib.Tactic.Abel
import Untangle.Pass.LoopExit
import Untangle.Proofs.Pass.Dictionary
import Untangle.Proofs.Pass.Flattening
import Untangle.Proofs.Pass.Replacement
import Untangle.Proofs.Syntax.Rank

/-!
# Every change lowers the rank

What a pass changes has a smaller rank afterwards, whichever pass it is, and
what it does not change stays as it was. A decoded string is no lookup any more.
The cases of a dispatcher are lower than its loop, however often they are
repeated. A rebuilt loop has lost an `if`, and a function that loses its
dictionary has lost a statement, whatever becomes of the expressions inside.
-/
namespace Untangle

section Descends

variable {σ : Type} {count : σ → ℕ} {a a' b b' d d' : Diagram} {s t u : σ}

/-- Nothing is counted, and nothing has changed; or something is counted, and the rank gets
smaller. -/
inductive Descends (count : σ → ℕ) (d d' : Diagram) (s t : σ) : Prop
  | level (hcount : count t = count s) (hkept : d' = d)
  | down (hcount : count s < count t) (hrank : d'.rank < d.rank) (hheight : d'.height ≤ d.height)

namespace Descends

theorem refl (d : Diagram) (h : count t = count s) : Descends count d d s t := .level h rfl

theorem le (h : Descends count d d' s t) : count s ≤ count t := by
  cases h with
  | level hc _ => exact Nat.le_of_eq hc.symm
  | down hc _ _ => exact Nat.le_of_lt hc

/-- Only the counts matter of the two states. -/
theorem between {s' t' : σ} (h : Descends count d d' s t) (hs : count s = count s')
    (ht : count t = count t') : Descends count d d' s' t' := by
  cases h with
  | level hc hd => exact .level (hs ▸ ht ▸ hc) hd
  | down hc hr hh => exact .down (hs ▸ ht ▸ hc) hr hh

theorem trans {d'' : Diagram} (h : Descends count d d' s t) (h' : Descends count d' d'' t u) :
    Descends count d d'' s u := by
  cases h with
  | level hc hd =>
    subst hd
    exact h'.between hc rfl
  | down hc hr hh =>
    cases h' with
    | level hc' hd => exact .down (hc' ▸ hc) (hd ▸ hr) (hd ▸ hh)
    | down hc' hr' hh' => exact .down (hc.trans hc') (hr'.trans hr) (hh'.trans hh)

theorem pair (h : Descends count a a' s t) (h' : Descends count b b' t u) :
    Descends count (.pair a b) (.pair a' b') s u := by
  cases h with
  | level hc hd =>
    subst hd
    cases h' with
    | level hc' hd' => exact .level (hc'.trans hc) (congrArg _ hd')
    | down hc' hr' hh' =>
      exact .down (hc ▸ hc') (add_lt_add_of_le_of_lt le_rfl hr') (max_le_max le_rfl hh')
  | down hc hr hh =>
    cases h' with
    | level hc' hd' =>
      subst hd'
      exact .down (hc' ▸ hc) (add_lt_add_of_lt_of_le hr le_rfl) (max_le_max hh le_rfl)
    | down hc' hr' hh' =>
      exact .down (hc.trans hc') (add_lt_add hr hr') (max_le_max hh hh')

theorem parts (h : Diagram.InTurn (Descends count) d d' s t) : Descends count d d' s t := by
  induction h with
  | nothing s => exact refl _ rfl
  | pair first rest ih => exact first.pair ih

/-- What has become of a statement and of those behind it makes up one list. -/
theorem append (l m : List Statement) (hcount : count s < count t)
    (h : Descends count d (.pair (statementsDiagram l) (statementsDiagram m)) s t) :
    Descends count d (statementsDiagram (l ++ m)) s t := by
  cases h with
  | level hc _ => exact absurd hc (Nat.ne_of_gt hcount)
  | down hc hr hh =>
    exact .down hc ((rank_statementsDiagram_append l m).trans_lt hr)
      ((height_statementsDiagram_append l m).trans_le hh)

theorem clause (root : ClauseRoot) (h : Descends count d d' s t) :
    Descends count (.clause root d) (.clause root d') s t := by
  cases h with
  | level hc hd => exact .level hc (congrArg _ hd)
  | down hc hr hh => exact .down hc hr hh

theorem block {body body' : List Statement}
    (h : Descends count (statementsDiagram body) (statementsDiagram body') s t) :
    Descends count (blockDiagram body) (blockDiagram body') s t := by
  cases h with
  | level hc hd => exact .level hc (congrArg blockDiagram (eq_of_statementsDiagram hd))
  | down hc hr hh => exact .down hc hr hh

theorem statement (root : StatementRoot) (h : Descends count d d' s t) :
    Descends count (.statement root d) (.statement root d') s t := by
  cases h with
  | level hc hd => exact .level hc (congrArg _ hd)
  | down hc hr hh =>
    have hunit := Rank.unit_le (Nat.succ_le_succ hh)
    exact .down hc (add_lt_add_of_lt_of_le hr hunit) (Nat.succ_le_succ hh)

/-- An expression descends if its parts do. -/
theorem expression (root : ExpressionRoot) (h : Descends count d d' s t) :
    Descends count (.expression root d) (.expression root d') s t := by
  cases h with
  | level hc hd => exact .level hc (congrArg _ hd)
  | down hc hr _ => exact .down hc (add_lt_add_of_lt_of_le (Rank.inside_lt hr) le_rfl) le_rfl

theorem function {params params' : List Expression}
    (h : Descends count (expressionsDiagram params) (expressionsDiagram params') s t)
    (h' : Descends count b b' t u) :
    Descends count (.function params (expressionsDiagram params) b)
      (.function params' (expressionsDiagram params') b') s u := by
  cases h.pair h' with
  | level hc hd =>
    obtain ⟨hparams, rfl⟩ := Diagram.pair.inj hd
    obtain rfl := eq_of_expressionsDiagram hparams
    exact .level hc rfl
  | down hc hr _ => exact .down hc (Rank.inside_lt hr) le_rfl

end Descends

end Descends

noncomputable def Program.rank (p : Program) : Rank := p.diagram.rank

/-- Programs of different ranks have different outlines. -/
theorem Program.outline_ne_of_rank {p q : Program} (h : q.rank ≠ p.rank) :
    q.outline ≠ p.outline := by
  intro houtline
  apply h
  have hrank : q.diagram.outline.rank = p.diagram.outline.rank := congrArg Diagram.rank houtline
  rwa [Diagram.rank_outline, Diagram.rank_outline] at hrank

namespace Progress

/-- A visitor that only keeps track of its scope lowers the rank with every change, if each of its
calls does. -/
theorem upholds_of_scope {v : Visitor Progress} (hf : v.enterFunction = scopeVisitor.enterFunction)
    (hl : v.leaveFunction = scopeVisitor.leaveFunction)
    (hsettle : ∀ {body body' s t}, (v.enterStatements body).run s = (.settle body', t) →
      Descends changes (statementsDiagram body) (statementsDiagram body') s t)
    (hdescend : ∀ {body s t}, (v.enterStatements body).run s = (.descend, t) →
      t.changes = s.changes)
    (hleave : ∀ body s, Descends changes (statementsDiagram body)
      (statementsDiagram ((v.leaveStatements body).run s).1) s ((v.leaveStatements body).run s).2)
    (hexpression : ∀ e s, Descends changes e.diagram ((v.leaveExpression e).run s).1.diagram s
      ((v.leaveExpression e).run s).2) :
    v.Upholds (Descends changes) where
  nothing s := .refl _ rfl
  passed name s := .refl _ rfl
  clause hparts := (Descends.parts hparts).clause _
  statement hparts := (Descends.parts hparts).statement _
  expression := by
    intro e root a a' s t he hparts
    have hnode := (Descends.parts hparts).expression root
    rw [← he] at hnode
    exact hnode.trans (hexpression e t)
  settle henter := (hsettle henter).block
  descend := by
    intro body body' s t u henter hparts
    have hentered : Descends changes (statementsDiagram body) (statementsDiagram body) s t :=
      .refl _ (hdescend henter)
    exact ((hentered.trans (.parts hparts)).trans (hleave body' u)).block
  function := by
    intro params params' body body' cut s t u w henter hparams hbody
    rw [hf] at henter
    cases henter
    rw [hl]
    exact ((Descends.parts hparams).function hbody).between rfl rfl
  concise := by
    intro params params' e e' cut s t u w henter hparams hbody
    rw [hf] at henter
    cases henter
    rw [hl]
    exact ((Descends.parts hparams).function hbody).between rfl rfl

/-- A walk that descends lowers the rank of the program if it changes it. -/
theorem rank_walk_lt {v : Visitor Progress} (h : v.Upholds (Descends changes)) {p : Program}
    (hchanged : (walk v p).changed = true) : (walk v p).program.rank < p.rank := by
  have hcounted : 0 < ((v.program p).run {}).2.changes := of_decide_eq_true hchanged
  cases h.carries_program p {} with
  | level hcount _ => exact absurd hcount (Nat.ne_of_gt hcounted)
  | down _ hrank _ => exact hrank

end Progress

namespace StringDecoding

variable {prologue : Prologue} {table : StringTable} {normalizing : Bool}

theorem rank_lookup_pos {root : ExpressionRoot} (h : root.isLookup = true) (parts : Diagram) :
    0 < (Diagram.expression root parts).rank := by
  rw [Diagram.rank, if_pos h]
  have hinside : 0 ≤ parts.rank.inside := Rank.inside_zero ▸ Rank.inside_le parts.rank_nonneg
  exact add_pos_of_nonneg_of_pos hinside (Rank.unit_pos 0)

theorem rank_ofString (value : String) : (Expression.ofString value).diagram.rank = 0 := by
  show Rank.inside 0 + 0 = 0
  rw [Rank.inside_zero, add_zero]

/-- A decoded string has a smaller rank than the lookup. -/
theorem rank_lt_of_decodes {e e' : Expression} (h : Decodes prologue table normalizing e e') :
    e'.diagram.rank < e.diagram.rank := by
  cases h with
  | entry =>
    rw [rank_ofString]
    exact rank_lookup_pos rfl _
  | call =>
    rw [rank_ofString]
    exact rank_lookup_pos rfl _
  | @name object property optional name =>
    have hparts : object.diagram.rank + (0 + 0) ≤
        object.diagram.rank + (property.diagram.rank + 0) :=
      add_le_add le_rfl (add_le_add property.diagram.rank_nonneg le_rfl)
    exact add_lt_add_of_le_of_lt (Rank.inside_le hparts) (Rank.unit_pos 0)

/-- Decoding strings descends. -/
theorem upholds_descends (prologue : Prologue) (table : StringTable) (normalizing : Bool) :
    (visitor prologue table normalizing).Upholds (Descends Progress.changes) := by
  refine Progress.upholds_of_scope rfl rfl ?_ ?_ ?_ ?_
  · intro body body' s t henter
    cases henter
  · intro body s t henter
    cases henter
    rfl
  · intro body s
    exact .refl _ rfl
  · intro e s
    change Descends _ e.diagram ((leaveExpression prologue table normalizing e).run s).1.diagram s
      ((leaveExpression prologue table normalizing e).run s).2
    rcases leaves prologue table normalizing e s with hkept | ⟨hdecodes, kind, message, -, hcount⟩
    · rw [hkept]
      exact .refl _ rfl
    · rw [hcount]
      refine .down (Nat.lt_succ_self _) (rank_lt_of_decodes hdecodes) ?_
      rw [Expression.height_diagram, Expression.height_diagram]

theorem rank_run_lt {p : Program} (h : (run normalizing p).changed = true) :
    (run normalizing p).program.rank < p.rank := by
  unfold run at h ⊢
  split at h
  · cases h
  · next prologue _ =>
    exact Progress.rank_walk_lt (upholds_descends prologue prologue.decode normalizing) h

end StringDecoding

namespace Dispatcher

theorem height_case_le {c : Case} {cases : List Case} (h : c ∈ cases) :
    (statementsDiagram c.consequent).height ≤ (casesDiagram cases).height := by
  induction cases with
  | nil => cases h
  | cons first rest ih =>
    obtain ⟨test, consequent⟩ := first
    rcases List.mem_cons.1 h with rfl | hmem
    · have hclause : (statementsDiagram consequent).height ≤ (Diagram.clause .case (.parts
          [optionDiagram test, .block consequent (statementsDiagram consequent)])).height :=
        (le_max_left _ _).trans (le_max_right _ _)
      exact hclause.trans (le_max_left _ _)
    · exact (ih hmem).trans (le_max_right _ _)

theorem height_switch (discriminant : Expression) (cases : List Case) :
    (Statement.switch discriminant cases).diagram.height = (casesDiagram cases).height + 1 := by
  have hswitch : (Statement.switch discriminant cases).diagram.height =
      max discriminant.diagram.height (casesDiagram cases).height + 1 := rfl
  rw [hswitch, discriminant.height_diagram, Nat.zero_max]

/-- A statement of a case is lower than the loop around the `switch`. -/
theorem height_lt_of_cases? {s t : Statement} {cases : List Case} {c : Case}
    (hs : cases? s = some cases) (hc : c ∈ cases) (ht : t ∈ c.consequent) :
    t.diagram.height < s.diagram.height := by
  have hle : t.diagram.height ≤ (casesDiagram cases).height :=
    (height_le_of_mem ht).trans (height_case_le hc)
  unfold cases? at hs
  split at hs
  · next test discriminant _ more =>
    cases hs
    have hswitch := height_switch discriminant cases
    have hmem := height_le_of_mem (List.mem_cons_self (a := .switch discriminant cases) (l := more))
    rw [height_whileLoop_block]
    omega
  · next test discriminant _ =>
    cases hs
    have hswitch := height_switch discriminant cases
    rw [height_whileLoop]
    omega
  · cases hs

/-- The merged cases are lower than the dispatcher, however many there are. -/
theorem rank_merged_lt {body : List Statement} {f : Flattened} (h : flattened? body = some f) :
    (statementsDiagram f.merged).rank < (statementsDiagram body).rank ∧
      (statementsDiagram f.merged).height < (statementsDiagram body).height := by
  obtain ⟨loop, hloop, hcases, hmerged⟩ := exists_of_flattened? h
  have hlower : (statementsDiagram f.merged).height < loop.diagram.height := by
    apply height_statementsDiagram_lt loop.height_diagram_pos
    intro t ht
    obtain ⟨c, hc, htc⟩ := hmerged t ht
    exact height_lt_of_cases? hcases hc htc
  constructor
  · calc (statementsDiagram f.merged).rank
      _ < .unit loop.diagram.height := Diagram.rank_lt_unit hlower
      _ ≤ loop.diagram.rank := loop.unit_le_rank
      _ ≤ (statementsDiagram body).rank := rank_le_of_mem hloop
  · exact hlower.trans_le (height_le_of_mem hloop)

end Dispatcher

namespace Unflattening

/-- Undoing dispatchers descends. -/
theorem upholds_descends : visitor.Upholds (Descends Progress.changes) := by
  refine Progress.upholds_of_scope rfl rfl ?_ ?_ ?_ ?_
  · intro body body' s t henter
    change (enterStatements body).run s = _ at henter
    unfold enterStatements at henter
    split at henter
    · cases henter
    · next f hf =>
      cases henter
      obtain ⟨hrank, hheight⟩ := Dispatcher.rank_merged_lt hf
      exact .down (Nat.lt_succ_self _) hrank hheight.le
  · intro body s t henter
    change (enterStatements body).run s = _ at henter
    unfold enterStatements at henter
    split at henter
    · cases henter
      rfl
    · cases henter
  · intro body s
    exact .refl _ rfl
  · intro e s
    exact .refl _ rfl

end Unflattening

/-- The statements of a block rank no higher than the block. -/
theorem Statement.asList_le (s : Statement) :
    (statementsDiagram s.asList).rank ≤ s.diagram.rank ∧
      (statementsDiagram s.asList).height ≤ s.diagram.height := by
  unfold asList
  split
  · next body =>
    have hrank : (Statement.block body).diagram.rank =
        (statementsDiagram body).rank + 0 + .unit (max (statementsDiagram body).height 0 + 1) := rfl
    have hheight : (Statement.block body).diagram.height =
        max (statementsDiagram body).height 0 + 1 := rfl
    rw [hrank, hheight, add_zero]
    exact ⟨le_add_of_nonneg_right (Rank.unit_pos _).le, by omega⟩
  · have hrank : (statementsDiagram [s]).rank = s.diagram.rank + 0 := rfl
    have hheight : (statementsDiagram [s]).height = max s.diagram.height 0 := rfl
    rw [hrank, hheight, add_zero, Nat.max_zero]
    exact ⟨le_rfl, le_rfl⟩

/-- What is done on the way out of a loop ranks no higher than the branch that leaves it. -/
theorem beforeBreak?_le {body spliced : List Statement} (h : beforeBreak? body = some spliced) :
    (statementsDiagram spliced).rank ≤ (statementsDiagram body).rank ∧
      (statementsDiagram spliced).height ≤ (statementsDiagram body).height := by
  unfold beforeBreak? at h
  split at h
  · next s hs =>
    split at h
    · cases h
      obtain ⟨before, rfl⟩ := List.getLast?_eq_some_iff.1 hs
      rw [List.dropLast_concat, rank_statementsDiagram_append, height_statementsDiagram_append]
      exact ⟨le_add_of_nonneg_right (Diagram.rank_nonneg _), le_max_left _ _⟩
    · cases h
  · cases h

namespace LoopExit

/-- The branch at the end of an endless loop. -/
theorem eq_of_lastBranch? {s consequent : Statement} {head : List Statement} {test : Expression}
    {alternate : Option Statement}
    (h : lastBranch? s = some (head, test, consequent, alternate)) :
    ∃ constant, s =
      .whileLoop constant (.block (head ++ [.branch test consequent alternate])) := by
  unfold lastBranch? at h
  split at h
  · next constant body =>
    split at h
    · split at h
      · next hlast =>
        cases h
        obtain ⟨before, rfl⟩ := List.getLast?_eq_some_iff.1 hlast
        rw [List.dropLast_concat]
        exact ⟨constant, rfl⟩
      · cases h
    · cases h
  · cases h

/-- Where an exit is found there is an `if` at the end of a loop. What stays in the loop and what is
put behind it come from the two branches. -/
theorem exists_of_find {s : Statement} {x : LoopExit} (h : find s = .exit x) :
    ∃ constant consequent alternate,
      s = .whileLoop constant (.block (x.head ++ [.branch x.test consequent alternate])) ∧
      (statementsDiagram x.retained).rank + (statementsDiagram x.spliced).rank ≤
        consequent.diagram.rank + (alternateDiagram alternate).rank ∧
      (statementsDiagram x.retained).height ≤
        max consequent.diagram.height (alternateDiagram alternate).height ∧
      (statementsDiagram x.spliced).height ≤
        max consequent.diagram.height (alternateDiagram alternate).height := by
  unfold find at h
  split at h
  · cases h
  · next head test consequent hlast =>
    split at h
    · next spliced hbreak =>
      cases h
      obtain ⟨constant, hs⟩ := eq_of_lastBranch? hlast
      obtain ⟨hrank, hheight⟩ := beforeBreak?_le hbreak
      obtain ⟨hrank', hheight'⟩ := consequent.asList_le
      refine ⟨constant, consequent, none, hs, ?_, Nat.zero_le _, ?_⟩
      · have hspliced := hrank.trans hrank'
        show 0 + (statementsDiagram spliced).rank ≤ consequent.diagram.rank + 0
        rwa [zero_add, add_zero]
      · exact (hheight.trans hheight').trans (le_max_left _ _)
    · cases h
  · next head test consequent alternate hlast =>
    split at h
    · cases h
    · next spliced _ hbreak =>
      cases h
      obtain ⟨constant, hs⟩ := eq_of_lastBranch? hlast
      obtain ⟨hrank, hheight⟩ := beforeBreak?_le hbreak
      obtain ⟨hretained, hretained'⟩ := consequent.asList_le
      obtain ⟨hspliced, hspliced'⟩ := alternate.asList_le
      refine ⟨constant, consequent, some alternate, hs, ?_, ?_, ?_⟩
      · exact add_le_add hretained (hrank.trans hspliced)
      · exact hretained'.trans (le_max_left _ _)
      · exact (hheight.trans hspliced').trans (le_max_right _ _)
    · cases h

theorem height_branch (test : Expression) (consequent : Statement) (alternate : Option Statement) :
    (Statement.branch test consequent alternate).diagram.height =
      max consequent.diagram.height (alternateDiagram alternate).height + 1 := by
  have hbranch : (Statement.branch test consequent alternate).diagram.height =
      max test.diagram.height (max consequent.diagram.height
        (max (alternateDiagram alternate).height 0)) + 1 := rfl
  rw [hbranch, test.height_diagram, Nat.zero_max, Nat.max_zero]

/-- A branch is higher than what is kept of it. -/
theorem height_append_le (head : List Statement) (test : Expression) {kept : List Statement}
    {consequent : Statement} {alternate : Option Statement}
    (h : (statementsDiagram kept).height ≤
      max consequent.diagram.height (alternateDiagram alternate).height) :
    (statementsDiagram (head ++ kept)).height ≤
      (statementsDiagram (head ++ [.branch test consequent alternate])).height := by
  have hbranch := height_branch test consequent alternate
  have hsingle : (statementsDiagram [.branch test consequent alternate]).height =
      max (Statement.branch test consequent alternate).diagram.height 0 := rfl
  rw [height_statementsDiagram_append, height_statementsDiagram_append]
  omega

/-- A rebuilt loop, and what is put behind it, are not higher than before. -/
theorem height_of_find {s : Statement} {x : LoopExit} (h : find s = .exit x) :
    x.loop.diagram.height ≤ s.diagram.height ∧
      (statementsDiagram x.spliced).height ≤ s.diagram.height := by
  obtain ⟨constant, consequent, alternate, rfl, -, hretained, hspliced⟩ := exists_of_find h
  obtain ⟨test, hloop⟩ : ∃ test, x.loop = .whileLoop test (.block (x.head ++ x.retained)) :=
    ⟨_, rfl⟩
  have hbody := height_append_le x.head x.test hretained
  have hbehind := height_append_le x.head x.test hspliced
  rw [height_statementsDiagram_append] at hbehind
  rw [hloop, height_whileLoop_block, height_whileLoop_block]
  omega

/-- The new test of a loop weighs less than the `if` that is gone. -/
theorem rank_of_find {s : Statement} {x : LoopExit} (h : find s = .exit x) :
    x.loop.diagram.rank + (statementsDiagram x.spliced).rank < s.diagram.rank := by
  obtain ⟨constant, consequent, alternate, rfl, hbranches, hretained, -⟩ := exists_of_find h
  obtain ⟨test, hloop⟩ : ∃ test, x.loop = .whileLoop test (.block (x.head ++ x.retained)) :=
    ⟨_, rfl⟩
  let branch : Statement := .branch x.test consequent alternate
  have hheight : (statementsDiagram (x.head ++ x.retained)).height ≤
      (statementsDiagram (x.head ++ [branch])).height := height_append_le x.head x.test hretained
  have htest : test.diagram.rank < .unit branch.diagram.height := by
    apply Diagram.rank_lt_unit
    rw [test.height_diagram]
    exact branch.height_diagram_pos
  have hsum : (statementsDiagram [branch]).rank = x.test.diagram.rank + (consequent.diagram.rank +
      ((alternateDiagram alternate).rank + 0)) + .unit branch.diagram.height + 0 := rfl
  -- the loop and its block get no higher, and the `if` makes room for the new test
  have hbody := Rank.unit_le (Nat.succ_le_succ hheight)
  have hwhole := Rank.unit_le (Nat.succ_le_succ (Nat.succ_le_succ hheight))
  have hrest : 0 ≤ constant.diagram.rank + x.test.diagram.rank :=
    add_nonneg constant.diagram.rank_nonneg x.test.diagram.rank_nonneg
  rw [hloop, rank_whileLoop_block, rank_whileLoop_block, rank_statementsDiagram_append,
    rank_statementsDiagram_append, hsum]
  generalize (statementsDiagram (x.head ++ x.retained)).height = k at hbody hwhole ⊢
  generalize (statementsDiagram (x.head ++ [branch])).height = k' at hbody hwhole ⊢
  generalize (statementsDiagram x.head).rank = head
  calc test.diagram.rank + (head + (statementsDiagram x.retained).rank) + .unit (k + 1) +
        .unit (k + 2) + (statementsDiagram x.spliced).rank
    _ = test.diagram.rank + head + ((statementsDiagram x.retained).rank +
          (statementsDiagram x.spliced).rank) + .unit (k + 1) + .unit (k + 2) := by abel
    _ < .unit branch.diagram.height + head + (consequent.diagram.rank +
          (alternateDiagram alternate).rank) + .unit (k' + 1) + .unit (k' + 2) :=
        add_lt_add_of_lt_of_le (add_lt_add_of_lt_of_le (add_lt_add_of_lt_of_le
          (add_lt_add_of_lt_of_le htest le_rfl) hbranches) hbody) hwhole
    _ ≤ (constant.diagram.rank + x.test.diagram.rank) + (.unit branch.diagram.height + head +
          (consequent.diagram.rank + (alternateDiagram alternate).rank) + .unit (k' + 1) +
          .unit (k' + 2)) := le_add_of_nonneg_left hrest
    _ = _ := by abel

end LoopExit

namespace LoopRebuilding

/-- The loops rebuilt in a list are counted, and every one of them lowers the rank. -/
theorem rebuild_descends (location : Nat) (body : List Statement) (s : Progress) :
    Descends Progress.changes (statementsDiagram body)
      (statementsDiagram ((rebuild location body).run s).1) s
      ((rebuild location body).run s).2 := by
  induction body generalizing location s with
  | nil => exact .refl _ rfl
  | cons first rest ih =>
    have hstays : ∀ t : Progress, s.changes = t.changes →
        Descends Progress.changes (statementsDiagram (first :: rest))
          (statementsDiagram (first :: ((rebuild (location + 1) rest).run t).1)) s
          ((rebuild (location + 1) rest).run t).2 := by
      intro t ht
      have hfirst : Descends Progress.changes first.diagram first.diagram s t := .refl _ ht.symm
      exact hfirst.pair (ih (location + 1) t)
    have hrebuilt : ∀ (x : LoopExit) (n : Nat) (t : Progress), LoopExit.find first = .exit x →
        s.changes < t.changes →
        Descends Progress.changes (statementsDiagram (first :: rest))
          (statementsDiagram (x.loop :: x.spliced ++ ((rebuild n rest).run t).1)) s
          ((rebuild n rest).run t).2 := by
      intro x n t hx ht
      obtain ⟨hloop, hspliced⟩ := LoopExit.height_of_find hx
      have hfirst : Descends Progress.changes first.diagram
          (statementsDiagram (x.loop :: x.spliced)) s t :=
        .down ht (LoopExit.rank_of_find hx) (max_le hloop hspliced)
      have hrest := ih n t
      exact (hfirst.pair hrest).append (x.loop :: x.spliced) _ (Nat.lt_of_lt_of_le ht hrest.le)
    rw [rebuild]
    cases hfind : LoopExit.find first with
    | nothing => exact hstays s rfl
    | wrongBranch => exact hstays _ rfl
    | exit x =>
      by_cases hx : x.isRebuildable
      · simp only [hx, if_true]
        exact hrebuilt x _ _ hfind (Nat.lt_succ_self _)
      · simp only [hx]
        exact hstays s rfl

/-- Rebuilding loops descends. -/
theorem upholds_descends : visitor.Upholds (Descends Progress.changes) := by
  refine Progress.upholds_of_scope rfl rfl ?_ ?_ ?_ ?_
  · intro body body' s t henter
    cases henter
  · intro body s t henter
    cases henter
    rfl
  · exact rebuild_descends 0
  · intro e s
    exact .refl _ rfl

end LoopRebuilding

section Steady

variable {a a' b b' d d' : Diagram}

/-- At the outermost level nothing but calls and accesses may have changed. -/
structure Steady (d d' : Diagram) : Prop where
  height : d'.height = d.height
  outer : ∀ k, 0 < k → d'.rank.outer k = d.rank.outer k

namespace Steady

theorem refl (d : Diagram) : Steady d d := ⟨rfl, fun _ _ => rfl⟩

theorem pair (h : Steady a a') (h' : Steady b b') : Steady (.pair a b) (.pair a' b') := by
  refine ⟨congrArg₂ max h.height h'.height, fun k hk => ?_⟩
  rw [Diagram.rank, Diagram.rank, Rank.outer_add, Rank.outer_add, h.outer k hk, h'.outer k hk]

theorem statement (root : StatementRoot) (h : Steady d d') :
    Steady (.statement root d) (.statement root d') := by
  refine ⟨congrArg (· + 1) h.height, fun k hk => ?_⟩
  rw [Diagram.rank, Diagram.rank, Rank.outer_add, Rank.outer_add, h.outer k hk, h.height]

/-- There is nothing else in a diagram that has no statements at its outermost level. -/
theorem of_height (h : d.height = 0) (h' : d'.height = 0) : Steady d d' := by
  refine ⟨h'.trans h.symm, fun k hk => ?_⟩
  rw [Diagram.outer_eq_zero (h' ▸ hk), Diagram.outer_eq_zero (h ▸ hk)]

end Steady

end Steady

theorem height_declaratorsDiagram (ds : List Declarator) : (declaratorsDiagram ds).height = 0 := by
  induction ds with
  | nil => rfl
  | cons first rest ih =>
    obtain ⟨target, init⟩ := first
    have hcons : (declaratorsDiagram (⟨target, init⟩ :: rest)).height =
        max (max target.diagram.height (max (optionDiagram init).height 0))
          (declaratorsDiagram rest).height := rfl
    have hinit : (optionDiagram init).height = 0 := by
      cases init with
      | none => rfl
      | some e => exact e.height_diagram
    rw [hcons, ih, hinit, target.height_diagram]
    rfl

theorem height_declaration (d : Declaration) : (Statement.declaration d).diagram.height = 1 := by
  obtain ⟨ds, kind⟩ := d
  have hdeclaration : (Statement.declaration ⟨ds, kind⟩).diagram.height =
      max (declaratorsDiagram ds).height 0 + 1 := rfl
  rw [hdeclaration, height_declaratorsDiagram, Nat.max_zero]

namespace DictionaryInlining

/-- While nothing around has lost a dictionary, every change lowers the rank. In any case the
statements of the outermost level stay. -/
structure Settles (d d' : Diagram) (s t : State) : Prop where
  advances : Advances s t
  steady : Steady d d'
  descends : Plain s.frames → Descends (fun s : State => s.progress.changes) d d' s t

namespace Settles

variable {a a' d d' : Diagram} {s t u : State}

theorem refl (d : Diagram) (s : State) : Settles d d s s :=
  ⟨.refl s, .refl d, fun _ => .refl d rfl⟩

theorem parts (h : Diagram.InTurn Settles d d' s t) : Settles d d' s t := by
  induction h with
  | nothing s => exact refl _ s
  | pair first rest ih =>
    refine ⟨first.advances.trans ih.advances, first.steady.pair ih.steady, fun hplain => ?_⟩
    exact (first.descends hplain).pair (ih.descends (first.advances.plain hplain))

theorem clause (root : ClauseRoot) (h : Settles d d' s t) :
    Settles (.clause root d) (.clause root d') s t :=
  ⟨h.advances, ⟨h.steady.height, h.steady.outer⟩, fun hplain => (h.descends hplain).clause root⟩

theorem block {body body' : List Statement}
    (h : Settles (statementsDiagram body) (statementsDiagram body') s t) :
    Settles (blockDiagram body) (blockDiagram body') s t :=
  ⟨h.advances, ⟨h.steady.height, h.steady.outer⟩, fun hplain => (h.descends hplain).block⟩

theorem statement (root : StatementRoot) (h : Settles d d' s t) :
    Settles (.statement root d) (.statement root d') s t :=
  ⟨h.advances, h.steady.statement root, fun hplain => (h.descends hplain).statement root⟩

theorem entered {params : List Expression} {body : Option (List Statement)} {cut : Nat}
    (henter : (enterFunction params body).run s = (cut, t)) (h : Advances t u) :
    Advances s (leaveFunction.run u).2 := by
  apply advances_function params body
  rw [henter]
  exact h

/-- The parts of a function that keeps its first statement. -/
theorem function {params params' : List Expression} (body : Option (List Statement)) {cut : Nat}
    {b b' : Diagram} {w : State} (hcapture : body.bind Dictionary.capture? = none)
    (henter : (enterFunction params body).run s = (cut, t))
    (hparams : Settles (expressionsDiagram params) (expressionsDiagram params') t u)
    (hbody : Settles b b' u w) :
    Settles (.function params (expressionsDiagram params) b)
      (.function params' (expressionsDiagram params') b') s (leaveFunction.run w).2 := by
  obtain ⟨t', ht', hprogress, hframes⟩ := enterFunction_plain params body hcapture s
  obtain ⟨rfl, rfl⟩ := Prod.mk.inj (ht'.symm.trans henter)
  refine ⟨entered henter (hparams.advances.trans hbody.advances), .of_height rfl rfl, ?_⟩
  intro hplain
  have hinner : Plain t'.frames := by
    rw [hframes]
    exact plain_cons.2 ⟨rfl, hplain⟩
  have hfunction := (hparams.descends hinner).function
    (hbody.descends (hparams.advances.plain hinner))
  refine hfunction.between ?_ (run_leaveFunction w).1.symm
  rw [hprogress]
  rfl

/-- A function that loses its dictionary has a statement less at its outermost level. -/
theorem captured {params params' : List Expression} {body body' : List Statement} {cut : Nat}
    {w : State} {d : Dictionary} (hcapture : Dictionary.capture? body = some d)
    (henter : (enterFunction params (some body)).run s = (cut, t)) (hparams : Settles a a' t u)
    (hbody : Settles (blockDiagram (body.drop cut)) (blockDiagram body') u w) :
    Settles (.function params a (blockDiagram body)) (.function params' a' (blockDiagram body')) s
      (leaveFunction.run w).2 := by
  obtain ⟨t', f, ht', hchanges, -, -⟩ := enterFunction_captured params (some body) hcapture s
  obtain ⟨rfl, rfl⟩ := Prod.mk.inj (ht'.symm.trans henter)
  have hall := hparams.advances.trans hbody.advances
  refine ⟨entered henter hall, .of_height rfl rfl, fun _ => ?_⟩
  have hcount := hall.changes
  refine .down ?_ (Rank.inside_lt ?_) le_rfl
  · show s.progress.changes < (leaveFunction.run w).2.progress.changes
    rw [(run_leaveFunction w).1]
    omega
  · obtain ⟨ms, kind, rest, rfl, -⟩ := Dictionary.exists_of_capture? hcapture
    let first : Statement := .declaration ⟨[⟨.identifier d.name, some (.object ms)⟩], kind⟩
    have hheight : first.diagram.height = 1 := height_declaration _
    have hsum : ∀ k, (blockDiagram (first :: rest)).rank.outer k =
        first.diagram.rank.outer k + (blockDiagram rest).rank.outer k := fun _ => rfl
    have hfirst : first.diagram.rank.outer 1 = 1 := hheight ▸ first.outer_height
    apply Rank.lt_of_outer (k := 1)
    · rw [Rank.outer_add, Rank.outer_add, hparams.steady.outer 1 Nat.one_pos,
        hbody.steady.outer 1 Nat.one_pos, hsum 1, hfirst]
      show _ + (blockDiagram rest).rank.outer 1 < _
      omega
    · intro k hk
      have hpos : 0 < k := Nat.lt_of_succ_lt hk
      have hnone : first.diagram.rank.outer k = 0 := Diagram.outer_eq_zero (hheight ▸ hk)
      rw [Rank.outer_add, Rank.outer_add, hparams.steady.outer k hpos, hbody.steady.outer k hpos,
        hsum k, hnone, Nat.zero_add]
      rfl

end Settles

/-- Inlining dictionaries settles every tree. -/
theorem upholds_settles : visitor.Upholds Settles where
  nothing := .refl _
  passed name := .refl _
  clause hparts := (Settles.parts hparts).clause _
  statement hparts := (Settles.parts hparts).statement _
  expression := by
    intro e root a a' s t he hparts
    have hsettles := Settles.parts hparts
    have hleaves := keeps_leaveExpression e t
    refine ⟨hsettles.advances.trans hleaves, .of_height rfl (Expression.height_diagram _), ?_⟩
    intro hplain
    have hrun : (visitor.leaveExpression e).run t = (e, t) :=
      leaveExpression_plain (hsettles.advances.plain hplain) e
    rw [hrun, he]
    exact (hsettles.descends hplain).expression root
  settle henter := by cases henter
  descend := by
    intro body body' s t u henter hparts
    cases henter
    exact (Settles.parts hparts).block
  function := by
    intro params params' body body' cut s t u w henter hparams hbody
    cases hcapture : Dictionary.capture? body with
    | none =>
      obtain ⟨t', ht', -, -⟩ := enterFunction_plain params (some body) hcapture s
      obtain ⟨rfl, rfl⟩ := Prod.mk.inj (ht'.symm.trans henter)
      exact .function (some body) hcapture henter (.parts hparams) hbody
    | some d => exact .captured hcapture henter (.parts hparams) hbody
  concise := by
    intro params params' e e' cut s t u w henter hparams hbody
    exact .function none rfl henter (.parts hparams) hbody

/-- A run that changes the program lowers its rank. -/
theorem rank_run_lt {p : Program} (h : (run p).changed = true) :
    (run p).program.rank < p.rank := by
  have hcounted : 0 < ((visitor.program p).run {}).2.progress.changes := of_decide_eq_true h
  have hstart : Plain ({} : State).frames := by simp [Plain]
  cases (upholds_settles.carries_program p {}).descends hstart with
  | level hcount _ => exact absurd hcount (Nat.ne_of_gt hcounted)
  | down _ hrank _ => exact hrank

end DictionaryInlining

end Untangle
