import Untangle.Proofs.Pass.Composition
import Untangle.Proofs.Pass.Descent
import Untangle.Proofs.Semantics.Jumps

/-!
# What rebuilt loops do

A loop that is left through a last `if` gets the condition of the `if` as its
test, and what is done on the way out is put behind it. If the `if` has no other
branch, this does the same whenever the way out is not taken at the start. If it
has one, the test comes before the statements in front of the `if`, and not only
in the first round.
-/
namespace Untangle

open Behavior

variable {σ ν ι : Type} {M : Interpretation σ ν ι}

namespace Interpretation

theorem statements_append (a b : List Statement) :
    M.statements (a ++ b) = (M.statements a).andThen (M.statements b) := by
  induction a with
  | nil => exact skip_andThen.symm
  | cons s a ih =>
    calc M.statements (s :: a ++ b)
      _ = (M.statement [] s).andThen ((M.statements a).andThen (M.statements b)) := by
        rw [← ih]
        rfl
      _ = (M.statements (s :: a)).andThen (M.statements b) := andThen_assoc.symm

theorem statements_single (s : Statement) : M.statements [s] = M.statement [] s := andThen_skip

theorem statements_asList (s : Statement) : M.statements s.asList = M.statement [] s := by
  cases s with
  | block body => rfl
  | _ => exact statements_single _

theorem holds_negated (e : Expression) (s : σ) : M.holds e.negated s = !M.holds e s := by
  unfold Expression.negated
  split
  · rw [M.holds_not, Bool.not_not]
  · exact M.holds_not true e s

end Interpretation

theorem eq_append_of_beforeBreak? {body before : List Statement}
    (h : beforeBreak? body = some before) : body = before ++ [.breaks none] := by
  unfold beforeBreak? at h
  split at h
  · next s hs =>
    split at h
    · next hbreak =>
      cases h
      obtain ⟨before, rfl⟩ := List.getLast?_eq_some_iff.1 hs
      obtain rfl : s = .breaks none := by
        unfold Statement.isPlainBreak at hbreak
        split at hbreak
        · rfl
        · cases hbreak
      rw [List.dropLast_concat]
    · cases h
  · cases h

theorem anyJumps_append (breaks inSwitch : Bool) (a b : List Statement) :
    anyJumps breaks inSwitch (a ++ b) =
      (anyJumps breaks inSwitch a || anyJumps breaks inSwitch b) := by
  induction a with
  | nil => rfl
  | cons s a ih =>
    rw [List.cons_append, anyJumps, anyJumps, ih, Bool.or_assoc]

theorem isUnderstood_append (a b : List Statement) :
    (statementsDiagram (a ++ b)).isUnderstood =
      ((statementsDiagram a).isUnderstood && (statementsDiagram b).isUnderstood) :=
  statementsDiagram_append Bool.true_and Bool.and_assoc (fun _ _ => rfl) a b

theorem isUnderstood_asList (s : Statement) :
    (statementsDiagram s.asList).isUnderstood = s.diagram.isUnderstood := by
  cases s with
  | block body => exact (Bool.and_true _).symm
  | _ => exact Bool.and_true _

namespace LoopExit

open Interpretation (calls call)

variable {x : LoopExit} {c : Expression} {body : Statement}

/-- The test of the rebuilt loop. -/
def stays (x : LoopExit) : Expression :=
  match x.side with
  | .consequent => x.test.negated
  | .alternate => x.test

theorem loop_eq (x : LoopExit) : x.loop = .whileLoop x.stays (.block (x.head ++ x.retained)) := rfl

/-- The statements before the `if`, the branch that stays in the loop and what the other one does
are all understood. -/
structure Understood (x : LoopExit) : Prop where
  head : (statementsDiagram x.head).isUnderstood = true
  retained : (statementsDiagram x.retained).isUnderstood = true
  spliced : (statementsDiagram x.spliced).isUnderstood = true

/-- An `if` with a branch that leaves the loop. The other branch may be missing. -/
inductive Takes (x : LoopExit) : Statement → Prop
  | consequent {s : Statement} (side : x.side = .consequent) (retained : x.retained = [])
    (spliced : s.asList = x.spliced ++ [.breaks none]) : Takes x (.branch x.test s none)
  | alternate {s other : Statement} (side : x.side = .alternate) (retained : x.retained = s.asList)
    (spliced : other.asList = x.spliced ++ [.breaks none]) : Takes x (.branch x.test s (some other))

/-- A way out of a loop is a branch at the end of its body. -/
theorem exists_branch (h : find (.whileLoop c body) = .exit x) :
    ∃ branch, body = .block (x.head ++ [branch]) ∧ x.Takes branch := by
  unfold find at h
  split at h
  · cases h
  · next hlast =>
    split at h
    · next hbreak =>
      cases h
      obtain ⟨constant, hs⟩ := eq_of_lastBranch? hlast
      cases hs
      exact ⟨_, rfl, .consequent rfl rfl (eq_append_of_beforeBreak? hbreak)⟩
    · cases h
  · next hlast =>
    split at h
    · cases h
    · next hbreak =>
      cases h
      obtain ⟨constant, hs⟩ := eq_of_lastBranch? hlast
      cases hs
      exact ⟨_, rfl, .alternate rfl rfl (eq_append_of_beforeBreak? hbreak)⟩
    · cases h

theorem Takes.understood {branch : Statement} (hx : x.Takes branch)
    (h : (statementsDiagram (x.head ++ [branch])).isUnderstood = true) : x.Understood := by
  obtain ⟨hhead, hbranch⟩ := Bool.and_eq_true_iff.1 ((isUnderstood_append _ _).symm.trans h)
  cases hx with
  | consequent _ retained spliced =>
    simp only [statementsDiagram, Statement.diagram, alternateDiagram, Diagram.parts,
      Diagram.isUnderstood, Bool.and_true, Bool.and_eq_true, ← isUnderstood_asList, spliced,
      isUnderstood_append] at hbranch
    refine ⟨hhead, ?_, hbranch.2⟩
    rw [retained]
    rfl
  | alternate _ retained spliced =>
    simp only [statementsDiagram, Statement.diagram, alternateDiagram, Diagram.parts,
      Diagram.isUnderstood, Bool.and_true, Bool.and_eq_true, ← isUnderstood_asList, spliced,
      isUnderstood_append] at hbranch
    refine ⟨hhead, ?_, hbranch.2.2⟩
    rw [retained]
    exact hbranch.2.1

/-- The branch stays in the loop or leaves it. -/
theorem Takes.statement_eq {branch : Statement} (hx : x.Takes branch) :
    M.statement [] branch =
      either (M.holds x.stays) (M.statements x.retained) (M.statements x.spliced).exit := by
  have hexit : ∀ {s : Statement}, s.asList = x.spliced ++ [.breaks none] →
      M.statement [] s = (M.statements x.spliced).exit := by
    intro s hs
    rw [← M.statements_asList, hs, M.statements_append, M.statements_single]
    rfl
  cases hx with
  | @consequent s side retained spliced =>
    funext u
    have hstays : M.holds x.stays u = !M.holds x.test u := by
      rw [stays, side]
      exact M.holds_negated x.test u
    have hbranch : M.statement [] (.branch x.test s none) u =
      either (M.holds x.test) (M.statement [] s) skip u := rfl
    rw [hbranch, hexit spliced, retained]
    cases htest : M.holds x.test u with
    | true => rw [either_pos htest, either_neg (by rw [hstays, htest]; rfl)]
    | false =>
      rw [either_neg htest, either_pos (by rw [hstays, htest]; rfl)]
      rfl
  | @alternate s other side retained spliced =>
    have hstays : x.stays = x.test := by
      rw [stays, side]
    rw [hstays, retained, ← hexit spliced, M.statements_asList]
    rfl

/-- A round of the loop: the statements in front, and then the branch. -/
theorem Takes.round_eq {branch : Statement} (hx : x.Takes branch) :
    M.statements (x.head ++ [branch]) = (M.statements x.head).andThen
      (either (M.holds x.stays) (M.statements x.retained) (M.statements x.spliced).exit) := by
  rw [M.statements_append, M.statements_single, hx.statement_eq]

/-- What the search for jumps says about the parts of a loop that is rebuilt. -/
structure Quiet (M : Interpretation σ ν ι) (x : LoopExit) : Prop where
  head : (M.statements x.head).Ends (· ≠ .continues none)
  retained : (M.statements x.retained).Ends (· ≠ .continues none)
  spliced : (M.statements x.spliced).Ends (·.Spares true false)
  breaks : M.statements x.spliced = skip ∨
    (M.statements (x.head ++ x.retained)).Ends (· ≠ .breaks none)

/-- A loop that may be rebuilt is quiet, by the search for jumps. -/
theorem quiet (hx : x.isRebuildable = true) (hu : x.Understood) : x.Quiet M := by
  simp only [isRebuildable, Bool.and_eq_true, Bool.not_eq_true', Bool.or_eq_true,
    List.isEmpty_iff] at hx
  obtain ⟨⟨⟨hhead, hretained⟩, hspliced⟩, hbreaks⟩ := hx
  refine ⟨?_, ?_, M.statements_ends _ _ hu.spliced hspliced, hbreaks.imp ?_ ?_⟩
  · exact (M.statements_ends _ _ hu.head hhead).mono fun _ hc => hc.continues_ne
  · exact (M.statements_ends _ _ hu.retained hretained).mono fun _ hc => hc.continues_ne
  · intro h
    rw [h]
    rfl
  · intro h
    rw [← anyJumps_append] at h
    have hboth : (statementsDiagram (x.head ++ x.retained)).isUnderstood = true := by
      rw [isUnderstood_append, hu.head, hu.retained]
      rfl
    exact (M.statements_ends _ _ hboth h).mono fun _ hc => hc.breaks_ne rfl

theorem Quiet.kept (hq : x.Quiet M) :
    (M.statements (x.head ++ x.retained)).Ends (· ≠ .continues none) := by
  rw [M.statements_append]
  exact hq.head.andThen hq.retained

theorem Quiet.exit (hq : x.Quiet M) :
    (M.statements x.spliced).exit.Ends (· ≠ .continues none) := by
  refine (hq.spliced.mono fun _ hc => hc.continues_ne).andThen (.ends fun h => ?_)
  cases h

/-- A loop without a `continue` repeats its body as long as the test holds. -/
theorem statement_whileLoop {test : Expression} {body : List Statement}
    (hbody : (M.statements body).Ends (· ≠ .continues none)) :
    M.statement [] (.whileLoop test (.block body)) =
      repeated (guarded (M.holds test) (M.statements body)) := by
  have hround : (M.statements body).ending (.continued []) = M.statements body :=
    ending_eq_self (hbody.mono fun _ hc => Completion.continued_nil hc)
  rw [← hround]
  rfl

theorem guarded_constant {p : σ → Bool} (hp : ∀ u, p u = true) (m : Behavior σ ν) :
    guarded p m = m := funext fun u => guarded_true m (hp u)

/-- The loop as it stands in the program. -/
theorem Quiet.statement_eq {branch : Statement} (hq : x.Quiet M) (hx : x.Takes branch)
    (hc : ∀ u, M.holds c u = true) :
    M.statement [] (.whileLoop c (.block (x.head ++ [branch]))) =
      repeated ((M.statements x.head).andThen
        (either (M.holds x.stays) (M.statements x.retained) (M.statements x.spliced).exit)) := by
  have hround := hx.round_eq (M := M)
  have hends := hq.head.andThen (.either (p := M.holds x.stays) hq.retained hq.exit)
  rw [← hround] at hends
  rw [statement_whileLoop hends, guarded_constant hc, hround]

/-- The rebuilt loop with the exit behind it is a loop that leaves before its first statement. -/
theorem Quiet.rebuilt_eq (hq : x.Quiet M) :
    M.statements (x.loop :: x.spliced) =
      repeated (either (M.holds x.stays) (M.statements (x.head ++ x.retained))
        (M.statements x.spliced).exit) := by
  have hloop : M.statement [] x.loop =
      repeated (guarded (M.holds x.stays) (M.statements (x.head ++ x.retained))) :=
    statement_whileLoop hq.kept
  rw [repeated_either_exit (hq.spliced.mono fun _ hc => hc.breaks_ne rfl) hq.breaks, ← hloop]
  rfl

/-- What the pass puts in the place of a loop. -/
theorem rebuild_eq (h : find (.whileLoop c body) = .exit x) (hx : x.isRebuildable = true)
    (location : Nat) (p : Progress) :
    ((LoopRebuilding.rebuild location [.whileLoop c body]).run p).1 = x.loop :: x.spliced := by
  rw [LoopRebuilding.run_rebuild, List.flatMap_singleton, LoopRebuilding.rebuilt, h]
  exact if_pos hx

/-- Without another branch, the rebuilt loop does the same as the loop it stands for, if the way out
is not taken at the start. -/
theorem rebuilt_without_else (M : Interpretation σ ν ι) (hfind : find (.whileLoop c body) = .exit x)
    (hside : x.side = .consequent) (hx : x.isRebuildable = true)
    (hunderstood : body.diagram.isUnderstood = true) (hc : ∀ u, M.holds c u = true) {u : σ}
    (hu : M.holds x.test u = false) (location : Nat) (p : Progress) :
    ((LoopRebuilding.rebuild location [.whileLoop c body]).run p).1 =
        .whileLoop x.test.negated (.block x.head) :: x.spliced ∧
      M.statements (.whileLoop x.test.negated (.block x.head) :: x.spliced) u =
        M.statement [] (.whileLoop c body) u := by
  obtain ⟨branch, rfl, hbranch⟩ := exists_branch hfind
  have hretained : x.retained = [] := by
    cases hbranch with
    | consequent _ retained _ => exact retained
    | alternate side _ _ => cases hside.symm.trans side
  have hloop : x.loop = .whileLoop x.test.negated (.block x.head) := by
    rw [loop_eq, stays, hside, hretained, List.append_nil]
  have hstays : M.holds x.stays u = true := by
    rw [stays, hside]
    exact (M.holds_negated x.test u).trans (congrArg not hu)
  have hq : x.Quiet M := quiet hx (hbranch.understood ((Bool.and_true _).symm.trans hunderstood))
  rw [← hloop]
  refine ⟨rebuild_eq hfind hx location p, ?_⟩
  calc M.statements (x.loop :: x.spliced) u
    _ = repeated (either (M.holds x.stays) (M.statements x.head)
          (M.statements x.spliced).exit) u := by
      rw [hq.rebuilt_eq, hretained, List.append_nil]
    _ = repeated ((M.statements x.head).andThen
          (either (M.holds x.stays) skip (M.statements x.spliced).exit)) u :=
      (repeated_andThen_either (exit_ends _) hstays).symm
    _ = M.statement [] (.whileLoop c (.block (x.head ++ [branch]))) u := by
      rw [hq.statement_eq hbranch hc, hretained]
      rfl

def less : Expression := .binary .less (.identifier "i") (.identifier "n")

def always : Expression := .literal ⟨.boolean true, none, none, none⟩

/-- `step(); if (!(i < n)) { finish(); break; }` -/
def stepUnlessDone : Statement :=
  .block [call "step", .branch (.unary .not true less) (.block [call "finish", .breaks none]) none]

def stepping : LoopExit :=
  ⟨.consequent, [call "step"], .unary .not true less, [], [call "finish"]⟩

theorem find_stepUnlessDone : find (.whileLoop always stepUnlessDone) = .exit stepping := rfl

/-- After two steps the way out is taken, in the loop and behind the rebuilt one. -/
theorem rebuilt_without_else_steps :
    find (.whileLoop always stepUnlessDone) = .exit stepping ∧
      (calls List.concat (·.length < 2)).holds (.unary .not true less) [] = false ∧
      ((LoopRebuilding.rebuild 0 [.whileLoop always stepUnlessDone]).run {}).1 =
        [.whileLoop less (.block [call "step"]), call "finish"] ∧
      (calls List.concat (·.length < 2)).statements
          [.whileLoop less (.block [call "step"]), call "finish"] [] =
        (calls List.concat (·.length < 2)).statement [] (.whileLoop always stepUnlessDone) [] :=
  ⟨rfl, rfl, rebuilt_without_else _ find_stepUnlessDone rfl rfl rfl (fun _ => rfl) rfl 0 {}⟩

/-- In this state the statements before the `if` leave its test as it is, and where the test fails
they make no difference to the way out. -/
structure Steady (M : Interpretation σ ν ι) (x : LoopExit) (w : σ) : Prop where
  test : ∀ v, (v, .normal) ∈ M.statements x.head w → M.holds x.test v = M.holds x.test w
  exit : M.holds x.test w = false →
    M.statements (x.head ++ x.spliced) w = M.statements x.spliced w

/-- In such a state a round does the same, whether the test comes first or behind the head. -/
theorem Steady.round_eq {w : σ} (h : x.Steady M w) :
    either (M.holds x.test) (M.statements (x.head ++ x.retained)) (M.statements x.spliced).exit w =
      (M.statements x.head).andThen
        (either (M.holds x.test) (M.statements x.retained) (M.statements x.spliced).exit) w := by
  cases htest : M.holds x.test w with
  | true =>
    rw [either_pos htest, M.statements_append]
    refine andThen_congr fun v hv => ?_
    rw [either_pos ((h.test v hv).trans htest)]
  | false =>
    have hexit : (M.statements (x.head ++ x.spliced)).exit w = (M.statements x.spliced).exit w := by
      rw [Behavior.exit, Behavior.exit, andThen, andThen, h.exit htest]
    rw [either_neg htest, ← hexit, M.statements_append, Behavior.exit, andThen_assoc]
    refine andThen_congr fun v hv => ?_
    rw [either_neg ((h.test v hv).trans htest)]
    rfl

def early (c : Expression) (x : LoopExit) : Statement :=
  .whileLoop c (.block [.branch x.test (.block (x.head ++ x.retained))
    (some (.block (x.spliced ++ [.breaks none])))])

/-- A loop that tests before its first statement repeats a choice. -/
theorem Quiet.early_eq (hq : x.Quiet M) (hc : ∀ u, M.holds c u = true) :
    M.statement [] (early c x) =
      repeated (either (M.holds x.test) (M.statements (x.head ++ x.retained))
        (M.statements x.spliced).exit) := by
  have hround : M.statements [.branch x.test (.block (x.head ++ x.retained))
      (some (.block (x.spliced ++ [.breaks none])))] =
      either (M.holds x.test) (M.statements (x.head ++ x.retained))
        (M.statements x.spliced).exit := by
    have hexit : M.statements (x.spliced ++ [.breaks none]) = (M.statements x.spliced).exit := by
      rw [M.statements_append, M.statements_single]
      rfl
    rw [M.statements_single, ← hexit]
    rfl
  have hends := hq.kept.either (p := M.holds x.test) hq.exit
  rw [← hround] at hends
  rw [early, statement_whileLoop hends, guarded_constant hc, hround]

/-- With another branch, every round of the rebuilt loop tests before it does anything. This is the
same for a start in which all rounds are steady. -/
theorem rebuilt_with_else (M : Interpretation σ ν ι) (hfind : find (.whileLoop c body) = .exit x)
    (hside : x.side = .alternate) (hx : x.isRebuildable = true)
    (hunderstood : body.diagram.isUnderstood = true) (hc : ∀ u, M.holds c u = true)
    (location : Nat) (p : Progress) :
    ((LoopRebuilding.rebuild location [.whileLoop c body]).run p).1 =
        .whileLoop x.test (.block (x.head ++ x.retained)) :: x.spliced ∧
      M.statements (.whileLoop x.test (.block (x.head ++ x.retained)) :: x.spliced) =
        M.statement [] (early c x) ∧
      ∀ u, (∀ w, (guarded (M.holds x.test) (M.statements (x.head ++ x.retained))).Rounds u w →
          x.Steady M w) →
        M.statements (.whileLoop x.test (.block (x.head ++ x.retained)) :: x.spliced) u =
          M.statement [] (.whileLoop c body) u := by
  obtain ⟨branch, rfl, hbranch⟩ := exists_branch hfind
  have hstays : x.stays = x.test := by
    rw [stays, hside]
  have hq : x.Quiet M := quiet hx (hbranch.understood ((Bool.and_true _).symm.trans hunderstood))
  have hloop : x.loop = .whileLoop x.test (.block (x.head ++ x.retained)) := by
    rw [loop_eq, hstays]
  have hrebuilt := hq.rebuilt_eq
  rw [hstays] at hrebuilt
  rw [← hloop, hrebuilt]
  refine ⟨rebuild_eq hfind hx location p, (hq.early_eq hc).symm, fun u hsteady => ?_⟩
  rw [hq.statement_eq hbranch hc, hstays]
  exact repeated_congr fun w hw => (hsteady w hw.guarded).round_eq

/-- `step(); if (i < n) { advance(); } else { finish(); break; }` -/
def stepOrFinish : Statement :=
  .block [call "step", .branch less (.block [call "advance"])
    (some (.block [call "finish", .breaks none]))]

def finishing : LoopExit := ⟨.alternate, [call "step"], less, [call "advance"], [call "finish"]⟩

theorem find_stepOrFinish : find (.whileLoop always stepOrFinish) = .exit finishing := rfl

theorem takes_stepOrFinish : finishing.Takes (.branch less (.block [call "advance"])
    (some (.block [call "finish", .breaks none]))) := .alternate rfl rfl rfl

section Finishing

theorem statement_stepOrFinish : M.statement [] stepOrFinish =
    (M.statements [call "step"]).andThen (either (M.holds less) (M.statements [call "advance"])
      (M.statements [call "finish"]).exit) := takes_stepOrFinish.round_eq

variable {note : List String → String → List String} {p : List String → Bool} {s : List String}

/-- A round that stays in the loop. -/
theorem stepOrFinish_next (h : p (note s "step") = true) :
    (["step", "advance"].foldl note s, .normal) ∈ (calls note p).statement [] stepOrFinish s := by
  have hstep := Interpretation.statements_call note p ["step"] s
  have hadvance := Interpretation.statements_call note p ["advance"] (note s "step")
  have htest : (calls note p).holds less (note s "step") = true := h
  rw [statement_stepOrFinish]
  refine mem_andThen.2 (.inl ⟨note s "step", Part.eq_some_iff.1 hstep, ?_⟩)
  rw [either_pos htest]
  exact Part.eq_some_iff.1 hadvance

theorem stepOrFinish_break (h : p (note s "step") = false) :
    (["step", "finish"].foldl note s, .breaks none) ∈
      (calls note p).statement [] stepOrFinish s := by
  have hstep := Interpretation.statements_call note p ["step"] s
  have hfinish := Interpretation.statements_call note p ["finish"] (note s "step")
  have htest : (calls note p).holds less (note s "step") = false := h
  rw [statement_stepOrFinish]
  refine mem_andThen.2 (.inl ⟨note s "step", Part.eq_some_iff.1 hstep, ?_⟩)
  rw [either_neg htest]
  exact mem_andThen.2 (.inl ⟨_, Part.eq_some_iff.1 hfinish, Part.mem_some _⟩)

theorem finishing_next {r : List String × Completion Unit} (h : p s = true)
    (hr : r ∈ (calls note p).statement [] finishing.loop (["step", "advance"].foldl note s)) :
    r ∈ (calls note p).statement [] finishing.loop s :=
  Interpretation.whileLoop_next h
    (Part.eq_some_iff.1 (Interpretation.statements_call note p ["step", "advance"] s)) hr

end Finishing

/-- That the test holds at the start is not enough. If the statements before the `if` make it fail,
the original loop leaves without its first branch. If they leave it as it is, the original loop does
them once more before it leaves. -/
theorem rebuilt_with_else_ne :
    find (.whileLoop always stepOrFinish) = .exit finishing ∧ finishing.isRebuildable = true ∧
      (calls List.concat List.isEmpty).holds less [] = true ∧
      (["step", "finish"], .normal) ∈
        (calls List.concat List.isEmpty).statement [] (.whileLoop always stepOrFinish) [] ∧
      (["step", "advance", "finish"], .normal) ∈
        (calls List.concat List.isEmpty).statements (finishing.loop :: finishing.spliced) [] ∧
      (calls List.concat (!·.contains "advance")).holds less [] = true ∧
      (["step", "advance", "step", "finish"], .normal) ∈
        (calls List.concat (!·.contains "advance")).statement []
          (.whileLoop always stepOrFinish) [] ∧
      (["step", "advance", "finish"], .normal) ∈
        (calls List.concat (!·.contains "advance")).statements
          (finishing.loop :: finishing.spliced) [] := by
  have hrebuilt : ∀ p : List String → Bool, p [] = true → p ["step", "advance"] = false →
      (["step", "advance", "finish"], .normal) ∈
        (calls List.concat p).statements (finishing.loop :: finishing.spliced) [] := by
    intro p hstart hlast
    have hloop : (["step", "advance"], .normal) ∈
        (calls List.concat p).statement [] finishing.loop [] :=
      finishing_next hstart (Interpretation.whileLoop_end hlast)
    have hfinish := Interpretation.statements_call List.concat p ["finish"] ["step", "advance"]
    exact mem_andThen.2 (.inl ⟨_, hloop, Part.eq_some_iff.1 hfinish⟩)
  refine ⟨rfl, rfl, rfl, ?_, hrebuilt _ rfl rfl, rfl, ?_, hrebuilt _ rfl rfl⟩
  · exact Interpretation.whileLoop_break rfl (stepOrFinish_break rfl)
  · exact Interpretation.whileLoop_next rfl (stepOrFinish_next rfl)
      (Interpretation.whileLoop_break rfl (stepOrFinish_break rfl))

/-- A second call of `step` does nothing here. -/
theorem rebuilt_with_else_idle :
    find (.whileLoop always stepOrFinish) = .exit finishing ∧
      (calls (fun s name => s.insert name) (!·.contains "advance")).statements
          [.whileLoop less (.block [call "step", call "advance"]), call "finish"] [] =
        (calls (fun s name => s.insert name) (!·.contains "advance")).statement []
          (.whileLoop always stepOrFinish) [] := by
  refine ⟨rfl, (rebuilt_with_else _ find_stepOrFinish rfl rfl rfl (fun _ => rfl) 0 {}).2.2 [] ?_⟩
  intro w hw
  have hrounds : w = [] ∨ w = ["advance", "step"] := by
    induction hw with
    | refl => exact .inl rfl
    | tail _ hnext ih =>
      rcases ih with rfl | rfl
      · rw [guarded_true _ rfl] at hnext
        have hround := Part.eq_some_iff.1 (Interpretation.statements_call
          (fun s name => s.insert name) (!·.contains "advance") ["step", "advance"] [])
        cases Part.mem_unique hround hnext
        exact .inr rfl
      · rw [guarded_false _ rfl] at hnext
        cases Part.mem_some_iff.1 hnext
  have hcalls := Interpretation.statements_call (fun s name => s.insert name)
    (!·.contains "advance")
  rcases hrounds with rfl | rfl
  · refine ⟨fun v hv => ?_, nofun⟩
    cases Part.mem_unique (Part.eq_some_iff.1 (hcalls ["step"] [])) hv
    rfl
  · refine ⟨fun v hv => ?_, fun _ => ?_⟩
    · cases Part.mem_unique (Part.eq_some_iff.1 (hcalls ["step"] ["advance", "step"])) hv
      rfl
    · exact (hcalls ["step", "finish"] _).trans (hcalls ["finish"] _).symm

end LoopExit
end Untangle
