import Untangle.Pass.Dictionary
import Untangle.Proofs.Pass.Progress
import Untangle.Proofs.Walk.State

/-!
# What the inlining of dictionaries counts

Outside the functions that lose a dictionary nothing is inlined, and nothing
changes. What is inlined is counted, and what is counted is recorded.
-/
namespace Untangle.DictionaryInlining

/-- No function around the current place has lost a dictionary. -/
def Plain (frames : List Frame) : Prop := ∀ f ∈ frames, f.dictionary = none

theorem plain_cons {f : Frame} {frames : List Frame} :
    Plain (f :: frames) ↔ f.dictionary = none ∧ Plain frames := by
  simp [Plain]

theorem Frame.declares_eq_false {f : Frame} (h : f.dictionary = none) (name : String) :
    f.declares name = false := by
  simp [declares, h]

/-- Outside of the functions that lost a dictionary no name stands for one. -/
theorem resolve?_plain {frames : List Frame} (h : Plain frames) (name : String) :
    resolve? name frames = none := by
  induction frames with
  | nil => rfl
  | cons f rest ih =>
    obtain ⟨hf, hrest⟩ := plain_cons.1 h
    simp [resolve?, Frame.declares_eq_false hf, ih hrest]

theorem updateResolved_plain {frames : List Frame} (h : Plain frames) (name : String)
    (g : Tracked → Tracked) : updateResolved name g frames = frames := by
  induction frames with
  | nil => rfl
  | cons f rest ih =>
    obtain ⟨hf, hrest⟩ := plain_cons.1 h
    simp [updateResolved, Frame.declares_eq_false hf, ih hrest]

theorem entryAt?_plain {frames : List Frame} (h : Plain frames) (object property : Expression)
    (computed : Bool) : entryAt? frames object property computed = none := by
  simp [entryAt?, resolve?_plain h]

/-- Without a dictionary every expression stays as it is. -/
theorem leaveExpression_plain {s : State} (h : Plain s.frames) (e : Expression) :
    (leaveExpression e).run s = (e, s) := by
  unfold leaveExpression
  split
  · next name =>
    have hframes := updateResolved_plain h name fun t => { t with references := t.references + 1 }
    show (Expression.identifier name, { s with frames := updateResolved name _ s.frames }) = _
    rw [hframes]
  · next object property computed optional =>
    have hentry := entryAt?_plain h object property computed
    simp [inlineConstant, hentry]
    rfl
  · next object property computed chained arguments optional =>
    have hentry := entryAt?_plain h object property computed
    simp [hentry]
    rfl
  · rfl

/-- From one state to a later one at the same depth: no change is taken back, changes and recorded
transformations stay in balance, and every function has lost a dictionary or has not, as before. -/
structure Advances (s t : State) : Prop where
  changes : s.progress.changes ≤ t.progress.changes
  balanced : s.progress.Balanced → t.progress.Balanced
  frames : t.frames.map (·.dictionary.isSome) = s.frames.map (·.dictionary.isSome)

namespace Advances

theorem refl (s : State) : Advances s s := ⟨Nat.le_refl _, id, rfl⟩

theorem trans {s t u : State} (h : Advances s t) (h' : Advances t u) : Advances s u :=
  ⟨Nat.le_trans h.changes h'.changes, h'.balanced ∘ h.balanced, h'.frames.trans h.frames⟩

theorem plain {s t : State} (h : Advances s t) (hs : Plain s.frames) : Plain t.frames := by
  intro f hf
  have hmem : f.dictionary.isSome ∈ s.frames.map (·.dictionary.isSome) := by
    rw [← h.frames]
    exact List.mem_map_of_mem hf
  obtain ⟨g, hg, he⟩ := List.mem_map.1 hmem
  rw [hs g hg] at he
  exact Option.not_isSome_iff_eq_none.1 (he ▸ Bool.false_ne_true)

end Advances

/-- Counting a use does not give a function a dictionary, nor take one. -/
theorem isSome_updateResolved (name : String) (g : Tracked → Tracked) (frames : List Frame) :
    (updateResolved name g frames).map (·.dictionary.isSome) =
      frames.map (·.dictionary.isSome) := by
  induction frames with
  | nil => rfl
  | cons f rest ih =>
    unfold updateResolved
    split
    · simp
    · split
      · rfl
      · rw [List.map_cons, List.map_cons, ih]

theorem keeps_warning (location : Option Nat) (message : String) :
    Keeps Advances (record .warning location message) :=
  fun _ => ⟨Nat.le_refl _, fun h => h.record rfl, rfl⟩

/-- An inlined entry is counted and recorded. -/
theorem keeps_inlined (name message : String) {kind : EventKind}
    (hk : kind.isTransformation = true) :
    Keeps Advances (do countInlined name; record kind none message) :=
  fun s => ⟨Nat.le_succ _, fun h => h.change hk, isSome_updateResolved name _ s.frames⟩

/-- All that leaving an expression does to the state: nothing, or a name is met, or what is inlined
is counted and recorded, or there is a warning. -/
theorem keeps_of_steps {R : State → State → Prop} (hrefl : ∀ s, R s s)
    (hmet : ∀ name s, R s ⟨s.progress,
      updateResolved name (fun t => { t with references := t.references + 1 }) s.frames⟩)
    (hinlined : ∀ name message kind, kind ∈ [EventKind.constantInlined, .callInlined] →
      Keeps R (do countInlined name; record kind none message))
    (hwarning : ∀ message, Keeps R (record .warning none message)) (e : Expression) :
    Keeps R (leaveExpression e) := by
  intro s
  unfold leaveExpression
  split
  · next name => exact hmet name s
  · simp only [inlineConstant, StateT.run_bind, StateT.run_get, pure_bind]
    split
    · next name key _ _ => exact hinlined name (name ++ "." ++ key) .constantInlined (by simp) s
    · exact hrefl s
  · simp only [StateT.run_bind, StateT.run_get, pure_bind]
    split
    · next name key t _ =>
      unfold inlineTemplate
      split
      · exact hwarning _ s
      · split
        · exact hinlined name _ .callInlined (by simp) s
        · exact hwarning _ s
    · exact hrefl s
  · exact hrefl s

/-- Leaving an expression advances: whatever is inlined is counted and recorded. -/
theorem keeps_leaveExpression (e : Expression) : Keeps Advances (leaveExpression e) := by
  refine keeps_of_steps Advances.refl (fun name s => ?_) (fun name message kind hk => ?_)
    (keeps_warning none) e
  · exact ⟨Nat.le_refl _, id, isSome_updateResolved name _ s.frames⟩
  · have htransformation : ∀ kind ∈ [EventKind.constantInlined, .callInlined],
        kind.isTransformation = true := by decide
    exact keeps_inlined name message (htransformation kind hk)

/-- A function that keeps its first statement puts down a frame and nothing else. -/
theorem enterFunction_plain (params : List Expression) (body : Option (List Statement))
    (h : body.bind Dictionary.capture? = none) (s : State) :
    ∃ t, (enterFunction params body).run s = (0, t) ∧
      t.progress = s.progress.enterScope ∧
      t.frames = { params := params.filterMap Expression.identifier? } :: s.frames := by
  unfold enterFunction
  rw [h]
  exact ⟨_, rfl, rfl, rfl⟩

/-- A function that loses a dictionary counts as a change. -/
theorem enterFunction_captured (params : List Expression) (body : Option (List Statement))
    {d : Dictionary} (h : body.bind Dictionary.capture? = some d) (s : State) :
    ∃ t f, (enterFunction params body).run s = (1, t) ∧
      t.progress.changes = s.progress.changes + 1 ∧
      (s.progress.Balanced → t.progress.Balanced) ∧ t.frames = f :: s.frames := by
  unfold enterFunction
  rw [h]
  refine ⟨_, _, rfl, rfl, fun hs => ?_, rfl⟩
  have hentered : s.progress.enterScope.Balanced := hs
  exact (hentered.record rfl).change rfl

/-- Leaving a function may warn, and takes the innermost frame away. -/
theorem run_leaveFunction (s : State) :
    (leaveFunction.run s).2.progress.changes = s.progress.changes ∧
      (s.progress.Balanced → (leaveFunction.run s).2.progress.Balanced) ∧
      (leaveFunction.run s).2.frames = s.frames.tail := by
  simp only [leaveFunction, StateT.run_bind, StateT.run_get, pure_bind]
  split
  · next t _ _ hframes =>
    simp only [warnIfReferenced]
    by_cases ht : t.inlined < t.references
    · simp only [if_pos ht]
      exact ⟨rfl, fun h => h.record rfl, rfl⟩
    · simp only [if_neg ht]
      exact ⟨rfl, id, rfl⟩
  · exact ⟨rfl, id, rfl⟩

/-- What a function puts down when it is entered it takes away when it is left. -/
theorem advances_function (params : List Expression) (body : Option (List Statement)) (s t : State)
    (h : Advances ((enterFunction params body).run s).2 t) :
    Advances s (leaveFunction.run t).2 := by
  obtain ⟨hchanges, hbalanced, hframes⟩ := h
  obtain ⟨hleft, hstill, htail⟩ := run_leaveFunction t
  have htop : ∃ f, ((enterFunction params body).run s).2.frames = f :: s.frames ∧
      s.progress.changes ≤ ((enterFunction params body).run s).2.progress.changes ∧
      (s.progress.Balanced → ((enterFunction params body).run s).2.progress.Balanced) := by
    cases hd : body.bind Dictionary.capture? with
    | none =>
      obtain ⟨u, hu, hp, hf⟩ := enterFunction_plain params body hd s
      rw [hu]
      exact ⟨_, hf, hp ▸ Nat.le_refl _, fun hs => hp ▸ hs⟩
    | some d =>
      obtain ⟨u, f, hu, hc, hb, hf⟩ := enterFunction_captured params body hd s
      rw [hu]
      exact ⟨f, hf, Nat.le_trans (Nat.le_succ _) (Nat.le_of_eq hc.symm), hb⟩
  obtain ⟨f, hf, hc, hb⟩ := htop
  refine ⟨by omega, fun hs => hstill (hbalanced (hb hs)), ?_⟩
  rw [htail, List.map_tail, hframes, hf]
  rfl

end Untangle.DictionaryInlining
