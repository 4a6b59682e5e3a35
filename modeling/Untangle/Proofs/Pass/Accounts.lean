import Untangle.Proofs.Pass.Constants
import Untangle.Proofs.Syntax.Fragment

/-!
# Accounts of removed dictionaries

Of a dictionary of constants the pass knows exactly what is left of its name.
Every name that the walk meets is counted for the dictionary it refers to, and
every access that is replaced takes just one such name away. So when a function
is left, the counts in its frame tell how many names are left over that refer to
the dictionary it has lost, and this is the number in the warning.
-/
namespace Untangle

theorem Diagram.InTurn.imp {σ : Type} {P Q : Diagram → Diagram → σ → σ → Prop}
    {d d' : Diagram} {s t : σ} (h : Diagram.InTurn P d d' s t)
    (hPQ : ∀ {d d' s t}, P d d' s t → Q d d' s t) : Diagram.InTurn Q d d' s t := by
  induction h with
  | nothing s => exact .nothing s
  | pair first rest ih => exact .pair (hPQ first) ih

def EventLog.warnings (log : EventLog) : List Event := log.filter fun e => e.kind == .warning

namespace DictionaryInlining

/-- A removed dictionary by the number of its function and by its name, and how often it is still
referred to. -/
structure Tally where
  scope : Nat
  name : String
  references : Nat

def Tally.warning? (t : Tally) : Option Event :=
  if 0 < t.references then
    some (stillReferenced ("function#" ++ toString t.scope) t.name t.references)
  else none

namespace Residue

/-- The diagram, without what functions tell. -/
def plain : Residue → Diagram
  | .nothing => .nothing
  | .pair first rest => .pair first.plain rest.plain
  | .passed name => .passed name.plain
  | .expression _ root parts => .expression root parts.plain
  | .statement root parts => .statement root parts.plain
  | .clause root parts => .clause root parts.plain
  | .block parts => .block [] parts.plain
  | .function _ _ parts body => .function [] parts.plain body.plain

theorem Shows.plain_eq {r : Residue} {d : Diagram} (h : r.Shows d) : r.plain = d.plain := by
  induction h with
  | nothing => rfl
  | pair _ _ ihfirst ihrest => rw [plain, Diagram.plain, ihfirst, ihrest]
  | passed name => rfl
  | expression _ ih => rw [plain, Diagram.plain, ih]
  | statement _ ih => rw [plain, Diagram.plain, ih]
  | clause _ ih => rw [plain, Diagram.plain, ih]
  | block _ ih => rw [plain, Diagram.plain, ih]
  | function _ _ ihparts ihbody => rw [plain, Diagram.plain, ihparts, ihbody]

/-- How often a name is left over where no function inside binds it. -/
def occurrences : Residue → String → Nat
  | .nothing, _ | .passed _, _ => 0
  | .pair first rest, name => first.occurrences name + rest.occurrences name
  | .expression _ root parts, name =>
    (if root.names name then 1 else 0) + parts.occurrences name
  | .statement _ parts, name | .clause _ parts, name | .block parts, name =>
    parts.occurrences name
  | .function _ binder parts body, name =>
    if binder.binds name then 0 else parts.occurrences name + body.occurrences name

/-- The dictionaries that the functions have lost, in the order in which these are left. -/
def tallies : Residue → List Tally
  | .nothing | .passed _ => []
  | .pair first rest => first.tallies ++ rest.tallies
  | .expression _ _ parts | .statement _ parts | .clause _ parts | .block parts => parts.tallies
  | .function scope binder parts body =>
    parts.tallies ++ body.tallies ++
      (binder.dictionary.map fun d =>
        ⟨scope, d.name, parts.occurrences d.name + body.occurrences d.name⟩).toList

end Residue

def single (name n : String) : Nat := if name == n then 1 else 0

namespace Binder

/-- How much of what is left of names refers to the dictionary at a place. -/
def seen : List Binder → (String → Nat) → Nat → Nat
  | [], _, _ => 0
  | b :: _, w, 0 => (b.dictionary.map fun d => w d.name).getD 0
  | b :: rest, w, i + 1 => seen rest (b.hide w) i

theorem hide_single_of_binds {b : Binder} {name : String} (h : b.binds name = true) :
    b.hide (single name) = fun _ => 0 := by
  funext n
  unfold hide
  split
  · rfl
  · next hn =>
    have hne : ¬ (name == n) = true := fun hname => hn (beq_iff_eq.1 hname ▸ h)
    exact if_neg hne

/-- A name that a function does not bind is seen from outside of it. -/
theorem hide_single_of_not_binds {b : Binder} {name : String} (h : b.binds name = false) :
    b.hide (single name) = single name := by
  funext n
  unfold hide
  split
  · next hn =>
    have hne : ¬ (name == n) = true := fun hname =>
      Bool.eq_false_iff.1 h ((beq_iff_eq.1 hname).symm ▸ hn)
    exact (if_neg hne).symm
  · rfl

theorem seen_zero (bs : List Binder) (i : Nat) : seen bs (fun _ => 0) i = 0 := by
  induction bs generalizing i with
  | nil => rfl
  | cons b rest ih =>
    cases i with
    | zero =>
      rw [seen]
      cases b.dictionary <;> rfl
    | succ i =>
      have hhide : b.hide (fun _ => 0) = fun _ => 0 := funext fun _ => ite_self 0
      rw [seen, hhide, ih]

theorem seen_add (bs : List Binder) (w w' : String → Nat) (i : Nat) :
    seen bs (fun name => w name + w' name) i = seen bs w i + seen bs w' i := by
  induction bs generalizing w w' i with
  | nil => rfl
  | cons b rest ih =>
    cases i with
    | zero =>
      rw [seen, seen, seen]
      cases b.dictionary <;> rfl
    | succ i =>
      have hhide : b.hide (fun name => w name + w' name) =
          fun name => b.hide w name + b.hide w' name := funext fun _ => b.hide_add _
      rw [seen, seen, seen, hhide, ih]

end Binder

/-- How much more often the name of the dictionary was met than replaced. -/
def Frame.owed (f : Frame) : Int :=
  (f.dictionary.map fun t => (t.references - t.inlined : Int)).getD 0

def owed : List Frame → Nat → Int
  | [], _ => 0
  | f :: _, 0 => f.owed
  | _ :: rest, i + 1 => owed rest i

/-- What is met or replaced counts for the dictionary that the name refers to. -/
theorem owed_updateResolved {g : Tracked → Tracked} {k : Int}
    (hg : ∀ x, ((g x).references - (g x).inlined : Int) = x.references - x.inlined + k)
    (name : String) (frames : List Frame) (i : Nat) :
    owed (updateResolved name g frames) i =
      owed frames i + k * Binder.seen (frames.map Frame.binder) (single name) i := by
  induction frames generalizing i with
  | nil => simp [updateResolved, owed, Binder.seen]
  | cons f rest ih =>
    rw [updateResolved, List.map_cons, ← declares_binder]
    by_cases hdeclares : f.binder.declares name = true
    · -- the count is for this frame, and further out the name is hidden
      rw [if_pos hdeclares]
      cases i with
      | zero =>
        obtain ⟨d, hd, hname⟩ := Binder.declares_iff.1 hdeclares
        obtain ⟨x, hx, rfl⟩ := Option.map_eq_some_iff.1 hd
        simp [owed, Frame.owed, Binder.seen, Frame.binder, hx, hname, hg, single]
      | succ i =>
        have hbinds : f.binder.binds name = true := by rw [Binder.binds, hdeclares, Bool.true_or]
        simp [owed, Binder.seen, Binder.hide_single_of_binds hbinds, Binder.seen_zero]
    · rw [if_neg hdeclares]
      have hfirst : Binder.seen (f.binder :: rest.map Frame.binder) (single name) 0 = 0 := by
        rw [Binder.seen]
        cases hd : f.binder.dictionary with
        | none => rfl
        | some d =>
          refine if_neg fun hname => hdeclares (Binder.declares_iff.2 ⟨d, hd, ?_⟩)
          exact (beq_iff_eq.1 hname).symm
      by_cases hparams : f.binder.params.contains name = true
      · have hbinds : f.binder.binds name = true := by rw [Binder.binds, hparams, Bool.or_true]
        have hparams' : f.params.contains name = true := hparams
        rw [if_pos hparams']
        cases i with
        | zero => rw [hfirst]; simp
        | succ i => simp [Binder.seen, Binder.hide_single_of_binds hbinds, Binder.seen_zero]
      · have hbinds : f.binder.binds name = false := by
          rw [Binder.binds, Bool.eq_false_iff.2 hdeclares, Bool.eq_false_iff.2 hparams,
            Bool.or_self]
        have hparams' : ¬ f.params.contains name = true := hparams
        rw [if_neg hparams']
        cases i with
        | zero => rw [hfirst]; simp [owed]
        | succ i =>
          rw [Binder.seen, Binder.hide_single_of_not_binds hbinds]
          exact ih i

/-- The warning for a frame that still owes something. -/
def Frame.overdue? (label : String) (f : Frame) : Option Event :=
  f.dictionary.bind fun t =>
    if t.inlined < t.references then
      some (stillReferenced label t.dictionary.name (t.references - t.inlined))
    else none

theorem warnings_enterFunction (params : List Expression) (body : Option (List Statement))
    (s : State) :
    ((enterFunction params body).run s).2.progress.events.warnings =
      s.progress.events.warnings := by
  unfold enterFunction
  cases body.bind Dictionary.capture? with
  | none => rfl
  | some d =>
    show (List.filter _ ((s.progress.events ++ [_]) ++ [_])) = _
    rw [List.filter_append, List.filter_append]
    exact (List.append_nil _).trans (List.append_nil _)

/-- Leaving a function adds the warning that its frame is due. -/
theorem warnings_leaveFunction {s : State} {f : Frame} {rest : List Frame}
    (hs : s.frames = f :: rest) :
    (leaveFunction.run s).2.progress.events.warnings =
      s.progress.events.warnings ++ (f.overdue? s.progress.scopes.label).toList := by
  simp only [leaveFunction, StateT.run_bind, StateT.run_get, pure_bind, hs]
  obtain ⟨_ | t, params⟩ := f
  · exact (List.append_nil _).symm
  · simp only [warnIfReferenced, Frame.overdue?, Option.bind_some]
    by_cases ht : t.inlined < t.references
    · simp only [if_pos ht]
      exact List.filter_append s.progress.events [_]
    · simp only [if_neg ht]
      exact (List.append_nil _).symm

/-- Where all is constant, there is no warning about a template. -/
theorem warnings_leaveExpression {s : State} (hs : Constant (binders s)) (e : Expression) :
    ((leaveExpression e).run s).2.progress.events.warnings = s.progress.events.warnings := by
  unfold leaveExpression
  split
  · rfl
  · simp only [inlineConstant, StateT.run_bind, StateT.run_get, pure_bind]
    split
    · show List.filter _ (s.progress.events ++ [_]) = _
      rw [List.filter_append]
      exact List.append_nil _
    · rfl
  · next object property computed chained arguments optional =>
    simp only [StateT.run_bind, StateT.run_get, pure_bind]
    split
    · next name key t hentry =>
      have hlookup := entryAt?_frames s object property computed chained
      rw [hentry] at hlookup
      obtain ⟨_, _, _, key', d, -, -, hd, hget⟩ := exists_of_lookup? hlookup.symm
      exact absurd hget (Dictionary.get?_ne_template (hs.resolve? hd) key' t)
    · rfl
  · rfl

/-- From one state to another, what the frames owe has grown by what is left of names, and warned
was about the dictionaries that functions have lost. -/
structure Accounts (r : Residue) (s t : State) : Prop where
  owes : ∀ i, owed t.frames i = owed s.frames i + Binder.seen (binders s) r.occurrences i
  warns : t.progress.events.warnings =
    s.progress.events.warnings ++ r.tallies.filterMap Tally.warning?

namespace Accounts

variable {r r' : Residue} {a a' b b' : Diagram} {s t u w : State}

theorem refl (s : State) : Accounts .nothing s s where
  owes i := by
    have hzero : Binder.seen (binders s) (Residue.occurrences .nothing) i = 0 :=
      Binder.seen_zero _ i
    rw [hzero]
    exact (Int.add_zero _).symm
  warns := (List.append_nil _).symm

theorem of_eq (h : Accounts r s t) (hr : r'.occurrences = r.occurrences)
    (htallies : r'.tallies = r.tallies) : Accounts r' s t :=
  ⟨hr ▸ h.owes, htallies ▸ h.warns⟩

theorem pair (h : Accounts r s t) (h' : Accounts r' t u) (hbinders : binders t = binders s) :
    Accounts (.pair r r') s u where
  owes i := by
    have hsum : Binder.seen (binders s) (Residue.occurrences (.pair r r')) i = _ :=
      Binder.seen_add (binders s) r.occurrences r'.occurrences i
    rw [h'.owes, h.owes, hbinders, hsum]
    omega
  warns := by
    rw [h'.warns, h.warns, Residue.tallies, List.filterMap_append, List.append_assoc]

section Expression

variable {e e' : Expression} {root : ExpressionRoot}

/-- A name is counted when it is met. -/
theorem met {name : String} (h : Accounts r s t) (hbinders : binders t = binders s)
    (hframes : u.frames = updateResolved name .met t.frames)
    (hwarns : u.progress.events.warnings = t.progress.events.warnings) :
    Accounts (.expression true (.identifier name) r) s u where
  owes i := by
    have hmet : ∀ x : Tracked,
        ((Tracked.met x).references - (Tracked.met x).inlined : Int) =
          x.references - x.inlined + 1 := by
      intro x
      simp only [Tracked.met]
      omega
    have hsum : (Residue.expression true (.identifier name) r).occurrences =
        fun n => single name n + r.occurrences n := rfl
    rw [hsum, Binder.seen_add, hframes, owed_updateResolved hmet, h.owes, ← hbinders]
    show owed s.frames i + _ + 1 * (Binder.seen (binders t) (single name) i : Int) = _
    omega
  warns := hwarns.trans h.warns

/-- What has no name of its own stays. -/
theorem kept (h : Accounts r s t) (hroot : ∀ name, root.names name = false)
    (hframes : u.frames = t.frames)
    (hwarns : u.progress.events.warnings = t.progress.events.warnings) :
    Accounts (.expression true root r) s u where
  owes i := by
    have hsame : (Residue.expression true root r).occurrences = r.occurrences := by
      funext n
      rw [Residue.occurrences, hroot, if_neg Bool.false_ne_true, Nat.zero_add]
    rw [hsame, hframes, h.owes]
  warns := hwarns.trans h.warns

/-- With an access one name goes, and nothing else. -/
theorem replaced {name : String} (h : Accounts r s t) (hbinders : binders t = binders s)
    (hr : r.occurrences = single name) (htallies : r.tallies = [])
    (hr' : r'.occurrences = fun _ => 0) (htallies' : r'.tallies = [])
    (hframes : u.frames = updateResolved name .used t.frames)
    (hwarns : u.progress.events.warnings = t.progress.events.warnings) : Accounts r' s u where
  owes i := by
    have hused : ∀ x : Tracked,
        ((Tracked.used x).references - (Tracked.used x).inlined : Int) =
          x.references - x.inlined + -1 := by
      intro x
      simp only [Tracked.used]
      omega
    rw [hr', Binder.seen_zero, hframes, owed_updateResolved hused, h.owes, hr, ← hbinders]
    show owed s.frames i + _ + -1 * (Binder.seen (binders t) (single name) i : Int) = _
    omega
  warns := by rw [hwarns, h.warns, htallies, htallies']

end Expression

end Accounts

/-- The parts of an access by a static name are this name and nothing else. -/
theorem of_shows_access {r : Residue} {name key : String} {property : Expression} {computed : Bool}
    (h : r.Shows (.pair (Expression.identifier name).diagram
      (.pair (Diagram.ofProperty computed property.diagram) .nothing)))
    (hkey : staticName? property computed = some key) :
    r.occurrences = single name ∧ r.tallies = [] := by
  rcases h with _ | ⟨hobject, _ | ⟨hproperty, hrest⟩⟩
  cases hrest
  rcases hobject with _ | _ | _ | ⟨hnone⟩
  cases hnone
  have hsingle : ∀ r : Residue, r.occurrences = (fun _ => 0) → r.tallies = [] →
      (Residue.pair (.expression true (.identifier name) .nothing) (.pair r .nothing)).occurrences =
        single name ∧
      (Residue.pair (.expression true (.identifier name) .nothing)
        (.pair r .nothing)).tallies = [] := by
    intro r hr htallies
    refine ⟨funext fun n => ?_, ?_⟩
    · show single name n + 0 + (r.occurrences n + 0) = single name n
      rw [hr]
      rfl
    · show [] ++ (r.tallies ++ []) = []
      rw [htallies]
      rfl
  cases computed with
  | false =>
    cases hproperty
    exact hsingle _ rfl rfl
  | true =>
    obtain ⟨l, rfl⟩ := Expression.exists_of_string? (s := key) hkey
    have hliteral : Residue.Shows _ (Expression.literal l).diagram := hproperty
    rcases hliteral with _ | _ | _ | ⟨hnone⟩
    cases hnone
    exact hsingle _ rfl rfl

/-- A frame warns with the number of names that are left. -/
theorem Frame.overdue?_eq {f : Frame} {w : String → Nat} (scope : Nat)
    (h : f.owed = ((f.binder.dictionary.map fun d => w d.name).getD 0 : Nat)) :
    (f.overdue? ("function#" ++ toString scope)).toList =
      (f.binder.dictionary.map fun d =>
        (⟨scope, d.name, w d.name⟩ : Tally)).toList.filterMap Tally.warning? := by
  obtain ⟨_ | ⟨d, references, inlined⟩, params⟩ := f
  · rfl
  · have hcount : (references - inlined : Int) = w d.name := h
    show (if inlined < references then some _ else none : Option Event).toList =
      [Tally.mk scope d.name (w d.name)].filterMap Tally.warning?
    by_cases hlt : inlined < references
    · have hsub : references - inlined = w d.name := by omega
      have hpos : 0 < w d.name := by omega
      simp [Tally.warning?, hlt, hpos, hsub]
    · have hzero : ¬ 0 < w d.name := by omega
      simp only [List.filterMap_cons, Tally.warning?, if_neg hlt, if_neg hzero]
      rfl

namespace Accounts

variable {a a' b b' : Diagram} {s t u w : State}

/-- A function settles the account of its own dictionary when it is left. -/
theorem function {params : List Expression} {body : Option (List Statement)} {cut : Nat}
    (henter : (enterFunction params body).run s = (cut, t)) (hparams : Tells a a' t u)
    (hbody : Tells b b' u w) (hfirst : Accounts (remains t a) t u)
    (hrest : Accounts (remains u b) u w) :
    Accounts (.function (s.progress.scopes.entered + 1) (.ofFunction params body) (remains t a)
      (remains u b)) s (leaveFunction.run w).2 := by
  have hwarns := warnings_enterFunction params body s
  rw [henter] at hwarns
  obtain ⟨t', ht', hscopes, -, hframes⟩ := run_enterFunction params body s
  obtain ⟨-, rfl⟩ := Prod.mk.inj (ht'.symm.trans henter)
  have hinside := hfirst.pair hrest hparams.binders_eq
  have hbinders : binders t' = .ofFunction params body :: binders s := by
    rw [binders, hframes, List.map_cons, Frame.binder_fresh]
    rfl
  have hlast : binders w = .ofFunction params body :: binders s := by
    rw [hbody.binders_eq, hparams.binders_eq, hbinders]
  obtain ⟨f, frames, hw, hf, -⟩ := List.map_eq_cons_iff.1 hlast
  obtain ⟨-, -, htail, -⟩ := run_leaveFunction_warns w
  refine ⟨fun i => ?_, ?_⟩
  · -- the functions around stand one place further out while this one is open
    have howes := hinside.owes (i + 1)
    rw [hw, hframes, hbinders] at howes
    rw [htail, hw]
    exact howes
  · have hown := hinside.owes 0
    rw [hw, hframes, hbinders] at hown
    have howed : f.owed = ((f.binder.dictionary.map fun d =>
        (Residue.pair (remains t' a) (remains u b)).occurrences d.name).getD 0 : Nat) := by
      have hfresh : (Frame.fresh (.ofFunction params body)).owed = 0 := by
        unfold Frame.owed Frame.fresh
        cases (Binder.ofFunction params body).dictionary <;> rfl
      rw [hf]
      rw [owed, owed, hfresh, Int.zero_add] at hown
      exact hown
    have hlabel : w.progress.scopes.label =
        "function#" ++ toString (s.progress.scopes.entered + 1) := by
      rw [hbody.scopes, hparams.scopes, hscopes]
      rfl
    have hwarning := Frame.overdue?_eq (s.progress.scopes.entered + 1) howed
    rw [hf] at hwarning
    rw [warnings_leaveFunction hw, hinside.warns, hwarns, hlabel, hwarning, List.append_assoc,
      ← List.filterMap_append]
    rfl

end Accounts

/-- The walk leaves what it should, and where all is constant it accounts for it. -/
structure Reckons (d d' : Diagram) (s t : State) : Prop where
  tells : Tells d d' s t
  accounts : Constant (binders s) → (∀ c ∈ captures false d, c.isConstant = true) →
    Accounts (remains s d) s t

namespace Reckons

variable {a a' b b' d d' : Diagram} {s t u w : State}

theorem parts (h : Diagram.InTurn Reckons d d' s t) : Reckons d d' s t := by
  induction h with
  | nothing s => exact ⟨.parts (.nothing s), fun _ _ => .refl s⟩
  | @pair a a' b b' s t u first rest ih =>
    refine ⟨.parts (.pair first.tells (rest.imp (·.tells))), fun hs hd => ?_⟩
    obtain ⟨hfirst, hrest⟩ := List.forall_mem_append.1 hd
    have hbinders := first.tells.binders_eq
    have hremains : remains s (.pair a b) = .pair (remains s a) (remains t b) :=
      congrArg (Residue.pair (remains s a)) (first.tells.remains_eq b)
    rw [hremains]
    exact (first.accounts hs hfirst).pair (ih.accounts (hbinders ▸ hs) hrest) hbinders

section Expression

variable {e : Expression} {root : ExpressionRoot}

theorem leave (he : e.diagram = .expression root a') (h : Reckons a a' s t) :
    Reckons (.expression root a) ((leaveExpression e).run t).1.diagram s
      ((leaveExpression e).run t).2 := by
  refine ⟨h.tells.leave he, fun hs hd => ?_⟩
  have haccounts := h.accounts hs hd
  have hbinders := h.tells.binders_eq
  have hshows := h.tells.shows_expression he
  have hwarns := warnings_leaveExpression (hbinders ▸ hs) e
  have hleaves := leaves e t
  have hkept : replacement? (binders t) e = none →
      remains s (.expression root a) = .expression true root (remains s a) := by
    intro hnone
    rw [hbinders] at hnone
    exact Residue.settle_eq_self hshows hnone
  generalize (leaveExpression e).run t = x at hwarns hleaves
  obtain ⟨e', u⟩ := x
  cases hleaves with
  | @met name _ heq hframes =>
    subst heq
    rw [hkept rfl]
    cases he
    exact haccounts.met hbinders hframes hwarns
  | kept hname hnone hframes =>
    rw [hkept hnone]
    refine haccounts.kept (fun n => ?_) hframes hwarns
    cases root with
    | identifier name =>
      rw [Expression.eq_identifier he] at hname
      cases hname
    | _ => rfl
  | @replaced name _ _ hsome hframes =>
    rw [hbinders] at hsome
    obtain ⟨r, hr, hliteral⟩ := Residue.exists_replacement? hshows hsome
    have hremains : remains s (.expression root a) = r := by
      show Residue.settle _ (.expression true root (remains s a)) = r
      rw [Residue.settle, hr]
      rfl
    -- only a constant is ever found, and an access to it has no name in it but the replaced one
    cases replaces_of_replacement? hsome with
    | template hd hentry _ =>
      exact absurd hentry (Dictionary.get?_ne_template (hs.resolve? hd) _ _)
    | constant hkey _ _ =>
      cases he
      obtain ⟨hoccurrences, htallies⟩ := of_shows_access h.tells.shows hkey
      rw [hremains]
      rcases hliteral with _ | _ | _ | ⟨hnone⟩
      cases hnone
      exact haccounts.replaced hbinders hoccurrences htallies rfl rfl hframes hwarns

end Expression

/-- A function with the diagram `c` in the place of its body, of which `b` is walked. -/
theorem function {params params' : List Expression} {body : Option (List Statement)} {cut : Nat}
    {c : Diagram} (henter : (enterFunction params body).run s = (cut, t))
    (hparams : Reckons a a' t u) (hbody : Reckons b b' u w) (hc : c.statements? = body)
    (hresidue : ∀ bs entered,
      residue bs entered (Binder.ofFunction params body).dictionary.isSome c =
        residue bs entered false b)
    (hfunctions : functions (Binder.ofFunction params body).dictionary.isSome c =
      functions false b)
    (hcaptures : captures (Binder.ofFunction params body).dictionary.isSome c =
      captures false b) :
    Reckons (.function params a c) (.function params' a' b') s (leaveFunction.run w).2 := by
  refine ⟨.function henter hparams.tells hbody.tells hc hresidue hfunctions, fun hs hd => ?_⟩
  rw [Tells.remains_function henter hparams.tells hc hresidue]
  obtain ⟨hfront, hrest⟩ := List.forall_mem_append.1 hd
  obtain ⟨hown, hfirst⟩ := List.forall_mem_append.1 hfront
  rw [hc] at hown hrest
  have ht : Constant (binders t) := by
    have hbinders := binders_enterFunction params body s
    rw [henter] at hbinders
    rw [hbinders]
    exact hs.cons fun d hd => hown d (Option.mem_toList.2 hd)
  have hu : Constant (binders u) := hparams.tells.binders_eq ▸ ht
  exact .function henter hparams.tells hbody.tells (hparams.accounts ht hfirst)
    (hbody.accounts hu (hcaptures ▸ hrest))

end Reckons

/-- Every call of the pass reckons. -/
theorem upholds_reckons : visitor.Upholds Reckons where
  nothing s := .parts (.nothing s)
  passed name s := ⟨upholds_tells.passed name s, fun _ _ => (Accounts.refl s).of_eq rfl rfl⟩
  clause hparts := by
    have h := Reckons.parts hparts
    exact ⟨h.tells.clause _, fun hs hd => (h.accounts hs hd).of_eq rfl rfl⟩
  statement hparts := by
    have h := Reckons.parts hparts
    exact ⟨h.tells.statement _, fun hs hd => (h.accounts hs hd).of_eq rfl rfl⟩
  expression he hparts := (Reckons.parts hparts).leave he
  settle henter := by cases henter
  descend := by
    intro body body' s t u henter hparts
    cases henter
    have h := Reckons.parts hparts
    exact ⟨h.tells.block _ _, fun hs hd => (h.accounts hs hd).of_eq rfl rfl⟩
  function := by
    intro params params' body body' cut s t u w henter hparams hbody
    obtain ⟨t', ht', -⟩ := run_enterFunction params (some body) s
    obtain ⟨rfl, rfl⟩ := Prod.mk.inj (ht'.symm.trans henter)
    refine .function henter (.parts hparams) hbody rfl (fun bs entered => ?_) ?_ ?_
    · exact residue_block bs entered _ body
    · exact functions_block _ body
    · exact captures_block _ body
  concise := by
    intro params params' e e' cut s t u w henter hparams hbody
    have hconcise : (enterFunction params none).run s = (cut, t) := henter
    refine .function hconcise (.parts hparams) hbody ?_ (fun bs entered => rfl) rfl rfl
    obtain ⟨root, parts, he⟩ := e.exists_diagram
    rw [he]
    rfl

/-- Where all dictionaries are constant, a run deletes their declarations and puts constants in the
place of the accesses that refer to them, and leaves all else as it is. It warns of every
dictionary that is still referred to, with the exact number, and of nothing else. -/
theorem run_inlines_constants (p : Program)
    (hp : ∀ d ∈ captures false p.diagram, d.isConstant = true) :
    (run p).program = ⟨(inlined [] 0 false p.diagram).plain.read.toBlock, p.sourceType⟩ ∧
      (run p).events.warnings =
        (inlined [] 0 false p.diagram).tallies.filterMap Tally.warning? := by
  have hreckons := upholds_reckons.carries_program p {}
  have hremains : remains {} p.diagram = inlined [] 0 false p.diagram :=
    residue_eq_inlined Constant.nil hp 0
  constructor
  · have hshows := hreckons.tells.shows
    rw [hremains] at hshows
    rw [hshows.plain_eq, Program.ofRead]
    rfl
  · have hwarns := (hreckons.accounts Constant.nil hp).warns
    rw [hremains] at hwarns
    exact hwarns

/-- `d.key` -/
def entryOf (key : String) : Expression :=
  .member (.identifier "d") (.identifier key) false false

/-- `var d = { key: "value", ... };` -/
def declaring (members : List (String × String)) : Statement :=
  .declaration ⟨[⟨.identifier "d", some (.object (members.map fun m =>
    .property (.identifier m.1) (.ofString m.2) .init false false false))⟩], .var⟩

/-- A function with the statements `outer` at its front, around one that has a parameter `d` and one
with the statements `inner` at its front. -/
def nesting (outer inner : List Statement) (shadowed sum : Expression)
    (results : List Expression) : Program :=
  ⟨[.function ⟨some "f", [],
    outer ++ [.function ⟨some "g", [.identifier "d"], [.returns (some shadowed)], false, false⟩,
      .function ⟨some "h", [], inner ++ [.returns (some sum)], false, false⟩,
      .returns (some (.array (results.map some)))], false, false⟩], .script⟩

def crowded : Program :=
  nesting [declaring [("a", "x"), ("b", "y"), ("a", "z")]] [declaring [("c", "u")]] (entryOf "a")
    (.binary .add (entryOf "c") (entryOf "a")) [entryOf "a", entryOf "c", .identifier "d"]

/-- Each access refers to the innermost `d`; what has no entry there is left over and counted. -/
theorem run_crowded :
    (∀ d ∈ captures false crowded.diagram, d.isConstant = true) ∧
      (run crowded).program = nesting [] [] (entryOf "a")
        (.binary .add (.ofString "u") (entryOf "a"))
        [.ofString "z", entryOf "c", .identifier "d"] ∧
      (run crowded).events.warnings =
        [stillReferenced "function#3" "d" 1, stillReferenced "function#1" "d" 2] := by
  have hconstant : ∀ d ∈ captures false crowded.diagram, d.isConstant = true := by decide
  obtain ⟨hprogram, hwarnings⟩ := run_inlines_constants crowded hconstant
  exact ⟨hconstant, hprogram.trans rfl, hwarnings.trans (by decide)⟩

/-- `function f() { var d = { a: "b", b: "c" }; return d[d.a]; }` -/
def indirect : Program :=
  ⟨[.function ⟨some "f", [], [declaring [("a", "b"), ("b", "c")],
    .returns (some (.member (.identifier "d") (entryOf "a") true false))], false, false⟩], .script⟩

/-- An access by a key that is itself an access is not one by a static name, but becomes one when
the key is replaced, and is then replaced too. -/
theorem run_indirect :
    staticName? (entryOf "a") true = none ∧
      (run indirect).program =
        ⟨[.function ⟨some "f", [], [.returns (some (.ofString "c"))], false, false⟩], .script⟩ ∧
      (run indirect).events.warnings = [] :=
  ⟨rfl, rfl, by decide⟩

end DictionaryInlining
end Untangle
