import Untangle.Proofs.Pass.Dictionary
import Untangle.Proofs.Pass.Residue
import Untangle.Proofs.Walk.Relation
import Untangle.Proofs.Walk.State

/-!
# Warnings about removed dictionaries

Of every removed dictionary the pass counts how often its name was met and how
often it was replaced, and warns when the counts differ. The counts of a frame
pay for what is left over of the name of its dictionary: what the walk has met
and not replaced. So a name that is left over and was met does not go without a
warning. What came with the text of a template was not met, and is not paid for.
-/
namespace Untangle.DictionaryInlining

/-- What is seen of names from outside of a function. -/
def Binder.hide (b : Binder) (w : String → Nat) (name : String) : Nat :=
  if b.binds name then 0 else w name

/-- Of the name of its dictionary a frame has since met `w` more than it has replaced. -/
inductive Frame.Pays (w : String → Nat) : Frame → Frame → Prop
  | plain (params : List String) : Pays w ⟨none, params⟩ ⟨none, params⟩
  | tracked {d : Dictionary} {references inlined references' inlined' : Nat} (params : List String)
    (h : w d.name + inlined' + references ≤ references' + inlined) :
    Pays w ⟨some ⟨d, references, inlined⟩, params⟩ ⟨some ⟨d, references', inlined'⟩, params⟩

/-- Every frame pays for the names that refer to it. -/
inductive Pays : (String → Nat) → List Frame → List Frame → Prop
  | nil (w : String → Nat) : Pays w [] []
  | cons {w : String → Nat} {f f' : Frame} {frames frames' : List Frame} (first : f.Pays w f')
    (rest : Pays (f.binder.hide w) frames frames') : Pays w (f :: frames) (f' :: frames')

variable {w w' : String → Nat} {f f' : Frame} {frames frames' frames'' : List Frame}

/-- From outside of a function nothing more is seen of a name. -/
theorem Binder.hide_le (b : Binder) (w : String → Nat) (name : String) :
    b.hide w name ≤ w name := by
  unfold hide
  split
  · exact Nat.zero_le _
  · exact Nat.le_refl _

theorem Binder.hide_mono (b : Binder) (h : ∀ name, w' name ≤ w name) (name : String) :
    b.hide w' name ≤ b.hide w name := by
  unfold hide
  split
  · exact Nat.le_refl _
  · exact h name

theorem Binder.hide_add (b : Binder) (name : String) :
    b.hide (fun name => w name + w' name) name = b.hide w name + b.hide w' name := by
  unfold hide
  split
  · rfl
  · rfl

/-- A name that is bound is not seen. -/
theorem Binder.hide_mono_of {b : Binder} {name : String} (hname : b.binds name = true)
    (h : ∀ n, n ≠ name → w' n ≤ w n) (n : String) : b.hide w' n ≤ b.hide w n := by
  unfold hide
  split
  · exact Nat.le_refl _
  · next hn => exact h n fun heq => hn (heq ▸ hname)

namespace Frame.Pays

theorem mono (h : f.Pays w f') (hw : ∀ name, w' name ≤ w name) : f.Pays w' f' := by
  cases h with
  | plain params => exact .plain params
  | @tracked d _ _ _ _ params h =>
    have hname := hw d.name
    exact .tracked params (by omega)

/-- A frame only pays for the name of its dictionary. -/
theorem mono_of {name : String} (h : f.Pays w f') (hname : f.binder.declares name = false)
    (hw : ∀ n, n ≠ name → w' n ≤ w n) : f.Pays w' f' := by
  cases h with
  | plain params => exact .plain params
  | @tracked d _ _ _ _ params h =>
    have hd := hw d.name (beq_eq_false_iff_ne.1 hname)
    exact .tracked params (by omega)

theorem binder_eq (h : f.Pays w f') : f'.binder = f.binder := by
  cases h <;> rfl

end Frame.Pays

namespace Pays

theorem mono (h : Pays w frames frames') (hw : ∀ name, w' name ≤ w name) :
    Pays w' frames frames' := by
  induction h generalizing w' with
  | nil => exact .nil _
  | cons first rest ih => exact .cons (first.mono hw) (ih (Binder.hide_mono _ hw))

theorem refl (frames : List Frame) : Pays (fun _ => 0) frames frames := by
  induction frames with
  | nil => exact .nil _
  | cons f rest ih =>
    refine .cons ?_ (ih.mono (Binder.hide_le _ _))
    obtain ⟨_ | ⟨d, references, inlined⟩, params⟩ := f
    · exact .plain params
    · exact .tracked params (by omega)

theorem trans (h : Pays w frames frames') (h' : Pays w' frames' frames'') :
    Pays (fun name => w name + w' name) frames frames'' := by
  induction h generalizing w' frames'' with
  | nil =>
    cases h'
    exact .nil _
  | cons first rest ih =>
    cases h' with
    | cons first' rest' =>
      rw [first.binder_eq] at rest'
      refine .cons ?_ ((ih rest').mono fun name => Nat.le_of_eq (Binder.hide_add _ name))
      cases first with
      | plain params =>
        cases first'
        exact .plain params
      | tracked params h =>
        cases first' with
        | tracked _ h' => exact .tracked params (by omega)

theorem map_binder (h : Pays w frames frames') :
    frames'.map Frame.binder = frames.map Frame.binder := by
  induction h with
  | nil => rfl
  | cons first rest ih => rw [List.map_cons, List.map_cons, first.binder_eq, ih]

/-- A change to the frame that a name refers to changes what is paid for the name. -/
theorem updated {name : String} {g : Tracked → Tracked} (h : Pays w frames frames')
    (hother : ∀ n, n ≠ name → w' n ≤ w n) (hdictionary : ∀ x, (g x).dictionary = x.dictionary)
    (hname : ∀ x, w' name + (g x).inlined + x.references ≤ w name + x.inlined + (g x).references) :
    Pays w' frames (updateResolved name g frames') := by
  induction h generalizing w' with
  | nil => exact .nil _
  | @cons w f f' frames frames' first rest ih =>
    have hbinder := first.binder_eq
    rw [updateResolved, ← declares_binder, hbinder]
    -- The name refers to this frame, or a parameter hides it, or it refers to a frame further out.
    by_cases hdeclares : f.binder.declares name = true
    · rw [if_pos hdeclares]
      refine .cons ?_ (rest.mono fun n => ?_)
      · cases first with
        | plain params => exact .plain params
        | @tracked d references inlined references' inlined' params h =>
          obtain rfl : d.name = name := beq_iff_eq.1 hdeclares
          have hx := hname ⟨d, references', inlined'⟩
          have hd := hdictionary ⟨d, references', inlined'⟩
          rcases hg : g ⟨d, references', inlined'⟩ with ⟨d', references'', inlined''⟩
          rw [hg] at hx hd
          obtain rfl : d' = d := hd
          show Frame.Pays w' _ ⟨some (g ⟨d', references', inlined'⟩), params⟩
          rw [hg]
          exact .tracked params (by simp only at hx; omega)
      · refine Binder.hide_mono_of ?_ hother n
        rw [Binder.binds, hdeclares, Bool.true_or]
    · have hfirst := first.mono_of (Bool.eq_false_iff.2 hdeclares) hother
      rw [if_neg hdeclares]
      show Pays w' _ (if f'.binder.params.contains name then _ else _)
      rw [hbinder]
      by_cases hparams : f.binder.params.contains name = true
      · rw [if_pos hparams]
        refine .cons hfirst (rest.mono fun n => Binder.hide_mono_of ?_ hother n)
        rw [Binder.binds, hparams, Bool.or_true]
      · rw [if_neg hparams]
        have hbinds : f.binder.binds name = false := by
          rw [Binder.binds, Bool.eq_false_iff.2 hdeclares, Bool.eq_false_iff.2 hparams,
            Bool.or_self]
        refine .cons hfirst (ih (fun n hn => ?_) fun x => ?_)
        · unfold Binder.hide
          split
          · exact Nat.le_refl _
          · exact hother n hn
        · simp only [Binder.hide, hbinds]
          exact hname x

/-- The frame that a name refers to pays for it when it is met. -/
theorem met (name : String) (frames : List Frame) :
    Pays (fun n => if n = name then 1 else 0) frames (updateResolved name .met frames) := by
  refine (refl frames).updated (fun n hn => ?_) (fun _ => rfl) fun x => ?_
  · exact Nat.le_of_eq (if_neg hn)
  · simp only [Tracked.met, if_true]
    omega

/-- The frame that a name refers to need not pay for it when it is replaced. -/
theorem used {name : String} (h : Pays w frames frames')
    (hw : ∀ n, w' n + (if n = name then 1 else 0) ≤ w n) :
    Pays w' frames (updateResolved name .used frames') := by
  refine h.updated (fun n _ => ?_) (fun _ => rfl) fun x => ?_
  · exact Nat.le_trans (Nat.le_add_right _ _) (hw n)
  · have hname := hw name
    rw [if_pos rfl] at hname
    simp only [Tracked.used]
    omega

end Pays

def Logs (s t : State) : Prop :=
  t.progress.scopes = s.progress.scopes ∧ s.progress.events ⊆ t.progress.events

theorem logs_refl (s : State) : Logs s s := ⟨rfl, fun _ he => he⟩

theorem logs_record (kind : EventKind) (location : Option Nat) (message : String) :
    Keeps Logs (record kind location message) :=
  fun _ => ⟨rfl, List.subset_append_left _ _⟩

theorem logs_inlined (name message : String) (kind : EventKind) :
    Keeps Logs (do countInlined name; record kind none message) :=
  fun _ => ⟨rfl, List.subset_append_left _ _⟩

/-- Leaving an expression adds to the log and keeps the scope. -/
theorem logs_leaveExpression (e : Expression) : Keeps Logs (leaveExpression e) :=
  keeps_of_steps logs_refl (fun _ s => logs_refl s)
    (fun name message kind _ => logs_inlined name message kind) (logs_record .warning none) e

/-- A frame that has to pay has met the name of its dictionary more often than replaced it. -/
theorem Frame.Pays.exists_of_fresh {b : Binder} {d : Dictionary} (h : (Frame.fresh b).Pays w f')
    (hd : b.dictionary = some d) (hw : 0 < w d.name) :
    ∃ references inlined params, f' = ⟨some ⟨d, references, inlined⟩, params⟩ ∧
      inlined < references := by
  obtain ⟨dictionary, params⟩ := b
  obtain rfl : dictionary = some d := hd
  cases h with
  | @tracked _ _ _ references inlined _ h => exact ⟨references, inlined, params, rfl, by omega⟩

def Warned (log : EventLog) (scope : Nat) (name : String) : Prop :=
  ∃ times, 0 < times ∧ stillReferenced ("function#" ++ toString scope) name times ∈ log

theorem Warned.mono {log log' : EventLog} {scope : Nat} {name : String} (h : Warned log scope name)
    (hlog : log ⊆ log') : Warned log' scope name := by
  obtain ⟨times, hpos, hmem⟩ := h
  exact ⟨times, hpos, hlog hmem⟩

/-- What the pass leaves of a tree from some state on. -/
def remains (s : State) (d : Diagram) : Residue :=
  residue (binders s) s.progress.scopes.entered false d

/-- The walk leaves what it should, the frames pay for it, and functions that still refer to what
they have lost are warned about. -/
structure Tells (d d' : Diagram) (s t : State) : Prop where
  scopes : t.progress.scopes =
    ⟨s.progress.scopes.around, s.progress.scopes.entered + functions false d⟩
  shows : (remains s d).Shows d'
  pays : Pays (remains s d).weight s.frames t.frames
  events : s.progress.events ⊆ t.progress.events
  warns : ∀ x ∈ (remains s d).dangling false, Warned t.progress.events x.1 x.2

namespace Tells

variable {a a' b b' d d' : Diagram} {s t u : State}

theorem binders_eq (h : Tells d d' s t) : binders t = binders s := h.pays.map_binder

/-- Behind a tree the walk goes on with the numbers that follow. -/
theorem remains_eq (h : Tells d d' s t) (b : Diagram) :
    residue (binders s) (s.progress.scopes.entered + functions false d) false b = remains t b := by
  rw [remains, h.binders_eq, h.scopes]

theorem parts (h : Diagram.InTurn Tells d d' s t) : Tells d d' s t := by
  induction h with
  | nothing s =>
    exact ⟨rfl, .nothing, .refl s.frames, fun _ he => he, fun x hx => by cases hx⟩
  | @pair a a' b b' s t u first rest ih =>
    have hremains : remains s (.pair a b) = .pair (remains s a) (remains t b) :=
      congrArg (Residue.pair (remains s a)) (first.remains_eq b)
    refine ⟨?_, ?_, ?_, fun _ he => ih.events (first.events he), ?_⟩
    · rw [ih.scopes, first.scopes, functions, if_neg Bool.false_ne_true, Nat.add_assoc]
    · rw [hremains]
      exact .pair first.shows ih.shows
    · rw [hremains]
      exact first.pays.trans ih.pays
    · rw [hremains]
      intro x hx
      rcases List.mem_append.1 hx with hx | hx
      · exact (first.warns x hx).mono ih.events
      · exact ih.warns x hx

theorem clause (root : ClauseRoot) (h : Tells d d' s t) :
    Tells (.clause root d) (.clause root d') s t :=
  ⟨h.scopes, .clause h.shows, h.pays, h.events, h.warns⟩

theorem statement (root : StatementRoot) (h : Tells d d' s t) :
    Tells (.statement root d) (.statement root d') s t :=
  ⟨h.scopes, .statement h.shows, h.pays, h.events, h.warns⟩

theorem block (body body' : List Statement) (h : Tells d d' s t) :
    Tells (.block body d) (.block body' d') s t :=
  ⟨h.scopes, .block h.shows, h.pays, h.events, h.warns⟩

section Expression

variable {e e' : Expression} {root : ExpressionRoot}

/-- The parts that remain show those of the expression that is left. -/
theorem shows_expression (he : e.diagram = .expression root a') (h : Tells a a' s t) :
    (Residue.expression true root (remains s a)).Shows e.diagram := by
  rw [he]
  exact .expression h.shows

/-- An expression of which `r` remains. -/
theorem expression {r : Residue} (h : Tells a a' s t) (hlogs : Logs t u)
    (hremains : remains s (.expression root a) = r) (hshows : r.Shows e.diagram)
    (hpays : Pays r.weight s.frames u.frames)
    (hdangling : r.dangling false ⊆ (remains s a).dangling false) :
    Tells (.expression root a) e.diagram s u := by
  subst hremains
  refine ⟨?_, hshows, hpays, fun _ he => hlogs.2 (h.events he), fun x hx => ?_⟩
  · rw [hlogs.1, h.scopes]
    rfl
  · exact (h.warns x (hdangling hx)).mono hlogs.2

/-- An expression that stays is paid for. -/
theorem kept (he : e.diagram = .expression root a') (h : Tells a a' s t)
    (hnone : replacement? (binders t) e = none) (hlogs : Logs t u)
    (hpays : Pays (Residue.expression true root (remains s a)).weight s.frames u.frames) :
    Tells (.expression root a) e.diagram s u := by
  rw [h.binders_eq] at hnone
  have hshows := h.shows_expression he
  have hremains : remains s (.expression root a) = .expression true root (remains s a) :=
    Residue.settle_eq_self hshows hnone
  exact h.expression hlogs hremains hshows hpays fun _ hx => hx

/-- A replaced expression is paid for by the use that is counted. -/
theorem replaced {name : String} (he : e.diagram = .expression root a') (h : Tells a a' s t)
    (hsome : replacement? (binders t) e = some (name, e')) (hlogs : Logs t u)
    (hframes : u.frames = updateResolved name .used t.frames) :
    Tells (.expression root a) e'.diagram s u := by
  rw [h.binders_eq] at hsome
  obtain ⟨r, hr, hshows⟩ := Residue.exists_replacement? (h.shows_expression he) hsome
  obtain ⟨-, hdangling, hweight⟩ := Residue.of_replacement? (proper_residue _ _ _ a) hr
  have hremains : remains s (.expression root a) = r := by
    show Residue.settle _ (.expression true root (remains s a)) = r
    rw [Residue.settle, hr]
    rfl
  refine h.expression hlogs hremains hshows ?_ (hdangling false)
  rw [hframes]
  exact h.pays.used hweight

/-- Leaving an expression tells, whatever becomes of it. -/
theorem leave (he : e.diagram = .expression root a') (h : Tells a a' s t) :
    Tells (.expression root a) ((leaveExpression e).run t).1.diagram s
      ((leaveExpression e).run t).2 := by
  have hlogs := logs_leaveExpression e t
  have hleaves := leaves e t
  generalize (leaveExpression e).run t = x at hlogs hleaves
  obtain ⟨e', u⟩ := x
  cases hleaves with
  | @met name _ heq hframes =>
    refine h.kept he (heq ▸ rfl) hlogs ?_
    rw [hframes]
    refine (h.pays.trans (.met name t.frames)).mono fun n => ?_
    subst heq
    cases he
    show min 1 ((if (true && name == n) = true then 1 else 0) + _) ≤ _ + if n = name then 1 else 0
    by_cases hn : n = name
    · rw [if_pos hn]
      omega
    · rw [if_neg hn, if_neg (by simpa using Ne.symm hn)]
      omega
  | kept hname hnone hframes =>
    refine h.kept he hnone hlogs ?_
    rw [hframes]
    refine h.pays.mono fun n => ?_
    have hroot : root.names n = false := by
      cases root with
      | identifier name =>
        rw [Expression.eq_identifier he] at hname
        cases hname
      | _ => rfl
    rw [Residue.weight_expression _ hroot]
    exact Nat.min_le_right _ _
  | replaced hsome hframes => exact h.replaced he hsome hlogs hframes

end Expression

/-- What remains of a function with the diagram `c` in the place of its body, of which `b` is
walked. -/
theorem remains_function {params : List Expression} {body : Option (List Statement)} {cut : Nat}
    {c : Diagram} (henter : (enterFunction params body).run s = (cut, t))
    (hparams : Tells a a' t u) (hc : c.statements? = body)
    (hresidue : ∀ bs entered,
      residue bs entered (Binder.ofFunction params body).dictionary.isSome c =
        residue bs entered false b) :
    remains s (.function params a c) =
      .function (s.progress.scopes.entered + 1) (.ofFunction params body) (remains t a)
        (remains u b) := by
  obtain ⟨t', ht', hscopes, -, -⟩ := run_enterFunction params body s
  obtain ⟨-, rfl⟩ := Prod.mk.inj (ht'.symm.trans henter)
  have hbinders := binders_enterFunction params body s
  rw [ht'] at hbinders
  have hentered : t'.progress.scopes.entered = s.progress.scopes.entered + 1 := by
    rw [hscopes]
    rfl
  rw [← hparams.remains_eq, remains, remains, residue, hc, hresidue, hbinders, hentered]

/-- A function with the diagram `c` in the place of its body, of which `b` is walked. -/
theorem function {params params' : List Expression} {body : Option (List Statement)} {cut : Nat}
    {c : Diagram} {w : State} (henter : (enterFunction params body).run s = (cut, t))
    (hparams : Tells a a' t u) (hbody : Tells b b' u w) (hc : c.statements? = body)
    (hresidue : ∀ bs entered,
      residue bs entered (Binder.ofFunction params body).dictionary.isSome c =
        residue bs entered false b)
    (hfunctions : functions (Binder.ofFunction params body).dictionary.isSome c =
      functions false b) :
    Tells (.function params a c) (.function params' a' b') s (leaveFunction.run w).2 := by
  obtain ⟨t', ht', hscopes, hevents, hframes⟩ := run_enterFunction params body s
  obtain ⟨rfl, rfl⟩ := Prod.mk.inj (ht'.symm.trans henter)
  obtain ⟨hscopes', hevents', htail, hwarning⟩ := run_leaveFunction_warns w
  have hremains := remains_function henter hparams hc hresidue
  -- The frame of the function pays for the name of its own dictionary, the others for what is seen
  -- from outside.
  have hall := hparams.pays.trans hbody.pays
  rw [hframes] at hall
  generalize hleft : w.frames = frames at hall
  cases hall with
  | @cons _ _ f' _ frames' first rest =>
    rw [Frame.binder_fresh] at rest
    refine ⟨?_, ?_, ?_, ?_, ?_⟩
    · rw [hscopes', hbody.scopes, hparams.scopes, hscopes, functions, hc, hfunctions]
      exact congrArg (Scopes.mk _) (by simp only [Scopes.enter]; omega)
    · rw [hremains]
      exact .function hparams.shows hbody.shows
    · rw [hremains, htail, hleft]
      exact rest
    · exact fun _ he => hevents' (hbody.events (hparams.events (hevents he)))
    · rw [hremains]
      intro x hx
      rcases List.mem_append.1 hx with hx | hx
      · rcases List.mem_append.1 hx with hx | hx
        · -- The function itself still refers to what it has lost, so its frame has to pay.
          obtain ⟨name, hname, rfl⟩ := List.mem_map.1 hx
          obtain ⟨hlost, hrefers⟩ := List.mem_filter.1 hname
          obtain ⟨d, hd, rfl⟩ := Option.map_eq_some_iff.1 (Option.mem_toList.1 hlost)
          have hpos : 0 < (remains t' a).weight d.name + (remains u b).weight d.name := by
            rcases Bool.or_eq_true_iff.1 hrefers with h | h
            · exact Nat.add_pos_left (Residue.weight_pos_of_refers h) _
            · exact Nat.add_pos_right _ (Residue.weight_pos_of_refers h)
          obtain ⟨references, inlined, rest, rfl, hlt⟩ := first.exists_of_fresh hd hpos
          have hmem := hwarning d references inlined rest frames' hleft hlt
          rw [hbody.scopes, hparams.scopes, hscopes] at hmem
          exact ⟨references - inlined, Nat.sub_pos_of_lt hlt, hmem⟩
        · exact (hparams.warns x hx).mono fun _ he => hevents' (hbody.events he)
      · exact (hbody.warns x hx).mono hevents'

end Tells

/-- Every call of the pass tells. -/
theorem upholds_tells : visitor.Upholds Tells where
  nothing s := .parts (.nothing s)
  passed name s :=
    ⟨rfl, .passed name, .refl s.frames, fun _ he => he, fun x hx => by cases hx⟩
  clause hparts := (Tells.parts hparts).clause _
  statement hparts := (Tells.parts hparts).statement _
  expression he hparts := (Tells.parts hparts).leave he
  settle henter := by cases henter
  descend := by
    intro body body' s t u henter hparts
    cases henter
    exact (Tells.parts hparts).block _ _
  function := by
    intro params params' body body' cut s t u w henter hparams hbody
    obtain ⟨t', ht', -⟩ := run_enterFunction params (some body) s
    obtain ⟨rfl, rfl⟩ := Prod.mk.inj (ht'.symm.trans henter)
    refine .function henter (.parts hparams) hbody rfl (fun bs entered => ?_) ?_
    · exact residue_block bs entered _ body
    · exact functions_block _ body
  concise := by
    intro params params' e e' cut s t u w henter hparams hbody
    have hconcise : (enterFunction params none).run s = (cut, t) := henter
    refine .function hconcise (.parts hparams) hbody ?_ (fun bs entered => rfl) rfl
    obtain ⟨root, parts, he⟩ := e.exists_diagram
    rw [he]
    rfl

/-- The pass leaves what it should. If a function still refers to the dictionary it has lost, by a
name that is not from the text of a template, then there is a warning for its scope. -/
theorem run_warns_dangling (p : Program) :
    (remains {} p.diagram).Shows (run p).program.diagram ∧
      ∀ scope name, (scope, name) ∈ (remains {} p.diagram).dangling false →
        Warned (run p).events scope name := by
  have htells := upholds_tells.carries_program p {}
  exact ⟨htells.shows, fun scope name hmem => htells.warns (scope, name) hmem⟩

/-- A function with a dictionary whose only template refers to the dictionary again. -/
def relayed (argument : Expression) : Program :=
  ⟨[.function ⟨none, [],
    [.declaration ⟨[⟨.identifier "d", some (.object [.property (.identifier "relay")
        (.function ⟨none, [.identifier "x"],
          [.returns (some (.call (.member (.identifier "d") (.identifier "send") false false)
            [.identifier "x"] false))], false, false⟩) .init false false false])⟩], .var⟩,
      .expression (.call (.member (.identifier "d") (.identifier "relay") false false) [argument]
        false) none], false, false⟩], .script⟩

/-- An argument that is left over is warned about, the text of the template is not. -/
theorem run_relayed_warns :
    (1, "d") ∈ (remains {} (relayed (.identifier "d")).diagram).dangling false ∧
      Warned (run (relayed (.identifier "d"))).events 1 "d" ∧
      (1, "d") ∈ (remains {} (relayed .this).diagram).dangling true ∧
      ∀ e ∈ (run (relayed .this)).events, e.kind ≠ .warning := by
  have hdangling : (1, "d") ∈ (remains {} (relayed (.identifier "d")).diagram).dangling false := by
    decide
  refine ⟨hdangling, (run_warns_dangling _).2 1 "d" hdangling, ?_, ?_⟩
  · decide
  · decide

end Untangle.DictionaryInlining
