import Untangle.Proofs.CommandLine.Outputs

/-!
# Running over a directory again

What a run over a directory writes it will not take for programs: its outputs
bear the suffix in their names, and the report is known as the same file under
any path. So a second run finds the programs that the first one found.
-/
namespace Untangle

namespace Desk

variable {α β : Type} {allowed : Path → Prop}

/-- What a computation does to the tree is to write to some paths. -/
def WritesOnly (allowed : Path → Prop) (m : StateM Desk α) : Prop :=
  ∀ d : Desk, d.tree.Writes allowed (m.run d).2.tree

theorem writesOnly_pure (a : α) : WritesOnly allowed (pure a : StateM Desk α) := fun _ => .refl

theorem WritesOnly.bind {m : StateM Desk α} {k : α → StateM Desk β} (hm : WritesOnly allowed m)
    (hk : ∀ a, WritesOnly allowed (k a)) : WritesOnly allowed (m >>= k) := by
  intro d
  exact (hm d).trans (hk (m.run d).1 (m.run d).2)

theorem writesOnly_mapM {k : α → StateM Desk β} {l : List α}
    (h : ∀ a ∈ l, WritesOnly allowed (k a)) : WritesOnly allowed (l.mapM k) := by
  induction l with
  | nil => exact writesOnly_pure []
  | cons a l ih =>
    rw [List.mapM_cons]
    refine (h a List.mem_cons_self).bind fun b => ?_
    exact (ih fun x hx => h x (List.mem_cons_of_mem a hx)).bind fun bs => writesOnly_pure (b :: bs)

/-- An action that fails stops, so what it has written before is all that it writes. -/
theorem writes_action_bind {m : Action (StateM Desk) α} {k : α → Action (StateM Desk) β}
    {t : FileTree} {d : Desk} (hm : t.Writes allowed (m.run.run d).2.tree)
    (hk : ∀ a, WritesOnly allowed (k a).run) :
    t.Writes allowed ((m >>= k).run.run d).2.tree := by
  cases hrun : m.run.run d with
  | mk outcome d' =>
    rw [hrun] at hm
    cases outcome with
    | ok a =>
      rw [Action.run_bind_ok hrun]
      exact hm.trans (hk a d')
    | error failure =>
      rw [Action.run_bind_error hrun]
      exact hm

theorem writesOnly_action_bind {m : Action (StateM Desk) α} {k : α → Action (StateM Desk) β}
    (hm : WritesOnly allowed m.run) (hk : ∀ a, WritesOnly allowed (k a).run) :
    WritesOnly allowed (m >>= k).run :=
  fun d => writes_action_bind (hm d) hk

theorem writesOnly_liftM {m : StateM Desk α} (hm : WritesOnly allowed m) :
    WritesOnly allowed (liftM m : Action (StateM Desk) α).run :=
  fun d => hm d

theorem writesOnly_forIn {k : α → β → Action (StateM Desk) (ForInStep β)} (l : List α)
    (h : ∀ a b, WritesOnly allowed (k a b).run) (b : β) : WritesOnly allowed (forIn l b k).run := by
  induction l generalizing b with
  | nil => exact writesOnly_pure (Except.ok b)
  | cons a l ih =>
    rw [List.forIn_cons]
    refine writesOnly_action_bind (h a b) fun step => ?_
    cases step with
    | done b => exact writesOnly_pure (Except.ok b)
    | yield b => exact ih b

theorem writesOnly_check {ε : Type} (context : String) (causes : ε → List String)
    (outcome : Except ε α) :
    WritesOnly allowed (Action.check context causes outcome : Action (StateM Desk) α).run := by
  cases outcome <;> exact fun _ => .refl

theorem run_replaceTree (change : FileTree → Except FileFault FileTree) (d : Desk) :
    (replaceTree change).run d = match change d.tree with
      | .ok tree => (.ok (), { d with tree })
      | .error fault => (.error fault, d) := by
  rw [replaceTree, StateT.run_bind, StateT.run_get, pure_bind]
  cases change d.tree <;> rfl

theorem writesOnly_store {path : Path} (h : allowed path) (context text : String) :
    WritesOnly allowed (Action.store context path text : Action (StateM Desk) Unit).run := by
  refine writesOnly_action_bind (writesOnly_liftM fun d => ?_) fun outcome => writesOnly_check _ _ _
  have hrun : (Host.write path text.toUTF8 : StateM Desk _).run d
      = (replaceTree fun t => t.write path text.toUTF8).run d := rfl
  rw [hrun, run_replaceTree]
  cases hw : d.tree.write path text.toUTF8 with
  | error fault => exact .refl
  | ok t => exact .write .refl h hw

end Desk

namespace CommandLine

open Untangle.Path (IsName)

namespace DeobfuscateOptions

variable {o : DeobfuscateOptions} {directory p q : Path} {programs : List Path} {t t' : FileTree}
  {place : Place}

def WritesTo (o : DeobfuscateOptions) (programs : List Path) (path : Path) : Prop :=
  (∃ p ∈ programs, path = o.outputBeside p) ∨ o.report = some path

section Suffix

variable (hsuffix : o.suffix ≠ "") (hslash : '/' ∉ o.suffix.toList)

include hsuffix hslash

/-- The suffix marks every output. -/
theorem not_acceptsName_outputName {before : List String} {stem : String}
    (h : IsInput directory before stem p) : o.filter.acceptsName ⟨o.outputName p⟩ = false := by
  have hdivide : Path.divide (o.outputName p) = (stem ++ o.suffix, some (Spelled.text o.emit)) := by
    have hstem : stem ++ o.suffix ≠ "" := by simp [h.stem_ne]
    have hdot : '.' ∉ (Spelled.text o.emit).toList := by cases o.emit <;> decide
    rw [outputName_eq o h, ending, ← String.append_assoc, ← String.append_assoc]
    exact Path.divide_append hstem hdot
  have hmarks : o.filter.marks (stem ++ o.suffix) = true := by
    simp [ScanFilter.marks, filter, hsuffix]
  simp [ScanFilter.acceptsName, Path.stem?, Path.name?_name (isName_outputName o hslash h), hdivide,
    hmarks]

/-- What a run writes to is passed over by its scan. -/
theorem passesOver_of_writesTo (ht : t.WellFormed)
    (hscan : o.filter.scan t directory = .ok programs) (hp : o.WritesTo programs p)
    (hslash' : p.endsInSlash = false) (hfollow : t.follow p = .ok place) :
    o.filter.PassesOver t place := by
  rcases hp with ⟨input, hinput, rfl⟩ | hreport
  · obtain ⟨before, stem, h⟩ := exists_isInput ht hscan hinput
    obtain ⟨above, rfl⟩ := FileTree.exists_of_follow_join (isName_outputName o hslash h) hfollow
    exact .inl ⟨above, _, rfl, not_acceptsName_outputName hsuffix hslash h⟩
  · exact .inr ⟨p, hreport, hfollow, hslash'⟩

/-- Whatever a run writes for the programs of a scan, the scan finds the same programs again. -/
theorem scan_of_writes (ht : t.WellFormed) (hscan : o.filter.scan t directory = .ok programs)
    (h : t.Writes (o.WritesTo programs) t') : o.filter.scan t' directory = .ok programs := by
  induction h with
  | refl => exact hscan
  | write h hp hw ih =>
    obtain ⟨place, hfollow, hs, hnode, rfl⟩ := FileTree.write_eq_ok hw
    obtain ⟨above, hfind⟩ := ScanFilter.find_of_scan ih
    have ht' := h.wellFormed ht
    rw [ScanFilter.scan_addFile ht' (ht'.addFile (FileTree.isName_of_follow hfollow) hnode) hfind
      (passesOver_of_writesTo hsuffix hslash ht' ih hp hs hfollow), ih]

end Suffix

/-! ## The parts of a run -/

section Parts

variable {m : Type → Type} [Monad m] [Host m] (o : DeobfuscateOptions)

def prepare : Action m Unit := do
  match o.output with
  | none => return
  | some output =>
    Action.check ("failed to create output directory: " ++ output.text)
      (fun fault => [fault.message]) (← liftM (Host.makeDirectories (m := m) output))

def gather (directory : Path) : Action m (List Path) := do
  o.prepare
  o.filter.programs directory

def treat (json : Bool) (input : Path) : Action m Report := do
  let report ← o.process (pure (o.outputBeside input)) input
  if !json then Action.notice report.line
  return report

def conclude (json : Bool) (outcome : List Report × Nat) : Action m Unit := do
  let list : Json := .array (outcome.1.map Report.toJson)
  o.writeReport list
  if json then Action.answer (list.pretty ++ "\n")
  else Action.notice (Report.listText outcome.1 outcome.2 o.stats)

/-- A run prepares its directory, treats the programs one by one, and concludes. -/
theorem runRecursive_eq [LawfulMonad m] (directory : Path) (json : Bool) :
    (o.runRecursive directory json : Action m Unit) = (do
      o.prepare
      let outcome ← o.filter.forEach directory (o.treat json)
      o.conclude json outcome) := by
  cases ho : o.output with
  | none =>
    simp only [runRecursive, prepare, ho, pure_bind]
    rfl
  | some output =>
    simp only [runRecursive, prepare, ho, bind_assoc]
    rfl

end Parts

/-! ## What a run writes -/

section Writes

variable (o : DeobfuscateOptions) {allowed : Path → Prop}

theorem writesOnly_writeProgram {output : Path} (h : allowed output) (p : Program) :
    Desk.WritesOnly allowed (o.writeProgram p output : Action (StateM Desk) Unit).run := by
  cases he : o.emit with
  | json =>
    simp only [writeProgram, he, pure_bind]
    exact Desk.writesOnly_store h _ _
  | js =>
    simp only [writeProgram, he]
    exact Desk.writesOnly_action_bind (Desk.writesOnly_check _ _ _) fun text =>
      Desk.writesOnly_store h _ text

/-- Treating a program writes nothing but its output. -/
theorem writesOnly_process {output : Path} (h : allowed output) (input : Path) :
    Desk.WritesOnly allowed (o.process (pure output) input : Action (StateM Desk) Report).run := by
  have hload : Desk.WritesOnly allowed
      (Action.load "deobfuscation failed: " input : Action (StateM Desk) Program).run :=
    Desk.writesOnly_action_bind (fun _ => .refl) fun _ => Desk.writesOnly_check _ _ _
  refine Desk.writesOnly_action_bind hload fun program => ?_
  -- nothing is written before the result: the clock and the output path are only looked at
  refine Desk.writesOnly_action_bind (fun _ => .refl) fun start => ?_
  refine Desk.writesOnly_action_bind (fun _ => .refl) fun stop => ?_
  intro d
  exact Desk.writesOnly_action_bind (o.writesOnly_writeProgram h _) (fun _ => fun _ => .refl) d

theorem writesOnly_treat {json : Bool} {input : Path} (h : allowed (o.outputBeside input)) :
    Desk.WritesOnly allowed (o.treat json input : Action (StateM Desk) Report).run := by
  refine Desk.writesOnly_action_bind (o.writesOnly_process h input) fun report => ?_
  cases json <;> exact fun _ => .refl

/-- Concluding a run writes nothing but the report. -/
theorem writesOnly_conclude (h : ∀ path, o.report = some path → allowed path) (json : Bool)
    (outcome : List Report × Nat) :
    Desk.WritesOnly allowed (o.conclude json outcome : Action (StateM Desk) Unit).run := by
  have hreport : ∀ list : Json, Desk.WritesOnly allowed
      (o.writeReport list : Action (StateM Desk) Unit).run := by
    intro list
    cases hr : o.report with
    | none =>
      simp only [writeReport, hr]
      exact fun _ => .refl
    | some path =>
      simp only [writeReport, hr]
      exact Desk.writesOnly_action_bind (Desk.writesOnly_store (h path hr) _ _) fun _ _ => .refl
  refine Desk.writesOnly_action_bind (hreport _) fun _ => ?_
  cases json <;> exact fun _ => .refl

/-- A run over the programs of a scan writes where it writes for each of them. -/
theorem writes_forEach {f : ScanFilter} {d : Desk} {α : Type}
    {treat : Path → Action (StateM Desk) α} (hscan : f.scan d.tree directory = .ok programs)
    (h : ∀ p ∈ programs, Desk.WritesOnly allowed (treat p).run) :
    d.tree.Writes allowed ((f.forEach directory treat).run.run d).2.tree := by
  have hprograms := f.run_programs directory d
  rw [hscan] at hprograms
  rw [ScanFilter.forEach, Action.run_bind_ok hprograms]
  cases hempty : programs.isEmpty with
  | true => exact .refl
  | false =>
    have houtcomes : Desk.WritesOnly allowed
        (programs.mapM fun p => do return (p, ← (treat p).run) : StateM Desk _) :=
      Desk.writesOnly_mapM fun p hp => (h p hp).bind fun _ => Desk.writesOnly_pure _
    refine Desk.writesOnly_action_bind (Desk.writesOnly_liftM houtcomes) (fun outcomes => ?_) d
    refine Desk.writesOnly_action_bind (Desk.writesOnly_forIn outcomes ?_ _) fun _ => ?_
    · rintro ⟨p, outcome⟩ _
      cases outcome <;> exact fun _ => .refl
    · exact fun _ => .refl

end Writes

def prepared (o : DeobfuscateOptions) (t : FileTree) : Except Failure FileTree :=
  match o.output with
  | none => .ok t
  | some output => (t.makeDirectories output).mapError fun fault =>
      ⟨"failed to create output directory: " ++ output.text, [fault.message]⟩

/-- Preparing makes the output directory, or fails with the tree as it was. -/
theorem run_prepare (d : Desk) : (o.prepare : Action (StateM Desk) Unit).run.run d =
    match o.prepared d.tree with
    | .ok tree => (.ok (), { d with tree })
    | .error e => (.error e, d) := by
  cases ho : o.output with
  | none =>
    simp only [prepare, prepared, ho]
    rfl
  | some output =>
    simp only [prepare, prepared, ho]
    have hrun := Desk.run_replaceTree (fun t => t.makeDirectories output) d
    cases hmake : d.tree.makeDirectories output with
    | ok tree =>
      rw [hmake] at hrun
      exact Action.run_bind_ok (Action.run_liftM hrun)
    | error fault =>
      rw [hmake] at hrun
      exact Action.run_bind_ok (Action.run_liftM hrun)

/-- Gathering gives the programs of a scan of the prepared tree. -/
theorem run_gather (directory : Path) (d : Desk) :
    (o.gather directory : Action (StateM Desk) (List Path)).run.run d =
      match o.prepared d.tree with
      | .ok tree => (o.filter.scan tree directory, { d with tree })
      | .error e => (.error e, d) := by
  have hprepare := run_prepare (o := o) d
  cases hp : o.prepared d.tree with
  | ok tree =>
    rw [hp] at hprepare
    rw [gather, Action.run_bind_ok hprepare, ScanFilter.run_programs]
  | error e =>
    rw [hp] at hprepare
    exact Action.run_bind_error hprepare

theorem prepared_eq_ok (h : o.prepared t = .ok t') : o.output = none ∧ t = t' ∨
    ∃ output, o.output = some output ∧ t.makeDirectories output = .ok t' := by
  cases ho : o.output with
  | none =>
    simp only [prepared, ho] at h
    exact .inl ⟨rfl, Except.ok.inj h⟩
  | some output =>
    simp only [prepared, ho] at h
    cases hmake : t.makeDirectories output with
    | error fault =>
      rw [hmake] at h
      cases h
    | ok made =>
      rw [hmake] at h
      obtain rfl : made = t' := Except.ok.inj h
      exact .inr ⟨output, rfl, hmake⟩

theorem wellFormed_prepared (ht : t.WellFormed) (h : o.prepared t = .ok t') : t'.WellFormed := by
  rcases prepared_eq_ok h with ⟨-, rfl⟩ | ⟨output, -, hmake⟩
  · exact ht
  · exact (FileTree.roomier_makeDirectories hmake).wellFormed ht

/-- There is nothing to prepare again. -/
theorem prepared_again {t'' : FileTree} (h : o.prepared t = .ok t')
    (hd : FileTree.Reaches t' t'') : o.prepared t'' = .ok t'' := by
  rcases prepared_eq_ok h with ⟨ho, -⟩ | ⟨output, ho, hmake⟩
  · simp only [prepared, ho]
  · simp only [prepared, ho, FileTree.makeDirectories_again hmake hd]
    rfl

/-! ## The tree after a run -/

section Run

variable {d : Desk} (json : Bool)

/-- A run writes to its outputs and to its report only. -/
theorem writes_runRecursive (hprepared : o.prepared d.tree = .ok t)
    (hscan : o.filter.scan t directory = .ok programs) :
    t.Writes (o.WritesTo programs)
      ((o.runRecursive directory json : Action (StateM Desk) Unit).run.run d).2.tree := by
  have hprepare := run_prepare (o := o) d
  rw [hprepared] at hprepare
  rw [runRecursive_eq, Action.run_bind_ok hprepare]
  have htreat : ∀ p ∈ programs, Desk.WritesOnly (o.WritesTo programs)
      (o.treat json p : Action (StateM Desk) Report).run :=
    fun p hp => o.writesOnly_treat (.inl ⟨p, hp, rfl⟩)
  have heach := writes_forEach (d := { d with tree := t }) hscan htreat
  exact Desk.writes_action_bind heach fun outcome =>
    o.writesOnly_conclude (fun path hpath => .inr hpath) json outcome

theorem tree_runRecursive_of_scan_error {failure : Failure} (hprepared : o.prepared d.tree = .ok t)
    (hscan : o.filter.scan t directory = .error failure) :
    ((o.runRecursive directory json : Action (StateM Desk) Unit).run.run d).2.tree = t := by
  have hprepare := run_prepare (o := o) d
  have hprograms := o.filter.run_programs directory { d with tree := t }
  rw [hprepared] at hprepare
  rw [hscan] at hprograms
  have heach : (o.filter.forEach directory (o.treat json) : Action (StateM Desk) _).run.run
      { d with tree := t } = (.error failure, { d with tree := t }) :=
    Action.run_bind_error hprograms
  rw [runRecursive_eq, Action.run_bind_ok hprepare, Action.run_bind_error heach]

theorem tree_runRecursive_of_prepared_error {failure : Failure}
    (hprepared : o.prepared d.tree = .error failure) :
    ((o.runRecursive directory json : Action (StateM Desk) Unit).run.run d).2.tree = d.tree := by
  have hprepare := run_prepare (o := o) d
  rw [hprepared] at hprepare
  rw [runRecursive_eq, Action.run_bind_error hprepare]

end Run

theorem gather_eq_ok {d d' : Desk}
    (h : (o.gather directory : Action (StateM Desk) _).run.run d = (.ok programs, d')) :
    o.prepared d.tree = .ok d'.tree ∧ o.filter.scan d'.tree directory = .ok programs := by
  rw [run_gather] at h
  cases hp : o.prepared d.tree with
  | error e =>
    rw [hp] at h
    cases h
  | ok t =>
    rw [hp] at h
    obtain ⟨hscan, rfl⟩ := Prod.mk.inj h
    exact ⟨rfl, hscan⟩

/-- No output is written over a program. -/
theorem follow_outputBeside_ne (hsuffix : o.suffix ≠ "") (hslash : '/' ∉ o.suffix.toList)
    (ht : t.WellFormed) (hscan : o.filter.scan t directory = .ok programs) (hp : p ∈ programs)
    (hq : q ∈ programs) (hplace : t.follow (o.outputBeside p) = .ok place) :
    t.follow q ≠ .ok place := by
  intro hplace'
  obtain ⟨before, stem, h⟩ := exists_isInput ht hscan hp
  obtain ⟨-, before', name, -, -, hname, rfl, haccepts⟩ := ScanFilter.exists_of_mem_scan ht hscan hq
  obtain ⟨above, rfl⟩ := FileTree.exists_of_follow_join (isName_outputName o hslash h) hplace
  obtain ⟨above', heq⟩ := FileTree.exists_of_follow_join hname hplace'
  obtain rfl : o.outputName p = name :=
    (List.cons.inj (List.append_inj_right' heq (by simp))).1
  rw [ScanFilter.acceptsName_join _ hname, not_acceptsName_outputName hsuffix hslash h] at haccepts
  exact Bool.false_ne_true haccepts

end DeobfuscateOptions

/-- A run over a directory, whatever it writes and however it ends, leaves what a run over the
directory finds: a second run finds what the first one found, both after the directory for the
outputs has been made. So it is with any files written to the paths of the outputs and of the
report; and no output counts as a program or takes the place of one. -/
theorem rerun_finds_same (o : DeobfuscateOptions) (hsuffix : o.suffix ≠ "")
    (hslash : '/' ∉ o.suffix.toList) (directory : Path) (json : Bool) {d : Desk}
    (hd : d.tree.WellFormed) :
    ((o.gather directory : Action (StateM Desk) _).run.run
        ((o.runRecursive directory json : Action (StateM Desk) Unit).run.run d).2).1
      = ((o.gather directory : Action (StateM Desk) _).run.run d).1 ∧
    ∀ programs d', (o.gather directory : Action (StateM Desk) _).run.run d = (.ok programs, d') →
      (∀ t, d'.tree.Writes (o.WritesTo programs) t →
        ((o.filter.programs directory : Action (StateM Desk) _).run.run { d' with tree := t }).1
          = .ok programs) ∧
      ∀ p ∈ programs, o.filter.acceptsName (o.outputBeside p) = false ∧
        ∀ q ∈ programs, ∀ place, d'.tree.follow (o.outputBeside p) = .ok place →
          d'.tree.follow q ≠ .ok place := by
  constructor
  · rw [DeobfuscateOptions.run_gather, DeobfuscateOptions.run_gather]
    cases hp : o.prepared d.tree with
    | error e => rw [DeobfuscateOptions.tree_runRecursive_of_prepared_error json hp, hp]
    | ok t =>
      cases hscan : o.filter.scan t directory with
      | error e =>
        rw [DeobfuscateOptions.tree_runRecursive_of_scan_error json hp hscan,
          DeobfuscateOptions.prepared_again hp (.refl t)]
      | ok programs =>
        have hwrites := DeobfuscateOptions.writes_runRecursive json hp hscan
        have hagain := DeobfuscateOptions.scan_of_writes hsuffix hslash
          (DeobfuscateOptions.wellFormed_prepared hd hp) hscan hwrites
        rw [DeobfuscateOptions.prepared_again hp hwrites.reaches]
        exact hagain.trans hscan.symm
  · intro programs d' hgather
    obtain ⟨hprepared, hscan⟩ := DeobfuscateOptions.gather_eq_ok hgather
    have hd' := DeobfuscateOptions.wellFormed_prepared hd hprepared
    refine ⟨fun t hwrites => ?_, fun p hp => ⟨?_, fun q hq place hplace => ?_⟩⟩
    · rw [ScanFilter.run_programs]
      exact DeobfuscateOptions.scan_of_writes hsuffix hslash hd' hscan hwrites
    · obtain ⟨before, stem, h⟩ := exists_isInput hd' hscan hp
      have hname := o.isName_outputName hslash h
      rw [DeobfuscateOptions.outputBeside, ScanFilter.acceptsName_join _ hname]
      exact DeobfuscateOptions.not_acceptsName_outputName hsuffix hslash h
    · exact DeobfuscateOptions.follow_outputBeside_ne hsuffix hslash hd' hscan hp hq hplace

/-- Outputs in JSON next to the programs and a report among them, all with the extension of
programs. No path that a scan gives is alike that of the report. -/
def jsonBeside : DeobfuscateOptions where
  suffix := ".out"
  emit := .json
  report := some ⟨"/work/samples/b/../a/report.json"⟩

/-- The report is written between the programs, where the scan comes upon it under another path,
and does not count as one of them. -/
theorem rerun_namesakes :
    (∃ programs d, (jsonBeside.gather ⟨"samples"⟩ : Action (StateM Desk) _).run.run namesakes
        = (.ok programs, d) ∧ ⟨"samples/a/x.json"⟩ ∈ programs ∧ ⟨"samples/b/x.json"⟩ ∈ programs ∧
      ∃ t, d.tree.write ⟨"/work/samples/b/../a/report.json"⟩ emptyProgram = .ok t ∧
        (∃ files, t.filesBelow ⟨"samples"⟩ = .ok files ∧ ⟨"samples/a/report.json"⟩ ∈ files) ∧
        ((jsonBeside.filter.programs ⟨"samples"⟩ : Action (StateM Desk) _).run.run
          { d with tree := t }).1 = .ok programs) ∧
      ((jsonBeside.gather ⟨"samples"⟩ : Action (StateM Desk) _).run.run
          ((jsonBeside.runRecursive ⟨"samples"⟩ false : Action (StateM Desk) Unit).run.run
            namesakes).2).1
        = ((jsonBeside.gather ⟨"samples"⟩ : Action (StateM Desk) _).run.run namesakes).1 := by
  obtain ⟨hagain, hwrites⟩ := rerun_finds_same jsonBeside (by decide) (by decide) ⟨"samples"⟩ false
    (d := namesakes) (by decide)
  refine ⟨?_, hagain⟩
  have haccepted : [⟨"samples/a/x.json"⟩, ⟨"samples/b/x.json"⟩].filter
      (jsonBeside.filter.acceptsIn namesakes.tree)
        = [⟨"samples/a/x.json"⟩, ⟨"samples/b/x.json"⟩] := by decide
  have hgather : (jsonBeside.gather ⟨"samples"⟩ : Action (StateM Desk) _).run.run namesakes
      = (jsonBeside.filter.scan namesakes.tree ⟨"samples"⟩, namesakes) :=
    DeobfuscateOptions.run_gather _ _
  rw [ScanFilter.scan, filesBelow_namesakes] at hgather
  simp only [haccepted] at hgather
  have hwrite : namesakes.tree.write ⟨"/work/samples/b/../a/report.json"⟩ emptyProgram
      = .ok (namesakes.tree.addFile ["work", "samples", "a", "report.json"] emptyProgram) := rfl
  have hfiles : (namesakes.tree.addFile ["work", "samples", "a", "report.json"]
      emptyProgram).filesBelow ⟨"samples"⟩
        = .ok [⟨"samples/a/x.json"⟩, ⟨"samples/b/x.json"⟩, ⟨"samples/a/report.json"⟩] := rfl
  refine ⟨_, _, hgather, by simp, by simp, _, hwrite, ⟨_, hfiles, by simp⟩, ?_⟩
  exact (hwrites _ _ hgather).1 _ (.write .refl (.inr rfl) hwrite)

end CommandLine
end Untangle
