import Untangle.CommandLine.Deobfuscate
import Untangle.Proofs.CommandLine.Scan

/-!
# Outputs that collide

The output for a program bears the stem of the program. Next to the programs
that is enough to keep outputs apart, but in an output directory the names on
the way to a program are lost, so the outputs of two programs are one file
there exactly if the programs have the same stem.
-/
namespace Untangle.CommandLine

open Untangle.Path (IsName)

/-- A program below a directory: names that lead down to it, and the stem of its own name. -/
structure IsInput (directory : Path) (before : List String) (stem : String) (p : Path) : Prop where
  text_ne : directory.text ≠ ""
  named : ∀ name ∈ before, IsName name
  isName : IsName (stem ++ "." ++ "json")
  stem_ne : stem ≠ ""
  path : p = (before.foldl Path.join directory).join (stem ++ "." ++ "json")

/-- Every program that a scan finds is below the directory and has a stem. -/
theorem exists_isInput {f : ScanFilter} {t : FileTree} {directory p : Path} {programs : List Path}
    (ht : t.WellFormed) (h : f.scan t directory = .ok programs) (hp : p ∈ programs) :
    ∃ before stem, IsInput directory before stem p := by
  obtain ⟨above, before, name, hfollow, hbefore, hname, rfl, haccepts⟩ :=
    ScanFilter.exists_of_mem_scan ht h hp
  have hdirectory := FileTree.text_ne_of_follow hfollow
  have hname? := Path.name?_join (before.foldl Path.join directory) hname
  have hdivide : (Path.divide name).2 = some "json" := by
    simp [ScanFilter.acceptsName, Path.extension?, hname?] at haccepts
    exact haccepts.1
  obtain ⟨hcut, hstem⟩ := Path.divide_eq_some (Prod.ext rfl hdivide)
  exact ⟨before, (Path.divide name).1, hdirectory, hbefore, hcut ▸ hname, hstem, by rw [← hcut]⟩

namespace IsInput

variable {directory p q : Path} {before before' : List String} {stem stem' : String}

theorem text_parent_ne (h : IsInput directory before stem p) :
    (before.foldl Path.join directory).text ≠ "" :=
  Path.text_foldl_join_ne h.text_ne h.named

theorem stem?_eq (h : IsInput directory before stem p) : p.stem? = some stem := by
  rw [h.path, Path.stem?, Path.name?_join _ h.isName, Option.map_some,
    Path.divide_append h.stem_ne (by decide)]

theorem parent?_eq (h : IsInput directory before stem p) :
    p.parent? = some (before.foldl Path.join directory).trimmed := by
  rw [h.path, Path.parent?_join h.text_parent_ne h.isName]

theorem slash_free (h : IsInput directory before stem p) : '/' ∉ stem.toList := by
  have hname := h.isName.slash_free
  simp only [String.toList_append, List.mem_append, not_or] at hname
  exact hname.1.1

theorem components_parent (h : IsInput directory before stem p) :
    (before.foldl Path.join directory).trimmed.components = directory.components ++ before := by
  rw [Path.components_trimmed h.text_parent_ne, Path.components_foldl_join h.named]

/-- The directory of a program is the names below where the path of the scanned directory leads. -/
theorem exists_start (h : IsInput directory before stem p) {t : FileTree} {above : Place}
    (hf : t.follow (before.foldl Path.join directory).trimmed = .ok above) :
    ∃ start, (t.moves directory).foldlM t.advance [] = .ok start ∧ above = start ++ before := by
  have hmoves := FileTree.foldlM_moves hf
  rw [FileTree.moves_congr (Path.components_trimmed h.text_parent_ne),
    FileTree.moves_foldl_join h.named] at hmoves
  obtain ⟨start, hstart, hrest⟩ := FileTree.foldlM_append_eq_ok.1 hmoves
  exact ⟨start, hstart, ((FileTree.foldlM_names_iff h.named).1 hrest).1⟩

end IsInput

namespace DeobfuscateOptions

variable (o : DeobfuscateOptions) {directory p q : Path} {before before' : List String}
  {stem stem' : String}

/-- What a run tells by which files it has written itself. -/
def filter : ScanFilter := { suffix := o.suffix, report := o.report }

/-- What the names of all outputs end in. -/
def ending : String := o.suffix ++ "." ++ Spelled.text o.emit

theorem outputName_eq (h : IsInput directory before stem p) :
    o.outputName p = stem ++ o.ending := by
  rw [outputName, h.stem?_eq, ending, Option.getD_some, String.append_assoc, String.append_assoc,
    String.append_assoc]

/-- The path of an output: in the output directory, or in that of the program. -/
theorem outputBeside_eq (h : IsInput directory before stem p) : o.outputBeside p =
    ⟨(o.output.getD (before.foldl Path.join directory).trimmed).lead ++ (stem ++ o.ending)⟩ := by
  have habsolute : (⟨stem ++ o.ending⟩ : Path).isAbsolute = false := by
    cases hs : stem.toList with
    | nil => exact absurd (by simpa using hs) h.stem_ne
    | cons c cs =>
      have hc : c ≠ '/' := fun e => h.slash_free (by simp [hs, e])
      simp [Path.isAbsolute, hs, hc]
  rw [outputBeside, h.parent?_eq, Option.getD_some, outputName_eq o h, Path.join_eq habsolute]

/-- In an output directory only the stems tell outputs from one another. -/
theorem outputBeside_eq_iff_of_some {output : Path} (ho : o.output = some output)
    (h : IsInput directory before stem p) (h' : IsInput directory before' stem' q) :
    o.outputBeside p = o.outputBeside q ↔ stem = stem' := by
  rw [outputBeside_eq o h, outputBeside_eq o h', ho]
  constructor
  · intro heq
    have htext := congrArg (fun r : Path => r.text.toList) heq
    simpa [← String.toList_inj] using htext
  · rintro rfl
    rfl

/-- Next to the programs, outputs differ as the programs do. -/
theorem eq_of_outputBeside_eq (ho : o.output = none) (h : IsInput directory before stem p)
    (h' : IsInput directory before' stem' q) (heq : o.outputBeside p = o.outputBeside q) :
    p = q := by
  rw [outputBeside_eq o h, outputBeside_eq o h', ho, Option.getD_none, Option.getD_none] at heq
  have htext : (before.foldl Path.join directory).trimmed.lead ++ stem
      = (before'.foldl Path.join directory).trimmed.lead ++ stem' := by
    have := congrArg (fun r : Path => r.text.toList) heq
    simpa [← String.toList_inj, ← List.append_assoc] using this
  obtain ⟨hparent, rfl⟩ := Path.lead_append_inj (Path.text_trimmed_ne _) (Path.text_trimmed_ne _)
    h.slash_free h'.slash_free htext
  have hbefore := Path.components_eq_of_lead hparent
  rw [h.components_parent, h'.components_parent, List.append_cancel_left_eq] at hbefore
  rw [h.path, h'.path, hbefore]

/-! ## Places -/

theorem slash_free_text (emit : Emit) : '/' ∉ (Spelled.text emit).toList := by
  cases emit <;> decide

theorem isName_outputName (hsuffix : '/' ∉ o.suffix.toList) (h : IsInput directory before stem p) :
    IsName (o.outputName p) := by
  have hlength : 2 < (o.outputName p).toList.length := by
    have hemit : 1 < (Spelled.text o.emit).toList.length := by cases o.emit <;> decide
    have hstem : 0 < stem.toList.length := List.length_pos_iff.2 (by simpa using h.stem_ne)
    simp only [outputName_eq o h, ending, String.toList_append, List.length_append]
    omega
  have hne : ∀ {s : String}, s.toList.length ≤ 2 → o.outputName p ≠ s := by
    rintro s hs rfl
    omega
  refine ⟨hne (by decide), ?_, hne (by decide), hne (by decide)⟩
  simp only [outputName_eq o h, ending, String.toList_append, List.mem_append, not_or]
  exact ⟨h.slash_free, ⟨hsuffix, by decide⟩, slash_free_text o.emit⟩

/-- In an output directory, outputs at one place belong to one stem. -/
theorem stem_eq_of_follow_outputBeside (hsuffix : '/' ∉ o.suffix.toList)
    (h : IsInput directory before stem p) (h' : IsInput directory before' stem' q) {t : FileTree}
    {place : Place} (hp : t.follow (o.outputBeside p) = .ok place)
    (hq : t.follow (o.outputBeside q) = .ok place) : stem = stem' := by
  obtain ⟨above, rfl⟩ := FileTree.exists_of_follow_join (isName_outputName o hsuffix h) hp
  obtain ⟨above', heq⟩ := FileTree.exists_of_follow_join (isName_outputName o hsuffix h') hq
  have hname : o.outputName p = o.outputName q :=
    (List.cons.inj (List.append_inj_right' heq (by simp))).1
  rw [outputName_eq o h, outputName_eq o h'] at hname
  simpa [← String.toList_inj] using hname

/-- Next to the programs, no two outputs lead to one place. -/
theorem eq_of_follow_outputBeside (ho : o.output = none) (hsuffix : '/' ∉ o.suffix.toList)
    (h : IsInput directory before stem p) (h' : IsInput directory before' stem' q) {t : FileTree}
    {place : Place} (hp : t.follow (o.outputBeside p) = .ok place)
    (hq : t.follow (o.outputBeside q) = .ok place) : p = q := by
  obtain rfl := stem_eq_of_follow_outputBeside o hsuffix h h' hp hq
  rw [outputBeside, ho, h.parent?_eq] at hp
  rw [outputBeside, ho, h'.parent?_eq] at hq
  obtain ⟨above, hparent, -, rfl⟩ := (FileTree.follow_join_iff (Path.text_trimmed_ne _)
    (isName_outputName o hsuffix h)).1 hp
  obtain ⟨above', hparent', -, heq⟩ := (FileTree.follow_join_iff (Path.text_trimmed_ne _)
    (isName_outputName o hsuffix h')).1 hq
  obtain rfl := List.append_inj_left' heq (by simp)
  obtain ⟨start, hstart, rfl⟩ := h.exists_start hparent
  obtain ⟨start', hstart', hbefore⟩ := h'.exists_start hparent'
  obtain rfl : start = start' := Except.ok.inj (hstart.symm.trans hstart')
  rw [h.path, h'.path, List.append_cancel_left hbefore]

end DeobfuscateOptions

/-- The outputs of two programs of a directory are one file if and only if there is an output
directory and the programs have the same stem. Names are text here: the outputs of programs whose
names are no UTF-8 are all called `output` with the suffix, and for those nothing is said. -/
theorem outputs_collide_iff (o : DeobfuscateOptions) {d : Desk} {directory p q : Path}
    {programs : List Path} (hd : d.tree.WellFormed)
    (hscan : ((o.filter.programs directory : Action (StateM Desk) _).run.run d).1 = .ok programs)
    (hp : p ∈ programs) (hq : q ∈ programs) (hne : p ≠ q) :
    (o.outputBeside p = o.outputBeside q ↔ o.output.isSome = true ∧ p.stem? = q.stem?) ∧
      ('/' ∉ o.suffix.toList → ∀ (t : FileTree) (place : Place),
        t.follow (o.outputBeside p) = .ok place → t.follow (o.outputBeside q) = .ok place →
          o.output.isSome = true ∧ p.stem? = q.stem?) := by
  rw [ScanFilter.run_programs] at hscan
  obtain ⟨before, stem, h⟩ := exists_isInput hd hscan hp
  obtain ⟨before', stem', h'⟩ := exists_isInput hd hscan hq
  rw [h.stem?_eq, h'.stem?_eq]
  cases ho : o.output with
  | none =>
    have happart := fun heq => hne (o.eq_of_outputBeside_eq ho h h' heq)
    refine ⟨by simpa using happart, fun hsuffix t place hplace hplace' => absurd ?_ hne⟩
    exact o.eq_of_follow_outputBeside ho hsuffix h h' hplace hplace'
  | some output =>
    refine ⟨by simpa using o.outputBeside_eq_iff_of_some ho h h', ?_⟩
    intro hsuffix t place hplace hplace'
    have := o.stem_eq_of_follow_outputBeside hsuffix h h' hplace hplace'
    exact ⟨rfl, congrArg some this⟩

def emptyProgram : ByteArray :=
  "\x7b\"type\":\"Program\",\"body\":[],\"sourceType\":\"script\"\x7d".toUTF8

/-- Two programs of one name in two directories. -/
def namesakes : Desk where
  tree := {
    directories := [["work"], ["work", "samples"], ["work", "samples", "a"],
      ["work", "samples", "b"]]
    files := [(["work", "samples", "a", "x.json"], emptyProgram),
      (["work", "samples", "b", "x.json"], emptyProgram)]
    workingDirectory := ⟨"/work"⟩ }

theorem filesBelow_namesakes : namesakes.tree.filesBelow ⟨"samples"⟩
    = .ok [⟨"samples/a/x.json"⟩, ⟨"samples/b/x.json"⟩] := rfl

/-- The two programs are both found, and then both written to one file. -/
theorem namesakes_collide :
    let o : DeobfuscateOptions := { output := some ⟨"out"⟩ }
    (∃ programs, ((o.filter.programs ⟨"samples"⟩ : Action (StateM Desk) _).run.run namesakes).1
        = .ok programs ∧ ⟨"samples/a/x.json"⟩ ∈ programs ∧ ⟨"samples/b/x.json"⟩ ∈ programs) ∧
      o.outputBeside ⟨"samples/a/x.json"⟩ = o.outputBeside ⟨"samples/b/x.json"⟩ := by
  intro o
  have haccepted : [⟨"samples/a/x.json"⟩, ⟨"samples/b/x.json"⟩].filter
      (o.filter.acceptsIn namesakes.tree)
        = [⟨"samples/a/x.json"⟩, ⟨"samples/b/x.json"⟩] := by decide
  have hscan := congrArg Prod.fst (o.filter.run_programs ⟨"samples"⟩ namesakes)
  simp only [ScanFilter.scan, filesBelow_namesakes, haccepted] at hscan
  have hp : ⟨"samples/a/x.json"⟩ ∈ [(⟨"samples/a/x.json"⟩ : Path), ⟨"samples/b/x.json"⟩].mergeSort
      fun p q => Path.ordered p.components q.components := by simp
  have hq : ⟨"samples/b/x.json"⟩ ∈ [(⟨"samples/a/x.json"⟩ : Path), ⟨"samples/b/x.json"⟩].mergeSort
      fun p q => Path.ordered p.components q.components := by simp
  exact ⟨⟨_, hscan, hp, hq⟩,
    ((outputs_collide_iff o (by decide) hscan hp hq (by decide)).1).2 ⟨rfl, by decide⟩⟩

end Untangle.CommandLine
