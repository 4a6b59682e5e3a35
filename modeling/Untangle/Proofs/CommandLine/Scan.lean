import Untangle.CommandLine.Scan
import Untangle.Proofs.CommandLine.FileTree

/-!
# What a scan accepts

On a tree in memory a scan changes nothing, and which files it accepts can be
told from the tree file by file. A file that is written does not change what
else is accepted, whatever name the report goes by.
-/
namespace Untangle

open Untangle.Path (IsName)

namespace FileTree

variable {t : FileTree} {p q : Path} {place : Place}

/-- Whether two paths lead to the same thing; where one of them leads nowhere, whether they are
alike. -/
def same (t : FileTree) (p q : Path) : Bool :=
  match t.locate p, t.locate q with
  | some a, some b => a = b
  | _, _ => p.alike q

/-- The path to a file below a directory. -/
def pathBelow (directory : Path) (above file : Place) : Path :=
  (file.drop above.length).foldl Path.join directory

theorem filesBelow_of_find {directory : Path} {above : Place}
    (h : t.find directory = .ok (above, .directory)) :
    t.filesBelow directory = .ok ((t.files.filter fun file => above.isPrefixOf file.1).map
      fun file => pathBelow directory above file.1) := by
  simp only [filesBelow, h, bind, Except.bind]
  refine congrArg Except.ok ?_
  induction t.files with
  | nil => rfl
  | cons file files ih =>
    by_cases hfile : above.isPrefixOf file.1 <;> simp_all [pathBelow]

theorem find_of_filesBelow {directory : Path} {files : List Path}
    (h : t.filesBelow directory = .ok files) :
    ∃ above, t.find directory = .ok (above, .directory) := by
  cases hf : t.find directory with
  | error fault => simp [filesBelow, hf, bind, Except.bind] at h
  | ok found =>
    obtain ⟨above, node⟩ := found
    cases node with
    | directory => exact ⟨above, rfl⟩
    | file content =>
      simp [filesBelow, hf, bind, Except.bind, throw, throwThe, MonadExceptOf.throw] at h

section PathBelow

variable {directory : Path} {above file : Place}

theorem exists_pathBelow (directory : Path) (h : above <+: file) (hne : file ≠ above) :
    ∃ before name, file = above ++ (before ++ [name]) ∧
      pathBelow directory above file = (before.foldl Path.join directory).join name := by
  obtain ⟨names, rfl⟩ := h
  rcases List.eq_nil_or_concat names with rfl | ⟨before, name, rfl⟩
  · simp at hne
  · exact ⟨before, name, by simp, by simp [pathBelow]⟩

/-- Where the path to a file below a directory leads, if it can be followed. -/
theorem follow_pathBelow_iff (hd : t.follow directory = .ok above) (h : above <+: file)
    (hnamed : ∀ name ∈ file, IsName name) :
    t.follow (pathBelow directory above file) = .ok place ↔ place = file ∧
      ∀ before name after, file = above ++ before ++ name :: after →
        t.node? (above ++ before) = some .directory := by
  obtain ⟨names, rfl⟩ := h
  rw [pathBelow, List.drop_left, follow_below_iff hd fun n hn =>
    hnamed n (List.mem_append_right above hn)]
  simp only [List.append_assoc, List.append_cancel_left_eq]

theorem endsInSlash_pathBelow (hd : t.follow directory = .ok above) (h : above <+: file)
    (hne : file ≠ above) (hnamed : ∀ name ∈ file, IsName name) :
    (pathBelow directory above file).endsInSlash = false := by
  obtain ⟨before, name, rfl, hpath⟩ := exists_pathBelow directory h hne
  have hbefore : ∀ n ∈ before, IsName n := fun n hn => hnamed n (by simp [hn])
  rw [hpath]
  exact Path.endsInSlash_join (Path.text_foldl_join_ne (text_ne_of_follow hd) hbefore)
    (hnamed name (by simp))

end PathBelow

/-! ## The same file -/

/-- Two paths to one file are the same. -/
theorem same_of_follow (hp : t.follow p = .ok place) (hq : t.follow q = .ok place)
    (hslash : p.endsInSlash = false) (hslash' : q.endsInSlash = false) (hfile : t.HasFile place) :
    t.same p q = true := by
  have hlocate : ∀ {r : Path}, t.follow r = .ok place → r.endsInSlash = false →
      t.locate r = some place := fun hr hs => locate_eq_some_iff.2 ⟨hr, .inr ⟨hs, hfile⟩⟩
  simp [same, hlocate hp hslash, hlocate hq hslash']

/-- Writing a file makes no other file the same as anything. -/
theorem same_addFile {file : Place} {content : ByteArray} (hne : file ≠ place)
    (hp : ∀ found, t.follow p = .ok found → found = file ∧ t.locate p = some file) :
    (t.addFile place content).same p q = t.same p q := by
  have hkept : ∀ {r : Path} {found}, t.locate r = some found →
      (t.addFile place content).locate r = some found := fun h => locate_addFile.2 (.inl h)
  -- both trees locate `p` at `file` or not at all
  cases hlp : t.locate p with
  | none =>
    have hlp' : (t.addFile place content).locate p = none := by
      refine Option.eq_none_iff_forall_ne_some.2 fun found hfound => ?_
      have hfollow := follow_addFile.1 (locate_eq_some_iff.1 hfound).1
      simp [hlp] at hp
      exact hp found hfollow
    simp [same, hlp, hlp']
  | some found =>
    have hfollow := (locate_eq_some_iff.1 hlp).1
    obtain ⟨rfl, -⟩ := hp found hfollow
    cases hlq : t.locate q with
    | some r => simp [same, hlp, hlq, hkept hlp, hkept hlq]
    | none =>
      cases hlq' : (t.addFile place content).locate q with
      | none => simp [same, hlp, hlq, hkept hlp, hlq']
      | some r =>
        obtain ⟨rfl, hq, -⟩ : r = place ∧ t.follow q = .ok place ∧ q.endsInSlash = false := by
          simpa [hlq] using locate_addFile.1 hlq'
        have halike : p.alike q = false :=
          Bool.eq_false_iff.2 fun halike => hne (eq_of_alike halike hfollow hq)
        simp [same, hlp, hlq, hkept hlp, hlq', hne, halike]

end FileTree

namespace Action

variable {σ α β : Type} {m : Action (StateM σ) α} {k : α → Action (StateM σ) β} {s s' : σ}

theorem run_bind_ok {a : α} (h : m.run.run s = (.ok a, s')) :
    (m >>= k).run.run s = (k a).run.run s' := by
  rw [ExceptT.run_bind, StateT.run_bind, h]
  rfl

theorem run_bind_error {e : Failure} (h : m.run.run s = (.error e, s')) :
    (m >>= k).run.run s = (.error e, s') := by
  rw [ExceptT.run_bind, StateT.run_bind, h]
  rfl

theorem run_liftM {m : StateM σ α} {a : α} (h : m.run s = (a, s')) :
    (liftM m : Action (StateM σ) α).run.run s = (.ok a, s') := by
  change (Except.ok <$> m).run s = _
  rw [StateT.run_map, h]
  rfl

end Action

namespace CommandLine.ScanFilter

variable (f : ScanFilter)

def acceptsIn (t : FileTree) (p : Path) : Bool := f.acceptsName p && !f.report.any (t.same p)

def scan (t : FileTree) (directory : Path) : Except Failure (List Path) :=
  match t.filesBelow directory with
  | .ok files => .ok ((files.filter (f.acceptsIn t)).mergeSort fun p q =>
      Path.ordered p.components q.components)
  | .error fault => .error ⟨"failed to read directory: " ++ directory.text, [fault.message]⟩

theorem run_bind_eq {σ α β : Type} {m : StateM σ α} {k : α → StateM σ β} {s s' : σ} {a : α}
    (h : m.run s = (a, s')) : (m >>= k).run s = (k a).run s' := by
  rw [StateT.run_bind, h]
  rfl

theorem run_sameFile (p q : Path) (d : Desk) :
    (sameFile p q : StateM Desk Bool).run d = (d.tree.same p q, d) := by
  have hlocate : ∀ r : Path, (Host.locate r : StateM Desk _).run d
      = ((d.tree.locate r).map fun place => ⟨"/" ++ "/".intercalate place⟩, d) := fun _ => rfl
  rw [sameFile, run_bind_eq (hlocate p), run_bind_eq (hlocate q), FileTree.same]
  cases ha : d.tree.locate p with
  | none => rfl
  | some a =>
    cases hb : d.tree.locate q with
    | none => rfl
    | some b =>
      -- places along names are told from one another by their paths
      have hsteps : ∀ {p place}, d.tree.locate p = some place →
          Path.steps ⟨"/" ++ "/".intercalate place⟩ = place := fun h =>
        Path.steps_intercalate (FileTree.isName_of_follow (FileTree.locate_eq_some_iff.1 h).1)
      have hiff : Path.mk ("/" ++ "/".intercalate a) = ⟨"/" ++ "/".intercalate b⟩ ↔ a = b := by
        constructor
        · intro h
          rw [← hsteps ha, h, hsteps hb]
        · rintro rfl
          rfl
      exact congrArg (·, d) (decide_eq_decide.2 hiff)

theorem run_accepts (p : Path) (d : Desk) :
    (f.accepts p : StateM Desk Bool).run d = (f.acceptsIn d.tree p, d) := by
  cases hn : f.acceptsName p with
  | false =>
    simp only [accepts, acceptsIn, hn]
    rfl
  | true =>
    simp only [accepts, acceptsIn, hn]
    cases hr : f.report with
    | none => rfl
    | some report => exact run_bind_eq (run_sameFile p report d)

theorem run_filterM {σ α : Type} {keep : α → StateM σ Bool} {test : α → Bool} {s : σ}
    (h : ∀ a, (keep a).run s = (test a, s)) (l : List α) :
    (l.filterM keep).run s = (l.filter test, s) := by
  have haux : ∀ acc : List α,
      (l.filterAuxM keep acc).run s = ((l.filter test).reverse ++ acc, s) := by
    induction l with
    | nil => intro acc; rfl
    | cons a l ih =>
      intro acc
      rw [List.filterAuxM, run_bind_eq (h a), ih]
      cases ha : test a <;> simp [ha]
  rw [List.filterM, run_bind_eq (haux []), List.append_nil]
  exact congrArg (·, s) (List.reverse_reverse _)

theorem run_programs (directory : Path) (d : Desk) :
    (f.programs directory : Action (StateM Desk) (List Path)).run.run d
      = (f.scan d.tree directory, d) := by
  have haccepted : ∀ files : List Path,
      (liftM (files.filterM (f.accepts (m := StateM Desk))) : Action (StateM Desk) _).run.run d
        = (.ok (files.filter (f.acceptsIn d.tree)), d) := fun files =>
    Action.run_liftM (run_filterM (fun p => f.run_accepts p d) files)
  have hfirst : (liftM (Host.filesBelow (m := StateM Desk) directory) :
      Action (StateM Desk) _).run.run d
        = (.ok ((d.tree.filesBelow directory).mapError (directory, ·)), d) := rfl
  rw [programs, Action.run_bind_ok hfirst, scan]
  cases hfiles : d.tree.filesBelow directory with
  | error fault => rfl
  | ok files =>
    exact Action.run_bind_ok (k := fun accepted => pure (accepted.mergeSort fun p q =>
      Path.ordered p.components q.components)) (haccepted files)

/-! ## Programs -/

variable {f} {t : FileTree} {directory p : Path} {above place : Place}

/-- What a scan finds, file by file. -/
theorem scan_of_find (h : t.find directory = .ok (above, .directory)) :
    f.scan t directory = .ok (((t.files.filter fun file => above.isPrefixOf file.1 &&
        f.acceptsIn t (FileTree.pathBelow directory above file.1)).map
      fun file => FileTree.pathBelow directory above file.1).mergeSort fun p q =>
        Path.ordered p.components q.components) := by
  rw [scan, FileTree.filesBelow_of_find h]
  simp only [List.filter_map, List.filter_filter, Function.comp_def, Bool.and_comm]

theorem find_of_scan {programs : List Path} (h : f.scan t directory = .ok programs) :
    ∃ above, t.find directory = .ok (above, .directory) := by
  cases hfiles : t.filesBelow directory with
  | error fault => simp [scan, hfiles] at h
  | ok files => exact FileTree.find_of_filesBelow hfiles

/-- A program of a scan is a file at the end of some names below the directory. -/
theorem exists_of_mem_scan {programs : List Path} (ht : t.WellFormed)
    (h : f.scan t directory = .ok programs) (hp : p ∈ programs) :
    ∃ (above before : Place) (name : String), t.follow directory = .ok above ∧
      (∀ n ∈ before, IsName n) ∧ IsName name ∧
      p = (before.foldl Path.join directory).join name ∧ f.acceptsName p = true := by
  obtain ⟨above, hfind⟩ := find_of_scan h
  obtain ⟨hfollow, hnode, -⟩ := FileTree.find_eq_ok_iff.1 hfind
  rw [scan_of_find hfind] at h
  obtain rfl := Except.ok.inj h
  rw [List.mem_mergeSort] at hp
  obtain ⟨⟨file, content⟩, hmem, rfl⟩ := List.mem_map.1 hp
  obtain ⟨hfile, haccepted⟩ := List.mem_filter.1 hmem
  simp only [Bool.and_eq_true, List.isPrefixOf_iff_prefix, acceptsIn] at haccepted
  have hne : file ≠ above := by
    rintro rfl
    exact ht.apart file ⟨content, hfile⟩ hnode
  obtain ⟨before, name, rfl, hpath⟩ :=
    FileTree.exists_pathBelow directory haccepted.1 hne
  have hnamed := ht.named _ ⟨content, hfile⟩
  exact ⟨above, before, name, hfollow, fun n hn => hnamed n (by simp [hn]), hnamed name (by simp),
    hpath, haccepted.2.1⟩

theorem acceptsName_join (p : Path) {name : String} (h : IsName name) :
    f.acceptsName (p.join name) = f.acceptsName ⟨name⟩ := by
  simp only [acceptsName, Path.extension?, Path.stem?, Path.name?_join p h, Path.name?_name h]

/-- A place at which a scan accepts no file: by its name, or because the report is there. -/
def PassesOver (f : ScanFilter) (t : FileTree) (place : Place) : Prop :=
  (∃ front name, place = front ++ [name] ∧ f.acceptsName ⟨name⟩ = false) ∨
    ∃ report ∈ f.report, t.follow report = .ok place ∧ report.endsInSlash = false

theorem not_acceptsIn_of_passesOver (ht : t.WellFormed)
    (hfind : t.find directory = .ok (above, .directory)) (hpass : f.PassesOver t place)
    (hfile : t.HasFile place) (hinside : above <+: place) :
    f.acceptsIn t (FileTree.pathBelow directory above place) = false := by
  obtain ⟨hfollow, hnode, -⟩ := FileTree.find_eq_ok_iff.1 hfind
  have hnamed := ht.named place hfile
  have hne : place ≠ above := by
    rintro rfl
    exact ht.apart place hfile hnode
  rcases hpass with ⟨front, name, rfl, hname⟩ | ⟨report, hreport, hleads, hslash⟩
  · obtain ⟨before, name', hcut, hpath⟩ :=
      FileTree.exists_pathBelow directory hinside hne
    obtain ⟨rfl, hlast⟩ : front = above ++ before ∧ [name] = [name'] := by
      rw [← List.append_assoc] at hcut
      exact List.append_inj' hcut rfl
    obtain rfl : name = name' := by simpa using hlast
    have hlast : IsName name := hnamed name (by simp)
    rw [acceptsIn, hpath, acceptsName_join _ hlast, hname, Bool.false_and]
  · have hpath : t.follow (FileTree.pathBelow directory above place) = .ok place := by
      refine (FileTree.follow_pathBelow_iff hfollow hinside hnamed).2 ⟨rfl, ?_⟩
      exact fun before name after => FileTree.directory_of_follow hleads _ name after
    have hsame := FileTree.same_of_follow hpath hleads
      (FileTree.endsInSlash_pathBelow hfollow hinside hne hnamed) hslash hfile
    rw [acceptsIn, Option.mem_def.1 hreport, Option.any_some, hsame]
    exact Bool.and_false _

/-- Writing a file changes nothing about the acceptance of others. -/
theorem acceptsIn_addFile {content : ByteArray} {file : Place} (ht : t.WellFormed)
    (hfind : t.find directory = .ok (above, .directory)) (hfile : t.HasFile file)
    (hinside : above <+: file) (hne : file ≠ place) :
    f.acceptsIn (t.addFile place content) (FileTree.pathBelow directory above file)
      = f.acceptsIn t (FileTree.pathBelow directory above file) := by
  obtain ⟨hfollow, hnode, -⟩ := FileTree.find_eq_ok_iff.1 hfind
  have hnamed := ht.named file hfile
  have hbelow : file ≠ above := by
    rintro rfl
    exact ht.apart file hfile hnode
  have hleads : ∀ found, t.follow (FileTree.pathBelow directory above file) = .ok found →
      found = file ∧ t.locate (FileTree.pathBelow directory above file) = some file := by
    intro found hfound
    obtain rfl := ((FileTree.follow_pathBelow_iff hfollow hinside hnamed).1 hfound).1
    have hslash := FileTree.endsInSlash_pathBelow hfollow hinside hbelow hnamed
    exact ⟨rfl, FileTree.locate_eq_some_iff.2 ⟨hfound, .inr ⟨hslash, hfile⟩⟩⟩
  have hsame : (t.addFile place content).same (FileTree.pathBelow directory above file)
      = t.same (FileTree.pathBelow directory above file) :=
    funext fun q => FileTree.same_addFile hne hleads
  rw [acceptsIn, acceptsIn, hsame]

/-- A file written where a scan accepts none changes nothing for the scan. -/
theorem scan_addFile {content : ByteArray} (ht : t.WellFormed)
    (ht' : (t.addFile place content).WellFormed)
    (hfind : t.find directory = .ok (above, .directory)) (hpass : f.PassesOver t place) :
    f.scan (t.addFile place content) directory = f.scan t directory := by
  have hfind' : (t.addFile place content).find directory = .ok (above, .directory) := by
    simpa only [FileTree.find_eq_ok_iff, FileTree.follow_addFile, FileTree.node?_addFile]
      using hfind
  have hpass' : f.PassesOver (t.addFile place content) place := by
    simpa only [PassesOver, FileTree.follow_addFile] using hpass
  -- the new file is passed over, and so was what it replaces
  have hnew : [(place, content)].filter (fun file => above.isPrefixOf file.1 && f.acceptsIn
      (t.addFile place content) (FileTree.pathBelow directory above file.1)) = [] := by
    refine List.filter_eq_nil_iff.2 fun file hmem haccepted => ?_
    obtain rfl := List.mem_singleton.1 hmem
    simp only [Bool.and_eq_true, List.isPrefixOf_iff_prefix] at haccepted
    have := not_acceptsIn_of_passesOver ht' hfind' hpass'
      (FileTree.hasFile_addFile.2 (.inl rfl)) haccepted.1
    simp [this] at haccepted
  have hold : ∀ file ∈ t.files, (above.isPrefixOf file.1 &&
      f.acceptsIn (t.addFile place content) (FileTree.pathBelow directory above file.1) &&
        decide (file.1 ≠ place))
      = (above.isPrefixOf file.1 &&
        f.acceptsIn t (FileTree.pathBelow directory above file.1)) := by
    intro file hmem
    cases hinside : above.isPrefixOf file.1 with
    | false => rfl
    | true =>
      have hbelow : above <+: file.1 := List.isPrefixOf_iff_prefix.1 hinside
      by_cases hfile : file.1 = place
      · have := not_acceptsIn_of_passesOver ht hfind hpass ⟨file.2, hfile ▸ hmem⟩ (hfile ▸ hbelow)
        simp [hfile, this]
      · simp [hfile, acceptsIn_addFile ht hfind ⟨file.2, hmem⟩ hbelow hfile]
  rw [scan_of_find hfind', scan_of_find hfind]
  simp only [FileTree.addFile] at hnew hold ⊢
  rw [List.filter_append, hnew, List.append_nil, List.filter_filter, List.filter_congr hold]

end CommandLine.ScanFilter
end Untangle
