import Untangle.CommandLine.FileTree
import Untangle.Proofs.CommandLine.Path

/-!
# Where paths lead in a tree

Following a path depends on the directories only, of which one is the working
directory. Each step is one name further down, one name back, or none, so that
a path and the same path with a name joined to it lead to places that differ by
this name. What a file written to a tree changes is what is at one place.
-/
namespace Untangle.FileTree

open Untangle.Path (IsName)

variable {t t' : FileTree} {p q : Path} {place above next : Place} {name step : String}

theorem node?_eq_directory_iff :
    t.node? place = some .directory ↔ place = [] ∨ place ∈ t.directories := by
  by_cases h : place = [] ∨ place ∈ t.directories <;> simp [node?, h]

/-- Whether every path can be followed in a tree that can be followed in another. -/
structure Reaches (t t' : FileTree) : Prop where
  workingDirectory : t'.workingDirectory = t.workingDirectory
  directories : t.directories ⊆ t'.directories

theorem Reaches.refl (t : FileTree) : Reaches t t := ⟨rfl, List.Subset.refl _⟩

theorem Reaches.trans {t'' : FileTree} (h : Reaches t t') (h' : Reaches t' t'') : Reaches t t'' :=
  ⟨h'.workingDirectory.trans h.workingDirectory,
    List.Subset.trans h.directories h'.directories⟩

theorem Reaches.node? (h : Reaches t t') (hn : t.node? place = some .directory) :
    t'.node? place = some .directory :=
  node?_eq_directory_iff.2 ((node?_eq_directory_iff.1 hn).imp id fun hm => h.directories hm)

/-- The working directory is the same, so a path takes the same steps. -/
theorem Reaches.route (h : Reaches t t') (p : Path) : t'.route p = t.route p := by
  simp only [FileTree.route, h.workingDirectory]

/-! ## Steps -/

/-- A step stays, goes back, or goes on to a name. -/
theorem advance_eq_ok (h : t.advance place step = .ok next) :
    t.node? place = some .directory ∧
      (step = "." ∧ next = place ∨ step = ".." ∧ next = place.dropLast ∨
        step ≠ "." ∧ step ≠ ".." ∧ next = place ++ [step]) := by
  simp only [advance] at h
  split at h
  · cases h
  · cases h
  · next hnode =>
    refine ⟨hnode, ?_⟩
    grind

theorem Reaches.advance (h : Reaches t t') (ha : t.advance place step = .ok next) :
    t'.advance place step = .ok next := by
  have hnode := (advance_eq_ok ha).1
  simp only [FileTree.advance, hnode, h.node? hnode] at ha ⊢
  exact ha

/-- A name is taken from a directory, and leads one name further down. -/
theorem advance_name_iff (h : IsName name) :
    t.advance place name = .ok next ↔ t.node? place = some .directory ∧ next = place ++ [name] := by
  constructor
  · intro ha
    obtain ⟨hnode, hstep⟩ := advance_eq_ok ha
    simpa [hnode, h.ne_dot, h.ne_dots] using hstep
  · rintro ⟨hnode, rfl⟩
    simp [advance, hnode, h.ne_dot, h.ne_dots]

theorem foldlM_cons_eq_ok {steps : List String} :
    (step :: steps).foldlM t.advance above = .ok place ↔
      ∃ next, t.advance above step = .ok next ∧ steps.foldlM t.advance next = .ok place := by
  rw [List.foldlM_cons]
  cases t.advance above step with
  | error e => simp [bind, Except.bind]
  | ok next => simp [bind, Except.bind]

theorem foldlM_append_eq_ok {steps steps' : List String} :
    (steps ++ steps').foldlM t.advance above = .ok place ↔
      ∃ next, steps.foldlM t.advance above = .ok next ∧
        steps'.foldlM t.advance next = .ok place := by
  rw [List.foldlM_append]
  cases steps.foldlM t.advance above with
  | error e => simp [bind, Except.bind]
  | ok next => simp [bind, Except.bind]

/-- What every step preserves, the steps together preserve. -/
theorem foldlM_invariant {P : Place → Prop} {steps : List String}
    (hstep : ∀ {place step next}, step ∈ steps → P place → t.advance place step = .ok next → P next)
    (habove : P above) (h : steps.foldlM t.advance above = .ok place) : P place := by
  induction steps generalizing above with
  | nil =>
    obtain rfl : above = place := Except.ok.inj h
    exact habove
  | cons step steps ih =>
    obtain ⟨next, hnext, hrest⟩ := foldlM_cons_eq_ok.1 h
    exact ih (fun hm => hstep (List.mem_cons_of_mem _ hm))
      (hstep List.mem_cons_self habove hnext) hrest

/-- Steps that can be taken in one tree can be taken in another that it reaches. -/
theorem Reaches.foldlM {steps : List String} (h : Reaches t t')
    (hs : steps.foldlM t.advance above = .ok place) :
    steps.foldlM t'.advance above = .ok place := by
  induction steps generalizing above with
  | nil => exact hs
  | cons step steps ih =>
    obtain ⟨next, hnext, hrest⟩ := foldlM_cons_eq_ok.1 hs
    exact foldlM_cons_eq_ok.2 ⟨next, h.advance hnext, ih hrest⟩

/-- Steps that stay where they are can be left out. -/
theorem foldlM_filter {steps : List String} (h : steps.foldlM t.advance above = .ok place) :
    (steps.filter (· ≠ ".")).foldlM t.advance above = .ok place := by
  induction steps generalizing above with
  | nil => exact h
  | cons step steps ih =>
    obtain ⟨next, hnext, hrest⟩ := foldlM_cons_eq_ok.1 h
    by_cases hdot : step = "."
    · obtain ⟨-, hstep⟩ := advance_eq_ok hnext
      obtain rfl : next = above := by simpa [hdot] using hstep
      simpa [hdot] using ih hrest
    · rw [List.filter_cons_of_pos (by simpa using hdot)]
      exact foldlM_cons_eq_ok.2 ⟨next, hnext, ih hrest⟩

/-- Names lead down from one directory to the next. -/
theorem foldlM_names_iff {names : List String} (h : ∀ name ∈ names, IsName name) :
    names.foldlM t.advance above = .ok place ↔ place = above ++ names ∧
      ∀ before name after, names = before ++ name :: after →
        t.node? (above ++ before) = some .directory := by
  induction names generalizing above with
  | nil => simp [pure, Except.pure, eq_comm]
  | cons name names ih =>
    have ih := @ih (above ++ [name]) fun n hn => h n (List.mem_cons_of_mem _ hn)
    have hname := h name List.mem_cons_self
    simp only [foldlM_cons_eq_ok, advance_name_iff hname]
    constructor
    · rintro ⟨-, ⟨hnode, rfl⟩, hrest⟩
      obtain ⟨rfl, hdirs⟩ := ih.1 hrest
      refine ⟨by simp, fun before n after hcut => ?_⟩
      cases before with
      | nil => simpa using hnode
      | cons b before =>
        obtain ⟨rfl, hrest⟩ := List.cons.inj hcut
        simpa using hdirs before n after hrest
    · rintro ⟨rfl, hdirs⟩
      refine ⟨above ++ [name], ⟨by simpa using hdirs [] name names rfl, rfl⟩, ih.2 ⟨by simp, ?_⟩⟩
      intro before n after hcut
      simpa using hdirs (name :: before) n after (by simp [hcut])

/-! ## Paths -/

theorem follow_eq_ok_iff :
    t.follow p = .ok place ↔ p.text ≠ "" ∧ (t.route p).foldlM t.advance [] = .ok place := by
  by_cases hp : p.text = "" <;> simp [follow, hp]

theorem text_ne_of_follow (h : t.follow p = .ok place) : p.text ≠ "" := (follow_eq_ok_iff.1 h).1

/-- A path leads to the same place in every tree that can be reached. -/
theorem Reaches.follow (h : Reaches t t') (hf : t.follow p = .ok place) :
    t'.follow p = .ok place := by
  obtain ⟨hp, hsteps⟩ := follow_eq_ok_iff.1 hf
  refine follow_eq_ok_iff.2 ⟨hp, ?_⟩
  rw [h.route]
  exact h.foldlM hsteps

theorem isName_of_mem_route (h : step ∈ t.route p) (hdot : step ≠ ".") (hdots : step ≠ "..") :
    IsName step := by
  rw [route] at h
  split at h
  · exact Path.isName_of_mem_steps h hdot hdots
  · rcases List.mem_append.1 h with h | h <;> exact Path.isName_of_mem_steps h hdot hdots

/-- Names that are joined to a path are the last steps along it. -/
theorem route_foldl_join {names : List String} (h : ∀ name ∈ names, IsName name) :
    t.route (names.foldl Path.join p) = t.route p ++ names := by
  rw [route, route, Path.isAbsolute_foldl_join h, Path.steps_foldl_join h]
  split
  · rfl
  · exact (List.append_assoc _ _ _).symm

theorem route_join (p : Path) (h : IsName name) : t.route (p.join name) = t.route p ++ [name] := by
  have hnames : ∀ other ∈ [name], IsName other := by simpa using h
  have hroute := route_foldl_join (t := t) (p := p) hnames
  rwa [List.foldl_cons, List.foldl_nil] at hroute

/-- A path leads along names, whatever steps it takes. -/
theorem isName_of_follow (h : t.follow p = .ok place) : ∀ name ∈ place, IsName name := by
  refine foldlM_invariant (P := fun place => ∀ name ∈ place, IsName name) ?_ (by simp)
    (follow_eq_ok_iff.1 h).2
  intro place step next hstep hplace hnext
  obtain ⟨-, ⟨-, rfl⟩ | ⟨-, rfl⟩ | ⟨hdot, hdots, rfl⟩⟩ := advance_eq_ok hnext
  · exact hplace
  · exact fun n hn => hplace n (List.dropLast_subset _ hn)
  · intro n hn
    rcases List.mem_append.1 hn with hn | hn
    · exact hplace n hn
    · obtain rfl := List.mem_singleton.1 hn
      exact isName_of_mem_route hstep hdot hdots

/-- Everything above the place that a path leads to is a directory. -/
theorem directory_of_follow (h : t.follow p = .ok place) :
    ∀ before name after, place = before ++ name :: after → t.node? before = some .directory := by
  refine foldlM_invariant (P := fun place => ∀ before name after, place = before ++ name :: after →
    t.node? before = some .directory) ?_ (by simp) (follow_eq_ok_iff.1 h).2
  intro place step next _ hplace hnext
  obtain ⟨hnode, ⟨-, rfl⟩ | ⟨-, rfl⟩ | ⟨-, -, rfl⟩⟩ := advance_eq_ok hnext
  · exact hplace
  · intro before name after hcut
    cases hlast : place.getLast? with
    | none => simp_all
    | some last =>
      obtain ⟨front, rfl⟩ := List.getLast?_eq_some_iff.1 hlast
      rw [List.dropLast_concat] at hcut
      exact hplace before name (after ++ [last]) (by rw [hcut, List.append_assoc, List.cons_append])
  · intro before name after hcut
    rcases List.eq_nil_or_concat after with rfl | ⟨front, last, rfl⟩
    · obtain rfl := List.append_inj_left' hcut rfl
      exact hnode
    · have hconcat : place ++ [step] = before ++ name :: front ++ [last] := by simpa using hcut
      exact hplace before name front (List.append_inj_left' hconcat rfl)

/-- The steps along a path that lead away from where they are taken. -/
def moves (t : FileTree) (p : Path) : List String := (t.route p).filter (· ≠ ".")

theorem foldlM_moves (h : t.follow p = .ok place) : (t.moves p).foldlM t.advance [] = .ok place :=
  foldlM_filter (follow_eq_ok_iff.1 h).2

/-- Alike paths make the same moves. -/
theorem moves_congr (h : p.components = q.components) : t.moves p = t.moves q := by
  have habsolute : p.isAbsolute = q.isAbsolute := by
    rw [Path.isAbsolute_eq, Path.isAbsolute_eq, h]
  have hsteps : p.steps.filter (· ≠ ".") = q.steps.filter (· ≠ ".") := by
    rw [Path.filter_steps, Path.filter_steps, h]
  rw [moves, moves, route, route, habsolute]
  split
  · exact hsteps
  · rw [List.filter_append, List.filter_append, hsteps]

/-- Names that are joined to a path are moves behind it. -/
theorem moves_foldl_join {names : List String} (h : ∀ name ∈ names, IsName name) :
    t.moves (names.foldl Path.join p) = t.moves p ++ names := by
  have hself : names.filter (· ≠ ".") = names :=
    List.filter_eq_self.2 fun name hmem => by simpa using (h name hmem).ne_dot
  rw [moves, moves, route_foldl_join h, List.filter_append, hself]

/-- Paths that are alike lead to one place. -/
theorem eq_of_alike {place' : Place} (h : p.alike q = true) (hp : t.follow p = .ok place)
    (hq : t.follow q = .ok place') : place = place' := by
  have hcomponents : p.components = q.components := by simpa [Path.alike] using h
  have hp' := foldlM_moves hp
  rw [moves_congr hcomponents, foldlM_moves hq] at hp'
  exact (Except.ok.inj hp').symm

/-- A name that is joined to a path leads to this name in the directory that the path leads to. -/
theorem follow_join_iff (hp : p.text ≠ "") (h : IsName name) :
    t.follow (p.join name) = .ok place ↔
      ∃ above, t.follow p = .ok above ∧ t.node? above = some .directory ∧
        place = above ++ [name] := by
  have hjoin : (p.join name).text ≠ "" := Path.text_join_ne p h
  simp only [follow_eq_ok_iff, route_join p h, foldlM_append_eq_ok, hp, hjoin, ne_eq,
    not_false_eq_true, true_and]
  refine exists_congr fun above => and_congr_right fun _ => ?_
  constructor
  · intro hlast
    obtain ⟨next, hnext, hnil⟩ := foldlM_cons_eq_ok.1 hlast
    obtain rfl : next = place := Except.ok.inj hnil
    exact (advance_name_iff h).1 hnext
  · intro hplace
    exact foldlM_cons_eq_ok.2 ⟨place, (advance_name_iff h).2 hplace, rfl⟩

/-- A name that is joined to a path is the last on the way to where the path leads. -/
theorem exists_of_follow_join (h : IsName name) (hf : t.follow (p.join name) = .ok place) :
    ∃ above, place = above ++ [name] := by
  have hsteps := (follow_eq_ok_iff.1 hf).2
  rw [route_join p h] at hsteps
  obtain ⟨above, -, hlast⟩ := foldlM_append_eq_ok.1 hsteps
  obtain ⟨next, hnext, hnil⟩ := foldlM_cons_eq_ok.1 hlast
  obtain rfl : next = place := Except.ok.inj hnil
  exact ⟨above, ((advance_name_iff h).1 hnext).2⟩

/-- The paths to what is below a directory. -/
theorem follow_below_iff {names : List String} (hp : t.follow p = .ok above)
    (h : ∀ name ∈ names, IsName name) :
    t.follow (names.foldl Path.join p) = .ok place ↔ place = above ++ names ∧
      ∀ before name after, names = before ++ name :: after →
        t.node? (above ++ before) = some .directory := by
  obtain ⟨htext, hsteps⟩ := follow_eq_ok_iff.1 hp
  rw [follow_eq_ok_iff, route_foldl_join h, foldlM_append_eq_ok]
  simp [Path.text_foldl_join_ne htext h, hsteps, foldlM_names_iff h]

/-- A path finds what is at its place, and a file only without a slash at its end. -/
theorem find_eq_ok_iff {node : Node} : t.find p = .ok (place, node) ↔ t.follow p = .ok place ∧
    t.node? place = some node ∧ (p.endsInSlash = true → node = .directory) := by
  cases hf : t.follow p with
  | error e => simp [find, hf, bind, Except.bind]
  | ok found =>
    cases hn : t.node? found with
    | none =>
      have hfind : t.find p = .error .notFound := by
        simp only [find, hf, bind, Except.bind, hn]
        rfl
      grind
    | some n =>
      cases n with
      | directory =>
        have hfind : t.find p = .ok (found, .directory) := by
          simp only [find, hf, bind, Except.bind, hn]
          rfl
        grind
      | file content =>
        have hfind : t.find p = if p.endsInSlash then .error .notDirectory
            else .ok (found, .file content) := by
          simp only [find, hf, bind, Except.bind, hn]
          rfl
        cases hs : p.endsInSlash <;> grind

def HasFile (t : FileTree) (place : Place) : Prop := ∃ content, (place, content) ∈ t.files

theorem exists_node?_iff : (∃ node, t.node? place = some node) ↔
    t.node? place = some .directory ∨ t.HasFile place := by
  by_cases h : place = [] ∨ place ∈ t.directories
  · simp [node?, h]
  · have hlookup : (∃ content, t.files.lookup place = some content) ↔ t.HasFile place := by
      rw [← Option.isSome_iff_exists, List.lookup_isSome_iff]
      constructor
      · rintro ⟨⟨file, content⟩, hmem, hfile⟩
        obtain rfl := LawfulBEq.eq_of_beq hfile
        exact ⟨content, hmem⟩
      · rintro ⟨content, hmem⟩
        exact ⟨(place, content), hmem, BEq.rfl⟩
    have hnode : t.node? place = (t.files.lookup place).map .file := by simp [node?, h]
    rw [← hlookup, hnode]
    cases t.files.lookup place <;> simp

/-- A path finds a directory, or a file if it does not end in a slash. -/
theorem locate_eq_some_iff : t.locate p = some place ↔ t.follow p = .ok place ∧
    (t.node? place = some .directory ∨ p.endsInSlash = false ∧ t.HasFile place) := by
  have hlocate : t.locate p = some place ↔ ∃ node, t.find p = .ok (place, node) := by
    cases hf : t.find p with
    | error e => simp [locate, hf]
    | ok found => simp [locate, hf, Prod.ext_iff]
  have hnode : (∃ node, t.node? place = some node) ↔
      t.node? place = some .directory ∨ t.HasFile place := exists_node?_iff
  simp only [hlocate, find_eq_ok_iff, exists_and_left]
  refine and_congr_right fun _ => ?_
  cases hs : p.endsInSlash with
  | false => simpa using hnode
  | true => simp

/-! ## Writing -/

/-- A file is written where its path leads, unless there is a directory. -/
theorem write_eq_ok {content : ByteArray} (h : t.write p content = .ok t') :
    ∃ place, t.follow p = .ok place ∧ p.endsInSlash = false ∧ t.node? place ≠ some .directory ∧
      t' = t.addFile place content := by
  cases hf : t.follow p with
  | error e => simp [write, hf, bind, Except.bind] at h
  | ok place =>
    simp only [write, hf, bind, Except.bind] at h
    cases hs : p.endsInSlash with
    | true => simp [hs, throw, throwThe, MonadExceptOf.throw] at h
    | false =>
      refine ⟨place, rfl, rfl, ?_⟩
      cases hn : t.node? place with
      | none => simpa [hs, hn, pure, Except.pure, eq_comm] using h
      | some n =>
        cases n with
        | directory => simp [hs, hn, throw, throwThe, MonadExceptOf.throw] at h
        | file c => simpa [hs, hn, pure, Except.pure, eq_comm] using h

section AddFile

variable {content : ByteArray}

theorem hasFile_addFile :
    (t.addFile place content).HasFile next ↔ next = place ∨ t.HasFile next := by
  by_cases h : next = place <;> simp [HasFile, addFile, h]

theorem node?_addFile : (t.addFile place content).node? next = some .directory ↔
    t.node? next = some .directory := by
  simp only [node?_eq_directory_iff, addFile]

/-- Writing a file does not change where paths lead. -/
theorem follow_addFile :
    (t.addFile place content).follow p = .ok next ↔ t.follow p = .ok next :=
  ⟨Reaches.follow ⟨rfl, List.Subset.refl _⟩, Reaches.follow ⟨rfl, List.Subset.refl _⟩⟩

/-- Writing a file changes what is found at its place only. -/
theorem locate_addFile : (t.addFile place content).locate p = some next ↔
    t.locate p = some next ∨ next = place ∧ t.follow p = .ok place ∧ p.endsInSlash = false := by
  simp only [locate_eq_some_iff, follow_addFile, node?_addFile, hasFile_addFile]
  constructor
  · rintro ⟨hfollow, hnode | ⟨hslash, rfl | hfile⟩⟩
    · exact .inl ⟨hfollow, .inl hnode⟩
    · exact .inr ⟨rfl, hfollow, hslash⟩
    · exact .inl ⟨hfollow, .inr ⟨hslash, hfile⟩⟩
  · rintro (⟨hfollow, hnode | ⟨hslash, hfile⟩⟩ | ⟨rfl, hfollow, hslash⟩)
    · exact ⟨hfollow, .inl hnode⟩
    · exact ⟨hfollow, .inr ⟨hslash, .inr hfile⟩⟩
    · exact ⟨hfollow, .inr ⟨hslash, .inl rfl⟩⟩

end AddFile

/-- A tree as it can lie on a disk: the way to a file goes along names, and no file is a
directory. -/
structure WellFormed (t : FileTree) : Prop where
  named : ∀ place, t.HasFile place → ∀ name ∈ place, IsName name
  apart : ∀ place, t.HasFile place → t.node? place ≠ some .directory

theorem wellFormed_iff : t.WellFormed ↔ ∀ file ∈ t.files,
    (∀ name ∈ file.1, IsName name) ∧ file.1 ≠ [] ∧ file.1 ∉ t.directories := by
  have hnode : ∀ place, t.node? place ≠ some .directory ↔ place ≠ [] ∧ place ∉ t.directories :=
    fun place => by rw [ne_eq, node?_eq_directory_iff, not_or]
  constructor
  · rintro ht ⟨place, content⟩ hfile
    exact ⟨ht.named place ⟨content, hfile⟩, (hnode place).1 (ht.apart place ⟨content, hfile⟩)⟩
  · intro h
    refine ⟨?_, ?_⟩
    · rintro place ⟨content, hfile⟩
      exact (h (place, content) hfile).1
    · rintro place ⟨content, hfile⟩
      exact (hnode place).2 (h (place, content) hfile).2

instance (t : FileTree) : Decidable t.WellFormed := decidable_of_iff _ wellFormed_iff.symm

/-- A tree stays well formed if a file is written at a place with names. -/
theorem WellFormed.addFile {content : ByteArray} (ht : t.WellFormed)
    (hnamed : ∀ name ∈ place, IsName name) (hnode : t.node? place ≠ some .directory) :
    (t.addFile place content).WellFormed := by
  constructor
  · intro file hfile
    rcases hasFile_addFile.1 hfile with rfl | hfile
    · exact hnamed
    · exact ht.named file hfile
  · intro file hfile
    rw [ne_eq, node?_addFile]
    rcases hasFile_addFile.1 hfile with rfl | hfile
    · exact hnode
    · exact ht.apart file hfile

/-- What comes of a tree by writing to some paths, in any order and any number of times. -/
inductive Writes (allowed : Path → Prop) (t : FileTree) : FileTree → Prop
  | refl : Writes allowed t t
  | write {t' t'' : FileTree} {p : Path} {content : ByteArray} (h : Writes allowed t t')
      (hp : allowed p) (hw : t'.write p content = .ok t'') : Writes allowed t t''

namespace Writes

variable {allowed : Path → Prop} {t'' : FileTree}

theorem trans (h : Writes allowed t t') (h' : Writes allowed t' t'') : Writes allowed t t'' := by
  induction h' with
  | refl => exact h
  | write _ hp hw ih => exact .write ih hp hw

theorem reaches (h : Writes allowed t t') : Reaches t t' := by
  induction h with
  | refl => exact .refl t
  | write _ _ hw ih =>
    obtain ⟨place, -, -, -, rfl⟩ := write_eq_ok hw
    exact ih.trans ⟨rfl, List.Subset.refl _⟩

/-- A well formed tree stays so, whatever is written to it. -/
theorem wellFormed (h : Writes allowed t t') (ht : t.WellFormed) : t'.WellFormed := by
  induction h with
  | refl => exact ht
  | write _ _ hw ih =>
    obtain ⟨place, hfollow, -, hnode, rfl⟩ := write_eq_ok hw
    exact ih.addFile (isName_of_follow hfollow) hnode

end Writes

/-! ## Making directories -/

theorem isDirectory_iff : t.isDirectory p = true ↔
    ∃ place, t.follow p = .ok place ∧ t.node? place = some .directory := by
  have hfind : t.isDirectory p = true ↔ ∃ place, t.find p = .ok (place, .directory) := by
    cases hf : t.find p with
    | error e => simp [isDirectory, hf]
    | ok found =>
      obtain ⟨place, node⟩ := found
      cases node <;> simp [isDirectory, hf]
  simp [hfind, find_eq_ok_iff]

theorem makeDirectory_eq_ok (h : t.makeDirectory p = .ok t') : ∃ place, t.follow p = .ok place ∧
    t.node? place = none ∧ t' = { t with directories := t.directories ++ [place] } := by
  cases hf : t.follow p with
  | error e => simp [makeDirectory, hf, bind, Except.bind] at h
  | ok place =>
    simp only [makeDirectory, hf, bind, Except.bind] at h
    cases hn : t.node? place with
    | some node => simp [hn, throw, throwThe, MonadExceptOf.throw] at h
    | none =>
      have hnew : ¬(place = [] ∨ place ∈ t.directories) := by simp [← node?_eq_directory_iff, hn]
      have hadd : t' = t.addDirectory place := by simpa [hn, pure, Except.pure, eq_comm] using h
      refine ⟨place, rfl, hn, ?_⟩
      simpa [addDirectory, hnew] using hadd

theorem makeDirectory_of_isDirectory (h : t.isDirectory p = true) :
    t.makeDirectory p = .error .alreadyExists := by
  obtain ⟨place, hfollow, hnode⟩ := isDirectory_iff.1 h
  simp [makeDirectory, hfollow, hnode, bind, Except.bind, throw, throwThe, MonadExceptOf.throw]

/-- What making directories leaves as it is: the files, and the directories that are there. -/
structure Roomier (t t' : FileTree) : Prop where
  reaches : Reaches t t'
  files : t'.files = t.files
  wellFormed : t.WellFormed → t'.WellFormed

theorem Roomier.refl (t : FileTree) : Roomier t t := ⟨.refl t, rfl, id⟩

theorem Roomier.trans {t'' : FileTree} (h : Roomier t t') (h' : Roomier t' t'') : Roomier t t'' :=
  ⟨h.reaches.trans h'.reaches, h'.files.trans h.files, fun ht => h'.wellFormed (h.wellFormed ht)⟩

/-- A directory that has been made is there, in a tree that is as it was otherwise. -/
theorem roomier_makeDirectory (h : t.makeDirectory p = .ok t') :
    Roomier t t' ∧ t'.isDirectory p = true := by
  obtain ⟨place, hfollow, hnode, rfl⟩ := makeDirectory_eq_ok h
  have hreaches : Reaches t { t with directories := t.directories ++ [place] } :=
    ⟨rfl, List.subset_append_left _ _⟩
  have hfree : ¬t.HasFile place := by
    intro hfile
    obtain ⟨node, hn⟩ := exists_node?_iff.2 (.inr hfile)
    simp [hnode] at hn
  refine ⟨⟨hreaches, rfl, fun ht => ⟨ht.named, fun file hfile hdirectory => ?_⟩⟩, ?_⟩
  · rcases node?_eq_directory_iff.1 hdirectory with hroot | hmem
    · exact ht.apart file hfile (node?_eq_directory_iff.2 (.inl hroot))
    · rcases List.mem_append.1 hmem with hmem | hmem
      · exact ht.apart file hfile (node?_eq_directory_iff.2 (.inr hmem))
      · obtain rfl := List.mem_singleton.1 hmem
        exact hfree hfile
  · exact isDirectory_iff.2 ⟨place, hreaches.follow hfollow, node?_eq_directory_iff.2 (by simp)⟩

theorem eq_of_ite_ok {fault : FileFault}
    (h : (if t.isDirectory p then Except.ok t else .error fault) = .ok t') :
    t.isDirectory p = true ∧ t = t' := by
  split at h
  · next hp => exact ⟨hp, Except.ok.inj h⟩
  · cases h

/-- Making the directories on a way leaves what is there, and makes the last of them. -/
theorem roomier_makeFirst {paths : List Path} (h : t.makeFirst paths = .ok t') :
    Roomier t t' ∧ ∀ p ∈ paths.head?, t'.isDirectory p = true := by
  induction paths generalizing t t' with
  | nil =>
    obtain rfl : t = t' := Except.ok.inj h
    exact ⟨.refl t, by simp⟩
  | cons p paths ih =>
    simp only [List.head?_cons, Option.mem_some_iff, forall_eq']
    cases hmake : t.makeDirectory p with
    | ok made =>
      obtain rfl : made = t' := by simpa [makeFirst, hmake] using h
      exact roomier_makeDirectory hmake
    | error fault =>
      by_cases hfault : fault = .notFound
      · -- the directories above are made first, and then this one is tried again
        subst hfault
        cases hrest : t.makeFirst paths with
        | error fault => simp [makeFirst, hmake, hrest, bind, Except.bind] at h
        | ok u =>
          have hu := (ih hrest).1
          simp only [makeFirst, hmake, hrest, bind, Except.bind] at h
          cases hagain : u.makeDirectory p with
          | ok made =>
            obtain rfl : made = t' := by simpa [hagain, pure, Except.pure] using h
            obtain ⟨hmade, hp⟩ := roomier_makeDirectory hagain
            exact ⟨hu.trans hmade, hp⟩
          | error fault =>
            rw [hagain] at h
            obtain ⟨hp, rfl⟩ := eq_of_ite_ok h
            exact ⟨hu, hp⟩
      · have hmakeFirst : t.makeFirst (p :: paths)
            = if t.isDirectory p then .ok t else .error fault := by
          simp only [makeFirst, hmake]
        obtain ⟨hp, rfl⟩ := eq_of_ite_ok (hmakeFirst.symm.trans h)
        exact ⟨.refl t, hp⟩

theorem roomier_makeDirectories (h : t.makeDirectories p = .ok t') : Roomier t t' :=
  (roomier_makeFirst h).1

/-- Once a directory has been made there is nothing more to make. -/
theorem makeDirectories_again {t'' : FileTree} (h : t.makeDirectories p = .ok t')
    (hd : Reaches t' t'') : t''.makeDirectories p = .ok t'' := by
  have hhead := (roomier_makeFirst h).2
  rw [makeDirectories]
  cases hpaths : p.ancestors with
  | nil => rfl
  | cons first above =>
    obtain ⟨place, hfollow, hnode⟩ := isDirectory_iff.1 (hhead first (by simp [hpaths]))
    have hthere : t''.isDirectory first = true :=
      isDirectory_iff.2 ⟨place, hd.follow hfollow, hd.node? hnode⟩
    simp [makeFirst, makeDirectory_of_isDirectory hthere, hthere]

end Untangle.FileTree
