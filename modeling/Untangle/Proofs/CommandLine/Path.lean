import Untangle.CommandLine.Path
import Untangle.Proofs.Lists
import Untangle.Proofs.Text.Split

/-!
# The name at the end of a path

Joining a name to a path adds one piece, one step and one component at the end,
whether or not the path ends in a slash. The parent of the result is the path
again but for pieces at its end that lead nowhere. A name with an extension is
its stem, a dot and the extension.
-/
namespace Untangle.Path

/-- What a file or directory can be called. -/
structure IsName (name : String) : Prop where
  ne_empty : name ≠ ""
  slash_free : '/' ∉ name.toList
  ne_dot : name ≠ "."
  ne_dots : name ≠ ".."

instance (name : String) : Decidable (IsName name) :=
  decidable_of_iff (name ≠ "" ∧ '/' ∉ name.toList ∧ name ≠ "." ∧ name ≠ "..")
    ⟨fun ⟨h, hs, hd, hds⟩ => ⟨h, hs, hd, hds⟩, fun ⟨h, hs, hd, hds⟩ => ⟨h, hs, hd, hds⟩⟩

variable {p q : Path} {name : String}

theorem isIdle_name (h : IsName name) : isIdle name = false := by
  simp [isIdle, h.ne_empty, h.ne_dot]

theorem slash_free_of_mem_pieces {piece : String} (h : piece ∈ p.pieces) : '/' ∉ piece.toList :=
  Text.not_mem_of_mem_splitText h

theorem isName_of_mem_steps {step : String} (h : step ∈ p.steps) (hdot : step ≠ ".")
    (hdots : step ≠ "..") : IsName step := by
  obtain ⟨hmem, hne⟩ := List.mem_filter.1 h
  exact ⟨by simpa using hne, slash_free_of_mem_pieces hmem, hdot, hdots⟩

theorem pieces_ne_nil (p : Path) : p.pieces ≠ [] := Text.splitText_ne_nil _

theorem pieces_of_empty (h : p.text = "") : p.pieces = [""] := by
  obtain rfl : p = ⟨""⟩ := congrArg Path.mk h
  rfl

/-- Nothing stands before the first slash of an absolute path, nor in the empty path. -/
theorem first_eq_empty_iff {first : String} {rest : List String} (h : p.pieces = first :: rest) :
    first = "" ↔ p.text = "" ∨ p.isAbsolute = true := by
  obtain ⟨text⟩ := p
  simp only [pieces, Text.splitText] at h
  cases ht : text.toList with
  | nil =>
    have : text = "" := by simpa using ht
    simp_all [Text.split]
  | cons c cs =>
    have hne : text ≠ "" := by
      rintro rfl
      simp at ht
    by_cases hc : c = '/'
    · simp_all [Text.split, isAbsolute]
    · cases hs : Text.split '/' cs <;> simp_all [Text.split, isAbsolute] <;>
        simp [← h.1]

/-! ## The end of a path -/

theorem exists_of_endsInSlash (h : p.endsInSlash = true) : ∃ text, p.text = text ++ "/" := by
  obtain ⟨cs, hcs⟩ := List.getLast?_eq_some_iff.1 (by simpa [endsInSlash] using h)
  exact ⟨String.ofList cs, by rw [← String.toList_inj]; simpa using hcs⟩

theorem pieces_append_slash (s t : String) :
    pieces ⟨s ++ "/" ++ t⟩ = pieces ⟨s⟩ ++ pieces ⟨t⟩ :=
  Text.splitText_append s t

theorem pieces_of_slash {text : String} (h : p.text = text ++ "/") :
    p.pieces = pieces ⟨text⟩ ++ [""] := by
  have hempty : p.text = text ++ "/" ++ "" := by simpa using h
  rw [show p = ⟨text ++ "/" ++ ""⟩ from congrArg Path.mk hempty, pieces_append_slash]
  rfl

theorem pieces_name (h : '/' ∉ name.toList) : pieces ⟨name⟩ = [name] :=
  Text.splitText_of_not_mem h

theorem not_isAbsolute_name (h : '/' ∉ name.toList) : (⟨name⟩ : Path).isAbsolute = false := by
  cases hn : name.toList with
  | nil => simp [isAbsolute, hn]
  | cons c cs =>
    rw [hn] at h
    have : c ≠ '/' := fun e => h (e ▸ List.mem_cons_self)
    simp [isAbsolute, hn, this]

/-- What all paths to something in a directory begin with. -/
def lead (p : Path) : String := if p.text = "" || p.endsInSlash then p.text else p.text ++ "/"

/-- Joining a name puts it behind what paths into the directory begin with. -/
theorem join_eq (h : (⟨name⟩ : Path).isAbsolute = false) : p.join name = ⟨p.lead ++ name⟩ := by
  by_cases hp : p.text = "" || p.endsInSlash <;> simp [join, lead, h, hp]

theorem exists_lead (hp : p.text ≠ "") : ∃ text, p.lead = text ++ "/" := by
  by_cases hslash : p.endsInSlash
  · obtain ⟨text, htext⟩ := exists_of_endsInSlash hslash
    exact ⟨text, by simp [lead, hslash, htext]⟩
  · exact ⟨p.text, by simp [lead, hslash, hp]⟩

/-- A path and what is joined to it are told apart by the last slash. -/
theorem lead_append_inj {s s' : String} (hp : p.text ≠ "") (hq : q.text ≠ "")
    (hs : '/' ∉ s.toList) (hs' : '/' ∉ s'.toList) (h : p.lead ++ s = q.lead ++ s') :
    p.lead = q.lead ∧ s = s' := by
  obtain ⟨text, htext⟩ := exists_lead hp
  obtain ⟨text', htext'⟩ := exists_lead hq
  rw [htext, htext'] at h ⊢
  have hbackwards : s.toList.reverse ++ '/' :: text.toList.reverse
      = s'.toList.reverse ++ '/' :: text'.toList.reverse := by
    simpa using congrArg (fun s => s.toList.reverse) h
  obtain ⟨hname, hpath⟩ := append_cons_inj (by simpa using hs) (by simpa using hs') hbackwards
  refine ⟨congrArg (· ++ "/") ?_, ?_⟩
  · simpa [String.toList_inj] using hpath
  · simpa [String.toList_inj] using hname

theorem join_empty (h : '/' ∉ name.toList) : join ⟨""⟩ name = ⟨name⟩ := by
  simp [join_eq (not_isAbsolute_name h), lead]

/-- The pieces of a path, but for an empty one behind a slash at its end, come before the name that
is joined to it. -/
theorem exists_pieces (hp : p.text ≠ "") : ∃ first rest tail, p.pieces = first :: (rest ++ tail) ∧
    (tail = [] ∨ tail = [""]) ∧
    ∀ name, '/' ∉ name.toList → (p.join name).pieces = first :: (rest ++ [name]) := by
  by_cases hslash : p.endsInSlash
  · obtain ⟨text, htext⟩ := exists_of_endsInSlash hslash
    obtain ⟨first, rest, hfront⟩ := List.exists_cons_of_ne_nil (pieces_ne_nil ⟨text⟩)
    refine ⟨first, rest, [""], ?_, .inr rfl, fun name hname => ?_⟩
    · rw [pieces_of_slash htext, hfront, List.cons_append]
    · have hlead : p.lead = text ++ "/" := by simp [lead, hslash, htext]
      rw [join_eq (not_isAbsolute_name hname), hlead, pieces_append_slash, hfront,
        pieces_name hname, List.cons_append]
  · obtain ⟨first, rest, hfront⟩ := List.exists_cons_of_ne_nil (pieces_ne_nil p)
    refine ⟨first, rest, [], by simpa using hfront, .inl rfl, fun name hname => ?_⟩
    have hlead : p.lead = p.text ++ "/" := by simp [lead, hslash, hp]
    rw [join_eq (not_isAbsolute_name hname), hlead, pieces_append_slash, hfront,
      pieces_name hname, List.cons_append]

theorem not_endsInSlash_of_pieces {front : List String} {last : String}
    (h : p.pieces = front ++ [last]) (hlast : last ≠ "") : p.endsInSlash = false := by
  refine Bool.eq_false_iff.2 fun hslash => ?_
  obtain ⟨text, htext⟩ := exists_of_endsInSlash hslash
  rw [pieces_of_slash htext] at h
  exact hlast (List.cons.inj (List.append_inj_right' h rfl)).1.symm

/-- A path with a name at its end does not end in a slash. -/
theorem endsInSlash_join (hp : p.text ≠ "") (h : IsName name) :
    (p.join name).endsInSlash = false := by
  obtain ⟨first, rest, -, -, -, hjoin⟩ := exists_pieces hp
  have hpieces : (p.join name).pieces = (first :: rest) ++ [name] := hjoin name h.slash_free
  exact not_endsInSlash_of_pieces hpieces h.ne_empty

theorem text_join_ne (p : Path) (h : IsName name) : (p.join name).text ≠ "" := by
  rw [join_eq (not_isAbsolute_name h.slash_free)]
  simp [h.ne_empty]

theorem isAbsolute_join (p : Path) (h : '/' ∉ name.toList) :
    (p.join name).isAbsolute = p.isAbsolute := by
  by_cases hp : p.text = ""
  · obtain rfl : p = ⟨""⟩ := congrArg Path.mk hp
    rw [join_empty h, not_isAbsolute_name h]
    rfl
  · obtain ⟨c, cs, htext⟩ := List.exists_cons_of_ne_nil (l := p.text.toList) (by simpa using hp)
    rw [join_eq (not_isAbsolute_name h)]
    by_cases hslash : p.endsInSlash <;> simp [isAbsolute, lead, hslash, htext, hp]

theorem steps_join (p : Path) (h : IsName name) : (p.join name).steps = p.steps ++ [name] := by
  have hname : [name].filter (· ≠ "") = [name] := by simp [h.ne_empty]
  by_cases hp : p.text = ""
  · obtain rfl : p = ⟨""⟩ := congrArg Path.mk hp
    rw [join_empty h.slash_free, steps, pieces_name h.slash_free, hname]
    rfl
  · obtain ⟨first, rest, tail, hpieces, htail, hjoin⟩ := exists_pieces hp
    have hempty : tail.filter (· ≠ "") = [] := by rcases htail with rfl | rfl <;> rfl
    rw [steps, steps, hpieces, hjoin name h.slash_free, ← List.cons_append, ← List.cons_append,
      List.filter_append, List.filter_append, hname, hempty, List.append_nil]

section Below

variable {names : List String}

theorem text_foldl_join_ne (hp : p.text ≠ "") (h : ∀ name ∈ names, IsName name) :
    (names.foldl join p).text ≠ "" := by
  induction names generalizing p with
  | nil => exact hp
  | cons name names ih =>
    exact ih (text_join_ne p (h name List.mem_cons_self)) fun n hn =>
      h n (List.mem_cons_of_mem _ hn)

theorem isAbsolute_foldl_join (h : ∀ name ∈ names, IsName name) :
    (names.foldl join p).isAbsolute = p.isAbsolute := by
  induction names generalizing p with
  | nil => rfl
  | cons name names ih =>
    rw [List.foldl_cons, ih fun n hn => h n (List.mem_cons_of_mem _ hn),
      isAbsolute_join p (h name List.mem_cons_self).slash_free]

/-- Joining names adds them as steps. -/
theorem steps_foldl_join (h : ∀ name ∈ names, IsName name) :
    (names.foldl join p).steps = p.steps ++ names := by
  induction names generalizing p with
  | nil => simp
  | cons name names ih =>
    rw [List.foldl_cons, ih fun n hn => h n (List.mem_cons_of_mem _ hn),
      steps_join p (h name List.mem_cons_self), List.append_assoc, List.singleton_append]

/-- The path to a place tells the names on the way to it. -/
theorem steps_intercalate (h : ∀ name ∈ names, IsName name) :
    steps ⟨"/" ++ "/".intercalate names⟩ = names := by
  cases names with
  | nil => decide
  | cons name rest =>
    have hpieces : pieces ⟨"" ++ "/" ++ "/".intercalate (name :: rest)⟩ = "" :: name :: rest := by
      rw [pieces_append_slash]
      exact congrArg ("" :: ·)
        (Text.splitText_intercalate (List.cons_ne_nil _ _) fun n hn => (h n hn).slash_free)
    have hself : (name :: rest).filter (· ≠ "") = name :: rest :=
      List.filter_eq_self.2 fun n hn => by simpa using (h n hn).ne_empty
    rw [String.empty_append] at hpieces
    rw [steps, hpieces, List.filter_cons_of_neg (by decide), hself]

end Below

/-! ## The last component -/

theorem components_of_empty (h : p.text = "") : p.components = [] := by
  obtain rfl : p = ⟨""⟩ := congrArg Path.mk h
  rfl

/-- A path begins at the root or at its first piece. -/
theorem components_of_pieces {first : String} {rest : List String} (hp : p.text ≠ "")
    (h : p.pieces = first :: rest) : p.components =
      (if first = "" then "/" else first) :: rest.filter (fun piece => !isIdle piece) := by
  have hfirst : first = "" ↔ p.isAbsolute = true := by simpa [hp] using first_eq_empty_iff h
  by_cases habsolute : p.isAbsolute <;> simp [components, h, hfirst, habsolute]

theorem components_join (p : Path) (h : IsName name) :
    (p.join name).components = p.components ++ [name] := by
  have hname : [name].filter (fun piece => !isIdle piece) = [name] := by simp [isIdle_name h]
  by_cases hp : p.text = ""
  · have hpieces : (p.join name).pieces = [name] := by
      obtain rfl : p = ⟨""⟩ := congrArg Path.mk hp
      rw [join_empty h.slash_free, pieces_name h.slash_free]
    rw [components_of_pieces (text_join_ne p h) hpieces, components_of_empty hp]
    simp [h.ne_empty]
  · obtain ⟨first, rest, tail, hpieces, htail, hjoin⟩ := exists_pieces hp
    have hidle : tail.filter (fun piece => !isIdle piece) = [] := by
      rcases htail with rfl | rfl <;> rfl
    rw [components_of_pieces (text_join_ne p h) (hjoin name h.slash_free),
      components_of_pieces hp hpieces, List.filter_append, List.filter_append, hname, hidle,
      List.append_nil, List.cons_append]

/-- What all paths to something in a directory begin with tells where the directory is. -/
theorem components_eq_of_lead (h : p.lead = q.lead) : p.components = q.components := by
  have hname : IsName "x" := by decide
  have habsolute := not_isAbsolute_name hname.slash_free
  have hjoin : p.join "x" = q.join "x" := by rw [join_eq habsolute, join_eq habsolute, h]
  have hcomponents := congrArg components hjoin
  rw [components_join p hname, components_join q hname] at hcomponents
  exact List.append_cancel_right hcomponents

theorem isAbsolute_eq (p : Path) : p.isAbsolute = (p.components.head? == some "/") := by
  by_cases hp : p.text = ""
  · obtain rfl : p = ⟨""⟩ := congrArg Path.mk hp
    rfl
  · obtain ⟨first, rest, hpieces⟩ := List.exists_cons_of_ne_nil (pieces_ne_nil p)
    have hfirst : first = "" ↔ p.isAbsolute = true := by
      simpa [hp] using first_eq_empty_iff hpieces
    have hslash : first ≠ "/" := by
      rintro rfl
      exact slash_free_of_mem_pieces (hpieces ▸ List.mem_cons_self) (by decide)
    rw [components_of_pieces hp hpieces]
    by_cases habsolute : p.isAbsolute <;> simp [hfirst, habsolute, hslash]

/-- But for the dots, the steps along a path are its components below the root. -/
theorem filter_steps (p : Path) : p.steps.filter (· ≠ ".")
    = p.components.filter fun component => component ≠ "." && component ≠ "/" := by
  by_cases hp : p.text = ""
  · obtain rfl : p = ⟨""⟩ := congrArg Path.mk hp
    rfl
  · obtain ⟨first, rest, hpieces⟩ := List.exists_cons_of_ne_nil (pieces_ne_nil p)
    have hslash : ∀ piece ∈ first :: rest, piece ≠ "/" := by
      rintro piece hmem rfl
      exact slash_free_of_mem_pieces (hpieces ▸ hmem) (by decide)
    have hrest : (rest.filter (· ≠ "")).filter (· ≠ ".")
        = (rest.filter fun piece => !isIdle piece).filter
          fun component => component ≠ "." && component ≠ "/" := by
      rw [List.filter_filter, List.filter_filter]
      refine List.filter_congr fun piece hmem => ?_
      by_cases hdot : piece = "." <;> by_cases hempty : piece = "" <;>
        simp [isIdle, hdot, hempty, hslash piece (List.mem_cons_of_mem _ hmem)]
    have hfirst : first ≠ "/" := hslash first List.mem_cons_self
    rw [steps, components_of_pieces hp hpieces, hpieces]
    by_cases hempty : first = ""
    · rw [List.filter_cons_of_neg (by simpa using hempty), hrest, if_pos hempty,
        List.filter_cons_of_neg (by decide)]
    · rw [List.filter_cons_of_pos (by simpa using hempty), if_neg hempty, List.filter_cons,
        List.filter_cons, hrest]
      simp [hfirst]

theorem name?_of_components {front : List String} (h : p.components = front ++ [name])
    (hname : IsName name) : p.name? = some name := by
  have hslash : name ≠ "/" := by
    rintro rfl
    exact hname.slash_free (by decide)
  simp [name?, h, hslash, hname.ne_dot, hname.ne_dots]

theorem name?_join (p : Path) (h : IsName name) : (p.join name).name? = some name :=
  name?_of_components (components_join p h) h

theorem name?_name (h : IsName name) : name? ⟨name⟩ = some name := by
  have hcomponents : components ⟨name⟩ = [] ++ [name] := by
    rw [components_of_pieces h.ne_empty (pieces_name h.slash_free), if_neg h.ne_empty]
    rfl
  exact name?_of_components hcomponents h

/-- Joining names adds them as components. -/
theorem components_foldl_join {names : List String} (h : ∀ name ∈ names, IsName name) :
    (names.foldl join p).components = p.components ++ names := by
  induction names generalizing p with
  | nil => simp
  | cons name names ih =>
    rw [List.foldl_cons, ih fun n hn => h n (List.mem_cons_of_mem _ hn),
      components_join p (h name List.mem_cons_self), List.append_assoc, List.singleton_append]

/-! ## The parent -/

/-- What is left of pieces without those at their end that lead nowhere. -/
theorem exists_dropIdleEnd (l : List String) :
    ∃ idle, l = dropIdleEnd l ++ idle ∧ ∀ piece ∈ idle, isIdle piece = true := by
  refine ⟨(l.reverse.takeWhile isIdle).reverse, ?_, fun piece hmem => ?_⟩
  · rw [dropIdleEnd, ← List.reverse_append, List.takeWhile_append_dropWhile, List.reverse_reverse]
  · exact List.all_eq_true.1 List.all_takeWhile piece (List.mem_reverse.1 hmem)

theorem dropIdleEnd_append_name {l : List String} (h : IsName name) :
    dropIdleEnd (l ++ [name]) = l ++ [name] := by
  simp [dropIdleEnd, isIdle_name h]

theorem dropIdleEnd_append_empty {l : List String} : dropIdleEnd (l ++ [""]) = dropIdleEnd l := by
  simp [dropIdleEnd, isIdle]

/-- A path without the pieces at its end that lead nowhere. -/
def trimmed (p : Path) : Path :=
  match p.pieces with
  | [] => p
  | first :: rest =>
    match dropIdleEnd rest with
    | [] => ⟨if first = "" then "/" else first⟩
    | kept => ⟨"/".intercalate (first :: kept)⟩

/-- The parent of a joined path is the path, without what leads nowhere at its end. -/
theorem parent?_join (hp : p.text ≠ "") (h : IsName name) :
    (p.join name).parent? = some p.trimmed := by
  obtain ⟨first, rest, tail, hpieces, htail, hjoin⟩ := exists_pieces hp
  have hrest : dropIdleEnd (rest ++ tail) = dropIdleEnd rest := by
    rcases htail with rfl | rfl
    · rw [List.append_nil]
    · exact dropIdleEnd_append_empty
  simp only [parent?, trimmed, hpieces, hrest, hjoin name h.slash_free, dropIdleEnd_append_name h]
  cases hconcat : rest ++ [name] with
  | nil => simp at hconcat
  | cons x xs =>
    have hlast : (x :: xs).dropLast = rest := by rw [← hconcat, List.dropLast_concat]
    simp only [hlast]
    cases dropIdleEnd rest <;> rfl

section Trimmed

/-- Trimming keeps the first piece and all that lead somewhere. -/
theorem pieces_trimmed (p : Path) : ∃ first rest kept, p.pieces = first :: rest ∧
    p.trimmed.pieces = first :: kept ∧ (first = "" → kept ≠ []) ∧
    kept.filter (fun piece => !isIdle piece) = rest.filter (fun piece => !isIdle piece) := by
  obtain ⟨first, rest, hpieces⟩ := List.exists_cons_of_ne_nil (pieces_ne_nil p)
  obtain ⟨idle, hrest, hidle⟩ := exists_dropIdleEnd rest
  have hnone : idle.filter (fun piece => !isIdle piece) = [] := by
    simpa [List.filter_eq_nil_iff] using hidle
  have hslash : ∀ piece ∈ first :: dropIdleEnd rest, '/' ∉ piece.toList := by
    intro piece hmem
    refine slash_free_of_mem_pieces (p := p) ?_
    rw [hpieces, hrest, ← List.cons_append]
    exact List.mem_append_left idle hmem
  have hkept : (dropIdleEnd rest).filter (fun piece => !isIdle piece)
      = rest.filter (fun piece => !isIdle piece) := by
    conv => rhs; rw [hrest, List.filter_append, hnone, List.append_nil]
  cases hdrop : dropIdleEnd rest with
  | nil =>
    rw [hdrop] at hkept
    by_cases hfirst : first = ""
    · refine ⟨first, rest, [""], hpieces, ?_, by simp, hkept⟩
      simp only [trimmed, hpieces, hdrop, hfirst, if_true]
      rfl
    · refine ⟨first, rest, [], hpieces, ?_, fun h => absurd h hfirst, hkept⟩
      simp only [trimmed, hpieces, hdrop, if_neg hfirst]
      exact pieces_name (hslash first List.mem_cons_self)
  | cons x xs =>
    rw [hdrop] at hslash hkept
    refine ⟨first, rest, x :: xs, hpieces, ?_, by simp, hkept⟩
    simp only [trimmed, hpieces, hdrop]
    exact Text.splitText_intercalate (List.cons_ne_nil _ _) hslash

theorem text_trimmed_ne (p : Path) : p.trimmed.text ≠ "" := by
  obtain ⟨first, rest, kept, -, htrimmed, hkept, -⟩ := pieces_trimmed p
  intro hempty
  obtain ⟨rfl, rfl⟩ := List.cons.inj (htrimmed.symm.trans (pieces_of_empty hempty))
  exact hkept rfl rfl

/-- What leads nowhere at the end of a path is no component. -/
theorem components_trimmed (hp : p.text ≠ "") : p.trimmed.components = p.components := by
  obtain ⟨first, rest, kept, hpieces, htrimmed, -, hkept⟩ := pieces_trimmed p
  rw [components_of_pieces hp hpieces, components_of_pieces (text_trimmed_ne p) htrimmed, hkept]

end Trimmed

/-! ## Stem and extension -/

/-- A name is divided at its last dot, unless it starts with it. -/
theorem divide_eq_some {stem ext : String} (h : divide name = (stem, some ext)) :
    name = stem ++ "." ++ ext ∧ stem ≠ "" := by
  have hcut := List.takeWhile_append_dropWhile (p := (· ≠ '.')) (l := name.toList.reverse)
  have hhead := List.head?_dropWhile_not (· ≠ '.') name.toList.reverse
  simp only [divide] at h
  split at h
  · cases h
  · cases h
  · next c before hne hdrop =>
    obtain ⟨rfl, hext⟩ := Prod.mk.inj h
    obtain rfl := Option.some.inj hext
    rw [hdrop] at hcut hhead
    obtain rfl : c = '.' := by simpa using hhead
    refine ⟨?_, fun hempty => hne (by simpa using hempty)⟩
    have hname := congrArg (String.ofList ∘ List.reverse) hcut.symm
    simpa [← String.toList_inj] using hname

/-- A stem and an extension without a dot are what their name is divided into. -/
theorem divide_append {stem ext : String} (hstem : stem ≠ "") (hext : '.' ∉ ext.toList) :
    divide (stem ++ "." ++ ext) = (stem, some ext) := by
  have hbackwards : (stem ++ "." ++ ext).toList.reverse
      = ext.toList.reverse ++ '.' :: stem.toList.reverse := by simp
  have hpass : ∀ c ∈ ext.toList.reverse, decide (c ≠ '.') = true := by
    intro c hc
    simpa using fun e : c = '.' => hext (e ▸ List.mem_reverse.1 hc)
  have hne : stem.toList.reverse ≠ [] := by simpa using hstem
  obtain ⟨c, cs, hcs⟩ := List.exists_cons_of_ne_nil hne
  simp only [divide, hbackwards, List.dropWhile_append_of_pos hpass,
    List.takeWhile_append_of_pos hpass]
  have hreverse : (c :: cs).reverse = stem.toList := by rw [← hcs, List.reverse_reverse]
  simp [hcs, hreverse]

end Untangle.Path
