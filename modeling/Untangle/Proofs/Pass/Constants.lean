import Untangle.Proofs.Pass.Shadowing

/-!
# Dictionaries of constants

Where all entries of all dictionaries are literals, only accesses are replaced. To
say by what they are replaced it is enough to look at the functions around: the
last property with the key counts, in the object that the innermost function
starts with which has the name at all.
-/
namespace Untangle

namespace Member

/-- The key, if it is known without evaluation. -/
def key? : Member → Option String
  | .property key _ _ computed _ _ => Dictionary.key? key computed
  | _ => none

def literal? : Member → Option Literal
  | .property _ (.literal l) _ _ _ _ => some l
  | _ => none

end Member

def DictionaryEntry.literal? : DictionaryEntry → Option Literal
  | .literal l => some l
  | .template _ => none

namespace Dictionary

def isConstant (d : Dictionary) : Bool := d.entries.all fun entry => entry.2.literal?.isSome

theorem get?_ne_template {d : Dictionary} (h : d.isConstant = true) (key : String) (t : Template) :
    d.get? key ≠ some (.template t) := by
  intro hget
  obtain ⟨k, hmem⟩ := mem_of_get? hget
  cases List.all_eq_true.1 h _ hmem

theorem lookup_singleton (k key : String) (entry : DictionaryEntry) :
    [(k, entry)].lookup key = if key = k then some entry else none := by
  rw [List.lookup_cons]
  by_cases hkey : key = k
  · rw [if_pos hkey, beq_iff_eq.2 hkey]
  · rw [if_neg hkey, beq_eq_false_iff_ne.2 hkey]
    rfl

/-- A later entry takes the place of an earlier one with its key. -/
theorem lookup_put (entries : List (String × DictionaryEntry)) (entry : String × DictionaryEntry)
    (key : String) :
    (put entries entry).lookup key = ([entry].lookup key).or (entries.lookup key) := by
  obtain ⟨k, e⟩ := entry
  rw [put, List.lookup_append, lookup_singleton]
  by_cases hkey : key = k
  · have hnone : (entries.filter fun x => x.1 != k).lookup key = none := by
      rw [List.lookup_eq_none_iff]
      intro x hx
      rw [hkey, bne_iff_ne]
      exact Ne.symm (bne_iff_ne.1 (List.mem_filter.1 hx).2)
    rw [hnone, if_pos hkey]
    rfl
  · rw [if_neg hkey, Option.or_none, Option.none_or]
    induction entries with
    | nil => rfl
    | cons x rest ih =>
      obtain ⟨k', e'⟩ := x
      by_cases hk : k' = k
      · have hkey' : (key == k') = false := by simpa [hk] using hkey
        rw [List.filter_cons_of_neg (by simp [hk]), ih, List.lookup_cons, hkey']
      · rw [List.filter_cons_of_pos (by simpa using hk), List.lookup_cons, List.lookup_cons, ih]

/-- The last entry for a key counts. -/
theorem lookup_foldl_put (entries acc : List (String × DictionaryEntry)) (key : String) :
    (entries.foldl put acc).lookup key = (entries.reverse.lookup key).or (acc.lookup key) := by
  induction entries generalizing acc with
  | nil => rfl
  | cons entry rest ih =>
    rw [List.foldl_cons, ih, lookup_put, List.reverse_cons, List.lookup_append, Option.or_assoc]

/-- The entry of a property has its key, and its literal if it has one. -/
theorem of_member? {m : Member} {key : String} {entry : DictionaryEntry}
    (h : member? m = some (key, entry)) :
    m.key? = some key ∧ m.literal? = entry.literal? := by
  unfold member? at h
  split at h
  · next k value computed shorthand =>
    simp only [Option.bind_eq_bind, Option.bind_eq_some_iff, Option.pure_def, Option.some.injEq,
      Prod.mk.injEq] at h
    obtain ⟨entry', hentry, key', hkey, rfl, rfl⟩ := h
    refine ⟨hkey, ?_⟩
    unfold entry? at hentry
    split at hentry
    · split at hentry
      · cases hentry
        rfl
      · cases hentry
    · simp only [Option.bind_eq_bind, Option.bind_eq_some_iff, Option.pure_def,
        Option.some.injEq] at hentry
      obtain ⟨names, -, rfl⟩ := hentry
      rfl
    · cases hentry
  · cases h

/-- The last member with a key gives the last entry for it. -/
theorem lookup_of_mapM {ms : List Member} {entries : List (String × DictionaryEntry)}
    (h : ms.mapM member? = some entries) (key : String) :
    (ms.reverse.find? fun m => m.key? == some key).map Member.literal? =
      (entries.reverse.lookup key).map DictionaryEntry.literal? := by
  induction ms generalizing entries with
  | nil =>
    obtain rfl : entries = [] := by simpa using h.symm
    rfl
  | cons m rest ih =>
    simp only [List.mapM_cons, Option.bind_eq_bind, Option.bind_eq_some_iff, Option.pure_def,
      Option.some.injEq] at h
    obtain ⟨⟨k, entry⟩, hm, entries', hrest, rfl⟩ := h
    obtain ⟨hkey, hliteral⟩ := of_member? hm
    have hfirst : ([m].find? fun m => m.key? == some key).map Member.literal? =
        ([(k, entry)].lookup key).map DictionaryEntry.literal? := by
      rw [lookup_singleton]
      by_cases hk : key = k
      · simp [hkey, hliteral, hk]
      · simp [hkey, hk, Ne.symm hk]
    rw [List.reverse_cons, List.reverse_cons, List.find?_append, List.lookup_append, Option.map_or,
      Option.map_or, ih hrest, hfirst]

end Dictionary

namespace Entered

def members (f : Entered) : List Member :=
  match f.body with
  | some (.declaration ⟨[⟨_, some (.object ms)⟩], _⟩ :: _) => ms
  | _ => []

/-- The literal of the last property with this key. -/
def constant? (f : Entered) (key : String) : Option Literal :=
  (f.members.reverse.find? fun m => m.key? == some key).bind Member.literal?

/-- The constant of a key in a captured dictionary is the literal of its entry. -/
theorem constant?_eq {f : Entered} {d : Dictionary} (h : f.captured? = some d) (key : String) :
    f.constant? key = (d.get? key).bind DictionaryEntry.literal? := by
  obtain ⟨body, hbody, hd⟩ := Option.bind_eq_some_iff.1 h
  obtain ⟨ms, kind, rest, entries, rfl, hentries, hput⟩ := Dictionary.entries_of_capture? hd
  have hmembers : f.members = ms := by
    unfold members
    rw [hbody]
  have hget : d.get? key = entries.reverse.lookup key := by
    rw [Dictionary.get?, hput, Dictionary.lookup_foldl_put]
    exact Option.or_none
  have hlast := congrArg (Option.bind · id) (Dictionary.lookup_of_mapM hentries key)
  rw [Option.bind_map, Option.bind_map, ← hget, ← hmembers] at hlast
  exact hlast

end Entered

namespace DictionaryInlining

/-- The constant that an access by a name and a key refers to. The innermost function decides that
starts with a dictionary of this name or has it as a parameter. -/
def constantAt? (name key : String) : List Entered → Option Literal
  | [] => none
  | f :: rest =>
    if f.captured?.map (·.name) = some name then f.constant? key
    else if name ∈ f.plain then none
    else constantAt? name key rest

/-- The functions around decide about a constant as the frames do. -/
theorem constantAt?_eq (name key : String) (fs : List Entered) :
    constantAt? name key fs = (Binder.resolve? name (around fs)).bind fun d =>
      (d.get? key).bind DictionaryEntry.literal? := by
  induction fs with
  | nil => rfl
  | cons f rest ih =>
    have hdeclares : (Binder.ofFunction f.params f.body).declares name = true ↔
        f.captured?.map (·.name) = some name :=
      Binder.declares_iff.trans Option.map_eq_some_iff.symm
    show _ = (if (Binder.ofFunction f.params f.body).declares name then f.captured?
      else if f.plain.contains name then none else Binder.resolve? name (around rest)).bind _
    rw [constantAt?, ih]
    by_cases hname : f.captured?.map (·.name) = some name
    · rw [if_pos hname, if_pos (hdeclares.2 hname)]
      obtain ⟨d, hd, -⟩ := Option.map_eq_some_iff.1 hname
      rw [hd]
      exact Entered.constant?_eq hd key
    · rw [if_neg hname, if_neg fun h => hname (hdeclares.1 h)]
      by_cases hplain : name ∈ f.plain
      · rw [if_pos hplain, if_pos (List.contains_iff_mem.2 hplain)]
        rfl
      · rw [if_neg hplain, if_neg fun h => hplain (List.contains_iff_mem.1 h)]

namespace Residue

def ofLiteral (l : Literal) : Residue := .expression true (.literal l) .nothing

/-- The constant that takes the place of an expression: of an access by a static name. -/
def constant? (fs : List Entered) : ExpressionRoot → Residue → Option Literal
  | .member _ _, .pair object (.pair property _) => do
    let name ← object.identifier?
    let key ← property.key?
    constantAt? name key fs
  | _, _ => none

end Residue

/-- What is left of a tree inside of some functions, when before it some functions were entered: the
dictionaries that functions start with are cut off, and constants take the place of accesses, from
the inside out. -/
def inlined (fs : List Entered) (entered : Nat) (cut : Bool) : Diagram → Residue
  | .nothing => .nothing
  | .pair first rest =>
    if cut then inlined fs entered false rest
    else .pair (inlined fs entered false first)
      (inlined fs (entered + functions false first) false rest)
  | .passed name => .passed name
  | .expression root parts =>
    let inside := inlined fs entered false parts
    ((Residue.constant? fs root inside).map .ofLiteral).getD (.expression true root inside)
  | .statement root parts => .statement root (inlined fs entered false parts)
  | .clause root parts => .clause root (inlined fs entered false parts)
  | .block _ parts => .block (inlined fs entered cut parts)
  | .function params parts body =>
    let f : Entered := ⟨params, body.statements?⟩
    .function (entered + 1) ⟨f.captured?, f.plain⟩ (inlined (f :: fs) (entered + 1) false parts)
      (inlined (f :: fs) (entered + 1 + functions false parts) f.captured?.isSome body)

/-- The dictionaries that the walk removes. The first part of a list may be cut off. -/
def captures (cut : Bool) : Diagram → List Dictionary
  | .nothing | .passed _ => []
  | .pair first rest =>
    if cut then captures false rest else captures false first ++ captures false rest
  | .expression _ parts | .statement _ parts | .clause _ parts => captures false parts
  | .block _ parts => captures cut parts
  | .function params parts body =>
    let d := (Entered.mk params body.statements?).captured?
    d.toList ++ captures false parts ++ captures d.isSome body

theorem captures_block (cut : Bool) (body : List Statement) :
    captures cut (blockDiagram body) = captures false (blockDiagram (body.drop cut.toNat)) :=
  cut_block (g := id) (fun _ _ => rfl) rfl (fun _ _ => rfl) cut body

def Constant (bs : List Binder) : Prop :=
  ∀ b ∈ bs, ∀ d, b.dictionary = some d → d.isConstant = true

namespace Constant

variable {bs : List Binder}

theorem nil : Constant (around []) := by
  refine List.forall_mem_singleton.2 fun d hd => ?_
  cases hd

theorem cons {b : Binder} (hbs : Constant bs)
    (hb : ∀ d, b.dictionary = some d → d.isConstant = true) : Constant (b :: bs) :=
  List.forall_mem_cons.2 ⟨hb, hbs⟩

theorem resolve? (hbs : Constant bs) {name : String} {d : Dictionary}
    (h : Binder.resolve? name bs = some d) : d.isConstant = true := by
  rw [Binder.resolve?_eq_site?] at h
  obtain ⟨i, -, h⟩ := Option.bind_eq_some_iff.1 h
  obtain ⟨b, hb, hd⟩ := Option.bind_eq_some_iff.1 h
  exact hbs b (List.mem_of_getElem? hb) d hd

/-- No template is found. -/
theorem exists_literal (hbs : Constant bs) {r : Residue} {name : String} {entry : DictionaryEntry}
    (h : r.lookup? bs = some (name, entry)) : ∃ l, entry = .literal l := by
  unfold Residue.lookup? at h
  split at h
  · simp only [Option.bind_eq_bind, Option.bind_eq_some_iff, Option.pure_def, Option.some.injEq,
      Prod.mk.injEq] at h
    obtain ⟨_, _, key, _, d, hd, entry, hentry, -, rfl⟩ := h
    cases entry with
    | literal l => exact ⟨l, rfl⟩
    | template t => exact absurd hentry (Dictionary.get?_ne_template (hbs.resolve? hd) key t)
  · cases h

end Constant

namespace Residue

variable {fs : List Entered}

/-- An access takes an entry exactly where it refers to a constant. -/
theorem accessed?_eq (fs : List Entered) (computed optional : Bool) (parts : Residue) :
    ((lookup? (around fs) (.expression true (.member computed optional) parts)).bind
        accessed?).map Prod.snd =
      (constant? fs (.member computed optional) parts).map ofLiteral := by
  unfold lookup? constant?
  split
  · next object property rest heq =>
    cases heq
    simp only [Option.bind_eq_bind, constantAt?_eq]
    cases object.identifier? with
    | none => rfl
    | some name =>
      cases property.key? with
      | none => rfl
      | some key =>
        simp only [Option.bind_some]
        cases Binder.resolve? name (around fs) with
        | none => rfl
        | some d =>
          simp only [Option.bind_some]
          rcases d.get? key with _ | l | t <;> rfl
  · next hparts =>
    split
    · exact absurd rfl (hparts true computed optional _ _ _)
    · rfl

/-- Where all is constant, nothing but an access is replaced. -/
theorem settle_eq_constant (hfs : Constant (around fs)) (root : ExpressionRoot) (parts : Residue) :
    (Residue.expression true root parts).settle (around fs) =
      ((constant? fs root parts).map ofLiteral).getD (.expression true root parts) := by
  rw [settle]
  unfold replacement?
  split
  · next computed optional _ heq =>
    cases heq
    rw [accessed?_eq]
  · next optional callee args heq =>
    cases heq
    have hnone : (lookup? (around fs) callee).bind (called? args) = none := by
      rw [Option.bind_eq_none_iff]
      rintro ⟨name, entry⟩ hentry
      obtain ⟨l, rfl⟩ := hfs.exists_literal hentry
      rfl
    rw [hnone]
    rfl
  · next hmember _ =>
    cases root with
    | member computed optional => exact absurd rfl (hmember true computed optional parts)
    | _ => rfl

end Residue

/-- Where all is constant, what the pass leaves is what it should. -/
theorem residue_eq_inlined {fs : List Entered} {cut : Bool} {d : Diagram}
    (hfs : Constant (around fs)) (hd : ∀ c ∈ captures cut d, c.isConstant = true)
    (entered : Nat) : residue (around fs) entered cut d = inlined fs entered cut d := by
  induction d generalizing fs cut entered with
  | nothing | passed => rfl
  | pair first rest ihfirst ihrest =>
    cases cut with
    | true => exact ihrest hfs hd entered
    | false =>
      obtain ⟨hfirst, hrest⟩ := List.forall_mem_append.1 hd
      show Residue.pair _ _ = Residue.pair _ _
      rw [ihfirst hfs hfirst, ihrest hfs hrest]
  | expression root parts ih =>
    rw [residue, inlined, ih hfs hd, Residue.settle_eq_constant hfs]
  | statement root parts ih => exact congrArg (Residue.statement root) (ih hfs hd entered)
  | clause root parts ih => exact congrArg (Residue.clause root) (ih hfs hd entered)
  | block body parts ih => exact congrArg Residue.block (ih hfs hd entered)
  | function params parts body ihparts ihbody =>
    obtain ⟨hfront, hbody⟩ := List.forall_mem_append.1 hd
    obtain ⟨hown, hparts⟩ := List.forall_mem_append.1 hfront
    have hinside : Constant (around (⟨params, body.statements?⟩ :: fs)) :=
      hfs.cons fun c hc => hown c (Option.mem_toList.2 hc)
    rw [inlined, ← ihparts hinside hparts, ← ihbody hinside hbody]
    rfl

end DictionaryInlining
end Untangle
