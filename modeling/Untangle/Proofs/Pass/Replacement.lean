import Untangle.Pass.Dictionary
import Untangle.Pass.StringTable
import Untangle.Proofs.Lists

/-!
# What stands in for an expression

Two passes replace expressions: one puts decoded strings in the place of
lookups, the other the entries of dictionaries. Here it is said once which
expressions they replace, by what, and what that does to their state.
-/
namespace Untangle

namespace Expression

theorem eq_of_identifier? {e : Expression} {name : String} (h : e.identifier? = some name) :
    e = .identifier name := by
  cases e <;> simp_all [identifier?]

theorem exists_of_number? {e : Expression} {x : Binary64} (h : e.number? = some x) :
    ∃ l, e = .literal l := by
  unfold number? at h
  split at h
  · exact ⟨_, rfl⟩
  · cases h

theorem exists_of_index? {e : Expression} {n : Nat} (h : e.index? = some n) :
    ∃ l, e = .literal l := by
  unfold index? at h
  split at h
  · exact ⟨_, rfl⟩
  · exact ⟨_, rfl⟩
  · cases h

theorem exists_of_string? {e : Expression} {s : String} (h : e.string? = some s) :
    ∃ l, e = .literal l := by
  unfold string? at h
  split at h
  · exact ⟨_, rfl⟩
  · cases h

end Expression

namespace StringDecoding

/-- A string of the table in the place of an access or of a call of the decoder, or an access by a
name in the place of one in brackets. -/
inductive Decodes (prologue : Prologue) (table : StringTable) (normalizing : Bool) :
    Expression → Expression → Prop
  | entry {property : Expression} {optional : Bool} {index : Nat} {value : String}
    (hindex : property.number?.bind Binary64.index? = some index)
    (hvalue : table.get? index = some value) :
    Decodes prologue table normalizing
      (.member (.identifier table.name) property true optional) (.ofString value)
  | call {argument : Expression} {optional : Bool} {index : Nat} {value : String}
    (hindex : argument.index? = some index) (hvalue : table.get? index = some value) :
    Decodes prologue table normalizing
      (.call (.identifier prologue.decoder) [argument] optional) (.ofString value)
  | name {object property : Expression} {optional : Bool} {name : String}
    (hnormalizing : normalizing = true) (hname : property.string? = some name) :
    Decodes prologue table normalizing
      (.member object property true optional) (.member object (.identifier name) false optional)

variable {prologue : Prologue} {table : StringTable} {normalizing : Bool}

/-- Nothing happens, or an expression is replaced, and the change is recorded and counted. -/
def Leaves (prologue : Prologue) (table : StringTable) (normalizing : Bool) (e : Expression)
    (s : Progress) (r : Expression × Progress) : Prop :=
  r = (e, s) ∨ Decodes prologue table normalizing e r.1 ∧ ∃ kind message,
    kind.isTransformation = true ∧ r.2 = (s.record passName kind none message).change

/-- A lookup leaves its expression as what comes behind it does, unless it finds a string. -/
theorem leaves_lookup {e : Expression} {site : String} {index : Option Nat} {s : Progress}
    {k : Option Expression → StateM Progress Expression}
    (hfound : ∀ i value, index = some i → table.get? i = some value →
      Decodes prologue table normalizing e (.ofString value))
    (hsome : ∀ e, k (some e) = pure e)
    (hnone : Leaves prologue table normalizing e s ((k none).run s)) :
    Leaves prologue table normalizing e s ((lookup table site index >>= k).run s) := by
  unfold lookup
  cases hi : index with
  | none => exact hnone
  | some i =>
    cases hv : table.get? i with
    | none =>
      simp only [hv]
      exact hnone
    | some value =>
      simp only [hv]
      have hrun : ∀ t : Progress, (k (some (.ofString value))).run t = (.ofString value, t) := by
        intro t
        rw [hsome]
        rfl
      refine .inr ⟨?_, .stringDecoded, _, rfl, congrArg Prod.snd (hrun _)⟩
      exact (congrArg Prod.fst (hrun _)).symm ▸ hfound i value hi hv

/-- An access in brackets by a name is written with a dot, or stays. -/
theorem leaves_normalize (object property : Expression) (optional : Bool) (s : Progress) :
    Leaves prologue table true (.member object property true optional) s
      ((normalize object property optional).run s) := by
  unfold normalize
  cases hp : property.string? with
  | none => exact .inl rfl
  | some name =>
    by_cases hname : Text.isIdentifierName name
    · simp only [hname, if_true]
      exact .inr ⟨.name rfl hp, .memberNormalized, _, rfl, rfl⟩
    · simp only [hname]
      exact .inl rfl

/-- What becomes of any expression when the walk leaves it. -/
theorem leaves (prologue : Prologue) (table : StringTable) (normalizing : Bool) (e : Expression)
    (s : Progress) :
    Leaves prologue table normalizing e s
      ((leaveExpression prologue table normalizing e).run s) := by
  unfold leaveExpression
  split
  · next object property optional =>
    have hrest : Leaves prologue table normalizing (.member object property true optional) s
        ((if normalizing then normalize object property optional
          else pure (.member object property true optional)).run s) := by
      cases normalizing with
      | false => exact .inl rfl
      | true => exact leaves_normalize object property optional s
    by_cases hname : object.identifier? = some table.name
    · obtain rfl := Expression.eq_of_identifier? hname
      simp only [hname, if_true]
      exact leaves_lookup (fun i value hi hv => .entry hi hv) (fun _ => rfl) hrest
    · simp only [hname]
      exact hrest
  · next name argument optional =>
    by_cases hname : name = prologue.decoder
    · subst hname
      simp only [if_true]
      exact leaves_lookup (fun i value hi hv => .call hi hv) (fun _ => rfl) (.inl rfl)
    · simp only [if_neg hname]
      exact .inl rfl
  · exact .inl rfl

end StringDecoding

namespace Dictionary

theorem mem_of_get? {d : Dictionary} {key : String} {entry : DictionaryEntry}
    (h : d.get? key = some entry) : ∃ k, (k, entry) ∈ d.entries := by
  unfold get? at h
  generalize d.entries = entries at h ⊢
  induction entries with
  | nil => cases h
  | cons first rest ih =>
    obtain ⟨k, e⟩ := first
    rw [List.lookup_cons] at h
    split at h
    · cases h
      exact ⟨k, List.mem_cons_self⟩
    · obtain ⟨k', hmem⟩ := ih h
      exact ⟨k', List.mem_cons_of_mem _ hmem⟩

theorem mem_of_mem_foldl_put {entries acc : List (String × DictionaryEntry)}
    {e : String × DictionaryEntry} (h : e ∈ entries.foldl put acc) : e ∈ entries ∨ e ∈ acc := by
  induction entries generalizing acc with
  | nil => exact .inr h
  | cons first rest ih =>
    rcases ih h with hrest | hput
    · exact .inl (List.mem_cons_of_mem _ hrest)
    · rcases List.mem_append.1 hput with hacc | hfirst
      · exact .inr (List.mem_filter.1 hacc).1
      · exact .inl (List.mem_singleton.1 hfirst ▸ List.mem_cons_self)

/-- A template is a function of one `return`. -/
theorem exists_of_member? {m : Member} {key : String} {t : Template}
    (h : member? m = some (key, .template t)) :
    ∃ k name params generator async computed shorthand,
      m = .property k (.function ⟨name, params, [.returns (some t.body)], generator, async⟩) .init
        computed false shorthand := by
  unfold member? at h
  split at h
  · next k value computed shorthand =>
    simp only [Option.bind_eq_bind, Option.bind_eq_some_iff, Option.pure_def, Option.some.injEq,
      Prod.mk.injEq] at h
    obtain ⟨entry, hentry, _, -, -, rfl⟩ := h
    unfold entry? at hentry
    split at hentry
    · split at hentry
      · cases hentry
      · cases hentry
    · next name params body generator async =>
      simp only [Option.bind_eq_bind, Option.bind_eq_some_iff, Option.pure_def,
        Option.some.injEq] at hentry
      obtain ⟨names, -, hentry⟩ := hentry
      cases hentry
      exact ⟨k, name, params, generator, async, computed, shorthand, rfl⟩
    · cases hentry
  · cases h

/-- A dictionary is the only variable of the first statement, and its entries are put together from
the members of the object that this starts with. -/
theorem entries_of_capture? {body : List Statement} {d : Dictionary} (h : capture? body = some d) :
    ∃ ms kind rest entries,
      body = .declaration ⟨[⟨.identifier d.name, some (.object ms)⟩], kind⟩ :: rest ∧
        ms.mapM member? = some entries ∧ d.entries = entries.foldl put [] := by
  unfold capture? at h
  split at h
  · next declaration second rest =>
    simp only [Option.bind_eq_bind, Option.bind_eq_some_iff] at h
    obtain ⟨⟨name, init⟩, hsingle, h⟩ := h
    split at h
    · next m ms hinit =>
      obtain rfl : init = some (.object (m :: ms)) := hinit
      simp only [Option.bind_eq_some_iff, Option.pure_def, Option.some.injEq] at h
      obtain ⟨entries, hentries, rfl⟩ := h
      obtain ⟨declarators, kind⟩ := declaration
      unfold Declaration.single? at hsingle
      split at hsingle
      · next heq =>
        cases hsingle
        cases heq
        exact ⟨m :: ms, kind, second :: rest, entries, rfl, hentries, rfl⟩
      · cases hsingle
    · cases h
  · cases h

/-- Each entry of a dictionary is a member of its object. -/
theorem exists_of_capture? {body : List Statement} {d : Dictionary} (h : capture? body = some d) :
    ∃ ms kind rest, body = .declaration ⟨[⟨.identifier d.name, some (.object ms)⟩], kind⟩ :: rest ∧
      ∀ e ∈ d.entries, ∃ m ∈ ms, member? m = some e := by
  obtain ⟨ms, kind, rest, entries, hbody, hentries, hput⟩ := entries_of_capture? h
  refine ⟨ms, kind, rest, hbody, fun e he => ?_⟩
  rw [hput] at he
  rcases mem_of_mem_foldl_put he with hmem | hmem
  · exact exists_of_mem_mapM hentries e hmem
  · cases hmem

end Dictionary

namespace DictionaryInlining

/-- The name of the dictionary was met once more. -/
def Tracked.met (t : Tracked) : Tracked := { t with references := t.references + 1 }

/-- One more lookup in the dictionary was replaced. -/
def Tracked.used (t : Tracked) : Tracked := { t with inlined := t.inlined + 1 }

/-- What a function binds, without what was counted. -/
structure Binder where
  dictionary : Option Dictionary
  params : List String

def Frame.binder (f : Frame) : Binder := ⟨f.dictionary.map (·.dictionary), f.params⟩

def binders (s : State) : List Binder := s.frames.map Frame.binder

namespace Binder

def ofFunction (params : List Expression) (body : Option (List Statement)) : Binder :=
  ⟨body.bind Dictionary.capture?, params.filterMap Expression.identifier?⟩

def declares (b : Binder) (name : String) : Bool :=
  match b.dictionary with
  | some d => d.name == name
  | none => false

/-- The dictionary that a name refers to. -/
def resolve? (name : String) : List Binder → Option Dictionary
  | [] => none
  | b :: rest =>
    if b.declares name then b.dictionary
    else if b.params.contains name then none
    else resolve? name rest

end Binder

theorem declares_binder (f : Frame) (name : String) : f.binder.declares name = f.declares name := by
  obtain ⟨dictionary, params⟩ := f
  cases dictionary <;> rfl

/-- A name refers to the same dictionary whether uses are counted or not. -/
theorem resolve?_binders (name : String) (s : State) :
    (resolve? name s.frames).map (·.dictionary) = Binder.resolve? name (binders s) := by
  obtain ⟨progress, frames⟩ := s
  show _ = Binder.resolve? name (frames.map Frame.binder)
  induction frames with
  | nil => rfl
  | cons f rest ih =>
    rw [List.map_cons, Binder.resolve?, resolve?, declares_binder]
    split
    · rfl
    · change _ = if f.params.contains name then none else _
      split
      · rfl
      · exact ih

theorem binders_updateResolved {s t : State} {name : String} {g : Tracked → Tracked}
    (ht : t.frames = updateResolved name g s.frames) (hg : ∀ x, (g x).dictionary = x.dictionary) :
    binders t = binders s := by
  rw [binders, binders, ht]
  generalize s.frames = frames
  induction frames with
  | nil => rfl
  | cons f rest ih =>
    rw [updateResolved]
    split
    · obtain ⟨dictionary, params⟩ := f
      cases dictionary with
      | none => rfl
      | some x =>
        simp only [List.map_cons, Frame.binder, Option.map_some, hg]
    · split
      · rfl
      · rw [List.map_cons, List.map_cons, ih]

def Frame.fresh (b : Binder) : Frame := ⟨b.dictionary.map fun d => ⟨d, 0, 0⟩, b.params⟩

theorem Frame.binder_fresh (b : Binder) : (Frame.fresh b).binder = b := by
  obtain ⟨_ | d, params⟩ := b <;> rfl

/-- A function is entered with a fresh frame, and loses its first statement if that is a dictionary.
-/
theorem run_enterFunction (params : List Expression) (body : Option (List Statement)) (s : State) :
    ∃ t, (enterFunction params body).run s =
        ((Binder.ofFunction params body).dictionary.isSome.toNat, t) ∧
      t.progress.scopes = s.progress.scopes.enter ∧ s.progress.events ⊆ t.progress.events ∧
      t.frames = Frame.fresh (.ofFunction params body) :: s.frames := by
  unfold enterFunction Binder.ofFunction
  cases body.bind Dictionary.capture? with
  | none => exact ⟨_, rfl, rfl, fun _ he => he, rfl⟩
  | some d =>
    refine ⟨_, rfl, rfl, ?_, rfl⟩
    exact fun _ he => List.mem_append_left _ (List.mem_append_left _ he)

theorem binders_enterFunction (params : List Expression) (body : Option (List Statement))
    (s : State) :
    binders ((enterFunction params body).run s).2 = .ofFunction params body :: binders s := by
  obtain ⟨t, ht, -, -, hframes⟩ := run_enterFunction params body s
  rw [ht, binders, hframes, List.map_cons, Frame.binder_fresh]
  rfl

/-- The warning that the dictionary of a function is still in use. -/
def stillReferenced (scope : String) (name : String) (times : Nat) : Event where
  kind := .warning
  scope := some scope
  message := name ++ " removed but still referenced " ++ toString times ++ " times"
  pass := some passName

/-- A function is left with a warning if its dictionary was met more often than it was replaced. -/
theorem run_leaveFunction_warns (s : State) :
    (leaveFunction.run s).2.progress.scopes = s.progress.scopes.leave ∧
      s.progress.events ⊆ (leaveFunction.run s).2.progress.events ∧
      (leaveFunction.run s).2.frames = s.frames.tail ∧
      ∀ d references inlined params frames,
        s.frames = ⟨some ⟨d, references, inlined⟩, params⟩ :: frames → inlined < references →
        stillReferenced s.progress.scopes.label d.name (references - inlined) ∈
          (leaveFunction.run s).2.progress.events := by
  simp only [leaveFunction, StateT.run_bind, StateT.run_get, pure_bind]
  split
  · next t params rest hframes =>
    simp only [warnIfReferenced]
    by_cases ht : t.inlined < t.references
    · simp only [if_pos ht]
      refine ⟨rfl, List.subset_append_left _ _, rfl, ?_⟩
      intro d references inlined params' frames heq _
      rw [hframes] at heq
      cases heq
      exact List.mem_append_right _ List.mem_cons_self
    · simp only [if_neg ht]
      refine ⟨rfl, fun _ he => he, rfl, ?_⟩
      intro d references inlined params' frames heq hlt
      rw [hframes] at heq
      cases heq
      exact absurd hlt ht
  · next hplain =>
    refine ⟨rfl, fun _ he => he, rfl, ?_⟩
    intro d references inlined params frames heq _
    exact absurd heq (hplain _ params frames)

theorem binders_leaveFunction (s : State) :
    binders (leaveFunction.run s).2 = (binders s).tail := by
  obtain ⟨-, -, hframes, -⟩ := run_leaveFunction_warns s
  rw [binders, hframes, List.map_tail]
  rfl

/-- The entry that an access refers to, with the name of its dictionary. -/
def lookup? (bs : List Binder) : Expression → Option (String × DictionaryEntry)
  | .member object property computed _ => do
    let name ← object.identifier?
    let key ← staticName? property computed
    let d ← Binder.resolve? name bs
    return (name, ← d.get? key)
  | _ => none

/-- An access finds in the frames what it refers to by the binders. -/
theorem entryAt?_frames (s : State) (object property : Expression) (computed optional : Bool) :
    (entryAt? s.frames object property computed).map (fun x => (x.1, x.2.2)) =
      lookup? (binders s) (.member object property computed optional) := by
  simp only [entryAt?, lookup?, ← resolve?_binders]
  cases object.identifier? with
  | none => rfl
  | some name =>
    cases staticName? property computed with
    | none => rfl
    | some key =>
      cases hd : resolve? name s.frames with
      | none => simp [hd]
      | some t =>
        cases hentry : t.dictionary.get? key with
        | none => simp [hd, hentry]
        | some entry => simp [hd, hentry]

/-- What an entry is for an access, with the name of its dictionary. -/
def accessed? : String × DictionaryEntry → Option (String × Expression)
  | (name, .literal l) => some (name, .literal l)
  | _ => none

/-- What an entry is for a call. -/
def called? (arguments : List Expression) : String × DictionaryEntry → Option (String × Expression)
  | (name, .template m) =>
    if arguments.any isSpread then none else (m.instantiate? arguments).map (name, ·)
  | _ => none

/-- What takes the place of an expression, with the name of the dictionary it comes from. -/
def replacement? (bs : List Binder) : Expression → Option (String × Expression)
  | .member object property computed optional =>
    (lookup? bs (.member object property computed optional)).bind accessed?
  | .call callee arguments _ => (lookup? bs callee).bind (called? arguments)
  | _ => none

inductive Replaces (bs : List Binder) : Expression → String → Expression → Prop
  | constant {property : Expression} {computed optional : Bool} {name key : String}
    {d : Dictionary} {l : Literal} (hkey : staticName? property computed = some key)
    (hd : Binder.resolve? name bs = some d) (hentry : d.get? key = some (.literal l)) :
    Replaces bs (.member (.identifier name) property computed optional) name (.literal l)
  | template {property e : Expression} {computed chained optional : Bool}
    {arguments : List Expression} {name key : String} {d : Dictionary} {m : Template}
    (hd : Binder.resolve? name bs = some d) (hentry : d.get? key = some (.template m))
    (hbound : m.instantiate? arguments = some e) :
    Replaces bs (.call (.member (.identifier name) property computed chained) arguments optional)
      name e

/-- An entry is found by the name of its dictionary and by its key. -/
theorem exists_of_lookup? {bs : List Binder} {e : Expression} {name : String}
    {entry : DictionaryEntry} (h : lookup? bs e = some (name, entry)) :
    ∃ property computed optional key d,
      e = .member (.identifier name) property computed optional ∧
        staticName? property computed = some key ∧ Binder.resolve? name bs = some d ∧
        d.get? key = some entry := by
  unfold lookup? at h
  split at h
  · next object property computed optional =>
    simp only [Option.bind_eq_bind, Option.bind_eq_some_iff, Option.pure_def, Option.some.injEq,
      Prod.mk.injEq] at h
    obtain ⟨name', hname, key, hkey, d, hd, entry', hentry, rfl, rfl⟩ := h
    obtain rfl := Expression.eq_of_identifier? hname
    exact ⟨property, computed, optional, key, d, rfl, hkey, hd, hentry⟩
  · cases h

/-- An expression is replaced for an access to a constant or for a call of a template. -/
theorem exists_of_replacement? {bs : List Binder} {e e' : Expression} {name : String}
    (h : replacement? bs e = some (name, e')) :
    ∃ property computed optional key d, staticName? property computed = some key ∧
      Binder.resolve? name bs = some d ∧
      ((∃ l, e = .member (.identifier name) property computed optional ∧ e' = .literal l ∧
          d.get? key = some (.literal l)) ∨
        ∃ arguments chained m,
          e = .call (.member (.identifier name) property computed optional) arguments chained ∧
            d.get? key = some (.template m) ∧ arguments.any isSpread = false ∧
            m.instantiate? arguments = some e') := by
  unfold replacement? at h
  split at h
  · obtain ⟨⟨name', entry⟩, hentry, haccessed⟩ := Option.bind_eq_some_iff.1 h
    obtain ⟨property, computed, optional, key, d, he, hkey, hd, hl⟩ := exists_of_lookup? hentry
    cases entry with
    | literal l =>
      cases haccessed
      exact ⟨property, computed, optional, key, d, hkey, hd, .inl ⟨l, he, rfl, hl⟩⟩
    | template m => cases haccessed
  · next callee arguments chained =>
    obtain ⟨⟨name', entry⟩, hentry, hcalled⟩ := Option.bind_eq_some_iff.1 h
    obtain ⟨property, computed, optional, key, d, rfl, hkey, hd, hm⟩ := exists_of_lookup? hentry
    cases entry with
    | literal l => cases hcalled
    | template m =>
      rw [called?] at hcalled
      split at hcalled
      · cases hcalled
      · next hspread =>
        obtain ⟨e'', hbound, heq⟩ := Option.map_eq_some_iff.1 hcalled
        cases heq
        exact ⟨property, computed, optional, key, d, hkey, hd, .inr ⟨arguments, chained, m, rfl, hm,
          Bool.eq_false_iff.2 hspread, hbound⟩⟩
  · cases h

theorem replaces_of_replacement? {bs : List Binder} {e e' : Expression} {name : String}
    (h : replacement? bs e = some (name, e')) : Replaces bs e name e' := by
  obtain ⟨property, computed, optional, key, d, hkey, hd, ⟨l, rfl, rfl, hl⟩ |
    ⟨arguments, chained, m, rfl, hm, -, hbound⟩⟩ := exists_of_replacement? h
  · exact .constant hkey hd hl
  · exact .template hd hm hbound

/-- A name is counted, an expression that something takes the place of is replaced and counted, and
all else stays as it is. -/
inductive Leaves (e : Expression) (s : State) : Expression → State → Prop
  | met {name : String} {t : State} (he : e = .identifier name)
    (hframes : t.frames = updateResolved name .met s.frames) : Leaves e s e t
  | kept {t : State} (he : e.identifier? = none) (hnone : replacement? (binders s) e = none)
    (hframes : t.frames = s.frames) : Leaves e s e t
  | replaced {name : String} {e' : Expression} {t : State}
    (he : replacement? (binders s) e = some (name, e'))
    (hframes : t.frames = updateResolved name .used s.frames) : Leaves e s e' t

/-- An access is replaced by a literal, or counted. -/
theorem leaves_inlineConstant (object property : Expression) (computed optional : Bool)
    (s : State) :
    Leaves (.member object property computed optional) s
      ((inlineConstant object property computed optional).run s).1
      ((inlineConstant object property computed optional).run s).2 := by
  have hentries := entryAt?_frames s object property computed optional
  simp only [inlineConstant, StateT.run_bind, StateT.run_get, pure_bind]
  split
  · next name key l hentry =>
    have hreplacement : replacement? (binders s) (.member object property computed optional) =
        some (name, .literal l) := by
      rw [replacement?, ← hentries, hentry]
      rfl
    exact .replaced hreplacement rfl
  · next hentry =>
    refine .kept rfl ?_ rfl
    rw [replacement?, ← hentries]
    rcases hfound : entryAt? s.frames object property computed with _ | ⟨name, key, l | m⟩
    · rfl
    · exact absurd hfound (hentry name key l)
    · rfl

/-- A call is replaced by the body of a template, or stays. -/
theorem leaves_inlineTemplate {object property : Expression} {computed chained optional : Bool}
    {arguments : List Expression} {name key : String} {m : Template} {s : State}
    (hentry : entryAt? s.frames object property computed = some (name, key, .template m)) :
    Leaves (.call (.member object property computed chained) arguments optional) s
      (((inlineTemplate name key m arguments).run s).1.getD
        (.call (.member object property computed chained) arguments optional))
      ((inlineTemplate name key m arguments).run s).2 := by
  have hreplacement : replacement? (binders s)
      (.call (.member object property computed chained) arguments optional) =
        called? arguments (name, .template m) := by
    rw [replacement?, ← entryAt?_frames, hentry]
    rfl
  rw [called?] at hreplacement
  unfold inlineTemplate
  split
  · next hspread =>
    rw [if_pos hspread] at hreplacement
    exact .kept rfl hreplacement rfl
  · next hspread =>
    rw [if_neg hspread] at hreplacement
    split
    · next e he =>
      rw [he] at hreplacement
      exact .replaced hreplacement rfl
    · next he =>
      rw [he] at hreplacement
      exact .kept rfl hreplacement rfl

/-- What becomes of any expression when the walk leaves it. -/
theorem leaves (e : Expression) (s : State) :
    Leaves e s ((leaveExpression e).run s).1 ((leaveExpression e).run s).2 := by
  unfold leaveExpression
  split
  · exact .met rfl rfl
  · next object property computed optional =>
    exact leaves_inlineConstant object property computed optional s
  · next object property computed chained arguments optional =>
    simp only [StateT.run_bind, StateT.run_get, pure_bind]
    split
    · next name key m hentry => exact leaves_inlineTemplate hentry
    · next hentry =>
      refine .kept rfl ?_ rfl
      rw [replacement?, ← entryAt?_frames]
      rcases hfound : entryAt? s.frames object property computed with _ | ⟨name, key, l | m⟩
      · rfl
      · rfl
      · exact absurd hfound (hentry name key m)
  · next hname hmember hcall =>
    cases e with
    | identifier name => exact absurd rfl (hname name)
    | member object property computed optional =>
      exact absurd rfl (hmember object property computed optional)
    | call callee arguments optional =>
      cases callee with
      | member object property computed chained =>
        exact absurd rfl (hcall object property computed chained arguments optional)
      | _ => exact .kept rfl rfl rfl
    | _ => exact .kept rfl rfl rfl

/-- Leaving an expression changes nothing that is bound. -/
theorem Leaves.binders_eq {e e' : Expression} {s t : State} (h : Leaves e s e' t) :
    binders t = binders s := by
  cases h with
  | met _ hframes => exact binders_updateResolved hframes fun _ => rfl
  | kept _ _ hframes => exact congrArg (List.map Frame.binder) hframes
  | replaced _ hframes => exact binders_updateResolved hframes fun _ => rfl

end DictionaryInlining

end Untangle
