import Untangle.Proofs.Pass.Scopes
import Untangle.Proofs.Syntax.Binding
import Untangle.Proofs.Walk.Slots

/-!
# What hides a dictionary

A lookup is replaced by an entry of the dictionary of a function around it, if no
function further inside hides this dictionary. A function hides it by a
dictionary of the same name, or by a parameter that is just this name. It does
not hide it by a parameter that binds the name in a pattern.
-/
namespace Untangle

namespace Entered

/-- The dictionary that the function starts with. -/
def captured? (f : Entered) : Option Dictionary := f.body.bind Dictionary.capture?

def plain (f : Entered) : List String := f.params.filterMap Expression.identifier?

def bound (f : Entered) : List String := (expressionsDiagram f.params).bound

/-- The function hides dictionaries with this name of the functions around it. -/
def Hides (f : Entered) (name : String) : Prop :=
  (∃ d, f.captured? = some d ∧ d.name = name) ∨ name ∈ f.plain

end Entered

namespace DictionaryInlining

/-- A lookup in the dictionary, and what it finds. -/
inductive Finds (d : Dictionary) : Expression → Expression → Prop
  | constant {property : Expression} {computed optional : Bool} {key : String} {l : Literal}
    (hkey : staticName? property computed = some key) (hentry : d.get? key = some (.literal l)) :
    Finds d (.member (.identifier d.name) property computed optional) (.literal l)
  | template {property e : Expression} {computed chained optional : Bool} {key : String}
    {arguments : List Expression} {m : Template} (hkey : staticName? property computed = some key)
    (hentry : d.get? key = some (.template m)) (hspread : arguments.any isSpread = false)
    (hbound : m.instantiate? arguments = some e) :
    Finds d (.call (.member (.identifier d.name) property computed chained) arguments optional) e

/-- A lookup in the dictionary of the function at a place among those around, which none further
inside hides. -/
def FindsAt (fs : List Entered) (i : Nat) (e e' : Expression) : Prop :=
  ∃ f d, fs[i]? = some f ∧ f.captured? = some d ∧ Finds d e e' ∧
    ∀ g ∈ fs.take i, ¬ g.Hides d.name

namespace Binder

/-- The place of the function whose dictionary a name refers to. -/
def site? (name : String) : List Binder → Option Nat
  | [] => none
  | b :: rest =>
    if b.declares name then some 0
    else if b.params.contains name then none
    else (site? name rest).map (· + 1)

/-- A name refers to the dictionary at its site. -/
theorem resolve?_eq_site? (name : String) (bs : List Binder) :
    resolve? name bs = (site? name bs).bind fun i => bs[i]?.bind (·.dictionary) := by
  induction bs with
  | nil => rfl
  | cons b rest ih =>
    rw [resolve?, site?]
    split
    · rfl
    · split
      · rfl
      · rw [ih]
        cases site? name rest <;> rfl

/-- The innermost function decides if it has a dictionary of the name. -/
theorem site?_eq_zero_iff {name : String} {b : Binder} {rest : List Binder} :
    site? name (b :: rest) = some 0 ↔ b.declares name = true := by
  rw [site?]
  split
  · next h => simp [h]
  · next h =>
    split
    · simp [h]
    · cases site? name rest <;> simp [h]

/-- Else it decides by its parameters, and passes on what it does not bind. -/
theorem site?_eq_succ_iff {name : String} {b : Binder} {rest : List Binder} {i : Nat} :
    site? name (b :: rest) = some (i + 1) ↔
      ¬ (b.declares name = true ∨ name ∈ b.params) ∧ site? name rest = some i := by
  rw [site?]
  split
  · next h => simp [h]
  · next h =>
    split
    · next hparam => simp [List.contains_iff_mem.1 hparam]
    · next hparam =>
      have hmem : name ∉ b.params := fun hmem => hparam (List.contains_iff_mem.2 hmem)
      cases site? name rest <;> simp [h, hmem]

theorem declares_iff {b : Binder} {name : String} :
    b.declares name = true ↔ ∃ d, b.dictionary = some d ∧ d.name = name := by
  unfold declares
  cases b.dictionary <;> simp

/-- The name refers to the dictionary of the first function that hides the dictionaries of this name
around it, if it hides them by a dictionary. -/
theorem site?_eq_some_iff {name : String} {fs : List Entered} {i : Nat} :
    site? name (around fs) = some i ↔
      ∃ f d, fs[i]? = some f ∧ f.captured? = some d ∧ d.name = name ∧
        ∀ g ∈ fs.take i, ¬ g.Hides name := by
  induction fs generalizing i with
  | nil => simp [around, site?, declares]
  | cons f rest ih =>
    have hhides : (ofFunction f.params f.body).declares name = true ∨
        name ∈ (ofFunction f.params f.body).params ↔ f.Hides name := or_congr declares_iff Iff.rfl
    cases i with
    | zero =>
      refine site?_eq_zero_iff.trans (declares_iff.trans ?_)
      constructor
      · rintro ⟨d, hd, hname⟩
        exact ⟨f, d, rfl, hd, hname, fun g hg => absurd hg List.not_mem_nil⟩
      · rintro ⟨_, d, hf, hd, hname, -⟩
        cases hf
        exact ⟨d, hd, hname⟩
    | succ i =>
      refine site?_eq_succ_iff.trans ((and_congr (not_congr hhides) ih).trans ?_)
      constructor
      · rintro ⟨hf, f', d, hi, hd, hname, hrest⟩
        exact ⟨f', d, hi, hd, hname, List.forall_mem_cons.2 ⟨hf, hrest⟩⟩
      · rintro ⟨f', d, hi, hd, hname, hall⟩
        obtain ⟨hf, hrest⟩ := List.forall_mem_cons.1 hall
        exact ⟨hf, f', d, hi, hd, hname, hrest⟩

end Binder

/-- How many lookups were replaced by entries of the dictionary at a place. -/
def inlinedAt (frames : List Frame) (i : Nat) : Nat :=
  ((frames[i]?.bind (·.dictionary)).map (·.inlined)).getD 0

/-- Only the count of the dictionary that the name refers to can change. -/
theorem inlinedAt_updateResolved {g : Tracked → Tracked} {k : Nat}
    (hg : ∀ x, (g x).inlined = x.inlined + k) (name : String) (frames : List Frame) (i : Nat) :
    inlinedAt (updateResolved name g frames) i = inlinedAt frames i +
      if Binder.site? name (frames.map Frame.binder) = some i then k else 0 := by
  induction frames generalizing i with
  | nil => simp [updateResolved, Binder.site?]
  | cons f rest ih =>
    rw [updateResolved, List.map_cons, Binder.site?, declares_binder]
    by_cases hdeclares : f.declares name
    · simp only [hdeclares, if_true]
      cases i with
      | zero =>
        unfold Frame.declares at hdeclares
        cases hx : f.dictionary with
        | none => simp [hx] at hdeclares
        | some x => simp [inlinedAt, hx, hg]
      | succ i => simp [inlinedAt]
    · rw [if_neg hdeclares, if_neg hdeclares]
      change inlinedAt (if f.params.contains name then _ else _) i = inlinedAt (f :: rest) i +
        if (if f.params.contains name then _ else _) = some i then k else 0
      split
      · simp
      · cases i with
        | zero => cases Binder.site? name (rest.map Frame.binder) <;> simp [inlinedAt]
        | succ i =>
          have hrest := ih i
          cases hsite : Binder.site? name (rest.map Frame.binder) with
          | none => simpa [inlinedAt, hsite] using hrest
          | some j => simpa [inlinedAt, hsite] using hrest

/-- At its site the name of a dictionary refers to it. -/
theorem resolve?_of_site? {fs : List Entered} {f : Entered} {d : Dictionary} {i : Nat}
    (hsite : Binder.site? d.name (around fs) = some i) (hf : fs[i]? = some f)
    (hd : f.captured? = some d) : Binder.resolve? d.name (around fs) = some d := by
  have hbinder : (around fs)[i]? = some (Binder.ofFunction f.params f.body) := by
    have hlt : i < (fs.map fun f => Binder.ofFunction f.params f.body).length := by
      rw [List.length_map]
      exact (List.getElem?_eq_some_iff.1 hf).1
    rw [around, List.getElem?_append_left hlt, List.getElem?_map, hf, Option.map_some]
  rw [Binder.resolve?_eq_site?, hsite, Option.bind_some, hbinder]
  exact hd

/-- A lookup in the dictionary that a name refers to is replaced by what it finds. -/
theorem replacement?_of_finds {bs : List Binder} {d : Dictionary} {e e' : Expression}
    (hd : Binder.resolve? d.name bs = some d) (h : Finds d e e') :
    replacement? bs e = some (d.name, e') := by
  cases h with
  | constant hkey hentry =>
    simp [replacement?, lookup?, Expression.identifier?, hkey, hd, hentry, accessed?]
  | template hkey hentry hspread hbound =>
    simp [replacement?, lookup?, Expression.identifier?, hkey, hd, hentry, called?, hspread, hbound]

/-- What takes the place of a lookup is found in the dictionary that its name refers to. -/
theorem finds_of_replacement? {bs : List Binder} {d : Dictionary} {e e' : Expression}
    (hd : Binder.resolve? d.name bs = some d) (h : replacement? bs e = some (d.name, e')) :
    Finds d e e' := by
  obtain ⟨property, computed, optional, key, d', hkey, hd', hfound⟩ := exists_of_replacement? h
  cases hd.symm.trans hd'
  obtain ⟨l, rfl, rfl, hl⟩ | ⟨arguments, chained, m, rfl, hm, hspread, hbound⟩ := hfound
  · exact .constant hkey hl
  · exact .template hkey hm hspread hbound

/-- An expression is replaced by what is found in the dictionary that its name refers to. -/
theorem findsAt_iff {fs : List Entered} {i : Nat} {e e' : Expression} :
    FindsAt fs i e e' ↔ ∃ name, Binder.site? name (around fs) = some i ∧
      replacement? (around fs) e = some (name, e') := by
  constructor
  · rintro ⟨f, d, hf, hd, hfinds, hhides⟩
    have hsite := Binder.site?_eq_some_iff.2 ⟨f, d, hf, hd, rfl, hhides⟩
    exact ⟨d.name, hsite, replacement?_of_finds (resolve?_of_site? hsite hf hd) hfinds⟩
  · rintro ⟨name, hsite, hreplacement⟩
    obtain ⟨f, d, hf, hd, rfl, hhides⟩ := Binder.site?_eq_some_iff.1 hsite
    have hfinds := finds_of_replacement? (resolve?_of_site? hsite hf hd) hreplacement
    exact ⟨f, d, hf, hd, hfinds, hhides⟩

/-- What is replaced is found somewhere. -/
theorem exists_findsAt {fs : List Entered} {e e' : Expression} {name : String}
    (h : replacement? (around fs) e = some (name, e')) :
    ∃ i, Binder.site? name (around fs) = some i ∧ FindsAt fs i e e' := by
  have hresolved : ∃ d, Binder.resolve? name (around fs) = some d := by
    cases replaces_of_replacement? h with
    | constant _ hd _ => exact ⟨_, hd⟩
    | template hd _ _ => exact ⟨_, hd⟩
  obtain ⟨d, hd⟩ := hresolved
  rw [Binder.resolve?_eq_site?] at hd
  obtain ⟨i, hsite, -⟩ := Option.bind_eq_some_iff.1 hd
  exact ⟨i, hsite, findsAt_iff.2 ⟨name, hsite, h⟩⟩

/-- An expression that is left is replaced and counted where something is found for it, and else it
stays and nothing is counted. -/
structure Inlines (fs : List Entered) (e e' : Expression) (s t : State) : Prop where
  found : ∀ i r, FindsAt fs i e r → e' = r ∧ inlinedAt t.frames i = inlinedAt s.frames i + 1
  quiet : ∀ i, (∀ r, ¬ FindsAt fs i e r) → inlinedAt t.frames i = inlinedAt s.frames i
  kept : (∀ i r, ¬ FindsAt fs i e r) → e' = e

theorem inlines_of_not_findsAt {fs : List Entered} {e : Expression} {s t : State}
    (hnone : ∀ i r, ¬ FindsAt fs i e r)
    (hsame : ∀ i, inlinedAt t.frames i = inlinedAt s.frames i) : Inlines fs e e s t where
  found i r h := absurd h (hnone i r)
  quiet i _ := hsame i
  kept _ := rfl

/-- Leaving an expression inlines what is found for it. -/
theorem Leaves.inlines {fs : List Entered} {e e' : Expression} {s t : State}
    (h : Leaves e s e' t) (hs : binders s = around fs) : Inlines fs e e' s t := by
  cases h with
  | @met name _ he hframes =>
    refine inlines_of_not_findsAt ?_ fun i => ?_
    · rintro i r ⟨f, d, -, -, hfinds, -⟩
      subst he
      cases hfinds
    · have hmet : ∀ x, (Tracked.met x).inlined = x.inlined + 0 := fun _ => rfl
      rw [hframes, inlinedAt_updateResolved hmet, ite_self, Nat.add_zero]
  | kept _ hnone hframes =>
    refine inlines_of_not_findsAt ?_ fun i => by rw [hframes]
    intro i r hfinds
    obtain ⟨name, -, hreplacement⟩ := findsAt_iff.1 hfinds
    rw [hs, hreplacement] at hnone
    cases hnone
  | @replaced name _ _ he hframes =>
    rw [hs] at he
    have hcount : ∀ i, inlinedAt t.frames i =
        inlinedAt s.frames i + if Binder.site? name (around fs) = some i then 1 else 0 := by
      intro i
      have hused : ∀ x, (Tracked.used x).inlined = x.inlined + 1 := fun _ => rfl
      rw [hframes, inlinedAt_updateResolved hused, ← hs]
      rfl
    obtain ⟨j, hsite, hfound⟩ := exists_findsAt he
    refine ⟨fun i r hfinds => ?_, fun i hnone => ?_, fun hnone => absurd hfound (hnone j _)⟩
    · obtain ⟨name', hsite', hreplacement⟩ := findsAt_iff.1 hfinds
      rw [he] at hreplacement
      cases hreplacement
      exact ⟨rfl, by rw [hcount, if_pos hsite']⟩
    · have hne : ¬ Binder.site? name (around fs) = some i := by
        intro hsite'
        exact hnone _ (findsAt_iff.2 ⟨name, hsite', he⟩)
      rw [hcount, if_neg hne, Nat.add_zero]

end DictionaryInlining

open DictionaryInlining in
/-- A lookup is replaced by an entry of the dictionary of a function around it just when no function
further inside hides this dictionary, by one of the same name or by a parameter that is just this
name; in particular, inside of a function with such a parameter nothing is taken from a dictionary
of this name around it. -/
theorem plain_parameters_shadow (p : Program) (c : Placed State) (hc : c ∈ visitor.placed p {})
    (e e' : Expression) (hcall : c.call = .leaveExpression e e') :
    (∀ (j i : Nat) (g f : Entered) (d : Dictionary), j < i → c.around[j]? = some g →
      c.around[i]? = some f → f.captured? = some d → d.name ∈ g.plain →
        inlinedAt c.after.frames i = inlinedAt c.before.frames i) ∧
    Inlines c.around e e' c.before c.after := by
  have hwalks := visitor.walks_placed p {}
  have hbinders := ((maintains_binders.walks hwalks rfl).2 c hc).1
  have hrun := hwalks.run_leaveExpression hc hcall
  have hleaves : Leaves e c.before e' c.after := by
    have hrun' : (leaveExpression e).run c.before = (e', c.after) := hrun
    have hstep := leaves e c.before
    rwa [hrun'] at hstep
  have hinlines := hleaves.inlines hbinders
  refine ⟨?_, hinlines⟩
  intro j i g f d hji hg hf hd hplain
  refine hinlines.quiet i ?_
  rintro r ⟨f', d', hf', hd', -, hhides⟩
  cases hf.symm.trans hf'
  cases hd.symm.trans hd'
  have hmem : g ∈ c.around.take i := by
    refine List.mem_of_getElem? (i := j) ?_
    rw [List.getElem?_take_of_lt hji, hg]
  exact hhides g hmem (.inr hplain)

/-- `function g(d = {}) { return d.k; }` -/
def defaulting : Function :=
  ⟨some "g", [.assignmentPattern (.identifier "d") (.object [])],
    [.returns (some (.member (.identifier "d") (.identifier "k") false false))], false, false⟩

/-- `function f() { var d = { k: "v" }; ... }` with the function before in it. -/
def surrounding : Function :=
  ⟨some "f", [],
    [.declaration ⟨[⟨.identifier "d", some (.object
        [.property (.identifier "k") (.ofString "v") .init false false false])⟩], .var⟩,
      .function defaulting], false, false⟩

open DictionaryInlining in
/-- The parameter of the inner function binds `d`, and still a lookup in it is replaced by an entry
of the dictionary of the outer one. -/
theorem default_parameter_shadows_nothing :
    ∃ c ∈ visitor.placed ⟨[.function surrounding], .script⟩ {}, ∃ e e',
      c.call = .leaveExpression e e' ∧
      c.around.map (fun f => (f.bound, f.captured?.map (·.name))) =
        [(["d"], none), ([], some "d")] ∧
      inlinedAt c.after.frames 1 = inlinedAt c.before.frames 1 + 1 ∧
      FindsAt c.around 1 e e' := by
  have hstep : ∃ c ∈ visitor.placed ⟨[.function surrounding], .script⟩ {},
      c.call.left?.isSome = true ∧
      c.around.map (fun f => (f.bound, f.captured?.map (·.name))) =
        [(["d"], none), ([], some "d")] ∧
      inlinedAt c.after.frames 1 = inlinedAt c.before.frames 1 + 1 := by
    decide +kernel
  obtain ⟨c, hc, hleft, haround, hcount⟩ := hstep
  obtain ⟨⟨e, e'⟩, hleft⟩ := Option.isSome_iff_exists.1 hleft
  have hcall : c.call = .leaveExpression e e' := Call.left?_eq_some_iff.1 hleft
  have hinlines := (plain_parameters_shadow _ c hc e e' hcall).2
  have hfinds : ∃ r, FindsAt c.around 1 e r := by
    apply Classical.byContradiction
    intro hnone
    have hsame := hinlines.quiet 1 fun r hr => hnone ⟨r, hr⟩
    omega
  obtain ⟨r, hr⟩ := hfinds
  obtain ⟨rfl, -⟩ := hinlines.found 1 r hr
  exact ⟨c, hc, e, e', hcall, haround, hcount, hr⟩

end Untangle
