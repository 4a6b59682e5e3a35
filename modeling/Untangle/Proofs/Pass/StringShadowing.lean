import Untangle.Proofs.Pass.Shadowing

/-!
# What hides the string table

Nothing does. A lookup in the table, or by the decoder, is replaced wherever it
is, also inside of a function that has a parameter of that name. So parameters
are respected just in those programs in which no such lookup is inside of such a
function.
-/
namespace Untangle

namespace Entered

/-- One of the functions has a parameter that is just this name. -/
def Shadows (fs : List Entered) (name : String) : Prop := ∃ f ∈ fs, name ∈ f.plain

end Entered

namespace StringDecoding

/-- A lookup that finds a string, by the name of the table or of the decoder. -/
inductive LooksUp (prologue : Prologue) (table : StringTable) :
    String → Expression → String → Prop
  | entry {property : Expression} {optional : Bool} {index : Nat} {value : String}
    (hindex : property.number?.bind Binary64.index? = some index)
    (hvalue : table.get? index = some value) :
    LooksUp prologue table table.name
      (.member (.identifier table.name) property true optional) value
  | call {argument : Expression} {optional : Bool} {index : Nat} {value : String}
    (hindex : argument.index? = some index) (hvalue : table.get? index = some value) :
    LooksUp prologue table prologue.decoder
      (.call (.identifier prologue.decoder) [argument] optional) value

/-- An access in brackets becomes one by a name. -/
inductive Dots : Expression → Expression → Prop
  | name {object property : Expression} {optional : Bool} {name : String}
    (hname : property.string? = some name) :
    Dots (.member object property true optional) (.member object (.identifier name) false optional)

variable {prologue : Prologue} {table : StringTable} {normalizing : Bool} {e e' : Expression}
  {name value : String} {s t : Progress}

/-- A lookup that finds a string is replaced by it, and counted. -/
theorem LooksUp.run_leaveExpression (h : LooksUp prologue table name e value) (normalizing : Bool)
    (s : Progress) :
    ∃ t, (leaveExpression prologue table normalizing e).run s = (.ofString value, t) ∧
      t.changes = s.changes + 1 := by
  cases h with
  | entry hindex hvalue =>
    simp only [leaveExpression, Expression.identifier?, if_true, lookup, hindex, hvalue]
    exact ⟨_, rfl, rfl⟩
  | call hindex hvalue =>
    simp only [leaveExpression, if_true, lookup, hindex, hvalue]
    exact ⟨_, rfl, rfl⟩

/-- An expression that is left is replaced where it is a lookup that finds a string, and else it
stays or an access by a name takes its place. -/
structure Folds (prologue : Prologue) (table : StringTable) (normalizing : Bool)
    (e e' : Expression) (s t : Progress) : Prop where
  found : ∀ name value, LooksUp prologue table name e value →
    e' = .ofString value ∧ t.changes = s.changes + 1
  other : (∀ name value, ¬ LooksUp prologue table name e value) →
    (e' = e ∧ t = s) ∨ (normalizing = true ∧ Dots e e' ∧ t.changes = s.changes + 1)

/-- Leaving an expression folds it, whatever the functions around it are. -/
theorem folds_of_run (h : (leaveExpression prologue table normalizing e).run s = (e', t)) :
    Folds prologue table normalizing e e' s t where
  found name value hlooks := by
    obtain ⟨t', hrun, hchanges⟩ := hlooks.run_leaveExpression normalizing s
    cases h.symm.trans hrun
    exact ⟨rfl, hchanges⟩
  other hnone := by
    have hleaves := leaves prologue table normalizing e s
    rw [h] at hleaves
    rcases hleaves with heq | ⟨hdecodes, kind, message, -, hcounted⟩
    · exact .inl (Prod.mk.inj heq)
    · cases hdecodes with
      | entry hindex hvalue => exact absurd (.entry hindex hvalue) (hnone _ _)
      | call hindex hvalue => exact absurd (.call hindex hvalue) (hnone _ _)
      | name hnormalizing hname => exact .inr ⟨hnormalizing, .name hname, congrArg _ hcounted⟩

/-- A lookup by a name inside of a function that has a parameter of that name. -/
def Misread (prologue : Prologue) (table : StringTable) (c : Placed Progress) (e : Expression) :
    Prop :=
  ∃ name value, LooksUp prologue table name e value ∧ Entered.Shadows c.around name

end StringDecoding

open StringDecoding in
/-- Wherever a lookup that finds a string is left, the string takes its place. So parameters that
hide the table or the decoder are respected just if there is nothing to respect. -/
theorem lookups_ignore_parameters {p : Program} {prologue : Prologue}
    (hp : Prologue.find? p.body = some prologue) (normalizing : Bool) :
    (run normalizing p).program =
        (((visitor prologue prologue.decode normalizing).program p).run {}).1 ∧
      (∀ c ∈ (visitor prologue prologue.decode normalizing).placed p {}, ∀ e e',
        c.call = .leaveExpression e e' →
          Folds prologue prologue.decode normalizing e e' c.before c.after) ∧
      ((∀ c ∈ (visitor prologue prologue.decode normalizing).placed p {}, ∀ e e',
          c.call = .leaveExpression e e' → Misread prologue prologue.decode c e → e' = e) ↔
        ∀ c ∈ (visitor prologue prologue.decode normalizing).placed p {}, ∀ e e',
          c.call = .leaveExpression e e' → ¬ Misread prologue prologue.decode c e) := by
  have hfolds : ∀ c ∈ (visitor prologue prologue.decode normalizing).placed p {}, ∀ e e',
      c.call = .leaveExpression e e' →
        Folds prologue prologue.decode normalizing e e' c.before c.after := by
    intro c hc e e' hcall
    have hwalks := (visitor prologue prologue.decode normalizing).walks_placed p {}
    exact folds_of_run (hwalks.run_leaveExpression hc hcall)
  refine ⟨?_, hfolds, fun h c hc e e' hcall hmisread => ?_, fun h c hc e e' hcall hmisread => ?_⟩
  · rw [run, hp]
    rfl
  · have hkept := h c hc e e' hcall hmisread
    obtain ⟨name, value, hlooks, -⟩ := hmisread
    rw [((hfolds c hc e e' hcall).found name value hlooks).1] at hkept
    subst hkept
    cases hlooks
  · exact absurd hmisread (h c hc e e' hcall)

/-- `var t = ["aGk="]; r(t, 0); var d; function f(t) { return t[0]; }` -/
def indexing : Program :=
  ⟨[.declaration ⟨[⟨.identifier "t", some (.array [some (.ofString "aGk=")])⟩], .var⟩,
    .expression (.call (.identifier "r")
      [.identifier "t", .literal ⟨.number (.zero false), none, none, none⟩] false) none,
    .declaration ⟨[⟨.identifier "d", none⟩], .var⟩,
    .function ⟨some "f", [.identifier "t"],
      [.returns (some (.member (.identifier "t")
        (.literal ⟨.number (.zero false), none, none, none⟩) true false))], false, false⟩], .script⟩

open StringDecoding in
/-- The parameter of the function hides the table, and still its lookup becomes `"hi"`. -/
theorem lookup_in_parameter_replaced :
    let prologue : Prologue := ⟨"t", ["aGk="], 0, "d"⟩
    Prologue.find? indexing.body = some prologue ∧
      ∃ c ∈ (visitor prologue prologue.decode false).placed indexing {}, ∃ e,
        c.call = .leaveExpression e (.ofString "hi") ∧ Misread prologue prologue.decode c e := by
  intro prologue
  have hfind : Prologue.find? indexing.body = some prologue := by decide +kernel
  have hstep : ∃ c ∈ (visitor prologue prologue.decode false).placed indexing {},
      c.call.left?.map (·.1.kindName) = some "MemberExpression" ∧
        c.around.map (·.plain) = [["t"]] ∧ c.after.changes = c.before.changes + 1 := by
    decide +kernel
  obtain ⟨c, hc, hleft, haround, hchanges⟩ := hstep
  obtain ⟨⟨e, e'⟩, hleft, hkind⟩ := Option.map_eq_some_iff.1 hleft
  have hcall : c.call = .leaveExpression e e' := Call.left?_eq_some_iff.1 hleft
  have hfolds := (lookups_ignore_parameters hfind false).2.1 c hc e e' hcall
  have hlooks : ∃ name value, LooksUp prologue prologue.decode name e value := by
    apply Classical.byContradiction
    intro hnone
    rcases hfolds.other fun name value h => hnone ⟨name, value, h⟩ with ⟨-, hsame⟩ | ⟨hfalse, -⟩
    · rw [hsame] at hchanges
      omega
    · cases hfalse
  obtain ⟨name, value, hlooks⟩ := hlooks
  obtain ⟨f, hf, hplain⟩ : ∃ f ∈ c.around, f.plain = ["t"] := by
    refine List.mem_map.1 ?_
    rw [haround]
    exact List.mem_singleton_self _
  have hentries : prologue.decode.entries = ["hi"] := by decide +kernel
  obtain ⟨rfl, -⟩ := hfolds.found name value hlooks
  cases hlooks with
  | @entry property optional index _ hindex hvalue =>
    obtain rfl : value = "hi" := by
      have hmem := List.mem_of_getElem? hvalue
      rwa [hentries, List.mem_singleton] at hmem
    refine ⟨hfind, c, hc, _, hcall, "t", "hi", .entry hindex hvalue, f, hf, ?_⟩
    rw [hplain]
    exact List.mem_singleton_self _
  | call =>
    have hcallKind : "CallExpression" = "MemberExpression" := hkind
    exact absurd hcallKind (by decide)

end Untangle
