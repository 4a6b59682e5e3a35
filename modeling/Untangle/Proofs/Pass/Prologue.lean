import Untangle.Pass.Dispatcher
import Untangle.Pass.LoopExit
import Untangle.Proofs.Lists
import Untangle.Proofs.Pass.Replacement

/-!
# What the passes leave of a prologue

A prologue is read off three statements, of which little counts: the name and
the strings of the table, the first two arguments of the call that rotates it,
and the name of the decoder. No pass replaces names that are declared, string
literals in an array, or the arguments of such a call. And no list that starts
with a table starts with the order of a dispatcher.
-/
namespace Untangle

namespace Statement

theorem exists_of_firstVariable? {s : Statement} {name : String} {init : Option Expression}
    (h : s.firstVariable? = some (name, init)) :
    ∃ others kind, s = .declaration ⟨⟨.identifier name, init⟩ :: others, kind⟩ := by
  unfold firstVariable? at h
  split at h
  · cases h
    exact ⟨_, _, rfl⟩
  · cases h

end Statement

namespace Prologue

/-- The rotation is the second argument of a call that has the table as its first. -/
theorem exists_of_rotation? {table : String} {s : Statement} {n : Nat}
    (h : rotation? table s = some n) :
    ∃ callee count more optional directive,
      s = .expression (.call callee (.identifier table :: .literal count :: more) optional)
        directive ∧ (Expression.literal count).index? = some n := by
  unfold rotation? at h
  split at h
  · split at h
    · next hname =>
      obtain ⟨count, rfl⟩ := Expression.exists_of_index? h
      subst hname
      exact ⟨_, count, _, _, _, rfl, h⟩
    · cases h
  · cases h

/-- The statements that a prologue is read off, whatever else is in them. -/
inductive Opens : Prologue → List Statement → Prop
  | intro {tableName : String} {encoded : List String} {rotation : Nat} {decoder : String}
    {elements : List (Option Expression)} {others others' : List Declarator}
    {kind kind' : VariableKind} {callee : Expression} {count : Literal} {more : List Expression}
    {optional : Bool} {directive : Option String} {init : Option Expression}
    {rest : List Statement} (hstrings : strings? elements = some encoded)
    (hcount : (Expression.literal count).index? = some rotation) :
    Opens ⟨tableName, encoded, rotation, decoder⟩
      (.declaration ⟨⟨.identifier tableName, some (.array elements)⟩ :: others, kind⟩ ::
        .expression (.call callee (.identifier tableName :: .literal count :: more) optional)
          directive ::
        .declaration ⟨⟨.identifier decoder, init⟩ :: others', kind'⟩ :: rest)

/-- A prologue is found in the statements that it opens, and in no others. -/
theorem find?_eq_some {prologue : Prologue} {body : List Statement} :
    find? body = some prologue ↔ prologue.Opens body := by
  constructor
  · intro h
    unfold find? at h
    split at h
    · next table rotate decoder rest =>
      simp only [Option.bind_eq_bind, Option.bind_eq_some_iff] at h
      obtain ⟨⟨tableName, init⟩, htable, h⟩ := h
      split at h
      · next elements hinit =>
        obtain rfl : init = some (.array elements) := hinit
        simp only [Option.bind_eq_some_iff, Option.pure_def, Option.some.injEq] at h
        obtain ⟨encoded, hstrings, rotation, hrotation, ⟨name, init'⟩, hdecoder, rfl⟩ := h
        obtain ⟨others, kind, rfl⟩ := Statement.exists_of_firstVariable? htable
        obtain ⟨callee, count, more, optional, directive, rfl, hcount⟩ :=
          exists_of_rotation? hrotation
        obtain ⟨others', kind', rfl⟩ := Statement.exists_of_firstVariable? hdecoder
        exact .intro hstrings hcount
      · cases h
    · cases h
  · rintro ⟨hstrings, hcount⟩
    simp [find?, Statement.firstVariable?, rotation?, hstrings, hcount]

end Prologue

/-- Expressions that can be part of what a prologue is read off. -/
def Expression.isInert : Expression → Bool
  | .identifier _ | .literal _ | .array _ | .call _ (_ :: _ :: _) _ => true
  | _ => false

namespace Visitor

variable {σ : Type} (v : Visitor σ)

def SparesNames : Prop :=
  ∀ name s, ((v.leaveExpression (.identifier name)).run s).1 = .identifier name

def SparesInert : Prop := ∀ e s, e.isInert = true → ((v.leaveExpression e).run s).1 = e

variable {v}

theorem SparesInert.names (hv : v.SparesInert) : v.SparesNames := fun _ s => hv _ s rfl

/-- The first variable of a declaration keeps its name. -/
theorem SparesNames.run_declaration (hv : v.SparesNames) (name : String) (init : Option Expression)
    (others : List Declarator) (kind : VariableKind) (s : σ) :
    ∃ t others',
      ((v.statement (.declaration ⟨⟨.identifier name, init⟩ :: others, kind⟩)).run s).1 =
        .declaration ⟨⟨.identifier name, ((v.optional init).run t).1⟩ :: others', kind⟩ := by
  have hrun : ∃ t others',
      ((v.statement (.declaration ⟨⟨.identifier name, init⟩ :: others, kind⟩)).run s).1 =
        .declaration ⟨⟨((v.leaveExpression (.identifier name)).run s).1,
          ((v.optional init).run t).1⟩ :: others', kind⟩ := ⟨_, _, rfl⟩
  rwa [hv name s] at hrun

namespace SparesInert

variable (hv : v.SparesInert)

include hv

/-- The strings of a table are walked one by one. -/
theorem run_optionals {elements : List (Option Expression)} {encoded : List String}
    (h : Prologue.strings? elements = some encoded) (s : σ) :
    ((v.optionals elements).run s).1 = elements := by
  induction elements generalizing encoded s with
  | nil => rfl
  | cons first rest ih =>
    simp only [Prologue.strings?, List.mapM_cons, Option.bind_eq_bind, Option.bind_eq_some_iff,
      Option.pure_def, Option.some.injEq] at h
    obtain ⟨string, ⟨e, rfl, hstring⟩, strings, hrest, rfl⟩ := h
    obtain ⟨l, rfl⟩ := Expression.exists_of_string? hstring
    have hcons : ((v.optionals (some (.literal l) :: rest)).run s).1 =
        some ((v.leaveExpression (.literal l)).run s).1 ::
          ((v.optionals rest).run ((v.leaveExpression (.literal l)).run s).2).1 := rfl
    rw [hcons, hv _ _ rfl, ih hrest]

/-- The strings of a table stay as they are. -/
theorem run_table {elements : List (Option Expression)} {encoded : List String}
    (h : Prologue.strings? elements = some encoded) (s : σ) :
    ((v.optional (some (.array elements))).run s).1 = some (.array elements) := by
  have hrun : ∃ t, ((v.optional (some (.array elements))).run s).1 =
      some ((v.leaveExpression (.array ((v.optionals elements).run s).1)).run t).1 := ⟨_, rfl⟩
  obtain ⟨t, hrun⟩ := hrun
  rw [hrun, hv.run_optionals h, hv _ _ rfl]

/-- A call that rotates a table keeps its first two arguments. -/
theorem run_rotation (callee : Expression) (name : String) (count : Literal)
    (more : List Expression) (optional : Bool) (directive : Option String) (s : σ) :
    ∃ callee' more', ((v.statement (.expression
        (.call callee (.identifier name :: .literal count :: more) optional) directive)).run s).1 =
      .expression (.call callee' (.identifier name :: .literal count :: more') optional)
        directive := by
  have hrun : ∃ callee' more' t u w, ((v.statement (.expression
        (.call callee (.identifier name :: .literal count :: more) optional) directive)).run s).1 =
      .expression ((v.leaveExpression (.call callee'
        (((v.leaveExpression (.identifier name)).run t).1 ::
          ((v.leaveExpression (.literal count)).run u).1 :: more') optional)).run w).1 directive :=
    ⟨_, _, _, _, _, rfl⟩
  obtain ⟨callee', more', t, u, w, hrun⟩ := hrun
  rw [hv _ t rfl, hv _ u rfl, hv _ w rfl] at hrun
  exact ⟨callee', more', hrun⟩

end SparesInert

end Visitor

namespace Prologue.Opens

variable {σ : Type} {v : Visitor σ} {prologue : Prologue} {body : List Statement}

/-- A walk over the statements leaves what the prologue is read off. -/
theorem run_statementsFrom (hv : v.SparesInert) (h : prologue.Opens body) (s : σ) :
    prologue.Opens ((v.statementsFrom 0 body).run s).1 := by
  cases h with
  | @intro tableName encoded rotation decoder elements others others' kind kind' callee count more
      optional directive init rest hstrings hcount =>
    have hrun : ∀ table rotate decoder : Statement, ∃ t u w,
        ((v.statementsFrom 0 (table :: rotate :: decoder :: rest)).run s).1 =
          ((v.statement table).run s).1 :: ((v.statement rotate).run t).1 ::
            ((v.statement decoder).run u).1 :: ((v.statementsFrom 0 rest).run w).1 :=
      fun _ _ _ => ⟨_, _, _, rfl⟩
    obtain ⟨t, u, w, hrun⟩ := hrun _ _ _
    obtain ⟨t', others₁, htable⟩ :=
      hv.names.run_declaration tableName (some (.array elements)) others kind s
    obtain ⟨callee', more', hrotate⟩ :=
      hv.run_rotation callee tableName count more optional directive t
    obtain ⟨u', others₂, hdecoder⟩ := hv.names.run_declaration decoder init others' kind' u
    rw [hrun, htable, hrotate, hdecoder, hv.run_table hstrings]
    exact .intro hstrings hcount

/-- So does a walk that is kept from the first two statements, if it only leaves the names. -/
theorem run_behind (hv : v.SparesNames) {table rotate : Statement} {rest : List Statement}
    (h : prologue.Opens (table :: rotate :: rest)) (s : σ) :
    prologue.Opens (table :: rotate :: ((v.statementsFrom 0 rest).run s).1) := by
  cases h with
  | @intro tableName encoded rotation decoder elements others others' kind kind' callee count more
      optional directive init rest hstrings hcount =>
    obtain ⟨t, others₁, hdecoder⟩ := hv.run_declaration decoder init others' kind' s
    have hrun : ∀ decoder : Statement, ((v.statementsFrom 0 (decoder :: rest)).run s).1 =
        ((v.statement decoder).run s).1 ::
          ((v.statementsFrom 0 rest).run ((v.statement decoder).run s).2).1 := fun _ => rfl
    rw [hrun, hdecoder]
    exact .intro hstrings hcount

/-- None of the statements is a loop. -/
theorem run_rebuild (h : prologue.Opens body) (location : Nat) (s : Progress) :
    prologue.Opens ((LoopRebuilding.rebuild location body).run s).1 := by
  obtain ⟨hstrings, hcount⟩ := h
  exact .intro hstrings hcount

/-- The first variable is an array and not the order of a dispatcher. -/
theorem flattened?_eq_none (h : prologue.Opens body) : Dispatcher.flattened? body = none := by
  have horder : Dispatcher.orderText? body = none := by
    obtain ⟨-, -⟩ := h
    rfl
  unfold Dispatcher.flattened?
  cases Dispatcher.find? body with
  | none => rfl
  | some found => simp [horder]

end Prologue.Opens

namespace StringDecoding

variable {prologue : Prologue} {table : StringTable} {normalizing : Bool} {e e' : Expression}

theorem Decodes.isInert_eq_false (h : Decodes prologue table normalizing e e') :
    e.isInert = false := by
  cases h with
  | entry | call | name => rfl

/-- Decoding strings leaves the parts of a prologue alone. -/
theorem sparesInert (prologue : Prologue) (table : StringTable) (normalizing : Bool) :
    (visitor prologue table normalizing).SparesInert := by
  intro e s he
  rcases leaves prologue table normalizing e s with hkept | ⟨hdecodes, -⟩
  · exact congrArg Prod.fst hkept
  · rw [hdecodes.isInert_eq_false] at he
    cases he

end StringDecoding

theorem Unflattening.sparesInert : visitor.SparesInert := fun _ _ _ => rfl

theorem LoopRebuilding.sparesInert : visitor.SparesInert := fun _ _ _ => rfl

theorem DictionaryInlining.sparesNames : visitor.SparesNames := fun _ _ => rfl

/-- The pass leaves a prologue that it is given without its first statements. -/
def Pass.KeepsPrologue (pass : Pass) (front : List Statement) : Prop :=
  ∀ {prologue : Prologue} {p : Program}, prologue.Opens (front ++ p.body) →
    prologue.Opens (front ++ (pass.run p).program.body)

/-- Decoding strings leaves a prologue. -/
theorem stringDecoding_keepsPrologue (normalizing : Bool) :
    (stringDecoding normalizing).KeepsPrologue [] := by
  intro prologue p h
  have hfind : Prologue.find? p.body = some prologue := Prologue.find?_eq_some.2 h
  have hrun : ((stringDecoding normalizing).run p).program.body =
      (((StringDecoding.visitor prologue prologue.decode normalizing).statementsFrom 0
        p.body).run {}).1 := by
    show (StringDecoding.run normalizing p).program.body = _
    unfold StringDecoding.run
    rw [hfind]
    rfl
  rw [List.nil_append, hrun]
  exact h.run_statementsFrom (StringDecoding.sparesInert _ _ _) {}

/-- Unflattening leaves a prologue. -/
theorem unflattening_keepsPrologue : unflattening.KeepsPrologue [] := by
  intro prologue p h
  have hnone : Dispatcher.flattened? p.body = none := h.flattened?_eq_none
  have hrun : (unflattening.run p).program.body =
      ((Unflattening.visitor.statementsFrom 0 p.body).run {}).1 := by
    show ((Unflattening.visitor.statements p.body).run {}).1 = _
    have henter : Unflattening.visitor.enterStatements p.body =
        Unflattening.enterStatements p.body := rfl
    rw [Visitor.statements, Visitor.around, henter, Unflattening.enterStatements, hnone]
    rfl
  rw [List.nil_append, hrun]
  exact h.run_statementsFrom Unflattening.sparesInert {}

/-- Rebuilding loops leaves a prologue. -/
theorem loopRebuilding_keepsPrologue : loopRebuilding.KeepsPrologue [] := by
  intro prologue p h
  have hwalk : prologue.Opens ((LoopRebuilding.visitor.statementsFrom 0 p.body).run {}).1 :=
    h.run_statementsFrom LoopRebuilding.sparesInert {}
  exact hwalk.run_rebuild 0 _

/-- It need not see the table and its rotation. -/
theorem dictionaryInlining_keepsPrologue (table rotate : Statement) :
    dictionaryInlining.KeepsPrologue [table, rotate] := by
  intro prologue p h
  exact h.run_behind DictionaryInlining.sparesNames {}

end Untangle
