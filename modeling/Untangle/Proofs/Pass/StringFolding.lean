import Untangle.Proofs.Pass.Prologue
import Untangle.Proofs.Pass.StringShadowing
import Untangle.Proofs.Syntax.Fragment
import Untangle.Proofs.Walk.Congruence
import Untangle.Proofs.Walk.Slots

/-!
# Strings folded in one walk

A lookup is replaced after the lookups inside of it have been, and an access by a
name after the lookup that gives the name. So one walk finds all of them, and
leaves nothing for a second one to do, which finds the same prologue.
-/
namespace Untangle

namespace StringDecoding

variable {prologue : Prologue} {table : StringTable} {normalizing : Bool} {e : Expression}
variable {s t : Progress}

/-- There is nothing to do at the expression: it is no lookup that finds a string, nor, if accesses
by a name are written with a dot, such an access in brackets. -/
structure Settled (prologue : Prologue) (table : StringTable) (normalizing : Bool)
    (e : Expression) : Prop where
  lookup : ∀ name value, ¬ LooksUp prologue table name e value
  brackets : normalizing = true → ∀ object property optional name,
    e = .member object property true optional → property.string? = some name →
      Text.isIdentifierName name = false

/-- An expression that is neither an access in brackets nor a call of a name is settled. -/
theorem settled_of_ne
    (hmember : ∀ object property optional, e = .member object property true optional → False)
    (hcall : ∀ name argument optional, e = .call (.identifier name) [argument] optional → False) :
    Settled prologue table normalizing e where
  lookup name value h := by
    cases h with
    | entry => exact hmember _ _ _ rfl
    | call => exact hcall _ _ _ rfl
  brackets _ object property optional _ he := (hmember object property optional he).elim

/-- All that can happen when an expression is left. -/
inductive Left (prologue : Prologue) (table : StringTable) (normalizing : Bool) (e : Expression)
    (s : Progress) : Expression × Progress → Prop
  | settled (h : Settled prologue table normalizing e) : Left prologue table normalizing e s (e, s)
  | decoded {name value message : String} (h : LooksUp prologue table name e value) :
    Left prologue table normalizing e s
      (.ofString value, (s.record passName .stringDecoded none message).change)
  | dotted {object property : Expression} {optional : Bool} {name message : String}
    (hnormalizing : normalizing = true) (he : e = .member object property true optional)
    (hname : property.string? = some name) (hid : Text.isIdentifierName name = true) :
    Left prologue table normalizing e s (.member object (.identifier name) false optional,
      (s.record passName .memberNormalized none message).change)

theorem run_lookup_missing {index : Option Nat} (site : String)
    (h : index.bind table.get? = none) : (lookup table site index).run s = (none, s) := by
  cases index with
  | none => rfl
  | some i =>
    have hi : table.get? i = none := h
    simp only [lookup, hi]
    rfl

theorem run_lookup_found {index : Option Nat} {value : String} (site : String)
    (h : index.bind table.get? = some value) :
    ∃ message, (lookup table site index).run s =
      (some (.ofString value), (s.record passName .stringDecoded none message).change) := by
  obtain ⟨i, rfl, hi⟩ := Option.bind_eq_some_iff.1 h
  simp only [lookup, hi]
  exact ⟨_, rfl⟩

/-- An access in brackets that is no lookup. -/
theorem left_brackets {object property : Expression} {optional : Bool}
    (hlookup : ∀ name value,
      ¬ LooksUp prologue table name (.member object property true optional) value) :
    Left prologue table normalizing (.member object property true optional) s
      ((if normalizing then normalize object property optional
        else pure (.member object property true optional)).run s) := by
  cases normalizing with
  | false => exact .settled ⟨hlookup, nofun⟩
  | true =>
    have hstays : (∀ name, property.string? = some name → Text.isIdentifierName name = false) →
        Left prologue table true (.member object property true optional) s
          (.member object property true optional, s) := by
      refine fun h => .settled ⟨hlookup, fun _ _ _ _ name he hname => ?_⟩
      cases he
      exact h name hname
    simp only [if_true, normalize]
    cases hname : property.string? with
    | none => exact hstays fun name h => by cases hname.symm.trans h
    | some name =>
      cases hid : Text.isIdentifierName name with
      | true =>
        simp only [hid, if_true]
        exact .dotted rfl rfl hname hid
      | false =>
        simp only [hid]
        refine hstays fun name' h => ?_
        cases hname.symm.trans h
        exact hid

/-- An access in brackets: a lookup in the table comes first, a name with a dot second. -/
theorem left_member (object property : Expression) (optional : Bool) (s : Progress) :
    Left prologue table normalizing (.member object property true optional) s
      ((leaveExpression prologue table normalizing
        (.member object property true optional)).run s) := by
  unfold leaveExpression
  by_cases hobject : object.identifier? = some table.name
  · obtain rfl := Expression.eq_of_identifier? hobject
    simp only [hobject, if_true, StateT.run_bind]
    -- Only if the table has no such entry is the access looked at as one by a name.
    cases hvalue : (property.number?.bind Binary64.index?).bind table.get? with
    | some value =>
      obtain ⟨message, hrun⟩ := run_lookup_found (s := s) table.name hvalue
      obtain ⟨index, hindex, hentry⟩ := Option.bind_eq_some_iff.1 hvalue
      rw [hrun]
      exact .decoded (.entry hindex hentry)
    | none =>
      rw [run_lookup_missing table.name hvalue]
      refine left_brackets fun name value h => ?_
      cases h with
      | entry hindex hentry =>
        rw [hindex, Option.bind_some, hentry] at hvalue
        cases hvalue
  · simp only [hobject]
    refine left_brackets fun name value h => ?_
    cases h
    exact hobject rfl

/-- A call of a name with one argument. -/
theorem left_call (name : String) (argument : Expression) (optional : Bool) (s : Progress) :
    Left prologue table normalizing (.call (.identifier name) [argument] optional) s
      ((leaveExpression prologue table normalizing
        (.call (.identifier name) [argument] optional)).run s) := by
  have hstays : (∀ name' value,
      ¬ LooksUp prologue table name' (.call (.identifier name) [argument] optional) value) →
      Left prologue table normalizing (.call (.identifier name) [argument] optional) s
        (.call (.identifier name) [argument] optional, s) :=
    fun h => .settled ⟨h, fun _ _ _ _ _ he => by cases he⟩
  unfold leaveExpression
  by_cases hname : name = prologue.decoder
  · subst hname
    simp only [if_true, StateT.run_bind]
    cases hvalue : argument.index?.bind table.get? with
    | some value =>
      obtain ⟨message, hrun⟩ := run_lookup_found (s := s) prologue.decoder hvalue
      obtain ⟨index, hindex, hentry⟩ := Option.bind_eq_some_iff.1 hvalue
      rw [hrun]
      exact .decoded (.call hindex hentry)
    | none =>
      rw [run_lookup_missing prologue.decoder hvalue]
      refine hstays fun name value h => ?_
      cases h with
      | call hindex hentry =>
        rw [hindex, Option.bind_some, hentry] at hvalue
        cases hvalue
  · simp only [if_neg hname]
    refine hstays fun name' value h => ?_
    cases h
    exact hname rfl

/-- Of all that can happen when an expression is left, one does. -/
theorem left (prologue : Prologue) (table : StringTable) (normalizing : Bool) (e : Expression)
    (s : Progress) :
    Left prologue table normalizing e s
      ((leaveExpression prologue table normalizing e).run s) := by
  unfold leaveExpression
  split
  · next object property optional => exact left_member object property optional s
  · next name argument optional => exact left_call name argument optional s
  · next hmember hcall => exact .settled (settled_of_ne hmember hcall)

/-- What each call for an expression keeps, the walk keeps, if it is a congruence. -/
theorem upholds_of_leaveExpression {R : Diagram → Diagram → Progress → Progress → Prop}
    (h : Diagram.Congruence R)
    (hleave : ∀ e s, R e.diagram ((leaveExpression prologue table normalizing e).run s).1.diagram s
      ((leaveExpression prologue table normalizing e).run s).2) :
    (visitor prologue table normalizing).Upholds R :=
  h.upholds rfl rfl (fun _ => rfl) (fun _ s => h.refl _ s) hleave

/-- There is nothing to do at any expression that a walk comes to. -/
def Done (prologue : Prologue) (table : StringTable) (normalizing : Bool) (d : Diagram) : Prop :=
  ∀ e : Expression, e.diagram ∈ d.slots true → Settled prologue table normalizing e

namespace Done

variable {d d' : Diagram}

theorem pair_iff : Done prologue table normalizing (.pair d d') ↔
    Done prologue table normalizing d ∧ Done prologue table normalizing d' := by
  simp only [Done, Diagram.slots, List.mem_append, or_imp, forall_and]

theorem function_iff {params : List Expression} :
    Done prologue table normalizing (.function params d d') ↔
      Done prologue table normalizing d ∧ Done prologue table normalizing d' :=
  pair_iff

theorem statement_iff {root : StatementRoot} :
    Done prologue table normalizing (.statement root d) ↔ Done prologue table normalizing d := by
  rw [Done, Diagram.slots_statement]
  rfl

/-- A tree is done if its parts are and its root is settled. -/
theorem expression_iff {root : ExpressionRoot} (he : e.diagram = .expression root d) :
    Done prologue table normalizing e.diagram ↔
      Done prologue table normalizing d ∧ Settled prologue table normalizing e := by
  -- No two expressions have the same diagram, since they are read back from it.
  have hinj : ∀ e' : Expression, e'.diagram = .expression root d ↔ e' = e := by
    intro e'
    refine ⟨fun h => ?_, fun h => h ▸ he⟩
    rw [← e'.ofRead, h, ← he, e.ofRead]
  simp only [Done, he, Diagram.slots, List.mem_append, List.mem_singleton, hinj, or_imp, forall_and,
    forall_eq]

theorem clause_iff {root : ClauseRoot} : Done prologue table normalizing (.clause root d) ↔
    Done prologue table normalizing d :=
  .rfl

theorem block_iff {body : List Statement} : Done prologue table normalizing (.block body d) ↔
    Done prologue table normalizing d :=
  .rfl

theorem parts (h : Diagram.InTurn (fun _ d _ _ => Done prologue table normalizing d) d d' s t) :
    Done prologue table normalizing d' := by
  induction h with
  | nothing => exact nofun
  | pair first _ ih => exact pair_iff.2 ⟨first, ih⟩

/-- Nothing is left to do at an expression that has been left, nor at its parts. -/
theorem left {root : ExpressionRoot} (he : e.diagram = .expression root d)
    (hparts : Done prologue table normalizing d) (s : Progress) :
    Done prologue table normalizing
      ((leaveExpression prologue table normalizing e).run s).1.diagram := by
  have hleft := StringDecoding.left prologue table normalizing e s
  generalize (leaveExpression prologue table normalizing e).run s = result at hleft ⊢
  cases hleft with
  | settled h => exact (expression_iff he).2 ⟨hparts, h⟩
  | decoded => exact (expression_iff rfl).2 ⟨nofun, settled_of_ne nofun nofun⟩
  | dotted _ hmember =>
    subst hmember
    cases he
    have hobject := (pair_iff.1 hparts).1
    exact (expression_iff rfl).2 ⟨pair_iff.2 ⟨hobject, nofun⟩, settled_of_ne nofun nofun⟩

end Done

/-- After the walk everything is done, whatever was there before. -/
theorem upholds_done (prologue : Prologue) (table : StringTable) (normalizing : Bool) :
    (visitor prologue table normalizing).Upholds
      fun _ d _ _ => Done prologue table normalizing d where
  nothing _ := nofun
  passed _ _ := nofun
  clause hparts := Done.clause_iff.2 (Done.parts hparts)
  statement hparts := Done.statement_iff.2 (Done.parts hparts)
  expression he hparts := Done.left he (Done.parts hparts) _
  settle henters := by cases henters
  descend := by
    intro body body' s t u henters hparts
    exact Done.block_iff.2 (Done.parts hparts)
  function := by
    intro params params' body body' cut s t u w henters hparams hbody
    exact Done.function_iff.2 ⟨Done.parts hparams, hbody⟩
  concise := by
    intro params params' e e' cut s t u w henters hparams hbody
    exact Done.function_iff.2 ⟨Done.parts hparams, hbody⟩

/-- Where there is nothing to do, nothing happens but that scopes are entered and left. -/
def Rests (prologue : Prologue) (table : StringTable) (normalizing : Bool) (d d' : Diagram)
    (s t : Progress) : Prop :=
  Done prologue table normalizing d → d' = d ∧ t.events = s.events ∧ t.changes = s.changes

/-- Where everything is done, a walk over parts leaves them in place. -/
theorem congruence_rests (prologue : Prologue) (table : StringTable) (normalizing : Bool) :
    Diagram.Congruence (Rests prologue table normalizing) where
  refl _ _ _ := ⟨rfl, rfl, rfl⟩
  trans := by
    intro d d' d'' s t u h h' hdone
    obtain ⟨rfl, hevents, hchanges⟩ := h hdone
    obtain ⟨rfl, hevents', hchanges'⟩ := h' hdone
    exact ⟨rfl, hevents'.trans hevents, hchanges'.trans hchanges⟩
  pair := by
    intro a a' b b' s t u h h' hdone
    obtain ⟨ha, hb⟩ := Done.pair_iff.1 hdone
    obtain ⟨rfl, hevents, hchanges⟩ := h ha
    obtain ⟨rfl, hevents', hchanges'⟩ := h' hb
    exact ⟨rfl, hevents'.trans hevents, hchanges'.trans hchanges⟩
  expression := by
    intro root a a' s t h hdone
    obtain ⟨rfl, hrest⟩ := h fun e he => hdone e (List.mem_append_left _ he)
    exact ⟨rfl, hrest⟩
  statement := by
    intro root a a' s t h hdone
    obtain ⟨rfl, hrest⟩ := h (Done.statement_iff.1 hdone)
    exact ⟨rfl, hrest⟩
  clause := by
    intro root a a' s t h hdone
    obtain ⟨rfl, hrest⟩ := h hdone
    exact ⟨rfl, hrest⟩
  block := by
    intro body body' s t h hdone
    obtain ⟨hbody, hrest⟩ := h (Done.block_iff.1 hdone)
    -- A block also shows its statements as they are, not only their diagrams.
    obtain rfl : body' = body := by rw [← statements_ofRead body', hbody, statements_ofRead]
    exact ⟨rfl, hrest⟩
  function := by
    intro params params' b b' s t u h h' hdone
    obtain ⟨ha, hb⟩ := Done.function_iff.1 hdone
    obtain ⟨hparams, hevents, hchanges⟩ := h ha
    obtain ⟨rfl, hevents', hchanges'⟩ := h' hb
    obtain rfl : params' = params := by
      rw [← expressions_ofRead params', hparams, expressions_ofRead]
    exact ⟨rfl, hevents'.trans hevents, hchanges'.trans hchanges⟩
  scope h := h

theorem rests_leaveExpression (e : Expression) (s : Progress) :
    Rests prologue table normalizing e.diagram
      ((leaveExpression prologue table normalizing e).run s).1.diagram s
      ((leaveExpression prologue table normalizing e).run s).2 := by
  intro hdone
  obtain ⟨root, parts, he⟩ := e.exists_diagram
  obtain ⟨-, hsettled⟩ := (Done.expression_iff he).1 hdone
  have hleft := left prologue table normalizing e s
  generalize (leaveExpression prologue table normalizing e).run s = result at hleft ⊢
  cases hleft with
  | settled => exact ⟨rfl, rfl, rfl⟩
  | decoded hlooks => exact absurd hlooks (hsettled.lookup _ _)
  | dotted hnormalizing hmember hname hid =>
    have hnone := hsettled.brackets hnormalizing _ _ _ _ hmember hname
    rw [hid] at hnone
    cases hnone

variable {p : Program}

/-- A run on a program with a prologue is the walk with the decoded table. -/
theorem run_eq (hp : Prologue.find? p.body = some prologue) (normalizing : Bool) :
    run normalizing p =
      ⟨(((visitor prologue prologue.decode normalizing).program p).run {}).1,
        identified prologue prologue.decode ::
          (((visitor prologue prologue.decode normalizing).program p).run {}).2.events,
        (((visitor prologue prologue.decode normalizing).program p).run {}).2.changes > 0⟩ := by
  rw [run, hp]
  rfl

/-- A run on a program in which everything is done changes nothing. -/
theorem run_of_done (hp : Prologue.find? p.body = some prologue)
    (hdone : Done prologue prologue.decode normalizing p.diagram) :
    run normalizing p = ⟨p, [identified prologue prologue.decode], false⟩ := by
  have hupholds := upholds_of_leaveExpression
    (congruence_rests prologue prologue.decode normalizing) rests_leaveExpression
  obtain ⟨hdiagram, hevents, hchanges⟩ := hupholds.carries_program p {} hdone
  have hprogram : (((visitor prologue prologue.decode normalizing).program p).run {}).1 = p :=
    congrArg (Program.mk · p.sourceType) (Diagram.block.inj hdiagram).1
  rw [run_eq hp, hprogram, hevents, hchanges]
  rfl

/-- One run leaves no lookup that finds a string and, if accesses by a name are written with a dot,
no such access in brackets. So a second run changes nothing. -/
theorem run_done (hp : Prologue.find? p.body = some prologue) (normalizing : Bool) :
    Done prologue prologue.decode normalizing (run normalizing p).program.diagram ∧
      run normalizing (run normalizing p).program =
        ⟨(run normalizing p).program, [identified prologue prologue.decode], false⟩ := by
  have hdone : Done prologue prologue.decode normalizing (run normalizing p).program.diagram := by
    rw [run_eq hp]
    exact (upholds_done prologue prologue.decode normalizing).carries_program p {}
  have hopens := stringDecoding_keepsPrologue normalizing (Prologue.find?_eq_some.1 hp)
  exact ⟨hdone, run_of_done (Prologue.find?_eq_some.2 hopens) hdone⟩

/-- `var t = ["MQ==", "bmFtZQ=="]; r(t, 0); var d; o[d(d(0))];` -/
def nested : Program :=
  ⟨[.declaration ⟨[⟨.identifier "t",
      some (.array [some (.ofString "MQ=="), some (.ofString "bmFtZQ==")])⟩], .var⟩,
    .expression (.call (.identifier "r")
      [.identifier "t", .literal ⟨.number (.zero false), none, none, none⟩] false) none,
    .declaration ⟨[⟨.identifier "d", none⟩], .var⟩,
    .expression (.member (.identifier "o") (.call (.identifier "d") [.call (.identifier "d")
      [.literal ⟨.number (.zero false), none, none, none⟩] false] false) true false) none], .script⟩

/-- The inner lookup gives the index of the outer one, and what that finds is a name, so that
`o.name` is left. -/
theorem run_nested_done :
    let prologue : Prologue := ⟨"t", ["MQ==", "bmFtZQ=="], 0, "d"⟩
    (Prologue.find? nested.body = some prologue ∧
      ((run true nested).events.map (·.message)).drop 1 =
        ["d[0] -> \"1\"", "d[1] -> \"name\"", "[\"name\"] -> .name"]) ∧
    Done prologue prologue.decode true (run true nested).program.diagram ∧
      run true (run true nested).program =
        ⟨(run true nested).program, [identified prologue prologue.decode], false⟩ := by
  intro prologue
  have hrun : Prologue.find? nested.body = some prologue ∧
      ((run true nested).events.map (·.message)).drop 1 =
        ["d[0] -> \"1\"", "d[1] -> \"name\"", "[\"name\"] -> .name"] := by
    decide +kernel
  exact ⟨hrun, run_done hrun.1 true⟩

end StringDecoding

end Untangle
