import Untangle.Proofs.Detection.Bounds
import Untangle.Proofs.Pass.StringFolding

/-!
# What is left alone when strings are decoded

All nodes of a tree are listed with the place at which they stand. A lookup that
is replaced has no parts but a name and a literal, so that nothing that was
counted before goes with it: the nodes that are gone, and those that were
rewritten, are as many as the log tells of. Statements, and nodes that were not
understood, are where they were.
-/
namespace Untangle

namespace Node

def isMemberOrCall : Node → Bool
  | .expression (.member _ _) | .expression (.call _) => true
  | _ => false

def isDotted : Node → Bool
  | .expression (.member computed _) => !computed
  | _ => false

/-- A node that can be part of a lookup or of an access by a name. -/
def isFolded : Node → Bool
  | .expression (.identifier _) | .expression (.literal _) => true
  | n => n.isMemberOrCall

def statement? : Node → Option StatementRoot
  | .statement root => some root
  | _ => none

theorem statement?_of_isFolded {n : Node} (h : n.isFolded = true) : n.statement? = none := by
  cases n with
  | expression => rfl
  | statement | clause => cases h

theorem foreign?_of_isFolded {n : Node} (h : n.isFolded = true) : n.foreign? = none := by
  cases n with
  | expression root =>
    cases root with
    | foreign => cases h
    | _ => rfl
  | statement | clause => cases h

end Node

/-- From a node to its parts, or to one of two parts. -/
inductive Turn where
  | into | first | rest
  deriving DecidableEq

namespace Diagram

/-- All nodes of a tree that stands at a place, each before its parts. A place is the way up from
there. -/
def nodes (place : List Turn) : Diagram → List (List Turn × Node)
  | .nothing => []
  | .pair first rest => first.nodes (.first :: place) ++ rest.nodes (.rest :: place)
  | .passed name => name.nodes (.into :: place)
  | .expression root parts => (place, .expression root) :: parts.nodes (.into :: place)
  | .statement root parts => (place, .statement root) :: parts.nodes (.into :: place)
  | .clause root parts => (place, .clause root) :: parts.nodes (.into :: place)
  | .block _ parts => parts.nodes place
  | .function _ parts body => parts.nodes (.first :: place) ++ body.nodes (.rest :: place)

/-- How many nodes are of a sort. -/
def tally (f : Node → Bool) (place : List Turn) (d : Diagram) : Nat :=
  (d.nodes place).countP (f ·.2)

/-- What can be seen at the nodes, each with its place. -/
def chart {α : Type} (see : Node → Option α) (place : List Turn) (d : Diagram) :
    List (List Turn × α) :=
  (d.nodes place).filterMap fun n => (see n.2).map (n.1, ·)

/-- The nodes of a sort, and what the log makes up for, stay as many. -/
def Tallies (f : Node → Bool) (log : EventLog → Int) (d d' : Diagram) (s t : Progress) : Prop :=
  ∀ place, d'.tally f place + log t.events = d.tally f place + log s.events

/-- The same is seen at the same places. -/
def Charts {α : Type} (see : Node → Option α) (d d' : Diagram) : Prop :=
  ∀ place, d'.chart see place = d.chart see place

section Congruence

/-- A relation between the nodes of two trees, at every place, goes up the tree if it allows for one
more node in front and for two lists one behind the other. -/
theorem congruence_nodes {Q : List (List Turn × Node) → List (List Turn × Node) →
      Progress → Progress → Prop} (hrefl : ∀ l s, Q l l s s)
    (htrans : ∀ {l m n s t u}, Q l m s t → Q m n t u → Q l n s u)
    (hcons : ∀ x {l m s t}, Q l m s t → Q (x :: l) (x :: m) s t)
    (happend : ∀ {l l' m m' s t u}, Q l l' s t → Q m m' t u → Q (l ++ m) (l' ++ m') s u)
    (hscope : ∀ {l m s t}, Q l m s.enterScope t → Q l m s t.leaveScope) :
    Congruence fun d d' s t => ∀ place, Q (d.nodes place) (d'.nodes place) s t where
  refl _ s _ := hrefl _ s
  trans h h' place := htrans (h place) (h' place)
  pair h h' place := happend (h (.first :: place)) (h' (.rest :: place))
  expression h place := hcons _ (h (.into :: place))
  statement h place := hcons _ (h (.into :: place))
  clause h place := hcons _ (h (.into :: place))
  block h := h
  function h h' place := happend (h (.first :: place)) (h' (.rest :: place))
  scope h place := hscope (h place)

variable {α : Type} {f : Node → Bool} {log : EventLog → Int} {see : Node → Option α}

/-- A tally of nodes is kept by a walk if each of its calls keeps it. -/
theorem congruence_tallies : Congruence (Tallies f log) := by
  refine congruence_nodes (Q := fun l l' s t => (l'.countP (f ·.2) : Int) + log t.events =
    l.countP (f ·.2) + log s.events) (fun _ _ => rfl) (fun h h' => h'.trans h) ?_ ?_ fun h => h
  · intro x l m s t h
    simp only [List.countP_cons] at h ⊢
    omega
  · intro l l' m m' s t u h h'
    simp only [List.countP_append] at h h' ⊢
    omega

/-- A chart of nodes is kept by a walk if each of its calls keeps it. -/
theorem congruence_charts : Congruence fun d d' _ _ => Charts see d d' := by
  refine congruence_nodes (Q := fun l l' _ _ => l'.filterMap (fun n => (see n.2).map (n.1, ·)) =
    l.filterMap fun n => (see n.2).map (n.1, ·)) (fun _ _ => rfl) (fun h h' => h'.trans h) ?_ ?_
    fun h => h
  · intro x l m s t h
    rw [List.filterMap_cons, List.filterMap_cons, h]
  · intro l l' m m' s t u h h'
    rw [List.filterMap_append, List.filterMap_append, h, h']

end Congruence

end Diagram

namespace Program

def tally (f : Node → Bool) (p : Program) : Nat := p.diagram.tally f []

def chart {α : Type} (see : Node → Option α) (p : Program) : List (List Turn × α) :=
  p.diagram.chart see []

end Program

namespace StringDecoding

open Diagram (Tallies Charts)

variable {prologue : Prologue} {table : StringTable} {normalizing : Bool} {e : Expression}
variable {s : Progress}

/-- A lookup has no parts but a name and a literal. -/
theorem LooksUp.nodes_eq {name value : String} (h : LooksUp prologue table name e value)
    (place : List Turn) :
    ∃ root literal,
      ((∃ optional, root = .call optional) ∨ ∃ optional, root = .member true optional) ∧
      e.diagram.nodes place =
        [(place, .expression root), (.first :: .into :: place, .expression (.identifier name)),
          (.first :: .rest :: .into :: place, .expression (.literal literal))] := by
  cases h with
  | @entry property optional index _ hindex _ =>
    obtain ⟨number, hnumber, -⟩ := Option.bind_eq_some_iff.1 hindex
    obtain ⟨literal, rfl⟩ := Expression.exists_of_number? hnumber
    exact ⟨_, literal, .inr ⟨optional, rfl⟩, rfl⟩
  | @call argument optional index _ hindex _ =>
    obtain ⟨literal, rfl⟩ := Expression.exists_of_index? hindex
    exact ⟨_, literal, .inl ⟨optional, rfl⟩, rfl⟩

/-- A lookup is one access or call, and is not dotted. -/
theorem LooksUp.tally_eq {name value : String} (h : LooksUp prologue table name e value)
    (place : List Turn) :
    e.diagram.tally Node.isMemberOrCall place = 1 ∧ e.diagram.tally Node.isDotted place = 0 := by
  obtain ⟨root, literal, hroot, hnodes⟩ := h.nodes_eq place
  simp only [Diagram.tally, hnodes]
  rcases hroot with ⟨optional, rfl⟩ | ⟨optional, rfl⟩
  · exact ⟨rfl, rfl⟩
  · exact ⟨rfl, rfl⟩

/-- The nodes of an access in brackets by a literal. -/
theorem nodes_brackets (object : Expression) {property : Expression} (optional : Bool)
    {name : String} (hname : property.string? = some name) (place : List Turn) :
    ∃ literal, (Expression.member object property true optional).diagram.nodes place =
      (place, .expression (.member true optional)) ::
        (object.diagram.nodes (.first :: .into :: place) ++
          [(.first :: .rest :: .into :: place, .expression (.literal literal))]) := by
  obtain ⟨literal, rfl⟩ := Expression.exists_of_string? hname
  exact ⟨literal, rfl⟩

/-- The nodes of the same access with a dot. -/
theorem nodes_dot (object : Expression) (name : String) (optional : Bool) (place : List Turn) :
    (Expression.member object (.identifier name) false optional).diagram.nodes place =
      (place, .expression (.member false optional)) ::
        (object.diagram.nodes (.first :: .into :: place) ++
          [(.into :: .first :: .rest :: .into :: place, .expression (.identifier name))]) :=
  rfl

/-- An access in brackets counts once, and its name in brackets is no access. -/
theorem tally_brackets (object : Expression) {property : Expression} (optional : Bool)
    {name : String} (hname : property.string? = some name) (place : List Turn) :
    (Expression.member object property true optional).diagram.tally Node.isMemberOrCall place =
        object.diagram.tally Node.isMemberOrCall (.first :: .into :: place) + 1 ∧
      (Expression.member object property true optional).diagram.tally Node.isDotted place =
        object.diagram.tally Node.isDotted (.first :: .into :: place) := by
  obtain ⟨literal, hnodes⟩ := nodes_brackets object optional hname place
  simp only [Diagram.tally, hnodes, List.countP_cons, List.countP_append]
  exact ⟨rfl, rfl⟩

theorem tally_dot (object : Expression) (name : String) (optional : Bool) (place : List Turn) :
    (Expression.member object (.identifier name) false optional).diagram.tally Node.isMemberOrCall
        place = object.diagram.tally Node.isMemberOrCall (.first :: .into :: place) + 1 ∧
      (Expression.member object (.identifier name) false optional).diagram.tally Node.isDotted
        place = object.diagram.tally Node.isDotted (.first :: .into :: place) + 1 := by
  simp only [Diagram.tally, nodes_dot, List.countP_cons, List.countP_append]
  exact ⟨rfl, rfl⟩

/-- Leaving an expression keeps the tallies: each decoded string was an access or a call, and each
normalized member is dotted now. -/
theorem tallies_leaveExpression (prologue : Prologue) (table : StringTable) (normalizing : Bool)
    (e : Expression) (s : Progress) :
    Tallies Node.isMemberOrCall (·.count .stringDecoded) e.diagram
        ((leaveExpression prologue table normalizing e).run s).1.diagram s
        ((leaveExpression prologue table normalizing e).run s).2 ∧
      Tallies Node.isDotted (-·.count .memberNormalized) e.diagram
        ((leaveExpression prologue table normalizing e).run s).1.diagram s
        ((leaveExpression prologue table normalizing e).run s).2 := by
  have hleft := left prologue table normalizing e s
  generalize (leaveExpression prologue table normalizing e).run s = result at hleft ⊢
  cases hleft with
  | settled => exact ⟨fun _ => rfl, fun _ => rfl⟩
  | @decoded name value message hlooks =>
    have hlog : ∀ kind, (s.record passName .stringDecoded none message).change.events.count kind =
        s.events.count kind + if EventKind.stringDecoded = kind then 1 else 0 :=
      EventLog.count_record _ _
    refine ⟨fun place => ?_, fun place => ?_⟩
    · have hliteral : (Expression.ofString value).diagram.tally Node.isMemberOrCall place = 0 := rfl
      simp only [hlog, hliteral, hlooks.tally_eq, if_true]
      omega
    · have hliteral : (Expression.ofString value).diagram.tally Node.isDotted place = 0 := rfl
      simp only [hlog, hliteral, hlooks.tally_eq, reduceCtorEq, if_false]
      omega
  | @dotted object property optional name message _ he hname _ =>
    subst he
    have hlog : ∀ kind,
        (s.record passName .memberNormalized none message).change.events.count kind =
          s.events.count kind + if EventKind.memberNormalized = kind then 1 else 0 :=
      EventLog.count_record _ _
    refine ⟨fun place => ?_, fun place => ?_⟩
    · simp only [hlog, tally_brackets object optional hname, tally_dot, reduceCtorEq, if_false]
      omega
    · simp only [hlog, tally_brackets object optional hname, tally_dot, if_true]
      omega

/-- Leaving an expression changes nothing that is seen at other nodes. -/
theorem charts_leaveExpression {α : Type} {see : Node → Option α}
    (hsee : ∀ n, n.isFolded = true → see n = none) (e : Expression) (s : Progress) :
    Charts see e.diagram ((leaveExpression prologue table normalizing e).run s).1.diagram := by
  intro place
  have hname : ∀ name, see (.expression (.identifier name)) = none := fun _ => hsee _ rfl
  have hliteral : ∀ literal, see (.expression (.literal literal)) = none := fun _ => hsee _ rfl
  have hleft := left prologue table normalizing e s
  generalize (leaveExpression prologue table normalizing e).run s = result at hleft ⊢
  cases hleft with
  | settled => rfl
  | @decoded name value message hlooks =>
    obtain ⟨root, literal, hroot, hnodes⟩ := hlooks.nodes_eq place
    have hlookup : see (.expression root) = none := by
      rcases hroot with ⟨optional, rfl⟩ | ⟨optional, rfl⟩
      · exact hsee _ rfl
      · exact hsee _ rfl
    obtain ⟨literal', hnodes'⟩ : ∃ literal', (Expression.ofString value).diagram.nodes place =
        [(place, .expression (.literal literal'))] := ⟨_, rfl⟩
    simp only [Diagram.chart, hnodes, hnodes', List.filterMap_cons, hlookup, hname, hliteral,
      Option.map_none]
  | @dotted object property optional name message _ he hstring _ =>
    subst he
    obtain ⟨literal, hnodes⟩ := nodes_brackets object optional hstring place
    have hmember : ∀ computed, see (.expression (.member computed optional)) = none :=
      fun _ => hsee _ rfl
    simp only [Diagram.chart, hnodes, nodes_dot, List.filterMap_cons, List.filterMap_append,
      hmember, hname, hliteral, Option.map_none]

theorem count_identified (log : EventLog) {kind : EventKind} (h : kind ≠ .stringTableIdentified) :
    EventLog.count (identified prologue table :: log) kind = log.count kind :=
  List.countP_cons_of_neg (by simpa [identified] using h.symm)

/-- The tallies of a program before and after a run differ by what the log tells. -/
theorem run_tallies (normalizing : Bool) (p : Program) :
    (run normalizing p).program.tally Node.isMemberOrCall +
          (run normalizing p).events.count .stringDecoded = p.tally Node.isMemberOrCall ∧
      (run normalizing p).program.tally Node.isDotted =
        p.tally Node.isDotted + (run normalizing p).events.count .memberNormalized := by
  cases hp : Prologue.find? p.body with
  | none =>
    rw [run, hp]
    exact ⟨rfl, rfl⟩
  | some prologue =>
    have hleave := tallies_leaveExpression prologue prologue.decode normalizing
    have hlookups := (upholds_of_leaveExpression Diagram.congruence_tallies
      fun e s => (hleave e s).1).carries_program p {} []
    have hdots := (upholds_of_leaveExpression Diagram.congruence_tallies
      fun e s => (hleave e s).2).carries_program p {} []
    have hnone : ∀ kind, ({} : Progress).events.count kind = 0 := fun _ => rfl
    rw [run_eq hp]
    generalize ((visitor prologue prologue.decode normalizing).program p).run {} = walked
      at hlookups hdots ⊢
    simp only [hnone] at hlookups hdots
    rw [count_identified _ (by decide), count_identified _ (by decide)]
    simp only [Program.tally]
    omega

/-- Whatever is seen at nodes that cannot be folded is seen again after a run. -/
theorem run_chart {α : Type} {see : Node → Option α}
    (hsee : ∀ n, n.isFolded = true → see n = none) (normalizing : Bool) (p : Program) :
    (run normalizing p).program.chart see = p.chart see := by
  cases hp : Prologue.find? p.body with
  | none =>
    rw [run, hp]
  | some prologue =>
    rw [run_eq hp]
    exact (upholds_of_leaveExpression Diagram.congruence_charts
      (charts_leaveExpression hsee)).carries_program p {} []

/-- Every decoded string takes one access or call away, and every access that is written with a dot
gives one more of these. Statements, and nodes that were not understood, are where they were. -/
theorem run_frame (normalizing : Bool) (p : Program) :
    ((run normalizing p).program.tally Node.isMemberOrCall +
          (run normalizing p).events.count .stringDecoded = p.tally Node.isMemberOrCall ∧
      (run normalizing p).program.tally Node.isDotted =
        p.tally Node.isDotted + (run normalizing p).events.count .memberNormalized) ∧
      (run normalizing p).program.chart Node.statement? = p.chart Node.statement? ∧
      (run normalizing p).program.chart Node.foreign? = p.chart Node.foreign? :=
  ⟨run_tallies normalizing p, run_chart (fun _ => Node.statement?_of_isFolded) normalizing p,
    run_chart (fun _ => Node.foreign?_of_isFolded) normalizing p⟩

end StringDecoding

end Untangle
