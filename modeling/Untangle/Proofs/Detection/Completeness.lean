import Untangle.Proofs.Detection.Bounds
import Untangle.Proofs.Syntax.Fragment

/-!
# What the search overlooks

The search looks at the elements of the lists of statements that it comes to. But
a statement can also stand alone: behind a label, as a branch, as the body of a
loop. All statements of a tree are listed here with how they stand, to compare
what is counted with what there is. The counts are complete as long as no loop
of the sort stands alone, or in a name that is passed over.
-/
namespace Untangle

/-- How a statement stands in a tree: as an element of a list or alone, and within reach of a walk
or in a name that walks pass over. -/
structure Standing where
  listed : Bool
  walked : Bool
  deriving DecidableEq

namespace Standing

/-- The search looks at the elements of the lists within its reach. -/
def seen (place : Standing) : Bool := place.listed && place.walked

def alone (place : Standing) : Standing := { place with listed := false }

def inList (place : Standing) : Standing := { place with listed := true }

end Standing

namespace Diagram

/-- All statements of a tree that stands at a place, each with how it stands. -/
def standing (place : Standing) : Diagram → List (Standing × Statement)
  | .nothing => []
  | .pair first rest => first.standing place ++ rest.standing place
  | .passed name => name.standing ⟨false, false⟩
  | .expression _ parts | .clause _ parts => parts.standing place.alone
  | .statement root parts => (place, root.assemble parts.read) :: parts.standing place.alone
  | .block _ parts => parts.standing place.inList
  | .function _ parts body => parts.standing place.alone ++ body.standing place.alone

/-- How many statements of a sort the search comes to see. -/
def sightings (sees : Statement → Bool) (place : Standing) (d : Diagram) : Nat :=
  (d.standing place).countP fun x => x.1.seen && sees x.2

/-- What stands in a name that is passed over is out of reach. -/
theorem walked_of_mem_standing {place : Standing} {d : Diagram} {x : Standing × Statement}
    (hx : x ∈ d.standing place) (hplace : place.walked = false) : x.1.walked = false := by
  induction d generalizing place with
  | nothing => cases hx
  | pair first rest ihfirst ihrest =>
    rcases List.mem_append.1 hx with hx | hx
    · exact ihfirst hx hplace
    · exact ihrest hx hplace
  | passed name ih => exact ih hx rfl
  | expression root parts ih | clause root parts ih | block body parts ih => exact ih hx hplace
  | statement root parts ih =>
    rcases List.mem_cons.1 hx with rfl | hx
    · exact hplace
    · exact ih hx hplace
  | function params parts body ihparts ihbody =>
    rcases List.mem_append.1 hx with hx | hx
    · exact ihparts hx hplace
    · exact ihbody hx hplace

variable {sees : Statement → Bool}

theorem sightings_pair (place : Standing) (a b : Diagram) :
    (pair a b).sightings sees place = a.sightings sees place + b.sightings sees place :=
  List.countP_append

/-- Nothing is seen of a name that is passed over. -/
theorem sightings_passed (place : Standing) (name : Diagram) :
    (passed name).sightings sees place = 0 := by
  refine List.countP_eq_zero.2 fun x hx => ?_
  have hname : x ∈ name.standing ⟨false, false⟩ := hx
  have hwalked : x.1.walked = false := walked_of_mem_standing hname rfl
  simp [Standing.seen, hwalked]

/-- A statement that stands alone is not seen, only what is in it. -/
theorem sightings_alone (root : StatementRoot) (parts : Diagram) :
    (statement root parts).sightings sees ⟨false, true⟩ = parts.sightings sees ⟨false, true⟩ :=
  List.countP_cons_of_neg (by simp [Standing.seen])

end Diagram

/-- A statement stands in front of what is in it, and that stands alone. -/
theorem Statement.exists_standing (s : Statement) :
    ∃ parts : Diagram, ∀ place,
      s.diagram.standing place = (place, s) :: parts.standing place.alone := by
  obtain ⟨root, parts, hs⟩ := s.exists_diagram
  have hread : root.assemble parts.read = s := by
    have hof := s.ofRead
    rw [hs] at hof
    exact hof
  exact ⟨parts, fun place => by rw [hs, Diagram.standing, hread]⟩

/-- The elements of a list are seen besides what is in them. -/
theorem sightings_statements (sees : Statement → Bool) (body : List Statement) :
    (statementsDiagram body).sightings sees ⟨true, true⟩ =
      body.countP sees + (statementsDiagram body).sightings sees ⟨false, true⟩ := by
  induction body with
  | nil => rfl
  | cons s rest ih =>
    obtain ⟨parts, hs⟩ := s.exists_standing
    have hlisted : s.diagram.sightings sees ⟨true, true⟩ =
        s.diagram.sightings sees ⟨false, true⟩ + if sees s then 1 else 0 := by
      simp [Diagram.sightings, hs, List.countP_cons, Standing.seen, Standing.alone]
    rw [statementsDiagram, Diagram.sightings_pair, Diagram.sightings_pair, ih, hlisted,
      List.countP_cons]
    omega

def Program.standing (p : Program) : List (Standing × Statement) :=
  p.diagram.standing ⟨false, true⟩

namespace Detection

/-- What was found of a sort is what came to be seen of it. -/
def Sights (found : Evidence → Bool) (sees : Statement → Bool) (d : Diagram) (s t : Search) :
    Prop :=
  t.evidence.countP found = s.evidence.countP found + d.sightings sees ⟨false, true⟩

namespace Sights

variable {found : Evidence → Bool} {sees : Statement → Bool}
variable {a b d d' : Diagram} {s t u : Search}

theorem pair (h : Sights found sees a s t) (h' : Sights found sees b t u) :
    Sights found sees (.pair a b) s u := by
  unfold Sights at h h' ⊢
  rw [h', h, Diagram.sightings_pair, Nat.add_assoc]

theorem parts (h : Diagram.InTurn (fun d _ => Sights found sees d) d d' s t) :
    Sights found sees d s t := by
  induction h with
  | nothing s => rfl
  | pair first _ ih => exact first.pair ih

theorem clause (root : ClauseRoot) (h : Sights found sees d s t) :
    Sights found sees (.clause root d) s t := h

theorem expression (root : ExpressionRoot) (h : Sights found sees d s t) :
    Sights found sees (.expression root d) s t := h

theorem statement (root : StatementRoot) (h : Sights found sees d s t) :
    Sights found sees (.statement root d) s t := by
  rw [Sights, Diagram.sightings_alone]
  exact h

/-- Entering a function finds none of the sort. -/
theorem function {params : List Expression} {body : Option (List Statement)} {cut : Nat}
    (hfound : ∀ scope, (ofFunction scope body).countP found = 0)
    (henter : (visitor.enterFunction params body).run s = (cut, t))
    (hparams : Sights found sees a t u) {w : Search} (hbody : Sights found sees b u w) :
    Sights found sees (.function params a b) s (visitor.leaveFunction.run w).2 := by
  obtain ⟨-, rfl⟩ := Prod.mk.inj ((run_enterFunction params body s).symm.trans henter)
  have hboth := hparams.pair hbody
  unfold Sights at hboth ⊢
  rw [List.countP_append, hfound, Diagram.sightings_pair] at hboth
  exact hboth.trans (congrArg _ List.countP_append.symm)

end Sights

/-- The search counts what it comes to see, if it looks at statements only. -/
theorem upholds_sights {found : Evidence → Bool} {sees : Statement → Bool}
    (hfunction : ∀ scope body, (ofFunction scope body).countP found = 0)
    (hstatements : ∀ scope body, (ofStatements scope body).countP found = body.countP sees) :
    visitor.Upholds fun d _ => Sights found sees d where
  nothing _ := rfl
  passed name s := by rw [Sights, Diagram.sightings_passed, Nat.add_zero]
  clause hparts := (Sights.parts hparts).clause _
  statement hparts := (Sights.parts hparts).statement _
  expression _ hparts := (Sights.parts hparts).expression _
  settle henter := by cases henter
  descend := by
    intro body body' s t u henter hparts
    cases henter
    have hinside : Sights found sees (statementsDiagram body) _ u := Sights.parts hparts
    have hblock : (blockDiagram body).sightings sees ⟨false, true⟩ =
        body.countP sees + (statementsDiagram body).sightings sees ⟨false, true⟩ :=
      sightings_statements sees body
    show u.evidence.countP found = _
    rw [hblock, hinside, ← hstatements s.scopes.label body, ← Nat.add_assoc]
    exact congrArg (· + _) List.countP_append
  function := by
    intro params params' body body' cut s t u w henter hparams hbody
    obtain ⟨rfl, -⟩ := Prod.mk.inj ((run_enterFunction params (some body) s).symm.trans henter)
    exact .function (hfunction · _) henter (.parts hparams) hbody
  concise henter hparams hbody := .function (hfunction · _) henter (.parts hparams) hbody

theorem countP_ofFunction {found : Evidence → Bool}
    (h : ∀ scope name entries, found (.dictionary scope name entries) = false) (scope : String)
    (body : Option (List Statement)) : (ofFunction scope body).countP found = 0 := by
  unfold ofFunction
  cases body.bind Dictionary.capture? with
  | none => rfl
  | some d => simp [h]

/-- What is reported of a sort of evidence is what the search comes to see. -/
theorem countP_detect {found : Evidence → Bool} {sees : Statement → Bool}
    (htable : ∀ prologue, found (ofPrologue prologue) = false)
    (hdictionary : ∀ scope name entries, found (.dictionary scope name entries) = false)
    (hstatements : ∀ scope body, (ofStatements scope body).countP found = body.countP sees)
    (p : Program) :
    (detect p).evidence.countP found =
      p.standing.countP fun x => x.1.seen && sees x.2 := by
  have hsights := (upholds_sights (countP_ofFunction hdictionary) hstatements).carries_program p {}
  have hsearch := (upholds_searches.carries_program p {}).evidence
  rw [Sights, hsearch] at hsights
  rw [countP_evidence_detect htable]
  exact hsights.trans (Nat.zero_add _)

end Detection

/-- What satisfies both is as much as what satisfies one where the one implies the other. -/
theorem countP_and_eq_iff {α : Type} {f g : α → Bool} {l : List α} :
    l.countP (fun x => f x && g x) = l.countP g ↔ ∀ x ∈ l, g x = true → f x = true := by
  rw [← List.countP_filter, List.countP_eq_length_filter (l := l), List.countP_eq_length]
  simp [List.mem_filter]

/-- The endless loops and the dispatchers that are reported are those among the elements of lists
that are walked. These are all there are if and only if no other stands alone or out of reach. -/
theorem detect_complete_iff (p : Program) :
    ((detect p).endlessLoops = p.standing.countP (fun x => x.1.seen && x.2.isEndlessLoop) ∧
      ((detect p).endlessLoops = p.standing.countP (fun x => x.2.isEndlessLoop) ↔
        ∀ x ∈ p.standing, x.2.isEndlessLoop = true → x.1.seen = true)) ∧
    ((detect p).dispatchers =
        p.standing.countP (fun x => x.1.seen && (Dispatcher.cases? x.2).isSome) ∧
      ((detect p).dispatchers = p.standing.countP (fun x => (Dispatcher.cases? x.2).isSome) ↔
        ∀ x ∈ p.standing, (Dispatcher.cases? x.2).isSome = true → x.1.seen = true)) := by
  have hloops : (detect p).endlessLoops = _ :=
    Detection.countP_detect (fun _ => rfl) (fun _ _ _ => rfl) Detection.endlessLoops_ofStatements p
  have hdispatchers : (detect p).dispatchers = _ :=
    Detection.countP_detect (fun _ => rfl) (fun _ _ _ => rfl) Detection.dispatchers_ofStatements p
  refine ⟨⟨hloops, ?_⟩, hdispatchers, ?_⟩
  · rw [hloops]
    exact countP_and_eq_iff
  · rw [hdispatchers]
    exact countP_and_eq_iff

/-- `outer: while (true) { switch (next()) {} }` -/
def labeledDispatcher : Program :=
  ⟨[.labeled "outer" (.whileLoop (.literal ⟨.boolean true, none, none, none⟩)
    (.block [.switch (.call (.identifier "next") [] false) []]))], .script⟩

/-- A loop with a label is overlooked, as an endless loop and as a dispatcher. -/
theorem labeledDispatcher_overlooked :
    ((detect labeledDispatcher).endlessLoops = 0 ∧
      (detect labeledDispatcher).endlessLoops ≠
        labeledDispatcher.standing.countP fun x => x.2.isEndlessLoop) ∧
    ((detect labeledDispatcher).dispatchers = 0 ∧
      (detect labeledDispatcher).dispatchers ≠
        labeledDispatcher.standing.countP fun x => (Dispatcher.cases? x.2).isSome) := by
  obtain ⟨⟨hloops, hall⟩, hdispatchers, hall'⟩ := detect_complete_iff labeledDispatcher
  refine ⟨⟨hloops, fun h => ?_⟩, hdispatchers, fun h => ?_⟩
  · exact absurd (hall.1 h _ (.tail _ (.head _)) rfl) (by decide)
  · exact absurd (hall'.1 h _ (.tail _ (.head _)) rfl) (by decide)

end Untangle
