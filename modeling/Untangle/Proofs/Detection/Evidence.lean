import Untangle.Detection
import Untangle.Proofs.Walk.Relation

/-!
# What the search finds

The search for obfuscation looks at a program and leaves it as it is. So what it
finds can be read off the diagram of the program: a function is evidence of its
dictionary, a list of statements of its dispatchers and its endless loops. Only
the labels depend on the place, by the number of functions that come before.
-/
namespace Untangle

def Diagram.functions : Diagram → Nat
  | .nothing | .passed _ => 0
  | .pair first rest => first.functions + rest.functions
  | .expression _ parts | .statement _ parts | .clause _ parts | .block _ parts => parts.functions
  | .function _ parts body => parts.functions + body.functions + 1

namespace Detection

def functionLabel (number : Nat) : String := "function#" ++ toString number

/-- What a function is evidence of. -/
def ofFunction (scope : String) (body : Option (List Statement)) : List Evidence :=
  ((body.bind Dictionary.capture?).map fun d =>
    .dictionary scope d.name d.entries.length).toList

/-- What a list of statements is evidence of, without what is in them. -/
def ofStatements (scope : String) (body : List Statement) : List Evidence :=
  body.flatMap (ofStatement scope (Dispatcher.orderText? body))

/-- What a tree is evidence of, in a scope and after so many functions. -/
def ofDiagram (scope : String) (entered : Nat) : Diagram → List Evidence
  | .nothing | .passed _ => []
  | .pair first rest =>
    ofDiagram scope entered first ++ ofDiagram scope (entered + first.functions) rest
  | .expression _ parts | .statement _ parts | .clause _ parts => ofDiagram scope entered parts
  | .block body parts => ofStatements scope body ++ ofDiagram scope entered parts
  | .function _ parts body =>
    let label := functionLabel (entered + 1)
    ofFunction label body.statements? ++ ofDiagram label (entered + 1) parts ++
      ofDiagram label (entered + 1 + parts.functions) body

/-- Entering a function adds what the function is evidence of. -/
theorem run_enterFunction (params : List Expression) (body : Option (List Statement))
    (s : Search) :
    (enterFunction params body).run s =
      (0, ⟨s.scopes.enter, s.evidence ++ ofFunction s.scopes.enter.label body⟩) := by
  unfold enterFunction ofFunction
  cases body.bind Dictionary.capture? with
  | none =>
    rw [Option.map_none, Option.toList_none, List.append_nil]
    rfl
  | some d => rfl

/-- The search has gone through a tree. -/
structure Searches (d : Diagram) (s t : Search) : Prop where
  scopes : t.scopes = ⟨s.scopes.around, s.scopes.entered + d.functions⟩
  evidence : t.evidence = s.evidence ++ ofDiagram s.scopes.label s.scopes.entered d

namespace Searches

variable {a b c d d' : Diagram} {s t u w : Search}

theorem label_eq (h : Searches d s t) : t.scopes.label = s.scopes.label := by
  rw [h.scopes]
  rfl

theorem nothing (s : Search) : Searches .nothing s s := ⟨rfl, (List.append_nil _).symm⟩

theorem pair (h : Searches a s t) (h' : Searches b t u) : Searches (.pair a b) s u := by
  constructor
  · rw [h'.scopes, h.scopes, Diagram.functions, Nat.add_assoc]
  · rw [h'.evidence, h.evidence, h.label_eq, h.scopes, List.append_assoc]
    rfl

theorem parts (h : Diagram.InTurn (fun d _ => Searches d) d d' s t) : Searches d s t := by
  induction h with
  | nothing s => exact nothing s
  | pair first _ ih => exact first.pair ih

theorem function {params : List Expression} {body : Option (List Statement)} {cut : Nat}
    (henter : (visitor.enterFunction params body).run s = (cut, t)) (hbody : c.statements? = body)
    (hparams : Searches a t u) (hinside : Searches c u w) :
    Searches (.function params a c) s (visitor.leaveFunction.run w).2 := by
  obtain ⟨rfl, rfl⟩ := Prod.mk.inj ((run_enterFunction params body s).symm.trans henter)
  have hlabel : s.scopes.enter.label = functionLabel (s.scopes.entered + 1) := rfl
  constructor
  · show w.scopes.leave = _
    rw [hinside.scopes, hparams.scopes, Diagram.functions]
    simp only [Scopes.leave, Scopes.enter, List.tail_cons]
    congr 1
    omega
  · show w.evidence = _
    rw [hinside.evidence, hparams.evidence, hparams.label_eq, hparams.scopes, ofDiagram, hbody,
      hlabel]
    simp only [List.append_assoc]
    rfl

end Searches

/-- Every call of the search goes through its tree. -/
theorem upholds_searches : visitor.Upholds fun d _ => Searches d where
  nothing := Searches.nothing
  passed _ s := ⟨rfl, (List.append_nil _).symm⟩
  clause hparts := ⟨(Searches.parts hparts).scopes, (Searches.parts hparts).evidence⟩
  statement hparts := ⟨(Searches.parts hparts).scopes, (Searches.parts hparts).evidence⟩
  expression _ hparts := ⟨(Searches.parts hparts).scopes, (Searches.parts hparts).evidence⟩
  settle henter := by cases henter
  descend := by
    intro body body' s t u henter hparts
    cases henter
    obtain ⟨hscopes, hevidence⟩ := Searches.parts hparts
    exact ⟨hscopes, hevidence.trans (List.append_assoc _ _ _)⟩
  function := by
    intro params params' body body' cut s t u w henter hparams hbody
    obtain ⟨rfl, -⟩ := Prod.mk.inj ((run_enterFunction params (some body) s).symm.trans henter)
    exact .function henter rfl (.parts hparams) hbody
  concise := by
    intro params params' e e' cut s t u w henter hparams hbody
    refine .function henter ?_ (.parts hparams) hbody
    obtain ⟨root, parts, he⟩ := e.exists_diagram
    rw [he]
    rfl

end Detection

/-- What is found in a program: its string table, and what its diagram is evidence of. -/
theorem evidence_detect (p : Program) :
    (detect p).evidence = ((Prologue.find? p.body).map Detection.ofPrologue).toList ++
      Detection.ofDiagram "program" 0 p.diagram := by
  have hsearch := (Detection.upholds_searches.carries_program p {}).evidence
  exact congrArg (_ ++ ·) hsearch

end Untangle
