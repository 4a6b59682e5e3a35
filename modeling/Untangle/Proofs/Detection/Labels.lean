import Mathlib.Data.List.Basic
import Untangle.Proofs.Detection.Bounds
import Untangle.Proofs.Lists
import Untangle.Proofs.Pass.Dangling
import Untangle.Proofs.Text.Numeral

/-!
# The numbers of functions

Detection and the pass that inlines dictionaries both number the functions in
the order in which they enter them. But the pass takes out the declaration of a
dictionary before it goes on, and does not enter the functions in it. So the
two agree on a dictionary as long as no function that stands in a removed
declaration has come before.
-/
namespace Untangle

/-- A function in the order of the search: the name and the size of the dictionary that it starts
with, and whether it stands in the declaration of a dictionary. -/
structure Site where
  dictionary : Option (String × Nat)
  removed : Bool
  deriving DecidableEq, Repr

namespace Site

/-- The dictionaries of functions that come after `entered` others, with the numbers of these
functions. -/
def numbered (entered : Nat) : List Site → List (Nat × String × Nat)
  | [] => []
  | site :: rest => (site.dictionary.map (entered + 1, ·)).toList ++ numbered (entered + 1) rest

def kept (sites : List Site) : List Site := sites.filter fun site => !site.removed

theorem numbered_append (entered : Nat) (sites sites' : List Site) :
    numbered entered (sites ++ sites') =
      numbered entered sites ++ numbered (entered + sites.length) sites' := by
  induction sites generalizing entered with
  | nil => rfl
  | cons site rest ih =>
    rw [List.cons_append, numbered, numbered, ih, List.append_assoc, List.length_cons,
      Nat.add_assoc, Nat.add_comm 1]

theorem numbered_eq_nil (entered : Nat) {sites : List Site}
    (h : ∀ site ∈ sites, site.dictionary = none) : numbered entered sites = [] := by
  induction sites generalizing entered with
  | nil => rfl
  | cons site rest ih =>
    rw [numbered, h site List.mem_cons_self, ih _ fun x hx => h x (List.mem_cons_of_mem _ hx)]
    rfl

theorem length_numbered (entered : Nat) (sites : List Site) :
    (numbered entered sites).length = sites.countP fun site => site.dictionary.isSome := by
  induction sites generalizing entered with
  | nil => rfl
  | cons site rest ih =>
    rw [numbered, List.length_append, ih, List.countP_cons, Nat.add_comm]
    cases site.dictionary <;> rfl

/-- Fewer dictionaries are left where functions are left out. -/
theorem length_numbered_kept_le (entered entered' : Nat) (sites : List Site) :
    (numbered entered (kept sites)).length ≤ (numbered entered' sites).length := by
  rw [length_numbered, length_numbered]
  exact List.filter_sublist.countP_le

/-- Once the numbers differ, only functions without a dictionary can follow. -/
theorem dictionary_eq_none_of_shifted {entered entered' : Nat} {sites : List Site}
    (hlt : entered < entered') (h : numbered entered (kept sites) = numbered entered' sites) :
    ∀ site ∈ sites, site.dictionary = none := by
  induction sites generalizing entered entered' with
  | nil => simp
  | cons site rest ih =>
    obtain ⟨dictionary, removed⟩ := site
    cases removed with
    | true =>
      -- The pass has one function less to number, so a dictionary here would be one too many.
      have hkept : kept (⟨dictionary, true⟩ :: rest) = kept rest := rfl
      rw [hkept, numbered] at h
      cases dictionary with
      | some d =>
        have hlength := length_numbered_kept_le entered (entered' + 1) rest
        rw [h] at hlength
        exact absurd hlength (Nat.not_succ_le_self _)
      | none =>
        intro x hx
        rcases List.mem_cons.1 hx with rfl | hx
        · rfl
        · exact ih (Nat.lt_succ_of_lt hlt) h x hx
    | false =>
      have hkept : kept (⟨dictionary, false⟩ :: rest) = ⟨dictionary, false⟩ :: kept rest := rfl
      rw [hkept, numbered, numbered] at h
      cases dictionary with
      | some d =>
        have hnumber := congrArg Prod.fst (List.cons.inj h).1
        exact absurd hnumber (by show entered + 1 ≠ entered' + 1; omega)
      | none =>
        intro x hx
        rcases List.mem_cons.1 hx with rfl | hx
        · rfl
        · exact ih (Nat.succ_lt_succ hlt) h x hx

/-- From a function in a removed declaration on there is no dictionary. -/
def Undisturbed (sites : List Site) : Prop :=
  ∀ before site after, sites = before ++ site :: after → site.removed = true →
    ∀ x ∈ site :: after, x.dictionary = none

theorem undisturbed_cons (site : Site) (rest : List Site) :
    Undisturbed (site :: rest) ↔
      (site.removed = true → ∀ x ∈ site :: rest, x.dictionary = none) ∧ Undisturbed rest := by
  constructor
  · intro h
    refine ⟨h [] site rest rfl, fun before x after heq => ?_⟩
    exact h (site :: before) x after (by rw [heq, List.cons_append])
  · rintro ⟨hsite, hrest⟩ before x after heq
    cases before with
    | nil =>
      obtain ⟨rfl, rfl⟩ := List.cons.inj heq
      exact hsite
    | cons y before =>
      obtain ⟨-, rfl⟩ := List.cons.inj heq
      exact hrest before x after rfl

/-- The numbers are the same without the removed functions if no dictionary comes after one of
these. -/
theorem numbered_kept_iff (entered : Nat) (sites : List Site) :
    numbered entered (kept sites) = numbered entered sites ↔ Undisturbed sites := by
  induction sites generalizing entered with
  | nil =>
    refine iff_of_true rfl fun before site after heq => ?_
    cases before <;> cases heq
  | cons site rest ih =>
    rw [undisturbed_cons]
    obtain ⟨dictionary, removed⟩ := site
    cases removed with
    | false =>
      have hkept : kept (⟨dictionary, false⟩ :: rest) = ⟨dictionary, false⟩ :: kept rest := rfl
      rw [hkept, numbered, numbered, List.append_right_inj, ih]
      exact ⟨fun h => ⟨fun hremoved => absurd hremoved Bool.false_ne_true, h⟩, fun h => h.2⟩
    | true =>
      have hkept : kept (⟨dictionary, true⟩ :: rest) = kept rest := rfl
      rw [hkept, numbered]
      constructor
      · intro h
        -- with a dictionary here the list that is kept would be too short
        have hnone : dictionary = none := by
          cases dictionary with
          | none => rfl
          | some d =>
            have hlength := length_numbered_kept_le entered (entered + 1) rest
            rw [h] at hlength
            exact absurd hlength (Nat.not_succ_le_self _)
        subst hnone
        -- without one it still shifts the numbers of all that come behind
        have hrest := dictionary_eq_none_of_shifted (Nat.lt_succ_self entered) h
        refine ⟨fun _ => ?_, ?_⟩
        · simpa using hrest
        · rintro before x after rfl - y hy
          exact hrest y (List.mem_append_right _ hy)
      · rintro ⟨hall, -⟩
        have hrest : ∀ x ∈ rest, x.dictionary = none :=
          fun x hx => hall rfl x (List.mem_cons_of_mem _ hx)
        have hkeptNone : ∀ x ∈ kept rest, x.dictionary = none :=
          fun x hx => hrest x (List.mem_filter.1 hx).1
        obtain rfl : dictionary = none := hall rfl _ List.mem_cons_self
        rw [numbered_eq_nil _ hrest, numbered_eq_nil _ hkeptNone]
        rfl

end Site

open Site Detection

/-- The functions of a tree in the order of the search. Those in the first part of a list stand in a
declaration that is removed if the list has a dictionary, which `cut` says. -/
def Diagram.sites (removed cut : Bool) : Diagram → List Site
  | .nothing | .passed _ => []
  | .pair first rest => first.sites (removed || cut) false ++ rest.sites removed false
  | .expression _ parts | .statement _ parts | .clause _ parts => parts.sites removed false
  | .block _ parts => parts.sites removed cut
  | .function _ parts body =>
    let dictionary := body.statements?.bind Dictionary.capture?
    ⟨dictionary.map fun d => (d.name, d.entries.length), removed⟩ ::
      (parts.sites removed false ++ body.sites removed dictionary.isSome)

namespace Diagram

theorem length_sites (removed cut : Bool) (d : Diagram) :
    (d.sites removed cut).length = d.functions := by
  induction d generalizing removed cut with
  | nothing | passed _ => rfl
  | pair first rest ihFirst ihRest =>
    rw [sites, List.length_append, ihFirst, ihRest, functions]
  | expression _ parts ih | statement _ parts ih | clause _ parts ih => exact ih removed false
  | block _ parts ih => exact ih removed cut
  | function _ parts body ihParts ihBody =>
    rw [sites, List.length_cons, List.length_append, ihParts, ihBody, functions]

/-- In a removed declaration no function is kept. -/
theorem kept_sites_removed (cut : Bool) (d : Diagram) : kept (d.sites true cut) = [] := by
  induction d generalizing cut with
  | nothing | passed _ => rfl
  | pair first rest ihFirst ihRest =>
    rw [sites, kept, List.filter_append]
    exact List.append_eq_nil_iff.2 ⟨ihFirst false, ihRest false⟩
  | expression _ parts ih | statement _ parts ih | clause _ parts ih => exact ih false
  | block _ parts ih => exact ih cut
  | function _ parts body ihParts ihBody =>
    rw [sites, kept, List.filter_cons_of_neg (by simp), List.filter_append]
    exact List.append_eq_nil_iff.2 ⟨ihParts false, ihBody _⟩

/-- What is cut off is not kept. -/
theorem kept_sites_block (cut : Bool) (body : List Statement) :
    kept ((blockDiagram body).sites false cut) =
      kept ((blockDiagram (body.drop cut.toNat)).sites false false) := by
  cases cut with
  | false => rfl
  | true =>
    cases body with
    | nil => rfl
    | cons first rest =>
      show kept (first.diagram.sites true false ++ (statementsDiagram rest).sites false false) = _
      rw [kept, List.filter_append]
      have hfirst := kept_sites_removed false first.diagram
      rw [kept] at hfirst
      rw [hfirst, List.nil_append]
      cases rest with
      | nil => rfl
      | cons _ _ => rfl

end Diagram

/-- The scope, the name and the size of a dictionary that was found. -/
def Evidence.dictionary? : Evidence → Option (String × String × Nat)
  | .dictionary scope name entries => some (scope, name, entries)
  | _ => none

def Detection.foundDictionaries (d : Detection) : List (String × String × Nat) :=
  d.evidence.filterMap Evidence.dictionary?

/-- A dictionary by the label of its function. -/
def labelled (x : Nat × String × Nat) : String × String × Nat := (functionLabel x.1, x.2)

namespace Detection

theorem dictionaries_ofStatement (scope : String) (order : Option String) (s : Statement) :
    (ofStatement scope order s).filterMap Evidence.dictionary? = [] := by
  unfold ofStatement
  cases Dispatcher.cases? s <;> cases s.isEndlessLoop <;> rfl

/-- The dictionaries that a tree is evidence of are those of its sites, by their numbers. -/
theorem foundDictionaries_ofDiagram (removed cut : Bool) (scope : String) (entered : Nat)
    (d : Diagram) :
    (ofDiagram scope entered d).filterMap Evidence.dictionary? =
      (numbered entered (d.sites removed cut)).map labelled := by
  induction d generalizing removed cut scope entered with
  | nothing | passed _ => rfl
  | pair first rest ihFirst ihRest =>
    rw [ofDiagram, List.filterMap_append, Diagram.sites, numbered_append, List.map_append,
      Diagram.length_sites, ← ihFirst, ← ihRest]
  | expression _ parts ih | statement _ parts ih | clause _ parts ih =>
    exact ih removed false scope entered
  | block body parts ih =>
    have hbody : (ofStatements scope body).filterMap Evidence.dictionary? = [] := by
      rw [ofStatements, List.filterMap_flatMap]
      simp [dictionaries_ofStatement]
    rw [ofDiagram, List.filterMap_append, hbody, List.nil_append, ih removed cut scope entered]
    rfl
  | function _ parts body ihParts ihBody =>
    rw [ofDiagram, List.filterMap_append, List.filterMap_append, Diagram.sites, numbered,
      numbered_append, Diagram.length_sites, List.map_append, List.map_append, ← ihParts removed,
      ← ihBody removed, List.append_assoc]
    congr 1
    unfold ofFunction
    cases body.statements?.bind Dictionary.capture? <;> rfl

end Detection

/-- Detection finds the dictionaries of all sites. -/
theorem foundDictionaries_detect (p : Program) :
    (detect p).foundDictionaries = (numbered 0 (p.diagram.sites false false)).map labelled := by
  rw [foundDictionaries, evidence_detect, List.filterMap_append,
    foundDictionaries_ofDiagram false false]
  cases Prologue.find? p.body <;> rfl

namespace DictionaryInlining

/-- The event that tells of a dictionary by its scope, its name and its size. -/
def announcement (x : String × String × Nat) : Event where
  kind := .dictionaryIdentified
  scope := some x.1
  message := x.2.1 ++ " (" ++ toString x.2.2 ++ " entries)"
  pass := some passName

/-- The scope, the name and the size can be read off the event. -/
theorem announcement_injective {x y : String × String × Nat}
    (h : announcement x = announcement y) : x = y := by
  obtain ⟨scope, name, entries⟩ := x
  obtain ⟨scope', name', entries'⟩ := y
  have hscope : scope = scope' := Option.some.inj (congrArg Event.scope h)
  have hmessage : name ++ " (" ++ toString entries ++ " entries)" =
      name' ++ " (" ++ toString entries' ++ " entries)" := congrArg Event.message h
  have hreversed := congrArg (fun s : String => s.toList.reverse) hmessage
  simp only [String.toList_append, List.reverse_append, List.append_right_inj] at hreversed
  have hdigits : ∀ n : Nat, '(' ∉ (toString n).toList.reverse := by
    intro n hmem
    have hdigit := Nat.isDigit_of_mem_toDigits (b := 10) (n := n) (by decide) (by decide)
      (by simpa using hmem)
    exact absurd hdigit (by decide)
  obtain ⟨hentries, hname⟩ := append_cons_inj (hdigits entries) (hdigits entries') hreversed
  have hname' : name = name' := String.toList_inj.1 (by simpa using hname)
  have hentries' : entries = entries' := Text.toDigits_injective (by simpa using hentries)
  rw [hscope, hname', hentries']

/-- The dictionaries that the pass has told of. -/
def identified (log : EventLog) : List Event := log.filter fun e => e.kind == .dictionaryIdentified

theorem Remarks.identified_eq {s t : State} (h : Remarks s t) :
    identified t.progress.events = identified s.progress.events := by
  obtain ⟨added, hevents, hadded⟩ := h
  have hnone : identified added = [] := by
    rw [identified, List.filter_eq_nil_iff]
    intro e he
    simpa using (hadded e he).1
  rw [hevents, identified, List.filter_append]
  exact (congrArg (_ ++ ·) hnone).trans (List.append_nil _)

/-- Entering a function announces its dictionary. -/
theorem identified_enterFunction (params : List Expression) (body : Option (List Statement))
    (s : State) :
    identified ((enterFunction params body).run s).2.progress.events =
      identified s.progress.events ++ ((body.bind Dictionary.capture?).map fun d =>
        announcement (s.progress.scopes.enter.label, d.name, d.entries.length)).toList := by
  unfold enterFunction
  cases body.bind Dictionary.capture? with
  | none => exact (List.append_nil _).symm
  | some d =>
    show identified (_ ++ [_] ++ [_]) = _
    rw [identified, List.filter_append, List.filter_append]
    exact List.append_nil _

/-- The pass has gone through a tree, and told of the dictionaries of the functions in it that are
kept. -/
structure Identifies (d : Diagram) (s t : State) : Prop where
  scopes : t.progress.scopes = ⟨s.progress.scopes.around,
    s.progress.scopes.entered + (kept (d.sites false false)).length⟩
  events : identified t.progress.events = identified s.progress.events ++
    (numbered s.progress.scopes.entered (kept (d.sites false false))).map (announcement ∘ labelled)

namespace Identifies

variable {a b c d d' : Diagram} {s t u w : State}

theorem nothing (s : State) : Identifies .nothing s s := ⟨rfl, (List.append_nil _).symm⟩

theorem pair (h : Identifies a s t) (h' : Identifies b t u) : Identifies (.pair a b) s u := by
  have hkept : kept ((Diagram.pair a b).sites false false) =
      kept (a.sites false false) ++ kept (b.sites false false) := List.filter_append _ _
  constructor
  · rw [h'.scopes, h.scopes, hkept, List.length_append, Nat.add_assoc]
  · rw [h'.events, h.events, h.scopes, hkept, numbered_append, List.map_append, List.append_assoc]

theorem parts (h : Diagram.InTurn (fun d _ => Identifies d) d d' s t) : Identifies d s t := by
  induction h with
  | nothing s => exact nothing s
  | pair first _ ih => exact first.pair ih

/-- A function with the diagram `c` in the place of its body, of which `b` is walked. -/
theorem function {params : List Expression} {body : Option (List Statement)} {cut : Nat}
    (henter : (enterFunction params body).run s = (cut, t)) (hc : c.statements? = body)
    (hkept : kept (c.sites false (body.bind Dictionary.capture?).isSome) =
      kept (b.sites false false))
    (hparams : Identifies a t u) (hbody : Identifies b u w) :
    Identifies (.function params a c) s (leaveFunction.run w).2 := by
  obtain ⟨t', ht', hscopes, -, -⟩ := run_enterFunction params body s
  obtain ⟨rfl, rfl⟩ := Prod.mk.inj (ht'.symm.trans henter)
  have hevents := identified_enterFunction params body s
  rw [ht'] at hevents
  have hsites : kept ((Diagram.function params a c).sites false false) =
      ⟨(body.bind Dictionary.capture?).map fun d => (d.name, d.entries.length), false⟩ ::
        (kept (a.sites false false) ++ kept (b.sites false false)) := by
    rw [Diagram.sites, hc, kept, List.filter_cons_of_pos rfl, List.filter_append, ← hkept]
    rfl
  constructor
  · rw [(run_leaveFunction_warns w).1, hbody.scopes, hparams.scopes, hscopes, hsites]
    simp only [Scopes.leave, Scopes.enter, List.tail_cons, List.length_cons, List.length_append]
    congr 1
    omega
  · rw [(remarks_leaveFunction w).identified_eq, hbody.events, hparams.events, hparams.scopes,
      hscopes, hsites, numbered, numbered_append, List.map_append, List.map_append]
    show identified t'.progress.events ++ _ ++ _ = _
    rw [show identified t'.progress.events = _ from hevents]
    simp only [List.append_assoc]
    congr 2
    cases body.bind Dictionary.capture? <;> rfl

end Identifies

/-- Every call of the pass identifies what is in its tree. -/
theorem upholds_identifies : visitor.Upholds fun d _ => Identifies d where
  nothing := Identifies.nothing
  passed _ s := ⟨rfl, (List.append_nil _).symm⟩
  clause hparts := ⟨(Identifies.parts hparts).scopes, (Identifies.parts hparts).events⟩
  statement hparts := ⟨(Identifies.parts hparts).scopes, (Identifies.parts hparts).events⟩
  expression := by
    intro e root a a' s t he hparts
    obtain ⟨hscopes, hevents⟩ := Identifies.parts hparts
    exact ⟨(logs_leaveExpression e t).1.trans hscopes,
      (remarks_leaveExpression e t).identified_eq.trans hevents⟩
  settle henter := by cases henter
  descend := by
    intro body body' s t u henter hparts
    cases henter
    exact ⟨(Identifies.parts hparts).scopes, (Identifies.parts hparts).events⟩
  function := by
    intro params params' body body' cut s t u w henter hparams hbody
    obtain ⟨t', ht', -⟩ := run_enterFunction params (some body) s
    obtain ⟨rfl, rfl⟩ := Prod.mk.inj (ht'.symm.trans henter)
    exact .function henter rfl (Diagram.kept_sites_block _ body) (.parts hparams) hbody
  concise := by
    intro params params' e e' cut s t u w henter hparams hbody
    have hconcise : (enterFunction params none).run s = (cut, t) := henter
    refine .function hconcise ?_ rfl (.parts hparams) hbody
    obtain ⟨root, parts, he⟩ := e.exists_diagram
    rw [he]
    rfl

/-- The pass tells of the dictionaries of all functions but those in removed declarations, and
numbers only these functions. -/
theorem identified_run (p : Program) :
    identified (run p).events =
      ((numbered 0 (kept (p.diagram.sites false false))).map labelled).map announcement := by
  rw [List.map_map]
  exact (upholds_identifies.carries_program p {}).events

end DictionaryInlining

/-- A label tells the number of its function. -/
theorem labelled_injective {x y : Nat × String × Nat} (h : labelled x = labelled y) : x = y := by
  obtain ⟨n, d⟩ := x
  obtain ⟨m, d'⟩ := y
  obtain ⟨hlabel, rfl⟩ := Prod.mk.inj h
  have hdigits : (functionLabel n).toList = (functionLabel m).toList :=
    congrArg String.toList hlabel
  simp only [functionLabel, String.toList_append, List.append_right_inj] at hdigits
  obtain rfl : n = m := Text.toDigits_injective (by simpa using hdigits)
  rfl

/-- Detection and the pass tell of the same dictionaries by the same labels just if no dictionary
comes after a function that stands in the declaration of one. -/
theorem identified_eq_found_iff (p : Program) :
    DictionaryInlining.identified (dictionaryInlining.run p).events =
        (detect p).foundDictionaries.map DictionaryInlining.announcement ↔
      Undisturbed (p.diagram.sites false false) := by
  have hrun : DictionaryInlining.identified (dictionaryInlining.run p).events = _ :=
    DictionaryInlining.identified_run p
  rw [hrun, foundDictionaries_detect, ← numbered_kept_iff 0]
  have hinjective : Function.Injective (DictionaryInlining.announcement ∘ labelled) :=
    fun _ _ h => labelled_injective (DictionaryInlining.announcement_injective h)
  rw [List.map_map, List.map_map]
  exact (List.map_injective_iff.2 hinjective).eq_iff

/-- Two functions that start with a dictionary. In the first dictionary stands a function. -/
def twoDictionaries : Program :=
  ⟨[.function ⟨some "f", [],
      [.declaration ⟨[⟨.identifier "d", some (.object [.property (.identifier "k")
          (.function ⟨none, [.identifier "a"], [.returns (some (.identifier "a"))], false, false⟩)
          .init false false false])⟩], .var⟩,
        .empty], false, false⟩,
    .function ⟨some "h", [],
      [.declaration ⟨[⟨.identifier "e", some (.object [.property (.identifier "n")
          (.literal ⟨.null, none, none, none⟩) .init false false false])⟩], .var⟩,
        .empty], false, false⟩], .script⟩

/-- The second dictionary is in `function#3` for detection and in `function#2` for the pass. -/
theorem identified_twoDictionaries_ne_found :
    (detect twoDictionaries).foundDictionaries = [("function#1", "d", 1), ("function#3", "e", 1)] ∧
      DictionaryInlining.identified (dictionaryInlining.run twoDictionaries).events =
        [("function#1", "d", 1), ("function#2", "e", 1)].map DictionaryInlining.announcement ∧
      DictionaryInlining.identified (dictionaryInlining.run twoDictionaries).events ≠
        (detect twoDictionaries).foundDictionaries.map DictionaryInlining.announcement := by
  refine ⟨by decide, by decide, ?_⟩
  rw [ne_eq, identified_eq_found_iff]
  intro h
  have hsecond : (⟨some ("e", 1), false⟩ : Site) ∈ [⟨none, true⟩, ⟨some ("e", 1), false⟩] := by
    decide
  have hnone := h [⟨some ("d", 1), false⟩] ⟨none, true⟩ [⟨some ("e", 1), false⟩] (by decide) rfl _
    hsecond
  cases hnone

end Untangle
