import Untangle.Pass.Dispatcher
import Untangle.Pass.LoopExit
import Untangle.Proofs.Detection.Evidence
import Untangle.Proofs.Pass.Dangling
import Untangle.Proofs.Walk.Nesting

/-!
# Scopes and frames along a walk

A pass keeps track of its scope by the two calls for a function. So its scope has
an entry for each function around the place where it is, and the stack of frames
of the pass that inlines dictionaries has one more, which stays.
-/
namespace Untangle

variable {σ : Type}

/-- The scope changes with the two calls for a function and with nothing else. -/
structure Visitor.Scoped (v : Visitor σ) (scopes : σ → Scopes) : Prop where
  enterStatements : ∀ body s, scopes ((v.enterStatements body).run s).2 = scopes s
  leaveStatements : ∀ body s, scopes ((v.leaveStatements body).run s).2 = scopes s
  leaveExpression : ∀ e s, scopes ((v.leaveExpression e).run s).2 = scopes s
  enterFunction : ∀ params body s,
    scopes ((v.enterFunction params body).run s).2 = (scopes s).enter
  leaveFunction : ∀ s, scopes (v.leaveFunction.run s).2 = (scopes s).leave

namespace Visitor.Scoped

variable {v : Visitor σ} {scopes : σ → Scopes}

/-- Each call keeps one entry of the scope for each function around. -/
theorem maintains (h : v.Scoped scopes) :
    v.hooks.Maintains fun around s => (scopes s).around.length = around.length where
  enterStatements := by
    intro around s body hs
    rwa [snd_enterStatements, h.enterStatements]
  leaveStatements := by
    intro around s body hs
    exact (congrArg (·.around.length) (h.leaveStatements body s)).trans hs
  leaveExpression := by
    intro around s e hs
    exact (congrArg (·.around.length) (h.leaveExpression e s)).trans hs
  enterFunction := by
    intro around s f hs
    have henter : scopes ((v.hooks.enterFunction f).run s).2 = (scopes s).enter :=
      h.enterFunction f.params f.body s
    rw [henter]
    exact congrArg (· + 1) hs
  leaveFunction := by
    intro around s f hs
    have hleave : scopes (v.hooks.leaveFunction.run s).2 = (scopes s).leave := h.leaveFunction s
    rw [hleave, Scopes.leave, List.length_tail, hs]
    rfl

end Visitor.Scoped

/-- At every call of the walk over a program, the scope has an entry for each function around the
call; after the walk it is that of the program. -/
structure Visitor.Nests (v : Visitor σ) (scopes : σ → Scopes) (p : Program) (s : σ) : Prop where
  before : ∀ c ∈ v.placed p s, (scopes c.before).around.length = c.around.length
  after : ∀ c ∈ v.placed p s, (scopes c.after).around.length = (c.call.opened c.around).length
  around : (scopes ((v.program p).run s).2).around = []
  label : (scopes ((v.program p).run s).2).label = "program"

/-- A pass that keeps track by the two calls for a function has the right scope everywhere. -/
theorem Visitor.Scoped.nests {v : Visitor σ} {scopes : σ → Scopes} (h : v.Scoped scopes)
    (p : Program) {s : σ} (hs : (scopes s).around = []) : v.Nests scopes p s := by
  obtain ⟨hlast, hcalls⟩ := h.maintains.walks (v.walks_placed p s) (congrArg List.length hs)
  have haround := List.eq_nil_of_length_eq_zero hlast
  refine ⟨fun c hc => (hcalls c hc).1, fun c hc => (hcalls c hc).2, haround, ?_⟩
  rw [Scopes.label, haround]

/-- A visitor that leaves the calls for functions to the one that keeps track of the scope. -/
theorem Progress.scoped_of_scope {v : Visitor Progress}
    (hf : v.enterFunction = scopeVisitor.enterFunction)
    (hl : v.leaveFunction = scopeVisitor.leaveFunction)
    (henter : ∀ body s, ((v.enterStatements body).run s).2.scopes = s.scopes)
    (hleave : ∀ body s, ((v.leaveStatements body).run s).2.scopes = s.scopes)
    (hexpr : ∀ e s, ((v.leaveExpression e).run s).2.scopes = s.scopes) :
    v.Scoped Progress.scopes where
  enterStatements := henter
  leaveStatements := hleave
  leaveExpression := hexpr
  enterFunction _ _ _ := by rw [hf]; rfl
  leaveFunction _ := by rw [hl]; rfl

theorem Unflattening.visitor_scoped : visitor.Scoped Progress.scopes := by
  refine Progress.scoped_of_scope rfl rfl (fun body s => ?_) (fun _ _ => rfl) (fun _ _ => rfl)
  show ((enterStatements body).run s).2.scopes = s.scopes
  unfold enterStatements
  cases Dispatcher.flattened? body <;> rfl

namespace LoopRebuilding

theorem scopes_rebuild (location : Nat) (body : List Statement) (s : Progress) :
    ((rebuild location body).run s).2.scopes = s.scopes := by
  induction body generalizing location s with
  | nil => rfl
  | cons first rest ih =>
    unfold rebuild
    split
    · exact ih (location + 1) s
    · exact ih (location + 1) _
    · split
      · exact ih _ _
      · exact ih (location + 1) s

theorem visitor_scoped : visitor.Scoped Progress.scopes :=
  Progress.scoped_of_scope rfl rfl (fun _ _ => rfl) (scopes_rebuild 0) (fun _ _ => rfl)

end LoopRebuilding

namespace StringDecoding

theorem scopes_leaveExpression (prologue : Prologue) (table : StringTable) (normalizing : Bool)
    (e : Expression) (s : Progress) :
    ((leaveExpression prologue table normalizing e).run s).2.scopes = s.scopes := by
  rcases leaves prologue table normalizing e s with hkept | ⟨-, kind, message, -, hcounted⟩
  · rw [hkept]
  · rw [hcounted]
    rfl

theorem visitor_scoped (prologue : Prologue) (table : StringTable) (normalizing : Bool) :
    (visitor prologue table normalizing).Scoped Progress.scopes :=
  Progress.scoped_of_scope rfl rfl (fun _ _ => rfl) (fun _ _ => rfl)
    (scopes_leaveExpression prologue table normalizing)

end StringDecoding

theorem Detection.visitor_scoped : visitor.Scoped Search.scopes where
  enterStatements _ _ := rfl
  leaveStatements _ _ := rfl
  leaveExpression _ _ := rfl
  enterFunction params body s :=
    congrArg (fun r : Nat × Search => r.2.scopes) (run_enterFunction params body s)
  leaveFunction _ := rfl

namespace DictionaryInlining

/-- The dictionary pass keeps its scope along with its frames. -/
theorem visitor_scoped : visitor.Scoped fun s => s.progress.scopes where
  enterStatements _ _ := rfl
  leaveStatements _ _ := rfl
  leaveExpression e s := (logs_leaveExpression e s).1
  enterFunction params body s := by
    obtain ⟨t, ht, hscopes, -, -⟩ := run_enterFunction params body s
    have hrun : ((visitor.enterFunction params body).run s).2 = t := congrArg Prod.snd ht
    rw [hrun, hscopes]
  leaveFunction s := (run_leaveFunction_warns s).1

/-- What the functions around a place bind, and that nothing is bound outside of them. -/
def around (fs : List Entered) : List Binder :=
  fs.map (fun f => Binder.ofFunction f.params f.body) ++ [⟨none, []⟩]

/-- The frames are those of the functions around, and one that binds nothing. -/
theorem maintains_binders : visitor.hooks.Maintains fun fs s => binders s = around fs where
  enterStatements _ hs := hs
  leaveStatements _ hs := hs
  leaveExpression {_ s} e hs := (leaves e s).binders_eq.trans hs
  enterFunction {_ s} f hs := by
    have henter := binders_enterFunction f.params f.body s
    rw [hs] at henter
    exact henter
  leaveFunction {_ s} f hs := by
    have hleave := binders_leaveFunction s
    rw [hs] at hleave
    exact hleave

/-- There is one frame for each function around, and one for the program. -/
theorem length_frames {fs : List Entered} {s : State} (hs : binders s = around fs) :
    s.frames.length = fs.length + 1 := by
  have hlength := congrArg List.length hs
  rwa [binders, around, List.length_map, List.length_append, List.length_map] at hlength

theorem eq_root {s : State} (hs : binders s = around []) : s.frames = [{}] := by
  obtain ⟨f, hframes, hf⟩ := List.map_eq_singleton_iff.1 hs
  obtain ⟨dictionary, params⟩ := f
  obtain ⟨hdictionary, rfl⟩ := Binder.mk.inj hf
  obtain rfl : dictionary = none := Option.map_eq_none_iff.1 hdictionary
  exact hframes

end DictionaryInlining

/-- The calls for functions are balanced, and every call is made with just the functions open that
stand around its place: in any walk by the rules, so in the walk of any visitor. In every pass the
scope has an entry for each of these functions, and the frames of dictionaries are one more, of
which the outermost is never given up. -/
theorem calls_nest_in_functions :
    (∀ {σ : Type} (h : Hooks σ) (p : Program) {d : Diagram} {s t : σ} {cs : List (Placed σ)},
      h.Walks [] p.diagram d s t cs →
        Call.balanced 0 (cs.map (·.call)) = true ∧ Step.place [] (cs.map (·.toStep)) = cs) ∧
    (∀ {σ : Type} (v : Visitor σ) (p : Program) (s : σ),
      v.hooks.Walks [] p.diagram ((v.program p).run s).1.diagram s ((v.program p).run s).2
          (Step.place [] (v.steps p s)) ∧
        Call.balanced 0 ((v.steps p s).map (·.call)) = true) ∧
    ∀ p : Program,
      (∀ prologue table normalizing,
        (StringDecoding.visitor prologue table normalizing).Nests Progress.scopes p {}) ∧
      Unflattening.visitor.Nests Progress.scopes p {} ∧
      LoopRebuilding.visitor.Nests Progress.scopes p {} ∧
      Detection.visitor.Nests Detection.Search.scopes p {} ∧
      DictionaryInlining.visitor.Nests (·.progress.scopes) p {} ∧
      (∀ c ∈ DictionaryInlining.visitor.placed p {},
        c.before.frames.length = c.around.length + 1 ∧
          (c.call = .leaveFunction → 2 ≤ c.before.frames.length)) ∧
      ((DictionaryInlining.visitor.program p).run {}).2.frames = [{}] := by
  refine ⟨fun h p d s t cs hw => ⟨hw.balanced_eq, hw.place_eq⟩, fun v p s => ?_, fun p => ?_⟩
  · refine ⟨v.walks_placed p s, ?_⟩
    obtain ⟨cs, hwalks, hsteps⟩ := v.exists_walks p s
    rw [← hsteps, List.map_map]
    exact hwalks.balanced_eq
  · have hwalks := DictionaryInlining.visitor.walks_placed p {}
    obtain ⟨hlast, hcalls⟩ := DictionaryInlining.maintains_binders.walks hwalks rfl
    refine ⟨fun prologue table normalizing => ?_, Unflattening.visitor_scoped.nests p rfl,
      LoopRebuilding.visitor_scoped.nests p rfl, Detection.visitor_scoped.nests p rfl,
      DictionaryInlining.visitor_scoped.nests p rfl, fun c hc => ?_,
      DictionaryInlining.eq_root hlast⟩
    · exact (StringDecoding.visitor_scoped prologue table normalizing).nests p rfl
    · have hlength := DictionaryInlining.length_frames (hcalls c hc).1
      refine ⟨hlength, fun hleave => ?_⟩
      have hne := List.length_pos_iff.2 (hwalks.nested.leaves c hc hleave)
      omega

/-- Counts the functions, and puts another function in the place of the body of the first one. -/
def substituting : Hooks Nat where
  enterStatements body := pure (.walk, body)
  leaveStatements := pure
  enterFunction f := do
    let n ← get
    set (n + 1)
    return if n = 0 then some [.function ⟨none, [], [], false, false⟩] else f.body
  leaveFunction := pure ()
  leaveExpression := pure

/-- The body that is put in the place of another one is walked in its stead. -/
theorem substituting_function {around : List Entered} {body body' walked : List Statement}
    {n m : Nat} {cs : List (Placed Nat)}
    (henter : (substituting.enterFunction ⟨[], some body⟩).run n = (some body', n + 1))
    (hinside : substituting.Walks (⟨[], some body⟩ :: around) (statementsDiagram body')
      (statementsDiagram walked) (n + 1) m cs) :
    ∃ cs', substituting.Walks around (statementsDiagram [.function ⟨none, [], body, false, false⟩])
        (statementsDiagram [.function ⟨none, [], walked, false, false⟩]) n m cs' ∧
      cs'.map (·.around.length) = around.length :: (around.length + 1) ::
        cs.map (·.around.length) ++ [around.length + 1, around.length + 1] := by
  have hbody : substituting.Walks (⟨[], some body⟩ :: around) (blockDiagram body')
      (blockDiagram walked) (n + 1) m _ := .walked rfl hinside rfl
  have hfunction : substituting.Walks around (functionDiagram [] body) (functionDiagram [] walked)
      n m _ := .function rfl henter (.nothing _ _) hbody rfl
  refine ⟨_, .pair (.statement _ (.pair hfunction (.nothing _ _))) (.nothing _ _), ?_⟩
  simp

/-- A function that was put in the place of a body is entered and left inside of the first one. -/
theorem calls_nest_in_substituted :
    ∃ cs, substituting.Walks []
        (Program.diagram ⟨[.function ⟨none, [], [], false, false⟩], .script⟩)
        (Program.diagram ⟨[.function ⟨none, [], [.function ⟨none, [], [], false, false⟩], false,
          false⟩], .script⟩) 0 2 cs ∧
      cs.map (·.around.length) = [0, 0, 1, 1, 2, 2, 2, 1, 1, 0] ∧
      Call.balanced 0 (cs.map (·.call)) = true ∧ Step.place [] (cs.map (·.toStep)) = cs := by
  have hempty : substituting.Walks [⟨[], some []⟩, ⟨[], some []⟩] (statementsDiagram [])
      (statementsDiagram []) 2 2 [] := .nothing _ _
  obtain ⟨inner, hinner, hdepths⟩ := substituting_function rfl hempty
  obtain ⟨outer, houter, hdepths'⟩ := substituting_function rfl hinner
  have hwalks : substituting.Walks [] _ _ 0 2 _ := .walked rfl houter rfl
  refine ⟨_, hwalks, ?_, calls_nest_in_functions.1 substituting ⟨_, .script⟩ hwalks⟩
  simp [hdepths, hdepths']

end Untangle
