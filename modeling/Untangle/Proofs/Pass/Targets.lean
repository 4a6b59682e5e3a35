import Untangle.Proofs.Pass.Replacement
import Untangle.Proofs.Walk.Relation

/-!
# Targets of assignments

What stands on the left of an assignment, under `++` or `--`, or at the head of
a loop over the members of something is written to. Two passes put literals in
the place of accesses, and do not ask whether these are read or written. So a
target can become a literal, and nothing else that cannot be written to. If no
target is an access that the pass knows the value of, then it does not.
-/
namespace Untangle

/-- Whether the first part of the expression is written to. -/
def ExpressionRoot.assigns : ExpressionRoot → Bool
  | .assignment _ | .update _ _ => true
  | _ => false

/-- Whether the first part of the statement is written to, unless it declares variables. -/
def StatementRoot.assigns : StatementRoot → Bool
  | .forIn | .forOf _ => true
  | _ => false

/-- Names, members and patterns can be written to. Literals cannot, but may be allowed for. -/
def ExpressionRoot.isTarget (literals : Bool) : ExpressionRoot → Bool
  | .identifier _ | .member _ _ => true
  | .assignmentPattern | .arrayPattern | .objectPattern | .rest => true
  | .literal _ => literals
  | _ => false

namespace Diagram

def isTarget (literals : Bool) : Diagram → Bool
  | expression root _ => root.isTarget literals
  | _ => true

/-- A node that is neither an expression nor passed over. -/
def isPlain : Diagram → Bool
  | expression _ _ | passed _ => false
  | _ => true

/-- Asks something of the first part. -/
def leads (ok : Diagram → Bool) : Diagram → Bool
  | pair first _ => ok first
  | _ => true

/-- Everything that is written to can be written to. With `literals` it may also be a literal. -/
def targets (literals : Bool) : Diagram → Bool
  | nothing => true
  | pair first rest => first.targets literals && rest.targets literals
  | passed name => name.targets literals
  | expression root parts =>
    (!root.assigns || parts.leads (isTarget literals)) && parts.targets literals
  | statement root parts =>
    (!root.assigns || parts.leads (isTarget literals)) && parts.targets literals
  | clause _ parts | block _ parts => parts.targets literals
  | function _ params body => params.targets literals && body.targets literals

theorem leads_of_strict {parts : Diagram} (h : parts.leads (isTarget false) = true) :
    parts.leads (isTarget true) = true := by
  rcases parts with _ | ⟨first, rest⟩ | _
  case pair =>
    rcases first with _ | _ | _ | ⟨root, parts⟩
    case expression => cases root <;> first | rfl | cases h
    all_goals rfl
  all_goals rfl

theorem assigning_of_strict {assigns : Bool} {parts : Diagram}
    (h : (!assigns || parts.leads (isTarget false)) = true) :
    (!assigns || parts.leads (isTarget true)) = true := by
  cases assigns with
  | false => rfl
  | true => exact leads_of_strict h

/-- Targets that can be written to without literals can be written to with them. -/
theorem targets_of_strict {d : Diagram} (h : d.targets false = true) : d.targets true = true := by
  induction d with
  | nothing => rfl
  | pair first rest ihFirst ihRest =>
    obtain ⟨hfirst, hrest⟩ := Bool.and_eq_true_iff.1 h
    exact Bool.and_eq_true_iff.2 ⟨ihFirst hfirst, ihRest hrest⟩
  | function params parts body ihParts ihBody =>
    obtain ⟨hparts, hbody⟩ := Bool.and_eq_true_iff.1 h
    exact Bool.and_eq_true_iff.2 ⟨ihParts hparts, ihBody hbody⟩
  | expression root parts ih | statement root parts ih =>
    obtain ⟨hleads, hparts⟩ := Bool.and_eq_true_iff.1 h
    exact Bool.and_eq_true_iff.2 ⟨assigning_of_strict hleads, ih hparts⟩
  | passed name ih => exact ih h
  | clause root parts ih | block body parts ih => exact ih h

/-- Something is asked of every node and every statement of a list. -/
theorem statements_drop {f : Diagram → Bool} (hnothing : f .nothing = true)
    (hpair : ∀ a b, f (.pair a b) = (f a && f b)) (body : List Statement) (n : Nat)
    (h : f (statementsDiagram body) = true) : f (statementsDiagram (body.drop n)) = true := by
  induction body generalizing n with
  | nil =>
    rw [List.drop_nil]
    exact hnothing
  | cons s rest ih =>
    cases n with
    | zero => exact h
    | succ n =>
      have hcons : f (statementsDiagram (s :: rest)) =
          (f s.diagram && f (statementsDiagram rest)) := hpair _ _
      rw [hcons] at h
      exact ih n (Bool.and_eq_true_iff.1 h).2

end Diagram

def Program.targets (literals : Bool) (p : Program) : Bool := p.diagram.targets literals

/-- How a pass turns expressions into literals: what it knows of the functions around, and the
literal that it puts in the place of an expression. -/
structure Folding (β : Type) where
  enter : β → List Expression → Diagram → β
  value? : β → Diagram → Option Literal
  value?_literal : ∀ b l parts, value? b (.expression (.literal l) parts) = some l

namespace Folding

variable {β σ : Type} {F : Folding β} {clean : β → Prop} {env : σ → β} {literals : Bool}

/-- No target is turned into a literal. -/
def spares (F : Folding β) (b : β) : Diagram → Bool
  | .nothing | .passed _ => true
  | .pair first rest => F.spares b first && F.spares b rest
  | .expression root parts =>
    (!root.assigns || parts.leads fun d => (F.value? b d).isNone) && F.spares b parts
  | .statement root parts =>
    (!root.assigns || parts.leads fun d => (F.value? b d).isNone) && F.spares b parts
  | .clause _ parts | .block _ parts => F.spares b parts
  | .function params parts body =>
    F.spares (F.enter b params body) parts && F.spares (F.enter b params body) body

/-- Targets stay targets, if literals are allowed for or no target is turned into one. A name, and a
name that is passed over, was there before, and a literal was known. -/
structure Retargets (F : Folding β) (clean : β → Prop) (env : σ → β) (literals : Bool)
    (d d' : Diagram) (s t : σ) : Prop where
  known : env t = env s
  targets : clean (env s) → d.targets literals = true →
    literals = true ∨ F.spares (env s) d = true → d'.targets literals = true
  target : d.isTarget literals = true → literals = true ∨ F.value? (env s) d = none →
    d'.isTarget literals = true
  name : ∀ {name parts}, d' = .expression (.identifier name) parts → d = d'
  passed : ∀ {name}, d' = .passed name → d = d'
  literal : ∀ {l parts}, d' = .expression (.literal l) parts → F.value? (env s) d = some l

variable {a a' b b' d d' : Diagram} {s t u : σ}

theorem and_spares {p q : Bool} (h : literals = true ∨ (p && q) = true) :
    (literals = true ∨ p = true) ∧ (literals = true ∨ q = true) := by
  rcases h with h | h
  · exact ⟨.inl h, .inl h⟩
  · obtain ⟨hp, hq⟩ := Bool.and_eq_true_iff.1 h
    exact ⟨.inr hp, .inr hq⟩

namespace Retargets

/-- A node that is no expression retargets if its targets stay. -/
theorem plain (hd' : d'.isPlain = true) (hknown : env t = env s)
    (htargets : clean (env s) → d.targets literals = true →
      literals = true ∨ F.spares (env s) d = true → d'.targets literals = true) :
    F.Retargets clean env literals d d' s t where
  known := hknown
  targets := htargets
  target _ _ := by
    cases d' with
    | expression root parts => cases hd'
    | _ => rfl
  name he := by
    rw [he] at hd'
    cases hd'
  passed he := by
    rw [he] at hd'
    cases hd'
  literal he := by
    rw [he] at hd'
    cases hd'

theorem known_parts (h : Diagram.InTurn (F.Retargets clean env literals) a a' s t) :
    env t = env s := by
  induction h with
  | nothing => rfl
  | pair first _ ih => exact ih.trans first.known

theorem targets_parts (h : Diagram.InTurn (F.Retargets clean env literals) a a' s t) :
    clean (env s) → a.targets literals = true → literals = true ∨ F.spares (env s) a = true →
      a'.targets literals = true := by
  induction h with
  | nothing => exact fun _ h _ => h
  | pair first _ ih =>
    intro hclean htargets hspares
    obtain ⟨hfirst, hrest⟩ := Bool.and_eq_true_iff.1 htargets
    obtain ⟨hfirst', hrest'⟩ := and_spares hspares
    rw [first.known] at ih
    exact Bool.and_eq_true_iff.2 ⟨first.targets hclean hfirst hfirst', ih hclean hrest hrest'⟩

/-- The parts of a node of which the first may be written to. -/
theorem assigning (assigns : Bool) (h : Diagram.InTurn (F.Retargets clean env literals) a a' s t)
    (hclean : clean (env s))
    (htargets : ((!assigns || a.leads (Diagram.isTarget literals)) && a.targets literals) = true)
    (hspares : literals = true ∨
      ((!assigns || a.leads fun d => (F.value? (env s) d).isNone) && F.spares (env s) a) = true) :
    ((!assigns || a'.leads (Diagram.isTarget literals)) && a'.targets literals) = true := by
  obtain ⟨hleads, hparts⟩ := Bool.and_eq_true_iff.1 htargets
  obtain ⟨hleads', hparts'⟩ := and_spares hspares
  refine Bool.and_eq_true_iff.2 ⟨?_, targets_parts h hclean hparts hparts'⟩
  cases assigns with
  | false => rfl
  | true =>
    cases h with
    | nothing => rfl
    | pair first _ => exact first.target hleads (hleads'.imp_right Option.isNone_iff_eq_none.1)

/-- An expression that stays as it is. -/
theorem kept {e : Expression} {root : ExpressionRoot} (he : e.diagram = .expression root a')
    (h : Diagram.InTurn (F.Retargets clean env literals) a a' s t) (hu : env u = env t) :
    F.Retargets clean env literals (.expression root a) e.diagram s u := by
  rw [he]
  refine
    { known := hu.trans (known_parts h)
      targets := assigning root.assigns h
      target := fun htarget _ => htarget
      name := fun {name _} heq => ?_
      passed := fun heq => by cases heq
      literal := fun heq => ?_ }
  · obtain ⟨rfl, -⟩ := Diagram.expression.inj heq
    obtain rfl := Expression.eq_identifier he
    cases he
    cases h
    rfl
  · obtain ⟨rfl, -⟩ := Diagram.expression.inj heq
    exact F.value?_literal _ _ _

/-- An expression that a literal takes the place of. -/
theorem folded {root : ExpressionRoot} {l : Literal} (hu : env u = env s)
    (hvalue : F.value? (env s) (.expression root a) = some l) :
    F.Retargets clean env literals (.expression root a) (Expression.literal l).diagram s u where
  known := hu
  targets _ _ _ := rfl
  target htarget hspares := by
    rcases hspares with h | h
    · exact h
    · rw [hvalue] at h
      cases h
  name he := by cases he
  passed he := by cases he
  literal he := by
    cases he
    exact hvalue

/-- A function, of whose body the walk may have cut something off. -/
theorem function {params params' : List Expression} {w w' : σ}
    (ht : env t = F.enter (env s) params d)
    (hparams : Diagram.InTurn (F.Retargets clean env literals) a a' t u)
    (hbody : F.Retargets clean env literals b b' u w) (hback : env w' = env s)
    (hclean : clean (env s) → d.targets literals = true → clean (F.enter (env s) params d))
    (hcut : d.targets literals = true → b.targets literals = true)
    (hcut' : F.spares (env u) d = true → F.spares (env u) b = true) :
    F.Retargets clean env literals (.function params a d) (.function params' a' b') s w' := by
  refine .plain rfl hback ?_
  intro hclear htargets hspares
  obtain ⟨hp, hb⟩ := Bool.and_eq_true_iff.1 htargets
  obtain ⟨hp', hb'⟩ := and_spares hspares
  have hinner := hclean hclear hb
  rw [← ht] at hinner hp' hb'
  refine Bool.and_eq_true_iff.2 ⟨targets_parts hparams hinner hp hp', ?_⟩
  rw [← known_parts hparams] at hinner hb'
  exact hbody.targets hinner (hcut hb) (hb'.imp_right hcut')

end Retargets

/-- What is asked of a pass: it walks lists of statements as they are, knows the functions around
it, and what it does with an expression keeps targets. -/
theorem upholds {v : Visitor σ} (henter : ∀ body s, (v.enterStatements body).run s = (.descend, s))
    (hleave : ∀ body s, (v.leaveStatements body).run s = (body, s))
    (hblock : ∀ params body s, env ((v.enterFunction params (some body)).run s).2 =
      F.enter (env s) params (blockDiagram body))
    (hconcise : ∀ params (e : Expression) s, env ((v.enterFunction params none).run s).2 =
      F.enter (env s) params e.diagram)
    (hexit : ∀ params d s t, env t = F.enter (env s) params d →
      env (v.leaveFunction.run t).2 = env s)
    (hcleanBlock : ∀ b params body, clean b → (blockDiagram body).targets literals = true →
      clean (F.enter b params (blockDiagram body)))
    (hcleanConcise : ∀ b params (e : Expression), clean b → clean (F.enter b params e.diagram))
    (hexpression : ∀ {e root a a' s t}, Expression.diagram e = .expression root a' →
      Diagram.InTurn (F.Retargets clean env literals) a a' s t →
      F.Retargets clean env literals (.expression root a) ((v.leaveExpression e).run t).1.diagram s
        ((v.leaveExpression e).run t).2) :
    v.Upholds (F.Retargets clean env literals) where
  nothing s := .plain rfl rfl fun _ h _ => h
  passed name s :=
    { known := rfl
      targets := fun _ htargets _ => htargets
      target := fun _ _ => rfl
      name := fun _ => rfl
      passed := fun _ => rfl
      literal := fun he => by cases he }
  clause hparts := by
    have htargets := Retargets.targets_parts hparts
    exact .plain rfl (Retargets.known_parts hparts) htargets
  statement := by
    intro root a a' s t hparts
    exact .plain rfl (Retargets.known_parts hparts) (Retargets.assigning root.assigns hparts)
  expression := hexpression
  settle hrun := by
    rw [henter] at hrun
    cases hrun
  descend := by
    intro body body' s t u hrun hparts
    rw [henter] at hrun
    cases hrun
    rw [hleave]
    have htargets := Retargets.targets_parts hparts
    exact .plain rfl (Retargets.known_parts hparts) htargets
  function := by
    intro params params' body body' cut s t u w hrun hparams hbody
    have ht : env t = F.enter (env s) params (blockDiagram body) := by
      rw [← hblock, hrun]
    have hw : env w = env t := hbody.known.trans (Retargets.known_parts hparams)
    refine .function ht hparams hbody (hexit params _ s w (hw.trans ht)) ?_ ?_ ?_
    · exact hcleanBlock _ params body
    · exact Diagram.statements_drop rfl (fun _ _ => rfl) body cut
    · exact Diagram.statements_drop (f := F.spares (env u)) rfl (fun _ _ => rfl) body cut
  concise := by
    intro params params' e e' cut s t u w hrun hparams hbody
    have ht : env t = F.enter (env s) params e.diagram := by
      rw [← hconcise, hrun]
    have hw : env w = env t := hbody.known.trans (Retargets.known_parts hparams)
    refine .function ht hparams hbody (hexit params _ s w (hw.trans ht)) ?_ id id
    exact fun hclear _ => hcleanConcise _ params e hclear

end Folding

namespace StringDecoding

/-- The string with a number in the table. -/
def literalAt? (table : StringTable) (index : Option Nat) : Option Literal :=
  (index.bind table.get?).map fun value => ⟨.string value, none, none, none⟩

def value? (prologue : Prologue) (table : StringTable) : Diagram → Option Literal
  | .expression (.literal l) _ => some l
  | .expression (.member true _) (.pair (.expression (.identifier name) _) (.pair property _)) =>
    (value? prologue table property).bind fun l =>
      if name = table.name then
        literalAt? table ((Expression.literal l).number?.bind Binary64.index?)
      else none
  | .expression (.call _) (.pair (.expression (.identifier name) _) (.pair argument .nothing)) =>
    (value? prologue table argument).bind fun l =>
      if name = prologue.decoder then literalAt? table (Expression.literal l).index? else none
  | _ => none

def folding (prologue : Prologue) (table : StringTable) : Folding Unit where
  enter _ _ _ := ()
  value? _ := value? prologue table
  value?_literal _ _ _ := rfl

variable {prologue : Prologue} {table : StringTable} {literals normalizing : Bool}

/-- A decoded string retargets: it takes the place of what the pass knows the value of. -/
theorem retargets_decodes {e e' : Expression} {root : ExpressionRoot} {a a' : Diagram}
    {s t u : Progress} (h : Decodes prologue table normalizing e e')
    (he : e.diagram = .expression root a')
    (hparts : Diagram.InTurn
      ((folding prologue table).Retargets (fun _ => True) (fun _ => ()) literals) a a' s t) :
    (folding prologue table).Retargets (fun _ => True) (fun _ => ()) literals (.expression root a)
      e'.diagram s u := by
  cases h with
  | @entry property optional index value hindex hvalue =>
    cases he
    rcases hparts with _ | ⟨hobject, _ | ⟨hproperty, _⟩⟩
    obtain ⟨x, hx, -⟩ := Option.bind_eq_some_iff.1 hindex
    obtain ⟨l, rfl⟩ := Expression.exists_of_number? hx
    cases hobject.name rfl
    have hl : value? prologue table _ = some l := hproperty.literal rfl
    refine .folded rfl ?_
    show (value? prologue table _).bind _ = _
    rw [hl, Option.bind_some, if_pos rfl, hindex, literalAt?, Option.bind_some, hvalue]
    rfl
  | @call argument optional index value hindex hvalue =>
    cases he
    rcases hparts with _ | ⟨hcallee, _ | ⟨hargument, _ | _⟩⟩
    obtain ⟨l, rfl⟩ := Expression.exists_of_index? hindex
    cases hcallee.name rfl
    have hl : value? prologue table _ = some l := hargument.literal rfl
    refine .folded rfl ?_
    show (value? prologue table _).bind _ = _
    rw [hl, Option.bind_some, if_pos rfl, hindex, literalAt?, Option.bind_some, hvalue]
    rfl
  | @name object property optional name hnormalizing hname =>
    cases he
    refine
      { known := rfl
        targets := fun hclear htargets hspares => ?_
        target := fun _ _ => rfl
        name := fun heq => by cases heq
        passed := fun heq => by cases heq
        literal := fun heq => by cases heq }
    have hparts' := Folding.Retargets.targets_parts hparts hclear htargets hspares
    have hobject : object.diagram.targets literals = true := (Bool.and_eq_true_iff.1 hparts').1
    show (true && (object.diagram.targets literals && true)) = true
    rw [hobject]
    rfl

/-- Every call of the pass that decodes strings retargets. -/
theorem upholds_retargets (literals : Bool) (prologue : Prologue) (table : StringTable)
    (normalizing : Bool) :
    (visitor prologue table normalizing).Upholds
      ((folding prologue table).Retargets (fun _ => True) (fun _ => ()) literals) := by
  apply Folding.upholds
  · intro body s
    rfl
  · intro body s
    rfl
  · intro params body s
    rfl
  · intro params e s
    rfl
  · intro params d s t h
    rfl
  · intro b params body h h'
    trivial
  · intro b params e h
    trivial
  · intro e root a a' s t he hparts
    rcases leaves prologue table normalizing e t with hkept | ⟨hdecodes, -⟩
    · have hrun : ((visitor prologue table normalizing).leaveExpression e).run t = (e, t) := hkept
      rw [hrun]
      exact .kept he hparts rfl
    · exact retargets_decodes hdecodes he hparts

/-- No target is an entry of the table. -/
def spares (p : Program) : Bool :=
  match Prologue.find? p.body with
  | some prologue => (folding prologue prologue.decode).spares () p.diagram
  | none => true

/-- Decoding strings keeps the targets that it spares. -/
theorem run_targets (normalizing : Bool) {p : Program} (h : p.targets literals = true)
    (hspares : literals = true ∨ spares p = true) :
    (run normalizing p).program.targets literals = true := by
  unfold run
  split
  · exact h
  · next prologue hfind =>
    rw [spares, hfind] at hspares
    have hupholds := upholds_retargets literals prologue prologue.decode normalizing
    exact (hupholds.carries_program p {}).targets trivial h hspares

end StringDecoding

theorem targets_expressions {es : List Expression} {literals : Bool} :
    (expressionsDiagram es).targets literals = true ↔
      ∀ e ∈ es, e.diagram.targets literals = true := by
  induction es with
  | nil => simp [expressionsDiagram, Diagram.targets]
  | cons e rest ih =>
    have hcons : (expressionsDiagram (e :: rest)).targets literals =
        (e.diagram.targets literals && (expressionsDiagram rest).targets literals) := rfl
    rw [hcons, Bool.and_eq_true, ih, List.forall_mem_cons]

theorem targets_members {ms : List Member} {literals : Bool} :
    (membersDiagram ms).targets literals = true ↔ ∀ m ∈ ms, m.diagram.targets literals = true := by
  induction ms with
  | nil => simp [membersDiagram, Diagram.targets]
  | cons m rest ih =>
    have hcons : (membersDiagram (m :: rest)).targets literals =
        (m.diagram.targets literals && (membersDiagram rest).targets literals) := rfl
    rw [hcons, Bool.and_eq_true, ih, List.forall_mem_cons]

namespace Template

variable {m : Template} {args : List Expression} {literals : Bool}

/-- Binding arguments keeps the targets of an operand. -/
theorem targets_bind (m : Template) (hargs : ∀ e ∈ args, e.diagram.targets literals = true)
    {operand : Expression} (h : operand.diagram.targets literals = true) :
    (m.bind args operand).diagram.targets literals = true := by
  unfold bind
  split
  · next i _ =>
    cases hi : args[i]? with
    | none => rfl
    | some e => exact hargs e (List.mem_of_getElem? hi)
  · exact h

/-- A template with its operands bound is a call or a binary operation. -/
theorem exists_of_instantiate? {e : Expression} (h : m.instantiate? args = some e) :
    ∃ root parts, e.diagram = .expression root parts ∧ root.isTarget true = false := by
  unfold instantiate? at h
  split at h
  · cases h
    exact ⟨_, _, rfl, rfl⟩
  · cases h
    exact ⟨_, _, rfl, rfl⟩
  · cases h

/-- An instantiated template keeps the targets of its body and of its arguments. -/
theorem targets_instantiate? (hargs : ∀ e ∈ args, e.diagram.targets literals = true)
    (hbody : m.body.diagram.targets literals = true) {e : Expression}
    (h : m.instantiate? args = some e) : e.diagram.targets literals = true := by
  unfold instantiate? at h
  split at h
  · next callee arguments optional hb =>
    cases h
    rw [hb] at hbody
    have hparts : (callee.diagram.targets literals &&
      (expressionsDiagram arguments).targets literals) = true := hbody
    obtain ⟨hcallee, harguments⟩ := Bool.and_eq_true_iff.1 hparts
    have hbound : ∀ e ∈ arguments.map (m.bind args), e.diagram.targets literals = true := by
      intro e he
      obtain ⟨operand, hoperand, rfl⟩ := List.mem_map.1 he
      exact targets_bind m hargs (targets_expressions.1 harguments operand hoperand)
    have hall := Bool.and_eq_true_iff.2 ⟨targets_bind m hargs hcallee, targets_expressions.2 hbound⟩
    exact hall
  · next op left right hb =>
    cases h
    rw [hb] at hbody
    have hparts : (left.diagram.targets literals && (right.diagram.targets literals && true)) =
      true := hbody
    simp only [Bool.and_eq_true, and_true] at hparts
    show ((m.bind args left).diagram.targets literals &&
      ((m.bind args right).diagram.targets literals && true)) = true
    simp only [targets_bind m hargs hparts.1, targets_bind m hargs hparts.2, Bool.and_true]
  · cases h

end Template

namespace Dictionary

variable {literals : Bool}

/-- The body of a template is part of the statement that declares its dictionary. -/
theorem targets_of_capture? {body : List Statement} {d : Dictionary} (h : capture? body = some d)
    (hbody : (statementsDiagram body).targets literals = true) {key : String} {t : Template}
    (ht : (key, .template t) ∈ d.entries) : t.body.diagram.targets literals = true := by
  obtain ⟨ms, kind, rest, rfl, hentries⟩ := exists_of_capture? h
  obtain ⟨m, hm, hmember⟩ := hentries _ ht
  obtain ⟨k, name, params, generator, async, computed, shorthand, rfl⟩ :=
    exists_of_member? hmember
  have hmembers : ((membersDiagram ms).targets literals && true && true && true &&
      (statementsDiagram rest).targets literals) = true := hbody
  simp only [Bool.and_eq_true, and_true] at hmembers
  have hvalue := targets_members.1 hmembers.1 _ hm
  have hparts : ((Diagram.ofProperty computed k.diagram).targets literals &&
      (((expressionsDiagram params).targets literals && (t.body.diagram.targets literals && true &&
        true) && true) && true)) = true := hvalue
  simp only [Bool.and_eq_true, and_true] at hparts
  exact hparts.2.2

end Dictionary

namespace DictionaryInlining

/-- The literal that is the entry of a name and a key. -/
def constant? (bs : List Binder) (name key : String) : Option Literal :=
  match (Binder.resolve? name bs).bind fun d => d.get? key with
  | some (.literal l) => some l
  | _ => none

def value? (bs : List Binder) : Diagram → Option Literal
  | .expression (.literal l) _ => some l
  | .expression (.member true _) (.pair (.expression (.identifier name) _) (.pair property _)) =>
    (value? bs property).bind fun l => (Expression.literal l).string?.bind (constant? bs name)
  | .expression (.member false _) (.pair (.expression (.identifier name) _)
      (.pair (.passed (.expression (.identifier key) _)) _)) => constant? bs name key
  | _ => none

def folding : Folding (List Binder) where
  enter bs params body := .ofFunction params body.statements? :: bs
  value? := value?
  value?_literal _ _ _ := rfl

/-- The templates that can be put in the place of calls keep their targets. -/
def Clean (literals : Bool) (bs : List Binder) : Prop :=
  ∀ b ∈ bs, ∀ d, b.dictionary = some d → ∀ key m, (key, DictionaryEntry.template m) ∈ d.entries →
    m.body.diagram.targets literals = true

variable {literals : Bool}

/-- What a name refers to is bound by one of the functions around. -/
theorem mem_of_resolve? {name : String} {bs : List Binder} {d : Dictionary}
    (h : Binder.resolve? name bs = some d) : ∃ b ∈ bs, b.dictionary = some d := by
  induction bs with
  | nil => cases h
  | cons b rest ih =>
    rw [Binder.resolve?] at h
    split at h
    · exact ⟨b, List.mem_cons_self, h⟩
    · split at h
      · cases h
      · obtain ⟨b', hmem, hb'⟩ := ih h
        exact ⟨b', List.mem_cons_of_mem _ hmem, hb'⟩

theorem clean_cons {b : Binder} {bs : List Binder} (h : Clean literals bs)
    (hb : ∀ d, b.dictionary = some d → ∀ key m, (key, DictionaryEntry.template m) ∈ d.entries →
      m.body.diagram.targets literals = true) : Clean literals (b :: bs) := by
  intro b' hmem
  rcases List.mem_cons.1 hmem with rfl | hmem
  · exact hb
  · exact h b' hmem

theorem constant?_eq {bs : List Binder} {name key : String} {d : Dictionary} {l : Literal}
    (hd : Binder.resolve? name bs = some d) (hl : d.get? key = some (.literal l)) :
    constant? bs name key = some l := by
  rw [constant?, hd, Option.bind_some, hl]

/-- An entry of a dictionary retargets: a literal takes the place of what the pass knows the value
of. -/
theorem retargets_leaves {e e' : Expression} {root : ExpressionRoot} {a a' : Diagram}
    {s t u : State} (h : Leaves e t e' u) (he : e.diagram = .expression root a')
    (hparts : Diagram.InTurn (folding.Retargets (Clean literals) binders literals) a a' s t) :
    folding.Retargets (Clean literals) binders literals (.expression root a) e'.diagram s u := by
  have hu : binders u = binders t := h.binders_eq
  have ht : binders t = binders s := Folding.Retargets.known_parts hparts
  cases h with
  | met => exact .kept he hparts hu
  | kept => exact .kept he hparts hu
  | replaced hreplacement _ =>
    rw [ht] at hreplacement
    cases replaces_of_replacement? hreplacement with
    | @constant property computed optional name key d l hkey hd hentry =>
      have hconstant := constant?_eq hd hentry
      -- a key in brackets has been walked and is a literal by now, one behind a dot was passed over
      cases computed with
      | true =>
        cases he
        rcases hparts with _ | ⟨hobject, _ | ⟨hproperty, _⟩⟩
        obtain ⟨l', rfl⟩ := Expression.exists_of_string? hkey
        cases hobject.name rfl
        have hl' : value? _ _ = some l' := hproperty.literal rfl
        rw [hobject.known] at hl'
        refine .folded (hu.trans ht) ?_
        show (value? _ _).bind _ = _
        have hstring : (Expression.literal l').string? = some key := hkey
        rw [hl', Option.bind_some, hstring, Option.bind_some, hconstant]
      | false =>
        cases he
        rcases hparts with _ | ⟨hobject, _ | ⟨hproperty, _⟩⟩
        obtain rfl : property = .identifier key := by
          cases property <;> simp_all [staticName?, Expression.identifier?]
        cases hobject.name rfl
        cases hproperty.passed rfl
        exact .folded (hu.trans ht) hconstant
    | @template property e' computed chained optional arguments name key d m hd hentry hbound =>
      cases he
      obtain ⟨root, parts, he', hroot⟩ := Template.exists_of_instantiate? hbound
      refine
        { known := hu.trans ht
          targets := fun hclean htargets hspares => ?_
          target := fun htarget _ => by cases htarget
          name := fun heq => ?_
          passed := fun heq => ?_
          literal := fun heq => ?_ }
      · -- the templates of every dictionary around are known to keep targets
        obtain ⟨b, hb, hbd⟩ := mem_of_resolve? hd
        obtain ⟨k, hk⟩ := Dictionary.mem_of_get? hentry
        have hparts' := Folding.Retargets.targets_parts hparts hclean htargets hspares
        have harguments := (Bool.and_eq_true_iff.1 hparts').2
        exact Template.targets_instantiate? (targets_expressions.1 harguments)
          (hclean b hb d hbd k m hk) hbound
      · rw [he'] at heq
        cases heq
        cases hroot
      · rw [he'] at heq
        cases heq
      · rw [he'] at heq
        cases heq
        cases hroot

/-- Every call of the pass that inlines dictionaries retargets. -/
theorem upholds_retargets (literals : Bool) :
    visitor.Upholds (folding.Retargets (Clean literals) binders literals) := by
  apply Folding.upholds
  · intro body s
    rfl
  · intro body s
    rfl
  · intro params body s
    exact binders_enterFunction params (some body) s
  · intro params e s
    obtain ⟨root, parts, he⟩ := e.exists_diagram
    rw [he]
    exact binders_enterFunction params none s
  · intro params d s t ht
    have hleave : binders (visitor.leaveFunction.run t).2 = (binders t).tail :=
      binders_leaveFunction t
    rw [hleave, ht]
    rfl
  · intro bs params body hclean htargets
    refine clean_cons hclean fun d hd key m hm => ?_
    exact Dictionary.targets_of_capture? hd htargets hm
  · intro bs params e hclean
    obtain ⟨root, parts, he⟩ := e.exists_diagram
    rw [he]
    exact clean_cons hclean fun d hd => by cases hd
  · intro e root a a' s t he hparts
    exact retargets_leaves (leaves e t) he hparts

/-- No target is an entry of a dictionary that holds a literal. -/
def spares (p : Program) : Bool := folding.spares (binders {}) p.diagram

/-- Inlining dictionaries keeps the targets that it spares. -/
theorem run_targets {p : Program} (h : p.targets literals = true)
    (hspares : literals = true ∨ spares p = true) :
    (run p).program.targets literals = true := by
  have hclean : Clean literals (binders {}) := by
    intro b hb d hd
    cases List.mem_singleton.1 hb
    cases hd
  exact ((upholds_retargets literals).carries_program p {}).targets hclean h hspares

end DictionaryInlining

/-- After a pass that replaces expressions every target can be written to or is a literal. It is no
literal if no target was an access to a literal that the pass knows. -/
theorem targets_after_passes (p : Program) (h : p.targets false = true) :
    (∀ normalizing, ((stringDecoding normalizing).run p).program.targets true = true ∧
      (StringDecoding.spares p = true →
        ((stringDecoding normalizing).run p).program.targets false = true)) ∧
      (dictionaryInlining.run p).program.targets true = true ∧
      (DictionaryInlining.spares p = true →
        (dictionaryInlining.run p).program.targets false = true) := by
  have hweak : p.targets true = true := Diagram.targets_of_strict h
  refine ⟨fun normalizing => ⟨?_, fun hspares => ?_⟩, ?_, fun hspares => ?_⟩
  · exact StringDecoding.run_targets normalizing hweak (.inl rfl)
  · exact StringDecoding.run_targets normalizing h (.inr hspares)
  · exact DictionaryInlining.run_targets hweak (.inl rfl)
  · exact DictionaryInlining.run_targets h (.inr hspares)

/-- Writes to an entry of a table of one string, and in three ways to an entry of a dictionary. -/
def writing (index : Binary64) (key : String) : Program :=
  let number (x : Binary64) : Expression := .literal ⟨.number x, none, none, none⟩
  let entry : Expression := .member (.identifier "dictionary") (.identifier key) false false
  ⟨[.declaration ⟨[⟨.identifier "table", some (.array [some (.ofString "aGk=")])⟩], .var⟩,
    .expression (.call .this [.identifier "table", number (.zero false)] false) none,
    .declaration ⟨[⟨.identifier "decoder", none⟩], .var⟩,
    .expression (.assignment .plain (.member (.identifier "table") (number index) true false) .this)
      none,
    .function ⟨none, [],
      [.declaration ⟨[⟨.identifier "dictionary", some (.object
          [.property (.identifier "size") (number (.zero false)) .init false false false])⟩], .var⟩,
        .expression (.update .increment true entry) none,
        .expression (.assignment .add entry .this) none,
        .forIn (.expression entry) .this .empty], false, false⟩], .script⟩

/-- Both passes turn a target into a literal, which cannot be written to. -/
theorem writing_targets_lost :
    (writing (.zero false) "size").targets false = true ∧
      ((stringDecoding true).run (writing (.zero false) "size")).program.targets false = false ∧
      (dictionaryInlining.run (writing (.zero false) "size")).program.targets false = false := by
  refine ⟨rfl, ?_, rfl⟩
  decide +kernel

/-- There is no second string in the table, and no such entry in the dictionary. -/
theorem writing_targets_kept :
    (writing (.ofInt 1) "length").targets false = true ∧
      ((stringDecoding true).run (writing (.ofInt 1) "length")).program.targets false = true ∧
      (dictionaryInlining.run (writing (.ofInt 1) "length")).program.targets false = true := by
  obtain ⟨hstrings, -, hdictionaries⟩ := targets_after_passes (writing (.ofInt 1) "length") rfl
  have hspares : StringDecoding.spares (writing (.ofInt 1) "length") = true := by decide +kernel
  exact ⟨rfl, (hstrings true).2 hspares, hdictionaries rfl⟩

end Untangle
