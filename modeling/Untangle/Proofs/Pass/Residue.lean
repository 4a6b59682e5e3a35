import Untangle.Proofs.Pass.Replacement
import Untangle.Proofs.Syntax.Diagram

/-!
# What inlining leaves of a tree

The pass that removes dictionaries is a function from trees to trees. Its result
is drawn here as a residue: a diagram in which a function tells its number and
what it binds, the removed dictionary included, and in which names that the walk
has met are told from those that came with the text of a template. So a residue
shows to which dictionary a name refers that is left over.
-/
namespace Untangle

def ExpressionRoot.names (name : String) : ExpressionRoot → Bool
  | .identifier name' => name' == name
  | _ => false

namespace DictionaryInlining

def Binder.binds (b : Binder) (name : String) : Bool := b.declares name || b.params.contains name

/-- A diagram after the pass. Text that was copied from a template is not visited. -/
inductive Residue where
  | nothing
  | pair (first rest : Residue)
  | passed (name : Diagram)
  | expression (visited : Bool) (root : ExpressionRoot) (parts : Residue)
  | statement (root : StatementRoot) (parts : Residue)
  | clause (root : ClauseRoot) (parts : Residue)
  | block (parts : Residue)
  | function (scope : Nat) (binder : Binder) (parts body : Residue)

namespace Residue

/-- The residue is this diagram, apart from what functions tell. -/
inductive Shows : Residue → Diagram → Prop
  | nothing : Shows .nothing .nothing
  | pair {r r' : Residue} {d d' : Diagram} (first : Shows r d) (rest : Shows r' d') :
    Shows (.pair r r') (.pair d d')
  | passed (name : Diagram) : Shows (.passed name) (.passed name)
  | expression {visited : Bool} {root : ExpressionRoot} {r : Residue} {d : Diagram}
    (parts : Shows r d) : Shows (.expression visited root r) (.expression root d)
  | statement {root : StatementRoot} {r : Residue} {d : Diagram} (parts : Shows r d) :
    Shows (.statement root r) (.statement root d)
  | clause {root : ClauseRoot} {r : Residue} {d : Diagram} (parts : Shows r d) :
    Shows (.clause root r) (.clause root d)
  | block {body : List Statement} {r : Residue} {d : Diagram} (parts : Shows r d) :
    Shows (.block r) (.block body d)
  | function {scope : Nat} {binder : Binder} {params : List Expression} {r r' : Residue}
    {d d' : Diagram} (parts : Shows r d) (body : Shows r' d') :
    Shows (.function scope binder r r') (.function params d d')

/-- Text that the walk does not visit. A function in it keeps its dictionary. -/
def copy : Diagram → Residue
  | .nothing => .nothing
  | .pair first rest => .pair (copy first) (copy rest)
  | .passed name => .passed name
  | .expression root parts => .expression false root (copy parts)
  | .statement root parts => .statement root (copy parts)
  | .clause root parts => .clause root (copy parts)
  | .block _ parts => .block (copy parts)
  | .function params parts body =>
    .function 0 ⟨none, params.filterMap Expression.identifier?⟩ (copy parts) (copy body)

/-- Copied text shows what it was copied from. -/
theorem shows_copy (d : Diagram) : (copy d).Shows d := by
  induction d with
  | nothing => exact .nothing
  | pair first rest ihFirst ihRest => exact .pair ihFirst ihRest
  | passed name => exact .passed name
  | expression root parts ih => exact .expression ih
  | statement root parts ih => exact .statement ih
  | clause root parts ih => exact .clause ih
  | block body parts ih => exact .block ih
  | function params parts body ihParts ihBody => exact .function ihParts ihBody

def get? : Residue → Nat → Option Residue
  | .pair first _, 0 => some first
  | .pair _ rest, i + 1 => rest.get? i
  | _, _ => none

def spreads : Residue → Bool
  | .pair (.expression _ .spread _) _ => true
  | .pair _ rest => rest.spreads
  | _ => false

/-- The name of a property that is known without evaluation. -/
def key? : Residue → Option String
  | .passed (.expression (.identifier key) _) => some key
  | .expression _ (.literal l) _ => (Expression.literal l).string?
  | _ => none

def identifier? : Residue → Option String
  | .expression _ (.identifier name) _ => some name
  | _ => none

/-- The entry that an access refers to, with the name of its dictionary. -/
def lookup? (bs : List Binder) : Residue → Option (String × DictionaryEntry)
  | .expression _ (.member _ _) (.pair object (.pair property _)) => do
    let name ← object.identifier?
    let key ← property.key?
    let d ← Binder.resolve? name bs
    return (name, ← d.get? key)
  | _ => none

variable {r : Residue} {e : Expression} {bs : List Binder}

theorem identifier?_of_shows (h : r.Shows e.diagram) : r.identifier? = e.identifier? := by
  cases e with
  | function f =>
    cases f
    cases h
    rfl
  | _ =>
    cases h
    rfl

theorem key?_of_shows {computed : Bool} (h : r.Shows (Diagram.ofProperty computed e.diagram)) :
    r.key? = staticName? e computed := by
  cases computed with
  | false =>
    cases h
    cases e with
    | function f => cases f; rfl
    | _ => rfl
  | true =>
    have hshows : r.Shows e.diagram := h
    cases e with
    | function f => cases f; cases hshows; rfl
    | _ => cases hshows; rfl

/-- A residue refers to the same entry as the expression that it shows. -/
theorem lookup?_of_shows (h : r.Shows e.diagram) :
    r.lookup? bs = DictionaryInlining.lookup? bs e := by
  cases e with
  | member object property computed optional =>
    rcases h with _ | _ | _ | ⟨_ | ⟨hobject, _ | ⟨hproperty, _⟩⟩⟩
    rw [lookup?, DictionaryInlining.lookup?, identifier?_of_shows hobject, key?_of_shows hproperty]
  | function f => cases f; cases h; rfl
  | _ => cases h; rfl

end Residue

end DictionaryInlining

namespace Template

open DictionaryInlining (Residue)

def operand (t : Template) (args : Residue) (e : Expression) : Residue :=
  match e.identifier?.bind fun name => t.params.idxOf? name with
  | some i => (args.get? i).getD (.copy (Expression.identifier "undefined").diagram)
  | none => .copy e.diagram

def operands (t : Template) (args : Residue) : List Expression → Residue
  | [] => .nothing
  | e :: rest => .pair (t.operand args e) (t.operands args rest)

/-- The body with its direct operands bound. -/
def residue? (t : Template) (args : Residue) : Option Residue :=
  match t.body with
  | .call callee arguments optional =>
    some (.expression true (.call optional) (t.operands args (callee :: arguments)))
  | .binary op left right => some (.expression true (.binary op) (t.operands args [left, right]))
  | _ => none

section Shows

variable {t : Template} {args : Residue} {arguments : List Expression}

theorem get?_of_shows (h : args.Shows (expressionsDiagram arguments)) (i : Nat) :
    Option.Rel (fun r e => r.Shows (Expression.diagram e)) (args.get? i) arguments[i]? := by
  induction arguments generalizing args i with
  | nil =>
    cases h
    exact .none
  | cons e rest ih =>
    rcases h with _ | ⟨hfirst, hrest⟩
    cases i with
    | zero => exact .some hfirst
    | succ i => exact ih hrest i

/-- An operand in a residue shows the bound operand. -/
theorem operand_shows (h : args.Shows (expressionsDiagram arguments)) (e : Expression) :
    (t.operand args e).Shows (t.bind arguments e).diagram := by
  unfold operand bind
  cases e.identifier?.bind fun name => t.params.idxOf? name with
  | none => exact Residue.shows_copy _
  | some i =>
    have hi := get?_of_shows h i
    show ((args.get? i).getD _).Shows (arguments[i]?.getD _).diagram
    generalize args.get? i = r, arguments[i]? = e' at hi
    cases hi with
    | none => exact Residue.shows_copy _
    | some hshows => exact hshows

theorem operands_shows (h : args.Shows (expressionsDiagram arguments)) (es : List Expression) :
    (t.operands args es).Shows (expressionsDiagram (es.map (t.bind arguments))) := by
  induction es with
  | nil => exact .nothing
  | cons e rest ih => exact .pair (operand_shows h e) ih

/-- A residue is instantiated exactly where the expression is, and shows it. -/
theorem residue?_shows (h : args.Shows (expressionsDiagram arguments)) :
    Option.Rel (fun r e => r.Shows (Expression.diagram e)) (t.residue? args)
      (t.instantiate? arguments) := by
  unfold residue? instantiate?
  cases t.body with
  | call callee operands optional =>
    exact .some (.expression (operands_shows h (callee :: operands)))
  | binary op left right => exact .some (.expression (operands_shows h [left, right]))
  | _ => exact .none

end Shows

end Template

namespace DictionaryInlining.Residue

def accessed? : String × DictionaryEntry → Option (String × Residue)
  | (name, .literal l) => some (name, .expression true (.literal l) .nothing)
  | _ => none

def called? (args : Residue) : String × DictionaryEntry → Option (String × Residue)
  | (name, .template t) => if args.spreads then none else (t.residue? args).map (name, ·)
  | _ => none

/-- What takes the place of an expression, with the name of the dictionary it comes from. -/
def replacement? (bs : List Binder) : Residue → Option (String × Residue)
  | .expression visited (.member computed optional) parts =>
    (lookup? bs (.expression visited (.member computed optional) parts)).bind accessed?
  | .expression _ (.call _) (.pair callee args) => (lookup? bs callee).bind (called? args)
  | _ => none

variable {r args : Residue} {e : Expression} {arguments : List Expression} {bs : List Binder}

theorem spreads_of_shows (h : args.Shows (expressionsDiagram arguments)) :
    args.spreads = arguments.any isSpread := by
  induction arguments generalizing args with
  | nil =>
    cases h
    rfl
  | cons e rest ih =>
    rcases h with _ | ⟨hfirst, hrest⟩
    rw [List.any_cons, ← ih hrest]
    cases e with
    | function f =>
      cases f
      cases hfirst
      rfl
    | _ =>
      cases hfirst
      rfl

/-- A call takes from an entry the same in a residue as in the tree. -/
theorem called?_of_shows (h : args.Shows (expressionsDiagram arguments))
    (entry : String × DictionaryEntry) :
    Option.Rel (fun x y => x.1 = y.1 ∧ x.2.Shows (Expression.diagram y.2)) (called? args entry)
      (DictionaryInlining.called? arguments entry) := by
  obtain ⟨name, l | t⟩ := entry
  · exact .none
  · rw [called?, DictionaryInlining.called?, spreads_of_shows h]
    split
    · exact .none
    · have hresidue : Option.Rel _ (t.residue? args) _ := Template.residue?_shows h
      generalize t.residue? args = r, t.instantiate? arguments = e at hresidue
      cases hresidue with
      | none => exact .none
      | some hshows => exact .some ⟨rfl, hshows⟩

/-- A residue and the expression that it shows are replaced together. -/
theorem replacement?_of_shows (h : r.Shows e.diagram) :
    Option.Rel (fun x y => x.1 = y.1 ∧ x.2.Shows (Expression.diagram y.2)) (r.replacement? bs)
      (DictionaryInlining.replacement? bs e) := by
  cases e with
  | member object property computed optional =>
    have hentry : r.lookup? bs = _ := lookup?_of_shows h
    rcases h with _ | _ | _ | ⟨hparts⟩
    rw [replacement?, DictionaryInlining.replacement?, hentry]
    rcases DictionaryInlining.lookup? bs _ with _ | ⟨name, l | t⟩
    · exact .none
    · exact .some ⟨rfl, .expression .nothing⟩
    · exact .none
  | call callee arguments optional =>
    rcases h with _ | _ | _ | ⟨_ | ⟨hcallee, harguments⟩⟩
    rw [replacement?, DictionaryInlining.replacement?, lookup?_of_shows hcallee]
    cases DictionaryInlining.lookup? bs callee with
    | none => exact .none
    | some entry => exact called?_of_shows harguments entry
  | function f =>
    cases f
    cases h
    exact .none
  | _ =>
    cases h
    exact .none

/-- The expression or what takes its place. -/
def settle (bs : List Binder) (r : Residue) : Residue := ((r.replacement? bs).map Prod.snd).getD r

/-- A residue is left alone where the expression is. -/
theorem settle_eq_self (h : r.Shows e.diagram)
    (hnone : DictionaryInlining.replacement? bs e = none) : r.settle bs = r := by
  have hrel : Option.Rel _ (r.replacement? bs) _ := replacement?_of_shows h
  rw [hnone] at hrel
  rw [settle]
  generalize r.replacement? bs = x at hrel
  cases hrel
  rfl

/-- A residue is replaced where the expression is, by what shows the replacement. -/
theorem exists_replacement? {name : String} {e' : Expression} (h : r.Shows e.diagram)
    (hsome : DictionaryInlining.replacement? bs e = some (name, e')) :
    ∃ r', r.replacement? bs = some (name, r') ∧ r'.Shows e'.diagram := by
  have hrel : Option.Rel _ (r.replacement? bs) _ := replacement?_of_shows h
  rw [hsome] at hrel
  generalize r.replacement? bs = x at hrel
  cases hrel with
  | @some x _ hx =>
    obtain ⟨name', r'⟩ := x
    obtain ⟨rfl, hshows⟩ := hx
    exact ⟨r', rfl, hshows⟩

/-- Whether a name is left over that nothing inside binds, by the rules of the pass. Text of
templates may be looked at or not. -/
def refers (copies : Bool) (name : String) : Residue → Bool
  | .nothing | .passed _ => false
  | .pair first rest => first.refers copies name || rest.refers copies name
  | .expression visited root parts =>
    (visited || copies) && root.names name || parts.refers copies name
  | .statement _ parts | .clause _ parts | .block parts => parts.refers copies name
  | .function _ binder parts body =>
    !binder.binds name && (parts.refers copies name || body.refers copies name)

/-- The functions that still refer to the dictionary they have lost, by their numbers and the names
of the dictionaries. -/
def dangling (copies : Bool) : Residue → List (Nat × String)
  | .nothing | .passed _ => []
  | .pair first rest => first.dangling copies ++ rest.dangling copies
  | .expression _ _ parts | .statement _ parts | .clause _ parts | .block parts =>
    parts.dangling copies
  | .function scope binder parts body =>
    ((binder.dictionary.map (·.name)).toList.filter fun name =>
        parts.refers copies name || body.refers copies name).map (scope, ·) ++
      parts.dangling copies ++ body.dangling copies

/-- How much is left over of a name: what is in one expression counts once, since a template may
have doubled it. -/
def weight : Residue → String → Nat
  | .nothing, _ | .passed _, _ => 0
  | .pair first rest, name => first.weight name + rest.weight name
  | .expression visited root parts, name =>
    min 1 ((if visited && root.names name then 1 else 0) + parts.weight name)
  | .statement _ parts, name | .clause _ parts, name | .block parts, name => parts.weight name
  | .function _ binder parts body, name =>
    if binder.binds name then 0 else parts.weight name + body.weight name

/-- A name that is left over weighs something. -/
theorem weight_pos_of_refers {name : String} (h : r.refers false name = true) :
    0 < r.weight name := by
  induction r with
  | nothing | passed => cases h
  | pair first rest ihFirst ihRest =>
    rw [weight]
    rcases Bool.or_eq_true_iff.1 h with h | h
    · exact Nat.add_pos_left (ihFirst h) _
    · exact Nat.add_pos_right _ (ihRest h)
  | expression visited root parts ih =>
    rw [weight]
    rcases Bool.or_eq_true_iff.1 h with h | h
    · rw [Bool.or_false] at h
      rw [if_pos h]
      omega
    · have hparts := ih h
      omega
  | statement root parts ih | clause root parts ih | block parts ih => exact ih h
  | function scope binder parts body ihParts ihBody =>
    obtain ⟨hbinds, h⟩ := Bool.and_eq_true_iff.1 h
    rw [weight, if_neg (by simpa using hbinds)]
    rcases Bool.or_eq_true_iff.1 h with h | h
    · exact Nat.add_pos_left (ihParts h) _
    · exact Nat.add_pos_right _ (ihBody h)

/-- The text of templates weighs nothing. -/
theorem weight_copy (d : Diagram) (name : String) : (copy d).weight name = 0 := by
  induction d with
  | nothing | passed => rfl
  | pair first rest ihFirst ihRest => rw [copy, weight, ihFirst, ihRest]
  | expression root parts ih =>
    rw [copy, weight, ih]
    rfl
  | statement root parts ih | clause root parts ih | block body parts ih => exact ih
  | function params parts body ihParts ihBody =>
    rw [copy, weight, ihParts, ihBody]
    exact ite_self 0

/-- Copied text refers to no dictionary that was lost. -/
theorem dangling_copy (copies : Bool) (d : Diagram) : (copy d).dangling copies = [] := by
  induction d with
  | nothing | passed => rfl
  | pair first rest ihFirst ihRest =>
    rw [copy, dangling, ihFirst, ihRest]
    rfl
  | expression root parts ih | statement root parts ih | clause root parts ih
  | block body parts ih => exact ih
  | function params parts body ihParts ihBody =>
    rw [copy, dangling, ihParts, ihBody]
    rfl

/-- Names are visited where they stand alone and in accesses. -/
def proper : Residue → Bool
  | .pair first rest => first.proper && rest.proper
  | .expression visited (.identifier _) _ => visited
  | .expression _ (.member _ _) parts => parts.proper
  | _ => true

theorem weight_get? {i : Nat} (h : args.get? i = some r) (name : String) :
    r.weight name ≤ args.weight name := by
  fun_induction get? args i with
  | case1 first rest =>
    cases h
    exact Nat.le_add_right _ _
  | case2 first rest i ih => exact Nat.le_trans (ih h) (Nat.le_add_left _ _)
  | case3 => cases h

theorem dangling_get? {i : Nat} (h : args.get? i = some r) (copies : Bool) :
    r.dangling copies ⊆ args.dangling copies := by
  fun_induction get? args i with
  | case1 first rest =>
    cases h
    exact List.subset_append_left _ _
  | case2 first rest i ih => exact List.subset_append_of_subset_right _ (ih h)
  | case3 => cases h

/-- An operand is an argument, or text of the template. -/
theorem exists_of_operand (t : Template) (args : Residue) (e : Expression) :
    (∃ i, args.get? i = some (t.operand args e)) ∨ ∃ d, t.operand args e = copy d := by
  unfold Template.operand
  split
  · next i _ =>
    cases hi : args.get? i with
    | none => exact .inr ⟨_, rfl⟩
    | some r => exact .inl ⟨i, hi⟩
  · exact .inr ⟨_, rfl⟩

/-- What is left over in the operands was left over in the arguments. -/
theorem weight_pos_of_operands {t : Template} {es : List Expression} {name : String}
    (h : 0 < (t.operands args es).weight name) : 0 < args.weight name := by
  induction es with
  | nil => cases h
  | cons e rest ih =>
    rw [Template.operands, weight] at h
    rcases Nat.add_pos_iff_pos_or_pos.1 h with h | h
    · rcases exists_of_operand t args e with ⟨i, hi⟩ | ⟨d, hd⟩
      · exact Nat.lt_of_lt_of_le h (weight_get? hi name)
      · rw [hd, weight_copy] at h
        cases h
    · exact ih h

/-- Operands leave over only what the arguments did. -/
theorem dangling_operands_subset (t : Template) (args : Residue) (es : List Expression)
    (copies : Bool) : (t.operands args es).dangling copies ⊆ args.dangling copies := by
  induction es with
  | nil => exact List.nil_subset _
  | cons e rest ih =>
    refine List.append_subset.2 ⟨?_, ih⟩
    rcases exists_of_operand t args e with ⟨i, hi⟩ | ⟨d, hd⟩
    · exact dangling_get? hi copies
    · rw [hd, dangling_copy]
      exact List.nil_subset _

/-- An instantiated body is an operation on its operands and no name. -/
theorem exists_of_residue? {t : Template} (h : t.residue? args = some r) :
    ∃ root es, r = .expression true root (t.operands args es) ∧ r.proper = true ∧
      ∀ name, root.names name = false := by
  unfold Template.residue? at h
  split at h
  · cases h
    exact ⟨_, _, rfl, rfl, fun _ => rfl⟩
  · cases h
    exact ⟨_, _, rfl, rfl, fun _ => rfl⟩
  · cases h

/-- What takes part in no name of its own counts once. -/
theorem weight_expression {visited : Bool} {root : ExpressionRoot} {name : String} (parts : Residue)
    (hroot : root.names name = false) :
    (Residue.expression visited root parts).weight name = min 1 (parts.weight name) := by
  rw [weight, hroot, Bool.and_false, if_neg Bool.false_ne_true, Nat.zero_add]

/-- The name of a dictionary is left over in an access to an entry. -/
theorem weight_pos_of_lookup? {name : String} {entry : DictionaryEntry} (hr : r.proper = true)
    (h : r.lookup? bs = some (name, entry)) : 0 < r.weight name := by
  unfold lookup? at h
  split at h
  · next visited computed optional object property rest =>
    obtain ⟨name', hname, h⟩ := Option.bind_eq_some_iff.1 h
    obtain rfl : name' = name := by
      simp only [Option.bind_eq_bind, Option.bind_eq_some_iff, Option.pure_def, Option.some.injEq,
        Prod.mk.injEq] at h
      obtain ⟨_, _, _, _, _, _, rfl, _⟩ := h
      rfl
    have hobject : object.proper = true := (Bool.and_eq_true_iff.1 hr).1
    unfold identifier? at hname
    split at hname
    · next visited' _ parts =>
      cases hname
      obtain rfl : visited' = true := hobject
      have hfirst : (Residue.expression true (.identifier name') parts).weight name' = 1 := by
        rw [weight, if_pos (by simp [ExpressionRoot.names])]
        omega
      rw [weight_expression _ rfl, weight, hfirst]
      omega
    · cases hname
  · cases h

section Replacement

variable {root : ExpressionRoot} {parts r' : Residue} {name : String}

/-- What takes the place of an expression is a literal, or operands from among the parts. In any
case a name of the dictionary is gone. -/
theorem of_replacement? (hparts : parts.proper = true)
    (h : replacement? bs (.expression true root parts) = some (name, r')) :
    r'.proper = true ∧ (∀ copies, r'.dangling copies ⊆ parts.dangling copies) ∧
      ∀ n, r'.weight n + (if n = name then 1 else 0) ≤ parts.weight n := by
  unfold replacement? at h
  split at h
  · next visited computed optional parts' heq =>
    cases heq
    obtain ⟨⟨name', l | t⟩, hentry, haccessed⟩ := Option.bind_eq_some_iff.1 h
    · cases haccessed
      have hpos := weight_pos_of_lookup? (r := .expression true (.member computed optional) parts)
        hparts hentry
      rw [weight_expression _ rfl] at hpos
      refine ⟨rfl, fun _ => List.nil_subset _, fun n => ?_⟩
      have hliteral : (Residue.expression true (.literal l) .nothing).weight n = 0 :=
        weight_expression _ rfl
      rw [hliteral]
      by_cases hn : n = name
      · rw [if_pos hn, hn]
        omega
      · rw [if_neg hn]
        omega
    · cases haccessed
  · next visited optional callee args heq =>
    cases heq
    obtain ⟨⟨name', l | t⟩, hentry, hcalled⟩ := Option.bind_eq_some_iff.1 h
    · cases hcalled
    · rw [called?] at hcalled
      split at hcalled
      · cases hcalled
      · obtain ⟨r'', hr, heq⟩ := Option.map_eq_some_iff.1 hcalled
        cases heq
        obtain ⟨root, es, rfl, hproper, hroot⟩ := exists_of_residue? hr
        have hpos := weight_pos_of_lookup? (Bool.and_eq_true_iff.1 hparts).1 hentry
        refine ⟨hproper, fun copies => ?_, fun n => ?_⟩
        · have hoperands := dangling_operands_subset t args es copies
          exact List.subset_append_of_subset_right _ hoperands
        · rw [weight_expression _ (hroot n), weight]
          -- The operands count once together, and if they do, then so do the arguments.
          have hoperands : min 1 ((t.operands args es).weight n) ≤ args.weight n := by
            rcases Nat.eq_zero_or_pos ((t.operands args es).weight n) with hzero | hsome
            · omega
            · have hargs := weight_pos_of_operands hsome
              omega
          by_cases hn : n = name
          · rw [if_pos hn]
            rw [hn] at hoperands ⊢
            omega
          · rw [if_neg hn]
            omega
  · cases h

end Replacement

end Residue

/-- How many functions the walk enters. The first part of a list may be cut off. -/
def functions (cut : Bool) : Diagram → Nat
  | .nothing | .passed _ => 0
  | .pair first rest =>
    if cut then functions false rest else functions false first + functions false rest
  | .expression _ parts | .statement _ parts | .clause _ parts => functions false parts
  | .block _ parts => functions cut parts
  | .function params parts body =>
    functions false parts +
      functions (Binder.ofFunction params body.statements?).dictionary.isSome body + 1

/-- What the pass leaves of a tree, given what the functions around bind and how many functions were
entered before. -/
def residue (bs : List Binder) (entered : Nat) (cut : Bool) : Diagram → Residue
  | .nothing => .nothing
  | .pair first rest =>
    if cut then residue bs entered false rest
    else .pair (residue bs entered false first)
      (residue bs (entered + functions false first) false rest)
  | .passed name => .passed name
  | .expression root parts =>
    (Residue.expression true root (residue bs entered false parts)).settle bs
  | .statement root parts => .statement root (residue bs entered false parts)
  | .clause root parts => .clause root (residue bs entered false parts)
  | .block _ parts => .block (residue bs entered cut parts)
  | .function params parts body =>
    let binder : Binder := .ofFunction params body.statements?
    .function (entered + 1) binder (residue (binder :: bs) (entered + 1) false parts)
      (residue (binder :: bs) (entered + 1 + functions false parts) binder.dictionary.isSome body)

/-- In what the pass leaves, names are visited where they stand alone and in accesses. -/
theorem proper_residue (bs : List Binder) (entered : Nat) (cut : Bool) (d : Diagram) :
    (residue bs entered cut d).proper = true := by
  induction d generalizing bs entered cut with
  | pair first rest ihFirst ihRest =>
    rw [residue]
    split
    · exact ihRest bs entered false
    · exact Bool.and_eq_true_iff.2 ⟨ihFirst bs entered false, ihRest bs _ false⟩
  | expression root parts ih =>
    have hparts := ih bs entered false
    rw [residue, Residue.settle]
    cases h : Residue.replacement? bs _ with
    | none => cases root <;> first | rfl | exact hparts
    | some x => exact (Residue.of_replacement? hparts h).1
  | _ => rfl

/-- What is cut off is not there, for all that is told of the parts of a block. -/
theorem cut_block {α β : Type} {f : Bool → Diagram → α} {g : α → β} {h : Bool → Diagram → β}
    (hblock : ∀ cut body, h cut (blockDiagram body) = g (f cut (statementsDiagram body)))
    (hnothing : f true .nothing = f false .nothing)
    (hpair : ∀ first rest, f true (.pair first rest) = f false rest) (cut : Bool)
    (body : List Statement) :
    h cut (blockDiagram body) = h false (blockDiagram (body.drop cut.toNat)) := by
  rw [hblock, hblock]
  cases cut with
  | false => rfl
  | true =>
    cases body with
    | nil => exact congrArg g hnothing
    | cons first rest => exact congrArg g (hpair _ _)

/-- A block whose dictionary is cut off leaves what the other statements do. -/
theorem residue_block (bs : List Binder) (entered : Nat) (cut : Bool) (body : List Statement) :
    residue bs entered cut (blockDiagram body) =
      residue bs entered false (blockDiagram (body.drop cut.toNat)) :=
  cut_block (g := Residue.block) (fun _ _ => rfl) rfl (fun _ _ => rfl) cut body

theorem functions_block (cut : Bool) (body : List Statement) :
    functions cut (blockDiagram body) = functions false (blockDiagram (body.drop cut.toNat)) :=
  cut_block (g := id) (fun _ _ => rfl) rfl (fun _ _ => rfl) cut body

end DictionaryInlining
end Untangle
