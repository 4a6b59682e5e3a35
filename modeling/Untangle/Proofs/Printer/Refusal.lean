import Untangle.Printer.Source
import Untangle.Proofs.Syntax.Diagram

/-!
# What has no source

Printing comes to the nodes of a tree in an order of its own and passes over
some of them. It is refused if and only if it comes to a node that was not
understood, and it names the first of these. The layout has no part in this.
-/
namespace Untangle

namespace Diagram

/-- Is a property with this value printed as a getter, a setter or a method? -/
def isMethod (kind : PropertyKind) (method : Bool) : Diagram → Bool
  | .expression (.function _ _ _) _ => kind != .init || method
  | _ => false

mutual
/-- The nodes of a tree that are printed, in the order in which they are. The test of a `do` loop
comes behind the body. A property that is printed in shorthand does not show its key. -/
def printed : Diagram → List Node
  | .nothing => []
  | .pair first rest => first.printed ++ rest.printed
  | .passed name => name.printed
  | .expression (.template quasis) parts =>
    .expression (.template quasis) :: parts.printedFirst quasis.length
  | .expression root parts => .expression root :: parts.printed
  | .statement .doWhile (.pair test body) => .statement .doWhile :: (body.printed ++ test.printed)
  | .statement root parts => .statement root :: parts.printed
  | .clause (.property kind computed method shorthand) (.pair key (.pair value _)) =>
    .clause (.property kind computed method shorthand) ::
      if shorthand && !value.isMethod kind method then value.printed
      else key.printed ++ value.printed
  | .clause root parts => .clause root :: parts.printed
  | .block _ parts => parts.printed
  | .function _ params body => params.printed ++ body.printed

/-- The same for the first parts of a node. A template shows no more expressions than it has
segments. -/
def printedFirst : Nat → Diagram → List Node
  | count + 1, .pair first rest => first.printed ++ rest.printedFirst count
  | _, _ => []
end

end Diagram

namespace Printer

/-- An outcome of printing some nodes: the first one that was not understood is reported. -/
def Reports {α : Type} (nodes : List Node) (r : Except Unsupported α) : Prop :=
  match nodes.findSome? Node.foreign? with
  | some v => r = .error ⟨v.kindName⟩
  | none => ∃ a, r = .ok a

section Reports

variable {α β : Type} {ns ms : List Node}

theorem reports_pure (a : α) : Reports [] (pure a) := ⟨a, rfl⟩

/-- A node that was not understood is refused, whatever was to be printed. -/
theorem reports_foreign {n : Node} {v : Json} (hn : n.foreign? = some v) :
    Reports (α := α) [n] (throw ⟨v.kindName⟩) := by
  rw [Reports, List.findSome?_cons, hn]
  rfl

/-- A node that was understood does not change what is reported. -/
theorem Reports.cons {n : Node} {r : Except Unsupported α} (h : Reports ns r)
    (hn : n.foreign? = none) : Reports (n :: ns) r := by
  rw [Reports, List.findSome?_cons, hn]
  exact h

theorem Reports.append_nil {r : Except Unsupported α} (h : Reports ns r) :
    Reports (ns ++ []) r := by
  rwa [List.append_nil]

/-- What comes later is reported only if nothing before is. -/
theorem Reports.bind {x : Except Unsupported α} {f : α → Except Unsupported β}
    (hx : Reports ns x) (hf : ∀ a, Reports ms (f a)) : Reports (ns ++ ms) (x >>= f) := by
  rw [Reports, List.findSome?_append]
  rw [Reports] at hx
  cases hns : ns.findSome? Node.foreign? with
  | some v =>
    rw [hns] at hx
    rw [hx]
    rfl
  | none =>
    rw [hns] at hx
    obtain ⟨a, rfl⟩ := hx
    exact hf a

theorem Reports.map {x : Except Unsupported α} (hx : Reports ns x) (f : α → β) :
    Reports ns (x >>= fun a => pure (f a)) := by
  rw [← List.append_nil ns]
  exact hx.bind fun a => reports_pure (f a)

/-- A node with one part that is printed. -/
theorem Reports.one {n : Node} {x : Except Unsupported α} (hx : Reports ns x) {f : α → β}
    (hn : n.foreign? = none) : Reports (n :: (ns ++ [])) (x >>= fun a => pure (f a)) :=
  (hx.bind fun a => reports_pure (f a)).cons hn

/-- A node with two parts that are printed. -/
theorem Reports.two {n : Node} {x : Except Unsupported α} {y : Except Unsupported β} {γ : Type}
    (hx : Reports ns x) (hy : Reports ms y) {f : α → β → γ} (hn : n.foreign? = none) :
    Reports (n :: (ns ++ (ms ++ []))) (x >>= fun a => y >>= fun b => pure (f a b)) :=
  (hx.bind fun a => hy.bind fun b => reports_pure (f a b)).cons hn

/-- A clause with two parts, and what is printed behind it. -/
theorem Reports.clause {n : Node} {ls : List Node} {r : Except Unsupported α}
    (h : Reports (ns ++ (ms ++ ls)) r) (hn : n.foreign? = none) :
    Reports ((n :: (ns ++ (ms ++ []))) ++ ls) r := by
  simpa using h.cons hn

/-- The kind that is named is that of the first node that was not understood. -/
theorem Reports.eq_error_iff {r : Except Unsupported α} (h : Reports ns r) {u : Unsupported} :
    r = .error u ↔ (ns.findSome? Node.foreign?).map Json.kindName = some u.kind := by
  rw [Reports] at h
  cases hns : ns.findSome? Node.foreign? with
  | some v =>
    rw [hns] at h
    rw [h, Option.map_some, Except.error.injEq, Option.some.injEq]
    exact ⟨fun hu => hu ▸ rfl, fun hk => congrArg Unsupported.mk hk⟩
  | none =>
    rw [hns] at h
    obtain ⟨a, rfl⟩ := h
    simp

/-- Printing is refused because of some node. -/
theorem Reports.exists_error_iff {r : Except Unsupported α} (h : Reports ns r) :
    (∃ u, r = .error u) ↔ ∃ n ∈ ns, ∃ v, n.foreign? = some v := by
  rw [Reports] at h
  cases hns : ns.findSome? Node.foreign? with
  | some v =>
    rw [hns] at h
    obtain ⟨n, hn, hv⟩ := List.exists_of_findSome?_eq_some hns
    exact ⟨fun _ => ⟨n, hn, v, hv⟩, fun _ => ⟨_, h⟩⟩
  | none =>
    rw [hns] at h
    obtain ⟨a, rfl⟩ := h
    constructor
    · rintro ⟨u, hu⟩
      cases hu
    · rintro ⟨n, hn, v, hv⟩
      rw [List.findSome?_eq_none_iff.1 hns n hn] at hv
      cases hv

/-- Printing succeeds on trees that were understood, and only on these. -/
theorem Reports.exists_ok_iff {r : Except Unsupported α} (h : Reports ns r) :
    (∃ a, r = .ok a) ↔ ¬∃ n ∈ ns, ∃ v, n.foreign? = some v := by
  rw [← h.exists_error_iff]
  cases r <;> simp

theorem Reports.of_map {x : Except Unsupported α} {f : α → β}
    (h : Reports ns (x >>= fun a => pure (f a))) : Reports ns x := by
  rw [Reports] at h ⊢
  cases hns : ns.findSome? Node.foreign? with
  | some v =>
    rw [hns] at h
    cases x with
    | error e => cases h; rfl
    | ok a => cases h
  | none =>
    rw [hns] at h
    cases x with
    | error e => obtain ⟨_, h⟩ := h; cases h
    | ok a => exact ⟨a, rfl⟩

end Reports

section Parts

variable {layout : Layout} {ns : List Node}

/-- A statement below another one reports the same, wherever it is put. -/
theorem reports_nested {s : Statement} {text : Nat → Printed} (h : ∀ depth, Reports ns (text depth))
    (depth : Nat) : Reports ns (nested layout depth s text) := by
  cases s with
  | block => exact h depth
  | _ => exact (h (depth + 1)).map _

theorem reports_alternate {s : Statement} (h : ∀ depth, Reports ns (statementText layout s depth))
    (depth : Nat) : Reports ns (alternateText layout (some s) depth) := by
  cases s with
  | branch => exact (h depth).map _
  | _ => exact (reports_nested h depth).map _

/-- The nodes that a property shows, in the order of its text. -/
theorem printed_property (key value : Expression) (kind : PropertyKind)
    (computed method shorthand : Bool) :
    (Member.property key value kind computed method shorthand).diagram.printed =
      .clause (.property kind computed method shorthand) ::
        if shorthand && !value.diagram.isMethod kind method then value.diagram.printed
        else key.diagram.printed ++ value.diagram.printed := by
  cases computed <;> rfl

theorem isMethod_function (f : Function) (kind : PropertyKind) (method : Bool) :
    (Expression.function f).diagram.isMethod kind method = (kind != .init || method) := by
  cases f
  rfl

/-- A property reports its key, unless it is in shorthand, and then its value. -/
theorem reports_property {key value : Expression} {depth : Nat}
    (hkey : Reports key.diagram.printed (expressionText layout key depth))
    (hvalue : Reports value.diagram.printed (expressionText layout value depth))
    (kind : PropertyKind) (computed method shorthand : Bool) :
    Reports (Member.property key value kind computed method shorthand).diagram.printed
      (memberText layout (.property key value kind computed method shorthand) depth) := by
  rw [printed_property]
  refine Reports.cons ?_ rfl
  cases value with
  | function f =>
    rw [isMethod_function]
    cases kind with
    | get | set =>
      rw [if_neg (by simp)]
      exact hkey.bind fun _ => hvalue.of_map.map _
    | init =>
      cases method with
      | true =>
        rw [if_neg (by simp)]
        exact hkey.bind fun _ => hvalue.of_map.map _
      | false =>
        cases shorthand with
        | true => exact hvalue.map _
        | false => exact hkey.bind fun _ => hvalue.map _
  | _ =>
    cases shorthand with
    | true => exact hvalue.map _
    | false => exact hkey.bind fun _ => hvalue.map _

end Parts

variable (layout : Layout)

mutual
/-- The text of an expression reports the nodes that are printed. The induction is over the tree,
with one statement for each function of the printer. -/
theorem expression_reports : ∀ (e : Expression) (depth : Nat),
    Reports e.diagram.printed (expressionText layout e depth)
  | .identifier _, _ => (reports_pure _).cons rfl
  | .literal _, _ => (reports_pure _).cons rfl
  | .this, _ => (reports_pure _).cons rfl
  | .array es, depth => ((elements_report es depth).map _).cons rfl
  | .arrayPattern es, depth => ((elements_report es depth).map _).cons rfl
  | .object ms, depth => ((members_report ms depth).map _).cons rfl
  | .objectPattern ms, depth => ((members_report ms depth).map _).cons rfl
  | .function f, depth => by
    have hrest := function_reports f depth
    cases f
    exact hrest.one rfl
  | .arrow params body _ _, depth =>
    ((list_reports params depth).bind fun _ =>
      (arrowBody_reports body depth).map _).append_nil.cons rfl
  | .unary _ _ e, depth => (expression_reports e depth).one rfl
  | .update _ _ e, depth => (expression_reports e depth).one rfl
  | .binary _ l r, depth => (expression_reports l depth).two (expression_reports r depth) rfl
  | .logical _ l r, depth => (expression_reports l depth).two (expression_reports r depth) rfl
  | .assignment _ l r, depth => (expression_reports l depth).two (expression_reports r depth) rfl
  | .assignmentPattern l r, depth =>
    (expression_reports l depth).two (expression_reports r depth) rfl
  | .conditional t c a, depth =>
    ((expression_reports t depth).bind fun _ =>
      (expression_reports c depth).bind fun _ =>
        (expression_reports a depth).bind fun _ => reports_pure _).cons rfl
  | .call callee es _, depth =>
    ((expression_reports callee depth).bind fun _ => (list_reports es depth).map _).cons rfl
  | .new callee es, depth =>
    ((expression_reports callee depth).bind fun _ => (list_reports es depth).map _).cons rfl
  | .member o p computed _, depth => by
    have ho := expression_reports o depth
    have hp := expression_reports p depth
    cases computed <;> exact ho.two hp rfl
  | .sequence es, depth => (list_reports es depth).cons rfl
  | .template quasis es, depth => ((splices_report es quasis.length depth).map _).cons rfl
  | .tagged tag quasi, depth =>
    (expression_reports tag depth).two (expression_reports quasi depth) rfl
  | .spread e, depth => (expression_reports e depth).one rfl
  | .rest e, depth => (expression_reports e depth).one rfl
  | .foreign _, _ => reports_foreign rfl
termination_by structural e => e

theorem list_reports : ∀ (es : List Expression) (depth : Nat),
    Reports (expressionsDiagram es).printed (listText layout es depth)
  | [], _ => reports_pure _
  | e :: rest, depth => (expression_reports e depth).bind fun _ => (list_reports rest depth).map _
termination_by structural l => l

/-- The expressions of a template report as far as there are segments. -/
theorem splices_report : ∀ (es : List Expression) (count depth : Nat),
    Reports ((expressionsDiagram es).printedFirst count) (splicesText layout count es depth)
  | [], 0, _ => reports_pure _
  | [], _ + 1, _ => reports_pure _
  | _ :: _, 0, _ => reports_pure _
  | e :: rest, count + 1, depth =>
    (expression_reports e depth).bind fun _ => (splices_report rest count depth).map _
termination_by structural l => l

theorem element_reports : ∀ (e : Option Expression) (last : Bool) (depth : Nat),
    Reports (optionDiagram e).printed (elementText layout e last depth)
  | none, _, _ => reports_pure _
  | some e, _, depth => (expression_reports e depth).map _
termination_by structural e => e

theorem elements_report : ∀ (es : List (Option Expression)) (depth : Nat),
    Reports (elementsDiagram es).printed (elementsText layout es depth)
  | [], _ => reports_pure _
  | e :: rest, depth =>
    (element_reports e rest.isEmpty depth).bind fun _ => (elements_report rest depth).map _
termination_by structural l => l

theorem member_reports : ∀ (m : Member) (depth : Nat),
    Reports m.diagram.printed (memberText layout m depth)
  | .property key value kind computed method shorthand, depth =>
    reports_property (expression_reports key depth) (expression_reports value depth) kind computed
      method shorthand
  | .spread e, depth => (expression_reports e depth).one rfl
  | .rest e, depth => (expression_reports e depth).one rfl
  | .foreign _, _ => reports_foreign rfl
termination_by structural m => m

theorem members_report : ∀ (ms : List Member) (depth : Nat),
    Reports (membersDiagram ms).printed (membersText layout ms depth)
  | [], _ => reports_pure _
  | m :: rest, depth => (member_reports m depth).bind fun _ => (members_report rest depth).map _
termination_by structural l => l

/-- A function reports its parameters before its body. -/
theorem function_reports : ∀ (f : Function) (depth : Nat),
    Reports (functionDiagram f.params f.body).printed (functionRest layout f depth)
  | ⟨_, params, body, _, _⟩, depth =>
    (list_reports params depth).bind fun _ => (lines_report body (depth + 1)).map _
termination_by structural f => f

theorem arrowBody_reports : ∀ (b : ArrowBody) (depth : Nat),
    Reports b.diagram.printed (arrowBodyText layout b depth)
  | .block body, depth => (lines_report body (depth + 1)).map _
  | .expression e, depth => (expression_reports e depth).map _
termination_by structural b => b

/-- The text of a statement reports its nodes in the order of printing. -/
theorem statement_reports : ∀ (s : Statement) (depth : Nat),
    Reports s.diagram.printed (statementText layout s depth)
  | .expression e _, depth => (expression_reports e depth).one rfl
  | .block body, depth => (lines_report body (depth + 1)).one rfl
  | .empty, _ => (reports_pure _).cons rfl
  | .debugger, _ => (reports_pure _).cons rfl
  | .returns argument, depth => by
    refine Reports.cons ((option_reports argument depth).bind fun text => ?_) rfl
    cases text <;> exact reports_pure _
  | .breaks _, _ => (reports_pure _).cons rfl
  | .continues _, _ => (reports_pure _).cons rfl
  | .labeled _ body, depth => (statement_reports body depth).one rfl
  | .branch test consequent alternate, depth =>
    ((expression_reports test depth).bind fun _ =>
      (reports_nested (statement_reports consequent) depth).bind fun _ =>
        (alternate_reports alternate depth).bind fun _ => reports_pure _).cons rfl
  | .switch discriminant cases, depth =>
    ((expression_reports discriminant depth).bind fun _ =>
      (cases_report cases (depth + 1)).map _).cons rfl
  | .throws argument, depth => (expression_reports argument depth).one rfl
  | .attempt block handler finalizer, depth =>
    ((lines_report block (depth + 1)).bind fun _ =>
      (handler_reports handler depth).bind fun _ =>
        (finalizer_reports finalizer depth).bind fun _ => reports_pure _).cons rfl
  | .whileLoop test body, depth =>
    (expression_reports test depth).two (reports_nested (statement_reports body) depth) rfl
  | .doWhile body test, depth =>
    ((reports_nested (statement_reports body) depth).append_nil.bind fun _ =>
      (expression_reports test depth).map _).cons rfl
  | .forLoop init test update body, depth =>
    ((init_reports init depth).bind fun _ =>
      (option_reports test depth).bind fun _ =>
        (option_reports update depth).bind fun _ =>
          (reports_nested (statement_reports body) depth).bind fun _ => reports_pure _).cons rfl
  | .forIn left right body, depth =>
    ((head_reports left depth).bind fun _ =>
      (expression_reports right depth).bind fun _ =>
        (reports_nested (statement_reports body) depth).bind fun _ => reports_pure _).cons rfl
  | .forOf left right body _, depth =>
    ((head_reports left depth).bind fun _ =>
      (expression_reports right depth).bind fun _ =>
        (reports_nested (statement_reports body) depth).bind fun _ => reports_pure _).cons rfl
  | .function f, depth => by
    have hrest := function_reports f depth
    cases f
    exact hrest.one rfl
  | .declaration d, depth => (declaration_reports d depth).one rfl
  | .foreign _, _ => reports_foreign rfl
termination_by structural s => s

theorem lines_report : ∀ (body : List Statement) (depth : Nat),
    Reports (statementsDiagram body).printed (statementLines layout body depth)
  | [], _ => reports_pure _
  | s :: rest, depth => (statement_reports s depth).bind fun _ => (lines_report rest depth).map _
termination_by structural l => l

theorem option_reports : ∀ (e : Option Expression) (depth : Nat),
    Reports (optionDiagram e).printed (optionText layout e depth)
  | none, _ => reports_pure _
  | some e, depth => (expression_reports e depth).map _
termination_by structural e => e

theorem alternate_reports : ∀ (s : Option Statement) (depth : Nat),
    Reports (alternateDiagram s).printed (alternateText layout s depth)
  | none, _ => reports_pure _
  | some s, depth => reports_alternate (statement_reports s) depth
termination_by structural s => s

/-- The clauses of a switch report one after another, each with its test before its body. -/
theorem cases_report : ∀ (cases : List Case) (depth : Nat),
    Reports (casesDiagram cases).printed (caseLines layout cases depth)
  | [], _ => reports_pure _
  | ⟨test, consequent⟩ :: rest, depth =>
    ((option_reports test depth).bind fun _ =>
      (lines_report consequent (depth + 1)).bind fun _ => (cases_report rest depth).map _).clause
        rfl
termination_by structural l => l

theorem handler_reports : ∀ (h : Option Handler) (depth : Nat),
    Reports (handlerDiagram h).printed (handlerText layout h depth)
  | none, _ => reports_pure _
  | some ⟨none, body⟩, depth => (lines_report body (depth + 1)).one rfl
  | some ⟨some param, body⟩, depth =>
    (expression_reports param depth).two (lines_report body (depth + 1)) rfl
termination_by structural h => h

theorem finalizer_reports : ∀ (b : Option (List Statement)) (depth : Nat),
    Reports (finalizerDiagram b).printed (finalizerText layout b depth)
  | none, _ => reports_pure _
  | some body, depth => (lines_report body (depth + 1)).map _
termination_by structural b => b

theorem declaration_reports : ∀ (d : Declaration) (depth : Nat),
    Reports d.diagram.printed (declarationText layout d depth)
  | ⟨declarators, _⟩, depth => ((declarators_report declarators depth).map _).cons rfl
termination_by structural d => d

theorem declarators_report : ∀ (ds : List Declarator) (depth : Nat),
    Reports (declaratorsDiagram ds).printed (declaratorsText layout ds depth)
  | [], _ => reports_pure _
  | ⟨target, init⟩ :: rest, depth =>
    ((expression_reports target depth).bind fun _ =>
      (initial_reports init depth).bind fun _ => (declarators_report rest depth).map _).clause rfl
termination_by structural l => l

theorem initial_reports : ∀ (e : Option Expression) (depth : Nat),
    Reports (optionDiagram e).printed (initialText layout e depth)
  | none, _ => reports_pure _
  | some e, depth => (expression_reports e depth).map _
termination_by structural e => e

theorem head_reports : ∀ (h : LoopHead) (depth : Nat),
    Reports h.diagram.printed (headText layout h depth)
  | .declaration d, depth => declaration_reports d depth
  | .expression e, depth => expression_reports e depth
termination_by structural h => h

theorem init_reports : ∀ (h : Option LoopHead) (depth : Nat),
    Reports (initDiagram h).printed (initText layout h depth)
  | none, _ => reports_pure _
  | some (.declaration d), depth => declaration_reports d depth
  | some (.expression e), depth => (expression_reports e depth).map _
termination_by structural h => h
end

/-- Printing a program is refused if and only if some printed node was not understood. The kind that
is reported is that of the first one. Both are the same in every layout. -/
theorem source_refused_iff (p : Program) :
    ((∃ u, source layout p = .error u) ↔ ∃ n ∈ p.diagram.printed, ∃ v, n.foreign? = some v) ∧
      (∀ u, source layout p = .error u ↔
        (p.diagram.printed.findSome? Node.foreign?).map Json.kindName = some u.kind) ∧
      ∀ layout' : Layout,
        ((∃ text, source layout p = .ok text) ↔ ∃ text, source layout' p = .ok text) ∧
          ∀ u, source layout p = .error u ↔ source layout' p = .error u := by
  have hreports : ∀ layout, Reports p.diagram.printed (source layout p) :=
    fun layout => lines_report layout p.body 0
  refine ⟨(hreports layout).exists_error_iff, fun u => (hreports layout).eq_error_iff,
    fun layout' => ⟨?_, fun u => ?_⟩⟩
  · rw [(hreports layout).exists_ok_iff, (hreports layout').exists_ok_iff]
  · rw [(hreports layout).eq_error_iff, (hreports layout').eq_error_iff]

end Printer

end Untangle
