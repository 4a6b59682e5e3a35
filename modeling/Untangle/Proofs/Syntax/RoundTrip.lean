import Untangle.Proofs.Syntax.Equality
import Untangle.Proofs.Syntax.Knot

/-!
# Programs read back from their text

A tree that was read from an ordered value, and has no knot, reads as itself
again. The induction is on the value: its readings in all kinds of places are
faithful if those of its parts are. With what is known of knots this says
exactly which programs read back.
-/
namespace Untangle

/-- An expression of a known kind is written as a node of that kind. -/
theorem Expression.toJson_node {e : Expression} (hf : ∀ v, e ≠ .foreign v) :
    ∃ (kind : ExpressionKind) (fields : List (String × Json)),
      e.toJson = nodeJson kind.text fields ∧ ∀ m ∈ fields, m.1 ≠ "type" := by
  cases e
  case foreign v => exact absurd rfl (hf v)
  case literal l =>
    obtain ⟨value, raw, regex, bigint⟩ := l
    refine ⟨.literal, _, rfl, ?_⟩
    cases raw <;> cases regex <;> cases bigint <;> simp [Literal.fields, fieldIfSome]
  case function f =>
    cases f
    exact ⟨.function, _, rfl, by simp [functionFields]⟩
  case call callee es optional =>
    exact ⟨.call, _, rfl, by cases optional <;> simp [fieldIfTrue]⟩
  case member o p computed optional =>
    exact ⟨.member, _, rfl, by cases optional <;> simp [fieldIfTrue]⟩
  all_goals exact ⟨_, _, rfl, by simp⟩

/-- At the head of a loop no kind of expression is taken for a declaration. -/
theorem LoopHead.reread_expression {e : Expression} (hf : ∀ v, e ≠ .foreign v) :
    reread (.expression e) = .expression e.reread := by
  obtain ⟨kind, fields, he, hfields⟩ := Expression.toJson_node hf
  have hk : (Spelled.ofText? kind.text : Option HeadKind) = none := by cases kind <;> rfl
  simp only [reread, headJson, Expression.reread, he]
  simp [nodeJson, again_object, Reading.ofParts, headDeclaration?, tagged?_node hfields, hk]

/-- A value that is no list has no statements. -/
theorem again_statements_eq_none {v : Json} (h : ∀ items, v ≠ .array items) :
    (again v).statements = none := by
  cases v with
  | array items => exact absurd rfl (h items)
  | _ => rfl

/-- A node is no block if what it has as its body is no list. -/
theorem block_node_eq_none {kind : String} {fields : List (String × Json)}
    (h : ∀ v, ("body", v) ∈ fields → (again v).statements = none) :
    (again (nodeJson kind fields)).block = none := by
  simp only [nodeJson, again_object, Reading.ofParts, blockOfParts?, Fields.required,
    get?_rereadFields, fits_rereadFields]
  cases hl : (("type", Json.string kind) :: fields).reverse.lookup "body" with
  | none => rfl
  | some v =>
    obtain ⟨l₁, l₂, happ, -⟩ := List.lookup_eq_some_iff.1 hl
    have hm : ("body", v) ∈ (("type", Json.string kind) :: fields).reverse := by simp [happ]
    have hf : ("body", v) ∈ fields := by simpa using hm
    exact h v hf

/-- As the body of an arrow function, only the inner arrow of a knot is taken for a block. -/
theorem block_eq_none {e : Expression} (hf : ∀ v, e ≠ .foreign v)
    (hk : (ArrowBody.expression e).isKnot = false) : (again e.toJson).block = none := by
  cases e
  case foreign v => exact absurd rfl (hf v)
  case function f =>
    cases f
    refine block_node_eq_none fun v hv => ?_
    obtain rfl : v = _ := by simpa [functionFields] using hv
    rfl
  case arrow params body concise async =>
    refine block_node_eq_none fun v hv => ?_
    obtain rfl : v = arrowBodyJson body := by simpa using hv
    refine again_statements_eq_none fun items hi => ?_
    cases body with
    | block body => cases hi
    | expression inner =>
      by_cases hinner : ∃ w, inner = .foreign w
      · obtain ⟨w, rfl⟩ := hinner
        obtain rfl : w = .array items := hi
        cases hk
      · obtain ⟨kind, fields, hj, -⟩ :=
          Expression.toJson_node fun w hw => hinner ⟨w, hw⟩
        cases hj.symm.trans hi
  case literal l =>
    obtain ⟨value, raw, regex, bigint⟩ := l
    refine block_node_eq_none fun v hv => ?_
    cases raw <;> cases regex <;> cases bigint <;> simp [Literal.fields, fieldIfSome] at hv
  case call callee es optional =>
    refine block_node_eq_none fun v hv => ?_
    cases optional <;> simp [fieldIfTrue] at hv
  case member o p computed optional =>
    refine block_node_eq_none fun v hv => ?_
    cases optional <;> simp [fieldIfTrue] at hv
  all_goals exact block_node_eq_none fun v hv => by simp at hv

/-- What the value reads as, in any kind of place, reads as itself again if it has no knot. A
value that is not `null` is not written as `null`. -/
structure Reading.Faithful (r : Reading) : Prop where
  value : r.value.normal = r.value
  expression : r.expression.knotted = false → r.expression.reread = r.expression
  statement : r.statement.knotted = false → r.statement.reread = r.statement
  member : r.member.knotted = false → r.member.reread = r.member
  loopHead : r.loopHead.knotted = false → r.loopHead.reread = r.loopHead
  arrowBody : r.arrowBody.isKnot = false → r.arrowBody.knotted = false →
    r.arrowBody.reread = r.arrowBody
  block : ∀ body, r.block = some body → knottedStatements body = false →
    body.map Statement.reread = body
  handler : ∀ h, r.handler = some h → knottedHandler (some h) = false → h.reread = h
  case : ∀ c, r.case = some c → knottedCases [c] = false → c.reread = c
  declarator : ∀ d, r.declarator = some d → knottedDeclarators [d] = false → d.reread = d
  expressions : ∀ es, r.expressions = some es → knottedExpressions es = false →
    es.map Expression.reread = es
  elements : ∀ es, r.elements = some es → knottedElements es = false → es.map rereadOption = es
  statements : ∀ ss, r.statements = some ss → knottedStatements ss = false →
    ss.map Statement.reread = ss
  members : ∀ ms, r.members = some ms → knottedMembers ms = false → ms.map Member.reread = ms
  cases : ∀ cs, r.cases = some cs → knottedCases cs = false → cs.map Case.reread = cs
  declarators : ∀ ds, r.declarators = some ds → knottedDeclarators ds = false →
    ds.map Declarator.reread = ds
  expression_null : r.expression.toJson.isNull → r.value.isNull
  statement_null : r.statement.toJson.isNull → r.value.isNull
  loopHead_null : (headJson r.loopHead).isNull → r.value.isNull

/-- A part that may be `null` is absent, or was read from a value that is not. -/
theorem Reading.nullable_eq_some {α : Type} {read : Reading → Option α} {r : Reading}
    {x : Option α} (h : r.nullable read = some x) :
    x = none ∨ ∃ a, r.value.isNull = false ∧ read r = some a ∧ x = some a := by
  unfold nullable at h
  split at h
  · cases h
    exact .inl rfl
  · next hn =>
    obtain ⟨a, ha, rfl⟩ := Option.map_eq_some_iff.1 h
    exact .inr ⟨a, Bool.eq_false_iff.2 hn, ha, rfl⟩

/-- An optional field is absent, or was read from where it was found. -/
theorem Fields.optional_eq_some {α β : Type} {f : Fields α} {place : Nat} {name : String}
    {read : α → Option (Option β)} {x : Option β} (h : f.optional place name read = some x) :
    x = none ∨ ∃ a, f.get? place name = some a ∧ read a = some x := by
  unfold optional at h
  split at h
  · next a ha => exact .inr ⟨a, ha, h⟩
  · cases h
    exact .inl rfl
  · cases h

/-- A part that is not written as `null` stays if it reads as itself. -/
theorem rereadIf_some {α : Type} {write : α → Json} {read : Reading → α} {a : α}
    (hn : ¬ (write a).isNull) (ha : read (again (write a)) = a) :
    rereadIf write read (some a) = some a := by
  rw [rereadIf, Option.bind_some, if_neg hn, ha]

theorem Reading.Faithful.option {r : Reading} (hr : r.Faithful) {x : Option Expression}
    (h : r.expression? = some x) (hk : knottedOption x = false) : rereadOption x = x := by
  rcases nullable_eq_some h with rfl | ⟨e, hn, he, rfl⟩
  · rfl
  · cases he
    exact rereadIf_some (fun h => by simp [hr.expression_null h] at hn) (hr.expression hk)

def Parts.Faithful (f : Parts) : Prop :=
  ∀ ⦃place name r⦄, f.get? place name = some r → r.Faithful

/-- A field that may be `null` or left out. -/
theorem nullable_field {α : Type} {f : Parts} {place : Nat} {name : String}
    {read : Reading → Option α} {x : Option α}
    (h : f.optional place name (fun r => r.nullable read) = some x) :
    x = none ∨ ∃ r a, f.get? place name = some r ∧ r.value.isNull = false ∧ read r = some a ∧
      x = some a := by
  rcases Fields.optional_eq_some h with hx | ⟨r, hr, hx⟩
  · exact .inl hx
  · rcases Reading.nullable_eq_some hx with hx | ⟨a, hn, ha, hx⟩
    · exact .inl hx
    · exact .inr ⟨r, a, hr, hn, ha, hx⟩

namespace Parts.Faithful
variable {f : Parts} (hf : Parts.Faithful f) {place : Nat} {name : String}

include hf

theorem option {x : Option Expression} (h : f.optional place name Reading.expression? = some x)
    (hk : knottedOption x = false) : rereadOption x = x := by
  rcases Fields.optional_eq_some h with rfl | ⟨r, hr, hx⟩
  · rfl
  · exact (hf hr).option hx hk

/-- An alternative that was read from a faithful field reads as itself again. -/
theorem alternate {x : Option Statement}
    (h : f.optional place name (fun r => r.nullable fun r => some r.statement) = some x)
    (hk : knottedAlternate x = false) : rereadIf Statement.toJson Reading.statement x = x := by
  rcases nullable_field h with rfl | ⟨r, e, hr, hn, he, rfl⟩
  · rfl
  · cases he
    exact rereadIf_some (fun h => by simp [(hf hr).statement_null h] at hn) ((hf hr).statement hk)

theorem init {x : Option LoopHead}
    (h : f.optional place name (fun r => r.nullable fun r => some r.loopHead) = some x)
    (hk : knottedInit x = false) : rereadIf headJson Reading.loopHead x = x := by
  rcases nullable_field h with rfl | ⟨r, e, hr, hn, he, rfl⟩
  · rfl
  · cases he
    exact rereadIf_some (fun h => by simp [(hf hr).loopHead_null h] at hn) ((hf hr).loopHead hk)

theorem handler {x : Option Handler}
    (h : f.optional place name (fun r => r.nullable Reading.handler) = some x)
    (hk : knottedHandler x = false) : x.map Handler.reread = x := by
  rcases nullable_field h with rfl | ⟨r, c, hr, -, hc, rfl⟩
  · rfl
  · exact congrArg some ((hf hr).handler c hc hk)

theorem finalizer {x : Option (List Statement)}
    (h : f.optional place name (fun r => r.nullable Reading.block) = some x)
    (hk : knottedFinalizer x = false) : x.map (List.map Statement.reread) = x := by
  rcases nullable_field h with rfl | ⟨r, b, hr, -, hb, rfl⟩
  · rfl
  · exact congrArg some ((hf hr).block b hb hk)

theorem block {body : List Statement} (h : f.required place name Reading.block = some body)
    (hk : knottedStatements body = false) : body.map Statement.reread = body := by
  obtain ⟨r, hr, hb⟩ := Option.bind_eq_some_iff.1 h
  exact (hf hr).block body hb hk

theorem expressions {es : List Expression}
    (h : f.required place name Reading.expressions = some es)
    (hk : knottedExpressions es = false) : es.map Expression.reread = es := by
  obtain ⟨r, hr, hes⟩ := Option.bind_eq_some_iff.1 h
  exact (hf hr).expressions es hes hk

theorem elements {es : List (Option Expression)}
    (h : f.required place name Reading.elements = some es)
    (hk : knottedElements es = false) : es.map rereadOption = es := by
  obtain ⟨r, hr, hes⟩ := Option.bind_eq_some_iff.1 h
  exact (hf hr).elements es hes hk

theorem statements {ss : List Statement}
    (h : f.required place name Reading.statements = some ss)
    (hk : knottedStatements ss = false) : ss.map Statement.reread = ss := by
  obtain ⟨r, hr, hss⟩ := Option.bind_eq_some_iff.1 h
  exact (hf hr).statements ss hss hk

theorem members {ms : List Member} (h : f.required place name Reading.members = some ms)
    (hk : knottedMembers ms = false) : ms.map Member.reread = ms := by
  obtain ⟨r, hr, hms⟩ := Option.bind_eq_some_iff.1 h
  exact (hf hr).members ms hms hk

theorem cases {cs : List Case} (h : f.required place name Reading.cases = some cs)
    (hk : knottedCases cs = false) : cs.map Case.reread = cs := by
  obtain ⟨r, hr, hcs⟩ := Option.bind_eq_some_iff.1 h
  exact (hf hr).cases cs hcs hk

theorem declarators {ds : List Declarator}
    (h : f.required place name Reading.declarators = some ds)
    (hk : knottedDeclarators ds = false) : ds.map Declarator.reread = ds := by
  obtain ⟨r, hr, hds⟩ := Option.bind_eq_some_iff.1 h
  exact (hf hr).declarators ds hds hk

end Parts.Faithful

theorem LiteralValue.reread_ofJson {v : Json} (hv : v.normal = v) :
    (LiteralValue.ofJson v).reread = .ofJson v := by
  cases v with
  | array items => exact congrArg LiteralValue.ofJson hv
  | object members => exact congrArg LiteralValue.ofJson hv
  | _ => rfl

/-- A function that was read from faithful fields reads as itself again, if it has no knot. -/
theorem Function.reread_of_ofParts? {f : Parts} (hf : Parts.Faithful f) {g : Function}
    (h : Function.ofParts? f = some g) (hk : g.knotted = false) : g.reread = g := by
  simp only [Function.ofParts?, Option.bind_eq_bind, Option.bind_eq_some_iff, Option.pure_def,
    Option.some.injEq] at h
  obtain ⟨_, -, name, -, params, hp, body, hb, _, -, _, -, rfl⟩ := h
  simp only [Function.knotted, Bool.or_eq_false_iff] at hk
  simp [Function.reread, hf.expressions hp hk.1, hf.block hb hk.2]

theorem Declaration.reread_of_ofParts? {f : Parts} (hf : Parts.Faithful f) {d : Declaration}
    (h : Declaration.ofParts? f = some d) (hk : d.knotted = false) : d.reread = d := by
  simp only [Declaration.ofParts?, Option.bind_eq_bind, Option.bind_eq_some_iff, Option.pure_def,
    Option.some.injEq] at h
  obtain ⟨_, -, ds, hd, _, -, rfl⟩ := h
  simp [Declaration.reread, hf.declarators hd hk]

/-- An expression that was read from faithful fields reads as itself again, if it has no knot. -/
theorem Expression.reread_of_ofParts? {kind : ExpressionKind} {f : Parts} (hf : Parts.Faithful f)
    {e : Expression} (h : Expression.ofParts? kind f = some e) (hk : e.knotted = false) :
    e.reread = e := by
  rw [Expression.reread_eq]
  cases kind
  all_goals
    simp only [Expression.ofParts?, Expression.infixParts?, Literal.ofParts?,
      Option.map_eq_some_iff,
      Option.bind_eq_bind, Option.bind_eq_some_iff, Option.pure_def, Option.some.injEq] at h
  case identifier =>
    obtain ⟨_, -, _, -, rfl⟩ := h
    rfl
  case literal =>
    obtain ⟨_, ⟨_, -, v, hv, _, -, _, -, _, -, rfl⟩, rfl⟩ := h
    simp [Expression.rereadParts, LiteralValue.reread_ofJson (hf hv).value]
  case this =>
    obtain ⟨_, -, rfl⟩ := h
    rfl
  case array =>
    obtain ⟨_, -, es, hes, rfl⟩ := h
    simp [Expression.rereadParts, hf.elements hes hk]
  case object =>
    obtain ⟨_, -, ms, hms, rfl⟩ := h
    simp [Expression.rereadParts, hf.members hms hk]
  case function =>
    obtain ⟨g, hg, rfl⟩ := h
    simp [Expression.rereadParts, Function.reread_of_ofParts? hf hg hk]
  case arrow =>
    obtain ⟨_, -, params, hp, body, hb, _, -, _, -, rfl⟩ := h
    simp only [Expression.knotted, Bool.or_eq_false_iff] at hk
    simp [Expression.rereadParts, hf.expressions hp hk.1.2, (hf hb).arrowBody hk.1.1 hk.2]
  case unary =>
    obtain ⟨_, -, _, -, _, -, e, he, rfl⟩ := h
    simp [Expression.rereadParts, (hf he).expression hk]
  case update =>
    obtain ⟨_, -, _, -, _, -, e, he, rfl⟩ := h
    simp [Expression.rereadParts, (hf he).expression hk]
  case binary =>
    obtain ⟨_, ⟨_, -, _, -, l, hl, r, hr, rfl⟩, rfl⟩ := h
    simp only [Expression.knotted, Bool.or_eq_false_iff] at hk
    simp [Expression.rereadParts, (hf hl).expression hk.1, (hf hr).expression hk.2]
  case logical =>
    obtain ⟨_, ⟨_, -, _, -, l, hl, r, hr, rfl⟩, rfl⟩ := h
    simp only [Expression.knotted, Bool.or_eq_false_iff] at hk
    simp [Expression.rereadParts, (hf hl).expression hk.1, (hf hr).expression hk.2]
  case assignment =>
    obtain ⟨_, ⟨_, -, _, -, l, hl, r, hr, rfl⟩, rfl⟩ := h
    simp only [Expression.knotted, Bool.or_eq_false_iff] at hk
    simp [Expression.rereadParts, (hf hl).expression hk.1, (hf hr).expression hk.2]
  case conditional =>
    obtain ⟨_, -, t, ht, c, hc, a, ha, rfl⟩ := h
    simp only [Expression.knotted, Bool.or_eq_false_iff] at hk
    simp [Expression.rereadParts, (hf ht).expression hk.1.1, (hf hc).expression hk.1.2,
      (hf ha).expression hk.2]
  case call =>
    obtain ⟨_, -, c, hc, es, hes, _, -, rfl⟩ := h
    simp only [Expression.knotted, Bool.or_eq_false_iff] at hk
    simp [Expression.rereadParts, (hf hc).expression hk.1, hf.expressions hes hk.2]
  case new =>
    obtain ⟨_, -, c, hc, es, hes, rfl⟩ := h
    simp only [Expression.knotted, Bool.or_eq_false_iff] at hk
    simp [Expression.rereadParts, (hf hc).expression hk.1, hf.expressions hes hk.2]
  case member =>
    obtain ⟨_, -, o, ho, p, hp, _, -, _, -, rfl⟩ := h
    simp only [Expression.knotted, Bool.or_eq_false_iff] at hk
    simp [Expression.rereadParts, (hf ho).expression hk.1, (hf hp).expression hk.2]
  case sequence =>
    obtain ⟨_, -, es, hes, rfl⟩ := h
    simp [Expression.rereadParts, hf.expressions hes hk]
  case template =>
    obtain ⟨_, -, _, -, es, hes, rfl⟩ := h
    simp [Expression.rereadParts, hf.expressions hes hk]
  case tagged =>
    obtain ⟨_, -, t, ht, q, hq, rfl⟩ := h
    simp only [Expression.knotted, Bool.or_eq_false_iff] at hk
    simp [Expression.rereadParts, (hf ht).expression hk.1, (hf hq).expression hk.2]
  case spread =>
    obtain ⟨_, -, e, he, rfl⟩ := h
    simp [Expression.rereadParts, (hf he).expression hk]
  case assignmentPattern =>
    obtain ⟨_, -, l, hl, r, hr, rfl⟩ := h
    simp only [Expression.knotted, Bool.or_eq_false_iff] at hk
    simp [Expression.rereadParts, (hf hl).expression hk.1, (hf hr).expression hk.2]
  case arrayPattern =>
    obtain ⟨_, -, es, hes, rfl⟩ := h
    simp [Expression.rereadParts, hf.elements hes hk]
  case objectPattern =>
    obtain ⟨_, -, ms, hms, rfl⟩ := h
    simp [Expression.rereadParts, hf.members hms hk]
  case rest =>
    obtain ⟨_, -, e, he, rfl⟩ := h
    simp [Expression.rereadParts, (hf he).expression hk]

theorem Member.reread_of_ofParts? {kind : MemberKind} {f : Parts} (hf : Parts.Faithful f)
    {m : Member}
    (h : Member.ofParts? kind f = some m) (hk : m.knotted = false) : m.reread = m := by
  rw [Member.reread_eq]
  cases kind
  all_goals simp only [Member.ofParts?, Option.bind_eq_bind, Option.bind_eq_some_iff,
    Option.pure_def, Option.some.injEq] at h
  case property =>
    obtain ⟨_, -, k, hkey, v, hv, _, -, _, -, _, -, _, -, rfl⟩ := h
    simp only [Member.knotted, Bool.or_eq_false_iff] at hk
    simp [Member.rereadParts, (hf hkey).expression hk.1, (hf hv).expression hk.2]
  case spread =>
    obtain ⟨_, -, e, he, rfl⟩ := h
    simp [Member.rereadParts, (hf he).expression hk]
  case rest =>
    obtain ⟨_, -, e, he, rfl⟩ := h
    simp [Member.rereadParts, (hf he).expression hk]

/-- A statement that was read from faithful fields reads as itself again, if it has no knot. -/
theorem Statement.reread_of_ofParts? {kind : StatementKind} {f : Parts} (hf : Parts.Faithful f)
    {s : Statement} (h : Statement.ofParts? kind f = some s) (hk : s.knotted = false) :
    s.reread = s := by
  rw [Statement.reread_eq]
  cases kind
  all_goals
    simp only [Statement.ofParts?, Option.map_eq_some_iff, Option.bind_eq_bind,
      Option.bind_eq_some_iff, Option.pure_def, Option.some.injEq] at h
  case expression =>
    obtain ⟨_, -, e, he, _, -, rfl⟩ := h
    simp [Statement.rereadParts, (hf he).expression hk]
  case block =>
    obtain ⟨_, -, ss, hss, rfl⟩ := h
    simp [Statement.rereadParts, hf.statements hss hk]
  case empty =>
    obtain ⟨_, -, rfl⟩ := h
    rfl
  case debugger =>
    obtain ⟨_, -, rfl⟩ := h
    rfl
  case returns =>
    obtain ⟨_, -, x, hx, rfl⟩ := h
    simp [Statement.rereadParts, hf.option hx hk]
  case breaks =>
    obtain ⟨_, -, _, -, rfl⟩ := h
    rfl
  case continues =>
    obtain ⟨_, -, _, -, rfl⟩ := h
    rfl
  case labeled =>
    obtain ⟨_, -, _, -, b, hb, rfl⟩ := h
    simp [Statement.rereadParts, (hf hb).statement hk]
  case branch =>
    obtain ⟨_, -, t, ht, c, hc, a, ha, rfl⟩ := h
    simp only [Statement.knotted, Bool.or_eq_false_iff] at hk
    simp [Statement.rereadParts, (hf ht).expression hk.1.1, (hf hc).statement hk.1.2,
      hf.alternate ha hk.2]
  case switch =>
    obtain ⟨_, -, d, hd, cs, hcs, rfl⟩ := h
    simp only [Statement.knotted, Bool.or_eq_false_iff] at hk
    simp [Statement.rereadParts, (hf hd).expression hk.1, hf.cases hcs hk.2]
  case throws =>
    obtain ⟨_, -, e, he, rfl⟩ := h
    simp [Statement.rereadParts, (hf he).expression hk]
  case attempt =>
    obtain ⟨_, -, b, hb, c, hc, x, hx, rfl⟩ := h
    simp only [Statement.knotted, Bool.or_eq_false_iff] at hk
    simp [Statement.rereadParts, hf.block hb hk.1.1, hf.handler hc hk.1.2, hf.finalizer hx hk.2]
  case whileLoop =>
    obtain ⟨_, -, t, ht, b, hb, rfl⟩ := h
    simp only [Statement.knotted, Bool.or_eq_false_iff] at hk
    simp [Statement.rereadParts, (hf ht).expression hk.1, (hf hb).statement hk.2]
  case doWhile =>
    obtain ⟨_, -, b, hb, t, ht, rfl⟩ := h
    simp only [Statement.knotted, Bool.or_eq_false_iff] at hk
    simp [Statement.rereadParts, (hf hb).statement hk.1, (hf ht).expression hk.2]
  case forLoop =>
    obtain ⟨_, -, i, hi, t, ht, u, hu, b, hb, rfl⟩ := h
    simp only [Statement.knotted, Bool.or_eq_false_iff] at hk
    simp [Statement.rereadParts, hf.init hi hk.1.1.1, hf.option ht hk.1.1.2, hf.option hu hk.1.2,
      (hf hb).statement hk.2]
  case forIn =>
    obtain ⟨_, -, l, hl, r, hr, b, hb, rfl⟩ := h
    simp only [Statement.knotted, Bool.or_eq_false_iff] at hk
    simp [Statement.rereadParts, (hf hl).loopHead hk.1.1, (hf hr).expression hk.1.2,
      (hf hb).statement hk.2]
  case forOf =>
    obtain ⟨_, -, l, hl, r, hr, b, hb, _, -, rfl⟩ := h
    simp only [Statement.knotted, Bool.or_eq_false_iff] at hk
    simp [Statement.rereadParts, (hf hl).loopHead hk.1.1, (hf hr).expression hk.1.2,
      (hf hb).statement hk.2]
  case function =>
    obtain ⟨g, hg, rfl⟩ := h
    simp [Statement.rereadParts, Function.reread_of_ofParts? hf hg hk]
  case declaration =>
    obtain ⟨d, hd, rfl⟩ := h
    simp [Statement.rereadParts, Declaration.reread_of_ofParts? hf hd hk]

theorem Handler.reread_of_ofParts? {f : Parts} (hf : Parts.Faithful f) {c : Handler}
    (h : Handler.ofParts? f = some c) (hk : knottedHandler (some c) = false) : c.reread = c := by
  simp only [Handler.ofParts?, Option.bind_eq_bind, Option.bind_eq_some_iff, Option.pure_def,
    Option.some.injEq] at h
  obtain ⟨_, -, x, hx, b, hb, rfl⟩ := h
  simp only [knottedHandler, Bool.or_eq_false_iff] at hk
  simp [Handler.reread, hf.option hx hk.1, hf.block hb hk.2]

theorem Case.reread_of_ofParts? {f : Parts} (hf : Parts.Faithful f) {c : Case}
    (h : Case.ofParts? f = some c) (hk : knottedCases [c] = false) : c.reread = c := by
  simp only [Case.ofParts?, Option.bind_eq_bind, Option.bind_eq_some_iff, Option.pure_def,
    Option.some.injEq] at h
  obtain ⟨_, -, x, hx, ss, hss, rfl⟩ := h
  simp only [knottedCases, Bool.or_eq_false_iff] at hk
  simp [Case.reread, hf.option hx hk.1.1, hf.statements hss hk.1.2]

theorem Declarator.reread_of_ofParts? {f : Parts} (hf : Parts.Faithful f) {d : Declarator}
    (h : Declarator.ofParts? f = some d) (hk : knottedDeclarators [d] = false) : d.reread = d := by
  simp only [Declarator.ofParts?, Option.bind_eq_bind, Option.bind_eq_some_iff, Option.pure_def,
    Option.some.injEq] at h
  obtain ⟨_, -, t, ht, x, hx, rfl⟩ := h
  simp only [knottedDeclarators, Bool.or_eq_false_iff] at hk
  have hr := (hf ht).expression hk.1.1
  rw [Expression.reread] at hr
  simp [Declarator.reread, Expression.reread, hr, hf.option hx hk.1.2]

/-- What was read by its kind was understood. -/
theorem Expression.ofParts?_ne_foreign {kind : ExpressionKind} {f : Parts} {e : Expression}
    (h : Expression.ofParts? kind f = some e) (v : Json) : e ≠ .foreign v := by
  rintro rfl
  cases kind <;>
    simp [Expression.ofParts?, Option.bind_eq_some_iff] at h

/-- A statement that was understood is not written as `null`. -/
theorem Statement.isNull_of_ofParts? {kind : StatementKind} {f : Parts} {s : Statement}
    (h : Statement.ofParts? kind f = some s) : s.toJson.isNull = false := by
  cases s
  case foreign v =>
    cases kind <;> simp [Statement.ofParts?, Option.bind_eq_some_iff] at h
  case declaration d =>
    cases d
    rfl
  all_goals rfl

theorem Parts.Faithful.tagged {α : Type} [Spelled α] {parts f : Parts} {kind : α}
    (hf : Parts.Faithful parts)
    (h : tagged? parts = some (kind, f)) : Parts.Faithful f := by
  unfold tagged? at h
  split at h
  · simp only [Option.bind_eq_bind, Option.bind_eq_some_iff, Option.pure_def, Option.some.injEq,
    Prod.mk.injEq] at h
    obtain ⟨_, -, _, -, -, rfl⟩ := h
    exact hf
  · next tag items =>
    simp only [Option.bind_eq_bind, Option.bind_eq_some_iff, Option.pure_def, Option.some.injEq,
      Prod.mk.injEq] at h
    obtain ⟨_, -, -, rfl⟩ := h
    intro place name r hr
    exact @hf (place + 1) name r hr
  · cases h

/-- A value that was not understood as an expression is read in the same way again. -/
theorem Expression.reread_foreign {v : Json} (hv : v.normal = v) :
    (Expression.foreign v).reread = (Reading.ofJson v).expression := by
  rw [Expression.reread, Expression.toJson, again, hv]

namespace Reading

/-- A scalar is faithful, as it is read as nothing but itself. -/
theorem faithful_ofScalar {v : Json} (hv : v.normal = v) (hs : ofJson v = ofScalar v) :
    (ofScalar v).Faithful := by
  have hagain : again v = ofScalar v := by rw [again, hv, hs]
  constructor
  case value => exact hv
  case expression => exact fun _ => congrArg Reading.expression hagain
  case statement => exact fun _ => congrArg Reading.statement hagain
  case member => exact fun _ => congrArg Reading.member hagain
  case loopHead => exact fun _ => congrArg Reading.loopHead hagain
  case arrowBody => exact fun _ _ => congrArg Reading.arrowBody hagain
  case expression_null => exact id
  case statement_null => exact id
  case loopHead_null => exact id
  all_goals
    intro _ h
    cases h

/-- A record is foreign or of a kind whose fields are faithful. -/
theorem kind_of_tagged {α β : Type} [Spelled α] {parts : Parts} (hf : Parts.Faithful parts)
    (read : α → Parts → Option β) (other : β) {b : β}
    (hb : ((tagged? parts).bind fun (kind, f) => read kind f).getD other = b) :
    b = other ∨ ∃ kind f, Parts.Faithful f ∧ read kind f = some b := by
  cases ht : (tagged? parts : Option (α × Parts)) with
  | none =>
    rw [ht] at hb
    exact .inl hb.symm
  | some t =>
    obtain ⟨kind, f⟩ := t
    rw [ht] at hb
    simp only [Option.bind_some] at hb
    cases he : read kind f with
    | none =>
      rw [he] at hb
      exact .inl hb.symm
    | some e =>
      rw [he] at hb
      exact .inr ⟨kind, f, hf.tagged ht, he.trans (congrArg some hb)⟩

section Record
variable {v : Json} {parts : Parts} (hf : Parts.Faithful parts)

include hf

/-- A record reads as an expression of its kind, from faithful fields, or is not understood. -/
theorem expression_ofParts : (ofParts v parts).expression = .foreign v ∨
    ∃ kind f, Parts.Faithful f ∧ Expression.ofParts? kind f = some (ofParts v parts).expression :=
  kind_of_tagged hf Expression.ofParts? _ rfl

theorem statement_ofParts : (ofParts v parts).statement = .foreign v ∨
    ∃ kind f, Parts.Faithful f ∧ Statement.ofParts? kind f = some (ofParts v parts).statement :=
  kind_of_tagged hf Statement.ofParts? _ rfl

theorem member_ofParts : (ofParts v parts).member = .foreign v ∨
    ∃ kind f, Parts.Faithful f ∧ Member.ofParts? kind f = some (ofParts v parts).member :=
  kind_of_tagged hf Member.ofParts? _ rfl

/-- A record in the head of a loop is a declaration if it says so, and an expression otherwise. -/
theorem loopHead_ofParts :
    (ofParts v parts).loopHead = .expression (ofParts v parts).expression ∨
    ∃ d f, Parts.Faithful f ∧ Declaration.ofParts? f = some d ∧
      (ofParts v parts).loopHead = .declaration d := by
  simp only [ofParts, headDeclaration?]
  cases ht : (tagged? parts : Option (HeadKind × Parts)) with
  | none => exact .inl rfl
  | some t =>
    obtain ⟨_, f⟩ := t
    simp only [Option.bind_eq_bind, Option.bind_some]
    cases hd : Declaration.ofParts? f with
    | none => exact .inl rfl
    | some d => exact .inr ⟨d, f, hf.tagged ht, hd, rfl⟩

theorem reread_block {body : List Statement} (hb : (ofParts v parts).block = some body)
    (hk : knottedStatements body = false) : body.map Statement.reread = body := by
  obtain ⟨_, -, h⟩ := Option.bind_eq_some_iff.1 hb
  exact hf.statements h hk

/-- Only `null` reads as an expression that is written as `null`. -/
theorem expression_null (h : (ofParts v parts).expression.toJson.isNull) : v.isNull := by
  rcases expression_ofParts hf with he | ⟨kind, f, hff, he⟩
  · rwa [he] at h
  · obtain ⟨kind, fields, hj, -⟩ := Expression.toJson_node (Expression.ofParts?_ne_foreign he)
    rw [hj] at h
    cases h

theorem statement_null (h : (ofParts v parts).statement.toJson.isNull) : v.isNull := by
  rcases statement_ofParts hf with hs | ⟨kind, f, hff, hs⟩
  · rwa [hs] at h
  · rw [Statement.isNull_of_ofParts? hs] at h
    cases h

theorem loopHead_null (h : (headJson (ofParts v parts).loopHead).isNull) : v.isNull := by
  rcases loopHead_ofParts hf with hl | ⟨d, f, hff, hd, hl⟩
  · rw [hl] at h
    exact expression_null hf h
  · rw [hl] at h
    cases d
    cases h

end Record

/-- The value is read as the record of its parts. -/
structure IsRecord (v : Json) (parts : Parts) : Prop where
  expression : (ofJson v).expression = (ofParts v parts).expression
  statement : (ofJson v).statement = (ofParts v parts).statement
  member : (ofJson v).member = (ofParts v parts).member
  loopHead : (ofJson v).loopHead = (ofParts v parts).loopHead
  block : (ofJson v).block = (ofParts v parts).block

section Faithful
variable {v : Json} {parts : Parts} (hv : v.normal = v) (hr : IsRecord v parts)
  (hf : Parts.Faithful parts)

include hv hr hf

/-- An expression that was read from a record reads as itself again. -/
theorem reread_expression (hk : (ofParts v parts).expression.knotted = false) :
    (ofParts v parts).expression.reread = (ofParts v parts).expression := by
  rcases expression_ofParts hf with h | ⟨kind, f, hff, h⟩
  · rw [h, Expression.reread_foreign hv, hr.expression, h]
  · exact Expression.reread_of_ofParts? hff h hk

theorem reread_statement (hk : (ofParts v parts).statement.knotted = false) :
    (ofParts v parts).statement.reread = (ofParts v parts).statement := by
  rcases statement_ofParts hf with h | ⟨kind, f, hff, h⟩
  · rw [h, Statement.reread, Statement.toJson, again, hv, hr.statement, h]
  · exact Statement.reread_of_ofParts? hff h hk

theorem reread_member (hk : (ofParts v parts).member.knotted = false) :
    (ofParts v parts).member.reread = (ofParts v parts).member := by
  rcases member_ofParts hf with h | ⟨kind, f, hff, h⟩
  · rw [h, Member.reread, Member.toJson, again, hv, hr.member, h]
  · exact Member.reread_of_ofParts? hff h hk

theorem reread_loopHead (hk : (ofParts v parts).loopHead.knotted = false) :
    (ofParts v parts).loopHead.reread = (ofParts v parts).loopHead := by
  rcases loopHead_ofParts hf with h | ⟨d, f, hff, hd, h⟩
  · rw [h] at hk ⊢
    rcases expression_ofParts hf with he | ⟨kind, f, hff, he⟩
    · rw [he, LoopHead.reread, headJson, Expression.toJson, again, hv, hr.loopHead, h, he]
    · rw [LoopHead.reread_expression (Expression.ofParts?_ne_foreign he),
        reread_expression hv hr hf hk]
  · rw [h] at hk ⊢
    rw [LoopHead.reread_declaration, Declaration.reread_of_ofParts? hff hd hk]

/-- The body of an arrow function reads as itself again, unless the body itself is the knot. -/
theorem reread_arrowBody (hi : (ofParts v parts).arrowBody.isKnot = false)
    (hk : (ofParts v parts).arrowBody.knotted = false) :
    (ofParts v parts).arrowBody.reread = (ofParts v parts).arrowBody := by
  have harrow : (ofParts v parts).arrowBody = ((ofParts v parts).block.map .block).getD
      (.expression (ofParts v parts).expression) := rfl
  rw [harrow] at hi hk ⊢
  cases hb : (ofParts v parts).block with
  | some body =>
    rw [hb] at hk
    simp only [Option.map_some, Option.getD_some]
    rw [ArrowBody.reread_block, reread_block hf hb hk]
  | none =>
    rw [hb] at hi hk
    simp only [Option.map_none, Option.getD_none] at hi hk ⊢
    have hnone : (again (ofParts v parts).expression.toJson).block = none := by
      rcases expression_ofParts hf with he | ⟨kind, f, hff, he⟩
      · rw [he, Expression.toJson, again, hv, hr.block, hb]
      · exact block_eq_none (Expression.ofParts?_ne_foreign he) hi
    rw [ArrowBody.reread_expression, hnone, reread_expression hv hr hf hk]
    rfl

/-- A record is faithful if its fields are. -/
theorem faithful_ofParts : (ofParts v parts).Faithful where
  value := hv
  expression := reread_expression hv hr hf
  statement := reread_statement hv hr hf
  member := reread_member hv hr hf
  loopHead := reread_loopHead hv hr hf
  arrowBody := reread_arrowBody hv hr hf
  block _ := reread_block hf
  handler _ := Handler.reread_of_ofParts? hf
  case _ := Case.reread_of_ofParts? hf
  declarator _ := Declarator.reread_of_ofParts? hf
  expressions := nofun
  elements := nofun
  statements := nofun
  members := nofun
  cases := nofun
  declarators := nofun
  expression_null := expression_null hf
  statement_null := statement_null hf
  loopHead_null := loopHead_null hf

end Faithful

/-- A list whose items are read one by one. -/
theorem reread_mapM {β : Type} {read : Reading → Option β} {reread : β → β}
    (knotted : List β → Bool) {items : List Reading} {bs : List β}
    (hcons : ∀ b bs, knotted (b :: bs) = false → knotted [b] = false ∧ knotted bs = false)
    (hread : ∀ r ∈ items, ∀ b, read r = some b → knotted [b] = false → reread b = b)
    (h : items.mapM read = some bs) (hk : knotted bs = false) : bs.map reread = bs := by
  induction items generalizing bs with
  | nil =>
    cases h
    rfl
  | cons r items ih =>
    simp only [List.mapM_cons, Option.bind_eq_bind, Option.bind_eq_some_iff, Option.pure_def,
      Option.some.injEq] at h
    obtain ⟨b, hb, bs, hbs, rfl⟩ := h
    obtain ⟨hk1, hk2⟩ := hcons b bs hk
    rw [List.map_cons, hread r List.mem_cons_self b hb hk1,
      ih (fun r hr => hread r (List.mem_cons_of_mem _ hr)) hbs hk2]

/-- A list is faithful if its items are. -/
theorem faithful_ofItems {v : Json} {items : List Reading} (hv : v.normal = v)
    (hr : IsRecord v (.listed items)) (hi : ∀ r ∈ items, r.Faithful) :
    (ofItems v items).Faithful := by
  have hf : Parts.Faithful (.listed items) := fun _ _ _ hr => hi _ (List.mem_of_getElem? hr)
  have h := faithful_ofParts hv hr hf
  have hmap : ∀ {β : Type} (f : Reading → β),
      items.mapM (fun r => some (f r)) = some (items.map f) :=
    fun f => mapM_eq_some_map fun _ _ => rfl
  exact {
    value := h.value
    expression := h.expression
    statement := h.statement
    member := h.member
    loopHead := h.loopHead
    arrowBody := h.arrowBody
    block := h.block
    handler := h.handler
    case := h.case
    declarator := h.declarator
    expression_null := h.expression_null
    statement_null := h.statement_null
    loopHead_null := h.loopHead_null
    expressions := fun es hes hk => by
      cases hes
      refine reread_mapM knottedExpressions ?_ ?_ (hmap expression) hk
      · simp [knottedExpressions]
      · simp only [knottedExpressions, Option.some.injEq, Bool.or_false]
        rintro r hr _ rfl hk
        exact (hi r hr).expression hk
    elements := fun es hes hk => by
      refine reread_mapM knottedElements ?_ ?_ hes hk
      · simp [knottedElements]
      · simp only [knottedElements, Bool.or_false]
        exact fun r hr x hx hk => (hi r hr).option hx hk
    statements := fun ss hss hk => by
      cases hss
      refine reread_mapM knottedStatements ?_ ?_ (hmap statement) hk
      · simp [knottedStatements]
      · simp only [knottedStatements, Option.some.injEq, Bool.or_false]
        rintro r hr _ rfl hk
        exact (hi r hr).statement hk
    members := fun ms hms hk => by
      cases hms
      refine reread_mapM knottedMembers ?_ ?_ (hmap member) hk
      · simp [knottedMembers]
      · simp only [knottedMembers, Option.some.injEq, Bool.or_false]
        rintro r hr _ rfl hk
        exact (hi r hr).member hk
    cases := fun cs hcs hk => by
      refine reread_mapM knottedCases ?_ (fun r hr c => (hi r hr).case c) hcs hk
      rintro ⟨test, consequent⟩ cs
      simp [knottedCases]
    declarators := fun ds hds hk => by
      refine reread_mapM knottedDeclarators ?_
        (fun r hr d => (hi r hr).declarator d) hds hk
      rintro ⟨target, init⟩ ds
      simp [knottedDeclarators] }

mutual
/-- Every ordered value is faithful. The induction is on the value. -/
theorem faithful_ofJson : ∀ v : Json, v.Ordered → (ofJson v).Faithful
  | .null, h | .boolean _, h | .integer _, h | .double _, h | .string _, h =>
    faithful_ofScalar (Json.normal_of_ordered _ h) rfl
  | .array items, h =>
    faithful_ofItems (Json.normal_of_ordered _ h) ⟨rfl, rfl, rfl, rfl, rfl⟩
      (faithful_ofList items h)
  | .object members, h =>
    faithful_ofParts (Json.normal_of_ordered _ h) ⟨rfl, rfl, rfl, rfl, rfl⟩
      (faithful_ofMembers members h.2)
termination_by structural v => v
theorem faithful_ofList : ∀ items : List Json, Json.OrderedItems items →
    ∀ r ∈ ofList items, r.Faithful
  | [], _ => nofun
  | v :: items, h =>
    List.forall_mem_cons.2 ⟨faithful_ofJson v h.1, faithful_ofList items h.2⟩
termination_by structural l => l
theorem faithful_ofMembers : ∀ members : List (String × Json), Json.OrderedMembers members →
    Parts.Faithful (.named (ofMembers members))
  | [], _ => by
    intro place n r hr
    cases hr
  | (name, v) :: members, h => by
    intro place n r hr
    have hr : ((name, ofJson v) :: ofMembers members).lookup n = some r := hr
    rw [Json.lookup_member] at hr
    split at hr
    · cases hr
      exact faithful_ofJson v h.1
    · exact @faithful_ofMembers members h.2 place n r hr
termination_by structural l => l
end

end Reading

namespace Program

/-- What is written for a program is always read as a program. -/
theorem ofText_toText {p : Program} (h : p.toJson.Legible) :
    ofText p.toText = .ok ⟨p.body.map Statement.reread, p.sourceType⟩ := by
  have hblank : p.toText.toList.all Text.isBlank = false := by
    have hhead : ∃ cs, p.toText.toList = '\x7b' :: cs :=
      ⟨_, by simp [toText, toJson, nodeJson, Json.compact]; rfl⟩
    obtain ⟨cs, hcs⟩ := hhead
    have hopen : Text.isBlank '\x7b' = false := by decide
    simp [hcs, hopen]
  have hread : Json.read p.toText = .ok p.toJson.normal := Json.read_compact_object h
  simp only [ofText, hblank, hread, Bool.false_eq_true, if_false]
  simp [toJson, nodeJson, Json.normal, Json.normalMembers, ofJson, ofMembers,
    Json.lookup_insertMember, sourceTypeOfJson, sourceTypeOfText, statementsJson_eq_map]
  rfl

/-- A program has a list of statements as its body. -/
theorem body_of_ofMembers {members : List (String × Json)} {p : Program}
    (h : ofMembers members = .ok p) :
    ∃ items, members.lookup "body" = some (.array items) ∧
      p.body = items.map Statement.ofJson := by
  unfold ofMembers at h
  cases hb : members.lookup "body" with
  | none =>
    simp only [hb, bind, Except.bind, pure, Except.pure, throw, throwThe, MonadExceptOf.throw] at h
    split at h
    · cases h
    · split at h <;> cases h
  | some v =>
    cases v with
    | array items =>
      simp only [hb, bind, Except.bind, pure, Except.pure] at h
      refine ⟨items, rfl, ?_⟩
      split at h
      · cases h
        rfl
      · split at h
        · cases h
        · cases h
          rfl
    | _ =>
      simp only [hb, bind, Except.bind, throw, throwThe, MonadExceptOf.throw] at h
      cases h

/-- Which values are programs. -/
theorem ofJson_eq_ok_iff (v : Json) (p : Program) :
    ofJson v = .ok p ↔ ∃ members, v = .object members ∧
      members.lookup "type" = some (.string "Program") ∧ ofMembers members = .ok p := by
  constructor
  · intro h
    unfold ofJson at h
    split at h
    · next members =>
      split at h
      · next hkind =>
        refine ⟨members, rfl, hkind, ?_⟩
        cases hm : ofMembers members with
        | error fault =>
          rw [hm] at h
          cases h
        | ok q =>
          rw [hm] at h
          cases h
          rfl
      · cases h
      · cases h
    · cases h
  · rintro ⟨members, rfl, hkind, hp⟩
    simp only [ofJson, hkind, hp]
    rfl

/-- The body of a program without a knot reads as itself again. -/
theorem reread_body {v : Json} {p : Program} (hv : v.Ordered) (hp : ofJson v = .ok p)
    (hk : p.knotted = false) : p.body.map Statement.reread = p.body := by
  obtain ⟨members, rfl, -, hm⟩ := (ofJson_eq_ok_iff v p).1 hp
  obtain ⟨items, hitems, hbody⟩ := body_of_ofMembers hm
  have hget : (Reading.ofMembers members).lookup "body" =
      some (Reading.ofJson (.array items)) := by
    rw [Reading.lookup_ofMembers, hitems]
    rfl
  have hf := @Reading.faithful_ofMembers members hv.2 0 "body" _ hget
  refine hf.statements p.body ?_ hk
  rw [hbody]
  simp only [Reading.ofJson, Reading.ofItems, Reading.ofList_eq_map, List.map_map]
  rfl

/-- A program that was read from a value reads back from its own text, as the same program, exactly
if it has no knot. -/
theorem readsBack_iff {v : Json} {p : Program} (hv : v.Ordered) (hp : ofJson v = .ok p)
    (hn : p.toJson.Legible) :
    ((∃ q, ofText p.toText = .ok q ∧ q.same p) ↔ p.knotted = false) ∧
      (p.knotted = false → ofText p.toText = .ok p) := by
  have hread := ofText_toText hn
  have hself : p.knotted = false → ofText p.toText = .ok p := by
    intro hk
    rw [hread, reread_body hv hp hk]
  refine ⟨⟨?_, fun hk => ⟨p, hself hk, p.same_self hn⟩⟩, hself⟩
  rintro ⟨q, hq, hs⟩
  cases hread.symm.trans hq
  simp only [same, Bool.and_eq_true] at hs
  exact statements_unknotted p.body hs.1

/-- A knot in JSON: both arrow functions are lists that give the number of their kind. -/
def knotValue : Json :=
  .object [
    ("body", .array [.object [
      ("expression", .array [.integer 6, .array [],
        .array [.integer 6, .array [], .array [.double (.ofDecimal false 15 (-1)), .null]]]),
      ("type", .string "ExpressionStatement")]]),
    ("type", .string "Program")]

def knotProgram : Program :=
  ⟨[.expression (.arrow [] (.expression (.arrow []
    (.expression (.foreign (.array [.double (.ofDecimal false 15 (-1)), .null]))) false false))
    false false) none], .script⟩

/-- The knot is read, and is written as a text that reads as another program. -/
theorem knotProgram_readsBack : knotValue.Ordered ∧ ofJson knotValue = .ok knotProgram ∧
    knotProgram.toJson.Legible ∧ knotProgram.knotted = true ∧
    ¬ ∃ q, ofText knotProgram.toText = .ok q ∧ q.same knotProgram := by
  have hv : knotValue.Ordered := by
    have hnames : "body" < "type" ∧ "expression" < "type" := by decide
    simp only [knotValue, Json.Ordered, Json.OrderedItems, Json.OrderedMembers,
      List.pairwise_pair, and_true]
    exact hnames
  have hp : ofJson knotValue = .ok knotProgram := rfl
  have hd : Json.read (Json.doubleText (.ofDecimal false 15 (-1)))
      = .ok (.double (.ofDecimal false 15 (-1))) := by
    have hscan : Json.read (Json.doubleText (.ofDecimal false 15 (-1)))
        = Json.NumberScan.double ⟨.fraction, false, 15, -1, false, false, 0⟩ := rfl
    rw [hscan]
    rfl
  have hn : knotProgram.toJson.Legible := by
    simp [knotProgram, toJson, statementsJson, Statement.toJson, Expression.toJson, arrowBodyJson,
      expressionsJson, fieldIfSome, Json.Legible, Json.LegibleItems, Json.LegibleMembers, hd]
  refine ⟨hv, hp, hn, rfl, fun h => ?_⟩
  cases (readsBack_iff hv hp hn).1.1 h

end Program

end Untangle
