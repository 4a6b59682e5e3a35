import Mathlib.Data.Option.Basic
import Untangle.Proofs.Json.RoundTrip
import Untangle.Proofs.Lists
import Untangle.Syntax.Program

/-!
# Reading what was written

The JSON of a node, read again, is a node of the same kind with its parts read
again: each part is found by its name, wherever the order of the names puts it.
Two places look at more than that. The body of an arrow function is a block if
it has a list as its body, and the head of a loop is a declaration if it says
so.
-/
namespace Untangle

namespace Json

theorem lookup_member {α : Type} (name : String) (v : α) (members : List (String × α))
    (n : String) :
    ((name, v) :: members).lookup n = if n = name then some v else members.lookup n := by
  by_cases h : n = name
  · simp [h]
  · rw [List.lookup_cons, beq_eq_false_iff_ne.2 h, if_neg h]

/-- A member is found by its name wherever it was inserted. -/
theorem lookup_insertMember {α : Type} (name : String) (v : α) (members : List (String × α))
    (n : String) :
    (insertMember name v members).lookup n = if n = name then some v else members.lookup n := by
  induction members with
  | nil => exact lookup_member name v [] n
  | cons m members ih =>
    obtain ⟨k, w⟩ := m
    unfold insertMember
    split
    · exact lookup_member name v _ n
    · split
      · next hk =>
        subst hk
        simp only [lookup_member]
        split <;> rfl
      · next hk =>
        simp only [lookup_member, ih]
        by_cases hn : n = k
        · have hne : n ≠ name := fun h => hk (h.symm.trans hn)
          rw [if_pos hn, if_neg hne]
          simp [hn]
        · simp [hn]

@[simp] theorem isNull_normal (v : Json) : v.normal.isNull = v.isNull := by
  cases v <;> rfl

@[simp] theorem normalItems_eq_map (items : List Json) : normalItems items = items.map normal := by
  induction items with
  | nil => rfl
  | cons v items ih => simp [normalItems, ih]

end Json

namespace Reading

@[simp] theorem ofList_eq_map (items : List Json) : ofList items = items.map ofJson := by
  induction items with
  | nil => rfl
  | cons v items ih => simp [ofList, ih]

/-- The reading of a member is found by the name of the member. -/
theorem lookup_ofMembers (members : List (String × Json)) (name : String) :
    (ofMembers members).lookup name = (members.lookup name).map ofJson := by
  induction members with
  | nil => rfl
  | cons m members ih =>
    obtain ⟨n, v⟩ := m
    rw [ofMembers, Json.lookup_member, Json.lookup_member, ih]
    split <;> rfl

@[simp] theorem value_ofJson (v : Json) : (ofJson v).value = v := by
  cases v <;> rfl

end Reading

/-- What a written value reads as again. -/
def again (v : Json) : Reading := Reading.ofJson v.normal

/-- A reading remembers the value in order. -/
@[simp] theorem value_again (v : Json) : (again v).value = v.normal := Reading.value_ofJson _

def rereadFields (fields : List (String × Json)) : Parts :=
  .named (Reading.ofMembers (Json.normalMembers [] fields))

theorem again_object (fields : List (String × Json)) :
    again (.object fields) = .ofParts (Json.object fields).normal (rereadFields fields) := rfl

/-- Of members of one name the last one is found. -/
theorem Json.lookup_normalMembers (placed fields : List (String × Json)) (name : String) :
    (normalMembers placed fields).lookup name
      = ((fields.reverse.lookup name).map normal).or (placed.lookup name) := by
  induction fields generalizing placed with
  | nil => simp [normalMembers]
  | cons m fields ih =>
    obtain ⟨n, v⟩ := m
    rw [normalMembers, ih, lookup_insertMember, List.reverse_cons, List.lookup_append,
      lookup_member]
    split <;> cases fields.reverse.lookup name <;> simp

/-- Of two fields of one name the last one is read. -/
@[simp] theorem get?_rereadFields (fields : List (String × Json)) (place : Nat) (name : String) :
    (rereadFields fields).get? place name = (fields.reverse.lookup name).map again := by
  simp only [rereadFields, Fields.get?, Reading.lookup_ofMembers, Json.lookup_normalMembers]
  cases fields.reverse.lookup name <;> rfl

@[simp] theorem fits_rereadFields (fields : List (String × Json)) (count : Nat) :
    (rereadFields fields).fits count = true := rfl

/-- An optional field of a written record. -/
@[simp] theorem optional_rereadFields {β : Type} (fields : List (String × Json)) (place : Nat)
    (name : String) (read : Reading → Option (Option β)) :
    (rereadFields fields).optional place name read
      = (((fields.reverse.lookup name).map again).map read).getD (some none) := by
  have h := get?_rereadFields fields place name
  unfold rereadFields at h
  simp only [Fields.optional, rereadFields, h]
  cases fields.reverse.lookup name <;> rfl

/-- A tag that no other field hides names the kind. -/
theorem tagged?_node {α : Type} [Spelled α] {kind : String} {fields : List (String × Json)}
    (hf : ∀ m ∈ fields, m.1 ≠ "type") :
    (tagged? (rereadFields (("type", .string kind) :: fields)) : Option (α × Parts))
      = (Spelled.ofText? kind).map fun k =>
        (k, rereadFields (("type", .string kind) :: fields)) := by
  have hlookup : fields.reverse.lookup "type" = none := by
    refine List.lookup_eq_none_iff.2 fun m hm => ?_
    simpa using Ne.symm (hf m (List.mem_reverse.1 hm))
  have hget := get?_rereadFields (("type", .string kind) :: fields) 0 "type"
  rw [List.reverse_cons, List.lookup_append, hlookup] at hget
  unfold rereadFields at hget ⊢
  simp only [Fields.get?] at hget
  simp only [tagged?, hget]
  cases h : (Spelled.ofText? kind : Option α) <;> simp [kindOfTag?, Json.normal, h]

/-- Each kind of expression is read from its own name. -/
@[simp] theorem ExpressionKind.ofText?_text (k : ExpressionKind) :
    Spelled.ofText? k.text = some k := by
  cases k <;> rfl

@[simp] theorem StatementKind.ofText?_text (k : StatementKind) :
    Spelled.ofText? k.text = some k := by
  cases k <;> rfl

@[simp] theorem MemberKind.ofText?_text (k : MemberKind) : Spelled.ofText? k.text = some k := by
  cases k <;> rfl

@[simp] theorem UnaryOperator.ofText?_text (op : UnaryOperator) :
    Spelled.ofText? op.text = some op := by
  cases op <;> rfl

@[simp] theorem UpdateOperator.ofText?_text (op : UpdateOperator) :
    Spelled.ofText? op.text = some op := by
  cases op <;> rfl

@[simp] theorem BinaryOperator.ofText?_text (op : BinaryOperator) :
    Spelled.ofText? op.text = some op := by
  cases op <;> rfl

@[simp] theorem LogicalOperator.ofText?_text (op : LogicalOperator) :
    Spelled.ofText? op.text = some op := by
  cases op <;> rfl

@[simp] theorem AssignmentOperator.ofText?_text (op : AssignmentOperator) :
    Spelled.ofText? op.text = some op := by
  cases op <;> rfl

@[simp] theorem PropertyKind.ofText?_text (k : PropertyKind) : Spelled.ofText? k.text = some k := by
  cases k <;> rfl

@[simp] theorem VariableKind.ofText?_text (k : VariableKind) : Spelled.ofText? k.text = some k := by
  cases k <;> rfl

@[simp] theorem SourceType.ofText?_text (t : SourceType) : Spelled.ofText? t.text = some t := by
  cases t <;> rfl

/-- A node with the name of a kind of expression is read by this kind. -/
theorem again_expression (k : ExpressionKind) {fields : List (String × Json)}
    (hf : ∀ m ∈ fields, m.1 ≠ "type") :
    (again (nodeJson k.text fields)).expression
      = (Expression.ofParts? k (rereadFields (("type", .string k.text) :: fields))).getD
        (.foreign (nodeJson k.text fields).normal) := by
  simp [nodeJson, again_object, Reading.ofParts, tagged?_node hf]

theorem again_statement (k : StatementKind) {fields : List (String × Json)}
    (hf : ∀ m ∈ fields, m.1 ≠ "type") :
    (again (nodeJson k.text fields)).statement
      = (Statement.ofParts? k (rereadFields (("type", .string k.text) :: fields))).getD
        (.foreign (nodeJson k.text fields).normal) := by
  simp [nodeJson, again_object, Reading.ofParts, tagged?_node hf]

theorem again_member (k : MemberKind) {fields : List (String × Json)}
    (hf : ∀ m ∈ fields, m.1 ≠ "type") :
    (again (nodeJson k.text fields)).member
      = (Member.ofParts? k (rereadFields (("type", .string k.text) :: fields))).getD
        (.foreign (nodeJson k.text fields).normal) := by
  simp [nodeJson, again_object, Reading.ofParts, tagged?_node hf]

/-! Scalars and lists. -/

@[simp] theorem again_boolean? (b : Bool) : (again (.boolean b)).boolean? = some b := rfl

@[simp] theorem again_string? (s : String) : (again (.string s)).string? = some s := rfl

@[simp] theorem again_word? {α : Type} [Spelled α] (s : String) :
    (again (.string s)).word? = (Spelled.ofText? s : Option α) := rfl

/-- A name that is written as a node is read as this name. -/
@[simp] theorem again_name? (name : String) : (again (nameJson name)).name? = some name := by
  rfl

/-- A written list is read as a list of readings. -/
theorem again_array (items : List Json) :
    again (.array items) = .ofItems (Json.array items).normal (items.map again) := by
  simp only [again, Json.normal, Reading.ofJson, Json.normalItems_eq_map, Reading.ofList_eq_map,
    List.map_map]
  rfl

theorem again_expressions (items : List Json) :
    (again (.array items)).expressions = some (items.map fun v => (again v).expression) := by
  rw [again_array]
  simp [Reading.ofItems]

theorem again_statements (items : List Json) :
    (again (.array items)).statements = some (items.map fun v => (again v).statement) := by
  rw [again_array]
  simp [Reading.ofItems]

theorem again_members (items : List Json) :
    (again (.array items)).members = some (items.map fun v => (again v).member) := by
  rw [again_array]
  simp [Reading.ofItems]

theorem expressionsJson_eq_map (es : List Expression) :
    expressionsJson es = es.map Expression.toJson := by
  induction es with
  | nil => rfl
  | cons e es ih => simp [expressionsJson, ih]

theorem elementsJson_eq_map (es : List (Option Expression)) :
    elementsJson es = es.map expressionOrNull := by
  induction es with
  | nil => rfl
  | cons e es ih => simp [elementsJson, ih]

theorem membersJson_eq_map (ms : List Member) : membersJson ms = ms.map Member.toJson := by
  induction ms with
  | nil => rfl
  | cons m ms ih => simp [membersJson, ih]

theorem statementsJson_eq_map (ss : List Statement) :
    statementsJson ss = ss.map Statement.toJson := by
  induction ss with
  | nil => rfl
  | cons s ss ih => simp [statementsJson, ih]

def caseJson (c : Case) : Json :=
  nodeJson "SwitchCase"
    [("test", expressionOrNull c.test), ("consequent", .array (statementsJson c.consequent))]

theorem casesJson_eq_map (cs : List Case) : casesJson cs = cs.map caseJson := by
  induction cs with
  | nil => rfl
  | cons c cs ih =>
    cases c
    simp [casesJson, caseJson, ih]

def declaratorJson (d : Declarator) : Json :=
  nodeJson "VariableDeclarator" [("id", d.target.toJson), ("init", expressionOrNull d.init)]

theorem declaratorsJson_eq_map (ds : List Declarator) :
    declaratorsJson ds = ds.map declaratorJson := by
  induction ds with
  | nil => rfl
  | cons d ds ih =>
    cases d
    simp [declaratorsJson, declaratorJson, ih]

/-! What each kind of part reads as again. -/

def Expression.reread (e : Expression) : Expression := (again e.toJson).expression

def Statement.reread (s : Statement) : Statement := (again s.toJson).statement

def Member.reread (m : Member) : Member := (again m.toJson).member

def ArrowBody.reread (b : ArrowBody) : ArrowBody := (again (arrowBodyJson b)).arrowBody

def LoopHead.reread (h : LoopHead) : LoopHead := (again (headJson h)).loopHead

/-- A part that is written as `null` is absent when read again. -/
def rereadIf {α : Type} (write : α → Json) (read : Reading → α) (x : Option α) : Option α :=
  x.bind fun a => if (write a).isNull then none else some (read (again (write a)))

def rereadOption : Option Expression → Option Expression :=
  rereadIf Expression.toJson Reading.expression

def Function.reread (f : Function) : Function :=
  ⟨f.name, f.params.map Expression.reread, f.body.map Statement.reread, f.generator, f.async⟩

def Case.reread (c : Case) : Case := ⟨rereadOption c.test, c.consequent.map Statement.reread⟩

def Handler.reread (h : Handler) : Handler := ⟨rereadOption h.param, h.body.map Statement.reread⟩

def Declarator.reread (d : Declarator) : Declarator := ⟨d.target.reread, rereadOption d.init⟩

def Declaration.reread (d : Declaration) : Declaration :=
  ⟨d.declarators.map Declarator.reread, d.kind⟩

@[simp] theorem again_expressionsJson (es : List Expression) :
    (again (.array (expressionsJson es))).expressions = some (es.map Expression.reread) := by
  rw [again_expressions, expressionsJson_eq_map, List.map_map]
  rfl

@[simp] theorem again_statementsJson (ss : List Statement) :
    (again (.array (statementsJson ss))).statements = some (ss.map Statement.reread) := by
  rw [again_statements, statementsJson_eq_map, List.map_map]
  rfl

@[simp] theorem again_membersJson (ms : List Member) :
    (again (.array (membersJson ms))).members = some (ms.map Member.reread) := by
  rw [again_members, membersJson_eq_map, List.map_map]
  rfl

/-- A written block is read as a block. -/
@[simp] theorem again_blockJson (ss : List Statement) :
    (again (blockJson (statementsJson ss))).block = some (ss.map Statement.reread) := by
  simp [blockJson, nodeJson, again_object, Reading.ofParts, blockOfParts?, Fields.required, guard]

@[simp] theorem again_expressionOrNull (x : Option Expression) :
    (again (expressionOrNull x)).expression? = some (rereadOption x) := by
  cases x with
  | none => rfl
  | some e =>
    simp only [Reading.expression?, Reading.nullable, value_again, Json.isNull_normal, rereadOption,
      rereadIf, expressionOrNull, Option.bind_some]
    split <;> rfl

@[simp] theorem again_elementsJson (es : List (Option Expression)) :
    (again (.array (elementsJson es))).elements = some (es.map rereadOption) := by
  rw [again_array, elementsJson_eq_map, List.map_map]
  simp only [Reading.ofItems, List.mapM_map]
  exact mapM_eq_some_map fun x _ => again_expressionOrNull x

@[simp] theorem again_caseJson (c : Case) : (again (caseJson c)).case = some c.reread := by
  simp [caseJson, nodeJson, again_object, Reading.ofParts, Case.ofParts?, Fields.required, guard,
    Json.lookup_member, Case.reread]

@[simp] theorem again_casesJson (cs : List Case) :
    (again (.array (casesJson cs))).cases = some (cs.map Case.reread) := by
  rw [again_array, casesJson_eq_map, List.map_map]
  simp only [Reading.ofItems, List.mapM_map]
  exact mapM_eq_some_map fun c _ => again_caseJson c

@[simp] theorem again_declaratorJson (d : Declarator) :
    (again (declaratorJson d)).declarator = some d.reread := by
  simp [declaratorJson, nodeJson, again_object, Reading.ofParts, Declarator.ofParts?, guard,
    Json.lookup_member, Declarator.reread, Expression.reread]

@[simp] theorem again_declaratorsJson (ds : List Declarator) :
    (again (.array (declaratorsJson ds))).declarators = some (ds.map Declarator.reread) := by
  rw [again_array, declaratorsJson_eq_map, List.map_map]
  simp only [Reading.ofItems, List.mapM_map]
  exact mapM_eq_some_map fun d _ => again_declaratorJson d

@[simp] theorem again_handlerOrNull (h : Option Handler) :
    (again (handlerOrNull h)).nullable Reading.handler = some (h.map Handler.reread) := by
  cases h with
  | none => rfl
  | some h =>
    cases h
    simp [handlerOrNull, nodeJson, again_object, Reading.ofParts, Handler.ofParts?, guard,
      Fields.required, Json.lookup_member, Handler.reread, Reading.nullable, Json.normal,
      Json.isNull, Reading.ofScalar]

@[simp] theorem again_blockOrNull (b : Option (List Statement)) :
    (again (blockOrNull b)).nullable Reading.block = some (b.map (List.map Statement.reread)) := by
  cases b with
  | none => rfl
  | some b =>
    have h : (blockJson (statementsJson b)).isNull = false := rfl
    simp [blockOrNull, Reading.nullable, h]

@[simp] theorem again_labelOrNull (label : Option String) :
    (again (optionJson nameJson label)).nullable Reading.name? = some label := by
  cases label with
  | none => rfl
  | some name =>
    have h : (nameJson name).isNull = false := rfl
    simp [optionJson, Reading.nullable, h]

theorem function_ofParts? (kind : String) (f : Function) :
    Function.ofParts? (rereadFields (("type", .string kind) :: functionFields f))
      = some f.reread := by
  cases f
  simp [functionFields, Function.ofParts?, guard, Fields.required, Fields.orElse,
    Json.lookup_member, Function.reread]

theorem declaration_ofParts? (ds : List Declarator) (kind : VariableKind) :
    Declaration.ofParts? (rereadFields
      [("type", .string StatementKind.declaration.text),
        ("declarations", .array (declaratorsJson ds)), ("kind", .string kind.text)])
      = some (Declaration.reread ⟨ds, kind⟩) := by
  simp [Declaration.ofParts?, guard, Fields.required, Json.lookup_member, Declaration.reread]

def LiteralValue.reread (v : LiteralValue) : LiteralValue := .ofJson v.toJson.normal

/-- The expression with each of its parts read again. -/
def Expression.rereadParts : Expression → Expression
  | .literal l => .literal { l with value := l.value.reread }
  | .array es => .array (es.map rereadOption)
  | .object ms => .object (ms.map Member.reread)
  | .function f => .function f.reread
  | .arrow params body concise async =>
    .arrow (params.map Expression.reread) body.reread concise async
  | .unary op leading e => .unary op leading e.reread
  | .update op leading e => .update op leading e.reread
  | .binary op l r => .binary op l.reread r.reread
  | .logical op l r => .logical op l.reread r.reread
  | .assignment op l r => .assignment op l.reread r.reread
  | .conditional t c a => .conditional t.reread c.reread a.reread
  | .call callee es optional => .call callee.reread (es.map Expression.reread) optional
  | .new callee es => .new callee.reread (es.map Expression.reread)
  | .member o p computed optional => .member o.reread p.reread computed optional
  | .sequence es => .sequence (es.map Expression.reread)
  | .template quasis es => .template quasis (es.map Expression.reread)
  | .tagged tag quasi => .tagged tag.reread quasi.reread
  | .spread e => .spread e.reread
  | .assignmentPattern l r => .assignmentPattern l.reread r.reread
  | .arrayPattern es => .arrayPattern (es.map rereadOption)
  | .objectPattern ms => .objectPattern (ms.map Member.reread)
  | .rest e => .rest e.reread
  | .foreign v => (again v).expression
  | e => e

@[simp] theorem again_stringOrNull (s : String) :
    (again (.string s)).nullable Reading.string? = some (some s) := rfl

@[simp] theorem again_regex (r : Regex) :
    (again r.toJson).nullable (fun r => Regex.ofJson? r.value) = some (some r) := by
  have hn : r.toJson.isNull = false := rfl
  have hr : Regex.ofJson? r.toJson.normal = some r := by
    simp [Regex.toJson, Json.normal, Json.normalMembers, Regex.ofJson?, Json.fields?, Fields.fits,
      Fields.required, Fields.get?, Json.lookup_insertMember, guard, Json.string?]
  simp [Reading.nullable, hn, hr]

theorem literal_ofParts? (l : Literal) :
    Literal.ofParts? (rereadFields (("type", .string ExpressionKind.literal.text) :: l.fields))
      = some { l with value := l.value.reread } := by
  obtain ⟨value, raw, regex, bigint⟩ := l
  cases raw <;> cases regex <;> cases bigint <;>
    simp [Literal.ofParts?, Literal.fields, fieldIfSome, guard, Fields.orElse, Json.lookup_member,
      LiteralValue.reread]

theorem quasi_ofJson? (q : Quasi) : Quasi.ofJson? q.toJson.normal = some q := by
  obtain ⟨raw, cooked, tail⟩ := q
  cases cooked <;>
    simp [Quasi.toJson, nodeJson, Json.normal, Json.normalMembers, Quasi.ofJson?, Json.fields?,
      Fields.fits, Fields.required, Fields.orElse, Fields.get?, Json.lookup_insertMember, guard,
      Json.string?, Json.boolean?, optionJson, Json.nullable, Json.isNull]

/-- An expression reads as the same kind of expression with its parts read again. -/
theorem Expression.reread_eq (e : Expression) : e.reread = e.rereadParts := by
  cases e
  case identifier name => rfl
  case this => rfl
  case foreign v => rfl
  case literal l =>
    have hf : ∀ m ∈ l.fields, m.1 ≠ "type" := by
      obtain ⟨value, raw, regex, bigint⟩ := l
      cases raw <;> cases regex <;> cases bigint <;> simp [Literal.fields, fieldIfSome]
    rw [reread, toJson, again_expression _ hf]
    simp [ofParts?, literal_ofParts?, rereadParts]
  case function f =>
    rw [reread, toJson, again_expression _ (by cases f; simp [functionFields])]
    simp [ofParts?, function_ofParts?, rereadParts]
  case call callee es optional =>
    rw [reread, toJson, again_expression _ (by cases optional <;> simp [fieldIfTrue])]
    cases optional <;>
      simp [ofParts?, guard, Fields.required, Fields.orElse, Json.lookup_member, fieldIfTrue,
        rereadParts, reread]
  case member object property computed optional =>
    rw [reread, toJson, again_expression _ (by cases optional <;> simp [fieldIfTrue])]
    cases optional <;>
      simp [ofParts?, guard, Fields.required, Fields.orElse, Json.lookup_member, fieldIfTrue,
        rereadParts, reread]
  case template quasis es =>
    have hq : (Json.array (quasis.map Quasi.toJson)).normal.array?.bind (List.mapM Quasi.ofJson?)
        = some quasis := by
      have hm := mapM_eq_some_map (l := quasis) fun q _ => quasi_ofJson? q
      simpa [Json.normal, Json.array?, List.mapM_map, Function.comp_def] using hm
    rw [reread, toJson, again_expression _ (by simp)]
    simp [ofParts?, guard, Fields.required, Json.lookup_member, rereadParts, hq]
  all_goals
    rw [reread, toJson, again_expression _ (by simp)]
    simp [ofParts?, infixParts?, guard, Fields.required, Fields.orElse, Json.lookup_member,
      rereadParts, reread, ArrowBody.reread]

def Member.rereadParts : Member → Member
  | .property key value kind computed method shorthand =>
    .property key.reread value.reread kind computed method shorthand
  | .spread e => .spread e.reread
  | .rest e => .rest e.reread
  | .foreign v => (again v).member

/-- A member reads as the same kind of member with its parts read again. -/
theorem Member.reread_eq (m : Member) : m.reread = m.rereadParts := by
  cases m
  case foreign v => rfl
  all_goals
    rw [reread, toJson, again_member _ (by simp)]
    simp [ofParts?, guard, Fields.orElse, Json.lookup_member, rereadParts, Expression.reread]

/-- The statement with each of its parts read again. -/
def Statement.rereadParts : Statement → Statement
  | .expression e directive => .expression e.reread directive
  | .block body => .block (body.map Statement.reread)
  | .returns argument => .returns (rereadOption argument)
  | .labeled label body => .labeled label body.reread
  | .branch test consequent alternate =>
    .branch test.reread consequent.reread
      (rereadIf Statement.toJson Reading.statement alternate)
  | .switch discriminant cases => .switch discriminant.reread (cases.map Case.reread)
  | .throws argument => .throws argument.reread
  | .attempt body handler finalizer =>
    .attempt (body.map Statement.reread) (handler.map Handler.reread)
      (finalizer.map (List.map Statement.reread))
  | .whileLoop test body => .whileLoop test.reread body.reread
  | .doWhile body test => .doWhile body.reread test.reread
  | .forLoop init test update body =>
    .forLoop (rereadIf headJson Reading.loopHead init) (rereadOption test) (rereadOption update)
      body.reread
  | .forIn left right body => .forIn left.reread right.reread body.reread
  | .forOf left right body await => .forOf left.reread right.reread body.reread await
  | .function f => .function f.reread
  | .declaration d => .declaration d.reread
  | .foreign v => (again v).statement
  | s => s

/-- A statement that is absent is read as absent, and so is one that is written as `null`. -/
@[simp] theorem again_statementOrNull (x : Option Statement) :
    (again (statementOrNull x)).nullable (fun r => some r.statement)
      = some (rereadIf Statement.toJson Reading.statement x) := by
  cases x with
  | none => rfl
  | some s =>
    simp only [Reading.nullable, value_again, Json.isNull_normal, rereadIf, statementOrNull,
      Option.bind_some]
    split <;> rfl

@[simp] theorem again_headOrNull (x : Option LoopHead) :
    (again (headOrNull x)).nullable (fun r => some r.loopHead)
      = some (rereadIf headJson Reading.loopHead x) := by
  cases x with
  | none => rfl
  | some h =>
    simp only [Reading.nullable, value_again, Json.isNull_normal, rereadIf, headOrNull,
      Option.bind_some]
    split <;> rfl

/-- A statement reads as the same kind of statement with its parts read again. -/
theorem Statement.reread_eq (s : Statement) : s.reread = s.rereadParts := by
  cases s
  case empty => rfl
  case debugger => rfl
  case foreign v => rfl
  case expression e directive =>
    rw [reread, toJson, again_statement _ (by cases directive <;> simp [fieldIfSome])]
    cases directive <;>
      simp [ofParts?, guard, Fields.orElse, Json.lookup_member, fieldIfSome, rereadParts,
        Expression.reread]
  case function f =>
    rw [reread, toJson, again_statement _ (by cases f; simp [functionFields])]
    simp [ofParts?, function_ofParts?, rereadParts]
  case declaration d =>
    cases d
    rw [reread, toJson, declarationJson, again_statement _ (by simp)]
    simp [ofParts?, declaration_ofParts?, rereadParts]
  case block body =>
    rw [reread, toJson, blockJson, again_statement _ (by simp)]
    simp [ofParts?, guard, Fields.required, rereadParts]
  all_goals
    rw [reread, toJson, again_statement _ (by simp)]
    simp [ofParts?, guard, Fields.required, Fields.orElse, Json.lookup_member, rereadParts, reread,
      Expression.reread, LoopHead.reread]

end Untangle
