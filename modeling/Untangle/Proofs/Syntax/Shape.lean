import Untangle.Proofs.Syntax.Reread

/-!
# Shapes of nodes

Which fields a node of each kind has, and what is asked of them, is put down in
a table. Nothing is asked of a field for an expression, a statement or a member
of an object. So whether a value reads as a node of a known kind is seen from
its own fields, and from the records and lists in them, however malformed the
nodes below it are.
-/
namespace Untangle

/-- What is asked of a value in some place. -/
abbrev Shape := Json → Bool

inductive Presence where
  | required
  /-- An object may leave the field out, a list may not. -/
  | optional
  /-- The field has a value of its own where it is left out. -/
  | defaulted

/-- May a record be without a field? -/
def Presence.mayLack {α : Type} : Presence → Fields α → Bool
  | .required, _ => false
  | .optional, .named _ => true
  | .optional, .listed _ => false
  | .defaulted, _ => true

structure FieldShape where
  name : String
  presence : Presence
  shape : Shape

namespace FieldShape

def required (name : String) (shape : Shape) : FieldShape := ⟨name, .required, shape⟩

def optional (name : String) (shape : Shape) : FieldShape := ⟨name, .optional, shape⟩

def defaulted (name : String) (shape : Shape) : FieldShape := ⟨name, .defaulted, shape⟩

def admits (field : FieldShape) (place : Nat) (f : Fields Json) : Bool :=
  ((f.get? place field.name).map field.shape).getD (field.presence.mayLack f)

theorem admits_required (name : String) (shape : Shape) (place : Nat) (f : Fields Json) :
    (required name shape).admits place f = (f.get? place name).any shape := by
  rw [admits, required]
  cases f.get? place name <;> rfl

def admitAll : Nat → List FieldShape → Fields Json → Bool
  | _, [], _ => true
  | place, field :: rest, f => field.admits place f && admitAll (place + 1) rest f

end FieldShape

/-- A record has its fields, and a list has no more than them. -/
def admits (fields : List FieldShape) (f : Fields Json) : Bool :=
  f.fits fields.length && FieldShape.admitAll 0 fields f

namespace Shape

open FieldShape (required optional defaulted)

def anything : Shape := fun _ => true

def boolean : Shape
  | .boolean _ => true
  | _ => false

def text : Shape
  | .string _ => true
  | _ => false

def word (α : Type) [Spelled α] : Shape
  | .string s | .object [(s, .null)] | .object [(s, .object [])] =>
    (Spelled.all : List α).any fun a => Spelled.text a == s
  | _ => false

def nullable (shape : Shape) : Shape := fun v => v.isNull || shape v

def list (shape : Shape) : Shape
  | .array items => items.all shape
  | _ => false

def record (fields : List FieldShape) : Shape := fun v => v.fields?.any (admits fields)

/-! The records inside of nodes. -/

def nameFields : List FieldShape := [required "name" text]

def blockFields : List FieldShape := [required "body" (list anything)]

def handlerFields : List FieldShape :=
  [optional "param" anything, required "body" (record blockFields)]

def caseFields : List FieldShape :=
  [optional "test" anything, required "consequent" (list anything)]

def declaratorFields : List FieldShape := [required "id" anything, optional "init" anything]

def functionFields : List FieldShape :=
  [optional "id" (nullable (record nameFields)), required "params" (list anything),
    required "body" (record blockFields), defaulted "generator" boolean, defaulted "async" boolean]

def declarationFields : List FieldShape :=
  [required "declarations" (list (record declaratorFields)), required "kind" (word VariableKind)]

def infixFields (α : Type) [Spelled α] : List FieldShape :=
  [required "operator" (word α), required "left" anything, required "right" anything]

def regexFields : List FieldShape := [required "pattern" text, required "flags" text]

def quasiTextFields : List FieldShape := [required "raw" text, defaulted "cooked" (nullable text)]

def quasiFields : List FieldShape :=
  [required "value" (record quasiTextFields), defaulted "tail" boolean]

/-- The fields of each kind of expression. -/
def expressionFields : ExpressionKind → List FieldShape
  | .identifier => nameFields
  | .literal =>
    [required "value" anything, defaulted "raw" (nullable text),
      defaulted "regex" (nullable (record regexFields)), defaulted "bigint" (nullable text)]
  | .this => []
  | .array | .arrayPattern => [required "elements" (list anything)]
  | .object | .objectPattern => [required "properties" (list anything)]
  | .function => functionFields
  | .arrow =>
    [required "params" (list anything), required "body" anything, defaulted "expression" boolean,
      defaulted "async" boolean]
  | .unary =>
    [required "operator" (word UnaryOperator), defaulted "prefix" boolean,
      required "argument" anything]
  | .update =>
    [required "operator" (word UpdateOperator), required "prefix" boolean,
      required "argument" anything]
  | .binary => infixFields BinaryOperator
  | .logical => infixFields LogicalOperator
  | .assignment => infixFields AssignmentOperator
  | .conditional =>
    [required "test" anything, required "consequent" anything, required "alternate" anything]
  | .call =>
    [required "callee" anything, required "arguments" (list anything),
      defaulted "optional" boolean]
  | .new => [required "callee" anything, required "arguments" (list anything)]
  | .member =>
    [required "object" anything, required "property" anything, required "computed" boolean,
      defaulted "optional" boolean]
  | .sequence => [required "expressions" (list anything)]
  | .template =>
    [required "quasis" (list (record quasiFields)), required "expressions" (list anything)]
  | .tagged => [required "tag" anything, required "quasi" anything]
  | .assignmentPattern => [required "left" anything, required "right" anything]
  | .spread | .rest => [required "argument" anything]

def memberFields : MemberKind → List FieldShape
  | .property =>
    [required "key" anything, required "value" anything, defaulted "kind" (word PropertyKind),
      defaulted "computed" boolean, defaulted "method" boolean, defaulted "shorthand" boolean]
  | .spread | .rest => [required "argument" anything]

def statementFields : StatementKind → List FieldShape
  | .expression => [required "expression" anything, defaulted "directive" (nullable text)]
  | .block => blockFields
  | .empty | .debugger => []
  | .returns => [optional "argument" anything]
  | .breaks | .continues => [optional "label" (nullable (record nameFields))]
  | .labeled => [required "label" (record nameFields), required "body" anything]
  | .branch =>
    [required "test" anything, required "consequent" anything, optional "alternate" anything]
  | .switch => [required "discriminant" anything, required "cases" (list (record caseFields))]
  | .throws => [required "argument" anything]
  | .attempt =>
    [required "block" (record blockFields), optional "handler" (nullable (record handlerFields)),
      optional "finalizer" (nullable (record blockFields))]
  | .whileLoop => [required "test" anything, required "body" anything]
  | .doWhile => [required "body" anything, required "test" anything]
  | .forLoop =>
    [optional "init" anything, optional "test" anything, optional "update" anything,
      required "body" anything]
  | .forIn => [required "left" anything, required "right" anything, required "body" anything]
  | .forOf =>
    [required "left" anything, required "right" anything, required "body" anything,
      defaulted "await" boolean]
  | .function => functionFields
  | .declaration => declarationFields

end Shape

/-- The kind that the tag of a record names, and the fields beside the tag. -/
def kindAndFields? {α : Type} [Spelled α] : Fields Json → Option (α × Fields Json)
  | .named members => do
    let tag ← members.lookup "type"
    return (← kindOfTag? tag, .named members)
  | .listed (tag :: items) => do return (← kindOfTag? tag, .listed items)
  | .listed [] => none

/-- The known kind that a value has by its tag and its fields. -/
def knownKind? {α : Type} [Spelled α] (fields : α → List FieldShape) (v : Json) : Option α :=
  (v.fields?.bind kindAndFields?).bind fun p =>
    if admits (fields p.1) p.2 then some p.1 else none

theorem isSome_guard (b : Bool) : (guard b : Option Unit).isSome = b := by
  cases b <;> rfl

theorem any_const {α : Type} (x : Option α) (b : Bool) : (x.any fun _ => b) = (x.isSome && b) := by
  cases x <;> simp

theorem isSome_bind_some {α β : Type} (x : Option α) {g : α → Option β}
    (h : ∀ a, (g a).isSome = true) : (x >>= g).isSome = x.isSome := by
  cases x <;> simp [h]

theorem isSome_mapM {α β : Type} {read : α → Option β} {p : α → Bool}
    (h : ∀ a, (read a).isSome = p a) (items : List α) :
    (items.mapM read).isSome = items.all p := by
  induction items with
  | nil => rfl
  | cons a items ih =>
    rw [List.mapM_cons, List.all_cons, ← ih, ← h a]
    cases read a with
    | none => rfl
    | some b => cases items.mapM read <;> rfl

/-! Records of texts and words. -/

section Records

variable {β : Type} {f : Fields Json} {place : Nat} {name : String} {read : Json → Option β}
  {shape : Shape}

/-- A field that is required is read if it is there and has the shape. -/
theorem Fields.isSome_required (h : ∀ v, (read v).isSome = shape v) :
    (f.required place name read).isSome = (FieldShape.required name shape).admits place f := by
  rw [Fields.required, FieldShape.admits, FieldShape.required]
  cases f.get? place name with
  | none => rfl
  | some v => exact h v

theorem Fields.isSome_orElse {fallback : β} (h : ∀ v, (read v).isSome = shape v) :
    (f.orElse place name fallback read).isSome
      = (FieldShape.defaulted name shape).admits place f := by
  rw [Fields.orElse, FieldShape.admits, FieldShape.defaulted]
  cases f.get? place name with
  | none => rfl
  | some v => exact h v

/-- A value that may be `null` is read if it is or has the shape. -/
theorem Json.isSome_nullable (h : ∀ v, (read v).isSome = shape v) (v : Json) :
    (v.nullable read).isSome = Shape.nullable shape v := by
  rw [Json.nullable, Shape.nullable]
  cases v.isNull <;> simp [h]

theorem Json.isSome_string? (v : Json) : v.string?.isSome = Shape.text v := by
  cases v <;> rfl

theorem Json.isSome_boolean? (v : Json) : v.boolean?.isSome = Shape.boolean v := by
  cases v <;> rfl

theorem Regex.isSome_ofJson? (v : Json) :
    (Regex.ofJson? v).isSome = Shape.record Shape.regexFields v := by
  rw [Regex.ofJson?, Option.bind_eq_bind, Option.isSome_bind, Shape.record]
  refine congrArg v.fields?.any (funext fun f => ?_)
  simp [Shape.regexFields, admits, FieldShape.admitAll, Option.isSome_bind, any_const, isSome_guard,
    Fields.isSome_required Json.isSome_string?]

theorem any_and_const {α : Type} (x : Option α) (p : α → Bool) (b : Bool) :
    (x.any fun a => p a && b) = (x.any p && b) := by
  cases x <;> simp

theorem Quasi.isSome_ofJson? (v : Json) :
    (Quasi.ofJson? v).isSome = Shape.record Shape.quasiFields v := by
  rw [Quasi.ofJson?, Option.bind_eq_bind, Option.isSome_bind, Shape.record]
  refine congrArg v.fields?.any (funext fun f => ?_)
  -- the text is read before the mark of the last segment, which does not depend on it
  have htext : ∀ (g : Fields Json) (b : Bool),
      (g.fits 2 && ((FieldShape.required "raw" .text).admits 0 g
        && ((FieldShape.defaulted "cooked" (.nullable .text)).admits 1 g && b)))
        = (admits Shape.quasiTextFields g && b) := by
    intro g b
    simp [Shape.quasiTextFields, admits, FieldShape.admitAll, Bool.and_assoc]
  simp only [Option.pure_def, Option.bind_eq_bind, Option.isSome_bind, Option.isSome_some,
    Option.any_true, any_const, isSome_guard, Fields.isSome_required Json.isSome_string?,
    Fields.isSome_orElse Json.isSome_boolean?,
    Fields.isSome_orElse (Json.isSome_nullable Json.isSome_string?), Shape.quasiFields, admits,
    FieldShape.admitAll, List.length_cons, List.length_nil, Nat.zero_add, Nat.reduceAdd,
    Bool.and_true]
  simp only [htext, any_and_const]
  rw [FieldShape.admits_required]
  rfl

end Records

/-- The parts of a record, read. -/
def partsOf : Fields Json → Parts
  | .named members => .named (Reading.ofMembers members)
  | .listed items => .listed (Reading.ofList items)

section Parts

variable {β : Type} {f : Fields Json} {place : Nat} {name : String} {shape : Shape}

/-- The reading of a field is found where the field is. -/
theorem get?_partsOf : (partsOf f).get? place name = (f.get? place name).map Reading.ofJson := by
  cases f with
  | named members => exact Reading.lookup_ofMembers members name
  | listed items => simp [partsOf, Fields.get?]

theorem fits_partsOf (count : Nat) : (partsOf f).fits count = f.fits count := by
  cases f with
  | named members => rfl
  | listed items => simp [partsOf, Fields.fits]

theorem isSome_get? :
    ((partsOf f).get? place name).isSome = (FieldShape.required name .anything).admits place f := by
  rw [get?_partsOf, FieldShape.admits, FieldShape.required]
  cases f.get? place name <;> rfl

/-- A part that is required is read if its field is there and has the shape. -/
theorem isSome_required {read : Reading → Option β} (h : ∀ v, (read (.ofJson v)).isSome = shape v) :
    ((partsOf f).required place name read).isSome
      = (FieldShape.required name shape).admits place f := by
  rw [Fields.required, get?_partsOf, FieldShape.admits, FieldShape.required]
  cases f.get? place name with
  | none => rfl
  | some v => exact h v

theorem isSome_optional {read : Reading → Option (Option β)}
    (h : ∀ v, (read (.ofJson v)).isSome = shape v) :
    ((partsOf f).optional place name read).isSome
      = (FieldShape.optional name shape).admits place f := by
  rw [Fields.optional.eq_def, get?_partsOf, FieldShape.admits, FieldShape.optional]
  cases f.get? place name with
  | none => cases f <;> rfl
  | some v => exact h v

theorem isSome_orElse {fallback : β} {read : Reading → Option β}
    (h : ∀ v, (read (.ofJson v)).isSome = shape v) :
    ((partsOf f).orElse place name fallback read).isSome
      = (FieldShape.defaulted name shape).admits place f := by
  rw [Fields.orElse, get?_partsOf, FieldShape.admits, FieldShape.defaulted]
  cases f.get? place name with
  | none => rfl
  | some v => exact h v

end Parts

/-! What reads in the places inside of nodes. -/

theorem isSome_word? (α : Type) [Spelled α] (v : Json) :
    ((Reading.ofJson v).word? : Option α).isSome = Shape.word α v := by
  have htext : ∀ s, (Spelled.ofText? s : Option α).isSome
      = (Spelled.all : List α).any fun a => Spelled.text a == s := by
    intro s
    exact List.isSome_find?
  rw [Reading.word?, Reading.value_ofJson]
  unfold Json.word? Shape.word
  split <;> simp [htext]

section Places

variable (v : Json)

theorem isSome_boolean? : (Reading.ofJson v).boolean?.isSome = Shape.boolean v := by
  rw [Reading.boolean?, Reading.value_ofJson, Json.isSome_boolean?]

theorem isSome_string? : (Reading.ofJson v).string?.isSome = Shape.text v := by
  rw [Reading.string?, Reading.value_ofJson, Json.isSome_string?]

theorem isSome_nullable {β : Type} {read : Reading → Option β} {shape : Shape}
    (h : ∀ v, (read (.ofJson v)).isSome = shape v) :
    ((Reading.ofJson v).nullable read).isSome = Shape.nullable shape v := by
  rw [Reading.nullable, Reading.value_ofJson, Shape.nullable]
  cases v.isNull <;> simp [h]

theorem isSome_list {β : Type} {read : Reading → Option β} {shape : Shape}
    (h : ∀ v, (read (.ofJson v)).isSome = shape v) (items : List Json) :
    ((Reading.ofList items).mapM read).isSome = items.all shape := by
  rw [Reading.ofList_eq_map, List.mapM_map]
  exact isSome_mapM h items

theorem isSome_expressions : (Reading.ofJson v).expressions.isSome = Shape.list .anything v := by
  cases v with
  | array items => simp [Reading.ofJson, Reading.ofItems, Shape.list, Shape.anything]
  | _ => rfl

theorem isSome_members : (Reading.ofJson v).members.isSome = Shape.list .anything v := by
  cases v with
  | array items => simp [Reading.ofJson, Reading.ofItems, Shape.list, Shape.anything]
  | _ => rfl

theorem isSome_statements : (Reading.ofJson v).statements.isSome = Shape.list .anything v := by
  cases v with
  | array items => simp [Reading.ofJson, Reading.ofItems, Shape.list, Shape.anything]
  | _ => rfl

/-- A value that is read as a record reads if its fields do. -/
theorem isSome_record {β : Type} {x : Option β} (read : Parts → Option β)
    {fields : List FieldShape} (hx : x = v.fields?.bind fun f => read (partsOf f))
    (hr : ∀ f, (read (partsOf f)).isSome = admits fields f) :
    x.isSome = Shape.record fields v := by
  rw [hx, Option.isSome_bind]
  exact congrArg v.fields?.any (funext hr)

theorem isSome_name? : (Reading.ofJson v).name?.isSome = Shape.record Shape.nameFields v := by
  rw [Reading.name?, Reading.value_ofJson, Option.bind_eq_bind, Option.isSome_bind, Shape.record]
  refine congrArg v.fields?.any (funext fun f => ?_)
  simp [Shape.nameFields, admits, FieldShape.admitAll, Option.isSome_bind, any_const, isSome_guard,
    Fields.isSome_required Json.isSome_string?]

/-- A block is read if its body is a list. -/
theorem isSome_block : (Reading.ofJson v).block.isSome = Shape.record Shape.blockFields v := by
  refine isSome_record v blockOfParts? (by cases v <;> rfl) fun f => ?_
  simp [blockOfParts?, Shape.blockFields, admits, FieldShape.admitAll, Option.isSome_bind,
    any_const, isSome_guard, fits_partsOf, isSome_required isSome_statements]

/-- A node may stand in the place, or nothing. -/
theorem isSome_node {β : Type} (node : Reading → β) :
    ((Reading.ofJson v).nullable fun r => some (node r)).isSome = Shape.anything v := by
  cases v <;> rfl

theorem isSome_expression? : (Reading.ofJson v).expression?.isSome = Shape.anything v :=
  isSome_node v Reading.expression

theorem isSome_elements : (Reading.ofJson v).elements.isSome = Shape.list .anything v := by
  cases v with
  | array items => exact isSome_list isSome_expression? items
  | _ => rfl

theorem isSome_handler :
    (Reading.ofJson v).handler.isSome = Shape.record Shape.handlerFields v := by
  refine isSome_record v Handler.ofParts? (by cases v <;> rfl) fun f => ?_
  simp [Handler.ofParts?, Shape.handlerFields, admits, FieldShape.admitAll, Option.isSome_bind,
    any_const, isSome_guard, fits_partsOf, isSome_required isSome_block,
    isSome_optional isSome_expression?]

theorem isSome_case : (Reading.ofJson v).case.isSome = Shape.record Shape.caseFields v := by
  refine isSome_record v Case.ofParts? (by cases v <;> rfl) fun f => ?_
  simp [Case.ofParts?, Shape.caseFields, admits, FieldShape.admitAll, Option.isSome_bind,
    any_const, isSome_guard, fits_partsOf, isSome_required isSome_statements,
    isSome_optional isSome_expression?]

theorem isSome_declarator :
    (Reading.ofJson v).declarator.isSome = Shape.record Shape.declaratorFields v := by
  refine isSome_record v Declarator.ofParts? (by cases v <;> rfl) fun f => ?_
  simp [Declarator.ofParts?, Shape.declaratorFields, admits, FieldShape.admitAll,
    Option.isSome_bind, any_const, isSome_guard, fits_partsOf, isSome_get?,
    isSome_optional isSome_expression?]

theorem isSome_cases :
    (Reading.ofJson v).cases.isSome = Shape.list (Shape.record Shape.caseFields) v := by
  cases v with
  | array items => exact isSome_list isSome_case items
  | _ => rfl

theorem isSome_declarators :
    (Reading.ofJson v).declarators.isSome = Shape.list (Shape.record Shape.declaratorFields) v := by
  cases v with
  | array items => exact isSome_list isSome_declarator items
  | _ => rfl

end Places

/-! Nodes. -/

section Nodes

variable (f : Fields Json)

theorem isSome_function :
    (Function.ofParts? (partsOf f)).isSome = admits Shape.functionFields f := by
  simp [Function.ofParts?, Shape.functionFields, admits, FieldShape.admitAll, Option.isSome_bind,
    any_const, isSome_guard, fits_partsOf, isSome_required isSome_expressions,
    isSome_required isSome_block, isSome_orElse isSome_boolean?,
    isSome_optional fun v => isSome_nullable v isSome_name?]

theorem isSome_declaration :
    (Declaration.ofParts? (partsOf f)).isSome = admits Shape.declarationFields f := by
  simp [Declaration.ofParts?, Shape.declarationFields, admits, FieldShape.admitAll,
    Option.isSome_bind, any_const, isSome_guard, fits_partsOf, isSome_required isSome_declarators,
    isSome_required (isSome_word? VariableKind)]

theorem isSome_literal :
    (Literal.ofParts? (partsOf f)).isSome = admits (Shape.expressionFields .literal) f := by
  have hregex : ((partsOf f).orElse 2 "regex" none fun r =>
      r.nullable fun r => Regex.ofJson? r.value).isSome
        = (FieldShape.defaulted "regex" (.nullable (.record Shape.regexFields))).admits 2 f := by
    refine isSome_orElse fun v => isSome_nullable v fun v => ?_
    rw [Reading.value_ofJson, Regex.isSome_ofJson?]
  have htext : ∀ place name, ((partsOf f).orElse place name none fun r =>
      r.nullable Reading.string?).isSome
        = (FieldShape.defaulted name (.nullable .text)).admits place f :=
    fun _ _ => isSome_orElse fun v => isSome_nullable v isSome_string?
  simp [Literal.ofParts?, Shape.expressionFields, admits, FieldShape.admitAll, Option.isSome_bind,
    any_const, isSome_guard, fits_partsOf, isSome_get?, hregex, htext]

/-- The operator and the operands of an infix expression are read if their fields have their shapes.
-/
theorem isSome_infixParts (α : Type) [Spelled α] :
    (Expression.infixParts? (partsOf f) : Option (α × Expression × Expression)).isSome
      = admits (Shape.infixFields α) f := by
  simp [Expression.infixParts?, Shape.infixFields, admits, FieldShape.admitAll, Option.isSome_bind,
    any_const, isSome_guard, fits_partsOf, isSome_get?, isSome_required (isSome_word? α)]

/-- An expression of some kind reads exactly if its fields have the shapes of that kind. -/
theorem isSome_expression (kind : ExpressionKind) :
    (Expression.ofParts? kind (partsOf f)).isSome = admits (Shape.expressionFields kind) f := by
  have hquasis : ((partsOf f).required 0 "quasis" fun r =>
      r.value.array?.bind fun items => items.mapM Quasi.ofJson?).isSome
        = (FieldShape.required "quasis" (.list (.record Shape.quasiFields))).admits 0 f := by
    refine isSome_required fun v => ?_
    rw [Reading.value_ofJson]
    cases v with
    | array items => exact isSome_mapM Quasi.isSome_ofJson? items
    | _ => rfl
  cases kind
  case literal => rw [Expression.ofParts?, Option.isSome_map, isSome_literal]
  case function => rw [Expression.ofParts?, Option.isSome_map, isSome_function]; rfl
  case binary => exact (isSome_bind_some _ fun _ => rfl).trans (isSome_infixParts f BinaryOperator)
  case logical =>
    exact (isSome_bind_some _ fun _ => rfl).trans (isSome_infixParts f LogicalOperator)
  case assignment =>
    exact (isSome_bind_some _ fun _ => rfl).trans (isSome_infixParts f AssignmentOperator)
  all_goals
    simp [Expression.ofParts?, Shape.expressionFields, Shape.nameFields, admits,
      FieldShape.admitAll, Option.isSome_bind, any_const, isSome_guard, fits_partsOf, isSome_get?,
      isSome_required isSome_string?, isSome_required isSome_boolean?,
      isSome_required isSome_expressions, isSome_required isSome_elements,
      isSome_required isSome_members, isSome_required (isSome_word? UnaryOperator),
      isSome_required (isSome_word? UpdateOperator), isSome_orElse isSome_boolean?, hquasis]

/-- A member of an object reads exactly if its fields have the shapes of its kind. -/
theorem isSome_member (kind : MemberKind) :
    (Member.ofParts? kind (partsOf f)).isSome = admits (Shape.memberFields kind) f := by
  cases kind <;>
    simp [Member.ofParts?, Shape.memberFields, admits, FieldShape.admitAll, Option.isSome_bind,
      any_const, isSome_guard, fits_partsOf, isSome_get?, isSome_orElse isSome_boolean?,
      isSome_orElse (isSome_word? PropertyKind)]

/-- A statement of some kind reads exactly if its fields have the shapes of that kind. -/
theorem isSome_statement (kind : StatementKind) :
    (Statement.ofParts? kind (partsOf f)).isSome = admits (Shape.statementFields kind) f := by
  cases kind
  case function => rw [Statement.ofParts?, Option.isSome_map, isSome_function]; rfl
  case declaration => rw [Statement.ofParts?, Option.isSome_map, isSome_declaration]; rfl
  all_goals
    simp [Statement.ofParts?, Shape.statementFields, Shape.blockFields, admits,
      FieldShape.admitAll, Option.isSome_bind, any_const, isSome_guard, fits_partsOf, isSome_get?,
      isSome_required isSome_statements, isSome_required isSome_name?,
      isSome_required isSome_block, isSome_required isSome_cases,
      isSome_optional isSome_expression?, isSome_orElse isSome_boolean?,
      isSome_optional fun v => isSome_node v Reading.statement,
      isSome_optional fun v => isSome_node v Reading.loopHead,
      isSome_optional fun v => isSome_nullable v isSome_name?,
      isSome_optional fun v => isSome_nullable v isSome_handler,
      isSome_optional fun v => isSome_nullable v isSome_block,
      isSome_orElse fun v => isSome_nullable v isSome_string?]

end Nodes

/-! Nodes and the values they are read from. -/

def Expression.kind? : Expression → Option ExpressionKind
  | .identifier .. => some .identifier
  | .literal .. => some .literal
  | .this => some .this
  | .array .. => some .array
  | .object .. => some .object
  | .function .. => some .function
  | .arrow .. => some .arrow
  | .unary .. => some .unary
  | .update .. => some .update
  | .binary .. => some .binary
  | .logical .. => some .logical
  | .assignment .. => some .assignment
  | .conditional .. => some .conditional
  | .call .. => some .call
  | .new .. => some .new
  | .member .. => some .member
  | .sequence .. => some .sequence
  | .template .. => some .template
  | .tagged .. => some .tagged
  | .spread .. => some .spread
  | .assignmentPattern .. => some .assignmentPattern
  | .arrayPattern .. => some .arrayPattern
  | .objectPattern .. => some .objectPattern
  | .rest .. => some .rest
  | .foreign _ => none

def Member.kind? : Member → Option MemberKind
  | .property .. => some .property
  | .spread .. => some .spread
  | .rest .. => some .rest
  | .foreign _ => none

def Statement.kind? : Statement → Option StatementKind
  | .expression .. => some .expression
  | .block .. => some .block
  | .empty => some .empty
  | .debugger => some .debugger
  | .returns .. => some .returns
  | .breaks .. => some .breaks
  | .continues .. => some .continues
  | .labeled .. => some .labeled
  | .branch .. => some .branch
  | .switch .. => some .switch
  | .throws .. => some .throws
  | .attempt .. => some .attempt
  | .whileLoop .. => some .whileLoop
  | .doWhile .. => some .doWhile
  | .forLoop .. => some .forLoop
  | .forIn .. => some .forIn
  | .forOf .. => some .forOf
  | .function .. => some .function
  | .declaration .. => some .declaration
  | .foreign _ => none

/-- What holds of all results of a step holds of those of a sequence that ends in it. -/
theorem forall_bind_eq_some {α β : Type} {x : Option α} {g : α → Option β} {P : β → Prop}
    (h : ∀ a b, g a = some b → P b) (b : β) (hb : (x >>= g) = some b) : P b := by
  obtain ⟨a, -, hg⟩ := Option.bind_eq_some_iff.1 hb
  exact h a b hg

/-- The expression that is read from the fields of a kind is of this kind. -/
theorem Expression.kind?_of_ofParts? (kind : ExpressionKind) (g : Parts) :
    ∀ e, Expression.ofParts? kind g = some e → e.kind? = some kind := by
  cases kind
  case literal | function =>
    intro e h
    obtain ⟨_, -, rfl⟩ := Option.map_eq_some_iff.1 h
    rfl
  all_goals
    repeat refine forall_bind_eq_some fun _ => ?_
    rintro _ ⟨⟩
    rfl

theorem Member.kind?_of_ofParts? (kind : MemberKind) (g : Parts) :
    ∀ m, Member.ofParts? kind g = some m → m.kind? = some kind := by
  cases kind
  all_goals
    repeat refine forall_bind_eq_some fun _ => ?_
    rintro _ ⟨⟩
    rfl

theorem Statement.kind?_of_ofParts? (kind : StatementKind) (g : Parts) :
    ∀ s, Statement.ofParts? kind g = some s → s.kind? = some kind := by
  cases kind
  case function | declaration =>
    intro s h
    obtain ⟨_, -, rfl⟩ := Option.map_eq_some_iff.1 h
    rfl
  all_goals
    repeat refine forall_bind_eq_some fun _ => ?_
    rintro _ ⟨⟩
    rfl

/-- A node retains a value: it has the kind that the value has by its shape, and where there is no
such kind it holds the value as it is. -/
structure Retains {α ν : Type} [Spelled α] (fields : α → List FieldShape) (kind? : ν → Option α)
    (foreign : Json → ν) (v : Json) (node : ν) : Prop where
  kind : kind? node = knownKind? fields v
  verbatim : knownKind? fields v = none → node = foreign v

def Expression.Retains : Json → Expression → Prop :=
  Untangle.Retains Shape.expressionFields Expression.kind? Expression.foreign

def Member.Retains : Json → Member → Prop :=
  Untangle.Retains Shape.memberFields Member.kind? Member.foreign

def Statement.Retains : Json → Statement → Prop :=
  Untangle.Retains Shape.statementFields Statement.kind? Statement.foreign

/-- Taking the kind off the fields commutes with reading them. -/
theorem tagged?_partsOf {α : Type} [Spelled α] (f : Fields Json) :
    (tagged? (partsOf f) : Option (α × Parts))
      = (kindAndFields? f).map fun p => (p.1, partsOf p.2) := by
  cases f with
  | named members =>
    simp only [tagged?, partsOf, kindAndFields?, Reading.lookup_ofMembers]
    cases members.lookup "type" with
    | none => rfl
    | some tag => cases hk : (kindOfTag? tag : Option α) <;> simp [hk]
  | listed items =>
    cases items with
    | nil => rfl
    | cons tag items =>
      cases hk : (kindOfTag? tag : Option α) <;>
        simp [tagged?, partsOf, kindAndFields?, hk]

/-- A reader of nodes that reads a kind where its fields have their shapes, and falls back on the
value, retains every value. -/
theorem retains_getD {α ν : Type} [Spelled α] {fields : α → List FieldShape} {kind? : ν → Option α}
    {foreign : Json → ν} {read : α → Parts → Option ν}
    (hread : ∀ f kind, (read kind (partsOf f)).isSome = admits (fields kind) f)
    (hkind : ∀ kind g n, read kind g = some n → kind? n = some kind)
    (hforeign : ∀ v, kind? (foreign v) = none) (v : Json) :
    Retains fields kind? foreign v ((v.fields?.bind fun f => (tagged? (partsOf f)).bind
      fun p => read p.1 p.2).getD (foreign v)) := by
  have hparts : (v.fields?.bind fun f => (tagged? (partsOf f)).bind fun p => read p.1 p.2)
      = (v.fields?.bind kindAndFields?).bind fun p => read p.1 (partsOf p.2) := by
    rw [Option.bind_assoc]
    refine congrArg v.fields?.bind (funext fun f => ?_)
    rw [tagged?_partsOf, Option.bind_map]
    rfl
  rw [hparts]
  cases htag : (v.fields?.bind kindAndFields? : Option (α × Fields Json)) with
  | none =>
    have hnone : knownKind? fields v = none := by rw [knownKind?, htag]; rfl
    exact ⟨(hforeign v).trans hnone.symm, fun _ => rfl⟩
  | some tagged =>
    obtain ⟨kind, f⟩ := tagged
    have hknown : knownKind? fields v = if admits (fields kind) f then some kind else none := by
      rw [knownKind?, htag]
      rfl
    have hshape := hread f kind
    rw [Option.bind_some]
    cases hr : read kind (partsOf f) with
    | none =>
      rw [hr] at hshape
      rw [← hshape] at hknown
      exact ⟨(hforeign v).trans hknown.symm, fun _ => rfl⟩
    | some n =>
      rw [hr] at hshape
      rw [← hshape] at hknown
      refine ⟨(hkind kind _ n hr).trans hknown.symm, fun hnone => ?_⟩
      rw [hknown] at hnone
      cases hnone

/-- An expression is read as the kind it names with fields of their shapes, or else is kept as it
is. -/
theorem Expression.retains_ofJson (v : Json) : Expression.Retains v (Expression.ofJson v) := by
  have h : Expression.Retains v _ :=
    retains_getD isSome_expression Expression.kind?_of_ofParts? (fun _ => rfl) v
  cases v <;> exact h

theorem Member.retains_member (v : Json) : Member.Retains v (Reading.ofJson v).member := by
  have h : Member.Retains v _ :=
    retains_getD isSome_member Member.kind?_of_ofParts? (fun _ => rfl) v
  cases v <;> exact h

theorem Statement.retains_ofJson (v : Json) : Statement.Retains v (Statement.ofJson v) := by
  have h : Statement.Retains v _ :=
    retains_getD isSome_statement Statement.kind?_of_ofParts? (fun _ => rfl) v
  cases v <;> exact h

end Untangle
