import Untangle.Syntax.Kind

/-!
# Writing syntax trees as JSON

Every node names its kind first and then has its fields in a fixed order;
absent parts are written as `null`, except for the few that are left out.
-/
namespace Untangle

/-- A node with its kind and fields. -/
def nodeJson (kind : String) (fields : List (String × Json)) : Json :=
  .object (("type", .string kind) :: fields)

def nameJson (name : String) : Json :=
  nodeJson ExpressionKind.identifier.text [("name", .string name)]

def optionJson (write : α → Json) : Option α → Json
  | none => .null
  | some a => write a

/-- A field that is left out where it has no value. -/
def fieldIfSome (name : String) (write : α → Json) : Option α → List (String × Json)
  | none => []
  | some a => [(name, write a)]

def fieldIfTrue (name : String) (b : Bool) : List (String × Json) :=
  if b then [(name, .boolean true)] else []

def LiteralValue.toJson : LiteralValue → Json
  | .null => .null
  | .boolean b => .boolean b
  | .number x => .double x
  | .string s => .string s
  | .foreign v => v

def Regex.toJson (r : Regex) : Json :=
  .object [("pattern", .string r.pattern), ("flags", .string r.flags)]

def Literal.fields (l : Literal) : List (String × Json) :=
  [("value", l.value.toJson)] ++ fieldIfSome "raw" .string l.raw
    ++ fieldIfSome "regex" Regex.toJson l.regex ++ fieldIfSome "bigint" .string l.bigint

def Quasi.toJson (q : Quasi) : Json :=
  nodeJson "TemplateElement"
    [("value", .object [("raw", .string q.raw), ("cooked", optionJson .string q.cooked)]),
      ("tail", .boolean q.tail)]

def blockJson (body : List Json) : Json :=
  nodeJson StatementKind.block.text [("body", .array body)]

mutual
def Expression.toJson : Expression → Json
  | .identifier name => nameJson name
  | .literal l => nodeJson ExpressionKind.literal.text l.fields
  | .this => nodeJson ExpressionKind.this.text []
  | .array elements =>
    nodeJson ExpressionKind.array.text [("elements", .array (elementsJson elements))]
  | .object members =>
    nodeJson ExpressionKind.object.text [("properties", .array (membersJson members))]
  | .function f => nodeJson ExpressionKind.function.text (functionFields f)
  | .arrow params body concise async =>
    nodeJson ExpressionKind.arrow.text
      [("params", .array (expressionsJson params)), ("body", arrowBodyJson body),
        ("expression", .boolean concise), ("async", .boolean async)]
  | .unary op leading argument =>
    nodeJson ExpressionKind.unary.text
      [("operator", .string op.text), ("prefix", .boolean leading), ("argument", argument.toJson)]
  | .update op leading argument =>
    nodeJson ExpressionKind.update.text
      [("operator", .string op.text), ("prefix", .boolean leading), ("argument", argument.toJson)]
  | .binary op left right =>
    nodeJson ExpressionKind.binary.text
      [("operator", .string op.text), ("left", left.toJson), ("right", right.toJson)]
  | .logical op left right =>
    nodeJson ExpressionKind.logical.text
      [("operator", .string op.text), ("left", left.toJson), ("right", right.toJson)]
  | .assignment op target value =>
    nodeJson ExpressionKind.assignment.text
      [("operator", .string op.text), ("left", target.toJson), ("right", value.toJson)]
  | .conditional test consequent alternate =>
    nodeJson ExpressionKind.conditional.text
      [("test", test.toJson), ("consequent", consequent.toJson), ("alternate", alternate.toJson)]
  | .call callee arguments optional =>
    nodeJson ExpressionKind.call.text
      ([("callee", callee.toJson), ("arguments", .array (expressionsJson arguments))]
        ++ fieldIfTrue "optional" optional)
  | .new callee arguments =>
    nodeJson ExpressionKind.new.text
      [("callee", callee.toJson), ("arguments", .array (expressionsJson arguments))]
  | .member object property computed optional =>
    nodeJson ExpressionKind.member.text
      ([("object", object.toJson), ("property", property.toJson), ("computed", .boolean computed)]
        ++ fieldIfTrue "optional" optional)
  | .sequence expressions =>
    nodeJson ExpressionKind.sequence.text [("expressions", .array (expressionsJson expressions))]
  | .template quasis expressions =>
    nodeJson ExpressionKind.template.text
      [("quasis", .array (quasis.map Quasi.toJson)),
        ("expressions", .array (expressionsJson expressions))]
  | .tagged tag quasi =>
    nodeJson ExpressionKind.tagged.text [("tag", tag.toJson), ("quasi", quasi.toJson)]
  | .spread argument => nodeJson ExpressionKind.spread.text [("argument", argument.toJson)]
  | .assignmentPattern target fallback =>
    nodeJson ExpressionKind.assignmentPattern.text
      [("left", target.toJson), ("right", fallback.toJson)]
  | .arrayPattern elements =>
    nodeJson ExpressionKind.arrayPattern.text [("elements", .array (elementsJson elements))]
  | .objectPattern members =>
    nodeJson ExpressionKind.objectPattern.text [("properties", .array (membersJson members))]
  | .rest argument => nodeJson ExpressionKind.rest.text [("argument", argument.toJson)]
  | .foreign v => v
termination_by structural e => e

def expressionsJson : List Expression → List Json
  | [] => []
  | e :: rest => e.toJson :: expressionsJson rest
termination_by structural l => l

def expressionOrNull : Option Expression → Json
  | none => .null
  | some e => e.toJson
termination_by structural e => e

def elementsJson : List (Option Expression) → List Json
  | [] => []
  | e :: rest => expressionOrNull e :: elementsJson rest
termination_by structural l => l

def Member.toJson : Member → Json
  | .property key value kind computed method shorthand =>
    nodeJson MemberKind.property.text
      [("key", key.toJson), ("value", value.toJson), ("kind", .string kind.text),
        ("computed", .boolean computed), ("method", .boolean method),
        ("shorthand", .boolean shorthand)]
  | .spread argument => nodeJson MemberKind.spread.text [("argument", argument.toJson)]
  | .rest argument => nodeJson MemberKind.rest.text [("argument", argument.toJson)]
  | .foreign v => v
termination_by structural m => m

def membersJson : List Member → List Json
  | [] => []
  | m :: rest => m.toJson :: membersJson rest
termination_by structural l => l

def functionFields : Function → List (String × Json)
  | ⟨name, params, body, generator, async⟩ =>
    [("id", optionJson nameJson name), ("params", .array (expressionsJson params)),
      ("body", blockJson (statementsJson body)), ("generator", .boolean generator),
      ("async", .boolean async)]
termination_by structural f => f

def arrowBodyJson : ArrowBody → Json
  | .block body => blockJson (statementsJson body)
  | .expression e => e.toJson
termination_by structural b => b

def Statement.toJson : Statement → Json
  | .expression e directive =>
    nodeJson StatementKind.expression.text
      (("expression", e.toJson) :: fieldIfSome "directive" .string directive)
  | .block body => blockJson (statementsJson body)
  | .empty => nodeJson StatementKind.empty.text []
  | .debugger => nodeJson StatementKind.debugger.text []
  | .returns argument =>
    nodeJson StatementKind.returns.text [("argument", expressionOrNull argument)]
  | .breaks label => nodeJson StatementKind.breaks.text [("label", optionJson nameJson label)]
  | .continues label => nodeJson StatementKind.continues.text [("label", optionJson nameJson label)]
  | .labeled label body =>
    nodeJson StatementKind.labeled.text [("label", nameJson label), ("body", body.toJson)]
  | .branch test consequent alternate =>
    nodeJson StatementKind.branch.text
      [("test", test.toJson), ("consequent", consequent.toJson),
        ("alternate", statementOrNull alternate)]
  | .switch discriminant cases =>
    nodeJson StatementKind.switch.text
      [("discriminant", discriminant.toJson), ("cases", .array (casesJson cases))]
  | .throws argument => nodeJson StatementKind.throws.text [("argument", argument.toJson)]
  | .attempt block handler finalizer =>
    nodeJson StatementKind.attempt.text
      [("block", blockJson (statementsJson block)), ("handler", handlerOrNull handler),
        ("finalizer", blockOrNull finalizer)]
  | .whileLoop test body =>
    nodeJson StatementKind.whileLoop.text [("test", test.toJson), ("body", body.toJson)]
  | .doWhile body test =>
    nodeJson StatementKind.doWhile.text [("body", body.toJson), ("test", test.toJson)]
  | .forLoop init test update body =>
    nodeJson StatementKind.forLoop.text
      [("init", headOrNull init), ("test", expressionOrNull test),
        ("update", expressionOrNull update), ("body", body.toJson)]
  | .forIn left right body =>
    nodeJson StatementKind.forIn.text
      [("left", headJson left), ("right", right.toJson), ("body", body.toJson)]
  | .forOf left right body await =>
    nodeJson StatementKind.forOf.text
      [("left", headJson left), ("right", right.toJson), ("body", body.toJson),
        ("await", .boolean await)]
  | .function f => nodeJson StatementKind.function.text (functionFields f)
  | .declaration d => declarationJson d
  | .foreign v => v
termination_by structural s => s

def statementsJson : List Statement → List Json
  | [] => []
  | s :: rest => s.toJson :: statementsJson rest
termination_by structural l => l

def statementOrNull : Option Statement → Json
  | none => .null
  | some s => s.toJson
termination_by structural s => s

def blockOrNull : Option (List Statement) → Json
  | none => .null
  | some body => blockJson (statementsJson body)
termination_by structural b => b

def casesJson : List Case → List Json
  | [] => []
  | ⟨test, consequent⟩ :: rest =>
    nodeJson "SwitchCase"
        [("test", expressionOrNull test), ("consequent", .array (statementsJson consequent))]
      :: casesJson rest
termination_by structural l => l

def handlerOrNull : Option Handler → Json
  | none => .null
  | some ⟨param, body⟩ =>
    nodeJson "CatchClause"
      [("param", expressionOrNull param), ("body", blockJson (statementsJson body))]
termination_by structural h => h

def declarationJson : Declaration → Json
  | ⟨declarators, kind⟩ =>
    nodeJson StatementKind.declaration.text
      [("declarations", .array (declaratorsJson declarators)), ("kind", .string kind.text)]
termination_by structural d => d

def declaratorsJson : List Declarator → List Json
  | [] => []
  | ⟨target, init⟩ :: rest =>
    nodeJson "VariableDeclarator" [("id", target.toJson), ("init", expressionOrNull init)]
      :: declaratorsJson rest
termination_by structural l => l

def headJson : LoopHead → Json
  | .declaration d => declarationJson d
  | .expression e => e.toJson
termination_by structural h => h

def headOrNull : Option LoopHead → Json
  | none => .null
  | some h => headJson h
termination_by structural h => h
end

def Program.toJson (p : Program) : Json :=
  nodeJson "Program"
    [("body", .array (statementsJson p.body)), ("sourceType", .string p.sourceType.text)]

end Untangle
