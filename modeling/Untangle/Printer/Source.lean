import Untangle.Printer.Precedence
import Untangle.Printer.Quoted
import Untangle.Syntax.Kind

/-!
# JavaScript source of syntax trees

The source has the parentheses that grouping needs and no others. Statements
stand on lines of their own and every nested statement is put in braces.
Foreign nodes have no source: the first of them in printing order is reported.
-/
namespace Untangle.Printer

structure Layout where
  indent : String := "  "
  asciiOnly : Bool := false
  deriving DecidableEq, Repr

namespace Layout

def withWidth (l : Layout) (width : Nat) : Layout :=
  { l with indent := String.ofList (List.replicate width ' ') }

def withTabs (l : Layout) : Layout := { l with indent := "\t" }

def lineStart (l : Layout) (depth : Nat) : String := String.join (List.replicate depth l.indent)

end Layout

/-- A node of a kind that has no source form. -/
structure Unsupported where
  kind : String
  deriving DecidableEq, Repr

def Unsupported.message (u : Unsupported) : String :=
  "Unsupported node kind for code generation: " ++ u.kind

abbrev Printed := Except Unsupported String

variable (layout : Layout)

def literalText (l : Literal) : String :=
  match l.regex, l.bigint with
  | some regex, _ => "/" ++ regex.pattern ++ "/" ++ regex.flags
  | none, some digits => digits ++ "n"
  | none, none =>
    match l.value with
    | .null => "null"
    | .boolean b => if b then "true" else "false"
    | .number x => l.raw.getD (numberText x)
    | .string s => quote layout.asciiOnly s
    | .foreign _ => l.raw.getD "undefined"

/-- Statements in braces, from the lines of their list at one level deeper. -/
def braced (depth : Nat) (body : List Statement) (lines : String) : String :=
  if body.isEmpty then "\x7b\x7d" else "\x7b\n" ++ lines ++ layout.lineStart depth ++ "\x7d"

/-- A nested statement: a block as it is, any other statement as a block of one. -/
def nested (depth : Nat) (s : Statement) (text : Nat → Printed) : Printed :=
  match s with
  | .block _ => text depth
  | _ => do
    return "\x7b\n" ++ layout.lineStart (depth + 1) ++ (← text (depth + 1)) ++ "\n"
      ++ layout.lineStart depth ++ "\x7d"

/-- The head of a function up to its parameters. -/
def functionHead (f : Function) : String :=
  (if f.async then "async " else "") ++ "function" ++ (if f.generator then "*" else "")
    ++ (match f.name with | some name => " " ++ name | none => "")

/-- The words before the name of a method. -/
def methodHead (keyword : String) (f : Function) : String :=
  keyword ++ (if f.async then "async " else "") ++ (if f.generator then "*" else "")

/-- The members of an object, separated by commas, in braces. -/
def inBraces (members : List Member) (text : String) : String :=
  if members.isEmpty then "\x7b\x7d" else "\x7b " ++ text ++ " \x7d"

/-- The key of a property. -/
def keyText (key : Expression) (computed : Bool) (text : String) : String :=
  if computed then "[" ++ grouped assignLevel key text ++ "]" else grouped primaryLevel key text

/-- The part of a template after each of its text segments. -/
def spliced : List Quasi → List String → String
  | [], _ => ""
  | q :: quasis, [] => q.raw ++ spliced quasis []
  | q :: quasis, e :: rest => q.raw ++ "$\x7b" ++ e ++ "\x7d" ++ spliced quasis rest

def labelText : Option String → String
  | some label => " " ++ label
  | none => ""

/-- A test or a step in the head of a `for`, after its semicolon. -/
def clause : Option String → String
  | some text => "; " ++ text
  | none => ";"

mutual
def expressionText : Expression → Nat → Printed
  | .identifier name, _ => return name
  | .literal l, _ => return literalText layout l
  | .this, _ => return "this"
  | .array elements, depth => do return "[" ++ (← elementsText elements depth) ++ "]"
  | .arrayPattern elements, depth => do return "[" ++ (← elementsText elements depth) ++ "]"
  | .object members, depth => do return inBraces members (← membersText members depth)
  | .objectPattern members, depth => do return inBraces members (← membersText members depth)
  | .function f, depth => do return functionHead f ++ (← functionRest f depth)
  | .arrow params body _ async, depth => do
    let params ← listText params depth
    let body ← arrowBodyText body depth
    return (if async then "async " else "") ++ "(" ++ params ++ ") => " ++ body
  | .unary op _ argument, depth => do
    let text ← expressionText argument depth
    return op.text ++ (if op.isKeyword || signsMeet op argument then " " else "")
      ++ grouped unaryLevel argument text
  | .update op leading argument, depth => do
    let text ← expressionText argument depth
    return if leading then op.text ++ grouped unaryLevel argument text
      else grouped callLevel argument text ++ op.text
  | .binary op left right, depth => do
    let (leftLevel, rightLevel) := binaryLevels op
    let l ← expressionText left depth
    let r ← expressionText right depth
    return grouped leftLevel left l ++ " " ++ op.text ++ " " ++ grouped rightLevel right r
  | .logical op left right, depth => do
    let (leftLevel, rightLevel) := logicalLevels op
    let l ← expressionText left depth
    let r ← expressionText right depth
    return grouped leftLevel left l ++ " " ++ op.text ++ " " ++ grouped rightLevel right r
  | .assignment op target value, depth => do
    let t ← expressionText target depth
    let v ← expressionText value depth
    return grouped callLevel target t ++ " " ++ op.text ++ " " ++ grouped assignLevel value v
  | .assignmentPattern target fallback, depth => do
    let t ← expressionText target depth
    let v ← expressionText fallback depth
    return grouped callLevel target t ++ " = " ++ grouped assignLevel fallback v
  | .conditional test consequent alternate, depth => do
    let t ← expressionText test depth
    let c ← expressionText consequent depth
    let a ← expressionText alternate depth
    return grouped testLevel test t ++ " ? " ++ grouped assignLevel consequent c
      ++ " : " ++ grouped assignLevel alternate a
  | .call callee arguments optional, depth => do
    let c ← expressionText callee depth
    let as ← listText arguments depth
    return grouped callLevel callee c ++ (if optional then "?." else "") ++ "(" ++ as ++ ")"
  | .new callee arguments, depth => do
    let c ← expressionText callee depth
    let as ← listText arguments depth
    return "new " ++ (if containsCall callee then "(" ++ c ++ ")" else grouped memberLevel callee c)
      ++ "(" ++ as ++ ")"
  | .member object property computed optional, depth => do
    let o ← expressionText object depth
    let p ← expressionText property depth
    let o :=
      if isBareInteger object && !computed then "(" ++ o ++ ")" else grouped callLevel object o
    return o ++
      if computed then (if optional then "?.[" else "[") ++ grouped sequenceLevel property p ++ "]"
      else (if optional then "?." else ".") ++ grouped primaryLevel property p
  | .sequence expressions, depth => listText expressions depth
  | .template quasis expressions, depth => do
    return "`" ++ spliced quasis (← splicesText quasis.length expressions depth) ++ "`"
  | .tagged tag quasi, depth => do
    let t ← expressionText tag depth
    let q ← expressionText quasi depth
    return grouped callLevel tag t ++ grouped primaryLevel quasi q
  | .spread argument, depth => do
    return "..." ++ grouped assignLevel argument (← expressionText argument depth)
  | .rest argument, depth => do
    return "..." ++ grouped assignLevel argument (← expressionText argument depth)
  | .foreign v, _ => throw ⟨v.kindName⟩
termination_by structural e => e

/-- Expressions separated by commas. -/
def listText : List Expression → Nat → Printed
  | [], _ => return ""
  | e :: rest, depth => do
    let text ← expressionText e depth
    let more ← listText rest depth
    return grouped assignLevel e text ++ (if rest.isEmpty then "" else ", ") ++ more
termination_by structural l => l

/-- The expressions between the first `count` segments of a template; the others are not printed. -/
def splicesText : Nat → List Expression → Nat → Except Unsupported (List String)
  | _, [], _ => return []
  | 0, _ :: _, _ => return []
  | count + 1, e :: rest, depth => do
    let text ← expressionText e depth
    return grouped sequenceLevel e text :: (← splicesText count rest depth)
termination_by structural _ l => l

/-- An element of an array; `last` says that a hole needs a comma of its own. -/
def elementText : Option Expression → Bool → Nat → Printed
  | none, last, _ => return if last then "," else ""
  | some e, _, depth => do return grouped assignLevel e (← expressionText e depth)
termination_by structural e => e

def elementsText : List (Option Expression) → Nat → Printed
  | [], _ => return ""
  | e :: rest, depth => do
    let text ← elementText e rest.isEmpty depth
    let more ← elementsText rest depth
    return text ++ (if rest.isEmpty then "" else ", ") ++ more
termination_by structural l => l

def membersText : List Member → Nat → Printed
  | [], _ => return ""
  | m :: rest, depth => do
    let text ← memberText m depth
    let more ← membersText rest depth
    return text ++ (if rest.isEmpty then "" else ", ") ++ more
termination_by structural l => l

/-- Getters, setters and methods are functions in a form of their own. -/
def memberText : Member → Nat → Printed
  | .property key (.function f) .get computed _ _, depth => do
    let k ← expressionText key depth
    return methodHead "get " f ++ keyText key computed k ++ (← functionRest f depth)
  | .property key (.function f) .set computed _ _, depth => do
    let k ← expressionText key depth
    return methodHead "set " f ++ keyText key computed k ++ (← functionRest f depth)
  | .property key (.function f) .init computed true _, depth => do
    let k ← expressionText key depth
    return methodHead "" f ++ keyText key computed k ++ (← functionRest f depth)
  | .property _ value _ _ _ true, depth => do
    return grouped assignLevel value (← expressionText value depth)
  | .property key value _ computed _ false, depth => do
    let k ← expressionText key depth
    let v ← expressionText value depth
    return keyText key computed k ++ ": " ++ grouped assignLevel value v
  | .spread argument, depth => do
    return "..." ++ grouped assignLevel argument (← expressionText argument depth)
  | .rest argument, depth => do
    return "..." ++ grouped assignLevel argument (← expressionText argument depth)
  | .foreign v, _ => throw ⟨v.kindName⟩
termination_by structural m => m

/-- The parameters and the body of a function. -/
def functionRest : Function → Nat → Printed
  | ⟨_, params, body, _, _⟩, depth => do
    let params ← listText params depth
    let lines ← statementLines body (depth + 1)
    return "(" ++ params ++ ") " ++ braced layout depth body lines
termination_by structural f => f

def arrowBodyText : ArrowBody → Nat → Printed
  | .block body, depth => do return braced layout depth body (← statementLines body (depth + 1))
  | .expression e, depth => do
    let text ← expressionText e depth
    return if startsAmbiguously e then "(" ++ text ++ ")" else grouped assignLevel e text
termination_by structural b => b

def statementText : Statement → Nat → Printed
  | .expression e _, depth => do
    let text ← expressionText e depth
    return (if startsAmbiguously e then "(" ++ text ++ ")" else text) ++ ";"
  | .block body, depth => do return braced layout depth body (← statementLines body (depth + 1))
  | .empty, _ => return ";"
  | .debugger, _ => return "debugger;"
  | .returns argument, depth => do
    match ← optionText argument depth with
    | some text => return "return " ++ text ++ ";"
    | none => return "return;"
  | .breaks label, _ => return "break" ++ labelText label ++ ";"
  | .continues label, _ => return "continue" ++ labelText label ++ ";"
  | .labeled label body, depth => do return label ++ ": " ++ (← statementText body depth)
  | .branch test consequent alternate, depth => do
    let t ← expressionText test depth
    let c ← nested layout depth consequent fun d => statementText consequent d
    return "if (" ++ t ++ ") " ++ c ++ (← alternateText alternate depth)
  | .switch discriminant cases, depth => do
    let d ← expressionText discriminant depth
    let lines ← caseLines cases (depth + 1)
    return "switch (" ++ d ++ ") \x7b\n" ++ lines ++ layout.lineStart depth ++ "\x7d"
  | .throws argument, depth => do return "throw " ++ (← expressionText argument depth) ++ ";"
  | .attempt block handler finalizer, depth => do
    let lines ← statementLines block (depth + 1)
    let h ← handlerText handler depth
    let f ← finalizerText finalizer depth
    return "try " ++ braced layout depth block lines ++ h ++ f
  | .whileLoop test body, depth => do
    let t ← expressionText test depth
    return "while (" ++ t ++ ") " ++ (← nested layout depth body fun d => statementText body d)
  | .doWhile body test, depth => do
    let b ← nested layout depth body fun d => statementText body d
    return "do " ++ b ++ " while (" ++ (← expressionText test depth) ++ ");"
  | .forLoop init test update body, depth => do
    let i ← initText init depth
    let t ← optionText test depth
    let u ← optionText update depth
    let b ← nested layout depth body fun d => statementText body d
    return "for (" ++ i ++ clause t ++ clause u ++ ") " ++ b
  | .forIn left right body, depth => do
    let l ← headText left depth
    let r ← expressionText right depth
    let b ← nested layout depth body fun d => statementText body d
    return "for (" ++ l ++ " in " ++ r ++ ") " ++ b
  | .forOf left right body await, depth => do
    let l ← headText left depth
    let r ← expressionText right depth
    let b ← nested layout depth body fun d => statementText body d
    return (if await then "for await (" else "for (") ++ l ++ " of " ++ grouped assignLevel right r
      ++ ") " ++ b
  | .function f, depth => do return functionHead f ++ (← functionRest f depth)
  | .declaration d, depth => do return (← declarationText d depth) ++ ";"
  | .foreign v, _ => throw ⟨v.kindName⟩
termination_by structural s => s

/-- Each statement on a line of its own. -/
def statementLines : List Statement → Nat → Printed
  | [], _ => return ""
  | s :: rest, depth => do
    let text ← statementText s depth
    return layout.lineStart depth ++ text ++ "\n" ++ (← statementLines rest depth)
termination_by structural l => l

def optionText : Option Expression → Nat → Except Unsupported (Option String)
  | none, _ => return none
  | some e, depth => do return some (← expressionText e depth)
termination_by structural e => e

/-- An `else`, which continues the chain if the alternate is again an `if`. -/
def alternateText : Option Statement → Nat → Printed
  | none, _ => return ""
  | some (.branch t c a), depth => do return " else " ++ (← statementText (.branch t c a) depth)
  | some s, depth => do return " else " ++ (← nested layout depth s fun d => statementText s d)
termination_by structural s => s

def caseLines : List Case → Nat → Printed
  | [], _ => return ""
  | ⟨test, consequent⟩ :: rest, depth => do
    let head :=
      match ← optionText test depth with
      | some text => "case " ++ text ++ ":\n"
      | none => "default:\n"
    let lines ← statementLines consequent (depth + 1)
    return layout.lineStart depth ++ head ++ lines ++ (← caseLines rest depth)
termination_by structural l => l

def handlerText : Option Handler → Nat → Printed
  | none, _ => return ""
  | some ⟨none, body⟩, depth => do
    return " catch " ++ braced layout depth body (← statementLines body (depth + 1))
  | some ⟨some param, body⟩, depth => do
    let p ← expressionText param depth
    let lines ← statementLines body (depth + 1)
    return " catch (" ++ grouped assignLevel param p ++ ") " ++ braced layout depth body lines
termination_by structural h => h

def finalizerText : Option (List Statement) → Nat → Printed
  | none, _ => return ""
  | some body, depth => do
    return " finally " ++ braced layout depth body (← statementLines body (depth + 1))
termination_by structural b => b

def declarationText : Declaration → Nat → Printed
  | ⟨declarators, kind⟩, depth => do
    return kind.text ++ " " ++ (← declaratorsText declarators depth)
termination_by structural d => d

def declaratorsText : List Declarator → Nat → Printed
  | [], _ => return ""
  | ⟨target, init⟩ :: rest, depth => do
    let t ← expressionText target depth
    let i ← initialText init depth
    let more ← declaratorsText rest depth
    return grouped assignLevel target t ++ i ++ (if rest.isEmpty then "" else ", ") ++ more
termination_by structural l => l

def initialText : Option Expression → Nat → Printed
  | none, _ => return ""
  | some e, depth => do return " = " ++ grouped assignLevel e (← expressionText e depth)
termination_by structural e => e

def headText : LoopHead → Nat → Printed
  | .declaration d, depth => declarationText d depth
  | .expression e, depth => expressionText e depth
termination_by structural h => h

/-- The first clause of a `for`: an `in` at its top would be read as the loop's own. -/
def initText : Option LoopHead → Nat → Printed
  | none, _ => return ""
  | some (.declaration d), depth => declarationText d depth
  | some (.expression e), depth => do
    let text ← expressionText e depth
    return match e with
      | .binary .inside _ _ => "(" ++ text ++ ")"
      | _ => text
termination_by structural h => h
end

def source (p : Program) : Printed := statementLines layout p.body 0

end Untangle.Printer
