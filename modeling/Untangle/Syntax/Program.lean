import Untangle.Json.Reader
import Untangle.Json.Writer
import Untangle.Syntax.Reader
import Untangle.Syntax.Writer
import Untangle.Text.Blank
import Untangle.Text.Inspected

/-!
# Whole programs from JSON text

Only the root can fail to read: the text may be blank or no JSON, the value
may be no program, and a program may lack a list of statements or have an
unreadable source type.
-/
namespace Untangle

/-- What is wrong with the fields of a program. -/
inductive ShapeFault where
  | missingBody
  | bodyNotList (found : Json)
  | sourceTypeUnknown (text : String)
  | sourceTypeNotText (found : Json)
  | sourceTypeNotSingle
  | sourceTypeNotEmpty (found : Json)

inductive ReadError where
  | blank
  | notJson (fault : Json.Fault)
  | notNode
  | notProgram (kind : String)
  | shape (fault : ShapeFault)

/-- A value as an error message names it. -/
def Json.described : Json → String
  | .null => "null"
  | .boolean b => "boolean `" ++ (if b then "true" else "false") ++ "`"
  | .integer n => "integer `" ++ toString n ++ "`"
  | .double x => "floating point `" ++ doubleText x ++ "`"
  | .string s => "string " ++ Text.inspect s
  | .array _ => "sequence"
  | .object _ => "map"

def ShapeFault.message : ShapeFault → String
  | .missingBody => "missing field `body`"
  | .bodyNotList v => "invalid type: " ++ v.described ++ ", expected a sequence"
  | .sourceTypeUnknown s => "unknown variant `" ++ s ++ "`, expected `script` or `module`"
  | .sourceTypeNotText v => "invalid type: " ++ v.described ++ ", expected string or map"
  | .sourceTypeNotSingle => "invalid value: map, expected map with a single key"
  | .sourceTypeNotEmpty v => "invalid type: " ++ v.described ++ ", expected unit"

def ReadError.message : ReadError → String
  | .blank => "Provided input was empty"
  | .notJson .malformed => "malformed JSON"
  | .notJson .truncated => "unexpected end of JSON"
  | .notNode => "root value is not an ESTree node"
  | .notProgram kind => "root node is " ++ kind ++ ", expected Program"
  | .shape fault => fault.message

namespace Program

def sourceTypeOfText (s : String) : Except ShapeFault SourceType :=
  match Spelled.ofText? s with
  | some t => .ok t
  | none => .error (.sourceTypeUnknown s)

/-- The source type is a word, or an object with the word as the name of its only member. -/
def sourceTypeOfJson : Json → Except ShapeFault SourceType
  | .string s => sourceTypeOfText s
  | .object [(s, v)] => do
    let t ← sourceTypeOfText s
    if v.isNull then return t else throw (.sourceTypeNotEmpty v)
  | .object _ => .error .sourceTypeNotSingle
  | v => .error (.sourceTypeNotText v)

/-- Faults are found in the order of the names of the members; that one is missing comes last. -/
def ofMembers (members : List (String × Json)) : Except ShapeFault Program := do
  let body ←
    match members.lookup "body" with
    | none => pure none
    | some (.array items) => pure (some (items.map Statement.ofJson))
    | some v => throw (.bodyNotList v)
  let sourceType ←
    match members.lookup "sourceType" with
    | none => pure .script
    | some v => sourceTypeOfJson v
  match body with
  | some body => return ⟨body, sourceType⟩
  | none => throw .missingBody

def ofJson (v : Json) : Except ReadError Program :=
  match v with
  | .object members =>
    match members.lookup "type" with
    | some (.string "Program") => (ofMembers members).mapError .shape
    | some (.string kind) => .error (.notProgram kind)
    | _ => .error .notNode
  | _ => .error .notNode

def ofText (text : String) : Except ReadError Program :=
  if text.toList.all Text.isBlank then .error .blank
  else
    match Json.read text with
    | .ok v => ofJson v
    | .error fault => .error (.notJson fault)

def toText (p : Program) : String := p.toJson.compact

end Program
end Untangle
