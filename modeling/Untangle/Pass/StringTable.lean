import Untangle.Pass.Basic
import Untangle.Syntax.View
import Untangle.Text.Base64
import Untangle.Text.IdentifierName
import Untangle.Text.Inspected

/-!
# String tables

A program that hides its strings starts with three statements: an array of
base64 strings, a call that rotates the array by a count, and a function that
looks strings up by index. The pass puts the decoded strings in the place of
the lookups, and writes `object["name"]` as `object.name`.
-/
namespace Untangle

structure StringTable where
  name : String
  entries : List String
  deriving DecidableEq, Repr

namespace StringTable

/-- Moves the first entry to the end, `count` times. -/
def rotate (t : StringTable) (count : Nat) : StringTable :=
  let n := count % t.entries.length
  { t with entries := t.entries.drop n ++ t.entries.take n }

def get? (t : StringTable) (index : Nat) : Option String := t.entries[index]?

end StringTable

/-- The three statements, read. -/
structure Prologue where
  tableName : String
  encoded : List String
  rotation : Nat
  decoder : String
  deriving DecidableEq, Repr

namespace Prologue

/-- The strings of an array that has only string literals. -/
def strings? (elements : List (Option Expression)) : Option (List String) :=
  elements.mapM fun e => e.bind Expression.string?

/-- The count by which a statement rotates the table: the second argument of a call whose first
argument is the table. -/
def rotation? (table : String) : Statement → Option Nat
  | .expression (.call _ (.identifier name :: count :: _) _) _ =>
    if name = table then count.index? else none
  | _ => none

def find? : List Statement → Option Prologue
  | table :: rotate :: decoder :: _ => do
    let (tableName, init) ← table.firstVariable?
    let some (.array elements) := init | none
    let encoded ← strings? elements
    let rotation ← rotation? tableName rotate
    let (decoder, _) ← decoder.firstVariable?
    return ⟨tableName, encoded, rotation, decoder⟩
  | _ => none

def decode (p : Prologue) : StringTable :=
  StringTable.rotate ⟨p.tableName, p.encoded.map fun s => Text.ofBytes (Text.Base64.decode s)⟩
    p.rotation

end Prologue

namespace StringDecoding

def passName : String := "strings"

/-- Looks up a string and records that it was decoded; `site` is what was indexed. -/
def lookup (table : StringTable) (site : String) (index : Option Nat) :
    StateM Progress (Option Expression) := do
  let some index := index | return none
  let some value := table.get? index | return none
  modify fun s =>
    (s.record passName .stringDecoded none
      (site ++ "[" ++ toString index ++ "] -> " ++ Text.inspect (Text.abridge value 40))).change
  return some (.ofString value)

/-- Writes a computed access by an identifier name with a dot. -/
def normalize (object property : Expression) (optional : Bool) : StateM Progress Expression := do
  match property.string? with
  | some name =>
    if Text.isIdentifierName name then
      modify fun s =>
        (s.record passName .memberNormalized none
          ("[" ++ Text.inspect name ++ "] -> ." ++ name)).change
      return .member object (.identifier name) false optional
    else return .member object property true optional
  | none => return .member object property true optional

def leaveExpression (prologue : Prologue) (table : StringTable) (normalizing : Bool) :
    Expression → StateM Progress Expression
  | .member object property true optional => do
    let found ←
      if object.identifier? = some table.name then
        lookup table table.name (property.number?.bind Binary64.index?)
      else pure none
    match found with
    | some e => return e
    | none =>
      if normalizing then normalize object property optional
      else return .member object property true optional
  | .call (.identifier name) [argument] optional => do
    let found ←
      if name = prologue.decoder then lookup table name argument.index? else pure none
    return found.getD (.call (.identifier name) [argument] optional)
  | e => return e

def visitor (prologue : Prologue) (table : StringTable) (normalizing : Bool) : Visitor Progress :=
  { scopeVisitor with leaveExpression := leaveExpression prologue table normalizing }

def identified (prologue : Prologue) (table : StringTable) : Event where
  kind := .stringTableIdentified
  scope := some "program"
  location := some 0
  pass := some passName
  message := table.name ++ " (" ++ toString table.entries.length ++ " entries, rotated by "
    ++ toString prologue.rotation ++ "), decoder " ++ prologue.decoder

def run (normalizing : Bool) (p : Program) : Outcome :=
  match Prologue.find? p.body with
  | none => ⟨p, [], false⟩
  | some prologue =>
    let table := prologue.decode
    let outcome := Progress.walk (visitor prologue table normalizing) p
    { outcome with events := identified prologue table :: outcome.events }

end StringDecoding

def stringDecoding (normalizing : Bool) : Pass where
  name := StringDecoding.passName
  description := "Decodes the rotated base64 string table and inlines its entries"
  run := StringDecoding.run normalizing

end Untangle
