import Untangle.Json.Value
import Untangle.Text.Spelled

/-!
# Records in JSON

A record is an object with named members, or an array with the same fields in
their order. A field of a record is asked for by place and name.
-/
namespace Untangle

inductive Fields (α : Type) where
  | named (members : List (String × α))
  | listed (items : List α)

namespace Fields

variable {α β : Type}

def get? (f : Fields α) (place : Nat) (name : String) : Option α :=
  match f with
  | .named members => members.lookup name
  | .listed items => items[place]?

/-- A list of fields may not be longer than the record; an object may have other members. -/
def fits (f : Fields α) (count : Nat) : Bool :=
  match f with
  | .named _ => true
  | .listed items => items.length ≤ count

/-- A field that must be there. -/
def required (f : Fields α) (place : Nat) (name : String) (read : α → Option β) : Option β :=
  (f.get? place name).bind read

/-- A field that an object may leave out; a list may not. -/
def optional (f : Fields α) (place : Nat) (name : String) (read : α → Option (Option β)) :
    Option (Option β) :=
  match f, f.get? place name with
  | _, some v => read v
  | .named _, none => some none
  | .listed _, none => none

/-- A field with a value to take where it is left out. -/
def orElse (f : Fields α) (place : Nat) (name : String) (fallback : β) (read : α → Option β) :
    Option β :=
  match f.get? place name with
  | some v => read v
  | none => some fallback

end Fields

namespace Json

def fields? : Json → Option (Fields Json)
  | .array items => some (.listed items)
  | .object members => some (.named members)
  | _ => none

/-- Reads `null` as an absent value. -/
def nullable (read : Json → Option β) (v : Json) : Option (Option β) :=
  if v.isNull then some none else (read v).map some

/-- A word of a fixed vocabulary inside a node: its text, or an object with the text as the name
of its only member, whose value is empty. -/
def word? [Spelled α] : Json → Option α
  | .string s => Spelled.ofText? s
  | .object [(s, .null)] => Spelled.ofText? s
  | .object [(s, .object [])] => Spelled.ofText? s
  | _ => none

end Json
end Untangle
