import Untangle.Text.Split

/-!
# Paths of files

A path is text, cut into pieces at its slashes. Two paths are alike if they
have the same components, which leaves out the pieces that lead nowhere: empty
ones, and dots except at the start. Names that are no UTF-8 have no path.
-/
namespace Untangle

structure Path where
  text : String
  deriving DecidableEq, Repr

namespace Path

def isAbsolute (p : Path) : Bool := p.text.toList.head? == some '/'

def endsInSlash (p : Path) : Bool := p.text.toList.getLast? == some '/'

def pieces (p : Path) : List String := Text.splitText '/' p.text

/-- The steps that are taken one after the other to follow a path. -/
def steps (p : Path) : List String := p.pieces.filter (· ≠ "")

/-- A piece that leads nowhere. -/
def isIdle (piece : String) : Bool := piece == "" || piece == "."

def components (p : Path) : List String :=
  match p.pieces with
  | [] => []
  | first :: rest =>
    let rest := rest.filter fun piece => !isIdle piece
    if p.isAbsolute then "/" :: rest else if first = "" then [] else first :: rest

/-- Whether components come before others or are the same, by the first in which they differ. -/
def ordered : List String → List String → Bool
  | [], _ => true
  | _ :: _, [] => false
  | a :: as, b :: bs => a < b || (a == b && ordered as bs)

def alike (p q : Path) : Bool := p.components == q.components

/-- The name of the file or directory that a path leads to, where the path says it. -/
def name? (p : Path) : Option String :=
  p.components.getLast?.filter fun last => last ≠ "/" && last ≠ "." && last ≠ ".."

/-- A name before and after its last dot. A dot at the start does not divide a name. -/
def divide (name : String) : String × Option String :=
  let backwards := name.toList.reverse
  match backwards.dropWhile (· ≠ '.') with
  | [] | [_] => (name, none)
  | _ :: before =>
    (String.ofList before.reverse,
      some (String.ofList (backwards.takeWhile (· ≠ '.')).reverse))

def stem? (p : Path) : Option String := p.name?.map fun name => (divide name).1

def extension? (p : Path) : Option String := p.name?.bind fun name => (divide name).2

/-- The name, or the whole path where it has none. -/
def shownName (p : Path) : String := p.name?.getD p.text

def dropIdleEnd (pieces : List String) : List String := (pieces.reverse.dropWhile isIdle).reverse

/-- A path without its last component. The parent of a single name is the empty path. -/
def parent? (p : Path) : Option Path :=
  match p.pieces with
  | [] => none
  | first :: rest =>
    match dropIdleEnd rest with
    | [] => if first = "" then none else some ⟨""⟩
    | rest =>
      match dropIdleEnd rest.dropLast with
      | [] => some ⟨if first = "" then "/" else first⟩
      | above => some ⟨"/".intercalate (first :: above)⟩

/-- The path to something in the directory that a path leads to. -/
def join (p : Path) (name : String) : Path :=
  if (⟨name⟩ : Path).isAbsolute then ⟨name⟩
  else if p.text = "" || p.endsInSlash then ⟨p.text ++ name⟩
  else ⟨p.text ++ "/" ++ name⟩

def climb : Nat → Path → List Path
  | 0, _ => []
  | n + 1, p =>
    p :: match p.parent? with
      | none => []
      | some above => climb n above

/-- A path and what is above it, from the bottom up, without the empty path. -/
def ancestors (p : Path) : List Path := climb p.components.length p

end Path
end Untangle
