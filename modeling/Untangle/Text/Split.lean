/-!
# Cutting text at a character

There is always one piece more than there are marks.
-/
namespace Untangle.Text

/-- The pieces of a text between the places where a character stands. -/
def split (mark : Char) : List Char → List (List Char)
  | [] => [[]]
  | c :: rest =>
    if c = mark then [] :: split mark rest
    else
      match split mark rest with
      | [] => [[c]]
      | piece :: pieces => (c :: piece) :: pieces

def splitText (mark : Char) (s : String) : List String := (split mark s.toList).map String.ofList

end Untangle.Text
