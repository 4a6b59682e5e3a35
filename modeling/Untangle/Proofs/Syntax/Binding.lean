import Untangle.Proofs.Syntax.Diagram

/-!
# Names and what binds them

A name is bound by the parameters of a function, by a declaration or by the
clause that catches an error. An occurrence that nothing around it binds is
free, and a substitution replaces just these. What is passed over or was not
understood has no occurrences.
-/
namespace Untangle

namespace Diagram

/-- The names that a pattern binds; defaults and keys bind nothing. -/
def bound : Diagram → List String
  | .expression (.identifier name) _ => [name]
  | .expression .assignmentPattern (.pair target _) => target.bound
  | .expression .arrayPattern parts | .expression .objectPattern parts
  | .expression .rest parts | .clause .rest parts => parts.bound
  | .clause (.property _ _ _ _) (.pair _ value) => value.bound
  | .pair first rest => first.bound ++ rest.bound
  | _ => []

def declared : Diagram → List String
  | .pair first rest => first.declared ++ rest.declared
  | .clause .declarator (.pair target _) => target.bound
  | _ => []

/-- The names that statements, or the cases of a `switch`, bind in the block that they are in. -/
def lexical : Diagram → List String
  | .pair first rest => first.lexical ++ rest.lexical
  | .statement .declaration parts | .statement (.labeled _) parts => parts.lexical
  | .statement (.function name _ _) _ => name.toList
  | .clause (.declaration .var) _ => []
  | .clause (.declaration _) parts => parts.declared
  | .clause .case (.pair _ (.pair (.block _ parts) _)) => parts.lexical
  | _ => []

/-- The names that statements bind in the function that they are in, however deep they stand. -/
def hoisted : Diagram → List String
  | .pair first rest => first.hoisted ++ rest.hoisted
  | .clause (.declaration .var) parts => parts.declared
  | .statement _ parts | .clause _ parts | .block _ parts => parts.hoisted
  | _ => []

/-- The names that a node binds in all of its parts. -/
def binds : Diagram → List String
  | .expression (.function name _ _) _ => "arguments" :: name.toList
  | .statement (.function _ _ _) _ => ["arguments"]
  | .statement .forLoop (.pair head _) | .statement .forIn (.pair head _)
  | .statement (.forOf _) (.pair head _) => head.lexical
  | .clause .handler (.pair param _) => param.bound
  | .block _ parts => parts.lexical
  | _ => []

/-- The free occurrences of names where `hidden` are bound already. What is declared in the cases of
a `switch` is bound in all of them; the parameters of a function do not see what its body binds. -/
def free (hidden : List String) : Diagram → List String
  | .nothing | .passed _ => []
  | .pair first rest => first.free hidden ++ rest.free hidden
  | .expression (.identifier name) _ => if name ∈ hidden then [] else [name]
  | .expression root parts => parts.free ((expression root parts).binds ++ hidden)
  | .statement .switch (.pair value cases) =>
    value.free hidden ++ cases.free (cases.lexical ++ hidden)
  | .statement root parts => parts.free ((statement root parts).binds ++ hidden)
  | .clause root parts => parts.free ((clause root parts).binds ++ hidden)
  | .block body parts => parts.free ((block body parts).binds ++ hidden)
  | .function _ params body =>
    params.free (params.bound ++ hidden) ++ body.free (params.bound ++ body.hoisted ++ hidden)

/-- The tree without the copies of what is in its functions and blocks. -/
def plain : Diagram → Diagram
  | .nothing => .nothing
  | .passed name => .passed name.plain
  | .pair first rest => .pair first.plain rest.plain
  | .expression root parts => .expression root parts.plain
  | .statement root parts => .statement root parts.plain
  | .clause root parts => .clause root parts.plain
  | .block _ parts => .block [] parts.plain
  | .function _ params body => .function [] params.plain body.plain

/-- The tree with its free occurrences replaced. -/
def subst (θ : String → Option Diagram) (hidden : List String) : Diagram → Diagram
  | .nothing => .nothing
  | .passed name => .passed name.plain
  | .pair first rest => .pair (first.subst θ hidden) (rest.subst θ hidden)
  | .expression (.identifier name) parts =>
    if name ∈ hidden then .expression (.identifier name) parts.plain
    else (θ name).getD (.expression (.identifier name) parts.plain)
  | .expression root parts =>
    .expression root (parts.subst θ ((expression root parts).binds ++ hidden))
  | .statement .switch (.pair value cases) =>
    .statement .switch (.pair (value.subst θ hidden) (cases.subst θ (cases.lexical ++ hidden)))
  | .statement root parts =>
    .statement root (parts.subst θ ((statement root parts).binds ++ hidden))
  | .clause root parts => .clause root (parts.subst θ ((clause root parts).binds ++ hidden))
  | .block body parts => .block [] (parts.subst θ ((block body parts).binds ++ hidden))
  | .function _ params body =>
    .function [] (params.subst θ (params.bound ++ hidden))
      (body.subst θ (params.bound ++ body.hoisted ++ hidden))

/-- Nothing changes where nothing is free that is replaced. -/
theorem subst_eq_plain {θ : String → Option Diagram} {hidden : List String} {d : Diagram}
    (h : ∀ name ∈ d.free hidden, θ name = none) : d.subst θ hidden = d.plain := by
  fun_induction free hidden d with
  | case1 | case2 => rfl
  | case3 hidden first rest ihfirst ihrest =>
    obtain ⟨hfirst, hrest⟩ := List.forall_mem_append.1 h
    rw [subst, plain, ihfirst hfirst, ihrest hrest]
  | case4 hidden name parts hname => rw [subst, plain, if_pos hname]
  | case5 hidden name parts hname =>
    rw [subst, plain, if_neg hname, h name List.mem_cons_self, Option.getD_none]
  | case6 hidden root parts hroot ih => rw [subst, plain, ih h]; exact hroot
  | case7 hidden value cases ihvalue ihcases =>
    obtain ⟨hvalue, hcases⟩ := List.forall_mem_append.1 h
    rw [subst, plain, plain, ihvalue hvalue, ihcases hcases]
  | case8 hidden root parts hroot ih => rw [subst, plain, ih h]; exact hroot
  | case9 hidden root parts ih => rw [subst, plain, ih h]
  | case10 hidden body parts ih => rw [subst, plain, ih h]
  | case11 hidden _ params body ihparams ihbody =>
    obtain ⟨hparams, hbody⟩ := List.forall_mem_append.1 h
    rw [subst, plain, ihparams hparams, ihbody hbody]

end Diagram
end Untangle
