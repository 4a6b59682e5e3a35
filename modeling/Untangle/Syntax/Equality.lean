import Untangle.Syntax.Tree

/-!
# Equality of syntax trees

It is decided part by part. Numbers compare as numbers do, so the two zeros
are the same literal.
-/
namespace Untangle

def LiteralValue.same : LiteralValue → LiteralValue → Bool
  | .null, .null => true
  | .boolean a, .boolean b => a == b
  | .number a, .number b => a.same b
  | .string a, .string b => a == b
  | .foreign a, .foreign b => a.same b
  | _, _ => false

def Literal.same (a b : Literal) : Bool :=
  a.value.same b.value && a.raw == b.raw && a.regex == b.regex && a.bigint == b.bigint

mutual
def Expression.same : Expression → Expression → Bool
  | .identifier a => fun | .identifier b => a == b | _ => false
  | .literal a => fun | .literal b => a.same b | _ => false
  | .this => fun | .this => true | _ => false
  | .array a => fun | .array b => sameElements a b | _ => false
  | .object a => fun | .object b => sameMembers a b | _ => false
  | .function a => fun | .function b => a.same b | _ => false
  | .arrow p b c s => fun
    | .arrow p' b' c' s' => sameExpressions p p' && b.same b' && c == c' && s == s'
    | _ => false
  | .unary o l a => fun | .unary o' l' b => o == o' && l == l' && a.same b | _ => false
  | .update o l a => fun | .update o' l' b => o == o' && l == l' && a.same b | _ => false
  | .binary o l r => fun | .binary o' l' r' => o == o' && l.same l' && r.same r' | _ => false
  | .logical o l r => fun | .logical o' l' r' => o == o' && l.same l' && r.same r' | _ => false
  | .assignment o l r => fun
    | .assignment o' l' r' => o == o' && l.same l' && r.same r'
    | _ => false
  | .conditional t c a => fun
    | .conditional t' c' a' => t.same t' && c.same c' && a.same a'
    | _ => false
  | .call c a o => fun | .call c' a' o' => c.same c' && sameExpressions a a' && o == o' | _ => false
  | .new c a => fun | .new c' a' => c.same c' && sameExpressions a a' | _ => false
  | .member o p c q => fun
    | .member o' p' c' q' => o.same o' && p.same p' && c == c' && q == q'
    | _ => false
  | .sequence a => fun | .sequence b => sameExpressions a b | _ => false
  | .template q e => fun | .template q' e' => q == q' && sameExpressions e e' | _ => false
  | .tagged t q => fun | .tagged t' q' => t.same t' && q.same q' | _ => false
  | .spread a => fun | .spread b => a.same b | _ => false
  | .assignmentPattern l r => fun
    | .assignmentPattern l' r' => l.same l' && r.same r'
    | _ => false
  | .arrayPattern a => fun | .arrayPattern b => sameElements a b | _ => false
  | .objectPattern a => fun | .objectPattern b => sameMembers a b | _ => false
  | .rest a => fun | .rest b => a.same b | _ => false
  | .foreign a => fun | .foreign b => a.same b | _ => false
termination_by structural e => e

def sameExpressions : List Expression → List Expression → Bool
  | [], [] => true
  | a :: as, b :: bs => a.same b && sameExpressions as bs
  | _, _ => false
termination_by structural l => l

def sameExpression? : Option Expression → Option Expression → Bool
  | none, none => true
  | some a, some b => a.same b
  | _, _ => false
termination_by structural e => e

def sameElements : List (Option Expression) → List (Option Expression) → Bool
  | [], [] => true
  | a :: as, b :: bs => sameExpression? a b && sameElements as bs
  | _, _ => false
termination_by structural l => l

def Member.same : Member → Member → Bool
  | .property k v d c m s, .property k' v' d' c' m' s' =>
    k.same k' && v.same v' && d == d' && c == c' && m == m' && s == s'
  | .spread a, .spread b => a.same b
  | .rest a, .rest b => a.same b
  | .foreign a, .foreign b => a.same b
  | _, _ => false
termination_by structural m => m

def sameMembers : List Member → List Member → Bool
  | [], [] => true
  | a :: as, b :: bs => a.same b && sameMembers as bs
  | _, _ => false
termination_by structural l => l

def Function.same : Function → Function → Bool
  | ⟨n, p, b, g, a⟩, ⟨n', p', b', g', a'⟩ =>
    n == n' && sameExpressions p p' && sameStatements b b' && g == g' && a == a'
termination_by structural f => f

def ArrowBody.same : ArrowBody → ArrowBody → Bool
  | .block a, .block b => sameStatements a b
  | .expression a, .expression b => a.same b
  | _, _ => false
termination_by structural b => b

def Statement.same : Statement → Statement → Bool
  | .expression e d => fun | .expression e' d' => e.same e' && d == d' | _ => false
  | .block a => fun | .block b => sameStatements a b | _ => false
  | .empty => fun | .empty => true | _ => false
  | .debugger => fun | .debugger => true | _ => false
  | .returns a => fun | .returns b => sameExpression? a b | _ => false
  | .breaks a => fun | .breaks b => a == b | _ => false
  | .continues a => fun | .continues b => a == b | _ => false
  | .labeled l a => fun | .labeled l' b => l == l' && a.same b | _ => false
  | .branch t c a => fun
    | .branch t' c' a' => t.same t' && c.same c' && sameStatement? a a'
    | _ => false
  | .switch d c => fun | .switch d' c' => d.same d' && sameCases c c' | _ => false
  | .throws a => fun | .throws b => a.same b | _ => false
  | .attempt b h f => fun
    | .attempt b' h' f' => sameStatements b b' && sameHandler? h h' && sameBlock? f f'
    | _ => false
  | .whileLoop t b => fun | .whileLoop t' b' => t.same t' && b.same b' | _ => false
  | .doWhile b t => fun | .doWhile b' t' => b.same b' && t.same t' | _ => false
  | .forLoop i t u b => fun
    | .forLoop i' t' u' b' =>
      sameHead? i i' && sameExpression? t t' && sameExpression? u u' && b.same b'
    | _ => false
  | .forIn l r b => fun | .forIn l' r' b' => l.same l' && r.same r' && b.same b' | _ => false
  | .forOf l r b a => fun
    | .forOf l' r' b' a' => l.same l' && r.same r' && b.same b' && a == a'
    | _ => false
  | .function a => fun | .function b => a.same b | _ => false
  | .declaration a => fun | .declaration b => a.same b | _ => false
  | .foreign a => fun | .foreign b => a.same b | _ => false
termination_by structural s => s

def sameStatements : List Statement → List Statement → Bool
  | [], [] => true
  | a :: as, b :: bs => a.same b && sameStatements as bs
  | _, _ => false
termination_by structural l => l

def sameStatement? : Option Statement → Option Statement → Bool
  | none, none => true
  | some a, some b => a.same b
  | _, _ => false
termination_by structural s => s

def sameBlock? : Option (List Statement) → Option (List Statement) → Bool
  | none, none => true
  | some a, some b => sameStatements a b
  | _, _ => false
termination_by structural b => b

def sameCases : List Case → List Case → Bool
  | [], [] => true
  | ⟨t, c⟩ :: as, ⟨t', c'⟩ :: bs => sameExpression? t t' && sameStatements c c' && sameCases as bs
  | _, _ => false
termination_by structural l => l

def sameHandler? : Option Handler → Option Handler → Bool
  | none, none => true
  | some ⟨p, b⟩, some ⟨p', b'⟩ => sameExpression? p p' && sameStatements b b'
  | _, _ => false
termination_by structural h => h

def Declaration.same : Declaration → Declaration → Bool
  | ⟨d, k⟩, ⟨d', k'⟩ => sameDeclarators d d' && k == k'
termination_by structural d => d

def sameDeclarators : List Declarator → List Declarator → Bool
  | [], [] => true
  | ⟨t, i⟩ :: as, ⟨t', i'⟩ :: bs => t.same t' && sameExpression? i i' && sameDeclarators as bs
  | _, _ => false
termination_by structural l => l

def LoopHead.same : LoopHead → LoopHead → Bool
  | .declaration a, .declaration b => a.same b
  | .expression a, .expression b => a.same b
  | _, _ => false
termination_by structural h => h

def sameHead? : Option LoopHead → Option LoopHead → Bool
  | none, none => true
  | some a, some b => a.same b
  | _, _ => false
termination_by structural h => h
end

def Program.same (a b : Program) : Bool :=
  sameStatements a.body b.body && a.sourceType == b.sourceType

end Untangle
