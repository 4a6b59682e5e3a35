import Mathlib.Logic.Equiv.Defs
import Untangle.Pass.Dispatcher
import Untangle.Proofs.Lists
import Untangle.Proofs.Text.Numeral
import Untangle.Proofs.Text.Split

/-!
# Flattening undone

A flattened program holds its statements as the cases of a `switch`, in any
order, and the order in which they run as numerals with bars between them. The
numerals read back as the places they spell, the cases taken at these places
are the chunks in the order in which they run, and so one run of the pass gives
the statements back. Whatever a list of statements is, the pass puts nothing in
its place but statements of its cases.
-/
namespace Untangle

namespace Dispatcher

/-- The cases of a dispatcher are those of a statement in the list. -/
theorem exists_of_find? {body : List Statement} {location : Nat} {cases : List Case}
    (h : find? body = some (location, cases)) : ∃ s ∈ body, cases? s = some cases := by
  induction body generalizing location with
  | nil => cases h
  | cons s rest ih =>
    unfold find? at h
    split at h
    · next found hs =>
      cases h
      exact ⟨s, List.mem_cons_self, hs⟩
    · obtain ⟨⟨n, found⟩, hrest, he⟩ := Option.map_eq_some_iff.1 h
      cases he
      obtain ⟨t, ht, hcases⟩ := ih hrest
      exact ⟨t, List.mem_cons_of_mem s ht, hcases⟩

/-- Merged statements come from the cases. -/
theorem mem_of_merge? {cases : List Case} {order : List Nat} {merged : List Statement}
    (h : merge? cases order = some merged) : ∀ t ∈ merged, ∃ c ∈ cases, t ∈ c.consequent := by
  simp only [merge?, Option.bind_eq_bind, Option.bind_eq_some_iff, Option.pure_def,
    Option.some.injEq] at h
  obtain ⟨chosen, hchosen, rfl⟩ := h
  intro t ht
  obtain ⟨c, hc, htc⟩ := List.mem_flatMap.1 ht
  obtain ⟨i, -, hi⟩ := exists_of_mem_mapM hchosen c hc
  exact ⟨c, List.mem_of_getElem? hi, (List.mem_filter.1 htc).1⟩

/-- A flattened list has a loop over its cases, and what is merged comes from these. -/
theorem exists_of_flattened? {body : List Statement} {f : Flattened}
    (h : flattened? body = some f) : ∃ loop ∈ body, cases? loop = some f.cases ∧
      ∀ t ∈ f.merged, ∃ c ∈ f.cases, t ∈ c.consequent := by
  simp only [flattened?, Option.bind_eq_bind, Option.bind_eq_some_iff, Option.pure_def,
    Option.some.injEq] at h
  obtain ⟨⟨location, cases⟩, hfind, text, -, order, -, merged, hmerge, rfl⟩ := h
  obtain ⟨loop, hloop, hcases⟩ := exists_of_find? hfind
  exact ⟨loop, hloop, hcases, mem_of_merge? hmerge⟩

/-- The numerals of some places with bars between them. -/
def orderText (order : List Nat) : String := "|".intercalate (order.map Nat.repr)

/-- An order reads back from its text. -/
theorem order?_orderText {order : List Nat} (hne : order ≠ [])
    (h : ∀ i ∈ order, i < 0x10000000000000000) : order? (orderText order) = some order := by
  have hpieces : (orderText order).toList = ['|'].intercalate (order.map (Nat.toDigits 10)) := by
    simp [orderText, String.toList_intercalate, Function.comp_def]
  have hbar : ∀ piece ∈ order.map (Nat.toDigits 10), '|' ∉ piece := by
    intro piece hp hc
    obtain ⟨i, -, rfl⟩ := List.mem_map.1 hp
    exact absurd (Nat.isDigit_of_mem_toDigits (by decide) (by decide) hc) (by decide)
  have hread : ∀ i ∈ order, Text.unsigned? 10 (Text.trim (Nat.toDigits 10 i)) = some (id i) := by
    intro i hi
    rw [Text.trim_toDigits]
    exact Text.unsigned?_toDigits (h i hi)
  rw [order?, hpieces, Text.split_intercalate (by simpa using hne) hbar, List.mapM_map]
  exact (mapM_eq_some_map hread).trans (by rw [List.map_id])

end Dispatcher

/-- Some statements, the test of the case that holds them, and the `continue` behind them if there
is one. -/
structure Chunk where
  statements : List Statement
  test : Option Expression
  ending : Option (Option String)

namespace Chunk

def case (c : Chunk) : Case := ⟨c.test, c.statements ++ (c.ending.map .continues).toList⟩

theorem filter_case {c : Chunk} (h : ∀ s ∈ c.statements, s.isContinue = false) :
    c.case.consequent.filter (fun s => !s.isContinue) = c.statements := by
  have hend : (c.ending.map Statement.continues).toList.filter (fun s => !s.isContinue) = [] := by
    cases c.ending <;> rfl
  rw [case, List.filter_append, hend, List.append_nil, List.filter_eq_self]
  intro s hs
  simp [h s hs]

end Chunk

/-- A way to flatten a program of `n` chunks: the chunk that runs as number `k` becomes the case at
`place k`. The rest is what the flattened program is free to choose. -/
structure Flattening (n : Nat) where
  chunk : Fin n → Chunk
  place : Equiv.Perm (Fin n)
  target : Expression
  orderSpelling : Option String
  barSpelling : Option String
  others : List Declarator
  kind : VariableKind
  test : Expression
  discriminant : Expression
  more : List Statement

namespace Flattening

variable {n : Nat} (f : Flattening n)

def statements : List Statement := (List.finRange n).flatMap fun k => (f.chunk k).statements

def order : List Nat := (List.finRange n).map fun k => (f.place k).val

def cases : List Case := (List.finRange n).map fun i => (f.chunk (f.place.symm i)).case

def splitting : Expression :=
  .call
    (.member (.literal ⟨.string (Dispatcher.orderText f.order), f.orderSpelling, none, none⟩)
      (.identifier "split") false false)
    [.literal ⟨.string "|", f.barSpelling, none, none⟩] false

def body : List Statement :=
  [.declaration ⟨⟨f.target, some f.splitting⟩ :: f.others, f.kind⟩,
    .whileLoop f.test (.block (.switch f.discriminant f.cases :: f.more))]

theorem getElem?_cases (k : Fin n) : f.cases[(f.place k).val]? = some (f.chunk k).case := by
  simp [cases]

/-- The cases at the places of the order are the statements in their order. -/
theorem merge?_cases (h : ∀ s ∈ f.statements, s.isContinue = false) :
    Dispatcher.merge? f.cases f.order = some f.statements := by
  have hchosen : f.order.mapM (fun i => f.cases[i]?) =
      some ((List.finRange n).map fun k => (f.chunk k).case) := by
    rw [order, List.mapM_map]
    exact mapM_eq_some_map fun k _ => f.getElem?_cases k
  have hkept : ∀ k, (f.chunk k).case.consequent.filter (fun s => !s.isContinue) =
      (f.chunk k).statements := by
    intro k
    apply Chunk.filter_case
    intro s hs
    exact h s (List.mem_flatMap.2 ⟨k, List.mem_finRange k, hs⟩)
  simp only [Dispatcher.merge?, hchosen, statements, List.flatMap_map, hkept, Option.bind_eq_bind,
    Option.bind_some, Option.pure_def]

/-- A flattened list is found to be one. -/
theorem flattened?_body (hn : 0 < n) (hw : n ≤ 0x10000000000000000)
    (h : ∀ s ∈ f.statements, s.isContinue = false) :
    Dispatcher.flattened? f.body =
      some ⟨1, f.cases, Dispatcher.orderText f.order, f.statements⟩ := by
  have hne : f.order ≠ [] := by
    intro h0
    have hlen : f.order.length = n := by simp [order]
    rw [h0, List.length_nil] at hlen
    omega
  have hplace : ∀ i ∈ f.order, i < 0x10000000000000000 := by
    intro i hi
    obtain ⟨k, -, rfl⟩ := List.mem_map.1 hi
    omega
  have hfind : Dispatcher.find? f.body = some (1, f.cases) := rfl
  have htext : Dispatcher.orderText? f.body = some (Dispatcher.orderText f.order) := rfl
  simp only [Dispatcher.flattened?, hfind, htext, Dispatcher.order?_orderText hne hplace,
    f.merge?_cases h, Option.bind_eq_bind, Option.bind_some, Option.pure_def]

end Flattening

namespace Unflattening

/-- A flattened list is settled as its merged cases, and one change is counted. -/
theorem statements_flattened {body : List Statement} {f : Dispatcher.Flattened}
    (h : Dispatcher.flattened? body = some f) (s : Progress) :
    ((visitor.statements body).run s).1 = f.merged ∧
      ((visitor.statements body).run s).2.changes = s.changes + 1 := by
  have henter : visitor.enterStatements body = enterStatements body := rfl
  rw [Visitor.statements, Visitor.around, henter, enterStatements, h]
  exact ⟨rfl, rfl⟩

/-- Flattening undone. Places are read as words of 64 bits, and no list in memory is longer than
these can count. -/
theorem run_flattened {n : Nat} (f : Flattening n) (hn : 0 < n) (hw : n ≤ 0x10000000000000000)
    (h : ∀ s ∈ f.statements, s.isContinue = false) (t : SourceType) :
    (run ⟨f.body, t⟩).changed = true ∧ (run ⟨f.body, t⟩).program = ⟨f.statements, t⟩ := by
  obtain ⟨hbody, hcount⟩ := statements_flattened (f.flattened?_body hn hw h) {}
  have hchanged : (run ⟨f.body, t⟩).changed =
      decide (((visitor.statements f.body).run {}).2.changes > 0) := rfl
  have hprogram : (run ⟨f.body, t⟩).program = ⟨((visitor.statements f.body).run {}).1, t⟩ := rfl
  constructor
  · rw [hchanged, hcount]
    rfl
  · rw [hprogram, hbody]

/-- Three chunks, of which the second is empty, behind the order `1|2|0`. -/
def rotated : Flattening 3 where
  chunk
    | 0 => ⟨[.debugger], none, some none⟩
    | 1 => ⟨[], some (.ofString "0"), some (some "outer")⟩
    | 2 => ⟨[.empty, .returns none], some .this, none⟩
  place := ⟨fun k => k + 1, fun i => i - 1, fun k => by decide +revert, fun i => by decide +revert⟩
  target := .identifier "order"
  orderSpelling := none
  barSpelling := some "'|'"
  others := [⟨.identifier "next", none⟩]
  kind := .var
  test := .this
  discriminant := .identifier "next"
  more := [.breaks none]

/-- The order is undone, and an empty chunk leaves nothing behind. -/
theorem run_rotated :
    Dispatcher.orderText rotated.order = "1|2|0" ∧
      (∀ s ∈ rotated.statements, s.isContinue = false) ∧
      (run ⟨rotated.body, .script⟩).changed = true ∧
      (run ⟨rotated.body, .script⟩).program = ⟨[.debugger, .empty, .returns none], .script⟩ :=
  have h : ∀ s ∈ rotated.statements, s.isContinue = false := by decide
  ⟨by decide, h, run_flattened rotated (by decide) (by decide) h .script⟩

end Unflattening
end Untangle
