import Mathlib.Data.List.Rotate
import Untangle.Pass.StringTable

/-!
# The order of a decoded table

A program turns its table by moving the first entry to the end, again and again.
The table that is decoded has the entries in the order that the program finds
them in, however often it turns the table.
-/
namespace Untangle

namespace StringTable

def turn (t : StringTable) : StringTable :=
  match t.entries with
  | [] => t
  | first :: rest => { t with entries := rest ++ [first] }

theorem turn_eq (t : StringTable) : t.turn = { t with entries := t.entries.rotate 1 } := by
  obtain ⟨name, entries⟩ := t
  cases entries with
  | nil => rfl
  | cons first rest => simp [turn]

/-- Turning a table by a count is a rotation of its entries. -/
theorem rotate_eq (t : StringTable) (count : Nat) :
    t.rotate count = { t with entries := t.entries.rotate count } := by
  rw [rotate, List.rotate_eq_drop_append_take_mod]

theorem rotate_rotate (t : StringTable) (a b : Nat) :
    (t.rotate a).rotate b = t.rotate (a + b) := by
  simp only [rotate_eq, List.rotate_rotate]

/-- To rotate by a count is to turn as often. -/
theorem rotate_eq_iterate_turn (t : StringTable) (count : Nat) :
    t.rotate count = turn^[count] t := by
  induction count with
  | zero => rw [rotate_eq, List.rotate_zero, Function.iterate_zero_apply]
  | succ count ih =>
    rw [Function.iterate_succ_apply', ← ih, turn_eq, ← rotate_eq, rotate_rotate]

/-- Which entry is found in a turned table. -/
theorem get?_rotate (t : StringTable) (count : Nat) {i : Nat} (hi : i < t.entries.length) :
    (t.rotate count).get? i = t.entries[(i + count) % t.entries.length]? := by
  rw [rotate_eq]
  exact List.getElem?_rotate hi

theorem get?_rotate_of_le (t : StringTable) (count : Nat) {i : Nat} (hi : t.entries.length ≤ i) :
    (t.rotate count).get? i = none := by
  rw [rotate_eq]
  exact List.getElem?_eq_none (by rwa [List.length_rotate])

end StringTable

namespace Prologue

def entryText (encoded : String) : String := Text.ofBytes (Text.Base64.decode encoded)

/-- The decoded strings as they were declared, before the program turns its table. -/
def declared (p : Prologue) : StringTable := ⟨p.tableName, p.encoded.map entryText⟩

theorem length_declared (p : Prologue) : p.declared.entries.length = p.encoded.length :=
  List.length_map _

/-- An index of the decoded table finds the text of the string that lies the rotation further on,
around the end. It is the table that is left after turning it once for each unit of the rotation,
and rotations add up. -/
theorem decode_order (p : Prologue) (hp : 0 < p.encoded.length) :
    (∀ i < p.encoded.length, p.decode.get? i =
        some (entryText (p.encoded.get ⟨(i + p.rotation) % p.encoded.length, Nat.mod_lt _ hp⟩))) ∧
      (∀ i, p.encoded.length ≤ i → p.decode.get? i = none) ∧
      p.decode = StringTable.turn^[p.rotation] p.declared ∧
      ∀ (t : StringTable) (a b : Nat), (t.rotate a).rotate b = t.rotate (a + b) := by
  have hdecode : p.decode = p.declared.rotate p.rotation := rfl
  refine ⟨fun i hi => ?_, fun i hi => ?_, ?_, StringTable.rotate_rotate⟩
  · rw [hdecode, p.declared.get?_rotate _ (by rwa [length_declared]), length_declared]
    simp [declared, Nat.mod_lt _ hp]
  · rw [hdecode]
    exact p.declared.get?_rotate_of_le _ (by rwa [length_declared])
  · rw [hdecode, StringTable.rotate_eq_iterate_turn]

/-- Three strings, turned once around and once more. -/
def fourTurns : Prologue := ⟨"table", ["aGVsbG8=", "d29ybGQ=", "cHVzaA=="], 4, "decoder"⟩

/-- Beyond one full turn the count starts again. -/
theorem decode_fourTurns :
    0 < fourTurns.encoded.length ∧ fourTurns.decode.get? 0 = some "world" ∧
      fourTurns.decode.get? 2 = some "hello" ∧ fourTurns.decode.get? 3 = none := by
  have hp : 0 < fourTurns.encoded.length := by decide
  have htexts : entryText "d29ybGQ=" = "world" ∧ entryText "aGVsbG8=" = "hello" := by
    decide +kernel
  obtain ⟨hget, hnone, -⟩ := decode_order fourTurns hp
  exact ⟨hp, (hget 0 (by decide)).trans (congrArg some htexts.1),
    (hget 2 (by decide)).trans (congrArg some htexts.2), hnone 3 (by decide)⟩

end Prologue

end Untangle
