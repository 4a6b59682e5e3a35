import Untangle.Text.Split

/-!
# Pieces and the text between them

Cutting a text at a mark undoes putting the mark between pieces that are free
of it. No piece holds the mark, and what stands before a mark is cut without
regard to what stands behind it.
-/
namespace Untangle.Text

variable {mark : Char}

/-- Cutting a text is that of the library. -/
theorem split_eq_splitOn (mark : Char) (cs : List Char) : split mark cs = cs.splitOn mark := by
  induction cs with
  | nil => rfl
  | cons c rest ih =>
    rw [split, ih, List.splitOn_cons_eq_if_modifyHead]
    by_cases h : c = mark
    · simp [h]
    · cases hs : rest.splitOn mark with
      | nil => exact absurd hs (List.splitOn_ne_nil mark rest)
      | cons piece pieces => simp [h]

/-- Pieces without the mark are what their text is cut into. -/
theorem split_intercalate {pieces : List (List Char)} (hne : pieces ≠ [])
    (h : ∀ piece ∈ pieces, mark ∉ piece) : split mark ([mark].intercalate pieces) = pieces := by
  rw [split_eq_splitOn, List.splitOn_intercalate mark h hne]

theorem not_mem_of_mem_split {cs piece : List Char} (h : piece ∈ split mark cs) : mark ∉ piece := by
  fun_induction split mark cs generalizing piece with
  | case1 => simp_all
  | case2 rest ih =>
    rcases List.mem_cons.1 h with rfl | h
    · exact List.not_mem_nil
    · exact ih h
  | case3 c rest hc hs ih =>
    obtain rfl := List.mem_singleton.1 h
    simpa using fun e => hc e.symm
  | case4 c rest hc first pieces hs ih =>
    rw [hs] at ih
    rcases List.mem_cons.1 h with rfl | h
    · simpa using ⟨fun e => hc e.symm, ih List.mem_cons_self⟩
    · exact ih (List.mem_cons_of_mem _ h)

theorem splitText_ne_nil (s : String) : splitText mark s ≠ [] := by
  simp [splitText, split_eq_splitOn, List.splitOn_ne_nil]

theorem splitText_of_not_mem {s : String} (h : mark ∉ s.toList) : splitText mark s = [s] := by
  simp [splitText, split_eq_splitOn, List.splitOn_eq_singleton h]

/-- What stands before a mark and what stands behind it are cut on their own. -/
theorem splitText_append (s t : String) :
    splitText mark (s ++ String.singleton mark ++ t) = splitText mark s ++ splitText mark t := by
  simp [splitText, split_eq_splitOn, List.splitOn_append_cons_self]

theorem splitText_intercalate {pieces : List String} (hne : pieces ≠ [])
    (h : ∀ piece ∈ pieces, mark ∉ piece.toList) :
    splitText mark ((String.singleton mark).intercalate pieces) = pieces := by
  rw [splitText, String.toList_intercalate, String.toList_singleton,
    split_intercalate (by simpa using hne) (by simpa using h)]
  simp

/-- No piece of a text has the mark in it. -/
theorem not_mem_of_mem_splitText {s piece : String} (h : piece ∈ splitText mark s) :
    mark ∉ piece.toList := by
  obtain ⟨cs, hcs, rfl⟩ := List.mem_map.1 h
  simpa using not_mem_of_mem_split hcs

end Untangle.Text
