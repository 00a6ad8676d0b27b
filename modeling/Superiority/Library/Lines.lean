import Mathlib.Data.List.Basic

/-!
# Lines

A text is read by lines: it is cut at its newlines, a carriage return before a newline goes with
it, and what stands behind the last newline is a line only when there is something. Texts that are
joined by newlines are read back when they hold none of their own, except that all but the last
lose a carriage return at their end (`lines_intercalate`).
-/

namespace Superiority

variable {α : Type*} [DecidableEq α] (newline carriage : α)

/-- The text without the carriage return at its end. -/
def chomp (line : List α) : List α :=
  if line.getLast? = some carriage then line.dropLast else line

/-- `str::lines`. -/
def lines (text : List α) : List (List α) :=
  let pieces := text.splitOn newline
  pieces.dropLast.map (chomp carriage) ++ pieces.getLast?.toList.filter (· ≠ [])

variable {newline carriage}

theorem chomp_of_getLast?_ne {line : List α} (h : line.getLast? ≠ some carriage) :
    chomp carriage line = line :=
  if_neg h

theorem chomp_concat (line : List α) : chomp carriage (line ++ [carriage]) = line := by
  simp [chomp]

theorem chomp_append (front : List α) {line : List α} (h : line ≠ []) :
    chomp carriage (front ++ line) = front ++ chomp carriage line := by
  unfold chomp
  rw [List.getLast?_append_of_ne_nil _ h]
  split
  · exact List.dropLast_append_of_ne_nil h
  · rfl

theorem chomp_subset (line : List α) : chomp carriage line ⊆ line := by
  unfold chomp
  split
  · exact List.dropLast_subset line
  · exact List.Subset.refl line

/-- No piece of a cut text holds what it was cut at. -/
theorem not_mem_of_mem_splitOn (text : List α) :
    ∀ piece ∈ text.splitOn newline, newline ∉ piece := by
  induction text with
  | nil => simp
  | cons c text ih =>
    rw [List.splitOn_cons_eq_if_modifyHead]
    by_cases hc : c = newline
    · simpa [hc] using ih
    · cases hpieces : text.splitOn newline with
      | nil => exact absurd hpieces (List.splitOn_ne_nil newline text)
      | cons first rest =>
        rw [hpieces, List.forall_mem_cons] at ih
        have hne : (c == newline) = false := by simpa using hc
        rw [hne]
        refine List.forall_mem_cons.2 ⟨?_, ih.2⟩
        exact List.not_mem_cons_of_ne_of_not_mem (Ne.symm hc) ih.1

theorem not_mem_of_mem_lines {text line : List α} (h : line ∈ lines newline carriage text) :
    newline ∉ line := by
  rw [lines, List.mem_append, List.mem_map] at h
  rcases h with ⟨piece, hpiece, rfl⟩ | h
  · intro hmem
    exact not_mem_of_mem_splitOn text piece (List.dropLast_subset _ hpiece)
      (chomp_subset piece hmem)
  · have hlast := List.mem_of_getLast? (Option.mem_toList.1 (List.mem_filter.1 h).1)
    exact not_mem_of_mem_splitOn text line hlast

theorem lines_nil : lines newline carriage ([] : List α) = [] := by
  simp [lines]

/-- Texts that are joined by newlines are read back but for the carriage returns at their ends. -/
theorem lines_intercalate {texts : List (List α)} {last : List α}
    (h : ∀ text ∈ texts ++ [last], newline ∉ text) (hlast : last ≠ []) :
    lines newline carriage (List.intercalate [newline] (texts ++ [last])) =
      texts.map (chomp carriage) ++ [last] := by
  rw [lines, List.splitOn_intercalate newline h (by simp)]
  simp [hlast]

end Superiority
