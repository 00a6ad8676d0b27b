import Mathlib.Data.List.DropRight
import Mathlib.Algebra.Order.Ring.Nat
import Superiority.Text

/-!
# Case and space in texts

`str::to_lowercase` and the trimming functions of the standard library, on the characters of a
text. The mapping of single characters and the context of a final sigma are Unicode's tables.
-/

namespace Superiority

/-- Unicode's lower case: of a character, and whether a sigma between two texts is final. -/
structure Casing where
  lower : Char → List Char
  lower_ne_nil : ∀ c, lower c ≠ []
  finalSigma : List Char → List Char → Bool

namespace Casing

variable (casing : Casing)

/-- What a character becomes between two texts. -/
def lowerAt (before : List Char) (c : Char) (after : List Char) : List Char :=
  if c = 'Σ' then (if casing.finalSigma before after then ['ς'] else ['σ']) else casing.lower c

def lowerFrom (before : List Char) : List Char → List Char
  | [] => []
  | c :: after => casing.lowerAt before c after ++ lowerFrom (before ++ [c]) after

/-- `str::to_lowercase`. -/
def toLowercase (text : List Char) : List Char := casing.lowerFrom [] text

/-- `to_lowercase` of two characters compared. -/
def sameLetter (left right : Char) : Bool :=
  left = right ∨ casing.lower left = casing.lower right

/-- How many characters a character becomes, wherever it stands. -/
def width (c : Char) : Nat := if c = 'Σ' then 1 else (casing.lower c).length

theorem length_lowerAt (before : List Char) (c : Char) (after : List Char) :
    (casing.lowerAt before c after).length = casing.width c := by
  unfold lowerAt width
  split
  · split <;> rfl
  · rfl

theorem width_pos (c : Char) : 0 < casing.width c := by
  unfold width
  split
  · exact Nat.one_pos
  · exact List.length_pos_iff.2 (casing.lower_ne_nil c)

theorem length_lowerFrom (before text : List Char) :
    (casing.lowerFrom before text).length = (text.map casing.width).sum := by
  induction text generalizing before with
  | nil => rfl
  | cons c after ih => simp [lowerFrom, length_lowerAt, ih]

/-- A text that goes on has another lower case. -/
theorem toLowercase_append_ne {text more : List Char} (h : more ≠ []) :
    casing.toLowercase text ≠ casing.toLowercase (text ++ more) := by
  intro heq
  have hlength := congrArg List.length heq
  simp only [toLowercase, length_lowerFrom, List.map_append, List.sum_append] at hlength
  obtain ⟨c, rest, rfl⟩ := List.exists_cons_of_ne_nil h
  have hpos := casing.width_pos c
  simp only [List.map_cons, List.sum_cons] at hlength
  omega

end Casing

/-! ## Trimming -/

def trimStart (text : List Char) : List Char := text.dropWhile isWhitespace

def trimEnd (text : List Char) : List Char := text.rdropWhile isWhitespace

def trimmed (text : List Char) : List Char := trimEnd (trimStart text)

theorem trimEnd_append_of_ne {text more : List Char} (h : trimEnd more ≠ []) :
    trimEnd (text ++ more) = text ++ trimEnd more := by
  have hdrop : more.reverse.dropWhile isWhitespace ≠ [] := fun hnil => h (by
    simp [trimEnd, List.rdropWhile, hnil])
  simp only [trimEnd, List.rdropWhile, List.reverse_append]
  rw [List.dropWhile_append, if_neg (by simpa using hdrop), List.reverse_append,
    List.reverse_reverse]

theorem trimEnd_append_of_eq {text more : List Char} (h : trimEnd more = []) :
    trimEnd (text ++ more) = trimEnd text := by
  have hdrop : more.reverse.dropWhile isWhitespace = [] := by
    simpa [trimEnd, List.rdropWhile] using h
  simp only [trimEnd, List.rdropWhile, List.reverse_append]
  rw [List.dropWhile_append, if_pos (by simp [hdrop])]

theorem trimEnd_cons (c : Char) (text : List Char) :
    trimEnd (c :: text) =
      if trimEnd text = [] then (if isWhitespace c then [] else [c]) else c :: trimEnd text := by
  split
  · next h =>
    rw [← List.singleton_append, trimEnd_append_of_eq h, trimEnd, List.rdropWhile_singleton]
  · next h =>
    have hcons : trimEnd ([c] ++ text) = [c] ++ trimEnd text := trimEnd_append_of_ne h
    exact hcons

/-- Trimming at one end leaves the trimming at the other for later. -/
theorem trimStart_trimEnd (text : List Char) : trimStart (trimEnd text) = trimmed text := by
  induction text with
  | nil => rfl
  | cons c text ih =>
    unfold trimmed trimStart at ih ⊢
    by_cases hc : isWhitespace c = true
    · rw [List.dropWhile_cons_of_pos hc, ← ih, trimEnd_cons]
      by_cases hnil : trimEnd text = []
      · simp [hnil, hc]
      · simp [hnil, hc]
    · rw [List.dropWhile_cons_of_neg hc, trimEnd_cons]
      by_cases hnil : trimEnd text = []
      · simp [hnil, hc]
      · simp [hnil, hc]

theorem trimmed_cons_of_whitespace {c : Char} (hc : isWhitespace c = true) (text : List Char) :
    trimmed (c :: text) = trimmed text := by
  rw [trimmed, trimStart, List.dropWhile_cons_of_pos hc]
  rfl

/-- A trimmed text with more behind it loses nothing at its start. -/
theorem trimmed_append {text : List Char} (h : trimmed text = text) (hne : text ≠ [])
    (more : List Char) : trimmed (text ++ more) = text ++ trimEnd more := by
  obtain ⟨c, rest, rfl⟩ := List.exists_cons_of_ne_nil hne
  have hc : isWhitespace c = false := by
    cases hc : isWhitespace c with
    | false => rfl
    | true =>
      have hlength := congrArg List.length h
      rw [trimmed_cons_of_whitespace hc] at hlength
      have hle : (trimmed rest).length ≤ rest.length :=
        (List.rdropWhile_prefix _ _).length_le.trans (List.dropWhile_suffix _).length_le
      rw [List.length_cons] at hlength
      omega
  have hend : trimEnd (c :: rest) = c :: rest := by
    rw [trimmed, trimStart, List.dropWhile_cons_of_neg (by simp [hc])] at h
    exact h
  rw [trimmed, trimStart, List.cons_append, List.dropWhile_cons_of_neg (by simp [hc]),
    ← List.cons_append]
  by_cases hnil : trimEnd more = []
  · rw [trimEnd_append_of_eq hnil, hend, hnil, List.append_nil]
  · rw [trimEnd_append_of_ne hnil]

end Superiority
