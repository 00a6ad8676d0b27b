import Mathlib.Data.List.Basic

/-!
# Reading what arrives in pieces

A connection hands over its bytes in pieces of any size, and a read may be interrupted in between.
`readOne` and `readExact` read until they have what they ask for. They see no more than the bytes
(`readOne_cons`, `readExact_append`): how these were cut into pieces does not matter.
-/

namespace Superiority

/-- What a read is answered with, before the end: a piece, which is not empty, or an interruption. -/
inductive Arrival (α : Type) where
  | piece (first : α) (more : List α)
  | interrupted
  deriving DecidableEq, Repr

variable {α : Type}

/-- All that arrives. -/
def arrived : List (Arrival α) → List α
  | [] => []
  | .piece first more :: arrivals => first :: more ++ arrived arrivals
  | .interrupted :: arrivals => arrived arrivals

/-- What is left of a piece is read next. -/
def leave : List α → List (Arrival α) → List (Arrival α)
  | [], arrivals => arrivals
  | first :: more, arrivals => .piece first more :: arrivals

/-- `read` into one element, again after an interruption; `none` is the end. -/
def readOne : List (Arrival α) → Option (α × List (Arrival α))
  | [] => none
  | .interrupted :: arrivals => readOne arrivals
  | .piece first more :: arrivals => some (first, leave more arrivals)

/-- `read_exact`; `none` is an end that is too early. -/
def readExact : Nat → List (Arrival α) → Option (List α × List (Arrival α))
  | 0, arrivals => some ([], arrivals)
  | _ + 1, [] => none
  | count + 1, .interrupted :: arrivals => readExact (count + 1) arrivals
  | count + 1, .piece first more :: arrivals =>
    if more.length ≤ count then
      (readExact (count - more.length) arrivals).map fun read => (first :: more ++ read.1, read.2)
    else some (first :: more.take count, leave (more.drop count) arrivals)

@[simp] theorem arrived_nil : arrived ([] : List (Arrival α)) = [] := rfl

@[simp] theorem arrived_leave (more : List α) (arrivals : List (Arrival α)) :
    arrived (leave more arrivals) = more ++ arrived arrivals := by
  cases more <;> rfl

theorem readOne_nil {arrivals : List (Arrival α)} (h : arrived arrivals = []) :
    readOne arrivals = none := by
  induction arrivals with
  | nil => rfl
  | cons arrival arrivals ih =>
    cases arrival with
    | piece first more => cases h
    | interrupted => exact ih h

theorem readOne_cons {arrivals : List (Arrival α)} {a : α} {as : List α}
    (h : arrived arrivals = a :: as) :
    ∃ arrivals', readOne arrivals = some (a, arrivals') ∧ arrived arrivals' = as := by
  induction arrivals with
  | nil => cases h
  | cons arrival arrivals ih =>
    cases arrival with
    | piece first more =>
      obtain ⟨rfl, rfl⟩ := List.cons.inj h
      exact ⟨_, rfl, arrived_leave more arrivals⟩
    | interrupted => exact ih h

/-- What is there is read, however it was cut. -/
theorem readExact_append {arrivals : List (Arrival α)} {as rest : List α}
    (h : arrived arrivals = as ++ rest) :
    ∃ arrivals', readExact as.length arrivals = some (as, arrivals') ∧ arrived arrivals' = rest := by
  induction arrivals generalizing as with
  | nil =>
    obtain ⟨rfl, rfl⟩ := List.append_eq_nil_iff.1 h.symm
    exact ⟨[], rfl, rfl⟩
  | cons arrival arrivals ih =>
    cases as with
    | nil => exact ⟨_, rfl, h⟩
    | cons a as =>
      cases arrival with
      | interrupted => exact ih h
      | piece first more =>
        obtain ⟨rfl, hsame⟩ := List.cons.inj h
        have hmore : more ++ arrived arrivals = as ++ rest := hsame
        rw [List.length_cons, readExact]
        by_cases hfits : more.length ≤ as.length
        · -- the piece is used up
          rw [if_pos hfits]
          obtain ⟨behind, rfl, harrived⟩ : ∃ behind, as = more ++ behind ∧
              arrived arrivals = behind ++ rest := by
            rcases List.append_eq_append_iff.1 hmore with ⟨behind, has, hrest⟩ | ⟨extra, hextra, _⟩
            · exact ⟨behind, has, hrest⟩
            · have hnil : extra = [] := by
                have hlength := congrArg List.length hextra
                rw [List.length_append] at hlength
                exact List.eq_nil_of_length_eq_zero (by omega)
              subst hnil
              rw [List.append_nil] at hextra
              subst hextra
              exact ⟨[], by simp, by simpa using hmore⟩
          obtain ⟨arrivals', hread, hleft⟩ := ih harrived
          rw [List.length_append, Nat.add_sub_cancel_left, hread]
          exact ⟨arrivals', rfl, hleft⟩
        · -- some of the piece is left
          rw [if_neg hfits]
          have hprefix : as <+: more :=
            List.prefix_of_prefix_length_le ⟨rest, hmore.symm⟩ (List.prefix_append more _) (by omega)
          obtain ⟨extra, rfl⟩ := hprefix
          refine ⟨leave extra arrivals, ?_, ?_⟩
          · rw [List.take_left, List.drop_left]
          · rw [arrived_leave]
            rw [List.append_assoc] at hmore
            exact List.append_cancel_left hmore

theorem readExact_short {arrivals : List (Arrival α)} {count : Nat}
    (h : (arrived arrivals).length < count) : readExact count arrivals = none := by
  induction arrivals generalizing count with
  | nil =>
    cases count with
    | zero => cases h
    | succ count => rfl
  | cons arrival arrivals ih =>
    cases count with
    | zero => cases h
    | succ count =>
      cases arrival with
      | interrupted => exact ih h
      | piece first more =>
        rw [arrived, List.length_append, List.length_cons] at h
        rw [readExact, if_pos (by omega), ih (by omega)]
        rfl

end Superiority
