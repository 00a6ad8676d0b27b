import Mathlib.Data.List.Basic
import Mathlib.Logic.Function.Iterate

/-!
# Walking through a history

A timeline is a value with those before it and those after it, the nearest first. Going back takes
the nearest of the past and leaves the value to the future; going forth is the other way.

* **`moments_back`**, **`moments_forth`** – all that is in a timeline stays in its order.
* **`now_forth_back`** – after steps back and no more steps forth, the value is the one that stood
  there.
-/

namespace Superiority

structure Timeline (α : Type*) where
  past : List α
  now : α
  future : List α

namespace Timeline

variable {α : Type*} (t : Timeline α)

def back : Timeline α :=
  match t.past with
  | [] => t
  | x :: past => ⟨past, x, t.now :: t.future⟩

def forth : Timeline α :=
  match t.future with
  | [] => t
  | x :: future => ⟨t.now :: t.past, x, future⟩

/-- All values in the order of time. -/
def moments : List α := (t.now :: t.past).reverse ++ t.future

@[simp] theorem moments_back : t.back.moments = t.moments := by
  obtain ⟨past, now, future⟩ := t
  cases past with
  | nil => rfl
  | cons x past => simp [back, moments]

@[simp] theorem moments_forth : t.forth.moments = t.moments := by
  obtain ⟨past, now, future⟩ := t
  cases future with
  | nil => rfl
  | cons x future => simp [forth, moments]

@[simp] theorem length_past_back : t.back.past.length = t.past.length - 1 := by
  obtain ⟨past, now, future⟩ := t
  cases past <;> simp [back]

theorem length_past_forth (h : t.future ≠ []) : t.forth.past.length = t.past.length + 1 := by
  obtain ⟨past, now, future⟩ := t
  cases future with
  | nil => exact absurd rfl h
  | cons x future => rfl

/-- The value stands behind its past. -/
theorem getElem?_moments : t.moments[t.past.length]? = some t.now := by
  simp [moments, List.getElem?_append]

/-- What stood some steps back. -/
theorem getElem?_moments_sub {j : Nat} (hj : j ≤ t.past.length) :
    t.moments[t.past.length - j]? = (t.now :: t.past)[j]? := by
  have hlength : (t.now :: t.past).length = t.past.length + 1 := rfl
  rw [moments, List.getElem?_append_left (by rw [List.length_reverse, hlength]; omega),
    List.getElem?_reverse (by rw [hlength]; omega), hlength]
  congr 1
  omega

theorem length_moments : t.moments.length = t.past.length + 1 + t.future.length := by
  simp [moments]
  omega

theorem iterate_back (k : Nat) :
    (back^[k] t).moments = t.moments ∧ (back^[k] t).past.length = t.past.length - k := by
  induction k with
  | zero => exact ⟨rfl, rfl⟩
  | succ k ih =>
    rw [Function.iterate_succ_apply', moments_back, length_past_back, ih.1, ih.2]
    exact ⟨rfl, by omega⟩

theorem iterate_forth {m : Nat} (hm : m ≤ t.future.length) :
    (forth^[m] t).moments = t.moments ∧ (forth^[m] t).past.length = t.past.length + m := by
  induction m with
  | zero => exact ⟨rfl, rfl⟩
  | succ m ih =>
    obtain ⟨hmoments, hpast⟩ := ih (by omega)
    have hfuture : (forth^[m] t).future ≠ [] := by
      have hlength := congrArg List.length hmoments
      rw [length_moments, length_moments, hpast] at hlength
      apply List.ne_nil_of_length_pos
      omega
    rw [Function.iterate_succ_apply', moments_forth, length_past_forth _ hfuture, hmoments, hpast]
    exact ⟨rfl, by omega⟩

/-- **Steps back, and no more steps forth.** -/
theorem now_forth_back {k m : Nat} (hk : k ≤ t.past.length) (hm : m ≤ k) :
    (t.now :: t.past)[k - m]? = some (forth^[m] (back^[k] t)).now := by
  obtain ⟨hback, hpast⟩ := t.iterate_back k
  have hfuture : m ≤ (back^[k] t).future.length := by
    have hlength := congrArg List.length hback
    rw [length_moments, length_moments, hpast] at hlength
    omega
  obtain ⟨hforth, hpast'⟩ := (back^[k] t).iterate_forth hfuture
  rw [← t.getElem?_moments_sub (by omega), ← getElem?_moments, hforth, hback, hpast', hpast]
  congr 1
  omega

end Timeline

end Superiority
