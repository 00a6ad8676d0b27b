import Mathlib.Data.List.Basic
import Mathlib.Tactic
import Superiority.Library.Fallible

/-!
# Computations that may panic

A computation in Rust ends with a value, returns an error, or panics: an index or a slice outside
the data, a subtraction below zero, a vector of more than `isize::MAX` bytes. Each operation that can panic has its check here, so what is
proved **`Safe`** never fails one. A value or an error of a part is passed on by `safe_bind`.
-/

namespace Superiority

/-- Why a computation ends without a value. -/
inductive Stop (ε : Type) where
  | error (error : ε)
  | panic
  deriving DecidableEq, Repr

abbrev Checked (ε α : Type) : Type := Except (Stop ε) α

namespace Checked

variable {ε α β : Type}

/-- `Err(error)`. -/
def fail (error : ε) : Checked ε α := .error (.error error)

/-- A value or an error, without a panic. -/
def ofExcept : Except ε α → Checked ε α
  | .ok a => .ok a
  | .error error => fail error

/-- `value[start..stop]`. -/
def slice (value : List α) (start stop : Nat) : Checked ε (List α) :=
  if start ≤ stop ∧ stop ≤ value.length then .ok ((value.drop start).take (stop - start))
  else .error .panic

/-- `value[index]`. -/
def index (value : List α) (index : Nat) : Checked ε α :=
  match value[index]? with
  | some a => .ok a
  | none => .error .panic

/-- `value.remove(index)`: the element, and what is left. -/
def remove (value : List α) (index : Nat) : Checked ε (α × List α) :=
  match value[index]? with
  | some a => .ok (a, value.eraseIdx index)
  | none => .error .panic

/-- `value.insert(index, a)`. -/
def insert (value : List α) (index : Nat) (a : α) : Checked ε (List α) :=
  if index ≤ value.length then .ok (value.insertIdx index a) else .error .panic

/-- `a - b` of unsigned numbers. -/
def subtract (a b : Nat) : Checked ε Nat := if b ≤ a then .ok (a - b) else .error .panic

/-- `Vec::with_capacity(count)`, for elements of `size` bytes. -/
def reserve (count size : Nat) : Checked ε Unit :=
  if count * size < 2 ^ 63 then .ok () else .error .panic

def Safe (x : Checked ε α) : Prop := x ≠ .error .panic

@[simp] theorem safe_ok (a : α) : Safe (.ok a : Checked ε α) := nofun

@[simp] theorem safe_pure (a : α) : Safe (pure a : Checked ε α) := nofun

@[simp] theorem safe_fail (error : ε) : Safe (fail error : Checked ε α) := nofun

theorem safe_ofExcept (x : Except ε α) : Safe (ofExcept x) := by
  cases x <;> exact nofun

theorem slice_eq {value : List α} {start stop : Nat} (h : start ≤ stop ∧ stop ≤ value.length) :
    (slice value start stop : Checked ε (List α)) =
      .ok ((value.drop start).take (stop - start)) := if_pos h

@[simp] theorem index_ok {value : List α} {i : Nat} {a : α} :
    (index value i : Checked ε α) = .ok a ↔ value[i]? = some a := by
  rw [index]
  cases value[i]? <;> simp

@[simp] theorem index_append (front : List α) (a : α) (back : List α) :
    (index (front ++ a :: back) front.length : Checked ε α) = .ok a := by
  simp [index]

@[simp] theorem remove_append (front : List α) (a : α) (back : List α) :
    (remove (front ++ a :: back) front.length : Checked ε (α × List α))
      = .ok (a, front ++ back) := by
  simp [remove, List.eraseIdx_append_of_length_le]

@[simp] theorem insert_append (front : List α) (a : α) (back : List α) :
    (insert (front ++ back) front.length a : Checked ε (List α))
      = .ok (front ++ a :: back) := by
  rw [insert, if_pos (by simp)]
  induction front with
  | nil => rfl
  | cons b front ih => simpa using ih

@[simp] theorem ofExcept_ok {x : Except ε α} {a : α} :
    ofExcept x = .ok a ↔ x = .ok a := by
  cases x <;> simp [ofExcept, fail]

theorem subtract_eq {a b : Nat} (h : b ≤ a) : (subtract a b : Checked ε Nat) = .ok (a - b) :=
  if_pos h

theorem reserve_eq {count size : Nat} (h : count * size < 2 ^ 63) :
    (reserve count size : Checked ε Unit) = .ok () := if_pos h

/-- What follows a safe computation is run on its value. -/
theorem safe_bind {x : Checked ε α} {f : α → Checked ε β} (hx : Safe x)
    (hf : ∀ a, x = .ok a → Safe (f a)) : Safe (x >>= f) := by
  cases x with
  | error stop => exact fun h => hx (congrArg _ (Except.error.inj h))
  | ok a => exact hf a rfl

theorem safe_mapM {f : α → Checked ε β} {as : List α} (h : ∀ a ∈ as, Safe (f a)) :
    Safe (as.mapM f) := by
  induction as with
  | nil => exact safe_pure []
  | cons a as ih =>
    rw [List.mapM_cons]
    refine safe_bind (h a List.mem_cons_self) fun b _ => ?_
    exact safe_bind (ih fun a ha => h a (List.mem_cons_of_mem _ ha)) fun bs _ => safe_pure _

end Checked

end Superiority
