import Mathlib.Data.List.Basic
import Mathlib.Tactic

/-!
# Stateful XOR ciphers

A cipher that XORs data with a keystream and remembers how much of it is spent. Applying it twice
from the same position is the identity (**`xorFrom_xorFrom`**), and data may be cut anywhere
(**`xorFrom_append`**), so what one end protects in some pieces the other recovers in others.
-/

namespace Superiority

/-- The data XORed with the keystream from the given position on. -/
def xorFrom (keystream : Nat → UInt8) : Nat → List UInt8 → List UInt8
  | _, [] => []
  | position, b :: bs => (b ^^^ keystream position) :: xorFrom keystream (position + 1) bs

variable (keystream : Nat → UInt8)

@[simp] theorem xorFrom_nil (position : Nat) : xorFrom keystream position [] = [] := rfl

@[simp] theorem length_xorFrom (position : Nat) (data : List UInt8) :
    (xorFrom keystream position data).length = data.length := by
  induction data generalizing position with
  | nil => rfl
  | cons b bs ih => simp [xorFrom, ih]

/-- Data may be cut anywhere. -/
theorem xorFrom_append (position : Nat) (a b : List UInt8) :
    xorFrom keystream position (a ++ b) =
      xorFrom keystream position a ++ xorFrom keystream (position + a.length) b := by
  induction a generalizing position with
  | nil => rfl
  | cons x a ih =>
    simp only [List.cons_append, xorFrom, ih, List.length_cons]
    rw [Nat.add_assoc, Nat.add_comm 1]

/-- **The cipher is its own inverse.** -/
theorem xorFrom_xorFrom (position : Nat) (data : List UInt8) :
    xorFrom keystream position (xorFrom keystream position data) = data := by
  induction data generalizing position with
  | nil => rfl
  | cons b bs ih => simp [xorFrom, ih, UInt8.xor_assoc]

/-- Data whose first part is already recovered: the rest recovers from the position reached. -/
theorem eq_append_of_xorFrom {position : Nat} {data done rest : List UInt8}
    (h : xorFrom keystream position data = xorFrom keystream position done ++ rest) :
    data = done ++ xorFrom keystream (position + done.length) rest := by
  have hdata := congrArg (xorFrom keystream position) h
  rwa [xorFrom_xorFrom, xorFrom_append, xorFrom_xorFrom, length_xorFrom] at hdata

/-- What comes out in two parts went in in two. -/
theorem exists_append_of_xorFrom {position : Nat} {data a b : List UInt8}
    (h : xorFrom keystream position data = a ++ b) :
    ∃ p q, data = p ++ q ∧ xorFrom keystream position p = a ∧
      xorFrom keystream (position + p.length) q = b := by
  rw [← xorFrom_xorFrom keystream position a] at h
  refine ⟨_, _, eq_append_of_xorFrom keystream h, xorFrom_xorFrom .., ?_⟩
  rw [xorFrom_xorFrom]

end Superiority
