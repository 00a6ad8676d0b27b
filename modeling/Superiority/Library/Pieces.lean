import Mathlib.Data.List.Basic
import Mathlib.Tactic

/-!
# Pieces of a list, and what they cover

`piece S i j` are the elements of `S` from position `i` on and before position `j`; pieces that
meet are joined by `piece_append`.

A list of intervals covers positions. `IsLargest pieces first a b` says that `[a, b)` is the largest
interval that contains the interval `first` and is covered: it is found by its two ends not being
covered (`isLargest_of_gaps`), and is the only one (`IsLargest.unique`).
-/

namespace Superiority

/-! ## Pieces -/

section Pieces

variable {α : Type*} {S : List α} {i j k : Nat}

def piece (S : List α) (i j : Nat) : List α := (S.take j).drop i

theorem length_piece (hj : j ≤ S.length) : (piece S i j).length = j - i := by
  simp [piece, Nat.min_eq_left hj]

@[simp] theorem drop_piece (n : Nat) : (piece S i j).drop n = piece S (i + n) j := by
  simp [piece]

@[simp] theorem take_piece (n : Nat) : (piece S i j).take n = piece S i (min (i + n) j) := by
  simp [piece, List.take_drop, List.take_take]

theorem piece_append (hik : i ≤ k) (hkj : k ≤ j) :
    piece S i k ++ piece S k j = piece S i j := by
  have htake : (piece S i j).take (k - i) = piece S i k := by
    rw [take_piece, show min (i + (k - i)) j = k by omega]
  have hdrop : (piece S i j).drop (k - i) = piece S k j := by
    rw [drop_piece, show i + (k - i) = k by omega]
  rw [← htake, ← hdrop, List.take_append_drop]

theorem piece_eq_nil (h : j ≤ i) : piece S i j = [] := by
  rw [piece, List.drop_eq_nil_iff, List.length_take]
  omega

theorem piece_ne_nil (hij : i < j) (hj : j ≤ S.length) : piece S i j ≠ [] := by
  rw [← List.length_pos_iff, length_piece hj]
  omega

/-- A piece ends where its length says. -/
theorem piece_end_inj {j' : Nat} (hij : i ≤ j) (hij' : i ≤ j') (hj : j ≤ S.length)
    (hj' : j' ≤ S.length) (h : piece S i j = piece S i j') : j = j' := by
  have hlength := congrArg List.length h
  rw [length_piece hj, length_piece hj'] at hlength
  omega

end Pieces

/-! ## Intervals that are covered -/

/-- The position is in one of the intervals. -/
def Covers (pieces : List (Nat × Nat)) (x : Nat) : Prop := ∃ p ∈ pieces, p.1 ≤ x ∧ x < p.2

theorem covers_append {pieces pieces' : List (Nat × Nat)} {x : Nat} :
    Covers (pieces ++ pieces') x ↔ Covers pieces x ∨ Covers pieces' x := by
  simp [Covers, or_and_right, exists_or]

theorem covers_singleton {p : Nat × Nat} {x : Nat} : Covers [p] x ↔ p.1 ≤ x ∧ x < p.2 := by
  simp [Covers]

/-- The interval contains the first one and is covered. -/
structure IsCovered (pieces : List (Nat × Nat)) (first : Nat × Nat) (a b : Nat) : Prop where
  lower : a ≤ first.1
  upper : first.2 ≤ b
  covers : ∀ x, a ≤ x → x < b → Covers pieces x

structure IsLargest (pieces : List (Nat × Nat)) (first : Nat × Nat) (a b : Nat) : Prop
    extends IsCovered pieces first a b where
  greatest : ∀ a' b', IsCovered pieces first a' b' → a ≤ a' ∧ b' ≤ b

variable {pieces : List (Nat × Nat)} {first : Nat × Nat} {a b : Nat}

theorem IsLargest.unique {a' b' : Nat} (h : IsLargest pieces first a b)
    (h' : IsLargest pieces first a' b') : a = a' ∧ b = b' := by
  have hle := h.greatest a' b' h'.toIsCovered
  have hge := h'.greatest a b h.toIsCovered
  omega

/-- An interval whose neighbours are not covered. -/
theorem isLargest_of_gaps (hfirst : first.1 < first.2) (h : IsCovered pieces first a b)
    (hbelow : ∀ x, x + 1 = a → ¬ Covers pieces x) (habove : ¬ Covers pieces b) :
    IsLargest pieces first a b := by
  refine ⟨h, fun a' b' h' => ⟨?_, ?_⟩⟩
  · by_contra hless
    refine hbelow (a - 1) (by omega) (h'.covers (a - 1) (by omega) ?_)
    have hlower := h.lower
    have hupper := h'.upper
    omega
  · by_contra hless
    refine habove (h'.covers b ?_ (by omega))
    have hlower := h'.lower
    have hupper := h.upper
    omega

/-- The largest interval depends on which intervals there are, not on their order. -/
theorem IsLargest.congr {pieces' : List (Nat × Nat)} (h : IsLargest pieces first a b)
    (hsame : ∀ p, p ∈ pieces ↔ p ∈ pieces') : IsLargest pieces' first a b := by
  have hcovers (x : Nat) : Covers pieces x ↔ Covers pieces' x := by
    simp only [Covers, hsame]
  refine ⟨⟨h.lower, h.upper, fun x hax hxb => (hcovers x).1 (h.covers x hax hxb)⟩, ?_⟩
  intro a' b' h'
  exact h.greatest a' b' ⟨h'.lower, h'.upper, fun x hax hxb => (hcovers x).2 (h'.covers x hax hxb)⟩

end Superiority
