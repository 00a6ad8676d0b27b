import Mathlib.Tactic

/-!
# Varints

Numbers in groups of seven bits, lowest first; every byte but the last has its high bit set. A
number has many varints, which differ in how many groups of zeros they end in, and one shortest.

* **`isVarint_varint`**, **`groupValue_varint`** – `varint n` is a varint of `n`.
* **`eq_varint_of_shortest`** – and the only shortest one.
* **`IsVarint.eq_of_append`** – where a varint ends does not depend on what follows it.
-/

namespace Superiority

def varint (n : Nat) : List UInt8 :=
  if n < 128 then [UInt8.ofNat n] else UInt8.ofNat (n % 128 + 128) :: varint (n / 128)

/-- The number whose groups of seven bits the bytes hold. -/
def groupValue : List UInt8 → Nat
  | [] => 0
  | b :: bs => b.toNat % 128 + 128 * groupValue bs

/-- The last byte, and no other, has its high bit clear. -/
def IsVarint : List UInt8 → Prop
  | [] => False
  | b :: bs => if b.toNat < 128 then bs = [] else IsVarint bs

/-- No varint of the same number has fewer bytes. -/
def IsShortest (bytes : List UInt8) : Prop :=
  ∀ other, IsVarint other → groupValue other = groupValue bytes → bytes.length ≤ other.length

theorem varint_of_lt {n : Nat} (h : n < 128) : varint n = [UInt8.ofNat n] := by
  rw [varint, if_pos h]

theorem varint_of_le {n : Nat} (h : 128 ≤ n) :
    varint n = UInt8.ofNat (n % 128 + 128) :: varint (n / 128) := by
  rw [varint, if_neg (by omega)]

theorem toNat_last {n : Nat} (h : n < 128) : (UInt8.ofNat n).toNat = n := by
  rw [UInt8.toNat_ofNat']
  omega

theorem toNat_continued (n : Nat) : (UInt8.ofNat (n % 128 + 128)).toNat = n % 128 + 128 := by
  rw [UInt8.toNat_ofNat']
  omega

theorem isVarint_varint (n : Nat) : IsVarint (varint n) := by
  fun_induction varint n with
  | case1 n h => rw [IsVarint, toNat_last h, if_pos h]
  | case2 n h ih =>
    rw [IsVarint, toNat_continued, if_neg (by omega)]
    exact ih

theorem groupValue_varint (n : Nat) : groupValue (varint n) = n := by
  fun_induction varint n with
  | case1 n h =>
    rw [groupValue, groupValue, toNat_last h]
    omega
  | case2 n h ih =>
    rw [groupValue, toNat_continued, ih]
    omega

theorem length_varint_le {n k : Nat} (h : n < 128 ^ (k + 1)) : (varint n).length ≤ k + 1 := by
  induction k generalizing n with
  | zero =>
    rw [varint_of_lt (by omega)]
    exact le_refl 1
  | succ k ih =>
    by_cases hsmall : n < 128
    · rw [varint_of_lt hsmall, List.length_singleton]
      omega
    · have hrest : n / 128 < 128 ^ (k + 1) := by
        rw [Nat.pow_succ] at h
        exact Nat.div_lt_of_lt_mul (by rwa [Nat.mul_comm])
      rw [varint_of_le (by omega), List.length_cons]
      have := ih hrest
      omega

theorem varint_ne_nil (n : Nat) : varint n ≠ [] := by
  intro h
  have hvarint := isVarint_varint n
  rw [h] at hvarint
  exact hvarint

theorem IsVarint.ne_nil {bytes : List UInt8} (h : IsVarint bytes) : bytes ≠ [] := by
  rintro rfl
  exact h

/-- A varint ends at its first byte with the high bit clear. -/
theorem IsVarint.eq_of_append {bytes other rest rest' : List UInt8} (h : IsVarint bytes)
    (hother : IsVarint other) (heq : bytes ++ rest = other ++ rest') :
    bytes = other ∧ rest = rest' := by
  induction bytes generalizing other with
  | nil => exact absurd rfl h.ne_nil
  | cons b bs ih =>
    obtain ⟨b', bs', rfl⟩ := List.exists_cons_of_ne_nil hother.ne_nil
    rw [List.cons_append, List.cons_append, List.cons.injEq] at heq
    obtain ⟨rfl, heq⟩ := heq
    rw [IsVarint] at h hother
    split_ifs at h hother with hlast
    · subst h hother
      exact ⟨rfl, heq⟩
    · obtain ⟨rfl, hrest⟩ := ih h hother heq
      exact ⟨rfl, hrest⟩

/-- A varint has at least as many bytes as `varint` gives its number, and with as many it is
that one. -/
theorem IsVarint.varint_groupValue {bytes : List UInt8} (h : IsVarint bytes) :
    (varint (groupValue bytes)).length ≤ bytes.length ∧
      ((varint (groupValue bytes)).length = bytes.length → varint (groupValue bytes) = bytes) := by
  induction bytes with
  | nil => exact absurd rfl h.ne_nil
  | cons b bs ih =>
    have hb := b.toNat_lt
    rw [IsVarint] at h
    split_ifs at h with hlast
    · subst h
      have hvalue : groupValue [b] = b.toNat := by
        rw [groupValue, groupValue]
        omega
      rw [hvalue, varint_of_lt hlast, UInt8.ofNat_toNat]
      exact ⟨le_refl _, fun _ => rfl⟩
    · obtain ⟨hlength, heq⟩ := ih h
      have hpos : 0 < bs.length := List.length_pos_iff.2 h.ne_nil
      rw [groupValue, List.length_cons]
      by_cases hzero : groupValue bs = 0
      · rw [hzero, varint_of_lt (by omega), List.length_singleton]
        exact ⟨by omega, fun h => absurd h (by omega)⟩
      · have hdiv : (b.toNat % 128 + 128 * groupValue bs) / 128 = groupValue bs := by omega
        have hbyte : UInt8.ofNat ((b.toNat % 128 + 128 * groupValue bs) % 128 + 128) = b := by
          rw [← UInt8.toNat_inj, toNat_continued]
          omega
        rw [varint_of_le (by omega), hdiv, hbyte, List.length_cons]
        exact ⟨by omega, fun h => by rw [heq (by omega)]⟩

/-- **The shortest varint** of a number is the one that `varint` gives. -/
theorem eq_varint_of_shortest {bytes : List UInt8} (h : IsVarint bytes)
    (hshortest : IsShortest bytes) : bytes = varint (groupValue bytes) := by
  have hle := hshortest _ (isVarint_varint _) (groupValue_varint _)
  obtain ⟨hge, heq⟩ := h.varint_groupValue
  exact (heq (le_antisymm hge hle)).symm

end Superiority
