import Mathlib.Data.List.Basic
import Mathlib.Algebra.BigOperators.Group.List.Basic
import Mathlib.Algebra.Order.Ring.Nat

/-!
# Places in a list, by the weight of what stands before them

The elements of a list have weights, as the characters of a text have bytes. A number is a place of
the list if it is the weight of a front of it (`splitWeight`); other numbers are inside an element or
beyond the end. `upTo` is the shortest front that weighs a given number at least, so the weight of
`upTo` by a second measure converts places of the one measure to places of the other.

* **`splitWeight_eq_some`** – splitting at a place: the two parts, if there are such.
* **`upTo_weight`** – the front of a place is found from its weight, so **`convert_convert`**: a
  conversion there and back again is the identity on places.
-/

namespace Superiority

variable {α : Type*}

/-- What some elements weigh. -/
def weight (w : α → Nat) (l : List α) : Nat := (l.map w).sum

@[simp] theorem weight_nil (w : α → Nat) : weight w [] = 0 := rfl

@[simp] theorem weight_cons (w : α → Nat) (a : α) (l : List α) :
    weight w (a :: l) = w a + weight w l := rfl

@[simp] theorem weight_append (w : α → Nat) (l m : List α) :
    weight w (l ++ m) = weight w l + weight w m := by
  simp [weight]

theorem weight_map {β : Type*} (w : β → Nat) (f : α → β) (l : List α) :
    weight w (l.map f) = weight (w ∘ f) l := by
  simp [weight]

/-- The part of a list before a place and the part behind it. -/
def splitWeight (w : α → Nat) : List α → Nat → Option (List α × List α)
  | l, 0 => some ([], l)
  | [], _ + 1 => none
  | a :: l, n + 1 =>
    if w a ≤ n + 1 then (splitWeight w l (n + 1 - w a)).map fun parts => (a :: parts.1, parts.2)
    else none

/-- The shortest front of a list that weighs this at least; the whole list if there is none. -/
def upTo (w : α → Nat) : Nat → List α → List α
  | 0, _ => []
  | _ + 1, [] => []
  | n + 1, a :: l => a :: upTo w (n + 1 - w a) l

/-- There is a place with this weight. -/
def IsPlace (w : α → Nat) (l : List α) (n : Nat) : Prop := (splitWeight w l n).isSome = true

instance (w : α → Nat) (l : List α) (n : Nat) : Decidable (IsPlace w l n) :=
  inferInstanceAs (Decidable (_ = _))

theorem eq_of_splitWeight {w : α → Nat} {l : List α} {n : Nat} {a b : List α}
    (h : splitWeight w l n = some (a, b)) : l = a ++ b ∧ weight w a = n := by
  induction l, n using splitWeight.induct w generalizing a b with
  | case1 l =>
    rw [splitWeight] at h
    cases h
    exact ⟨rfl, rfl⟩
  | case2 n => cases h
  | case3 x l n hle ih =>
    rw [splitWeight, if_pos hle, Option.map_eq_some_iff] at h
    obtain ⟨⟨a', b'⟩, hsplit, hparts⟩ := h
    cases hparts
    obtain ⟨rfl, hweight⟩ := ih hsplit
    refine ⟨rfl, ?_⟩
    rw [weight_cons, hweight]
    omega
  | case4 x l n hlt =>
    rw [splitWeight, if_neg hlt] at h
    cases h

section

variable {w v : α → Nat} (hw : ∀ a, 0 < w a) (hv : ∀ a, 0 < v a)

include hw

theorem splitWeight_weight (a b : List α) : splitWeight w (a ++ b) (weight w a) = some (a, b) := by
  induction a with
  | nil =>
    cases b <;> rfl
  | cons x a ih =>
    have hx := hw x
    obtain ⟨n, hn⟩ : ∃ n, weight w (x :: a) = n + 1 := ⟨weight w (x :: a) - 1, by simp; omega⟩
    have hle : w x ≤ n + 1 := by
      rw [← hn, weight_cons]
      omega
    have hrest : n + 1 - w x = weight w a := by
      rw [← hn, weight_cons]
      omega
    rw [hn, List.cons_append, splitWeight, if_pos hle, hrest, ih]
    rfl

/-- **Splitting at a place.** -/
theorem splitWeight_eq_some {l : List α} {n : Nat} {a b : List α} :
    splitWeight w l n = some (a, b) ↔ l = a ++ b ∧ weight w a = n := by
  constructor
  · exact eq_of_splitWeight
  · intro ⟨hl, hn⟩
    rw [hl, ← hn]
    exact splitWeight_weight hw a b

theorem isPlace_iff {l : List α} {n : Nat} :
    IsPlace w l n ↔ ∃ a b, l = a ++ b ∧ weight w a = n := by
  constructor
  · intro h
    obtain ⟨⟨a, b⟩, hsplit⟩ := Option.isSome_iff_exists.1 h
    exact ⟨a, b, eq_of_splitWeight hsplit⟩
  · intro ⟨a, b, hl, hn⟩
    rw [IsPlace, (splitWeight_eq_some hw).2 ⟨hl, hn⟩]
    rfl

theorem isPlace_weight (a b : List α) : IsPlace w (a ++ b) (weight w a) :=
  (isPlace_iff hw).2 ⟨a, b, rfl, rfl⟩

theorem isPlace_zero (l : List α) : IsPlace w l 0 := isPlace_weight hw [] l

theorem isPlace_all (l : List α) : IsPlace w l (weight w l) :=
  (isPlace_iff hw).2 ⟨l, [], (List.append_nil l).symm, rfl⟩

theorem IsPlace.le {l : List α} {n : Nat} (h : IsPlace w l n) : n ≤ weight w l := by
  obtain ⟨a, b, rfl, rfl⟩ := (isPlace_iff hw).1 h
  rw [weight_append]
  exact Nat.le_add_right _ _

/-- The places behind a front are those of the rest. -/
theorem isPlace_append_right {a b : List α} {n : Nat} :
    IsPlace w (a ++ b) (weight w a + n) ↔ IsPlace w b n := by
  rw [isPlace_iff hw, isPlace_iff hw]
  constructor
  · intro ⟨c, d, heq, hweight⟩
    rcases List.append_eq_append_iff.1 heq with ⟨e, rfl, rfl⟩ | ⟨e, rfl, rfl⟩
    · rw [weight_append] at hweight
      exact ⟨e, d, rfl, by omega⟩
    · have he : e = [] := by
        cases e with
        | nil => rfl
        | cons x e =>
          have hx := hw x
          rw [weight_append, weight_cons] at hweight
          omega
      subst he
      rw [List.append_nil] at hweight
      exact ⟨[], b, rfl, by rw [weight_nil]; omega⟩
  · intro ⟨c, d, hb, hn⟩
    refine ⟨a ++ c, d, ?_, ?_⟩
    · rw [hb, List.append_assoc]
    · rw [weight_append, hn]

/-- Of two fronts of a list, the one that weighs less is a front of the other. -/
theorem front_of_weight_le {a b l : List α} (ha : a <+: l) (hb : b <+: l)
    (hle : weight w a ≤ weight w b) : a <+: b := by
  rcases List.prefix_or_prefix_of_prefix ha hb with h | ⟨e, rfl⟩
  · exact h
  · cases e with
    | nil =>
      exact ⟨[], by rw [List.append_nil, List.append_nil]⟩
    | cons x e =>
      have hx := hw x
      rw [weight_append, weight_cons] at hle
      omega

omit hw

theorem upTo_front (w : α → Nat) (n : Nat) (l : List α) : upTo w n l <+: l := by
  induction n, l using upTo.induct w with
  | case1 l => exact ⟨l, by rw [upTo]; rfl⟩
  | case2 n => exact List.prefix_refl []
  | case3 n a l ih =>
    rw [upTo]
    exact (List.prefix_cons_inj a).2 ih

include hw

theorem upTo_append (a b : List α) (n : Nat) :
    upTo w (weight w a + n) (a ++ b) = a ++ upTo w n b := by
  induction a with
  | nil => rw [weight_nil, Nat.zero_add, List.nil_append, List.nil_append]
  | cons x a ih =>
    have hx := hw x
    obtain ⟨m, hm⟩ : ∃ m, weight w (x :: a) + n = m + 1 :=
      ⟨weight w (x :: a) + n - 1, by rw [weight_cons]; omega⟩
    have hrest : m + 1 - w x = weight w a + n := by
      rw [← hm, weight_cons]
      omega
    rw [hm, List.cons_append, upTo, hrest, ih, List.cons_append]

/-- **The front of a place** is found from its weight. -/
theorem upTo_weight (a b : List α) : upTo w (weight w a) (a ++ b) = a := by
  have h := upTo_append hw a b 0
  rw [Nat.add_zero] at h
  rw [h, upTo, List.append_nil]

/-- What is found weighs enough, if the list does. -/
theorem le_weight_upTo {n : Nat} {l : List α} (h : n ≤ weight w l) : n ≤ weight w (upTo w n l) := by
  induction n, l using upTo.induct w with
  | case1 l => exact Nat.zero_le _
  | case2 n => exact h
  | case3 n a l ih =>
    rw [weight_cons] at h
    have hrest := ih (by omega)
    rw [upTo, weight_cons]
    omega

omit hw

/-- A longer front is asked for, a longer one is found. -/
theorem upTo_mono {m n : Nat} (hle : m ≤ n) (l : List α) : upTo w m l <+: upTo w n l := by
  induction l generalizing m n with
  | nil =>
    cases m <;> cases n <;> exact List.prefix_refl []
  | cons a l ih =>
    cases m with
    | zero =>
      rw [upTo]
      exact List.nil_prefix
    | succ m =>
      obtain ⟨n, rfl⟩ := Nat.exists_eq_succ_of_ne_zero (show n ≠ 0 by omega)
      rw [upTo, upTo]
      exact (List.prefix_cons_inj a).2 (ih (by omega))

theorem weight_le_of_front {a b : List α} (h : a <+: b) : weight w a ≤ weight w b := by
  obtain ⟨c, rfl⟩ := h
  rw [weight_append]
  exact Nat.le_add_right _ _

include hw in
theorem isPlace_of_front {a l : List α} (h : a <+: l) : IsPlace w l (weight w a) := by
  obtain ⟨b, rfl⟩ := h
  exact isPlace_weight hw a b

/-! ## From one measure to the other -/

/-- The place in the measure `v` for a place in the measure `w`. -/
def convert (w v : α → Nat) (l : List α) (n : Nat) : Nat := weight v (upTo w n l)

include hv in
theorem isPlace_convert (l : List α) (n : Nat) : IsPlace v l (convert w v l n) :=
  isPlace_of_front hv (upTo_front w n l)

theorem convert_mono {m n : Nat} (hle : m ≤ n) (l : List α) : convert w v l m ≤ convert w v l n :=
  weight_le_of_front (upTo_mono hle l)

include hw in
theorem convert_weight (a b : List α) : convert w v (a ++ b) (weight w a) = weight v a := by
  rw [convert, upTo_weight hw]

include hw in
theorem convert_append (a b : List α) (n : Nat) :
    convert w v (a ++ b) (weight w a + n) = weight v a + convert w v b n := by
  rw [convert, upTo_append hw, weight_append, convert]

include hw hv in
/-- **There and back again.** -/
theorem convert_convert {l : List α} {n : Nat} (h : IsPlace w l n) :
    convert v w l (convert w v l n) = n := by
  obtain ⟨a, b, rfl, rfl⟩ := (isPlace_iff hw).1 h
  rw [convert_weight hw, convert_weight hv]

end

end Superiority
