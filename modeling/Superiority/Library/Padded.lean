import Mathlib.Data.List.Basic
import Mathlib.Tactic

/-!
# Sequences compared as if padded, and the greatest of a list

`comparePadded` compares two sequences element by element. Where one has ended, a zero element of
the other counts as nothing, and any other element makes the longer sequence the greater one.

Its equality is transitive, but its order need not be: an element below the zeros is below a zero and
above nothing. `Mixes x y z` is such a case, and **`isPreorderOn_iff`** says that on a list of
sequences the comparison is a total preorder exactly when the list has no such case.

Where no element is below the zeros, as with numbers, the first difference decides, and a missing
element is a zero (`comparePadded_eq_lt_iff`).

`maxBy` is the greatest element of a list, the last one of several: **`isGE_maxBy`**, if the
comparison is a total preorder on the list.
-/

namespace Superiority

open Std

/-! ## The greatest of a list -/

section MaxBy

variable {α : Type*} (cmp : α → α → Ordering)

/-- `Iterator::max_by`. -/
def maxBy : List α → Option α
  | [] => none
  | a :: as => some (as.foldl (fun best b => if cmp best b = .gt then best else b) a)

/-- On these elements the comparison is a total preorder. -/
structure IsPreorderOn (elements : List α) : Prop where
  swap : ∀ a ∈ elements, ∀ b ∈ elements, cmp b a = (cmp a b).swap
  isGE_trans : ∀ a ∈ elements, ∀ b ∈ elements, ∀ c ∈ elements,
    (cmp a b).isGE → (cmp b c).isGE → (cmp a c).isGE
  eq_trans : ∀ a ∈ elements, ∀ b ∈ elements, ∀ c ∈ elements,
    cmp a b = .eq → cmp b c = .eq → cmp a c = .eq

variable {cmp}

theorem IsPreorderOn.mono {elements elements' : List α} (h : IsPreorderOn cmp elements)
    (hsub : ∀ a ∈ elements', a ∈ elements) : IsPreorderOn cmp elements' where
  swap := fun a ha b hb => h.swap a (hsub a ha) b (hsub b hb)
  isGE_trans := fun a ha b hb c hc => h.isGE_trans a (hsub a ha) b (hsub b hb) c (hsub c hc)
  eq_trans := fun a ha b hb c hc => h.eq_trans a (hsub a ha) b (hsub b hb) c (hsub c hc)

/-- Elements are compared by what they are mapped to. -/
theorem IsPreorderOn.comap {β : Type*} {f : β → α} {elements : List β}
    (h : IsPreorderOn cmp (elements.map f)) :
    IsPreorderOn (fun a b => cmp (f a) (f b)) elements where
  swap := fun _ ha _ hb => h.swap _ (List.mem_map_of_mem ha) _ (List.mem_map_of_mem hb)
  isGE_trans := fun _ ha _ hb _ hc => h.isGE_trans _ (List.mem_map_of_mem ha) _
    (List.mem_map_of_mem hb) _ (List.mem_map_of_mem hc)
  eq_trans := fun _ ha _ hb _ hc => h.eq_trans _ (List.mem_map_of_mem ha) _
    (List.mem_map_of_mem hb) _ (List.mem_map_of_mem hc)

theorem maxBy_isSome_iff {as : List α} : (maxBy cmp as).isSome ↔ as ≠ [] := by
  cases as <;> simp [maxBy]

theorem foldl_maxBy_mem (as : List α) (a : α) :
    as.foldl (fun best b => if cmp best b = .gt then best else b) a ∈ a :: as := by
  induction as generalizing a with
  | nil => exact List.mem_cons_self
  | cons b as ih =>
    rw [List.foldl_cons]
    by_cases hgt : cmp a b = .gt
    · rw [if_pos hgt]
      rcases List.mem_cons.1 (ih a) with hhead | htail
      · rw [hhead]
        exact List.mem_cons_self
      · exact List.mem_cons_of_mem _ (List.mem_cons_of_mem _ htail)
    · rw [if_neg hgt]
      exact List.mem_cons_of_mem _ (ih b)

theorem mem_of_maxBy {as : List α} {best : α} (h : maxBy cmp as = some best) : best ∈ as := by
  cases as with
  | nil => cases h
  | cons a as =>
    cases h
    exact foldl_maxBy_mem as a

/-- What the fold ends with is no less than what it starts with and what it sees. -/
theorem foldl_maxBy_isGE {as : List α} {a : α} (h : IsPreorderOn cmp (a :: as)) :
    ∀ b ∈ a :: as, (cmp (as.foldl (fun best b => if cmp best b = .gt then best else b) a) b).isGE
    := by
  induction as generalizing a with
  | nil =>
    intro b hb
    obtain rfl := List.mem_singleton.1 hb
    have hswap := h.swap b List.mem_cons_self b List.mem_cons_self
    revert hswap
    cases hrefl : cmp b b <;> simp [hrefl]
  | cons c as ih =>
    have hrefl (b : α) (hb : b ∈ a :: c :: as) : (cmp b b).isGE := by
      have hswap := h.swap b hb b hb
      revert hswap
      cases hcmp : cmp b b <;> simp
    have ha : a ∈ a :: c :: as := List.mem_cons_self
    have hc : c ∈ a :: c :: as := List.mem_cons_of_mem _ List.mem_cons_self
    rw [List.foldl_cons]
    by_cases hgt : cmp a c = .gt
    · rw [if_pos hgt]
      have hsub : ∀ b ∈ a :: as, b ∈ a :: c :: as := fun b hb => by
        rcases List.mem_cons.1 hb with rfl | hb
        · exact ha
        · exact List.mem_cons_of_mem _ (List.mem_cons_of_mem _ hb)
      have hbest := ih (h.mono hsub)
      intro b hb
      rcases List.mem_cons.1 hb with rfl | hb
      · exact hbest b List.mem_cons_self
      · rcases List.mem_cons.1 hb with rfl | hb
        · refine h.isGE_trans _ (hsub _ (foldl_maxBy_mem as a)) a ha b hc
            (hbest a List.mem_cons_self) ?_
          rw [hgt]
          rfl
        · exact hbest b (List.mem_cons_of_mem _ hb)
    · rw [if_neg hgt]
      have hsub : ∀ b ∈ c :: as, b ∈ a :: c :: as := fun b hb => List.mem_cons_of_mem _ hb
      have hbest := ih (h.mono hsub)
      intro b hb
      rcases List.mem_cons.1 hb with rfl | hb
      · refine h.isGE_trans _ (hsub _ (foldl_maxBy_mem as c)) c hc b ha
          (hbest c List.mem_cons_self) ?_
        rw [h.swap b ha c hc]
        revert hgt
        cases cmp b c <;> simp
      · exact hbest b hb

/-- **Nothing in the list is greater.** -/
theorem isGE_maxBy {as : List α} (h : IsPreorderOn cmp as) {best : α}
    (hbest : maxBy cmp as = some best) : ∀ a ∈ as, (cmp best a).isGE := by
  cases as with
  | nil => cases hbest
  | cons a as =>
    cases hbest
    exact foldl_maxBy_isGE h

end MaxBy

/-! ## Sequences -/

section Padded

variable {α : Type*} (cmp : α → α → Ordering) (isZero : α → Bool)

/-- The comparison of two sequences; a missing element is as much as a zero one, and less than any
other. -/
def comparePadded : List α → List α → Ordering
  | [], bs => if bs.all isZero then .eq else .lt
  | as, [] => if as.all isZero then .eq else .gt
  | a :: as, b :: bs => (cmp a b).then (comparePadded as bs)

/-- The zeros are equal to one another and to nothing else. -/
class LawfulZero : Prop where
  eq_of_isZero : ∀ {a b : α}, isZero a = true → isZero b = true → cmp a b = .eq
  isZero_congr : ∀ {a b : α}, cmp a b = .eq → isZero a = isZero b

/-- The sequence `x` ends before `y`, which goes on with zeros, and at one of these places `z` has an
element below the zeros, after elements equal to those of `y`. -/
def Mixes (x y z : List α) : Prop :=
  ∃ (n : Nat) (o c : α), x.length ≤ n ∧ y[n]? = some o ∧ z[n]? = some c ∧ cmp c o = .lt ∧
    (∀ (i : Nat) (a b : α), x[i]? = some a → y[i]? = some b → cmp a b = .eq) ∧
    (∀ (i : Nat) (b : α), x.length ≤ i → y[i]? = some b → isZero b = true) ∧
    ∀ i < n, ∀ b c : α, y[i]? = some b → z[i]? = some c → cmp c b = .eq

variable {cmp isZero}

theorem isZero_eq [LawfulZero cmp isZero] {a b : α} (h : cmp a b = .eq) : isZero a = isZero b :=
  LawfulZero.isZero_congr h

@[simp] theorem comparePadded_nil (bs : List α) :
    comparePadded cmp isZero [] bs = if bs.all isZero then .eq else .lt := by
  rw [comparePadded]

@[simp] theorem comparePadded_cons_nil (a : α) (as : List α) :
    comparePadded cmp isZero (a :: as) [] = if (a :: as).all isZero then .eq else .gt := rfl

@[simp] theorem comparePadded_cons_cons (a b : α) (as bs : List α) :
    comparePadded cmp isZero (a :: as) (b :: bs)
      = (cmp a b).then (comparePadded cmp isZero as bs) := rfl

theorem comparePadded_right_nil (as : List α) :
    comparePadded cmp isZero as [] = if as.all isZero then .eq else .gt := by
  cases as <;> rfl

/-- Only which of the elements are zeros matters. -/
theorem comparePadded_congr {isZero' : α → Bool} {x y : List α}
    (hx : ∀ a ∈ x, isZero a = isZero' a) (hy : ∀ b ∈ y, isZero b = isZero' b) :
    comparePadded cmp isZero x y = comparePadded cmp isZero' x y := by
  have hall {z : List α} (hz : ∀ a ∈ z, isZero a = isZero' a) : z.all isZero = z.all isZero' := by
    rw [Bool.eq_iff_iff, List.all_eq_true, List.all_eq_true]
    exact forall₂_congr fun a ha => by rw [hz a ha]
  induction x generalizing y with
  | nil => rw [comparePadded_nil, comparePadded_nil, hall hy]
  | cons a as ih =>
    cases y with
    | nil => rw [comparePadded_cons_nil, comparePadded_cons_nil, hall hx]
    | cons b bs =>
      rw [comparePadded_cons_cons, comparePadded_cons_cons,
        ih (fun a ha => hx a (List.mem_cons_of_mem _ ha))
          fun b hb => hy b (List.mem_cons_of_mem _ hb)]

theorem then_eq_eq {o p : Ordering} : o.then p = .eq ↔ o = .eq ∧ p = .eq := by
  cases o <;> cases p <;> simp

theorem comparePadded_swap [OrientedCmp cmp] (x y : List α) :
    comparePadded cmp isZero y x = (comparePadded cmp isZero x y).swap := by
  induction x generalizing y with
  | nil =>
    cases y with
    | nil => rfl
    | cons b bs =>
      rw [comparePadded_cons_nil, comparePadded_nil]
      split_ifs <;> rfl
  | cons a as ih =>
    cases y with
    | nil =>
      rw [comparePadded_cons_nil, comparePadded_nil]
      split_ifs <;> rfl
    | cons b bs =>
      rw [comparePadded_cons_cons, comparePadded_cons_cons, ih, Ordering.swap_then,
        ← (OrientedCmp.eq_swap : cmp b a = (cmp a b).swap)]

variable [LawfulZero cmp isZero]

/-- What is equal to zeros is zeros. -/
theorem all_isZero_of_eq {x y : List α} (h : comparePadded cmp isZero x y = .eq) :
    x.all isZero = y.all isZero := by
  induction x generalizing y with
  | nil =>
    rw [comparePadded_nil] at h
    by_cases hy : y.all isZero = true
    · rw [hy]
      rfl
    · rw [if_neg hy] at h
      cases h
  | cons a as ih =>
    cases y with
    | nil =>
      rw [comparePadded_cons_nil] at h
      by_cases hx : (a :: as).all isZero = true
      · rw [hx]
        rfl
      · rw [if_neg hx] at h
        cases h
    | cons b bs =>
      rw [comparePadded_cons_cons, then_eq_eq] at h
      rw [List.all_cons, List.all_cons, ih h.2,
        (isZero_eq h.1 : isZero a = isZero b)]

theorem eq_of_all_isZero {x y : List α} (hx : x.all isZero = true) (hy : y.all isZero = true) :
    comparePadded cmp isZero x y = .eq := by
  induction x generalizing y with
  | nil => rw [comparePadded_nil, if_pos hy]
  | cons a as ih =>
    cases y with
    | nil => rw [comparePadded_cons_nil, if_pos hx]
    | cons b bs =>
      rw [List.all_cons, Bool.and_eq_true] at hx hy
      rw [comparePadded_cons_cons, then_eq_eq]
      exact ⟨LawfulZero.eq_of_isZero hx.1 hy.1, ih hx.2 hy.2⟩

omit [LawfulZero cmp isZero] in
theorem all_isZero_iff {x : List α} :
    x.all isZero = true ↔ ∀ (i : Nat) (a : α), x[i]? = some a → isZero a = true := by
  rw [List.all_eq_true]
  exact ⟨fun h i a ha => h a (List.mem_of_getElem? ha), fun h a ha => by
    obtain ⟨i, hi⟩ := List.mem_iff_getElem?.1 ha
    exact h i a hi⟩

omit [LawfulZero cmp isZero] in
/-- Sequences are equal if they are where both go on, and the longer one goes on with zeros. -/
theorem comparePadded_eq_iff {x y : List α} : comparePadded cmp isZero x y = .eq ↔
    (∀ (i : Nat) (a b : α), x[i]? = some a → y[i]? = some b → cmp a b = .eq) ∧
    (∀ (i : Nat) (b : α), x.length ≤ i → y[i]? = some b → isZero b = true) ∧
    ∀ (i : Nat) (a : α), y.length ≤ i → x[i]? = some a → isZero a = true := by
  induction x generalizing y with
  | nil =>
    rw [comparePadded_nil]
    constructor
    · intro h
      by_cases hy : y.all isZero = true
      · exact ⟨fun i a b ha => (nomatch ha), fun i b _ => all_isZero_iff.1 hy i b,
          fun i a _ ha => (nomatch ha)⟩
      · rw [if_neg hy] at h
        cases h
    · rintro ⟨-, hy, -⟩
      rw [if_pos (all_isZero_iff.2 fun i b => hy i b (Nat.zero_le i))]
  | cons a as ih =>
    cases y with
    | nil =>
      rw [comparePadded_cons_nil]
      constructor
      · intro h
        by_cases hx : (a :: as).all isZero = true
        · exact ⟨fun i a b _ hb => (nomatch hb), fun i b _ hb => (nomatch hb),
            fun i a _ => all_isZero_iff.1 hx i a⟩
        · rw [if_neg hx] at h
          cases h
      · rintro ⟨-, -, hx⟩
        rw [if_pos (all_isZero_iff.2 fun i b => hx i b (Nat.zero_le i))]
    | cons b bs =>
      rw [comparePadded_cons_cons, then_eq_eq, ih]
      constructor
      · intro ⟨hab, hboth, hright, hleft⟩
        refine ⟨fun i => ?_, fun i => ?_, fun i => ?_⟩
        · cases i with
          | zero =>
            intro a' b' ha' hb'
            obtain rfl := Option.some.inj ha'
            obtain rfl := Option.some.inj hb'
            exact hab
          | succ i => exact hboth i
        · cases i with
          | zero => exact fun _ h => absurd h (Nat.not_succ_le_zero _)
          | succ i => exact fun b h => hright i b (Nat.le_of_succ_le_succ h)
        · cases i with
          | zero => exact fun _ h => absurd h (Nat.not_succ_le_zero _)
          | succ i => exact fun a h => hleft i a (Nat.le_of_succ_le_succ h)
      · intro ⟨hboth, hright, hleft⟩
        exact ⟨hboth 0 a b rfl rfl, fun i => hboth (i + 1),
          fun i b h => hright (i + 1) b (Nat.succ_le_succ h),
          fun i a h => hleft (i + 1) a (Nat.succ_le_succ h)⟩

omit [LawfulZero cmp isZero] in
/-- The case by what the comparison returns for the sequences and their beginnings. -/
theorem mixes_iff {x y z : List α} : Mixes cmp isZero x y z ↔
    ∃ (n : Nat) (o c : α), x.length ≤ n ∧ y[n]? = some o ∧ z[n]? = some c ∧ isZero o = true ∧ cmp c o = .lt ∧
      comparePadded cmp isZero x y = .eq ∧
        comparePadded cmp isZero (z.take n) (y.take n) = .eq := by
  have hlong {y : List α} {n : Nat} {o : α} (h : y[n]? = some o) : n < y.length :=
    (List.getElem?_eq_some_iff.1 h).1
  constructor
  · intro ⟨n, o, c, hx, hy, hz, hlow, hboth, hzeros, hbefore⟩
    refine ⟨n, o, c, hx, hy, hz, hzeros n o hx hy, hlow, ?_, ?_⟩
    · refine comparePadded_eq_iff.2 ⟨hboth, hzeros, fun i a hi ha => ?_⟩
      have hyn := hlong hy
      have hxi := hlong ha
      omega
    · refine comparePadded_eq_iff.2 ⟨fun i c b hc hb => ?_, fun i b hi hb => ?_,
        fun i c hi hc => ?_⟩
      · have hi := hlong hc
        rw [List.length_take] at hi
        rw [List.getElem?_take_of_lt (by omega)] at hc hb
        exact hbefore i (by omega) b c hb hc
      · have hzn := hlong hz
        have hyi := hlong hb
        rw [List.length_take] at hi hyi
        omega
      · have hyn := hlong hy
        have hzi := hlong hc
        rw [List.length_take] at hi hzi
        omega
  · intro ⟨n, o, c, hx, hy, hz, _, hlow, hequal, hbefore⟩
    obtain ⟨hboth, hzeros, -⟩ := comparePadded_eq_iff.1 hequal
    obtain ⟨hboth', -, -⟩ := comparePadded_eq_iff.1 hbefore
    refine ⟨n, o, c, hx, hy, hz, hlow, hboth, hzeros, fun i hi b c hb hc => ?_⟩
    exact hboth' i c b (by rw [List.getElem?_take_of_lt hi, hc])
      (by rw [List.getElem?_take_of_lt hi, hb])

variable [TransCmp cmp]

/-- **Equality is transitive.** -/
theorem comparePadded_eq_trans {x y z : List α} (hxy : comparePadded cmp isZero x y = .eq)
    (hyz : comparePadded cmp isZero y z = .eq) : comparePadded cmp isZero x z = .eq := by
  induction x generalizing y z with
  | nil =>
    have hy := (all_isZero_of_eq hxy).symm
    exact eq_of_all_isZero rfl ((all_isZero_of_eq hyz).symm.trans hy)
  | cons a as ih =>
    cases y with
    | nil =>
      have hx := all_isZero_of_eq hxy
      exact eq_of_all_isZero hx (all_isZero_of_eq hyz).symm
    | cons b bs =>
      cases z with
      | nil =>
        have hx := (all_isZero_of_eq hxy).trans (all_isZero_of_eq hyz)
        exact eq_of_all_isZero hx rfl
      | cons c cs =>
        rw [comparePadded_cons_cons, then_eq_eq] at hxy hyz ⊢
        exact ⟨TransCmp.eq_trans hxy.1 hyz.1, ih hxy.2 hyz.2⟩

omit [LawfulZero cmp isZero] [TransCmp cmp] in
/-- The case goes on when equal elements are put in front. -/
theorem Mixes.cons {x y z : List α} (h : Mixes cmp isZero x y z) {a b c : α} (hab : cmp a b = .eq)
    (hcb : cmp c b = .eq) : Mixes cmp isZero (a :: x) (b :: y) (c :: z) := by
  obtain ⟨n, o, l, hx, hy, hz, hzero, hlow, hequal, hbefore⟩ := mixes_iff.1 h
  refine mixes_iff.2 ⟨n + 1, o, l, Nat.succ_le_succ hx, hy, hz, hzero, hlow, ?_, ?_⟩
  · rw [comparePadded_cons_cons, hab]
    exact hequal
  · rw [List.take_succ_cons, List.take_succ_cons, comparePadded_cons_cons, hcb]
    exact hbefore

omit [TransCmp cmp] in
/-- The case goes on when zeros are put in front of the longer two. -/
theorem Mixes.cons_zero {y z : List α} (h : Mixes cmp isZero [] y z) {b c : α}
    (hb : isZero b = true) (hcb : cmp c b = .eq) : Mixes cmp isZero [] (b :: y) (c :: z) := by
  obtain ⟨n, o, l, -, hy, hz, hzero, hlow, hequal, hbefore⟩ := mixes_iff.1 h
  refine mixes_iff.2 ⟨n + 1, o, l, Nat.zero_le _, hy, hz, hzero, hlow, ?_, ?_⟩
  · have hall := (all_isZero_of_eq hequal).symm
    refine eq_of_all_isZero rfl ?_
    rw [List.all_cons, hb, hall]
    rfl
  · rw [List.take_succ_cons, List.take_succ_cons, comparePadded_cons_cons, hcb]
    exact hbefore

/-- A sequence that is no more than nothing, against one that is not below the zeros. -/
theorem comparePadded_isLE_trans {x y z : List α} (hxz : ¬ Mixes cmp isZero y x z)
    (hzx : ¬ Mixes cmp isZero z y x) (hxy : (comparePadded cmp isZero x y).isLE)
    (hyz : (comparePadded cmp isZero y z).isLE) : (comparePadded cmp isZero x z).isLE := by
  induction x generalizing y z with
  | nil =>
    rw [comparePadded_nil]
    split_ifs <;> rfl
  | cons a as ih =>
    cases y with
    | nil =>
      -- the first is all zeros, and the last has nothing below them
      rw [comparePadded_cons_nil] at hxy
      by_cases hx : (a :: as).all isZero = true
      · have hx' := hx
        rw [List.all_cons, Bool.and_eq_true] at hx'
        cases z with
        | nil => rw [comparePadded_cons_nil, if_pos hx]; rfl
        | cons c cs =>
          rw [comparePadded_cons_cons]
          cases hac : cmp a c with
          | lt => rfl
          | eq =>
            refine ih (y := []) (fun hmix => ?_) (fun hmix => ?_) ?_ ?_
            · exact hxz (hmix.cons_zero hx'.1 (OrientedCmp.eq_symm hac))
            · obtain ⟨n, o, -, -, hy, -⟩ := hmix
              cases hy
            · rw [eq_of_all_isZero hx'.2 rfl]
              rfl
            · rw [comparePadded_nil]
              split_ifs <;> rfl
          | gt =>
            have hbelow : cmp c a = .lt := OrientedCmp.gt_iff_lt.1 hac
            have hzeros : comparePadded cmp isZero [] (a :: as) = .eq := by
              rw [comparePadded_nil, if_pos hx]
            have hmix : Mixes cmp isZero [] (a :: as) (c :: cs) :=
              mixes_iff.2 ⟨0, a, c, Nat.le_refl 0, rfl, rfl, hx'.1, hbelow, hzeros, rfl⟩
            exact absurd hmix hxz
      · rw [if_neg hx] at hxy
        cases hxy
    | cons b bs =>
      cases z with
      | nil =>
        -- the middle one is all zeros, and the first has nothing below them
        rw [comparePadded_cons_nil] at hyz
        by_cases hy : (b :: bs).all isZero = true
        · have hy' := hy
          rw [List.all_cons, Bool.and_eq_true] at hy'
          rw [comparePadded_cons_cons] at hxy
          cases hab : cmp a b with
          | lt =>
            have hzeros : comparePadded cmp isZero [] (b :: bs) = .eq := by
              rw [comparePadded_nil, if_pos hy]
            have hmix : Mixes cmp isZero [] (b :: bs) (a :: as) :=
              mixes_iff.2 ⟨0, b, a, Nat.le_refl 0, rfl, rfl, hy'.1, hab, hzeros, rfl⟩
            exact absurd hmix hzx
          | eq =>
            rw [hab] at hxy
            have hle := ih (y := bs) (z := []) (fun hmix => ?_) (fun hmix => ?_) hxy ?_
            · cases as with
              | nil =>
                have ha : isZero a = isZero b := isZero_eq hab
                simp [ha, hy'.1]
              | cons a' as' =>
                rw [comparePadded_cons_nil] at hle ⊢
                by_cases has : (a' :: as').all isZero = true
                · have ha : isZero a = isZero b := isZero_eq hab
                  rw [if_pos (by rw [List.all_cons, ha, hy'.1, has]; rfl)]
                  rfl
                · rw [if_neg has] at hle
                  cases hle
            · obtain ⟨n, -, c, -, -, hz, -⟩ := hmix
              cases hz
            · exact hzx (hmix.cons_zero hy'.1 hab)
            · rw [eq_of_all_isZero hy'.2 rfl]
              rfl
          | gt =>
            rw [hab] at hxy
            cases hxy
        · rw [if_neg hy] at hyz
          cases hyz
      | cons c cs =>
        rw [comparePadded_cons_cons] at hxy hyz ⊢
        cases hab : cmp a b with
        | gt =>
          rw [hab] at hxy
          cases hxy
        | lt =>
          have hbc : (cmp b c).isLE := by
            revert hyz
            cases cmp b c <;> simp
          rw [TransCmp.lt_of_lt_of_isLE hab hbc]
          rfl
        | eq =>
          rw [TransCmp.congr_left hab]
          cases hbc : cmp b c with
          | gt =>
            rw [hbc] at hyz
            cases hyz
          | lt => rfl
          | eq =>
            rw [hab] at hxy
            rw [hbc] at hyz
            refine ih (fun hmix => hxz ?_) (fun hmix => hzx ?_) hxy hyz
            · exact hmix.cons (OrientedCmp.eq_symm hab)
                (OrientedCmp.eq_symm (TransCmp.eq_trans hab hbc))
            · exact hmix.cons (OrientedCmp.eq_symm hbc) hab

/-- In such a case the order goes round. -/
theorem Mixes.lt {x y z : List α} (h : Mixes cmp isZero x y z) :
    comparePadded cmp isZero x z = .lt ∧ comparePadded cmp isZero z y = .lt := by
  obtain ⟨n, o, c, hx, hy, hz, hzero, hlow, hequal, hbefore⟩ := mixes_iff.1 h
  clear h
  induction n generalizing x y z with
  | zero =>
    obtain rfl := List.eq_nil_of_length_eq_zero (Nat.le_zero.1 hx)
    cases y with
    | nil => cases hy
    | cons b bs =>
      cases z with
      | nil => cases hz
      | cons d ds =>
        obtain rfl : b = o := Option.some.inj hy
        obtain rfl : d = c := Option.some.inj hz
        have hd : isZero d = false := by
          by_contra hd
          have hsame : cmp d b = .eq :=
            LawfulZero.eq_of_isZero (by simpa using hd : isZero d = true) hzero
          rw [hlow] at hsame
          cases hsame
        constructor
        · simp [hd]
        · rw [comparePadded_cons_cons, hlow]
          rfl
  | succ n ih =>
    cases y with
    | nil => cases hy
    | cons b bs =>
      cases z with
      | nil => cases hz
      | cons d ds =>
        rw [List.take_succ_cons, List.take_succ_cons, comparePadded_cons_cons, then_eq_eq]
          at hbefore
        cases x with
        | nil =>
          have hall := (all_isZero_of_eq hequal).symm
          rw [List.all_nil, List.all_cons, Bool.and_eq_true] at hall
          obtain ⟨hlt, hlt'⟩ := ih (x := []) (Nat.zero_le n) hy hz
            (eq_of_all_isZero rfl hall.2) hbefore.2
          rw [comparePadded_nil] at hlt ⊢
          constructor
          · by_cases hds : ds.all isZero = true
            · rw [if_pos hds] at hlt
              cases hlt
            · rw [if_neg]
              rw [List.all_cons, Bool.and_eq_true]
              exact fun hand => hds hand.2
          · rw [comparePadded_cons_cons, hbefore.1]
            exact hlt'
        | cons a as =>
          rw [comparePadded_cons_cons, then_eq_eq] at hequal
          obtain ⟨hlt, hlt'⟩ := ih (Nat.le_of_succ_le_succ hx) hy hz hequal.2 hbefore.2
          have had : cmp a d = .eq :=
            TransCmp.eq_trans hequal.1 (OrientedCmp.eq_symm hbefore.1)
          constructor
          · rw [comparePadded_cons_cons, had]
            exact hlt
          · rw [comparePadded_cons_cons, hbefore.1]
            exact hlt'

/-- **Where the comparison is an order**: exactly on the sequences none of which mix. -/
theorem isPreorderOn_iff {sequences : List (List α)} :
    IsPreorderOn (comparePadded cmp isZero) sequences ↔
      ∀ x ∈ sequences, ∀ y ∈ sequences, ∀ z ∈ sequences, ¬ Mixes cmp isZero x y z := by
  constructor
  · intro h x hx y hy z hz hmix
    obtain ⟨hlt, hlt'⟩ := hmix.lt
    obtain ⟨-, -, -, -, -, -, -, -, hequal, -⟩ := mixes_iff.1 hmix
    have hge := h.isGE_trans x hx y hy z hz (by rw [hequal]; rfl)
      (by rw [comparePadded_swap, hlt']; rfl)
    rw [hlt] at hge
    cases hge
  · intro h
    refine ⟨fun x _ y _ => comparePadded_swap x y, fun x hx y hy z hz hxy hyz => ?_,
      fun x _ y _ z _ => comparePadded_eq_trans⟩
    have hle {x y : List α} (hge : (comparePadded cmp isZero x y).isGE) :
        (comparePadded cmp isZero y x).isLE := by
      rw [comparePadded_swap x y]
      revert hge
      cases comparePadded cmp isZero x y <;> simp
    have hzx := comparePadded_isLE_trans (h y hy z hz x hx) (h x hx y hy z hz) (hle hyz) (hle hxy)
    rw [comparePadded_swap z x]
    revert hzx
    cases comparePadded cmp isZero z x <;> simp

end Padded

/-! ## Numbers -/

section Bottom

variable {α : Type*} [LinearOrder α] [OrderBot α]

/-- At the first place where they differ the one sequence is below the other. -/
def Precedes (x y : List α) : Prop :=
  ∃ n, (∀ i < n, x.getD i ⊥ = y.getD i ⊥) ∧ x.getD n ⊥ < y.getD n ⊥

/-- Both come down to this for sequences that start alike. -/
theorem precedes_cons_cons {a b : α} {x y : List α} :
    Precedes (a :: x) (b :: y) ↔ a < b ∨ a = b ∧ Precedes x y := by
  constructor
  · rintro ⟨n, hsame, hlt⟩
    cases n with
    | zero => exact Or.inl hlt
    | succ n => exact Or.inr ⟨hsame 0 (Nat.succ_pos n),
        n, fun i hi => hsame (i + 1) (Nat.succ_lt_succ hi), hlt⟩
  · rintro (hlt | ⟨rfl, n, hsame, hlt⟩)
    · exact ⟨0, nofun, hlt⟩
    · refine ⟨n + 1, fun i hi => ?_, hlt⟩
      cases i with
      | zero => rfl
      | succ i => exact hsame i (Nat.lt_of_succ_lt_succ hi)

theorem precedes_cons_nil {a : α} {x : List α} : Precedes (a :: x) [] ↔ False := by
  refine ⟨fun ⟨n, _, hlt⟩ => ?_, False.elim⟩
  rw [List.getD_nil] at hlt
  exact not_lt_bot hlt

theorem precedes_nil_cons {b : α} {y : List α} :
    Precedes [] (b :: y) ↔ b ≠ ⊥ ∨ Precedes [] y := by
  constructor
  · rintro ⟨n, hsame, hlt⟩
    cases n with
    | zero => exact Or.inl (bot_lt_iff_ne_bot.1 hlt)
    | succ n => exact Or.inr ⟨n, fun i hi => hsame (i + 1) (Nat.succ_lt_succ hi), hlt⟩
  · intro h
    by_cases hb : b = ⊥
    · obtain ⟨n, hsame, hlt⟩ := h.resolve_left (not_not_intro hb)
      refine ⟨n + 1, fun i hi => ?_, hlt⟩
      cases i with
      | zero => exact hb.symm
      | succ i => exact hsame i (Nat.lt_of_succ_lt_succ hi)
    · exact ⟨0, nofun, bot_lt_iff_ne_bot.2 hb⟩

/-- Where the zeros are the least elements, the comparison decides by the first difference of the
sequences, and a missing element is a zero. -/
theorem comparePadded_eq_lt_iff {x y : List α} :
    comparePadded compare (fun a => decide (a = ⊥)) x y = .lt ↔ Precedes x y := by
  induction x generalizing y with
  | nil =>
    rw [comparePadded_nil]
    induction y with
    | nil =>
      refine ⟨nofun, fun ⟨n, _, hlt⟩ => ?_⟩
      exact absurd hlt (lt_irrefl _)
    | cons b y ih =>
      rw [precedes_nil_cons, ← ih, List.all_cons]
      by_cases hb : b = ⊥
      · simp [hb]
      · simp [hb]
  | cons a x ih =>
    cases y with
    | nil =>
      rw [precedes_cons_nil, comparePadded_cons_nil]
      split_ifs <;> simp
    | cons b y =>
      rw [comparePadded_cons_cons, precedes_cons_cons, ← ih]
      cases h : compare a b with
      | lt =>
        have hlt := compare_lt_iff_lt.1 h
        simp [hlt]
      | eq =>
        have heq := Std.compare_eq_iff_eq.1 h
        simp [heq]
      | gt =>
        have hgt := compare_gt_iff_gt.1 h
        simp [hgt.ne', hgt.not_gt]

end Bottom
end Superiority
