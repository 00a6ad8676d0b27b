import Mathlib.Data.List.Nodup
import Mathlib.Data.List.Perm.Basic

/-!
# Lists as small tables

A list whose items have keys serves as a table when no two items share a key: the first item of a
key is looked up, changed in place or removed, and a new key goes to the end.

* **`byKey_modifyFirst`**, **`byKey_append`**, **`byKey_filter_ne`** – what is found after each of
  these.
* **`perm_of_byKey`** – tables in which the same is found are permutations of each other.
-/

namespace Superiority

/-- `iter_mut().find(…)`: the first that is found is changed. -/
def modifyFirst {α : Type*} (p : α → Bool) (f : α → α) : List α → List α
  | [] => []
  | a :: as => if p a then f a :: as else a :: modifyFirst p f as

section Modify

variable {α β : Type*}

/-- Changing the first in a way that another view does not see. -/
theorem map_modifyFirst_of_eq {p : α → Bool} {f : α → α} {view : α → β}
    (h : ∀ a, view (f a) = view a) (items : List α) :
    (modifyFirst p f items).map view = items.map view := by
  induction items with
  | nil => rfl
  | cons a items ih =>
    rw [modifyFirst]
    split
    · simp [h]
    · simp [ih]

/-- The same change on both sides of a view. -/
theorem map_modifyFirst {p : α → Bool} {f : α → α} {view : α → β} {q : β → Bool} {g : β → β}
    (hp : ∀ a, p a = q (view a)) (h : ∀ a, view (f a) = g (view a)) (items : List α) :
    (modifyFirst p f items).map view = modifyFirst q g (items.map view) := by
  induction items with
  | nil => rfl
  | cons a items ih =>
    rw [modifyFirst, List.map_cons, modifyFirst, ← hp]
    split
    · rw [List.map_cons, h]
    · rw [List.map_cons, ih]

theorem modifyFirst_of_none {p : α → Bool} {f : α → α} {items : List α}
    (h : items.find? p = none) : modifyFirst p f items = items := by
  induction items with
  | nil => rfl
  | cons a items ih =>
    rw [List.find?_eq_none] at h
    rw [modifyFirst, if_neg (h a List.mem_cons_self),
      ih (List.find?_eq_none.2 fun b hb => h b (List.mem_cons_of_mem _ hb))]

end Modify

variable {α κ : Type*} [DecidableEq κ] (key : α → κ)

/-- The first item of a key. -/
def byKey (k : κ) (items : List α) : Option α := items.find? (key · = k)

variable {key} {items : List α} {k j : κ} {a : α}

theorem key_of_byKey (h : byKey key k items = some a) : key a = k := by
  have := List.find?_some h
  simpa using this

theorem mem_of_byKey (h : byKey key k items = some a) : a ∈ items := List.mem_of_find?_eq_some h

theorem byKey_cons :
    byKey key k (a :: items) = if key a = k then some a else byKey key k items := by
  by_cases h : key a = k <;> simp [byKey, h]

theorem byKey_eq_none : byKey key k items = none ↔ ∀ a ∈ items, key a ≠ k := by
  simp [byKey]

/-- In a table every item is the first of its key. -/
theorem byKey_of_mem (hnodup : (items.map key).Nodup) (ha : a ∈ items) :
    byKey key (key a) items = some a := by
  induction items with
  | nil => cases ha
  | cons b items ih =>
    rw [List.map_cons, List.nodup_cons] at hnodup
    rcases List.mem_cons.1 ha with rfl | ha
    · simp [byKey]
    · have hne : key b ≠ key a := fun h => hnodup.1 (h ▸ List.mem_map_of_mem ha)
      simpa [byKey, hne] using ih hnodup.2 ha

theorem mem_iff_byKey (hnodup : (items.map key).Nodup) :
    a ∈ items ↔ byKey key (key a) items = some a :=
  ⟨byKey_of_mem hnodup, mem_of_byKey⟩

/-! ## Changes -/

theorem byKey_append (b : α) : byKey key k (items ++ [b]) =
    (byKey key k items).or (if key b = k then some b else none) := by
  by_cases h : key b = k <;> simp [byKey, List.find?_append, h]

/-- A change of the first item of a key that leaves the keys. -/
theorem byKey_modifyFirst {f : α → α} (hf : ∀ a, key (f a) = key a) :
    byKey key k (modifyFirst (key · = j) f items) =
      if k = j then (byKey key k items).map f else byKey key k items := by
  induction items with
  | nil => simp [modifyFirst, byKey]
  | cons a items ih =>
    rw [modifyFirst]
    by_cases hj : key a = j
    · by_cases hk : k = j
      · simp [byKey, hj, hk, hf]
      · have hne : ¬ j = k := fun h => hk h.symm
        simp [byKey, hj, hk, hf, hne]
    · by_cases hk : key a = k
      · have hkj : ¬ k = j := fun h => hj (hk.trans h)
        simp [byKey, hk, hkj]
      · simpa [byKey, hj, hk] using ih

theorem byKey_filter_ne : byKey key k (items.filter (key · ≠ j)) =
    if k = j then none else byKey key k items := by
  by_cases h : k = j
  · subst h
    simp [byKey]
  · rw [if_neg h, byKey, List.find?_filter, byKey]
    refine congrArg (List.find? · items) (funext fun a => ?_)
    by_cases ha : key a = k
    · simp [ha, h]
    · simp [ha]

/-- A filter that asks for the key only. -/
theorem byKey_filter_key (p : κ → Bool) : byKey key k (items.filter fun a => p (key a)) =
    if p k then byKey key k items else none := by
  induction items with
  | nil => simp [byKey]
  | cons a items ih =>
    simp only [byKey] at ih
    by_cases ha : key a = k
    · subst ha
      cases hp : p (key a) with
      | true => simp [byKey, hp]
      | false => simpa [byKey, hp] using ih
    · cases hp : p (key a) with
      | true => simpa [byKey, hp, ha] using ih
      | false => simpa [byKey, hp, ha] using ih

/-- A filter of a table finds what it lets through. -/
theorem byKey_filter (hnodup : (items.map key).Nodup) (p : α → Bool) :
    byKey key k (items.filter p) = (byKey key k items).filter p := by
  have hnodup' : ((items.filter p).map key).Nodup := hnodup.sublist (List.filter_sublist.map key)
  refine Option.ext fun a => ?_
  rw [Option.filter_eq_some_iff]
  constructor
  · intro ha
    obtain rfl := key_of_byKey ha
    obtain ⟨hmem, hp⟩ := List.mem_filter.1 (mem_of_byKey ha)
    exact ⟨byKey_of_mem hnodup hmem, hp⟩
  · intro ha
    obtain rfl := key_of_byKey ha.1
    exact byKey_of_mem hnodup' (List.mem_filter.2 ⟨mem_of_byKey ha.1, ha.2⟩)

/-- A view of the items that shows their keys. -/
theorem byKey_map {β : Type*} {view : α → β} {key' : β → κ} (h : ∀ a, key' (view a) = key a) :
    byKey key' k (items.map view) = (byKey key k items).map view := by
  simp [byKey, List.find?_map, Function.comp_def, h]

/-- Removing the item at an index removes what is found under its key. -/
theorem eraseIdx_eq_filter (hnodup : (items.map key).Nodup) {index : Nat}
    (ha : items[index]? = some a) : items.eraseIdx index = items.filter (key · ≠ key a) := by
  induction items generalizing index with
  | nil => simp at ha
  | cons b items ih =>
    rw [List.map_cons, List.nodup_cons] at hnodup
    cases index with
    | zero =>
      obtain rfl : b = a := by simpa using ha
      have hall : ∀ c ∈ items, decide (key c ≠ key b) = true := fun c hc =>
        decide_eq_true fun h => hnodup.1 (h ▸ List.mem_map_of_mem hc)
      simpa using (List.filter_eq_self.2 hall).symm
    | succ index =>
      have hmem : a ∈ items := List.mem_of_getElem? (by simpa using ha)
      have hne : key b ≠ key a := fun h => hnodup.1 (h ▸ List.mem_map_of_mem hmem)
      simpa [hne] using ih hnodup.2 (by simpa using ha)

theorem eraseP_eq_filter (hnodup : (items.map key).Nodup) :
    items.eraseP (key · = k) = items.filter (key · ≠ k) := by
  induction items with
  | nil => rfl
  | cons b items ih =>
    rw [List.map_cons, List.nodup_cons] at hnodup
    by_cases hb : key b = k
    · have hall : ∀ c ∈ items, decide (key c ≠ k) = true := fun c hc =>
        decide_eq_true fun h => hnodup.1 ((hb.trans h.symm) ▸ List.mem_map_of_mem hc)
      simpa [hb] using (List.filter_eq_self.2 hall).symm
    · simpa [hb] using ih hnodup.2

theorem nodup_keys_append (hnodup : (items.map key).Nodup) {b : α}
    (h : byKey key (key b) items = none) : ((items ++ [b]).map key).Nodup := by
  rw [byKey_eq_none] at h
  rw [List.map_append, List.nodup_append]
  refine ⟨hnodup, by simp, fun c hc d hd => ?_⟩
  obtain ⟨a, ha, rfl⟩ := List.mem_map.1 hc
  obtain rfl : d = key b := by simpa using hd
  exact h a ha

omit [DecidableEq κ] in
theorem nodup_keys_filter (hnodup : (items.map key).Nodup) (p : α → Bool) :
    ((items.filter p).map key).Nodup := hnodup.sublist (List.filter_sublist.map key)

/-- The order of a table does not matter. -/
theorem byKey_of_perm {items' : List α} (hnodup : (items.map key).Nodup)
    (h : items'.Perm items) : byKey key k items' = byKey key k items := by
  have hnodup' : (items'.map key).Nodup := (h.map key).nodup_iff.2 hnodup
  refine Option.ext fun a => ⟨fun ha => ?_, fun ha => ?_⟩
  · obtain rfl := key_of_byKey ha
    exact byKey_of_mem hnodup (h.mem_iff.1 (mem_of_byKey ha))
  · obtain rfl := key_of_byKey ha
    exact byKey_of_mem hnodup' (h.mem_iff.2 (mem_of_byKey ha))

/-- Tables in which the same is found hold the same. -/
theorem perm_of_byKey {items' : List α} (hnodup : (items.map key).Nodup)
    (hnodup' : (items'.map key).Nodup) (h : ∀ k, byKey key k items = byKey key k items') :
    items.Perm items' := by
  rw [List.perm_ext_iff_of_nodup hnodup.of_map hnodup'.of_map]
  intro a
  rw [mem_iff_byKey hnodup, mem_iff_byKey hnodup', h]

end Superiority
