import Mathlib.Data.List.Nodup
import Mathlib.Data.List.Perm.Basic

/-!
# The first of each key

A loop that keeps an item when it has not seen its key before gathers the first item of each key.

* **`kept_pushes`** – what such a loop gathers, from whatever it has seen.
* **`firsts_filter_perm_iff`** – when gathering from a filtered list gives the gathered items that
  pass another filter.
-/

namespace Superiority

variable {α β κ : Type*} [DecidableEq κ] (key : α → κ)

/-- The first of the items with each key, in their order. -/
def firsts : List α → List α
  | [] => []
  | a :: items => a :: (firsts items).filter (key · ≠ key a)

/-! ## The loop -/

/-- The keys that a loop has seen, and the items it has kept. -/
structure Gathered (α κ : Type*) where
  seen : List κ
  kept : List α

namespace Gathered

def empty : Gathered α κ := ⟨[], []⟩

def push (gathered : Gathered α κ) (a : α) : Gathered α κ :=
  if key a ∈ gathered.seen then gathered else ⟨key a :: gathered.seen, gathered.kept ++ [a]⟩

end Gathered

theorem kept_pushes (items : List α) (gathered : Gathered α κ) :
    (items.foldl (Gathered.push key) gathered).kept =
      gathered.kept ++ (firsts key items).filter (key · ∉ gathered.seen) := by
  induction items generalizing gathered with
  | nil => simp [firsts]
  | cons a items ih =>
    rw [List.foldl_cons, ih]
    by_cases ha : key a ∈ gathered.seen
    · have hsame : ∀ b ∈ firsts key items, (!decide (key b ∈ gathered.seen)) =
          (!decide (key b ∈ gathered.seen) && !decide (key b = key a)) := by
        intro b _
        by_cases hab : key b = key a <;> simp [hab, ha]
      simpa [Gathered.push, ha, firsts, List.filter_filter] using List.filter_congr hsame
    · have hswap : ∀ b ∈ firsts key items, (!decide (key b = key a ∨ key b ∈ gathered.seen)) =
          (!decide (key b ∈ gathered.seen) && !decide (key b = key a)) := by
        intro b _
        by_cases hab : key b = key a <;> simp [hab]
      simpa [Gathered.push, ha, firsts, List.filter_filter] using List.filter_congr hswap

theorem kept_pushes_empty (items : List α) :
    (items.foldl (Gathered.push key) Gathered.empty).kept = firsts key items := by
  simp [kept_pushes, Gathered.empty]

/-- Gathering what the items stand for. -/
theorem firsts_map (f : β → α) (items : List β) :
    firsts key (items.map f) = (firsts (fun b => key (f b)) items).map f := by
  induction items with
  | nil => rfl
  | cons b items ih => simp [firsts, ih, List.filter_map, Function.comp_def]

/-! ## Who is first -/

theorem mem_firsts {items : List α} {a : α} :
    a ∈ firsts key items ↔ items.find? (key · = key a) = some a := by
  induction items with
  | nil => simp [firsts]
  | cons b items ih =>
    by_cases hab : key b = key a
    · simp [firsts, hab, eq_comm]
    · have hne : a ≠ b := fun h => hab (h ▸ rfl)
      simp [firsts, hab, hne, ih, Ne.symm hab]

theorem firsts_sublist (items : List α) : (firsts key items).Sublist items := by
  induction items with
  | nil => exact List.Sublist.refl _
  | cons a items ih => exact (List.filter_sublist.trans ih).cons_cons a

theorem nodup_keys_firsts (items : List α) : ((firsts key items).map key).Nodup := by
  induction items with
  | nil => exact List.nodup_nil
  | cons a items ih =>
    rw [firsts, List.map_cons, List.nodup_cons]
    refine ⟨fun hmem => ?_, ih.sublist (List.filter_sublist.map key)⟩
    obtain ⟨b, hb, hkey⟩ := List.mem_map.1 hmem
    exact absurd hkey (by simpa using (List.mem_filter.1 hb).2)

theorem nodup_firsts (items : List α) : (firsts key items).Nodup :=
  (nodup_keys_firsts key items).of_map key

/-- Every item has a first one with its key. -/
theorem exists_firsts {items : List α} {a : α} (h : a ∈ items) :
    ∃ b ∈ firsts key items, key b = key a := by
  obtain ⟨b, hb⟩ := Option.isSome_iff_exists.1
    (List.find?_isSome (p := fun b => decide (key b = key a)).2 ⟨a, h, by simp⟩)
  have hkey : key b = key a := by simpa using List.find?_some hb
  refine ⟨b, (mem_firsts key).2 ?_, hkey⟩
  rw [hkey]
  exact hb

variable {key} in
theorem mem_of_mem_firsts {items : List α} {a : α} (h : a ∈ firsts key items) : a ∈ items :=
  List.mem_of_find?_eq_some ((mem_firsts key).1 h)

variable {key} in
/-- There is one first item of a key. -/
theorem eq_of_mem_firsts {items : List α} {a b : α} (ha : a ∈ firsts key items)
    (hb : b ∈ firsts key items) (hkey : key a = key b) : a = b := by
  rw [mem_firsts] at ha hb
  rw [hkey, hb] at ha
  exact (Option.some.inj ha).symm

variable {key} in
/-- Among the first items a key finds its own. -/
theorem find?_firsts {items : List α} {a : α} (ha : a ∈ firsts key items) :
    (firsts key items).find? (key · = key a) = some a := by
  obtain ⟨b, hb⟩ := Option.isSome_iff_exists.1
    (List.find?_isSome (p := fun b => decide (key b = key a)).2 ⟨a, ha, by simp⟩)
  have hkey : key b = key a := by simpa using List.find?_some hb
  obtain rfl : b = a := eq_of_mem_firsts (List.mem_of_find?_eq_some hb) ha hkey
  exact hb

/-- The first item of a key is still the first when it passes the filter. -/
theorem find?_filter_of_find? {items : List α} {p q : α → Bool} {a : α}
    (h : items.find? q = some a) (hp : p a = true) : (items.filter p).find? q = some a := by
  rw [List.find?_filter]
  rw [List.find?_eq_some_iff_append] at h ⊢
  obtain ⟨hq, front, back, rfl, hfront⟩ := h
  exact ⟨by simp [hp, hq], front, back, rfl, fun b hb => by simp [hfront b hb]⟩

theorem mem_firsts_filter {items : List α} {p q : α → Bool} (hqp : ∀ a ∈ items, q a → p a)
    (hfirst : ∀ a ∈ items, p a → ∀ b ∈ firsts key items, key b = key a → q b) {a : α} :
    a ∈ firsts key (items.filter p) ↔ a ∈ (firsts key items).filter q := by
  rw [List.mem_filter]
  constructor
  · intro ha
    obtain ⟨hmem, hp⟩ := List.mem_filter.1 (mem_of_mem_firsts ha)
    obtain ⟨b, hb, hkey⟩ := exists_firsts key hmem
    have hq : q b = true := hfirst a hmem hp b hb hkey
    have hfiltered := find?_filter_of_find? ((mem_firsts key).1 hb)
      (hqp b (mem_of_mem_firsts hb) hq)
    obtain rfl : b = a := by
      rw [mem_firsts, ← hkey, hfiltered] at ha
      exact Option.some.inj ha
    exact ⟨hb, hq⟩
  · intro h
    exact (mem_firsts key).2 (find?_filter_of_find? ((mem_firsts key).1 h.1)
      (hqp a (mem_of_mem_firsts h.1) h.2))

/-- Gathering from the items that pass a filter gives what is gathered and passes a narrower one
exactly when the first item of each key that an item passes with passes the narrower one. The items
are compared by an image that tells their keys. -/
theorem firsts_filter_perm_iff {items : List α} {p q : α → Bool} (hqp : ∀ a ∈ items, q a → p a)
    (image : α → β) (keyOf : β → κ) (hkeyOf : ∀ a, keyOf (image a) = key a) :
    ((firsts key (items.filter p)).map image).Perm (((firsts key items).filter q).map image) ↔
      ∀ a ∈ items, p a → ∀ b ∈ firsts key items, key b = key a → q b := by
  constructor
  · intro hperm a ha hp b hb hkey
    obtain ⟨c, hc, hca⟩ := exists_firsts key (List.mem_filter.2 ⟨ha, hp⟩)
    obtain ⟨d, hd, hdc⟩ := List.mem_map.1 (hperm.subset (List.mem_map_of_mem hc))
    have hkeys : key d = key b := by
      rw [← hkeyOf, hdc, hkeyOf, hca, hkey]
    obtain ⟨hfirst, hq⟩ := List.mem_filter.1 hd
    exact eq_of_mem_firsts hfirst hb hkeys ▸ hq
  · intro hfirst
    refine List.Perm.map image ((List.perm_ext_iff_of_nodup (nodup_firsts key _)
      ((nodup_firsts key items).filter q)).2 fun a => ?_)
    exact mem_firsts_filter key hqp hfirst

end Superiority
