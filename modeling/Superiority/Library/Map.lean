import Mathlib.Tactic
import Std.Data.ExtTreeMap
import Std.Data.ExtTreeSet

/-!
# Refiling the entries of ordered maps

Three operations on `Std.ExtTreeMap`, with their lookup lemmas.

* `fillFrom kept moved` adds to `kept` the entries of `moved` whose keys it does not have.
* `joinAll key join items m` puts items in, each joined with what is filed under its key.
* `moveKey m old new join` takes the entry under `old` out and files it under `new`; an entry that
  is already there is combined with it by `join`.

**`mem_moveKey`** says which keys are left, **`getElem?_moveKey_of_ne`** that every other entry
is untouched.
-/

namespace Superiority

open Std

variable {κ ν : Type*} [Ord κ] [TransOrd κ] [LawfulEqOrd κ]

/-! ## Other keys -/

theorem getElem?_insert_of_ne {m : ExtTreeMap κ ν} {k k' : κ} (h : k ≠ k') (v : ν) :
    (m.insert k v)[k']? = m[k']? := by
  rw [ExtTreeMap.getElem?_insert, if_neg (by rwa [Std.compare_eq_iff_eq])]

theorem getElem?_erase_of_ne {m : ExtTreeMap κ ν} {k k' : κ} (h : k ≠ k') :
    (m.erase k)[k']? = m[k']? := by
  rw [ExtTreeMap.getElem?_erase, if_neg (by rwa [Std.compare_eq_iff_eq])]

/-- An entry of a map that was made from a list is an entry of the list. -/
theorem mem_of_getElem?_ofList [BEq κ] [LawfulBEqOrd κ] {entries : List (κ × ν)} {k : κ} {v : ν}
    (h : (ExtTreeMap.ofList entries)[k]? = some v) : (k, v) ∈ entries := by
  rw [ExtTreeMap.ofList_eq_insertMany_empty, ExtTreeMap.getElem?_insertMany_list] at h
  rw [ExtTreeMap.getElem?_empty, Option.or_none, List.findSomeRev?_eq_findSome?_reverse] at h
  obtain ⟨⟨k', v'⟩, hmem, hv⟩ := List.exists_of_findSome?_eq_some h
  by_cases hk : compare k' k = .eq
  · obtain rfl := Std.LawfulEqCmp.eq_of_compare hk
    obtain rfl : v' = v := by simpa using hv
    exact List.mem_reverse.1 hmem
  · simp [hk] at hv

/-- The values of a map, in the order of their keys. -/
def valuesOf (m : ExtTreeMap κ ν) : List ν := m.toList.map (·.2)

theorem mem_valuesOf {m : ExtTreeMap κ ν} {v : ν} :
    v ∈ valuesOf m ↔ ∃ k : κ, m[k]? = some v := by
  simp [valuesOf, ExtTreeMap.mem_toList_iff_getElem?_eq_some]

/-- An entry, and the entries without it. -/
theorem toList_perm_erase {m : ExtTreeMap κ ν} {k : κ} {v : ν} (h : m[k]? = some v) :
    m.toList.Perm ((k, v) :: (m.erase k).toList) := by
  have hnodup (m : ExtTreeMap κ ν) : m.toList.Nodup := by
    refine (ExtTreeMap.distinct_keys_toList (t := m)).imp fun {a b} hab heq => hab ?_
    rw [heq, Std.compare_eq_iff_eq]
  have hnot : (k, v) ∉ (m.erase k).toList := by
    rw [ExtTreeMap.mem_toList_iff_getElem?_eq_some, ExtTreeMap.getElem?_erase_self]
    exact (Option.some_ne_none v).symm
  rw [List.perm_ext_iff_of_nodup (hnodup m) (List.nodup_cons.2 ⟨hnot, hnodup _⟩)]
  intro ⟨k', v'⟩
  rw [List.mem_cons, ExtTreeMap.mem_toList_iff_getElem?_eq_some,
    ExtTreeMap.mem_toList_iff_getElem?_eq_some]
  by_cases hk : k = k'
  · subst hk
    rw [ExtTreeMap.getElem?_erase_self, h]
    simp [eq_comm]
  · rw [getElem?_erase_of_ne hk]
    simp [Ne.symm hk]

/-! ## Filling a map from another -/

/-- The entries of `moved` join `kept` where it has none of its own. -/
def fillFrom (kept moved : ExtTreeMap κ ν) : ExtTreeMap κ ν :=
  moved.foldl (fun acc k v => acc.insertIfNew k v) kept

private theorem getElem?_foldl_insertIfNew [DecidableEq κ] (entries : List (κ × ν))
    (acc : ExtTreeMap κ ν) (k : κ) :
    (entries.foldl (fun acc e => acc.insertIfNew e.1 e.2) acc)[k]? =
      acc[k]?.or (entries.findSome? fun e => if e.1 = k then some e.2 else none) := by
  induction entries generalizing acc with
  | nil => simp
  | cons e entries ih =>
    simp only [List.foldl_cons, ih, ExtTreeMap.getElem?_insertIfNew, List.findSome?_cons,
      Std.compare_eq_iff_eq]
    by_cases he : e.1 = k
    · by_cases hk : k ∈ acc
      · simp [he, hk]
      · simp [he, hk]
    · simp [he]

/-- A key keeps its own entry, and takes the moved one when it has none. -/
theorem getElem?_fillFrom {kept moved : ExtTreeMap κ ν} {k : κ} :
    (fillFrom kept moved)[k]? = kept[k]?.or moved[k]? := by
  classical
  have hfind : (moved.toList.findSome? fun e => if e.1 = k then some e.2 else none) =
      moved[k]? := by
    cases hk : moved[k]? with
    | none =>
      rw [List.findSome?_eq_none_iff]
      intro e he
      rw [ExtTreeMap.mem_toList_iff_getElem?_eq_some] at he
      rw [if_neg]
      intro hek
      rw [hek, hk] at he
      cases he
    | some v =>
      have hmem : (k, v) ∈ moved.toList := ExtTreeMap.mem_toList_iff_getElem?_eq_some.2 hk
      cases hfound : moved.toList.findSome? fun e => if e.1 = k then some e.2 else none with
      | none =>
        rw [List.findSome?_eq_none_iff] at hfound
        simpa using hfound (k, v) hmem
      | some w =>
        obtain ⟨e, he, hw⟩ := List.exists_of_findSome?_eq_some hfound
        rw [ExtTreeMap.mem_toList_iff_getElem?_eq_some] at he
        split_ifs at hw with hek
        rw [hek, hk] at he
        rw [← hw]
        exact he.symm
  rw [fillFrom, ExtTreeMap.foldl_eq_foldl_toList, getElem?_foldl_insertIfNew, hfind]

theorem mem_fillFrom {kept moved : ExtTreeMap κ ν} {k : κ} :
    k ∈ fillFrom kept moved ↔ k ∈ kept ∨ k ∈ moved := by
  simp only [ExtTreeMap.mem_iff_isSome_getElem?, getElem?_fillFrom, Option.isSome_or,
    Bool.or_eq_true]

/-! ## Many insertions, many removals -/

theorem mem_foldl_insert {ι : Type*} (key : ι → κ) (value : ι → ν) (items : List ι)
    (m : ExtTreeMap κ ν) (k : κ) :
    k ∈ items.foldl (fun acc i => acc.insert (key i) (value i)) m ↔
      k ∈ m ∨ ∃ i ∈ items, key i = k := by
  induction items generalizing m with
  | nil => simp
  | cons i items ih =>
    rw [List.foldl_cons, ih, ExtTreeMap.mem_insert, Std.compare_eq_iff_eq]
    simp only [List.mem_cons, exists_eq_or_imp]
    tauto

/-- Each item goes in under its key, joined with what is there before it. -/
def joinAll {ι : Type*} (key : ι → κ) (join : Option ν → ι → ν) (items : List ι)
    (m : ExtTreeMap κ ν) : ExtTreeMap κ ν :=
  items.foldl (fun acc i => acc.insert (key i) (join acc[key i]? i)) m

theorem getElem?_joinAll_of_not_mem {ι : Type*} {key : ι → κ} {join : Option ν → ι → ν}
    {items : List ι} {m : ExtTreeMap κ ν} {k : κ} (hk : ∀ i ∈ items, key i ≠ k) :
    (joinAll key join items m)[k]? = m[k]? := by
  induction items generalizing m with
  | nil => rfl
  | cons first items ih =>
    rw [joinAll, List.foldl_cons, ← joinAll, ih fun i hi => hk i (List.mem_cons_of_mem _ hi)]
    exact getElem?_insert_of_ne (hk first List.mem_cons_self) _

/-- Items with different keys do not meet: each is joined with what the map had. -/
theorem getElem?_joinAll_of_mem {ι : Type*} {key : ι → κ} {join : Option ν → ι → ν}
    {items : List ι} {m : ExtTreeMap κ ν} (hnodup : (items.map key).Nodup) {i : ι}
    (hi : i ∈ items) : (joinAll key join items m)[key i]? = some (join m[key i]? i) := by
  induction items generalizing m with
  | nil => exact absurd hi List.not_mem_nil
  | cons first items ih =>
    rw [List.map_cons, List.nodup_cons] at hnodup
    rcases List.mem_cons.1 hi with rfl | hi
    · have hlater : ∀ j ∈ items, key j ≠ key i := by
        intro j hj heq
        exact hnodup.1 (heq ▸ List.mem_map_of_mem hj)
      rw [joinAll, List.foldl_cons, ← joinAll, getElem?_joinAll_of_not_mem hlater]
      exact ExtTreeMap.getElem?_insert_self
    · have hne : key first ≠ key i := fun h => hnodup.1 (h ▸ List.mem_map_of_mem hi)
      rw [joinAll, List.foldl_cons, ← joinAll, ih hnodup.2 hi, getElem?_insert_of_ne hne]

/-- A map with as many keys as another, all of them keys of that one, has them all. -/
theorem mem_of_size_eq {m m' : ExtTreeMap κ ν} (hsub : ∀ k ∈ m, k ∈ m') (hsize : m.size = m'.size)
    {k : κ} (hk : k ∈ m') : k ∈ m := by
  classical
  have hfinset : m.keys.toFinset ⊆ m'.keys.toFinset := by
    intro k hk
    rw [List.mem_toFinset, ExtTreeMap.mem_keys] at hk ⊢
    exact hsub k hk
  have hcard : m'.keys.toFinset.card ≤ m.keys.toFinset.card := by
    rw [List.toFinset_card_of_nodup ExtTreeMap.nodup_keys,
      List.toFinset_card_of_nodup ExtTreeMap.nodup_keys, ExtTreeMap.length_keys,
      ExtTreeMap.length_keys, hsize]
  have hmem : k ∈ m'.keys.toFinset := by
    rw [List.mem_toFinset, ExtTreeMap.mem_keys]
    exact hk
  rw [← Finset.eq_of_subset_of_card_le hfinset hcard, List.mem_toFinset,
    ExtTreeMap.mem_keys] at hmem
  exact hmem

theorem mem_foldl_erase (keys : List κ) (m : ExtTreeMap κ ν) (k : κ) :
    k ∈ keys.foldl (·.erase ·) m ↔ k ∈ m ∧ k ∉ keys := by
  induction keys generalizing m with
  | nil => simp
  | cons key keys ih =>
    rw [List.foldl_cons, ih, ExtTreeMap.mem_erase, List.mem_cons, not_or, ne_eq,
      Std.compare_eq_iff_eq, eq_comm (a := key)]
    tauto

/-! ## Moving an entry to another key -/

/-- The entry under `old`, if any, is taken out and filed under `new`. -/
def moveKey (m : ExtTreeMap κ ν) (old new : κ) (join : ν → ν → ν) : ExtTreeMap κ ν :=
  match m[old]? with
  | none => m
  | some v =>
    let rest := m.erase old
    match rest[new]? with
    | none => rest.insert new v
    | some kept => rest.insert new (join kept v)

theorem getElem?_moveKey_of_ne {m : ExtTreeMap κ ν} {old new k : κ} {join : ν → ν → ν}
    (hold : k ≠ old) (hnew : k ≠ new) : (moveKey m old new join)[k]? = m[k]? := by
  unfold moveKey
  split
  · rfl
  · dsimp only
    split <;> simp [ExtTreeMap.getElem?_insert, ExtTreeMap.getElem?_erase, hold.symm, hnew.symm]

/-- The entry found under the new key. -/
theorem getElem?_moveKey_new {m : ExtTreeMap κ ν} {old new : κ} {join : ν → ν → ν}
    (hne : old ≠ new) :
    (moveKey m old new join)[new]? =
      match m[old]?, m[new]? with
      | none, kept => kept
      | some v, none => some v
      | some v, some kept => some (join kept v) := by
  unfold moveKey
  cases hold : m[old]? with
  | none => rfl
  | some v =>
    have hrest : (m.erase old)[new]? = m[new]? := by
      simp [ExtTreeMap.getElem?_erase, hne]
    simp only [hrest]
    cases m[new]? <;> simp

theorem mem_moveKey {m : ExtTreeMap κ ν} {old new k : κ} {join : ν → ν → ν} (hne : old ≠ new) :
    k ∈ moveKey m old new join ↔ k ≠ old ∧ (k ∈ m ∨ k = new ∧ old ∈ m) := by
  simp only [ExtTreeMap.mem_iff_isSome_getElem?]
  by_cases hk : k = new
  · subst hk
    rw [getElem?_moveKey_new hne]
    cases m[old]? <;> cases m[k]? <;> simp [hne.symm]
  · by_cases hk' : k = old
    · subst hk'
      unfold moveKey
      split
      · rename_i hnone
        simp [hnone]
      · dsimp only
        split <;> simp [hne.symm]
    · rw [getElem?_moveKey_of_ne hk' hk]
      simp [hk, hk']

omit [LawfulEqOrd κ] in
theorem size_pos_of_mem {m : ExtTreeMap κ ν} {k : κ} (hk : k ∈ m) : 0 < m.size := by
  rw [Nat.pos_iff_ne_zero]
  intro h
  rw [ExtTreeMap.eq_empty_iff_size_eq_zero.2 h] at hk
  exact absurd hk ExtTreeMap.not_mem_empty

omit [LawfulEqOrd κ] in
theorem size_moveKey_le {m : ExtTreeMap κ ν} {old new : κ} {join : ν → ν → ν} :
    (moveKey m old new join).size ≤ m.size := by
  unfold moveKey
  cases hold : m[old]? with
  | none => exact le_rfl
  | some v =>
    have hmem : old ∈ m := ExtTreeMap.mem_iff_isSome_getElem?.2 (by simp [hold])
    have hpos := size_pos_of_mem hmem
    dsimp only
    have hsize : (m.erase old).size = m.size - 1 := by simp [ExtTreeMap.size_erase, hmem]
    split <;> rw [ExtTreeMap.size_insert, hsize] <;> split_ifs <;> omega

/-- Moving an entry onto another leaves one entry fewer. -/
theorem size_moveKey_lt {m : ExtTreeMap κ ν} {old new : κ} {join : ν → ν → ν} (hne : old ≠ new)
    (hold : old ∈ m) (hnew : new ∈ m) : (moveKey m old new join).size < m.size := by
  have hpos := size_pos_of_mem hold
  have hrest : new ∈ m.erase old :=
    ExtTreeMap.mem_erase.2 ⟨fun h => hne (Std.compare_eq_iff_eq.1 h), hnew⟩
  unfold moveKey
  rw [ExtTreeMap.getElem?_eq_some_getElem hold]
  dsimp only
  have hsize : (m.erase old).size = m.size - 1 := by simp [ExtTreeMap.size_erase, hold]
  split <;> rw [ExtTreeMap.size_insert, hsize, if_pos (ExtTreeMap.contains_iff_mem.2 hrest)] <;>
    omega

/-- Moving the entry of a set. -/
def moveMember (s : ExtTreeSet κ) (old new : κ) : ExtTreeSet κ :=
  if s.contains old then (s.erase old).insert new else s

theorem mem_moveMember {s : ExtTreeSet κ} {old new k : κ} (hne : old ≠ new) :
    k ∈ moveMember s old new ↔ k ≠ old ∧ (k ∈ s ∨ k = new ∧ old ∈ s) := by
  unfold moveMember
  by_cases hold : old ∈ s
  · simp only [ExtTreeSet.contains_iff_mem.2 hold, if_true, ExtTreeSet.mem_insert,
      ExtTreeSet.mem_erase, Std.compare_eq_iff_eq, ne_eq, hold, and_true]
    constructor
    · rintro (rfl | ⟨hk, hs⟩)
      · exact ⟨fun h => hne h.symm, Or.inr rfl⟩
      · exact ⟨fun h => hk h.symm, Or.inl hs⟩
    · rintro ⟨hk, hs | rfl⟩
      · exact Or.inr ⟨fun h => hk h.symm, hs⟩
      · exact Or.inl rfl
  · have hc : s.contains old = false := by
      simpa [← ExtTreeSet.contains_iff_mem] using hold
    simp only [hc, Bool.false_eq_true, if_false, hold, and_false, or_false]
    refine ⟨fun hk => ⟨fun h => hold (h ▸ hk), hk⟩, fun h => h.2⟩

end Superiority
