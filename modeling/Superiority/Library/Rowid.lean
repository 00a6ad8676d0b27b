import Mathlib.Data.List.Nodup

/-!
# Tables whose rows are numbered as they come

A table with an integer primary key that the database fills in (one more than the largest number
present) and a unique key of its own. A row that is added goes behind all others, so the table is
a list in the order of the numbers. Deleted rows leave gaps, but where the **last** rows are
deleted their numbers are given out again.

A reader follows the table by its numbers: it asks for the rows above the last number it has seen.

Main results:

* `rows_insertAll`, `mem_arrivals` – what a batch of insertions adds, and under which numbers;
* `mem_page_of_le` – a page leaves out nothing between the cursors before and after it.
-/

namespace Superiority

/-- A row: its number, its unique key and its other columns. -/
structure NumberedRow (κ ρ : Type*) where
  id : Nat
  key : κ
  row : ρ
  deriving DecidableEq, Repr

/-- The rows of a table, in the order of their numbers. -/
structure RowTable (κ ρ : Type*) where
  rows : List (NumberedRow κ ρ)
  ascending : rows.Pairwise fun a b => a.id < b.id
  unique : rows.Pairwise fun a b => a.key ≠ b.key
  positive : ∀ entry ∈ rows, 0 < entry.id

variable {κ ρ : Type*}

namespace RowTable

/-- The table without rows. -/
def empty : RowTable κ ρ where
  rows := []
  ascending := .nil
  unique := .nil
  positive := by simp

/-- The largest number present. -/
def largestId (t : RowTable κ ρ) : Nat := (t.rows.getLast?.map (·.id)).getD 0

theorem id_le_largestId (t : RowTable κ ρ) {entry : NumberedRow κ ρ} (h : entry ∈ t.rows) :
    entry.id ≤ t.largestId := by
  have hne := List.ne_nil_of_mem h
  have hasc := t.ascending
  rw [largestId, List.getLast?_eq_some_getLast hne, Option.map_some, Option.getD_some]
  rw [← List.dropLast_append_getLast hne] at h hasc
  rcases List.mem_append.1 h with hinit | hlast
  · exact Nat.le_of_lt ((List.pairwise_append.1 hasc).2.2 entry hinit _ (by simp))
  · exact Nat.le_of_eq (congrArg _ (List.mem_singleton.1 hlast))

/-- A row is told by its number. -/
theorem eq_of_id_eq (t : RowTable κ ρ) {a b : NumberedRow κ ρ} (ha : a ∈ t.rows)
    (hb : b ∈ t.rows) (h : a.id = b.id) : a = b :=
  List.inj_on_of_nodup_map (List.pairwise_map.2 (t.ascending.imp fun h => Nat.ne_of_lt h)) ha hb h

/-- A row is told by its key. -/
theorem eq_of_key_eq (t : RowTable κ ρ) {a b : NumberedRow κ ρ} (ha : a ∈ t.rows)
    (hb : b ∈ t.rows) (h : a.key = b.key) : a = b :=
  List.inj_on_of_nodup_map (List.pairwise_map.2 t.unique) ha hb h

/-- The row of a key. -/
def get? [DecidableEq κ] (t : RowTable κ ρ) (key : κ) : Option ρ :=
  (t.rows.find? fun entry => entry.key = key).map (·.row)

theorem get?_eq_some [DecidableEq κ] {t : RowTable κ ρ} {key : κ} {row : ρ} :
    t.get? key = some row ↔ ∃ id, ⟨id, key, row⟩ ∈ t.rows := by
  rw [get?, Option.map_eq_some_iff]
  constructor
  · rintro ⟨entry, hfind, rfl⟩
    have hkey : entry.key = key := by simpa using List.find?_some hfind
    exact ⟨entry.id, hkey ▸ List.mem_of_find?_eq_some hfind⟩
  · rintro ⟨id, hmem⟩
    cases hfind : t.rows.find? fun entry => entry.key = key with
    | none => simpa using List.find?_eq_none.1 hfind _ hmem
    | some entry =>
      have hkey : entry.key = key := by simpa using List.find?_some hfind
      have hsame := t.eq_of_key_eq (List.mem_of_find?_eq_some hfind) hmem hkey
      exact ⟨entry, rfl, by rw [hsame]⟩

/-! ## Deleting -/

/-- `DELETE … WHERE`. -/
def deleteWhere (t : RowTable κ ρ) (p : NumberedRow κ ρ → Bool) : RowTable κ ρ where
  rows := t.rows.filter fun entry => !p entry
  ascending := t.ascending.filter _
  unique := t.unique.filter _
  positive entry h := t.positive entry (List.mem_filter.1 h).1

theorem mem_deleteWhere {t : RowTable κ ρ} {p : NumberedRow κ ρ → Bool} {entry : NumberedRow κ ρ} :
    entry ∈ (t.deleteWhere p).rows ↔ entry ∈ t.rows ∧ p entry = false := by
  simp [deleteWhere]

theorem get?_deleteWhere [DecidableEq κ] (t : RowTable κ ρ) (p : ρ → Bool) (key : κ) :
    (t.deleteWhere fun entry => p entry.row).get? key = (t.get? key).filter fun row => !p row := by
  ext row
  simp only [get?_eq_some, mem_deleteWhere, Option.filter_eq_some_iff, Bool.not_eq_true',
    exists_and_right]

/-! ## Inserting -/

section Insert

variable [DecidableEq κ]

/-- Whether there is a row of a key. -/
def has (t : RowTable κ ρ) (key : κ) : Bool := t.rows.any fun entry => entry.key = key

theorem has_iff {t : RowTable κ ρ} {key : κ} :
    t.has key = true ↔ ∃ entry ∈ t.rows, entry.key = key := by
  simp [has]

/-- The row of a new key, under the next number. -/
def added (t : RowTable κ ρ) (key : κ) (row : ρ) : NumberedRow κ ρ := ⟨t.largestId + 1, key, row⟩

/-- `INSERT OR IGNORE`. -/
def insertOrIgnore (t : RowTable κ ρ) (key : κ) (row : ρ) : RowTable κ ρ :=
  if h : t.has key = true then t
  else {
    rows := t.rows ++ [t.added key row]
    ascending := List.pairwise_append.2 ⟨t.ascending, List.pairwise_singleton _ _, by
      intro entry hentry last hlast
      rw [List.mem_singleton.1 hlast]
      exact Nat.lt_succ_of_le (t.id_le_largestId hentry)⟩
    unique := List.pairwise_append.2 ⟨t.unique, List.pairwise_singleton _ _, by
      intro entry hentry last hlast heq
      rw [List.mem_singleton.1 hlast] at heq
      exact h (has_iff.2 ⟨entry, hentry, heq⟩)⟩
    positive entry hentry := by
      rcases List.mem_append.1 hentry with hold | hnew
      · exact t.positive entry hold
      · rw [List.mem_singleton.1 hnew]
        exact Nat.succ_pos _ }

theorem insertOrIgnore_of_has {t : RowTable κ ρ} {key : κ} (h : t.has key = true) (row : ρ) :
    t.insertOrIgnore key row = t := dif_pos h

theorem rows_insertOrIgnore {t : RowTable κ ρ} {key : κ} (h : ¬ t.has key = true) (row : ρ) :
    (t.insertOrIgnore key row).rows = t.rows ++ [t.added key row] := by
  rw [insertOrIgnore, dif_neg h]

theorem largestId_insertOrIgnore {t : RowTable κ ρ} {key : κ} (h : ¬ t.has key = true)
    (row : ρ) : (t.insertOrIgnore key row).largestId = t.largestId + 1 := by
  simp [largestId, rows_insertOrIgnore h, added]

theorem get?_insertOrIgnore (t : RowTable κ ρ) (key : κ) (row : ρ) (key' : κ) :
    (t.insertOrIgnore key row).get? key' =
      if key = key' ∧ ¬ t.has key = true then some row else t.get? key' := by
  by_cases hhas : t.has key = true
  · rw [insertOrIgnore_of_has hhas, if_neg fun h => h.2 hhas]
  · rw [get?, rows_insertOrIgnore hhas, List.find?_append, get?]
    by_cases hkey : key = key'
    · have hnone : (t.rows.find? fun entry => entry.key = key') = none := by
        refine List.find?_eq_none.2 fun entry hentry heq => hhas ?_
        exact has_iff.2 ⟨entry, hentry, by simpa [hkey] using heq⟩
      rw [if_pos ⟨hkey, hhas⟩, hnone]
      simp [added, hkey]
    · rw [if_neg fun h => hkey h.1]
      simp [added, hkey]

theorem has_eq_isSome (t : RowTable κ ρ) (key : κ) : t.has key = (t.get? key).isSome := by
  rw [Bool.eq_iff_iff, has_iff, Option.isSome_iff_exists]
  constructor
  · rintro ⟨entry, hmem, rfl⟩
    exact ⟨entry.row, get?_eq_some.2 ⟨entry.id, hmem⟩⟩
  · rintro ⟨row, hrow⟩
    obtain ⟨id, hmem⟩ := get?_eq_some.1 hrow
    exact ⟨_, hmem, rfl⟩

/-- One insertion after another. -/
def insertAll (t : RowTable κ ρ) (rows : List (κ × ρ)) : RowTable κ ρ :=
  rows.foldl (fun t row => t.insertOrIgnore row.1 row.2) t

theorem get?_insertAll_of_ne {t : RowTable κ ρ} {rows : List (κ × ρ)} {key : κ}
    (h : ∀ row ∈ rows, row.1 ≠ key) : (t.insertAll rows).get? key = t.get? key := by
  induction rows generalizing t with
  | nil => rfl
  | cons row rows ih =>
    have hrest := ih (t := t.insertOrIgnore row.1 row.2)
      fun later hlater => h later (List.mem_cons_of_mem _ hlater)
    rw [get?_insertOrIgnore, if_neg fun heq => h row List.mem_cons_self heq.1] at hrest
    exact hrest

/-- What a batch of insertions adds. -/
def arrivals (t : RowTable κ ρ) : List (κ × ρ) → List (NumberedRow κ ρ)
  | [] => []
  | (key, row) :: rows =>
    if t.has key then t.arrivals rows
    else t.added key row :: (t.insertOrIgnore key row).arrivals rows

theorem rows_insertAll (t : RowTable κ ρ) (rows : List (κ × ρ)) :
    (t.insertAll rows).rows = t.rows ++ t.arrivals rows := by
  induction rows generalizing t with
  | nil => simp [insertAll, arrivals]
  | cons row rows ih =>
    have hstep : t.insertAll (row :: rows) = (t.insertOrIgnore row.1 row.2).insertAll rows := rfl
    rw [hstep, arrivals]
    by_cases h : t.has row.1 = true
    · rw [if_pos h, insertOrIgnore_of_has h, ih]
    · rw [if_neg h, ih, rows_insertOrIgnore h]
      simp

/-- The numbers a batch gives out are those behind the largest one present. -/
theorem arrivals_ids (t : RowTable κ ρ) (rows : List (κ × ρ)) :
    (t.arrivals rows).map (·.id) =
      (List.range (t.arrivals rows).length).map (t.largestId + 1 + ·) := by
  induction rows generalizing t with
  | nil => rfl
  | cons row rows ih =>
    rw [arrivals]
    by_cases h : t.has row.1 = true
    · rw [if_pos h, ih]
    · rw [if_neg h, List.map_cons, ih, largestId_insertOrIgnore h, List.length_cons,
        List.range_succ_eq_map, List.map_cons, List.map_map]
      congr 1
      refine List.map_congr_left fun i _ => ?_
      show t.largestId + 1 + 1 + i = t.largestId + 1 + (i + 1)
      omega

theorem largestId_lt_of_mem_arrivals {t : RowTable κ ρ} {rows : List (κ × ρ)}
    {entry : NumberedRow κ ρ} (h : entry ∈ t.arrivals rows) : t.largestId < entry.id := by
  have hid : entry.id ∈ (t.arrivals rows).map (·.id) := List.mem_map_of_mem h
  rw [arrivals_ids] at hid
  obtain ⟨i, -, hi⟩ := List.mem_map.1 hid
  omega

/-- Only keys that the table did not have are added, and only rows of the batch. -/
theorem mem_arrivals {t : RowTable κ ρ} {rows : List (κ × ρ)} {entry : NumberedRow κ ρ}
    (h : entry ∈ t.arrivals rows) : ¬ t.has entry.key = true ∧ (entry.key, entry.row) ∈ rows := by
  induction rows generalizing t with
  | nil => cases h
  | cons row rows ih =>
    rw [arrivals] at h
    by_cases hhas : t.has row.1 = true
    · rw [if_pos hhas] at h
      exact ⟨(ih h).1, List.mem_cons_of_mem _ (ih h).2⟩
    · rw [if_neg hhas] at h
      rcases List.mem_cons.1 h with rfl | htail
      · exact ⟨hhas, List.mem_cons_self⟩
      · obtain ⟨hnew, hmem⟩ := ih htail
        refine ⟨fun hold => hnew ?_, List.mem_cons_of_mem _ hmem⟩
        obtain ⟨other, hother, hkey⟩ := has_iff.1 hold
        refine has_iff.2 ⟨other, ?_, hkey⟩
        rw [rows_insertOrIgnore hhas]
        exact List.mem_append_left _ hother

end Insert

end RowTable

/-! ## Reading page by page -/

/-- The last rows (`ORDER BY id DESC LIMIT …`, turned round), or those above a number
(`id > … ORDER BY id ASC LIMIT …`). -/
def page (rows : List (NumberedRow κ ρ)) (after : Option Nat) (limit : Nat) :
    List (NumberedRow κ ρ) :=
  match after with
  | none => (rows.reverse.take limit).reverse
  | some after => (rows.filter fun entry => after < entry.id).take limit

/-- Where the next page goes on: at the last row of this one, or where this one began. -/
def cursorOf (rows : List (NumberedRow κ ρ)) (after : Option Nat) : Nat :=
  match rows.getLast? with
  | some entry => entry.id
  | none => after.getD 0

section Page

variable {rows : List (NumberedRow κ ρ)} {entry : NumberedRow κ ρ} {after : Option Nat}
  {limit : Nat}

theorem page_sublist (rows : List (NumberedRow κ ρ)) (after : Option Nat) (limit : Nat) :
    (page rows after limit).Sublist rows := by
  cases after with
  | none =>
    have htake := (List.take_sublist limit rows.reverse).reverse
    rwa [List.reverse_reverse] at htake
  | some after => exact (List.take_sublist _ _).trans List.filter_sublist

theorem lt_of_mem_page {after : Nat} (h : entry ∈ page rows (some after) limit) :
    after < entry.id := by
  have hmem := List.mem_of_mem_take h
  simpa using (List.mem_filter.1 hmem).2

/-- No row of a page is above the cursor it leaves. -/
theorem le_cursorOf {rows : List (NumberedRow κ ρ)} (hrows : rows.Pairwise fun a b => a.id < b.id)
    (h : entry ∈ rows) : entry.id ≤ cursorOf rows after := by
  have hne := List.ne_nil_of_mem h
  rw [cursorOf, List.getLast?_eq_some_getLast hne]
  rw [← List.dropLast_append_getLast hne] at h hrows
  rcases List.mem_append.1 h with hinit | hlast
  · exact Nat.le_of_lt ((List.pairwise_append.1 hrows).2.2 entry hinit _ (by simp))
  · exact Nat.le_of_eq (congrArg _ (List.mem_singleton.1 hlast))

/-- The cursor never goes back. -/
theorem after_le_cursorOf {after : Nat} (rows : List (NumberedRow κ ρ)) (limit : Nat) :
    after ≤ cursorOf (page rows (some after) limit) (some after) := by
  rw [cursorOf]
  cases hlast : (page rows (some after) limit).getLast? with
  | none => exact Nat.le_refl after
  | some entry => exact Nat.le_of_lt (lt_of_mem_page (List.mem_of_getLast? hlast))

/-- **A page leaves out nothing below its cursor.** -/
theorem mem_page_of_le {after : Nat} (hrows : rows.Pairwise fun a b => a.id < b.id)
    (h : entry ∈ rows) (hafter : after < entry.id)
    (hle : entry.id ≤ cursorOf (page rows (some after) limit) (some after)) :
    entry ∈ page rows (some after) limit := by
  have hmem : entry ∈ rows.filter fun entry => after < entry.id :=
    List.mem_filter.2 ⟨h, by simpa using hafter⟩
  have hasc := hrows.filter fun entry => after < entry.id
  rw [page] at hle ⊢
  rw [← List.take_append_drop limit (rows.filter fun entry => after < entry.id)] at hmem hasc
  rcases List.mem_append.1 hmem with htake | hdrop
  · exact htake
  · -- a row behind the page is above its last row
    exfalso
    rw [cursorOf] at hle
    cases hlast : ((rows.filter fun entry => after < entry.id).take limit).getLast? with
    | none =>
      rw [hlast] at hle
      exact absurd hafter (Nat.not_lt.2 hle)
    | some last =>
      rw [hlast] at hle
      have hlt := (List.pairwise_append.1 hasc).2.2 last (List.mem_of_getLast? hlast) entry hdrop
      exact absurd hlt (Nat.not_lt.2 hle)

end Page

end Superiority
