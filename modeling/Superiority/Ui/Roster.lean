import Mathlib.Data.List.Nodup
import Mathlib.Data.List.Perm.Basic

/-!
# Animated rosters

The rows that a member list shows while it changes: those who left stay where they were, and those
who came are put in one by one, each before the next member who was there already.

* **`showsExactly`** – the rows show the new roster, and until the animation ends the old one.
-/

namespace Superiority.Ui

inductive RowMotion where
  | stable
  | inserted
  | removed
  deriving DecidableEq

/-- The hash sets are given by their elements. -/
structure Transition (T H : Type) where
  previous : List T
  inserted : List H
  removed : List H
  fullReveal : Bool

def maxAnimatedChanges : Nat := 24

variable {T H : Type} [DecidableEq H]

/-- The indices of those who left and of those who came, if the others keep their order. -/
def rosterDiff (previous next : List H) : Option (List Nat × List Nat) :=
  let commonPrevious := previous.filter (· ∈ next)
  let commonNext := next.filter (· ∈ previous)
  if commonPrevious = commonNext then
    some (previous.zipIdx.filterMap fun (handle, index) => if handle ∈ next then none else some index,
      next.zipIdx.filterMap fun (handle, index) => if handle ∈ previous then none else some index)
  else none

namespace Transition

def fullRevealed : Transition T H :=
  { previous := [], inserted := [], removed := [], fullReveal := true }

variable (handle : T → H)

/-- `Transition::new`. -/
def new (previous next : List T) : Option (Transition T H) :=
  let previousHandles := previous.map handle
  let nextHandles := next.map handle
  if previousHandles = nextHandles then none
  else match rosterDiff previousHandles nextHandles with
  | none => some fullRevealed
  | some (removed, inserted) =>
    if maxAnimatedChanges < removed.length + inserted.length then some fullRevealed
    else some
      { previous
        inserted := inserted.filterMap (nextHandles[·]?)
        removed := removed.filterMap (previousHandles[·]?)
        fullReveal := false }

variable (t : Transition T H)

/-- The row of an old member. -/
def oldRow (next : List T) (previous : T) : Option (T × RowMotion) :=
  if handle previous ∈ t.removed then some (previous, .removed)
  else (next.find? (handle · = handle previous)).map (·, .stable)

def oldRows (next : List T) : List (T × RowMotion) := t.previous.filterMap (t.oldRow handle next)

/-- One round of the loop that puts in those who came. -/
def insertRow (rows : List (T × RowMotion)) (item : T) (later : List T) : List (T × RowMotion) :=
  if handle item ∉ t.inserted then rows
  else
    let nextAnchor := (later.find? (handle · ∉ t.inserted)).map handle
    let insertion := (nextAnchor.bind fun anchor => rows.findIdx? (handle ·.1 = anchor)).getD rows.length
    rows.insertIdx insertion (item, .inserted)

def rows (next : List T) : List (T × RowMotion) :=
  if t.fullReveal then next.map (·, .stable)
  else next.zipIdx.foldl
    (fun rows item => t.insertRow handle rows item.1 (next.drop (item.2 + 1)))
    (t.oldRows handle next)

end Transition

/-! ## Lists by their handles -/

omit [DecidableEq H] in
/-- A list is known by its handles. -/
theorem eq_of_map_eq {f : T → H} {l₁ l₂ : List T} (h : l₁.map f = l₂.map f)
    (hinj : ∀ a ∈ l₁, ∀ b ∈ l₂, f a = f b → a = b) : l₁ = l₂ := by
  induction l₁ generalizing l₂ with
  | nil => exact (List.map_eq_nil_iff.1 h.symm).symm
  | cons a l₁ ih =>
    cases l₂ with
    | nil => cases h
    | cons b l₂ =>
      obtain ⟨hhead, htail⟩ := List.cons.inj h
      rw [hinj a List.mem_cons_self b List.mem_cons_self hhead]
      congr 1
      refine ih htail fun a' ha' b' hb' => ?_
      exact hinj a' (List.mem_cons_of_mem a ha') b' (List.mem_cons_of_mem b hb')

omit [DecidableEq H] in
theorem insertIdx_length {α : Type} (front : List α) (a : α) (back : List α) :
    (front ++ back).insertIdx front.length a = front ++ a :: back := by
  induction front with
  | nil => rfl
  | cons b front ih => simpa using ih

/-- The first row under a handle. -/
theorem exists_first {f : T → H} {rows : List (T × RowMotion)} {h : H}
    (hexists : ∃ row ∈ rows, f row.1 = h) :
    ∃ row L R, f row.1 = h ∧ rows = L ++ row :: R ∧ ∀ z ∈ L, f z.1 ≠ h := by
  have hsome : (rows.find? fun row => f row.1 = h).isSome = true := by
    rw [List.find?_isSome]
    simpa using hexists
  obtain ⟨row, hfound⟩ := Option.isSome_iff_exists.1 hsome
  obtain ⟨hrow, L, R, hrows, hL⟩ := List.find?_eq_some_iff_append.1 hfound
  exact ⟨row, L, R, by simpa using hrow, hrows, by simpa using hL⟩

/-- The first place of a handle splits a list in one way. -/
theorem front_eq {f : T → H} {x a : T} {front back done more : List T}
    (h : front ++ x :: back = done ++ a :: more) (hx : f x = f a) (hfront : ∀ z ∈ front, f z ≠ f a)
    (hdone : ∀ z ∈ done, f z ≠ f a) : front = done := by
  have htake (l : List T) (hl : ∀ z ∈ l, f z ≠ f a) (y : T) (hy : f y = f a) (rest : List T) :
      (l ++ y :: rest).takeWhile (fun z => f z ≠ f a) = l := by
    rw [List.takeWhile_append_of_pos (by simpa using hl), List.takeWhile_cons_of_neg (by simp [hy]),
      List.append_nil]
  rw [← htake front hfront x hx back, h, htake done hdone a rfl more]

/-- What the indices stand for. -/
theorem filterMap_zipIdx (l s : List H) :
    (l.zipIdx.filterMap fun (handle, index) => if handle ∈ s then none else some index).filterMap
      (l[·]?) = l.filter (· ∉ s) := by
  have hgeneral (front back : List H) (hl : l = front ++ back) :
      ((back.zipIdx front.length).filterMap fun (handle, index) =>
        if handle ∈ s then none else some index).filterMap (l[·]?) = back.filter (· ∉ s) := by
    induction back generalizing front with
    | nil => rfl
    | cons a back ih =>
      have hrest := ih (front ++ [a]) (by rw [hl, List.append_assoc]; rfl)
      rw [List.length_append, List.length_singleton] at hrest
      have hget : l[front.length]? = some a := by rw [hl]; simp
      rw [List.zipIdx_cons]
      by_cases ha : a ∈ s
      · rw [List.filterMap_cons_none (by simp [ha]), hrest, List.filter_cons_of_neg (by simpa using ha)]
      · rw [List.filterMap_cons_some (b := front.length) (by simp [ha]),
          List.filterMap_cons_some hget, hrest, List.filter_cons_of_pos (by simpa using ha)]
  exact hgeneral [] l rfl

namespace Transition

/-! ## A transition that is shown row by row -/

variable {handle : T → H} {t : Transition T H} {previous next : List T}

/-- What `new` makes when the members who stay keep their order. -/
structure Between (handle : T → H) (t : Transition T H) (previous next : List T) : Prop where
  old : t.previous = previous
  came : t.inserted = (next.map handle).filter (· ∉ previous.map handle)
  left : t.removed = (previous.map handle).filter (· ∉ next.map handle)
  common : (previous.map handle).filter (· ∈ next.map handle) =
    (next.map handle).filter (· ∈ previous.map handle)

theorem new_eq_none : new handle previous next = none ↔ previous.map handle = next.map handle := by
  rw [new]
  split_ifs with h
  · exact ⟨fun _ => h, fun _ => rfl⟩
  · constructor
    · intro hnone
      split at hnone
      · cases hnone
      · split at hnone <;> cases hnone
    · exact fun heq => absurd heq h

theorem new_eq_some (h : new handle previous next = some t) :
    t = fullRevealed ∨ t.fullReveal = false ∧ Between handle t previous next := by
  rw [new] at h
  split_ifs at h
  split at h
  · exact .inl (Option.some.inj h).symm
  · next removed inserted hdiff =>
    split_ifs at h
    · exact .inl (Option.some.inj h).symm
    · rw [rosterDiff] at hdiff
      split_ifs at hdiff with hcommon
      obtain ⟨rfl, rfl⟩ := Prod.mk.inj (Option.some.inj hdiff)
      obtain rfl := Option.some.inj h
      exact .inr ⟨rfl, rfl, filterMap_zipIdx _ _, filterMap_zipIdx _ _, hcommon⟩

section Between

variable (h : Between handle t previous next)

include h

theorem Between.mem_inserted {a : T} (ha : a ∈ next) :
    handle a ∈ t.inserted ↔ handle a ∉ previous.map handle := by
  rw [h.came, List.mem_filter, decide_eq_true_eq]
  exact and_iff_right (List.mem_map_of_mem ha)

theorem Between.mem_removed {a : T} (ha : a ∈ previous) :
    handle a ∈ t.removed ↔ handle a ∉ next.map handle := by
  rw [h.left, List.mem_filter, decide_eq_true_eq]
  exact and_iff_right (List.mem_map_of_mem ha)

/-- Each old member has a row under its handle. -/
theorem Between.oldRow {a : T} (ha : a ∈ previous) : ∃ row, t.oldRow handle next a = some row ∧
    handle row.1 = handle a ∧ (row.2 = .removed ∧ handle a ∉ next.map handle ∨
      row.2 = .stable ∧ row.1 ∈ next) := by
  by_cases hgone : handle a ∈ t.removed
  · exact ⟨_, if_pos hgone, rfl, .inl ⟨rfl, (h.mem_removed ha).1 hgone⟩⟩
  · have hstays : handle a ∈ next.map handle := by
      by_contra hno
      exact hgone ((h.mem_removed ha).2 hno)
    obtain ⟨b, hb, hba⟩ := List.mem_map.1 hstays
    have hsome : (next.find? (handle · = handle a)).isSome = true :=
      List.find?_isSome.2 ⟨b, hb, by simpa using hba⟩
    obtain ⟨found, hfound⟩ := Option.isSome_iff_exists.1 hsome
    refine ⟨(found, .stable), by rw [Transition.oldRow, if_neg hgone, hfound]; rfl, ?_, ?_⟩
    · simpa using List.find?_some hfound
    · exact .inr ⟨rfl, List.mem_of_find?_eq_some hfound⟩

theorem Between.map_oldRows :
    (t.oldRows handle next).map (handle ·.1) = previous.map handle := by
  have hsub (l : List T) (hl : ∀ a ∈ l, a ∈ previous) :
      (l.filterMap (t.oldRow handle next)).map (handle ·.1) = l.map handle := by
    induction l with
    | nil => rfl
    | cons a l ih =>
      obtain ⟨row, hrow, hhandle, -⟩ := h.oldRow (hl a List.mem_cons_self)
      rw [List.filterMap_cons_some hrow, List.map_cons, List.map_cons, hhandle,
        ih fun b hb => hl b (List.mem_cons_of_mem a hb)]
  rw [oldRows, h.old]
  exact hsub previous fun _ => id

theorem Between.mem_oldRows {row : T × RowMotion} (hrow : row ∈ t.oldRows handle next) :
    handle row.1 ∈ previous.map handle ∧ (row.2 = .removed ∧ handle row.1 ∉ next.map handle ∨
      row.2 = .stable ∧ row.1 ∈ next) := by
  rw [oldRows, h.old] at hrow
  obtain ⟨a, ha, hsome⟩ := List.mem_filterMap.1 hrow
  obtain ⟨row', hrow', hhandle, hcases⟩ := h.oldRow ha
  obtain rfl := Option.some.inj (hsome.symm.trans hrow')
  rw [hhandle]
  exact ⟨List.mem_map_of_mem ha, hcases⟩

/-- Of the old rows, those that stay show the members who were there already. -/
theorem Between.kept_oldRows (hnext : (next.map handle).Nodup) :
    ((t.oldRows handle next).filter (·.2 ≠ .removed)).map (·.1) =
      next.filter (handle · ∉ t.inserted) := by
  have hmem : ∀ row ∈ (t.oldRows handle next).filter (·.2 ≠ .removed), row.1 ∈ next := by
    intro row hrow
    obtain ⟨hrow, hstays⟩ := List.mem_filter.1 hrow
    obtain ⟨-, hgone | hstable⟩ := h.mem_oldRows hrow
    · exact absurd hgone.1 (by simpa using hstays)
    · exact hstable.2
  refine eq_of_map_eq (f := handle) ?_ fun a ha b hb hab => ?_
  · have hold : ((t.oldRows handle next).filter (·.2 ≠ .removed)).map (handle ·.1) =
        ((t.oldRows handle next).map (handle ·.1)).filter (· ∈ next.map handle) := by
      rw [List.filter_map]
      congr 1
      refine List.filter_congr fun row hrow => ?_
      obtain ⟨-, hgone | hstable⟩ := h.mem_oldRows hrow
      · simpa [hgone.1] using hgone.2
      · simpa [hstable.1] using ⟨row.1, hstable.2, rfl⟩
    have hnew : (next.filter (handle · ∉ t.inserted)).map handle =
        (next.map handle).filter (· ∈ previous.map handle) := by
      rw [List.filter_map]
      congr 1
      refine List.filter_congr fun a ha => ?_
      have hiff := h.mem_inserted ha
      simp only [Function.comp_apply]
      by_cases hin : handle a ∈ previous.map handle <;> simp_all
    rw [List.map_map, hnew, ← h.common, ← h.map_oldRows]
    exact hold
  · obtain ⟨row, hrow, rfl⟩ := List.mem_map.1 ha
    exact List.inj_on_of_nodup_map hnext (hmem row hrow) (List.mem_filter.1 hb).1 hab

/-! ## Those who came -/

omit h in
/-- The rows while `done` has been gone through and `rest` has not. -/
structure Placed (handle : T → H) (t : Transition T H) (next done rest : List T)
    (rows : List (T × RowMotion)) : Prop where
  kept : (rows.filter (·.2 ≠ .removed)).map (·.1) = done ++ rest.filter (handle · ∉ t.inserted)
  stays : rows.filter (·.2 ≠ .inserted) = t.oldRows handle next
  came : ∀ row ∈ rows, row.2 = .inserted → handle row.1 ∈ t.inserted

omit h in
/-- A row is put in somewhere. -/
theorem Placed.insert {done rest : List T} {item : T} {rows L R : List (T × RowMotion)}
    (hplaced : Placed handle t next done (item :: rest) rows) (hitem : handle item ∈ t.inserted)
    (hrows : rows = L ++ R) (hfront : (L.filter (·.2 ≠ .removed)).map (·.1) = done) :
    Placed handle t next (done ++ [item]) rest (L ++ (item, .inserted) :: R) := by
  subst hrows
  have hkept := hplaced.kept
  rw [List.filter_append, List.map_append, hfront, List.append_cancel_left_eq,
    List.filter_cons_of_neg (by simpa using hitem)] at hkept
  have hstays := hplaced.stays
  refine ⟨?_, ?_, fun row hrow hins => ?_⟩
  · rw [List.filter_append, List.map_append, hfront, List.filter_cons_of_pos (by simp),
      List.map_cons, hkept, List.append_assoc]
    rfl
  · rw [List.filter_append] at hstays ⊢
    rw [List.filter_cons_of_neg (by simp), hstays]
  · rcases List.mem_append.1 hrow with hrow | hrow
    · exact hplaced.came row (List.mem_append_left _ hrow) hins
    · rcases List.mem_cons.1 hrow with rfl | hrow
      · exact hitem
      · exact hplaced.came row (List.mem_append_right _ hrow) hins

theorem Between.insertRow (hnext : (next.map handle).Nodup) {done rest : List T} {item : T}
    {rows : List (T × RowMotion)} (hparts : next = done ++ item :: rest)
    (hplaced : Placed handle t next done (item :: rest) rows) :
    Placed handle t next (done ++ [item]) rest (t.insertRow handle rows item rest) := by
  rw [Transition.insertRow]
  by_cases hitem : handle item ∈ t.inserted
  · rw [if_neg (not_not_intro hitem)]
    cases hlater : rest.filter (handle · ∉ t.inserted) with
    | nil =>
      -- Nobody behind was there already: the row comes last.
      have hnone : rest.find? (handle · ∉ t.inserted) = none := by
        rw [List.find?_eq_none]
        exact List.filter_eq_nil_iff.1 hlater
      have hkept := hplaced.kept
      rw [List.filter_cons_of_neg (by simpa using hitem), hlater, List.append_nil] at hkept
      have hend := hplaced.insert hitem (List.append_nil rows).symm hkept
      simpa only [hnone, Option.map_none, Option.bind_none, Option.getD_none,
        List.insertIdx_length_self] using hend
    | cons anchor more =>
      have hfind : rest.find? (handle · ∉ t.inserted) = some anchor := by
        rw [← List.head?_filter, hlater]
        rfl
      have hkept := hplaced.kept
      rw [List.filter_cons_of_neg (by simpa using hitem), hlater] at hkept
      have hanchor : anchor ∈ rest := (List.mem_filter.1 (hlater ▸ List.mem_cons_self)).1
      have hmem : anchor ∈ next := hparts ▸ List.mem_append_right _ (List.mem_cons_of_mem _ hanchor)
      -- The anchor has a row; the first under its handle is that of a member who stays.
      have hexists : ∃ row ∈ rows, handle row.1 = handle anchor := by
        have hin : anchor ∈ (rows.filter (·.2 ≠ .removed)).map (·.1) := by
          rw [hkept]
          exact List.mem_append_right _ List.mem_cons_self
        obtain ⟨row, hrow, rfl⟩ := List.mem_map.1 hin
        exact ⟨row, (List.mem_filter.1 hrow).1, rfl⟩
      obtain ⟨row, L, R, hrow, hrows, hL⟩ := exists_first hexists
      have hstay : row.2 ≠ .removed := by
        intro hgone
        have hold : row ∈ t.oldRows handle next := by
          rw [← hplaced.stays]
          exact List.mem_filter.2 ⟨hrows ▸ List.mem_append_right _ List.mem_cons_self, by simp [hgone]⟩
        obtain ⟨-, hleft | hstable⟩ := h.mem_oldRows hold
        · exact hleft.2 (hrow ▸ List.mem_map_of_mem hmem)
        · rw [hgone] at hstable
          cases hstable.1
      have hindex : rows.findIdx? (handle ·.1 = handle anchor) = some L.length := by
        have hnone : L.findIdx? (handle ·.1 = handle anchor) = none := by
          rw [List.findIdx?_eq_none_iff]
          simpa using hL
        rw [hrows, List.findIdx?_append, hnone, List.findIdx?_cons, if_pos (by simpa using hrow)]
        simp
      have hsplit : (L.filter (·.2 ≠ .removed)).map (·.1) = done := by
        rw [hrows, List.filter_append, List.map_append, List.filter_cons_of_pos (by simpa using hstay),
          List.map_cons] at hkept
        refine front_eq hkept hrow (fun z hz => ?_) fun z hz heq => ?_
        · obtain ⟨row', hrow', rfl⟩ := List.mem_map.1 hz
          exact hL row' (List.mem_filter.1 hrow').1
        · have hz' : z ∈ next := hparts ▸ List.mem_append_left _ hz
          rw [hparts, List.map_append, List.nodup_append] at hnext
          exact hnext.2.2 _ (List.mem_map_of_mem hz) _
            (List.mem_map_of_mem (List.mem_cons_of_mem item hanchor)) heq
      have hend := hplaced.insert hitem hrows hsplit
      rw [← insertIdx_length L, ← hrows] at hend
      simpa only [hfind, Option.map_some, Option.bind_some, hindex, Option.getD_some] using hend
  · rw [if_pos hitem]
    have hkept := hplaced.kept
    rw [List.filter_cons_of_pos (by simpa using hitem)] at hkept
    exact ⟨by rw [hkept, List.append_assoc]; rfl, hplaced.stays, hplaced.came⟩

/-- The loop, from any of its rounds. -/
theorem Between.loop (hnext : (next.map handle).Nodup) {done rest : List T}
    {rows : List (T × RowMotion)} (hparts : next = done ++ rest)
    (hplaced : Placed handle t next done rest rows) :
    Placed handle t next next [] ((rest.zipIdx done.length).foldl
      (fun rows item => t.insertRow handle rows item.1 (next.drop (item.2 + 1))) rows) := by
  induction rest generalizing done rows with
  | nil =>
    rw [List.append_nil] at hparts
    subst hparts
    exact hplaced
  | cons item rest ih =>
    have hdrop : next.drop (done.length + 1) = rest := by
      rw [hparts, List.drop_append, List.drop_eq_nil_of_le (by omega)]
      simp
    rw [List.zipIdx_cons, List.foldl_cons, hdrop]
    have hround := ih (by rw [hparts, List.append_assoc]; rfl) (h.insertRow hnext hparts hplaced)
    rw [List.length_append, List.length_singleton] at hround
    exact hround

theorem Between.placed (hnext : (next.map handle).Nodup) (hreveal : t.fullReveal = false) :
    Placed handle t next next [] (t.rows handle next) := by
  rw [rows, if_neg (by simp [hreveal])]
  have hnone : next = [] ++ next := rfl
  refine h.loop hnext hnone ⟨h.kept_oldRows hnext, ?_, fun row hrow hins => ?_⟩
  · rw [List.filter_eq_self]
    intro row hrow
    obtain ⟨-, hgone | hstable⟩ := h.mem_oldRows hrow
    · simp [hgone.1]
    · simp [hstable.1]
  · obtain ⟨-, hgone | hstable⟩ := h.mem_oldRows hrow
    · rw [hgone.1] at hins
      cases hins
    · rw [hstable.1] at hins
      cases hins

end Between

/-! ## What the rows show -/

/-- Everybody in the new roster and nobody twice, with those who left between them. -/
structure Shows (handle : T → H) (t : Transition T H) (previous next : List T) : Prop where
  distinct : ((t.rows handle next).map (handle ·.1)).Nodup
  kept : ((t.rows handle next).filter (·.2 ≠ .removed)).map (·.1) = next
  removed : ∀ row ∈ t.rows handle next, row.2 = .removed → handle row.1 ∉ next.map handle
  before : t.fullReveal = false →
    ((t.rows handle next).filter (·.2 ≠ .inserted)).map (handle ·.1) = previous.map handle
  inserted : t.fullReveal = false → ∀ row ∈ t.rows handle next,
    (row.2 = .inserted ↔ handle row.1 ∉ previous.map handle)

theorem shows_fullRevealed (hnext : (next.map handle).Nodup) :
    Shows handle fullRevealed previous next := by
  have hrows : (fullRevealed : Transition T H).rows handle next = next.map (·, .stable) :=
    if_pos rfl
  refine ⟨?_, ?_, fun row hrow hgone => ?_, nofun, nofun⟩
  · rw [hrows, List.map_map]
    exact hnext
  · rw [hrows, List.filter_map, List.map_map, List.filter_eq_self.2 (by simp)]
    exact List.map_id' next
  · rw [hrows] at hrow
    obtain ⟨a, -, rfl⟩ := List.mem_map.1 hrow
    cases hgone

theorem Between.shows (h : Between handle t previous next) (hreveal : t.fullReveal = false)
    (hprevious : (previous.map handle).Nodup) (hnext : (next.map handle).Nodup) :
    Shows handle t previous next := by
  obtain ⟨hkept, hstays, hcame⟩ := h.placed hnext hreveal
  rw [List.filter_nil, List.append_nil] at hkept
  have hbefore : ((t.rows handle next).filter (·.2 ≠ .inserted)).map (handle ·.1) =
      previous.map handle := by
    rw [hstays, h.map_oldRows]
  have hold {row : T × RowMotion} (hrow : row ∈ t.rows handle next) (hins : row.2 ≠ .inserted) :
      row ∈ t.oldRows handle next := by
    rw [← hstays]
    exact List.mem_filter.2 ⟨hrow, by simpa using hins⟩
  have hremoved : ∀ row ∈ t.rows handle next, row.2 = .removed → handle row.1 ∉ next.map handle := by
    intro row hrow hgone
    obtain ⟨-, hleft | hstable⟩ := h.mem_oldRows (hold hrow (by simp [hgone]))
    · exact hleft.2
    · rw [hgone] at hstable
      cases hstable.1
  refine ⟨?_, hkept, hremoved, fun _ => hbefore, fun _ row hrow => ⟨fun hins => ?_, fun hnew => ?_⟩⟩
  · -- Those who stay or came are the new roster, those who left are of the old one only.
    have hperm := (List.filter_append_perm (fun row : T × RowMotion => decide (row.2 ≠ .removed))
      (t.rows handle next)).map (handle ·.1)
    refine (hperm.nodup_iff.1 ?_)
    rw [List.map_append, List.nodup_append]
    have hfirst : ((t.rows handle next).filter (·.2 ≠ .removed)).map (handle ·.1) =
        next.map handle := by
      have hmap := congrArg (List.map handle) hkept
      rwa [List.map_map] at hmap
    rw [hfirst]
    refine ⟨hnext, ?_, fun a ha b hb heq => ?_⟩
    · have hsub : ((t.rows handle next).filter fun row => ! decide (row.2 ≠ .removed)).Sublist
          ((t.rows handle next).filter (·.2 ≠ .inserted)) := by
        refine List.monotone_filter_right _ fun row hgone => ?_
        have hgone : row.2 = .removed := by simpa using hgone
        simp [hgone]
      exact (hsub.map (handle ·.1)).nodup (hbefore ▸ hprevious)
    · obtain ⟨row, hrow, rfl⟩ := List.mem_map.1 hb
      obtain ⟨hrow, hgone⟩ := List.mem_filter.1 hrow
      exact hremoved row hrow (by simpa using hgone) (heq ▸ ha)
  · have hmem : row.1 ∈ next := by
      rw [← hkept]
      exact List.mem_map.2 ⟨row, List.mem_filter.2 ⟨hrow, by simp [hins]⟩, rfl⟩
    exact (h.mem_inserted hmem).1 (hcame row hrow hins)
  · by_contra hins
    exact hnew (h.mem_oldRows (hold hrow hins)).1

/-- For rosters without a handle twice, there is a transition when the handles change, and its rows
show what is there and what was. -/
theorem showsExactly (handle : T → H) (previous next : List T)
    (hprevious : (previous.map handle).Nodup) (hnext : (next.map handle).Nodup) :
    (new handle previous next = none ↔ previous.map handle = next.map handle) ∧
      ∀ t, new handle previous next = some t → Shows handle t previous next := by
  refine ⟨new_eq_none, fun t ht => ?_⟩
  obtain rfl | ⟨hreveal, hbetween⟩ := new_eq_some ht
  · exact shows_fullRevealed hnext
  · exact hbetween.shows hreveal hprevious hnext

/-- A member leaves at the start, two come in the middle and at the end. -/
theorem showsExactly_example :
    (new id [1, 2, 3] [2, 5, 3, 4] = none ↔ [1, 2, 3].map id = [2, 5, 3, 4].map id) ∧
      ∀ t, new id [1, 2, 3] [2, 5, 3, 4] = some t → Shows id t [1, 2, 3] [2, 5, 3, 4] :=
  showsExactly id [1, 2, 3] [2, 5, 3, 4] (by decide) (by decide)

example : (new id [1, 2, 3] [2, 5, 3, 4]).map (·.rows id [2, 5, 3, 4]) = some
    [(1, .removed), (2, .stable), (5, .inserted), (3, .stable), (4, .inserted)] := by
  decide

end Transition

end Superiority.Ui
