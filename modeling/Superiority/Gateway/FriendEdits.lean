import Mathlib.Data.List.Induction
import Mathlib.Data.List.Nodup
import Mathlib.Data.List.Perm.Subperm
import Superiority.Gateway.Bncs
import Superiority.Library.Checked

/-!
# The operations that edit a friend list

A legacy client keeps the list of friends it was sent, and changes it by operations with indices into
the list as it is then. **`friendOperations_replay`**: `friend_operations` does not panic, and a
client that carries out its operations on the old list ends with the current one.

While the friends are placed the working list starts with those placed so far, and what is left of it
has only names that are still to come.
-/

namespace Superiority.Gateway

/-! ## The operations -/

inductive FriendOperation where
  | add (friend : FriendEntry)
  | remove (index : UInt8)
  | move (old new : UInt8)
  | update (index : UInt8) (friend : FriendEntry)
  deriving DecidableEq, Repr

/-- `friend_index`. -/
def friendIndex (index : Nat) : Checked Empty UInt8 :=
  if index < 256 then .ok (UInt8.ofNat index) else .error .panic

/-- The two lists that `friend_operations` works on. -/
structure Edits where
  working : List FriendEntry
  operations : List FriendOperation := []

/-- A round of the first loop of `friend_operations`. -/
def removeGone (current : List FriendEntry) (s : Edits) (index : Nat) : Checked Empty Edits := do
  let friend ← Checked.index s.working index
  if !current.any (fun desired => desired.name = friend.name) then
    let removed ← friendIndex index
    let (_, working) ← Checked.remove s.working index
    return ⟨working, s.operations ++ [.remove removed]⟩
  else return s

/-- `update_friend_if_needed`. -/
def updateFriendIfNeeded (s : Edits) (index : Nat) (desired : FriendEntry) :
    Checked Empty Edits := do
  let friend ← Checked.index s.working index
  if friend ≠ desired then
    let updated ← friendIndex index
    return ⟨s.working.set index desired, s.operations ++ [.update updated desired]⟩
  else return s

/-- A round of the second loop of `friend_operations`. -/
def placeFriend (s : Edits) : FriendEntry × Nat → Checked Empty Edits
  | (desired, targetIndex) => do
    if s.working[targetIndex]?.any fun friend => friend.name = desired.name then
      updateFriendIfNeeded s targetIndex desired
    else match s.working.findIdx? fun friend => friend.name = desired.name with
    | some oldIndex =>
      let old ← friendIndex oldIndex
      let new ← friendIndex targetIndex
      let (moved, working) ← Checked.remove s.working oldIndex
      let working ← Checked.insert working targetIndex moved
      updateFriendIfNeeded ⟨working, s.operations ++ [.move old new]⟩ targetIndex desired
    | none =>
      let operations := s.operations ++ [.add desired]
      let working := s.working ++ [desired]
      let addedIndex := working.length - 1
      if addedIndex ≠ targetIndex then
        let old ← friendIndex addedIndex
        let new ← friendIndex targetIndex
        let (added, working) ← Checked.remove working addedIndex
        let working ← Checked.insert working targetIndex added
        return ⟨working, operations ++ [.move old new]⟩
      else return ⟨working, operations⟩

/-- `friend_operations`, with its assertion. -/
def friendOperations (old current : List FriendEntry) : Checked Empty (List FriendOperation) := do
  let s ← (List.range old.length).reverse.foldlM (removeGone current) ⟨old, []⟩
  let s ← current.zipIdx.foldlM placeFriend s
  if s.working = current then return s.operations else .error .panic

/-! ## The client -/

/-- What a client does with its list; `none` if the operation addresses no entry of it. -/
def FriendOperation.apply (entries : List FriendEntry) : FriendOperation → Option (List FriendEntry)
  | add friend => some (entries ++ [friend])
  | remove index =>
    if index.toNat < entries.length then some (entries.eraseIdx index.toNat) else none
  | move old new =>
    match entries[old.toNat]? with
    | none => none
    | some moved =>
      if new.toNat < entries.length then
        some ((entries.eraseIdx old.toNat).insertIdx new.toNat moved)
      else none
  | update index friend =>
    if index.toNat < entries.length then some (entries.set index.toNat friend) else none

/-- One operation after another. -/
def replay (entries : List FriendEntry) (operations : List FriendOperation) :
    Option (List FriendEntry) :=
  operations.foldlM FriendOperation.apply entries

/-! ## The steps -/

theorem friendIndex_eq {index : Nat} (h : index < 256) :
    friendIndex index = .ok (UInt8.ofNat index) := if_pos h

theorem toNat_ofNat {index : Nat} (h : index < 256) : (UInt8.ofNat index).toNat = index := by
  rw [UInt8.toNat_ofNat']
  exact Nat.mod_eq_of_lt h

/-- A client that carried out the operations has the working list. -/
def Replays (old : List FriendEntry) (s : Edits) : Prop := replay old s.operations = some s.working

theorem Replays.concat {old working working' : List FriendEntry}
    {operations : List FriendOperation} (h : Replays old ⟨working, operations⟩)
    {operation : FriendOperation} (hop : operation.apply working = some working') :
    Replays old ⟨working', operations ++ [operation]⟩ := by
  unfold Replays replay at h ⊢
  rw [List.foldlM_append, h]
  simp [hop]

theorem apply_remove {front kept : List FriendEntry} {friend : FriendEntry}
    (h : front.length < 256) : (FriendOperation.remove (UInt8.ofNat front.length)).apply
      (front ++ friend :: kept) = some (front ++ kept) := by
  rw [FriendOperation.apply, toNat_ofNat h, if_pos (by simp)]
  simp [List.eraseIdx_append_of_length_le]

theorem apply_update {front behind : List FriendEntry} {friend desired : FriendEntry}
    (h : front.length < 256) : (FriendOperation.update (UInt8.ofNat front.length) desired).apply
      (front ++ friend :: behind) = some (front ++ desired :: behind) := by
  rw [FriendOperation.apply, toNat_ofNat h, if_pos (by simp)]
  simp

theorem insertIdx_append (front behind : List FriendEntry) (friend : FriendEntry) :
    (front ++ behind).insertIdx front.length friend = front ++ friend :: behind := by
  induction front with
  | nil => rfl
  | cons head front ih => simpa using ih

theorem apply_move {front before behind : List FriendEntry} {friend : FriendEntry}
    (h : front.length + before.length < 256) :
    (FriendOperation.move (UInt8.ofNat (front.length + before.length))
      (UInt8.ofNat front.length)).apply (front ++ (before ++ friend :: behind))
        = some (front ++ friend :: (before ++ behind)) := by
  have hfound : (front ++ (before ++ friend :: behind))[front.length + before.length]?
      = some friend := by
    rw [← List.append_assoc, ← List.length_append]
    simp
  have herase : (front ++ (before ++ friend :: behind)).eraseIdx (front.length + before.length)
      = front ++ (before ++ behind) := by
    rw [← List.append_assoc, ← List.length_append,
      List.eraseIdx_append_of_length_le (Nat.le_refl _)]
    simp
  rw [FriendOperation.apply, toNat_ofNat h, toNat_ofNat (by omega), hfound]
  dsimp only
  rw [if_pos (by simp only [List.length_append, List.length_cons]; omega), herase, insertIdx_append]

/-! ## Friends that are gone -/

/-- The current list has a friend of this name. -/
def isListed (current : List FriendEntry) (friend : FriendEntry) : Bool :=
  current.any fun desired => desired.name = friend.name

theorem isListed_iff {current : List FriendEntry} {friend : FriendEntry} :
    isListed current friend = true ↔ friend.name ∈ current.map FriendEntry.name := by
  simp [isListed]

theorem removeGone_eq {current front kept : List FriendEntry} {friend : FriendEntry}
    {operations : List FriendOperation} (h : front.length < 256) :
    removeGone current ⟨front ++ friend :: kept, operations⟩ front.length =
      .ok (if isListed current friend then ⟨front ++ friend :: kept, operations⟩
        else ⟨front ++ kept, operations ++ [.remove (UInt8.ofNat front.length)]⟩) := by
  unfold removeGone
  rw [Checked.index_append, friendIndex_eq h, Checked.remove_append]
  show (if !isListed current friend then _ else _) = _
  cases isListed current friend <;> rfl

/-- **The first loop** leaves the friends that are listed, and none to do if all are. -/
theorem removeGone_all {current old : List FriendEntry} (front : List FriendEntry)
    {kept : List FriendEntry} {operations : List FriendOperation} (hlength : front.length < 256)
    (hreplays : Replays old ⟨front ++ kept, operations⟩) :
    ∃ operations', (List.range front.length).reverse.foldlM (removeGone current)
        ⟨front ++ kept, operations⟩ = .ok ⟨front.filter (isListed current) ++ kept, operations'⟩ ∧
      Replays old ⟨front.filter (isListed current) ++ kept, operations'⟩ ∧
      (front.all (isListed current) = true → operations' = operations) := by
  induction front using List.reverseRecOn generalizing kept operations with
  | nil => exact ⟨operations, rfl, hreplays, fun _ => rfl⟩
  | append_singleton front friend ih =>
    rw [List.length_append, List.length_singleton] at hlength ⊢
    rw [List.append_assoc, List.singleton_append] at hreplays ⊢
    rw [List.range_succ, List.reverse_append, List.reverse_singleton, List.singleton_append,
      List.foldlM_cons, removeGone_eq (by omega), List.filter_append]
    by_cases hlisted : isListed current friend = true
    · obtain ⟨operations', hrun, hreplays', hsame⟩ := ih (by omega) hreplays
      have hfilter : [friend].filter (isListed current) = [friend] :=
        List.filter_cons_of_pos hlisted
      rw [if_pos hlisted]
      refine ⟨operations', ?_, ?_, ?_⟩
      · rw [hfilter, List.append_assoc]
        exact hrun
      · rwa [hfilter, List.append_assoc]
      · intro hall
        exact hsame (by simpa [hlisted] using hall)
    · obtain ⟨operations', hrun, hreplays', -⟩ :=
        ih (by omega) (hreplays.concat (apply_remove (by omega)))
      have hfilter : [friend].filter (isListed current) = [] := List.filter_cons_of_neg hlisted
      rw [if_neg hlisted]
      refine ⟨operations', ?_, ?_, ?_⟩
      · rw [hfilter, List.append_nil]
        exact hrun
      · rwa [hfilter, List.append_nil]
      · intro hall
        simp [hlisted] at hall

/-! ## Friends that are placed -/

theorem updateFriendIfNeeded_eq {front behind : List FriendEntry} {friend desired : FriendEntry}
    {operations : List FriendOperation} (h : front.length < 256) :
    updateFriendIfNeeded ⟨front ++ friend :: behind, operations⟩ front.length desired =
      .ok ⟨front ++ desired :: behind, if friend = desired then operations
        else operations ++ [.update (UInt8.ofNat front.length) desired]⟩ := by
  unfold updateFriendIfNeeded
  rw [Checked.index_append, friendIndex_eq h]
  show (if friend ≠ desired then _ else _) = _
  by_cases hsame : friend = desired
  · subst hsame
    rw [if_neg (not_not_intro rfl), if_pos rfl]
    rfl
  · rw [if_pos hsame, if_neg hsame]
    simp

theorem Replays.update {old front behind : List FriendEntry} {friend desired : FriendEntry}
    {operations : List FriendOperation} (h : front.length < 256)
    (hreplays : Replays old ⟨front ++ friend :: behind, operations⟩) :
    Replays old ⟨front ++ desired :: behind, if friend = desired then operations
      else operations ++ [.update (UInt8.ofNat front.length) desired]⟩ := by
  by_cases hsame : friend = desired
  · subst hsame
    rwa [if_pos rfl]
  · rw [if_neg hsame]
    exact hreplays.concat (apply_update h)

/-- A friend is put behind those that are placed, and taken from the rest if it is there. -/
structure Places (old done rest : List FriendEntry) (operations : List FriendOperation)
    (desired : FriendEntry) (operations' : List FriendOperation) : Prop where
  step : placeFriend ⟨done ++ rest, operations⟩ (desired, done.length) =
    .ok ⟨done ++ desired :: rest.eraseP (fun friend => friend.name = desired.name), operations'⟩
  replays : Replays old
    ⟨done ++ desired :: rest.eraseP (fun friend => friend.name = desired.name), operations'⟩
  unchanged : rest.head? = some desired → operations' = operations

variable {old done : List FriendEntry} {operations : List FriendOperation} {desired : FriendEntry}

/-- The friend is where it belongs. -/
theorem exists_places_head {friend : FriendEntry} {rest : List FriendEntry}
    (hlength : done.length < 256) (hname : friend.name = desired.name)
    (hreplays : Replays old ⟨done ++ friend :: rest, operations⟩) :
    ∃ operations', Places old done (friend :: rest) operations desired operations' := by
  have herase : (friend :: rest).eraseP (fun friend => friend.name = desired.name) = rest :=
    List.eraseP_cons_of_pos (by simpa using hname)
  refine ⟨if friend = desired then operations
    else operations ++ [.update (UInt8.ofNat done.length) desired], ?_, ?_, ?_⟩
  · rw [herase, placeFriend, if_pos (by simpa using hname)]
    exact updateFriendIfNeeded_eq hlength
  · rw [herase]
    exact hreplays.update hlength
  · intro h
    rw [if_pos (Option.some.inj h)]

/-- Where no friend of this name is at the place, nothing is only updated. -/
theorem not_placed {rest : List FriendEntry}
    (h : ∀ friend, rest.head? = some friend → ¬ friend.name = desired.name) :
    ¬ (done ++ rest)[done.length]?.any (fun friend => friend.name = desired.name) = true := by
  rw [List.getElem?_append_right (Nat.le_refl _), Nat.sub_self, ← List.head?_eq_getElem?]
  cases rest with
  | nil => simp
  | cons friend rest => simpa using h friend rfl

/-- The friend is found further back. -/
theorem exists_places_behind {before behind : List FriendEntry} {friend : FriendEntry}
    (hlength : done.length + before.length < 256) (hne : before ≠ [])
    (hdone : ∀ friend ∈ done, ¬ friend.name = desired.name)
    (hbefore : ∀ friend ∈ before, ¬ friend.name = desired.name)
    (hname : friend.name = desired.name)
    (hreplays : Replays old ⟨done ++ (before ++ friend :: behind), operations⟩) :
    ∃ operations', Places old done (before ++ friend :: behind) operations desired operations' := by
  have herase : (before ++ friend :: behind).eraseP (fun friend => friend.name = desired.name)
      = before ++ behind := by
    rw [List.eraseP_append_right _ (by simpa using hbefore),
      List.eraseP_cons_of_pos (by simpa using hname)]
  have hhead : ∀ first, (before ++ friend :: behind).head? = some first →
      ¬ first.name = desired.name := by
    obtain ⟨first, rest, rfl⟩ := List.exists_cons_of_ne_nil hne
    intro first' h
    obtain rfl := Option.some.inj h
    exact hbefore first List.mem_cons_self
  have hindex : (done ++ (before ++ friend :: behind)).findIdx? (fun friend =>
      decide (friend.name = desired.name)) = some (done.length + before.length) := by
    rw [← List.append_assoc, ← List.length_append, List.findIdx?_append]
    have hnone : (done ++ before).findIdx? (fun friend => decide (friend.name = desired.name))
        = none := by
      simp only [List.findIdx?_eq_none_iff, decide_eq_false_iff_not, List.mem_append]
      exact fun friend hmem => hmem.elim (hdone friend) (hbefore friend)
    rw [hnone]
    simp [List.findIdx?_cons, hname]
  have hremove : (Checked.remove (done ++ (before ++ friend :: behind))
      (done.length + before.length) : Checked Empty _)
        = .ok (friend, done ++ (before ++ behind)) := by
    rw [← List.append_assoc, ← List.length_append, Checked.remove_append, List.append_assoc]
  have hmoved := hreplays.concat (apply_move hlength)
  refine ⟨if friend = desired
    then operations ++ [.move (UInt8.ofNat (done.length + before.length))
      (UInt8.ofNat done.length)]
    else operations ++ [.move (UInt8.ofNat (done.length + before.length))
      (UInt8.ofNat done.length)] ++ [.update (UInt8.ofNat done.length) desired], ?_, ?_, ?_⟩
  · rw [herase, placeFriend, if_neg (not_placed hhead)]
    dsimp only
    rw [hindex]
    dsimp only
    rw [friendIndex_eq hlength, friendIndex_eq (by omega), hremove]
    show (Checked.insert (done ++ (before ++ behind)) done.length friend >>= _) = _
    rw [Checked.insert_append]
    exact updateFriendIfNeeded_eq (by omega)
  · rw [herase]
    exact hmoved.update (by omega)
  · intro h
    exact absurd rfl (hhead desired h)

/-- The friend is new. -/
theorem exists_places_new {rest : List FriendEntry} (hlength : (done ++ rest).length < 256)
    (hdone : ∀ friend ∈ done, ¬ friend.name = desired.name)
    (hrest : ∀ friend ∈ rest, ¬ friend.name = desired.name)
    (hreplays : Replays old ⟨done ++ rest, operations⟩) :
    ∃ operations', Places old done rest operations desired operations' := by
  have herase : rest.eraseP (fun friend => friend.name = desired.name) = rest :=
    List.eraseP_of_forall_not (by simpa using hrest)
  have hhead : ∀ first, rest.head? = some first → ¬ first.name = desired.name :=
    fun first h => hrest first (List.mem_of_head? h)
  have hindex : (done ++ rest).findIdx? (fun friend => decide (friend.name = desired.name))
      = none := by
    simp only [List.findIdx?_eq_none_iff, decide_eq_false_iff_not, List.mem_append]
    exact fun friend hmem => hmem.elim (hdone friend) (hrest friend)
  have hadded : Replays old ⟨done ++ rest ++ [desired], operations ++ [.add desired]⟩ :=
    hreplays.concat rfl
  rw [List.length_append] at hlength
  cases rest with
  | nil =>
    refine ⟨operations ++ [.add desired], ?_, ?_, nofun⟩
    · rw [placeFriend, if_neg (not_placed hhead)]
      dsimp only
      rw [hindex]
      simp only [List.append_nil, List.length_append, List.length_singleton, Nat.add_sub_cancel,
        ne_eq, not_true_eq_false, if_false, herase]
      rfl
    · simpa using hadded
  | cons first rest =>
    rw [List.append_assoc] at hadded
    have hmoved := hadded.concat (apply_move hlength)
    refine ⟨operations ++ [.add desired] ++ [.move (UInt8.ofNat (done.length
      + (first :: rest).length)) (UInt8.ofNat done.length)], ?_, ?_, ?_⟩
    · have hindex' : (done ++ (first :: rest) ++ [desired]).length - 1
          = done.length + (first :: rest).length := by
        simp only [List.length_append, List.length_singleton]
        omega
      have hremove : (Checked.remove (done ++ (first :: rest) ++ [desired])
          (done.length + (first :: rest).length) : Checked Empty _)
            = .ok (desired, done ++ (first :: rest)) := by
        rw [← List.length_append, Checked.remove_append, List.append_nil]
      rw [placeFriend, if_neg (not_placed hhead)]
      dsimp only
      rw [hindex]
      dsimp only
      rw [hindex', if_pos (by simp), friendIndex_eq hlength, friendIndex_eq (by omega), hremove,
        herase]
      show (Checked.insert (done ++ first :: rest) done.length desired >>= _) = _
      rw [Checked.insert_append]
      rfl
    · rw [herase]
      rwa [List.append_nil] at hmoved
    · intro h
      exact absurd rfl (hhead desired h)

theorem exists_places {rest : List FriendEntry} (hlength : (done ++ rest).length < 256)
    (hdone : desired.name ∉ done.map FriendEntry.name)
    (hreplays : Replays old ⟨done ++ rest, operations⟩) :
    ∃ operations', Places old done rest operations desired operations' := by
  have hdone' : ∀ friend ∈ done, ¬ friend.name = desired.name := fun friend hmem hname =>
    hdone (List.mem_map.2 ⟨friend, hmem, hname⟩)
  by_cases hmem : ∃ friend ∈ rest, friend.name = desired.name
  · obtain ⟨friend, hfriend, hname⟩ := hmem
    obtain ⟨found, before, behind, hbefore, hfound, rfl, -⟩ :=
      List.exists_of_eraseP (p := fun friend => decide (friend.name = desired.name)) hfriend
        (decide_eq_true hname)
    rw [decide_eq_true_eq] at hfound
    rw [List.length_append, List.length_append, List.length_cons] at hlength
    cases before with
    | nil => exact exists_places_head (by omega) hfound hreplays
    | cons first before =>
      exact exists_places_behind (by omega) (List.cons_ne_nil _ _) hdone'
        (fun friend hmem => by simpa using hbefore friend hmem) hfound hreplays
  · refine exists_places_new hlength hdone' (fun friend hfriend hname => ?_) hreplays
    exact hmem ⟨friend, hfriend, hname⟩

/-- **The second loop** places every friend, if what is left has only names that are to come. -/
theorem placeFriend_all {later rest : List FriendEntry}
    (hnames : ((done ++ later).map FriendEntry.name).Nodup)
    (hlength : (done ++ later).length < 256)
    (hrest : (rest.map FriendEntry.name).Nodup)
    (hsubset : ∀ friend ∈ rest, friend.name ∈ later.map FriendEntry.name)
    (hreplays : Replays old ⟨done ++ rest, operations⟩) :
    ∃ operations', (later.zipIdx done.length).foldlM placeFriend ⟨done ++ rest, operations⟩
        = .ok ⟨done ++ later, operations'⟩ ∧
      Replays old ⟨done ++ later, operations'⟩ ∧ (rest = later → operations' = operations) := by
  induction later generalizing done rest operations with
  | nil =>
    cases rest with
    | nil => exact ⟨operations, rfl, hreplays, fun _ => rfl⟩
    | cons friend rest => exact absurd (hsubset friend List.mem_cons_self) List.not_mem_nil
  | cons desired later ih =>
    have hnew : desired.name ∉ done.map FriendEntry.name := by
      rw [List.map_append, List.nodup_append] at hnames
      exact fun hmem => hnames.2.2 _ hmem _ List.mem_cons_self rfl
    -- as many friends are left as are to come, at most
    have hcount : rest.length ≤ (desired :: later).length := by
      have hsub : rest.map FriendEntry.name ⊆ (desired :: later).map FriendEntry.name :=
        fun name hname => by
          obtain ⟨friend, hfriend, rfl⟩ := List.mem_map.1 hname
          exact hsubset friend hfriend
      simpa using (List.subperm_of_subset hrest hsub).length_le
    rw [List.length_append] at hlength
    obtain ⟨operations', hplaces⟩ :=
      exists_places (by rw [List.length_append]; omega) hnew hreplays
    obtain ⟨hstep, hreplays', hunchanged⟩ := hplaces
    -- the name that was placed is left no more
    have hsubset' : ∀ friend ∈ rest.eraseP (fun friend => friend.name = desired.name),
        friend.name ∈ later.map FriendEntry.name := by
      intro friend hfriend
      have hmem := hsubset friend (List.mem_of_mem_eraseP hfriend)
      rw [List.map_cons, List.mem_cons] at hmem
      refine hmem.resolve_left fun hname => ?_
      have hleft : desired.name ∈ (rest.map FriendEntry.name).erase desired.name := by
        rw [List.erase_eq_eraseP', List.eraseP_map]
        exact List.mem_map.2 ⟨friend, hfriend, hname⟩
      exact (hrest.mem_erase_iff.1 hleft).1 rfl
    have hsplit' (rest : List FriendEntry) :
        done ++ desired :: rest = (done ++ [desired]) ++ rest := by simp
    rw [hsplit'] at hstep hreplays'
    rw [hsplit'] at hnames ⊢
    have hlength' : (done ++ [desired] ++ later).length < 256 := by
      rw [← hsplit', List.length_append]
      exact hlength
    obtain ⟨operations'', hrun, hreplays'', hsame⟩ :=
      ih hnames hlength' (hrest.sublist (List.eraseP_sublist.map _)) hsubset' hreplays'
    refine ⟨operations'', ?_, hreplays'', ?_⟩
    · rw [List.zipIdx_cons, List.foldlM_cons, hstep]
      rw [List.length_append, List.length_singleton] at hrun
      exact hrun
    · intro hboth
      subst hboth
      rw [hsame (List.eraseP_cons_of_pos (by simp)), hunchanged rfl]

/-! ## The whole list -/

/-- **A client that carries out the operations ends with the current list**, and there are none if
it has not changed. -/
theorem friendOperations_replay (old current : List FriendEntry) (hold : old.length ≤ 255)
    (hcurrent : current.length ≤ 255) (hnames : (old.map FriendEntry.name).Nodup)
    (hnames' : (current.map FriendEntry.name).Nodup) :
    ∃ operations, friendOperations old current = .ok operations ∧
      replay old operations = some current ∧ (old = current → operations = []) := by
  have hstart : Replays old ⟨old ++ [], []⟩ := by
    rw [List.append_nil]
    rfl
  obtain ⟨removed, hremove, hreplays, hkept⟩ : ∃ removed, _ ∧ _ ∧
      (old.all (isListed current) = true → removed = []) :=
    removeGone_all old (Nat.lt_succ_of_le hold) hstart
  rw [List.append_nil] at hremove
  have hsubset : ∀ friend ∈ old.filter (isListed current) ++ [],
      friend.name ∈ current.map FriendEntry.name := by
    intro friend hfriend
    rw [List.append_nil] at hfriend
    exact isListed_iff.1 (List.mem_filter.1 hfriend).2
  have hrest : ((old.filter (isListed current) ++ []).map FriendEntry.name).Nodup := by
    rw [List.append_nil]
    exact hnames.sublist (List.filter_sublist.map _)
  have hcurrent' : ([] ++ current).length < 256 := Nat.lt_succ_of_le hcurrent
  have hnames'' : (([] ++ current).map FriendEntry.name).Nodup := hnames'
  obtain ⟨operations, hplace, hreplays', hsame⟩ :=
    placeFriend_all hnames'' hcurrent' hrest hsubset hreplays
  refine ⟨operations, ?_, hreplays', ?_⟩
  · rw [friendOperations, hremove]
    show (current.zipIdx.foldlM placeFriend _ >>= _) = _
    rw [List.nil_append, List.nil_append, List.length_nil] at hplace
    rw [hplace]
    show (if current = current then _ else _) = _
    rw [if_pos rfl]
    rfl
  · intro hequal
    subst hequal
    have hall : old.all (isListed old) = true := List.all_eq_true.2 fun friend hfriend =>
      isListed_iff.2 (List.mem_map_of_mem hfriend)
    have hfilter : old.filter (isListed old) ++ [] = old := by
      rw [List.append_nil]
      exact List.filter_eq_self.2 (List.all_eq_true.1 hall)
    rw [hsame hfilter, hkept hall]

/-- Of two friends the one goes and the other moves back behind one that is new. -/
theorem friendOperations_replay_moved :
    let friend := fun name => FriendEntry.mk name 1 1 0 "StarCraft II"
    ∃ operations, friendOperations [friend "Raynor", friend "Kerrigan", friend "Zeratul"]
        [friend "Artanis", friend "Zeratul", friend "Raynor"] = .ok operations ∧
      replay [friend "Raynor", friend "Kerrigan", friend "Zeratul"] operations
        = some [friend "Artanis", friend "Zeratul", friend "Raynor"] ∧
      ([friend "Raynor", friend "Kerrigan", friend "Zeratul"]
        = [friend "Artanis", friend "Zeratul", friend "Raynor"] → operations = []) :=
  friendOperations_replay _ _ (by decide) (by decide) (by decide) (by decide)

end Superiority.Gateway
