import Superiority.Native.PresenceInvariant

/-!
# The calls of a rebuild

`rebuild_identity_indexes` calls itself after a scan that has queued duplicates. The loop over the
queue skips a duplicate whose folded side is gone, or already is the representative of the other
side, and each fold may bring this about for the duplicates behind it. A queue of duplicates that
are all skipped would be queued again by the next call.

**Progress.** The first duplicate of a queue is never skipped: both its sides are keys of
`values`, so the kept one is its own representative.

* **`Calls`** – the directories the routine is called in.
* **`progress_of_filed`** – a call that recurses folds, and leaves fewer entries in `values`.
* **`rebuild_terminates`** – in any run, every call of a rebuild that recurses does so, and the
  last call is reached.
-/

namespace Superiority

open Std

namespace PresenceDirectory

variable {d : PresenceDirectory}

/-! ## The calls -/

/-- The scan queues duplicates, and the routine calls itself once they are folded. -/
def Recurses (d : PresenceDirectory) : Prop := d.scanIdentities.duplicates ≠ []

/-- The directory when the loop over the queue has been through `passed`. -/
def afterFolds (d : PresenceDirectory) (passed : List (UInt32 × UInt32)) : PresenceDirectory :=
  (d.withIndexes d.scanIdentities).foldDuplicates passed

/-- The directory of the recursive call. -/
def nextRound (d : PresenceDirectory) : PresenceDirectory :=
  d.afterFolds d.scanIdentities.duplicates

/-- The directory of a call that does not recurse, once it returns. -/
def indexed (d : PresenceDirectory) : PresenceDirectory :=
  { d.withIndexes d.scanIdentities with
    accountPresence := d.scanIdentities.accountCandidates.map fun _ candidate => candidate.2 }

/-- The directories the routine is called in when it is first called in `d`. -/
inductive Calls (d : PresenceDirectory) : PresenceDirectory → Prop
  | first : Calls d d
  | again {e : PresenceDirectory} : Calls d e → e.Recurses → Calls d e.nextRound

/-- The loop folds the queued duplicate: when it gets there the folded side is still in `values`,
and is not what the other side leads to. -/
def ReallyFolds (d : PresenceDirectory) (duplicate : UInt32 × UInt32) : Prop :=
  ∃ passed ahead, d.scanIdentities.duplicates = passed ++ duplicate :: ahead ∧
    duplicate.1 ≠ (d.afterFolds passed).canonicalPresenceId duplicate.2 ∧
    duplicate.1 ∈ (d.afterFolds passed).values

/-! ## Progress -/

/-- The first duplicate of the queue is folded. -/
theorem reallyFolds_head (h : Filed d) {duplicate : UInt32 × UInt32}
    {ahead : List (UInt32 × UInt32)} (hqueue : d.scanIdentities.duplicates = duplicate :: ahead) :
    d.ReallyFolds duplicate := by
  have hmem : duplicate ∈ d.scanIdentities.duplicates := by simp [hqueue]
  obtain ⟨hfolded, hkeep, hne⟩ := scanIdentities_duplicates hmem
  have hself : d.canonicalPresenceId duplicate.2 = duplicate.2 :=
    (h.values duplicate.2 hkeep).canonical
  refine ⟨[], ahead, hqueue, ?_, hfolded⟩
  show duplicate.1 ≠ d.canonicalPresenceId duplicate.2
  rwa [hself]

/-- **A call that recurses** folds a queued duplicate, and leaves fewer entries in `values`. -/
theorem progress_of_filed (h : Filed d) (hrecurses : d.Recurses) :
    (∃ duplicate, d.ReallyFolds duplicate) ∧ d.nextRound.values.size < d.values.size := by
  refine ⟨?_, (size_round h hrecurses).2⟩
  obtain ⟨duplicate, ahead, hqueue⟩ := List.exists_cons_of_ne_nil hrecurses
  exact ⟨duplicate, reallyFolds_head h hqueue⟩

theorem Calls.filed {e : PresenceDirectory} (h : Filed d) (hcalls : Calls d e) : Filed e := by
  induction hcalls with
  | first => exact h
  | again _ _ ih => exact filed_foldScan ih

theorem Calls.head {e : PresenceDirectory} (hrecurses : d.Recurses) (hcalls : Calls d.nextRound e) :
    Calls d e := by
  induction hcalls with
  | first => exact Calls.again Calls.first hrecurses
  | again _ he ih => exact Calls.again ih he

/-- The last call, which the fuel is enough to reach. -/
theorem exists_last_call (h : Filed d) {fuel : Nat} (hpos : 0 < fuel)
    (hfuel : d.values.size ≤ fuel) :
    ∃ e, Calls d e ∧ ¬ e.Recurses ∧ d.rebuildIdentityIndexes fuel = e.indexed := by
  induction fuel generalizing d with
  | zero => exact absurd hpos (lt_irrefl 0)
  | succ fuel ih =>
    rw [rebuildIdentityIndexes_succ]
    split_ifs with hempty
    · have hlast : ¬ d.Recurses := fun hrecurses => hrecurses (List.isEmpty_iff.1 hempty)
      exact ⟨d, Calls.first, hlast, rfl⟩
    · have hrecurses : d.Recurses := fun hnil => hempty (by simp [hnil])
      obtain ⟨htwo, hlt⟩ := size_round h hrecurses
      obtain ⟨e, hcalls, hlast, hends⟩ := ih (filed_foldScan h) (by omega) (by omega)
      exact ⟨e, Calls.head hrecurses hcalls, hlast, hends⟩

/-! ## One update -/

/-- The directory with an update filed, its indexes not yet rebuilt. -/
def updated (d : PresenceDirectory) (update : PresenceUpdate)
    (decoded : List (UInt32 × List UInt8)) : PresenceDirectory :=
  ((d.joined update).fileIds update (d.representative update)).fileValues update
    (d.representative update) decoded

theorem filed_updated (h : Filed d) {update : PresenceUpdate}
    (hrepresentative : d.representative update ≠ 0) (decoded : List (UInt32 × List UInt8)) :
    Filed (d.updated update decoded) := by
  have hfiles := filesUnder_joined h hrepresentative
  exact filed_fileValues (filed_fileIds (filed_joined h update) hfiles) (fileIds_isSelf hfiles) decoded

theorem filed_step (h : Filed d) (s : Step) : Filed (d.step s) := by
  cases s with
  | announce fields => exact ⟨h.flat, h.zero, h.values, h.online, h.localPresence⟩
  | apply update =>
    show Filed (d.apply update).2
    by_cases hrefuses : d.Refuses update
    · rwa [apply_of_refuses hrefuses]
    · obtain ⟨decoded, fuel, happly⟩ := apply_of_accepts hrefuses
      rw [happly]
      exact rebuild_induction (fun _ hd => hd)
        (fun _ _ _ _ hd => ⟨hd.flat, hd.zero, hd.values, hd.online, hd.localPresence⟩)
        (fun _ _ _ hd hne hfolded hkeep => filed_foldIdentity hd hne hfolded hkeep)
        (filed_updated h (fun e => hrefuses (Or.inl e)) decoded) fuel

theorem filed_run (steps : List Step) : Filed (run step {} steps) :=
  run_invariant' (I := Filed) (fun _ s hd => filed_step hd s) kept_empty.toFiled steps

/-- **Index rebuilding terminates.** When an update of a run has been filed, every call of the
rebuilding that recurses really folds one of the duplicates it has queued and leaves fewer entries
in `values` to the next call; so there is a last call, and its indexes are the ones kept. -/
theorem rebuild_terminates (steps : List Step) (update : PresenceUpdate)
    (decoded : List (UInt32 × List UInt8))
    (hrepresentative : (run step {} steps).representative update ≠ 0)
    (hpayload : (run step {} steps).readPayload update = .ok decoded) :
    (∀ e, Calls ((run step {} steps).updated update decoded) e → e.Recurses →
      (∃ duplicate, e.ReallyFolds duplicate) ∧ e.nextRound.values.size < e.values.size) ∧
    ∃ e, Calls ((run step {} steps).updated update decoded) e ∧ ¬ e.Recurses ∧
      ((run step {} steps).apply update).2 = e.indexed := by
  have hfiled := filed_updated (filed_run steps) hrepresentative decoded
  refine ⟨fun e hcalls hrecurses => progress_of_filed (hcalls.filed hfiled) hrecurses, ?_⟩
  have hpos : 0 < ((run step {} steps).updated update decoded).values.size :=
    size_pos_of_mem ExtTreeMap.mem_insert_self
  have happly : ((run step {} steps).apply update).2 =
      ((run step {} steps).updated update decoded).rebuildIdentityIndexes
        ((run step {} steps).updated update decoded).values.size := by
    simp [apply, hrepresentative, hpayload]
    rfl
  rw [happly]
  exact exists_last_call hfiled hpos le_rfl

/-- Presence `id` reports the value 7 in field 0. -/
def report (id : UInt32) : PresenceUpdate where
  localPresenceId := id
  masterPresenceId := 0
  fieldData := [0, 0, 0, 7]
  clearedHandles := []
  handles := [0]
  variableSizes := []
  online := true

/-- Field 0, four bytes wide, of the given type. -/
def fieldOfType (identifier : UInt8) : PresenceFields where
  entries := [{
    handle := 0
    identifier := identifier
    flags := .fromBits 0
    fixedSize := some 4 }]

/-- Two presences report 7 as account info; the second report folds them. -/
def sharingRun : List Step := [.announce (fieldOfType typeAccountInfo), .apply (report 1)]

/-- The second report of one account. -/
theorem rebuild_terminates_sharing :
    (∀ e, Calls ((run step {} sharingRun).updated (report 2) [(0, [0, 0, 0, 7])]) e → e.Recurses →
      (∃ duplicate, e.ReallyFolds duplicate) ∧ e.nextRound.values.size < e.values.size) ∧
    ∃ e, Calls ((run step {} sharingRun).updated (report 2) [(0, [0, 0, 0, 7])]) e ∧
      ¬ e.Recurses ∧ ((run step {} sharingRun).apply (report 2)).2 = e.indexed :=
  rebuild_terminates sharingRun (report 2) [(0, [0, 0, 0, 7])] (by decide) (by decide +kernel)

/-- The rebuilding after that report queues the first presence, and recurses. -/
example : ((run step {} sharingRun).updated (report 2) [(0, [0, 0, 0, 7])]).scanIdentities.duplicates
    = [(1, 2)] := by decide +kernel

end PresenceDirectory

end Superiority
