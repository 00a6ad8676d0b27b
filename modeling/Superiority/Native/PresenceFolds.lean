import Superiority.Native.PresenceRounds

/-!
# One presence per account

After an update the directory scans the people it knows, and folds two of them into one when they
carry the same account. A round of folds changes values and may bring up new duplicates, so the
scan is repeated until it queues none.

* **`Carries`** – a representative with a local presence id whose values decode to the account.
* **`Scanned`** – what a scan that has queued nothing knows: each account it has met has one
  carrier, its owner, and the index candidate is the owner's local presence id.
* **`foldsInto_rebuild`** – what it does to the values before is a run of folds, and a fold loses
  no value of a field that the kept person does not have.

An update that is refused leaves the directory as it is, indexes included, so what holds after the
accepted ones (**`onePresence_apply`**) need not hold after it: an announcement may have changed
what the values decode to (`retypingRun`).
-/

namespace Superiority

open Std

namespace PresenceDirectory

variable {d : PresenceDirectory}

/-! ## The statement -/

/-- `presence_for_account`. -/
def presenceForAccount (d : PresenceDirectory) (account : UInt32) : Option UInt32 :=
  d.accountPresence[account]?

/-- The id is a representative with a local presence id, and it decodes to the account. -/
structure Carries (d : PresenceDirectory) (id account : UInt32) : Prop where
  self : d.IsSelf id
  present : id ∈ d.localPresence
  decodes : (d.identity id).accountId = some account

/-- One presence per account, and the index answers with its local presence id. -/
structure OnePresence (d : PresenceDirectory) : Prop where
  unique : ∀ account j k, d.Carries j account → d.Carries k account → j = k
  indexed : ∀ account presence, d.presenceForAccount account = some presence ↔
    ∃ k, d.Carries k account ∧ d.localPresence[k]? = some presence

/-- The value of a field filed under an id. -/
def fieldValue (d : PresenceDirectory) (id handle : UInt32) : Option (List UInt8) :=
  d.values[id]?.bind fun values => values[handle]?

/-- A fold: the id that is folded and the one that is kept. -/
def foldStep (d : PresenceDirectory) (fold : UInt32 × UInt32) : PresenceDirectory :=
  d.foldIdentity fold.1 fold.2

/-- Every field value of the folded presence is found under the kept one, except where that one
holds the field; there it keeps its own value. -/
def LosesNothing (d : PresenceDirectory) (fold : UInt32 × UInt32) : Prop :=
  fold.1 ≠ fold.2 ∧ ∀ handle value, d.fieldValue fold.1 handle = some value →
    (d.foldStep fold).fieldValue fold.2 handle = some value ∨
      d.fieldValue fold.2 handle ≠ none ∧
        (d.foldStep fold).fieldValue fold.2 handle = d.fieldValue fold.2 handle

/-- The values of `d'` are those of `d` after a run of folds, none of which loses a value. -/
def FoldsInto (d d' : PresenceDirectory) : Prop :=
  ∃ folds, StepsMeet foldStep LosesNothing d folds ∧ d'.values = (run foldStep d folds).values

/-! ## Folds -/

theorem fieldValue_foldIdentity {folded keep : UInt32} (hne : folded ≠ keep) (handle : UInt32) :
    (d.foldIdentity folded keep).fieldValue keep handle =
      (d.fieldValue keep handle).or (d.fieldValue folded handle) := by
  simp only [fieldValue, foldIdentity, getElem?_moveKey_new hne]
  cases hfolded : d.values[folded]? with
  | none => simp
  | some moved =>
    cases hkeep : d.values[keep]? with
    | none => simp
    | some kept => simp [getElem?_fillFrom]

theorem losesNothing_of_ne {fold : UInt32 × UInt32} (hne : fold.1 ≠ fold.2) :
    d.LosesNothing fold := by
  refine ⟨hne, fun handle value hvalue => ?_⟩
  rw [foldStep, fieldValue_foldIdentity hne, hvalue]
  by_cases hkept : d.fieldValue fold.2 handle = none
  · exact Or.inl (by simp [hkept])
  · obtain ⟨kept, hkept'⟩ := Option.ne_none_iff_exists'.1 hkept
    exact Or.inr ⟨hkept, by simp [hkept']⟩

theorem FoldsInto.refl (d : PresenceDirectory) : FoldsInto d d := ⟨[], trivial, rfl⟩

/-- One more fold at the end of a run. -/
theorem FoldsInto.snoc {d' : PresenceDirectory} (h : FoldsInto d d') {folded keep : UInt32}
    (hne : folded ≠ keep) : FoldsInto d (d'.foldIdentity folded keep) := by
  obtain ⟨folds, hmeets, hvalues⟩ := h
  refine ⟨folds ++ [(folded, keep)], stepsMeet_append.2 ⟨hmeets, ?_, trivial⟩, ?_⟩
  · exact losesNothing_of_ne hne
  · simp [foldStep, foldIdentity, hvalues]

/-- **What a rebuild does to the values** is a run of folds that lose nothing. -/
theorem foldsInto_rebuild (h : Filed d) (fuel : Nat) :
    FoldsInto d (d.rebuildIdentityIndexes fuel) :=
  (rebuild_induction (P := fun d' => Filed d' ∧ FoldsInto d d') (fun _ hd => hd.1)
    (fun _ _ _ _ hd => ⟨⟨hd.1.flat, hd.1.zero, hd.1.values, hd.1.online, hd.1.localPresence⟩,
      hd.2⟩)
    (fun _ _ _ hd hne hfolded hkeep =>
      ⟨filed_foldIdentity hd.1 hne hfolded hkeep, hd.2.snoc hne⟩)
    ⟨h, FoldsInto.refl d⟩ fuel).2

/-! ## The scan -/

/-- The account an entry of `values` carries, with its local presence id. -/
def carried (d : PresenceDirectory) (id : UInt32) (values : FieldValues) :
    Option (UInt32 × UInt32) :=
  d.localPresence[id]?.bind fun presence =>
    (accountOfValues values d.fields).map fun account => (presence, account)

theorem carries_iff (h : Filed d) {id account : UInt32} :
    d.Carries id account ↔
      ∃ values presence, d.values[id]? = some values ∧ d.carried id values = some (presence, account) := by
  constructor
  · intro hc
    obtain ⟨presence, hpresence⟩ :=
      Option.isSome_iff_exists.1 (ExtTreeMap.mem_iff_isSome_getElem?.1 hc.present)
    have hdecodes := hc.decodes
    rw [identity, hc.self.canonical] at hdecodes
    cases hvalues : d.values[id]? with
    | none => simp [hvalues] at hdecodes
    | some values =>
      simp only [hvalues, identityFromValues] at hdecodes
      exact ⟨values, presence, rfl, by simp [carried, hpresence, hdecodes]⟩
  · rintro ⟨values, presence, hvalues, hcarried⟩
    simp only [carried, Option.bind_eq_some_iff, Option.map_eq_some_iff, Prod.mk.injEq] at hcarried
    obtain ⟨_, hpresence, _, haccount, rfl, rfl⟩ := hcarried
    have hmem : id ∈ d.localPresence := ExtTreeMap.mem_iff_isSome_getElem?.2 (by simp [hpresence])
    have hself := h.localPresence id hmem
    refine ⟨hself, hmem, ?_⟩
    simp [identity, hself.canonical, hvalues, identityFromValues, haccount]

/-- The account part of an index scan: profiles and toon handles take no part in it. -/
structure SameAccounts (scan scan' : IndexScan) : Prop where
  owners : scan.owners = scan'.owners
  candidates : scan.accountCandidates = scan'.accountCandidates
  duplicates : scan.duplicates = scan'.duplicates

theorem scanIdentity_of_carried_none {scan : IndexScan} {id : UInt32} {values : FieldValues}
    (h : d.carried id values = none) : SameAccounts (d.scanIdentity scan id values) scan := by
  unfold scanIdentity
  cases hpresence : d.localPresence[id]? with
  | none => exact ⟨rfl, rfl, rfl⟩
  | some presence =>
    have haccount : accountOfValues values d.fields = none := by
      simpa [carried, hpresence] using h
    dsimp only [identityFromValues]
    rw [haccount]
    dsimp only
    split <;> split <;> exact ⟨rfl, rfl, rfl⟩

theorem scanIdentity_of_carried {scan : IndexScan} {id presence account : UInt32}
    {values : FieldValues} (h : d.carried id values = some (presence, account)) :
    SameAccounts (d.scanIdentity scan id values)
      (d.scanAccount scan id presence values account) := by
  simp only [carried, Option.bind_eq_some_iff, Option.map_eq_some_iff, Prod.mk.injEq] at h
  obtain ⟨_, hpresence, _, haccount, rfl, rfl⟩ := h
  unfold scanIdentity
  dsimp only [identityFromValues]
  rw [hpresence, haccount]
  dsimp only
  split <;> split <;> exact ⟨rfl, rfl, rfl⟩

/-- What a scan knows of the entries it has passed when it has queued no duplicate: the owner of
an account is the one id that carries it, and its local presence id is the candidate. -/
structure Scanned (d : PresenceDirectory) (entries : List (UInt32 × FieldValues))
    (scan : IndexScan) : Prop where
  owner : ∀ account id : UInt32, scan.owners[account]? = some id ↔
    ∃ entry ∈ entries, entry.1 = id ∧ (d.carried id entry.2).map (·.2) = some account
  candidate : ∀ account : UInt32, scan.accountCandidates[account]?.map (·.2) =
    scan.owners[account]?.bind fun id => d.localPresence[id]?

theorem Scanned.congr {entries : List (UInt32 × FieldValues)} {scan scan' : IndexScan}
    (h : Scanned d entries scan') (hsame : SameAccounts scan scan') : Scanned d entries scan where
  owner account id := by rw [hsame.owners, h.owner]
  candidate account := by rw [hsame.candidates, hsame.owners, h.candidate]

/-- The first id met with an account becomes its owner; nothing is queued. -/
theorem scanAccount_fresh {scan : IndexScan} {account : UInt32}
    (h : scan.owners[account]? = none) (hcandidate : scan.accountCandidates[account]? = none)
    (id presence : UInt32) (values : FieldValues) :
    (d.scanAccount scan id presence values account).owners = scan.owners.insert account id ∧
      (d.scanAccount scan id presence values account).duplicates = scan.duplicates ∧
      (d.scanAccount scan id presence values account).accountCandidates =
        scan.accountCandidates.insert account
          (accountFieldPriority values d.fields, presence) := by
  unfold scanAccount
  rw [h]
  simp [hcandidate]

theorem scanned_scanIdentity {entries : List (UInt32 × FieldValues)} {scan : IndexScan}
    (h : Scanned d entries scan) (entry : UInt32 × FieldValues)
    (hnone : (d.scanIdentity scan entry.1 entry.2).duplicates = []) :
    Scanned d (entries ++ [entry]) (d.scanIdentity scan entry.1 entry.2) := by
  cases hcarried : d.carried entry.1 entry.2 with
  | none =>
    refine Scanned.congr ⟨fun account id => ?_, h.candidate⟩ (scanIdentity_of_carried_none hcarried)
    rw [h.owner]
    constructor
    · rintro ⟨e, he, hid⟩
      exact ⟨e, List.mem_append_left _ he, hid⟩
    · rintro ⟨e, he, rfl, haccount⟩
      rcases List.mem_append.1 he with he | he
      · exact ⟨e, he, rfl, haccount⟩
      · rw [List.mem_singleton.1 he, hcarried] at haccount
        cases haccount
  | some carrier =>
    obtain ⟨presence, account⟩ := carrier
    have hsame : SameAccounts (d.scanIdentity scan entry.1 entry.2)
        (d.scanAccount scan entry.1 presence entry.2 account) := scanIdentity_of_carried hcarried
    rw [hsame.duplicates] at hnone
    refine Scanned.congr ?_ hsame
    have hpresence : d.localPresence[entry.1]? = some presence := by
      simp only [carried, Option.bind_eq_some_iff, Option.map_eq_some_iff, Prod.mk.injEq]
        at hcarried
      obtain ⟨_, hpresence, _, -, rfl, -⟩ := hcarried
      exact hpresence
    cases howner : scan.owners[account]? with
    | some held =>
      -- A second carrier would have been queued.
      have hqueued := (scanAccount_held (d := d) howner entry.1 presence entry.2).2
      rw [hnone] at hqueued
      exact absurd hqueued.symm (by simp)
    | none =>
      have hcandidate : scan.accountCandidates[account]? = none := by
        simpa [howner] using h.candidate account
      obtain ⟨howners, -, hcandidates⟩ :=
        scanAccount_fresh (d := d) howner hcandidate entry.1 presence entry.2
      refine ⟨fun other id => ?_, fun other => ?_⟩
      · rw [howners]
        by_cases hother : account = other
        · subst hother
          rw [ExtTreeMap.getElem?_insert_self, Option.some.injEq]
          constructor
          · rintro rfl
            exact ⟨entry, by simp, rfl, by simp [hcarried]⟩
          · rintro ⟨e, he, rfl, haccount⟩
            rcases List.mem_append.1 he with he | he
            · rw [(h.owner account e.1).2 ⟨e, he, rfl, haccount⟩] at howner
              cases howner
            · rw [List.mem_singleton.1 he]
        · rw [getElem?_insert_of_ne hother, h.owner]
          constructor
          · rintro ⟨e, he, hid⟩
            exact ⟨e, List.mem_append_left _ he, hid⟩
          · rintro ⟨e, he, rfl, haccount⟩
            rcases List.mem_append.1 he with he | he
            · exact ⟨e, he, rfl, haccount⟩
            · rw [List.mem_singleton.1 he, hcarried] at haccount
              exact absurd (Option.some.inj haccount) hother
      · rw [howners, hcandidates]
        by_cases hother : account = other
        · subst hother
          simp [hpresence]
        · rw [getElem?_insert_of_ne hother, getElem?_insert_of_ne hother, h.candidate]

/-- The queue of a scan only grows. -/
theorem duplicates_scanIdentity {scan : IndexScan} {id : UInt32} {values : FieldValues}
    (h : (d.scanIdentity scan id values).duplicates = []) : scan.duplicates = [] := by
  cases hcarried : d.carried id values with
  | none => rwa [(scanIdentity_of_carried_none hcarried).duplicates] at h
  | some carrier =>
    rw [(scanIdentity_of_carried hcarried).duplicates] at h
    unfold scanAccount at h
    cases howner : scan.owners[carrier.2]? with
    | none => simpa [howner] using h
    | some held => simp [howner] at h

theorem scanned_foldl (passed entries : List (UInt32 × FieldValues)) {scan : IndexScan}
    (h : scan.duplicates = [] → Scanned d passed scan)
    (hnone : (entries.foldl (fun scan e => d.scanIdentity scan e.1 e.2) scan).duplicates = []) :
    Scanned d (passed ++ entries)
      (entries.foldl (fun scan e => d.scanIdentity scan e.1 e.2) scan) := by
  induction entries generalizing passed scan with
  | nil =>
    rw [List.append_nil]
    exact h hnone
  | cons entry entries ih =>
    rw [List.foldl_cons] at hnone ⊢
    rw [List.append_cons]
    refine ih (passed ++ [entry]) (fun hentry => ?_) hnone
    exact scanned_scanIdentity (h (duplicates_scanIdentity hentry)) entry hentry

theorem scanned_scanIdentities (hnone : d.scanIdentities.duplicates = []) :
    Scanned d d.values.toList d.scanIdentities := by
  rw [scanIdentities, ExtTreeMap.foldl_eq_foldl_toList] at hnone ⊢
  have hempty : Scanned d [] {} := ⟨fun _ _ => by simp, fun _ => by simp⟩
  exact scanned_foldl [] d.values.toList (fun _ => hempty) hnone

/-- The owners of a scan that has queued nothing are the carriers. -/
theorem owner_iff_carries (h : Filed d) (hnone : d.scanIdentities.duplicates = [])
    {account id : UInt32} :
    d.scanIdentities.owners[account]? = some id ↔ d.Carries id account := by
  rw [(scanned_scanIdentities hnone).owner, carries_iff h]
  simp [ExtTreeMap.mem_toList_iff_getElem?_eq_some]

/-- A scan that queues nothing leaves one presence per account, and indexes it. -/
theorem onePresence_of_scan (h : Filed d) (hnone : d.scanIdentities.duplicates = []) :
    OnePresence { d.withIndexes d.scanIdentities with
      accountPresence :=
        d.scanIdentities.accountCandidates.map fun _ candidate => candidate.2 } := by
  have howner : ∀ account id : UInt32, d.scanIdentities.owners[account]? = some id ↔
      d.Carries id account := fun _ _ => owner_iff_carries h hnone
  have hcarries : ∀ id account, Carries { d.withIndexes d.scanIdentities with
      accountPresence :=
        d.scanIdentities.accountCandidates.map fun _ candidate => candidate.2 } id account →
      d.Carries id account := fun _ _ hc => ⟨hc.self, hc.present, hc.decodes⟩
  refine ⟨fun account j k hj hk => ?_, fun account presence => ?_⟩
  · have howned := (howner account j).2 (hcarries _ _ hj)
    rw [(howner account k).2 (hcarries _ _ hk)] at howned
    exact (Option.some.inj howned).symm
  · rw [presenceForAccount, ExtTreeMap.getElem?_map, (scanned_scanIdentities hnone).candidate,
      Option.bind_eq_some_iff]
    constructor
    · rintro ⟨k, hk, hpresence⟩
      have hc := (howner account k).1 hk
      exact ⟨k, ⟨hc.self, hc.present, hc.decodes⟩, hpresence⟩
    · rintro ⟨k, hk, hpresence⟩
      exact ⟨k, (howner account k).2 (hcarries _ _ hk), hpresence⟩

/-! ## One update -/

/-- An update that is answered was filed, and the indexes rebuilt. -/
theorem apply_of_ok {update : PresenceUpdate} {identity : PresenceIdentity}
    (h : (d.apply update).1 = .ok identity) :
    d.representative update ≠ 0 ∧ ∃ decoded, d.readPayload update = .ok decoded ∧
      (d.apply update).2 = (d.updated update decoded).rebuildIdentityIndexes
        (d.updated update decoded).values.size := by
  unfold apply at h ⊢
  by_cases hzero : d.representative update = 0
  · simp [hzero] at h
  · cases hpayload : d.readPayload update with
    | error e => simp [hzero, hpayload] at h
    | ok decoded => exact ⟨hzero, decoded, rfl, by simp [hzero]; rfl⟩

/-- **One presence per account.** After an update that is answered no two representatives with a
local presence id carry one account, the account index answers with the local presence id of the
carrier, and the folds on the way lost no value that the kept presence did not have. -/
theorem onePresence_apply (steps : List Step) (update : PresenceUpdate)
    (identity : PresenceIdentity)
    (h : ((run step {} steps).apply update).1 = .ok identity) :
    OnePresence ((run step {} steps).apply update).2 ∧
      ∃ decoded, (run step {} steps).readPayload update = .ok decoded ∧
        FoldsInto ((run step {} steps).updated update decoded)
          ((run step {} steps).apply update).2 := by
  obtain ⟨hrepresentative, decoded, hpayload, happly⟩ := apply_of_ok h
  have hfiled := filed_updated (filed_run steps) hrepresentative decoded
  rw [happly]
  refine ⟨?_, decoded, hpayload, foldsInto_rebuild hfiled _⟩
  have hpos : 0 < ((run step {} steps).updated update decoded).values.size :=
    size_pos_of_mem ExtTreeMap.mem_insert_self
  obtain ⟨e, hcalls, hlast, hends⟩ := exists_last_call hfiled hpos le_rfl
  rw [hends]
  exact onePresence_of_scan (hcalls.filed hfiled) (not_not.1 hlast)

theorem onePresence_sharing :
    OnePresence ((run step {} sharingRun).apply (report 2)).2 ∧
      ∃ decoded, (run step {} sharingRun).readPayload (report 2) = .ok decoded ∧
        FoldsInto ((run step {} sharingRun).updated (report 2) decoded)
          ((run step {} sharingRun).apply (report 2)).2 :=
  onePresence_apply sharingRun (report 2)
    { accountId := some 7, state := .available } (by decide +kernel)

/-- Two presences report 7 in a field that becomes account info only afterwards. -/
def retypingRun : List Step :=
  [.announce (fieldOfType 0), .apply (report 1), .apply (report 2),
    .announce (fieldOfType typeAccountInfo)]

/-- An update without ids is refused, and both presences go on carrying the account. -/
theorem retypingRun_not_onePresence :
    ¬ ∀ steps update, OnePresence ((run step {} steps).apply update).2 := by
  intro h
  have hone := h retypingRun (report 0)
  have hcarries : ∀ id ∈ [(1 : UInt32), 2],
      ((run step {} retypingRun).apply (report 0)).2.Carries id 7 := by
    intro id hid
    simp only [List.mem_cons, List.not_mem_nil, or_false] at hid
    rcases hid with rfl | rfl
    · exact ⟨by unfold IsSelf; decide +kernel, by decide +kernel, by decide +kernel⟩
    · exact ⟨by unfold IsSelf; decide +kernel, by decide +kernel, by decide +kernel⟩
  exact absurd (hone.unique 7 1 2 (hcarries 1 (by simp)) (hcarries 2 (by simp))) (by decide)

end PresenceDirectory

end Superiority
