import Superiority.Library.Run
import Superiority.Sc2.Profiles

/-!
# Profile lookups are asked once

The resolver files a profile address in one of three places: the queue, the lookups that wait for
an answer, and the avatars that are known. `Accounted` says how the three and the requests sent so
far belong together after a number of addresses were taken from the queue; a request number is
drawn for each, so it holds until all numbers have been drawn.

* **`accounted_enqueueMissing`**, **`accounted_receive`** – what is missing, and what is answered.
* **`asks_pump`** – a `pump` takes some addresses from the queue and accounts for each of them.
* **`statesMeet_askedOnce`** – the runs.
-/

namespace Superiority.Sc2

open Std

/-! ## What was asked -/

/-- The address that a request asks for. -/
def profileAsked : Request → Option ProfileAddress
  | .profileRead _ address => some address
  | _ => none

/-- The friend account that a request asks for. -/
def accountAsked : Request → Option UInt32
  | .friendToons accountId => some accountId
  | _ => none

/-- A resolver, the requests it has sent, and the number of addresses taken from its queue. -/
structure Accounted (s : Resolving) (taken : Nat) : Prop where
  queued : ∀ address, address ∈ s.profiles.queued ↔ address ∈ s.profiles.queue
  nodup : s.profiles.queue.Nodup
  pendingNotQueued : ∀ (id : UInt32) address, s.profiles.pending[id]? = some address →
    address ∉ s.profiles.queue
  knownNotQueued : ∀ address ∈ s.profiles.avatars, address ∉ s.profiles.queue
  pendingNotKnown : ∀ (id : UInt32) address, s.profiles.pending[id]? = some address →
    address ∉ s.profiles.avatars
  distinct : ∀ (id id' : UInt32) address, s.profiles.pending[id]? = some address →
    s.profiles.pending[id']? = some address → id = id'
  size : s.profiles.pending.size ≤ Resolving.maxInFlight
  next : s.profiles.nextRequestId = UInt32.ofNat taken
  drawn : ∀ id ∈ s.profiles.pending, id.toNat < taken
  sentFiled : ∀ address ∈ s.sent.filterMap profileAsked,
    address ∈ s.profiles.avatars ∨ ∃ id : UInt32, s.profiles.pending[id]? = some address
  sentOnce : (s.sent.filterMap profileAsked).Nodup
  accountsRequested : ∀ accountId ∈ s.sent.filterMap accountAsked,
    accountId ∈ s.profiles.requestedFriendAccounts
  accountsOnce : (s.sent.filterMap accountAsked).Nodup

namespace Accounted

variable {s : Resolving} {taken : Nat}

theorem initial : Accounted {} 0 where
  queued address := by simp
  nodup := List.nodup_nil
  pendingNotQueued id address h := by simp at h
  knownNotQueued address h := by simp at h
  pendingNotKnown id address h := by simp at h
  distinct id id' address h := by simp at h
  size := by simp
  next := rfl
  drawn id h := by simp at h
  sentFiled address h := by simp at h
  sentOnce := List.nodup_nil
  accountsRequested accountId h := by simp at h
  accountsOnce := List.nodup_nil

/-- The friend accounts may change as they like, but that none is forgotten. -/
theorem of_accounts (h : Accounted s taken) {profiles : ProfileResolver}
    (hsame : profiles = { s.profiles with
      queuedFriendAccounts := profiles.queuedFriendAccounts
      friendAccountQueue := profiles.friendAccountQueue
      requestedFriendAccounts := profiles.requestedFriendAccounts })
    (hrequested : ∀ accountId ∈ s.profiles.requestedFriendAccounts,
      accountId ∈ profiles.requestedFriendAccounts) : Accounted { s with profiles } taken where
  queued := hsame ▸ h.queued
  nodup := hsame ▸ h.nodup
  pendingNotQueued := hsame ▸ h.pendingNotQueued
  knownNotQueued := hsame ▸ h.knownNotQueued
  pendingNotKnown := hsame ▸ h.pendingNotKnown
  distinct := hsame ▸ h.distinct
  size := hsame ▸ h.size
  next := hsame ▸ h.next
  drawn := hsame ▸ h.drawn
  sentFiled := hsame ▸ h.sentFiled
  sentOnce := h.sentOnce
  accountsRequested accountId hsent := hrequested accountId (h.accountsRequested accountId hsent)
  accountsOnce := h.accountsOnce

/-! ## What is missing -/

theorem enqueue (h : Accounted s taken) (address : ProfileAddress) :
    Accounted { s with profiles := s.profiles.enqueue address } taken := by
  unfold ProfileResolver.enqueue
  by_cases hfiled : s.profiles.avatars.contains address || s.profiles.queued.contains address
      || (valuesOf s.profiles.pending).any (· = address)
  · rw [if_pos hfiled]
    exact h
  · rw [if_neg hfiled]
    simp only [Bool.or_eq_true, not_or, List.any_eq_true, decide_eq_true_eq] at hfiled
    obtain ⟨⟨hknown, hqueued⟩, hpending⟩ := hfiled
    have hknown : address ∉ s.profiles.avatars := fun hmem => hknown hmem
    have hqueue : address ∉ s.profiles.queue := fun hmem => hqueued ((h.queued address).2 hmem)
    have hpending : ∀ id : UInt32, s.profiles.pending[id]? ≠ some address := fun id hid =>
      hpending ⟨address, mem_valuesOf.2 ⟨id, hid⟩, rfl⟩
    refine { h with
      queued := fun other => ?_
      nodup := h.nodup.append (List.nodup_singleton address) fun other hother hsame =>
        hqueue (List.mem_singleton.1 hsame ▸ hother)
      pendingNotQueued := fun id other hid hmem => ?_
      knownNotQueued := fun other hother hmem => ?_ }
    · rw [ExtTreeSet.mem_insert, Std.compare_eq_iff_eq, h.queued, List.mem_append,
        List.mem_singleton, or_comm, eq_comm]
    · rcases List.mem_append.1 hmem with hmem | hmem
      · exact h.pendingNotQueued id other hid hmem
      · exact hpending id (List.mem_singleton.1 hmem ▸ hid)
    · rcases List.mem_append.1 hmem with hmem | hmem
      · exact h.knownNotQueued other hother hmem
      · exact hknown (List.mem_singleton.1 hmem ▸ hother)

theorem enqueueIf (h : Accounted s taken) (address : Option ProfileAddress) :
    Accounted { s with profiles := s.profiles.enqueueIf address } taken := by
  cases address with
  | none => exact h
  | some address => exact h.enqueue address

theorem enqueueAccount (h : Accounted s taken) (accountId : UInt32) :
    Accounted { s with profiles := s.profiles.enqueueAccount accountId } taken := by
  unfold ProfileResolver.enqueueAccount
  by_cases hknown : s.profiles.requestedFriendAccounts.contains accountId
      || s.profiles.queuedFriendAccounts.contains accountId
  · rw [if_pos hknown]
    exact h
  · rw [if_neg hknown]
    exact h.of_accounts rfl fun _ h => h

theorem enqueueFriend (h : Accounted s taken) (friend : FriendEntry) :
    Accounted { s with profiles := s.profiles.enqueueFriend friend } taken := by
  unfold ProfileResolver.enqueueFriend
  have hprofile := h.enqueueIf friend.profile
  cases ProfileResolver.nameless friend with
  | none => exact hprofile
  | some accountId => exact hprofile.enqueueAccount accountId

theorem foldl {α : Type} {f : ProfileResolver → α → ProfileResolver}
    (hf : ∀ s a, Accounted s taken → Accounted { s with profiles := f s.profiles a } taken)
    (h : Accounted s taken) (as : List α) :
    Accounted { s with profiles := as.foldl f s.profiles } taken := by
  induction as generalizing s with
  | nil => exact h
  | cons a as ih => exact ih (hf s a h)

theorem enqueueMissing (h : Accounted s taken) (channels : List ChannelState)
    (friends : Friends) :
    Accounted { s with profiles := s.profiles.enqueueMissing channels friends } taken :=
  foldl (f := ProfileResolver.enqueueFriend) (fun _ friend h => h.enqueueFriend friend)
    (foldl (f := ProfileResolver.enqueueMember) (fun _ _ h => h.enqueueIf _) h _) _

/-! ## What is answered -/

/-- A lookup is answered: its address becomes known. -/
theorem answered (h : Accounted s taken) {id : UInt32} {address : ProfileAddress}
    (hpending : s.profiles.pending[id]? = some address) (avatar : Option ImageTableEntry) :
    Accounted { s with profiles := { s.profiles with
      pending := s.profiles.pending.erase id
      avatars := s.profiles.avatars.insert address avatar } } taken := by
  have hleft {id' : UInt32} {other : ProfileAddress}
      (hid : (s.profiles.pending.erase id)[id']? = some other) :
      id' ≠ id ∧ s.profiles.pending[id']? = some other := by
    by_cases hsame : id = id'
    · rw [hsame, ExtTreeMap.getElem?_erase_self] at hid
      cases hid
    · exact ⟨Ne.symm hsame, by rwa [getElem?_erase_of_ne hsame] at hid⟩
  have hmem {other : ProfileAddress} :
      other ∈ s.profiles.avatars.insert address avatar ↔
        address = other ∨ other ∈ s.profiles.avatars := by
    rw [ExtTreeMap.mem_insert, Std.compare_eq_iff_eq]
  refine { h with
    pendingNotQueued := fun id' other hid => h.pendingNotQueued id' other (hleft hid).2
    knownNotQueued := fun other hother => ?_
    pendingNotKnown := fun id' other hid hother => ?_
    distinct := fun id' id'' other hid hid' => h.distinct _ _ _ (hleft hid).2 (hleft hid').2
    size := ExtTreeMap.size_erase_le.trans h.size
    drawn := fun id' hid => h.drawn id' (ExtTreeMap.mem_of_mem_erase hid)
    sentFiled := fun other hother => ?_ }
  · rcases hmem.1 hother with rfl | hother
    · exact h.pendingNotQueued id _ hpending
    · exact h.knownNotQueued other hother
  · obtain ⟨hne, hid⟩ := hleft hid
    rcases hmem.1 hother with rfl | hother
    · exact hne (h.distinct _ _ _ hid hpending)
    · exact h.pendingNotKnown id' other hid hother
  · rcases h.sentFiled other hother with hknown | ⟨id', hid'⟩
    · exact Or.inl (hmem.2 (Or.inr hknown))
    · by_cases hsame : id = id'
      · rw [← hsame, hpending] at hid'
        exact Or.inl (hmem.2 (Or.inl (Option.some.inj hid')))
      · exact Or.inr ⟨id', (getElem?_erase_of_ne hsame).trans hid'⟩

theorem receive (h : Accounted s taken) (tables : Tables) (response : ProfileReadResponse) :
    Accounted { s with profiles := (s.profiles.receive tables response).1 } taken := by
  unfold ProfileResolver.receive
  cases hpending : s.profiles.pending[response.requestId]? with
  | none => exact h
  | some address =>
    dsimp only
    cases response.result with
    | start packetCount =>
      dsimp only
      by_cases hzero : packetCount = 0
      · rw [if_pos hzero]
        exact h.answered hpending none
      · rw [if_neg hzero]
        exact h
    | block bytes => exact h.answered hpending _
    | failure code => exact h.answered hpending none
    | cache => exact h.answered hpending none

/-- Presence is nowhere looked at. -/
theorem of_presence (h : Accounted s taken) (presence : PresenceDirectory) :
    Accounted { s with profiles := { s.profiles with presence } } taken :=
  { h with }

theorem observe (h : Accounted s taken) (tables : Tables) (payload : Payload) :
    Accounted { s with profiles := (s.profiles.observe tables payload).1 } taken := by
  cases payload with
  | presenceFields fields => exact h.of_presence _
  | presenceUpdate update => exact h.of_presence _
  | profileRead response => exact h.receive tables response
  | _ => exact h

end Accounted

namespace Resolving

open Stateful

variable {s : Resolving} {taken : Nat}

/-! ## What is asked -/

/-- The state in which an account is taken from the queue. -/
def dequeueAccount (accountId : UInt32) (s : Resolving) : Resolving :=
  { s with profiles := { s.profiles with
    friendAccountQueue := s.profiles.friendAccountQueue.tail
    queuedFriendAccounts := s.profiles.queuedFriendAccounts.erase accountId } }

/-- The state in which an account is marked as asked for. -/
def markAccount (accountId : UInt32) (s : Resolving) : Resolving :=
  { s with profiles := { s.profiles with
    requestedFriendAccounts := s.profiles.requestedFriendAccounts.insert accountId } }

theorem send_apply (m : Moment) (request : Request) (s : Resolving) :
    (send m request s).2 = s ∨ (send m request s).2 = { s with sent := s.sent ++ [request] } := by
  unfold send
  cases m.transmit s.sent request with
  | error e => exact Or.inl rfl
  | ok _ => exact Or.inr rfl

/-- An account is passed over, or it is marked and asked for. -/
theorem askAccount_apply (m : Moment) (accountId : UInt32) (s : Resolving) :
    (askAccount m accountId s).2 = dequeueAccount accountId s ∨
      accountId ∉ s.profiles.requestedFriendAccounts ∧ (askAccount m accountId s).2
        = (send m (.friendToons accountId) (markAccount accountId (dequeueAccount accountId s))).2 := by
  unfold askAccount
  rw [updateProfiles, bind_of_ok (change_apply _ s), bind_of_ok (read_apply _)]
  dsimp only
  by_cases hasked : s.profiles.requestedFriendAccounts.contains accountId
  · rw [if_pos hasked]
    exact Or.inl rfl
  · rw [if_neg hasked]
    exact Or.inr ⟨hasked, rfl⟩

/-- An account that has been marked is asked for. -/
theorem accounted_sendAccount (h : Accounted s taken) {accountId : UInt32}
    (hmarked : accountId ∈ s.profiles.requestedFriendAccounts)
    (hnew : accountId ∉ s.sent.filterMap accountAsked) :
    Accounted { s with sent := s.sent ++ [.friendToons accountId] } taken := by
  have hprofiles : (s.sent ++ [Request.friendToons accountId]).filterMap profileAsked
      = s.sent.filterMap profileAsked := by
    simp [profileAsked]
  have haccounts : (s.sent ++ [Request.friendToons accountId]).filterMap accountAsked
      = s.sent.filterMap accountAsked ++ [accountId] := by
    simp [accountAsked]
  refine { h with
    sentFiled := fun address hsent => h.sentFiled address (hprofiles ▸ hsent)
    sentOnce := hprofiles ▸ h.sentOnce
    accountsRequested := fun other hsent => ?_
    accountsOnce := ?_ }
  · rcases List.mem_append.1 (haccounts ▸ hsent) with hsent | hsent
    · exact h.accountsRequested other hsent
    · exact List.mem_singleton.1 hsent ▸ hmarked
  · rw [haccounts]
    exact h.accountsOnce.append (List.nodup_singleton accountId) fun other hother hsame =>
      hnew (List.mem_singleton.1 hsame ▸ hother)

theorem accounted_askAccount (h : Accounted s taken) (m : Moment) (accountId : UInt32) :
    Accounted (askAccount m accountId s).2 taken := by
  have hdequeued : Accounted (dequeueAccount accountId s) taken := h.of_accounts rfl fun _ h => h
  rcases askAccount_apply m accountId s with heq | ⟨hnew, heq⟩
  · rw [heq]
    exact hdequeued
  · have hmarked : Accounted (markAccount accountId (dequeueAccount accountId s)) taken :=
      hdequeued.of_accounts rfl fun _ h => ExtTreeSet.mem_insert.2 (Or.inr h)
    rw [heq]
    rcases send_apply m (.friendToons accountId)
      (markAccount accountId (dequeueAccount accountId s)) with hsent | hsent
    · rw [hsent]
      exact hmarked
    · rw [hsent]
      exact accounted_sendAccount hmarked ExtTreeSet.mem_insert_self
        fun hasked => hnew (h.accountsRequested accountId hasked)

theorem queue_askAccount (m : Moment) (accountId : UInt32) (s : Resolving) :
    (askAccount m accountId s).2.profiles.queue = s.profiles.queue := by
  rcases askAccount_apply m accountId s with heq | ⟨-, heq⟩
  · rw [heq]
    rfl
  · rw [heq]
    rcases send_apply m (.friendToons accountId)
      (markAccount accountId (dequeueAccount accountId s)) with hsent | hsent <;>
      rw [hsent] <;> rfl

/-- The state in which an address is taken from the queue, and a number drawn for it. -/
def dequeueProfile (address : ProfileAddress) (s : Resolving) : Resolving :=
  { s with profiles := { s.profiles with
    queue := s.profiles.queue.tail
    queued := s.profiles.queued.erase address
    nextRequestId := s.profiles.nextRequestId + 1 } }

/-- The state in which an address has been asked for under a number. -/
def fileProfile (id : UInt32) (address : ProfileAddress) (s : Resolving) : Resolving where
  sent := s.sent ++ [.profileRead id address]
  profiles := { s.profiles with pending := s.profiles.pending.insert id address }

/-- An address is lost with a request that cannot be sent, or it waits for its answer. -/
theorem askProfile_apply (m : Moment) (address : ProfileAddress) (s : Resolving) :
    (askProfile m address s).2 = dequeueProfile address s ∨ (askProfile m address s).2
      = fileProfile s.profiles.nextRequestId address (dequeueProfile address s) := by
  unfold askProfile
  rw [bind_of_ok (read_apply s), updateProfiles, bind_of_ok (change_apply _ s), bind_apply, send]
  dsimp only
  cases m.transmit s.sent (.profileRead s.profiles.nextRequestId address) with
  | error e => exact Or.inl rfl
  | ok _ => exact Or.inr rfl

theorem accounted_dequeueProfile (h : Accounted s taken) {address : ProfileAddress}
    {rest : List ProfileAddress} (hqueue : s.profiles.queue = address :: rest) :
    Accounted (dequeueProfile address s) (taken + 1) := by
  have hrest : (dequeueProfile address s).profiles.queue = rest := by
    rw [dequeueProfile, hqueue]
    rfl
  have hnodup := h.nodup
  rw [hqueue] at hnodup
  have hkept {other : ProfileAddress} (hmem : other ∉ s.profiles.queue) :
      other ∉ (dequeueProfile address s).profiles.queue := by
    rw [hrest]
    exact fun hother => hmem (hqueue ▸ List.mem_cons_of_mem _ hother)
  refine { h with
    queued := fun other => ?_
    nodup := hrest ▸ (List.nodup_cons.1 hnodup).2
    pendingNotQueued := fun id other hid => hkept (h.pendingNotQueued id other hid)
    knownNotQueued := fun other hother => hkept (h.knownNotQueued other hother)
    next := ?_
    drawn := fun id hid => Nat.lt_succ_of_lt (h.drawn id hid) }
  · show other ∈ s.profiles.queued.erase address ↔ _
    rw [hrest, ExtTreeSet.mem_erase, ne_eq, Std.compare_eq_iff_eq, h.queued, hqueue,
      List.mem_cons]
    constructor
    · intro ⟨hne, hmem⟩
      exact hmem.resolve_left (Ne.symm hne)
    · intro hmem
      exact ⟨fun hsame => (List.nodup_cons.1 hnodup).1 (hsame ▸ hmem), Or.inr hmem⟩
  · show s.profiles.nextRequestId + 1 = _
    rw [h.next]
    simp

/-- An address that is filed nowhere is asked for under a number that no lookup has. -/
theorem accounted_fileProfile (h : Accounted s taken) {id : UInt32} {address : ProfileAddress}
    (hqueue : address ∉ s.profiles.queue) (hknown : address ∉ s.profiles.avatars)
    (hpending : ∀ id : UInt32, s.profiles.pending[id]? ≠ some address)
    (hid : id ∉ s.profiles.pending) (hdrawn : id.toNat < taken)
    (hsize : s.profiles.pending.size < maxInFlight) :
    Accounted (fileProfile id address s) taken := by
  have hprofiles : (s.sent ++ [Request.profileRead id address]).filterMap profileAsked
      = s.sent.filterMap profileAsked ++ [address] := by
    simp [profileAsked]
  have haccounts : (s.sent ++ [Request.profileRead id address]).filterMap accountAsked
      = s.sent.filterMap accountAsked := by
    simp [accountAsked]
  have hnew : address ∉ s.sent.filterMap profileAsked := by
    intro hsent
    rcases h.sentFiled address hsent with hmem | ⟨id', hid'⟩
    · exact hknown hmem
    · exact hpending id' hid'
  -- a lookup that waits now is the new one, or has been waiting
  have hwaits {id' : UInt32} {other : ProfileAddress}
      (hid' : (s.profiles.pending.insert id address)[id']? = some other) :
      id = id' ∧ address = other ∨ id ≠ id' ∧ s.profiles.pending[id']? = some other := by
    by_cases hsame : id = id'
    · rw [hsame, ExtTreeMap.getElem?_insert_self] at hid'
      exact Or.inl ⟨hsame, Option.some.inj hid'⟩
    · exact Or.inr ⟨hsame, (getElem?_insert_of_ne hsame address).symm.trans hid'⟩
  refine { h with
    pendingNotQueued := fun id' other hid' => ?_
    pendingNotKnown := fun id' other hid' => ?_
    distinct := fun id' id'' other hid' hid'' => ?_
    size := ?_
    drawn := fun id' hid' => ?_
    sentFiled := fun other hother => ?_
    sentOnce := ?_
    accountsRequested := fun accountId hsent => h.accountsRequested accountId (haccounts ▸ hsent)
    accountsOnce := haccounts ▸ h.accountsOnce }
  · rcases hwaits hid' with ⟨-, rfl⟩ | ⟨-, hid'⟩
    · exact hqueue
    · exact h.pendingNotQueued id' other hid'
  · rcases hwaits hid' with ⟨-, rfl⟩ | ⟨-, hid'⟩
    · exact hknown
    · exact h.pendingNotKnown id' other hid'
  · rcases hwaits hid' with ⟨rfl, rfl⟩ | ⟨-, hid'⟩
    · rcases hwaits hid'' with ⟨hsame, -⟩ | ⟨-, hid''⟩
      · exact hsame
      · exact absurd hid'' (hpending id'')
    · rcases hwaits hid'' with ⟨-, rfl⟩ | ⟨-, hid''⟩
      · exact absurd hid' (hpending id')
      · exact h.distinct id' id'' other hid' hid''
  · show (s.profiles.pending.insert id address).size ≤ maxInFlight
    rw [ExtTreeMap.size_insert, if_neg (show ¬s.profiles.pending.contains id = true from hid)]
    exact hsize
  · rcases ExtTreeMap.mem_insert.1 hid' with hsame | hid'
    · exact Std.LawfulEqCmp.eq_of_compare hsame ▸ hdrawn
    · exact h.drawn id' hid'
  · rcases List.mem_append.1 (hprofiles ▸ hother) with hother | hother
    · rcases h.sentFiled other hother with hmem | ⟨id', hid'⟩
      · exact Or.inl hmem
      · have hne : id ≠ id' := fun hsame =>
          hid (hsame ▸ ExtTreeMap.mem_iff_isSome_getElem?.2 (by rw [hid']; rfl))
        exact Or.inr ⟨id', (getElem?_insert_of_ne hne address).trans hid'⟩
    · rw [List.mem_singleton.1 hother]
      exact Or.inr ⟨id, ExtTreeMap.getElem?_insert_self⟩
  · show ((s.sent ++ [Request.profileRead id address]).filterMap profileAsked).Nodup
    rw [hprofiles]
    exact h.sentOnce.append (List.nodup_singleton address) fun other hother hsame =>
      hnew (List.mem_singleton.1 hsame ▸ hother)

theorem accounted_askProfile (h : Accounted s taken) (m : Moment) {address : ProfileAddress}
    {rest : List ProfileAddress} (hqueue : s.profiles.queue = address :: rest)
    (hsize : s.profiles.pending.size < maxInFlight) (hbound : taken < 2 ^ 32) :
    Accounted (askProfile m address s).2 (taken + 1) := by
  have hdequeued := accounted_dequeueProfile h hqueue
  have hmem : address ∈ s.profiles.queue := hqueue ▸ List.mem_cons_self
  have hnext : s.profiles.nextRequestId.toNat = taken := by
    rw [h.next, UInt32.toNat_ofNat']
    exact Nat.mod_eq_of_lt hbound
  rcases askProfile_apply m address s with heq | heq
  · rw [heq]
    exact hdequeued
  · rw [heq]
    refine accounted_fileProfile hdequeued ?_ ?_ ?_ ?_ ?_ hsize
    · have hnodup := hqueue ▸ h.nodup
      show address ∉ s.profiles.queue.tail
      rw [hqueue]
      exact (List.nodup_cons.1 hnodup).1
    · exact fun hknown => h.knownNotQueued address hknown hmem
    · exact fun id hid => h.pendingNotQueued id address hid hmem
    · exact fun hdrawn => absurd (h.drawn _ hdrawn) (by rw [hnext]; exact Nat.lt_irrefl taken)
    · exact hnext ▸ Nat.lt_succ_self taken

theorem queue_askProfile (m : Moment) (address : ProfileAddress) (s : Resolving) :
    (askProfile m address s).2.profiles.queue = s.profiles.queue.tail := by
  rcases askProfile_apply m address s with heq | heq <;> rw [heq] <;> rfl

/-- From one state to another some addresses are taken from the queue, each accounted for. -/
def Asks (s t : Resolving) : Prop :=
  ∃ count, t.profiles.queue.length + count = s.profiles.queue.length ∧
    ∀ taken, taken + count < 2 ^ 32 → Accounted s taken → Accounted t (taken + count)

instance : Std.Refl Asks where
  refl _ := ⟨0, rfl, fun _ _ h => h⟩

instance : IsTrans Resolving Asks where
  trans s t u := by
    intro ⟨first, hfirst, hst⟩ ⟨second, hsecond, htu⟩
    refine ⟨first + second, by omega, fun taken hbound h => ?_⟩
    rw [← Nat.add_assoc]
    exact htu _ (by omega) (hst taken (by omega) h)

theorem asks_askAccount (m : Moment) (accountId : UInt32) :
    Within Asks (askAccount m accountId) :=
  fun s => ⟨0, congrArg List.length (queue_askAccount m accountId s), fun _ _ h =>
    accounted_askAccount h m accountId⟩

/-- The loop, one round at a time. -/
theorem asks_askProfiles (m : Moment) (allowance : Nat) :
    Within Asks (askProfiles m allowance) := by
  induction allowance with
  | zero => exact within_pure ()
  | succ allowance ih =>
    intro s
    unfold askProfiles
    rw [bind_of_ok (read_apply s)]
    cases hqueue : s.profiles.queue with
    | nil => exact Std.Refl.refl s
    | cons address rest =>
      dsimp only [List.head?_cons]
      by_cases hsize : s.profiles.pending.size < maxInFlight
      · rw [if_pos hsize]
        have hone : Asks s (askProfile m address s).2 := by
          refine ⟨1, ?_, fun taken hbound h => ?_⟩
          · rw [queue_askProfile, hqueue]
            rfl
          · exact accounted_askProfile h m hqueue hsize (Nat.lt_of_succ_lt hbound)
        rw [bind_apply]
        rcases hasked : askProfile m address s with ⟨e | _, t⟩
        · rw [hasked] at hone
          exact hone
        · rw [hasked] at hone
          exact IsTrans.trans _ _ _ hone (ih t)
      · rw [if_neg hsize]
        exact Std.Refl.refl s

/-- **A pump accounts for all it takes.** -/
theorem asks_pump (m : Moment) : Within Asks (pump m) := by
  refine within_bind within_read fun s => ?_
  refine within_bind (within_each (asks_askAccount m) _) fun _ => ?_
  exact asks_askProfiles m _

end Resolving

/-! ## Runs -/

/-- A resolver with the number of lookups it has started: of addresses taken from its queue. -/
structure Asking where
  resolving : Resolving := {}
  taken : Nat := 0

namespace Asking

/-- What is done to a resolver: a record is observed, the answers to lookups among them; rosters and
friends are looked through; lookups are sent. -/
inductive Step where
  | observe (payload : Payload)
  | enqueueMissing (channels : List ChannelState) (friends : Friends)
  | pump (m : Moment)

def step (tables : Tables) (w : Asking) : Step → Asking
  | .observe payload =>
    { w with resolving := { w.resolving with
      profiles := (w.resolving.profiles.observe tables payload).1 } }
  | .enqueueMissing channels friends =>
    { w with resolving := { w.resolving with
      profiles := w.resolving.profiles.enqueueMissing channels friends } }
  | .pump m =>
    let after := (Resolving.pump m w.resolving).2
    { resolving := after
      taken := w.taken
        + (w.resolving.profiles.queue.length - after.profiles.queue.length) }

/-- Where the addresses are filed, and what has been asked. The last part says that an answer under
a number of no lookup changes nothing. -/
structure AskedOnce (tables : Tables) (w : Asking) : Prop where
  queued : ∀ address, address ∈ w.resolving.profiles.queued ↔
    address ∈ w.resolving.profiles.queue
  nodup : w.resolving.profiles.queue.Nodup
  oneOfThree : ∀ address,
    ¬(address ∈ w.resolving.profiles.queue ∧ address ∈ valuesOf w.resolving.profiles.pending) ∧
    ¬(address ∈ w.resolving.profiles.queue ∧ address ∈ w.resolving.profiles.avatars) ∧
    ¬(address ∈ valuesOf w.resolving.profiles.pending ∧
      address ∈ w.resolving.profiles.avatars)
  size : w.resolving.profiles.pending.size ≤ 8
  distinct : ∀ (id id' : UInt32) address, w.resolving.profiles.pending[id]? = some address →
    w.resolving.profiles.pending[id']? = some address → id = id'
  filed : ∀ address ∈ w.resolving.sent.filterMap profileAsked,
    address ∈ w.resolving.profiles.avatars ∨ address ∈ valuesOf w.resolving.profiles.pending
  profilesOnce : (w.resolving.sent.filterMap profileAsked).Nodup
  accountsOnce : (w.resolving.sent.filterMap accountAsked).Nodup
  unknown : ∀ response, w.resolving.profiles.pending[response.requestId]? = none →
    w.step tables (.observe (.profileRead response)) = w

theorem askedOnce_of_accounted (tables : Tables) {w : Asking}
    (h : Accounted w.resolving w.taken) : AskedOnce tables w where
  queued := h.queued
  nodup := h.nodup
  oneOfThree address := by
    refine ⟨fun hboth => ?_, fun hboth => ?_, fun hboth => ?_⟩
    · obtain ⟨id, hid⟩ := mem_valuesOf.1 hboth.2
      exact h.pendingNotQueued id address hid hboth.1
    · exact h.knownNotQueued address hboth.2 hboth.1
    · obtain ⟨id, hid⟩ := mem_valuesOf.1 hboth.1
      exact h.pendingNotKnown id address hid hboth.2
  size := h.size
  distinct := h.distinct
  filed address hsent := (h.sentFiled address hsent).imp_right fun hid => mem_valuesOf.2 hid
  profilesOnce := h.sentOnce
  accountsOnce := h.accountsOnce
  unknown response hnone := by
    simp only [step, ProfileResolver.observe, ProfileResolver.receive, hnone]

/-- What a step keeps, as long as not all numbers have been drawn. -/
theorem accounted_step (tables : Tables) {w : Asking} (i : Step)
    (h : w.taken < 2 ^ 32 → Accounted w.resolving w.taken)
    (hbound : (w.step tables i).taken < 2 ^ 32) :
    Accounted (w.step tables i).resolving (w.step tables i).taken := by
  cases i with
  | observe payload => exact (h hbound).observe tables payload
  | enqueueMissing channels friends => exact (h hbound).enqueueMissing channels friends
  | pump m =>
    obtain ⟨count, hcount, hasks⟩ := Resolving.asks_pump m w.resolving
    have htaken : (w.step tables (.pump m)).taken = w.taken + count := by
      simp only [step]
      omega
    rw [htaken] at hbound ⊢
    exact hasks w.taken hbound (h (by omega))

/-- **Lookups are asked once.** In every state of every run in which fewer than `2 ^ 32` lookups
have been started the queue and its set agree, an address is in one place at most, at most eight
lookups wait, no address and no friend account has been asked for twice, and an answer that no
lookup waits for changes nothing. -/
theorem statesMeet_askedOnce (tables : Tables) (inputs : List Step) :
    StatesMeet (step tables) (fun w => w.taken < 2 ^ 32 → AskedOnce tables w) {} inputs :=
  statesMeet_of_stepsMeet (C := fun _ _ => True)
    (I := fun w => w.taken < 2 ^ 32 → Accounted w.resolving w.taken)
    (fun _ h hbound => askedOnce_of_accounted tables (h hbound))
    (fun _ i h _ hbound => accounted_step tables i h hbound)
    (fun _ => Accounted.initial) (stepsMeet_true _ _ inputs)

end Asking

end Superiority.Sc2
