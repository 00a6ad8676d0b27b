import Superiority.Library.Map
import Superiority.Live.Classic

/-!
# A viewer of the feed

What somebody who applies the events of a session as they come in knows of its channels. An event
that names a channel opens it, as `channelTouch` does in the store; a complete roster replaces
the members; a member that is told again keeps what the store's `ON CONFLICT` clause keeps. The
start of a session begins afresh.

`rosterEvents_shown` is the fact the classic taps rest on: a viewer that shows the roster a
projector was last at shows the next one after the events of `roster_events`.
-/

namespace Superiority

open Std

/-- The open channels by key, each with its members by handle. -/
abbrev Viewer := ExtTreeMap String RosterMirror

namespace Viewer

/-- A member told again, as `rosterConflict` has it. -/
def told (known : Option UserRef) (user : UserRef) : UserRef :=
  match known with
  | none => user
  | some known => { user with
      portrait := user.portrait.or known.portrait
      joinedOrder := known.joinedOrder.or user.joinedOrder
      avatar := user.avatar.or known.avatar }

def upsert (users : List UserRef) (members : RosterMirror) : RosterMirror :=
  joinAll UserRef.handle told users members

/-- The channel of an event is open after it. -/
def touch (channel : ChannelRef) (v : Viewer) : Viewer := v.insertIfNew channel.key ∅

def apply (v : Viewer) : EventKind → Viewer
  | .sessionStarted => ∅
  | .joined channel => v.touch channel
  | .left channel => v.erase channel.key
  | .roster channel true _ users => v.insert channel.key (upsert users ∅)
  | .roster channel false _ _ => v.touch channel
  | .memberJoined channel user =>
    v.insert channel.key (upsert [user] (v[channel.key]?.getD ∅))
  | .memberLeft channel user =>
    v.insert channel.key ((v[channel.key]?.getD ∅).erase user.handle)
  | .rosterDelta channel users => v.insert channel.key (upsert users (v[channel.key]?.getD ∅))
  | .message channel _ _ _ | .notice channel _ _ => v.touch channel
  | .syncStarted | .sessionSynced | .dropped _ | .heartbeat | .sessionEnded => v

def applyAll (v : Viewer) (kinds : List EventKind) : Viewer := kinds.foldl apply v

theorem applyAll_append (v : Viewer) (kinds kinds' : List EventKind) :
    v.applyAll (kinds ++ kinds') = (v.applyAll kinds).applyAll kinds' :=
  List.foldl_append

/-- A channel that is open stays as it is when an event names it. -/
theorem touch_of_mem {v : Viewer} {channel : ChannelRef} (h : channel.key ∈ v) :
    v.touch channel = v := by
  refine ExtTreeMap.ext_getElem? fun key => ?_
  rw [touch, ExtTreeMap.getElem?_insertIfNew, if_neg]
  rintro ⟨-, hnew⟩
  exact hnew h

end Viewer

/-! ## Classic rosters -/

/-- A roster as the classic projectors file it: by handle, without the two fields only the other
product fills. -/
def ClassicRoster (members : RosterMirror) : Prop :=
  ∀ (handle : UInt32) (user : UserRef), members[handle]? = some user →
    user.handle = handle ∧ user.portrait = none ∧ user.joinedOrder = none

/-- The members of a snapshot, by handle; of two with one handle the later one stays. -/
def rosterOf (users : List UserRef) : RosterMirror :=
  users.foldl (fun members user => members.insert user.handle user) ∅

/-- Members with one handle are one member. -/
def Apart (users : List UserRef) : Prop :=
  ∀ user ∈ users, ∀ other ∈ users, user.handle = other.handle → user = other

private theorem getElem?_foldl_insert {users : List UserRef} (happart : Apart users)
    (members : RosterMirror) (handle : UInt32) (user : UserRef) :
    (users.foldl (fun members user => members.insert user.handle user) members)[handle]? = some user ↔
      (user ∈ users ∧ user.handle = handle) ∨
        ((∀ other ∈ users, other.handle ≠ handle) ∧ members[handle]? = some user) := by
  induction users generalizing members with
  | nil => simp
  | cons first users ih =>
    have hrest : Apart users := fun a ha b hb =>
      happart a (List.mem_cons_of_mem _ ha) b (List.mem_cons_of_mem _ hb)
    rw [List.foldl_cons, ih hrest]
    by_cases hfirst : first.handle = handle
    · subst hfirst
      rw [ExtTreeMap.getElem?_insert_self, Option.some.injEq]
      constructor
      · rintro (⟨hmem, hhandle⟩ | ⟨-, rfl⟩)
        · exact .inl ⟨List.mem_cons_of_mem _ hmem, hhandle⟩
        · exact .inl ⟨List.mem_cons_self, rfl⟩
      · rintro (⟨hmem, hhandle⟩ | ⟨hnone, -⟩)
        · have huser : first = user :=
            happart first List.mem_cons_self user hmem hhandle.symm
          by_cases hlater : ∃ other ∈ users, other.handle = first.handle
          · obtain ⟨other, hother, heq⟩ := hlater
            have : other = first := happart other (List.mem_cons_of_mem _ hother) first
              List.mem_cons_self heq
            exact .inl ⟨by rw [← huser, ← this]; exact hother, hhandle⟩
          · exact .inr ⟨fun other hother heq => hlater ⟨other, hother, heq⟩, huser⟩
        · exact absurd rfl (hnone first List.mem_cons_self)
    · rw [getElem?_insert_of_ne hfirst]
      simp only [List.mem_cons, forall_eq_or_imp, hfirst, ne_eq, not_false_eq_true, true_and]
      constructor
      · rintro (⟨hmem, hhandle⟩ | h)
        · exact .inl ⟨.inr hmem, hhandle⟩
        · exact .inr h
      · rintro (⟨rfl | hmem, hhandle⟩ | h)
        · exact absurd hhandle hfirst
        · exact .inl ⟨hmem, hhandle⟩
        · exact .inr h

/-- Where no two members share a handle, the roster has each of them and nobody else. -/
theorem getElem?_rosterOf {users : List UserRef} (happart : Apart users) {handle : UInt32}
    {user : UserRef} :
    (rosterOf users)[handle]? = some user ↔ user ∈ users ∧ user.handle = handle := by
  rw [rosterOf, getElem?_foldl_insert happart]
  simp

theorem classicRoster_rosterOf {users : List UserRef}
    (hplain : ∀ user ∈ users, user.portrait = none ∧ user.joinedOrder = none) :
    ClassicRoster (rosterOf users) := by
  have hfold (l : List UserRef) (hl : ∀ user ∈ l, user.portrait = none ∧ user.joinedOrder = none)
      (members : RosterMirror) (hmembers : ClassicRoster members) :
      ClassicRoster (l.foldl (fun members user => members.insert user.handle user) members) := by
    induction l generalizing members with
    | nil => exact hmembers
    | cons first l ih =>
      apply ih fun user huser => hl user (List.mem_cons_of_mem _ huser)
      intro handle user huser
      by_cases hfirst : first.handle = handle
      · subst hfirst
        rw [ExtTreeMap.getElem?_insert_self] at huser
        obtain rfl := Option.some.inj huser
        exact ⟨rfl, hl first List.mem_cons_self⟩
      · rw [getElem?_insert_of_ne hfirst] at huser
        exact hmembers handle user huser
  refine hfold users hplain ∅ fun handle user huser => ?_
  rw [ExtTreeMap.getElem?_empty] at huser
  cases huser

namespace ClassicRoster

variable {members state : RosterMirror}

theorem handles (h : ClassicRoster members) :
    (members.toList.map (·.2)).map UserRef.handle = members.keys := by
  rw [List.map_map, ← ExtTreeMap.map_fst_toList_eq_keys]
  refine List.map_congr_left fun entry hentry => ?_
  exact (h entry.1 entry.2 (ExtTreeMap.mem_toList_iff_getElem?_eq_some.1 hentry)).1

theorem mem_values (h : ClassicRoster members) {user : UserRef} :
    user ∈ members.toList.map (·.2) ↔ members[user.handle]? = some user := by
  constructor
  · intro huser
    obtain ⟨⟨handle, value⟩, hentry, rfl⟩ := List.mem_map.1 huser
    have hlookup := ExtTreeMap.mem_toList_iff_getElem?_eq_some.1 hentry
    rwa [(h handle value hlookup).1]
  · intro hlookup
    exact List.mem_map.2 ⟨(user.handle, user),
      ExtTreeMap.mem_toList_iff_getElem?_eq_some.2 hlookup, rfl⟩

/-- Told from nothing, a roster is what its members are. -/
theorem upsert_values (h : ClassicRoster members) :
    Viewer.upsert (members.toList.map (·.2)) ∅ = members := by
  have hnodup : ((members.toList.map (·.2)).map UserRef.handle).Nodup := by
    rw [h.handles]
    exact ExtTreeMap.nodup_keys
  refine ExtTreeMap.ext_getElem? fun handle => ?_
  cases hlookup : members[handle]? with
  | none =>
    rw [Viewer.upsert, getElem?_joinAll_of_not_mem, ExtTreeMap.getElem?_empty]
    intro user huser heq
    rw [h.mem_values, heq, hlookup] at huser
    cases huser
  | some user =>
    obtain ⟨rfl, -⟩ := h handle user hlookup
    rw [Viewer.upsert, getElem?_joinAll_of_mem hnodup (h.mem_values.2 hlookup),
      ExtTreeMap.getElem?_empty, Viewer.told]

end ClassicRoster

/-- The two rosters have the same members, by handle. -/
def SameMembers (members state : RosterMirror) : Prop :=
  members.size = state.size ∧ ∀ handle ∈ members, handle ∈ state

instance (members state : RosterMirror) : Decidable (SameMembers members state) :=
  have := List.decidableBAll (· ∈ state) members.keys
  decidable_of_iff (members.size = state.size ∧ ∀ handle ∈ members.keys, handle ∈ state) (by
    simp only [SameMembers, ExtTreeMap.mem_keys])

/-- No member that stays has withdrawn an avatar. -/
def KeepsAvatars (members state : RosterMirror) : Prop :=
  ∀ (handle : UInt32) (user known : UserRef), members[handle]? = some user →
    state[handle]? = some known → user.avatar = none → known.avatar = none

theorem rosterEvents_eq (channel : ChannelRef) (members state : RosterMirror) (sent : Bool) :
    rosterEvents channel members state sent =
      if sent = true ∧ SameMembers members state then
        (if (members.toList.map (·.2)).filter (fun user => state[user.handle]? ≠ some user) = []
          then [] else [.rosterDelta channel
            ((members.toList.map (·.2)).filter fun user => state[user.handle]? ≠ some user)],
          members, true)
      else ([.roster channel true
        (Projector.saturatedCount (members.toList.map (·.2)).length) (members.toList.map (·.2))],
        members, true) := by
  have hchanged : (members.size ≠ state.size ∨ members.keys.any (!state.contains ·) = true) ↔
      ¬ SameMembers members state := by
    rw [SameMembers, not_and_or, List.any_eq_true]
    refine or_congr Iff.rfl ?_
    simp only [ExtTreeMap.mem_keys, Bool.not_eq_true', not_forall, exists_prop,
      ← Bool.not_eq_true, ExtTreeMap.contains_iff_mem]
  unfold rosterEvents
  dsimp only
  simp only [hchanged]
  cases sent with
  | false => simp
  | true =>
    by_cases hsame : SameMembers members state
    · simp [hsame]
    · simp [hsame]

/-- The roster and flag after a diff: always the new members, and sent. -/
theorem rosterEvents_state (channel : ChannelRef) (members state : RosterMirror) (sent : Bool) :
    (rosterEvents channel members state sent).2 = (members, true) := by
  rw [rosterEvents_eq]
  split_ifs <;> rfl

/-- **The diff is enough.** A viewer shows the new roster after its events, if it showed the old
one, or if the roster has not been sent. -/
theorem rosterEvents_shown {v : Viewer} {channel : ChannelRef} {members state : RosterMirror}
    {sent : Bool} (hmembers : ClassicRoster members) (hstate : ClassicRoster state)
    (hshown : sent = true → v[channel.key]? = some state)
    (hkeeps : sent = true → SameMembers members state → KeepsAvatars members state) (key : String) :
    (v.applyAll (rosterEvents channel members state sent).1)[key]? =
      if channel.key = key then some members else v[key]? := by
  have hinsert (m : RosterMirror) (hm : m = members) :
      (v.insert channel.key m)[key]? = if channel.key = key then some members else v[key]? := by
    subst hm
    by_cases hkey : channel.key = key
    · subst hkey
      rw [if_pos rfl, ExtTreeMap.getElem?_insert_self]
    · rw [if_neg hkey, getElem?_insert_of_ne hkey]
  rw [rosterEvents_eq]
  by_cases hsame : sent = true ∧ SameMembers members state
  · obtain ⟨rfl, hsame⟩ := hsame
    rw [if_pos ⟨rfl, hsame⟩]
    have hold : v[channel.key]? = some state := hshown rfl
    -- the old members, each told again if something about it moved, are the new ones
    have htold : Viewer.upsert ((members.toList.map (·.2)).filter
        fun user => state[user.handle]? ≠ some user) state = members := by
      have hnodup : (((members.toList.map (·.2)).filter
          fun user => state[user.handle]? ≠ some user).map UserRef.handle).Nodup := by
        refine List.Nodup.sublist (List.Sublist.map _ List.filter_sublist) ?_
        rw [hmembers.handles]
        exact ExtTreeMap.nodup_keys
      refine ExtTreeMap.ext_getElem? fun handle => ?_
      cases hlookup : members[handle]? with
      | none =>
        have hnone : state[handle]? = none := by
          apply ExtTreeMap.getElem?_eq_none
          intro hmem
          have := ExtTreeMap.mem_iff_isSome_getElem?.1 (mem_of_size_eq hsame.2 hsame.1 hmem)
          rw [hlookup] at this
          cases this
        rw [Viewer.upsert, getElem?_joinAll_of_not_mem, hnone]
        intro user huser heq
        have hvalue := hmembers.mem_values.1 (List.mem_filter.1 huser).1
        rw [heq, hlookup] at hvalue
        cases hvalue
      | some user =>
        obtain ⟨rfl, hportrait, horder⟩ := hmembers handle user hlookup
        by_cases hmoved : state[user.handle]? = some user
        · rw [Viewer.upsert, getElem?_joinAll_of_not_mem, hmoved]
          intro other hother heq
          obtain ⟨hvalue, hdiff⟩ := List.mem_filter.1 hother
          have : other = user := by
            have := hmembers.mem_values.1 hvalue
            rw [heq, hlookup] at this
            exact (Option.some.inj this).symm
          subst this
          simp [hmoved] at hdiff
        · have hmem : user ∈ (members.toList.map (·.2)).filter
              fun user => state[user.handle]? ≠ some user :=
            List.mem_filter.2 ⟨hmembers.mem_values.2 hlookup, by simpa using hmoved⟩
          rw [Viewer.upsert, getElem?_joinAll_of_mem hnodup hmem]
          obtain ⟨known, hknown⟩ := Option.isSome_iff_exists.1
            (ExtTreeMap.mem_iff_isSome_getElem?.1 (hsame.2 user.handle
              (ExtTreeMap.mem_iff_isSome_getElem?.2 (by rw [hlookup]; rfl))))
          obtain ⟨-, hknownPortrait, hknownOrder⟩ := hstate user.handle known hknown
          have havatar : user.avatar.or known.avatar = user.avatar := by
            cases hnone : user.avatar with
            | none => rw [hkeeps rfl hsame user.handle user known hlookup hknown hnone]; rfl
            | some avatar => rfl
          rw [hknown, Viewer.told, havatar, hknownPortrait, hknownOrder, hportrait]
          simp only [Option.none_or]
          rw [← hportrait]
    by_cases hnone : (members.toList.map (·.2)).filter
        (fun user => state[user.handle]? ≠ some user) = []
    · rw [if_pos hnone]
      rw [hnone] at htold
      by_cases hkey : channel.key = key
      · subst hkey
        rw [if_pos rfl]
        exact hold.trans (congrArg some htold)
      · rw [if_neg hkey]
        rfl
    · rw [if_neg hnone]
      show (v.apply (.rosterDelta channel _))[key]? = _
      rw [Viewer.apply, hold]
      exact hinsert _ htold
  · rw [if_neg hsame]
    exact hinsert _ hmembers.upsert_values

end Superiority
