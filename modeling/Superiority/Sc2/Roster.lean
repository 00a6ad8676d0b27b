import Superiority.Library.Map
import Superiority.Sc2.Model

/-!
# Channel rosters

`chat/session.rs`: who is in a channel. `applyMembership` folds the changes of one membership
record into a roster and says what a reader is told of them; `rosterSnapshot` lists a roster in the
order in which its members came.
-/

namespace Superiority.Sc2

open Std

/-- `RosterMember`. -/
structure RosterMember where
  joinedOrder : UInt64 := 0
  presenceId : Option UInt32 := none
  name : Option String := none
  toonName : Option ToonFullName := none
  partyStatus : Option PartyMemberStatus := none
  clanTag : Option String := none
  avatar : Option ImageTableEntry := none
  presence : PresenceState := .unknown
  deriving DecidableEq, Repr

abbrev Roster := ExtTreeMap UInt32 RosterMember

/-- `ChannelState`. -/
structure ChannelState where
  channel : Option ChatChannel := none
  localMemberHandle : Option UInt32 := none
  roster : Roster := ∅
  nextRosterOrder : UInt64 := 0
  initialRosterComplete : Bool := false

namespace ChannelState

/-- `begin_join`. -/
def beginJoin (channel : ChatChannel) (localMemberHandle : UInt32) : ChannelState where
  channel := some channel
  localMemberHandle := some localMemberHandle

end ChannelState

/-- `u64::saturating_add(1)`. -/
def nextOrder (order : UInt64) : UInt64 := if order.toNat + 1 < 2 ^ 64 then order + 1 else order

/-- The user that a member is shown as; nobody is known yet of a handle without a member. -/
def userOf (handle : UInt32) (member : Option RosterMember) : ChatUser where
  handle := handle
  presenceId := member.bind (·.presenceId)
  name := member.bind (·.name)
  clanTag := member.bind (·.clanTag)
  avatar := member.bind (·.avatar)
  presence := (member.map (·.presence)).getD .unknown

/-- What `apply_membership` changes: the roster, the order of the next member, and the events. -/
structure MembershipFold where
  roster : Roster
  nextRosterOrder : UInt64
  events : List ChatEvent := []

/-- The member a join inserts. -/
def joiningMember (joinedOrder : UInt64) (change : MembershipChange) : RosterMember where
  joinedOrder := joinedOrder
  presenceId := change.presenceId
  name := change.displayName
  toonName := change.toonName
  partyStatus := change.partyStatus

/-- What a status change leaves of a member: only the fields it names are set. -/
def mergeStatus (member : RosterMember) (change : MembershipChange) : RosterMember :=
  { member with
    name := change.displayName.or member.name
    toonName := change.toonName.or member.toonName
    partyStatus := change.partyStatus.or member.partyStatus }

/-- One round of the loop of `apply_membership`. -/
def applyChange (channelIndex : UInt8) (emitIncremental : Bool) (localMemberHandle : Option UInt32)
    (fold : MembershipFold) (change : MembershipChange) : MembershipFold :=
  match change.kind with
  | .leave =>
    let member := fold.roster[change.memberHandle]?
    let told := if localMemberHandle = some change.memberHandle then
        ChatEvent.removed channelIndex change.reason
      else .memberLeft channelIndex (userOf change.memberHandle member) change.reason
    { fold with
      roster := fold.roster.erase change.memberHandle
      events := if emitIncremental then fold.events ++ [told] else fold.events }
  | .join =>
    let known := fold.roster[change.memberHandle]?
    let joinedOrder := (known.map (·.joinedOrder)).getD fold.nextRosterOrder
    let member := joiningMember joinedOrder change
    { roster := fold.roster.insert change.memberHandle member
      nextRosterOrder := if known.isSome then fold.nextRosterOrder
        else nextOrder fold.nextRosterOrder
      events := if emitIncremental then
          fold.events ++ [.memberJoined channelIndex (userOf change.memberHandle (some member))]
        else fold.events }
  | .status =>
    let known := fold.roster[change.memberHandle]?
    let member := known.getD { joinedOrder := fold.nextRosterOrder }
    { fold with
      roster := fold.roster.insert change.memberHandle (mergeStatus member change)
      nextRosterOrder := if known.isSome then fold.nextRosterOrder
        else nextOrder fold.nextRosterOrder }

/-- `apply_membership`, on the channel of the record; the events name `channelIndex`. -/
def applyMembership (state : ChannelState) (channelIndex : UInt8) (membership : ChatMembership) :
    ChannelState × List ChatEvent :=
  let fold := membership.changes.foldl
    (applyChange channelIndex state.initialRosterComplete state.localMemberHandle)
    { roster := state.roster, nextRosterOrder := state.nextRosterOrder }
  ({ state with
      roster := fold.roster
      nextRosterOrder := fold.nextRosterOrder
      initialRosterComplete := state.initialRosterComplete || membership.endOfInitial },
    fold.events)

/-- `roster_snapshot`: a stable sort of the members by the order in which they came. -/
def rosterSnapshot (state : ChannelState) (channelIndex : UInt8) : RosterSnapshot where
  channelIndex := channelIndex
  initialComplete := state.initialRosterComplete
  users := (state.roster.toList.mergeSort fun a b => a.2.joinedOrder ≤ b.2.joinedOrder).map
    fun entry => userOf entry.1 (some entry.2)

/-- The reader is told nothing but arrivals, departures and its own removal, all of the channel. -/
def IsMemberEvent (channelIndex : UInt8) : ChatEvent → Prop
  | .memberJoined index _ | .memberLeft index _ _ | .removed index _ => index = channelIndex
  | _ => False

theorem isMemberEvent_applyChange {channelIndex : UInt8} {emit : Bool} {handle : Option UInt32}
    {fold : MembershipFold} (h : ∀ event ∈ fold.events, IsMemberEvent channelIndex event)
    (change : MembershipChange) :
    ∀ event ∈ (applyChange channelIndex emit handle fold change).events,
      IsMemberEvent channelIndex event := by
  have hpush : ∀ told, IsMemberEvent channelIndex told →
      ∀ event ∈ if emit = true then fold.events ++ [told] else fold.events,
        IsMemberEvent channelIndex event := by
    intro told htold event hevent
    split at hevent
    · rcases List.mem_append.1 hevent with hold | hnew
      · exact h event hold
      · rw [List.mem_singleton.1 hnew]
        exact htold
    · exact h event hevent
  unfold applyChange
  cases change.kind with
  | leave =>
    refine hpush _ ?_
    split <;> exact rfl
  | join => exact hpush _ rfl
  | status => exact h

theorem isMemberEvent_applyMembership (state : ChannelState) (channelIndex : UInt8)
    (membership : ChatMembership) :
    ∀ event ∈ (applyMembership state channelIndex membership).2,
      IsMemberEvent channelIndex event := by
  have hfold (changes : List MembershipChange) (fold : MembershipFold)
      (h : ∀ event ∈ fold.events, IsMemberEvent channelIndex event) :
      ∀ event ∈ (changes.foldl (applyChange channelIndex state.initialRosterComplete
        state.localMemberHandle) fold).events, IsMemberEvent channelIndex event := by
    induction changes generalizing fold with
    | nil => exact h
    | cons change changes ih => exact ih _ (isMemberEvent_applyChange h change)
  exact hfold membership.changes _ (fun _ hevent => absurd hevent List.not_mem_nil)

end Superiority.Sc2
