import Superiority.Library.Stateful
import Superiority.Sc2.Roster

/-!
# Profile lookups

`ProfileResolver` of `chat/session.rs`: the presence directory, and what is asked about the people
in it. A profile address is queued, then asked for under a request number, then answered; friends
without a character are asked for by their account.

The token bucket that slows the reads is a floating-point number; how many reads it lets a `pump`
start is an input here, the **allowance**.
-/

namespace Superiority.Sc2

open Std

/-! ## Surroundings -/

/-- What the session takes from elsewhere: `str::to_lowercase`, the texts of error codes and the
portrait catalogue. -/
structure Tables where
  lowercase : String → String
  description : UInt16 → String
  imageForUnlockable : UInt32 → Option ImageTableEntry

/-- The surroundings of one step: the time, what comes of building a request and handing it to the
socket after those already sent, whether bytes were read ahead, and the allowance of the token
bucket. -/
structure Moment where
  now : Nat
  transmit : List Request → Request → Except Failure Unit
  buffered : Bool := false
  allowance : Nat := 0

/-- Times are in nanoseconds. -/
def seconds (n : Nat) : Nat := n * 1000000000

/-! ## The resolver -/

/-- `ProfileResolver`. -/
structure ProfileResolver where
  presence : PresenceDirectory := {}
  avatars : ExtTreeMap ProfileAddress (Option ImageTableEntry) := ∅
  queued : ExtTreeSet ProfileAddress := ∅
  queue : List ProfileAddress := []
  pending : ExtTreeMap UInt32 ProfileAddress := ∅
  nextRequestId : UInt32 := 0
  queuedFriendAccounts : ExtTreeSet UInt32 := ∅
  friendAccountQueue : List UInt32 := []
  requestedFriendAccounts : ExtTreeSet UInt32 := ∅

/-- The resolver together with the session that it sends through: the requests sent so far. -/
structure Resolving where
  sent : List Request := []
  profiles : ProfileResolver := {}

abbrev Friends := ExtTreeMap FriendIdentity FriendEntry

/-- `Observed`. -/
structure Observed where
  identity : Bool
  presence : Bool
  deriving DecidableEq, Repr

/-! ## Avatars -/

/-- `decode_profile_uint`. -/
def decodeProfileUint (value : List UInt8) : Option UInt32 :=
  match value with
  | [] => none
  | marker :: rest =>
    if marker = 0 then some 0
    else
      let nibble := marker.toNat / 16
      if nibble < 11 then none
      else
        let byteCount := nibble - 11
        if byteCount > 4 then none
        else if rest.length < byteCount then none
        else
          let encoded := (rest.take byteCount).foldl (fun acc byte => acc * 256 + byte.toNat)
            (marker.toNat % 16)
          if encoded / 2 < 2 ^ 32 then some (UInt32.ofNat (encoded / 2)) else none

/-- `decode_avatar_block`: the number behind the first portrait entry of a profile block. -/
def decodeAvatarBlock (tables : Tables) : List UInt8 → Option ImageTableEntry
  | [] => none
  | byte :: block =>
    if [6, 0x14, 0xf0, 0x50, 0x4f, 0x52, 0x54, 1].isPrefixOf (byte :: block) then
      (decodeProfileUint ((byte :: block).drop 8)).bind tables.imageForUnlockable
    else decodeAvatarBlock tables block

/-- `avatars.get(&address).copied().flatten()`. -/
def ProfileResolver.avatarOf (profiles : ProfileResolver) (address : ProfileAddress) :
    Option ImageTableEntry :=
  (profiles.avatars[address]?).join

namespace ProfileResolver

/-! ## Answers -/

/-- `receive`, and whether an avatar was learnt. -/
def receive (tables : Tables) (profiles : ProfileResolver) (response : ProfileReadResponse) :
    ProfileResolver × Bool :=
  match profiles.pending[response.requestId]? with
  | none => (profiles, false)
  | some address =>
    let answered (avatar : Option ImageTableEntry) : ProfileResolver × Bool :=
      ({ profiles with
          pending := profiles.pending.erase response.requestId
          avatars := profiles.avatars.insert address avatar }, true)
    match response.result with
    | .start packetCount => if packetCount = 0 then answered none else (profiles, false)
    | .cache => answered none
    | .failure _ => answered none
    | .block bytes => answered (decodeAvatarBlock tables bytes)

/-- The states of the two ids that an update names. -/
def statesOf (presence : PresenceDirectory) (update : PresenceUpdate) :
    PresenceState × PresenceState :=
  ((presence.identity update.localPresenceId).state,
    (presence.identity update.masterPresenceId).state)

/-- `observe`. An update that the directory refuses changes nothing in it. -/
def observe (tables : Tables) (profiles : ProfileResolver) (payload : Payload) :
    ProfileResolver × Observed :=
  match payload with
  | .presenceFields fields =>
    ({ profiles with presence := profiles.presence.announce fields }, ⟨false, false⟩)
  | .presenceUpdate update =>
    let before := statesOf profiles.presence update
    let (identity, presence) := profiles.presence.apply update
    let identityChanged := match identity with
      | .ok identity => identity.accountId.isSome
      | .error _ => false
    ({ profiles with presence }, ⟨identityChanged, decide (before ≠ statesOf presence update)⟩)
  | .profileRead response =>
    let (profiles, learnt) := profiles.receive tables response
    (profiles, ⟨learnt, false⟩)
  | _ => (profiles, ⟨false, false⟩)

/-! ## Questions -/

/-- `enqueue`. -/
def enqueue (profiles : ProfileResolver) (address : ProfileAddress) : ProfileResolver :=
  if profiles.avatars.contains address || profiles.queued.contains address
      || (valuesOf profiles.pending).any (· = address) then profiles
  else { profiles with
    queued := profiles.queued.insert address
    queue := profiles.queue ++ [address] }

/-- The profile of a member whose avatar presence does not show. -/
def memberProfile (profiles : ProfileResolver) (member : RosterMember) : Option ProfileAddress :=
  member.presenceId.bind fun presenceId =>
    let identity := profiles.presence.identity presenceId
    if identity.avatar.isSome then none else identity.profile

/-- The account of a friend whose character is not known. -/
def nameless (friend : FriendEntry) : Option UInt32 :=
  match friend.identity with
  | .account accountId => if friend.toonName.isSome then none else some accountId
  | .character _ _ _ _ => none

/-- The second half of the loop over the friends. -/
def enqueueAccount (profiles : ProfileResolver) (accountId : UInt32) : ProfileResolver :=
  if profiles.requestedFriendAccounts.contains accountId
      || profiles.queuedFriendAccounts.contains accountId then profiles
  else { profiles with
    queuedFriendAccounts := profiles.queuedFriendAccounts.insert accountId
    friendAccountQueue := profiles.friendAccountQueue ++ [accountId] }

/-- `enqueue` of an address that may be unknown. -/
def enqueueIf (profiles : ProfileResolver) (address : Option ProfileAddress) : ProfileResolver :=
  address.elim profiles profiles.enqueue

def enqueueMember (profiles : ProfileResolver) (member : RosterMember) : ProfileResolver :=
  profiles.enqueueIf (profiles.memberProfile member)

def enqueueFriend (profiles : ProfileResolver) (friend : FriendEntry) : ProfileResolver :=
  let profiles := profiles.enqueueIf friend.profile
  (nameless friend).elim profiles profiles.enqueueAccount

/-- `enqueue_missing`. -/
def enqueueMissing (profiles : ProfileResolver) (channels : List ChannelState)
    (friends : Friends) : ProfileResolver :=
  let members := channels.flatMap fun channel => valuesOf channel.roster
  (valuesOf friends).foldl enqueueFriend (members.foldl enqueueMember profiles)

end ProfileResolver

namespace Resolving

/-- A request through the session. -/
def send (m : Moment) (request : Request) : Stateful Resolving Failure Unit := fun s =>
  match m.transmit s.sent request with
  | .ok () => (.ok (), { s with sent := s.sent ++ [request] })
  | .error e => (.error e, s)

def updateProfiles (f : ProfileResolver → ProfileResolver) : Stateful Resolving Failure Unit :=
  .change fun s => { s with profiles := f s.profiles }

/-- One round of the loop over the friend accounts. -/
def askAccount (m : Moment) (accountId : UInt32) : Stateful Resolving Failure Unit := do
  updateProfiles fun p => { p with
    friendAccountQueue := p.friendAccountQueue.tail
    queuedFriendAccounts := p.queuedFriendAccounts.erase accountId }
  let s ← .read
  if s.profiles.requestedFriendAccounts.contains accountId then pure ()
  else do
    updateProfiles fun p => { p with
      requestedFriendAccounts := p.requestedFriendAccounts.insert accountId }
    send m (.friendToons accountId)

/-- `MAX_IN_FLIGHT`. -/
def maxInFlight : Nat := 8

/-- One round of the loop over the profile addresses. -/
def askProfile (m : Moment) (address : ProfileAddress) : Stateful Resolving Failure Unit := do
  let s ← .read
  let requestId := s.profiles.nextRequestId
  updateProfiles fun p => { p with
    queue := p.queue.tail
    queued := p.queued.erase address
    nextRequestId := p.nextRequestId + 1 }
  send m (.profileRead requestId address)
  updateProfiles fun p => { p with pending := p.pending.insert requestId address }

/-- The loop over the profile addresses, for as many rounds as the token bucket allows. -/
def askProfiles (m : Moment) : Nat → Stateful Resolving Failure Unit
  | 0 => pure ()
  | allowance + 1 => do
    let s ← .read
    match s.profiles.queue.head? with
    | some address =>
      if s.profiles.pending.size < maxInFlight then do
        askProfile m address
        askProfiles m allowance
      else pure ()
    | none => pure ()

/-- `pump`. -/
def pump (m : Moment) : Stateful Resolving Failure Unit := do
  let s ← .read
  Stateful.each (askAccount m) s.profiles.friendAccountQueue
  askProfiles m m.allowance

end Resolving

end Superiority.Sc2
