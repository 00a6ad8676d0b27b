import Superiority.Sc2.LiveChat

/-!
# Whispers

`send_whisper` and `advance_pending_whispers` of `chat/session.rs`. A whisper goes to a presence
id; for a name, an account or a character the session first asks the service who that is, and the
whisper waits until a record has answered or ten seconds are over.

Everything here stays **aside** of the channels: only requests about whispers are sent, only events
about whispers are queued, and of the state nothing changes but what is kept about whispers.
-/

namespace Superiority.Sc2

open Std

namespace LiveChat

open Stateful

/-! ## Sending -/

/-- `send_resolved_whisper`. -/
def sendResolvedWhisper (m : Moment) (displayName : String) (presenceId : UInt32)
    (body : String) : Chat Unit := do
  send m (.chatWhisper presenceId body)
  queueEvents [.whisper displayName body true]
  change fun s => { s with
    pendingWhisperEchoes := keepLast echoLimit (s.pendingWhisperEchoes ++ [{
      peer := displayName
      body
      sentAt := m.now }]) }

/-- The characters of an account are asked for once. -/
def requestWhisperFriendToons (m : Moment) (accountId : UInt32) : Chat Unit := do
  let s ← read
  if s.requestedWhisperFriendAccounts.contains accountId then pure ()
  else do
    change fun s => { s with
      requestedWhisperFriendAccounts := s.requestedWhisperFriendAccounts.insert accountId }
    send m (.friendToons accountId)

/-- The handle of a name is asked for once, until it is answered. -/
def requestToonResolution (m : Moment) (name : ToonFullName) : Chat Unit := do
  let s ← read
  if s.pendingToonResolutions.contains name then pure ()
  else do
    change fun s => { s with pendingToonResolutions := s.pendingToonResolutions.insert name }
    send m (.resolveToonName name)

/-- `request_temporary_presence`. -/
def requestTemporaryPresence (m : Moment) (handle : ToonHandle) : Chat Unit := do
  let s ← read
  if s.requestedTemporaryPresences.contains handle then pure ()
  else do
    change fun s => { s with
      requestedTemporaryPresences := s.requestedTemporaryPresences.insert handle }
    send m (.temporaryPresence handle)

/-- The first question about a whisper that waits: its character, or else its name. -/
def requestCharacter (m : Moment) (pending : PendingWhisper) : Chat Unit :=
  match pending.toonHandle with
  | some handle => requestTemporaryPresence m handle
  | none => pending.toonName.elim (pure ()) (requestToonResolution m)

/-- `queue_whisper`, of a whisper that was built now. -/
def queueWhisper (m : Moment) (pending : PendingWhisper) : Chat Unit := do
  let s ← read
  match pending.toonHandle.bind s.profiles.presence.presenceForToonHandle with
  | some presenceId => sendResolvedWhisper m pending.displayName presenceId pending.body
  | none => do
    change fun s => { s with pendingWhispers := s.pendingWhispers ++ [pending] }
    requestCharacter m pending
    pending.accountId.elim (pure ()) (requestWhisperFriendToons m)

/-- `friends.values().find(|friend| friend_matches_name(friend, name))`. -/
def friendNamed (friends : Friends) (name : String) : Option FriendEntry :=
  (valuesOf friends).find? fun friend => friendMatchesName friend name

/-- A name that a friend has stands for the friend. -/
def resolveTarget (friends : Friends) : WhisperTarget → WhisperTarget
  | .name name => (friendNamed friends name).elim (.name name) friendWhisperTarget
  | target => target

/-- The presence id of an account, or else of its profile. -/
def accountPresenceId (s : LiveChat) (accountId : UInt32) : Option UInt32 :=
  (s.profiles.presence.presenceForAccount accountId).or
    ((s.friends[FriendIdentity.account accountId]?.bind (·.profile)).bind
      s.profiles.presence.presenceForProfile)

/-- `send_whisper`, to a target that has been looked up among the friends. -/
def sendWhisperTo (m : Moment) (target : WhisperTarget) (displayName body : String) :
    Chat Unit := do
  let s ← read
  let pending : PendingWhisper := { displayName, body, queuedAt := m.now }
  match target with
  | .presence presenceId => sendResolvedWhisper m displayName presenceId body
  | .toonHandle handle => queueWhisper m { pending with toonHandle := some handle }
  | .toonName name => queueWhisper m { pending with toonName := some name }
  | .account accountId =>
    match s.accountPresenceId accountId with
    | some presenceId => sendResolvedWhisper m displayName presenceId body
    | none =>
      let friend := s.friends[FriendIdentity.account accountId]?
      queueWhisper m { pending with
        accountId := some accountId
        profile := friend.bind (·.profile)
        toonName := friend.bind (·.toonName) }
  | .warcraftAccount _ => protocolError "WC3 whisper target cannot be used on StarCraft II"
  | .name name => queueWhisper m { pending with lookupName := some name }

/-- `send_whisper`. -/
def sendWhisper (m : Moment) (target : WhisperTarget) (displayName body : String) :
    Chat Unit := do
  let s ← read
  if trim body = "" then protocolError "whisper body cannot be empty"
  else sendWhisperTo m (resolveTarget s.friends target) displayName (trim body)

/-! ## Waiting -/

/-- A whisper of which only a name is known is given the friend of that name. -/
def lookUpFriend (friends : Friends) (pending : PendingWhisper) : PendingWhisper :=
  if pending.accountId.isSome || pending.toonName.isSome || pending.toonHandle.isSome then pending
  else
    match pending.lookupName.bind (friendNamed friends) with
    | none => pending
    | some friend =>
      match friend.identity with
      | .account accountId => { pending with
          accountId := some accountId
          profile := friend.profile
          toonName := friend.toonName }
      | .character programId region realm id => { pending with
          toonHandle := some (characterHandle programId region realm id) }

/-- A whisper to an account is given the character of the friend. -/
def adoptToonName (friends : Friends) (pending : PendingWhisper) : PendingWhisper :=
  if pending.toonName.isSome then pending
  else
    match pending.accountId.bind fun accountId => friends[FriendIdentity.account accountId]? with
    | none => pending
    | some friend => { pending with
        profile := friend.profile
        toonName := friend.toonName }

/-- The answer about a name: its handle is passed on, or its whispers fail. -/
def receiveToonName (tables : Tables) (m : Moment) (resolved : ToonNameResolved) :
    Chat Unit := do
  change fun s => { s with
    pendingToonResolutions := s.pendingToonResolutions.erase resolved.name }
  if resolved.result = 0 then
    match resolved.handle with
    | none => pure ()
    | some handle => do
      change fun s => { s with
        pendingWhispers := s.pendingWhispers.map fun pending =>
          if pending.toonName = some resolved.name then
            { pending with toonHandle := some handle }
          else pending }
      requestTemporaryPresence m handle
  else
    change fun s => { s with
      pendingWhispers := s.pendingWhispers.filter (·.toonName ≠ some resolved.name)
      pendingEvents := s.pendingEvents ++
        (s.pendingWhispers.filter (·.toonName = some resolved.name)).map fun pending =>
          .whisperFailed pending.displayName (tables.description resolved.result) }

/-- The accounts whose characters are not known. -/
def unresolvedAccounts (s : LiveChat) : List UInt32 :=
  (ExtTreeSet.ofList ((s.pendingWhispers.filter fun pending =>
    pending.toonName.isNone && pending.toonHandle.isNone).filterMap (·.accountId)) compare).toList

/-- The names whose handles are not known. -/
def unresolvedToonNames (s : LiveChat) : List ToonFullName :=
  (ExtTreeSet.ofList ((s.pendingWhispers.filter fun pending =>
    pending.toonHandle.isNone).filterMap (·.toonName)) compare).toList

/-- The handles whose presence is not known. -/
def unresolvedHandles (s : LiveChat) : List ToonHandle :=
  (ExtTreeSet.ofList (s.pendingWhispers.filterMap (·.toonHandle)) compare).toList

/-- `RESOLUTION_TIMEOUT`. -/
def resolutionTimeout : Nat := seconds 10

/-- What comes of a whisper that waits: it is given up, it goes on waiting, or it is sent to a
presence id, that of a handle perhaps. -/
inductive Delivery where
  | failed
  | waits
  | sent (presenceId : UInt32) (handle : Option ToonHandle)

/-- The conditions in the loop of `advance_pending_whispers`. -/
def delivery (m : Moment) (presence : PresenceDirectory) (pending : PendingWhisper) : Delivery :=
  if resolutionTimeout ≤ m.now - pending.queuedAt then .failed
  else
    match pending.accountId.bind presence.presenceForAccount with
    | some presenceId => .sent presenceId none
    | none =>
      match pending.profile.bind presence.presenceForProfile with
      | some presenceId => .sent presenceId none
      | none =>
        match pending.toonHandle with
        | none => .waits
        | some handle =>
          match presence.presenceForToonHandle handle with
          | some presenceId => .sent presenceId (some handle)
          | none => .waits

/-- The loop of `advance_pending_whispers`, with the whispers before the index and the others. -/
def deliverWhispers (m : Moment) (kept : List PendingWhisper) :
    List PendingWhisper → Chat Unit
  | [] => pure ()
  | pending :: rest => do
    let s ← read
    match delivery m s.profiles.presence pending with
    | .failed => do
      change fun s => { s with pendingWhispers := kept ++ rest }
      queueEvents [.whisperFailed pending.displayName "Battle.net identity could not be resolved"]
      deliverWhispers m kept rest
    | .sent presenceId handle => do
      change fun s => { s with pendingWhispers := kept ++ rest }
      sendResolvedWhisper m pending.displayName presenceId pending.body
      change fun s => { s with
        requestedTemporaryPresences := handle.elim s.requestedTemporaryPresences
          s.requestedTemporaryPresences.erase }
      deliverWhispers m kept rest
    | .waits => deliverWhispers m (kept ++ [pending]) rest

/-- What a record says about a name. -/
def receiveResolved (tables : Tables) (m : Moment) : Payload → Chat Unit
  | .toonNameResolved resolved => receiveToonName tables m resolved
  | _ => pure ()

/-- `advance_pending_whispers`. -/
def advancePendingWhispers (tables : Tables) (m : Moment) (payload : Payload) : Chat Unit := do
  change fun s => { s with
    pendingWhispers := s.pendingWhispers.map fun pending =>
      adoptToonName s.friends (lookUpFriend s.friends pending) }
  receiveResolved tables m payload
  let s ← read
  each (requestWhisperFriendToons m) s.unresolvedAccounts
  let s ← read
  each (requestToonResolution m) s.unresolvedToonNames
  let s ← read
  each (requestTemporaryPresence m) s.unresolvedHandles
  let s ← read
  deliverWhispers m [] s.pendingWhispers

/-- `consume_whisper_echo`. -/
def consumeWhisperEcho (m : Moment) (whisper : ChatWhisper) (s : LiveChat) : Bool × LiveChat :=
  let echoes := s.pendingWhisperEchoes.dropWhile fun echo => echoWindow < m.now - echo.sentAt
  let peer := stripCharacterCode whisper.peer.name
  match echoes.findIdx? fun echo =>
      eqIgnoreAsciiCase echo.peer peer && echo.body = whisper.body with
  | none => (false, { s with pendingWhisperEchoes := echoes })
  | some index => (true, { s with pendingWhisperEchoes := echoes.eraseIdx index })

end LiveChat

end Superiority.Sc2
