import Superiority.Gateway.Bncs
import Superiority.Library.Stateful

/-!
# The legacy peer

`LegacyPeer` of `gateway/src/bncs.rs`: what the gateway knows of a legacy client and how it answers
its packets. A client logs on under one of three styles. The old ones are one packet and its reply;
the new one is a packet that names the account and a proof behind it. No password is looked at: the
client has only to name the account that the gateway is signed in with.

The writer takes all bytes. A `Moment` holds what the clock and the random numbers are when a packet
is handled.
-/

namespace Superiority.Gateway

open Stateful

/-! ## Packet ids -/

def sidNull : UInt8 := 0x00
def sidClientId : UInt8 := 0x05
def sidStartVersioning : UInt8 := 0x06
def sidReportVersion : UInt8 := 0x07
def sidJoinChannel : UInt8 := 0x0C
def sidChatCommand : UInt8 := 0x0E
def sidLeaveChat : UInt8 := 0x10
def sidLocaleInfo : UInt8 := 0x12
def sidUdpPingResponse : UInt8 := 0x14
def sidLogonChallengeEx : UInt8 := 0x1D
def sidPing : UInt8 := 0x25
def sidReadUserData : UInt8 := 0x26
def sidLogonResponse : UInt8 := 0x29
def sidCreateAccount : UInt8 := 0x2A
def sidGetIconData : UInt8 := 0x2D
def sidGetFileTime : UInt8 := 0x33
def sidCdKey2 : UInt8 := 0x36
def sidLogonResponse2 : UInt8 := 0x3A
def sidCreateAccount2 : UInt8 := 0x3D
def sidQueryRealms2 : UInt8 := 0x40
def sidAuthInfo : UInt8 := 0x50
def sidAuthCheck : UInt8 := 0x51
def sidAuthAccountCreate : UInt8 := 0x52
def sidAuthAccountLogon : UInt8 := 0x53
def sidAuthAccountLogonProof : UInt8 := 0x54

/-- `Packet::name`, of the packets whose length is checked. -/
def Packet.name (p : Packet) : String :=
  if p.id = sidNull then "sid_null"
  else if p.id = sidGetChannelList then "sid_getchannellist"
  else if p.id = sidLeaveChat then "sid_leavechat"
  else if p.id = sidUdpPingResponse then "sid_udppingresponse"
  else if p.id = sidPing then "sid_ping"
  else if p.id = sidFriendsList then "sid_friendslist"
  else "unknown"

/-! ## State -/

/-- What is asked of the gateway. -/
inductive Action where
  | enterChat (requestedName : String)
  | requestChannelList
  | joinChannel (flags : UInt32) (channel : String)
  | leaveChat
  | chatCommand (command : String)
  | requestFriendsList
  | pong (roundTrip : Option Nat)
  | udpCapability (supported : Bool)
  deriving DecidableEq, Repr

inductive LogonStyle where
  | legacy | old | new
  deriving DecidableEq, Repr

structure Moment where
  /-- `Instant::now()`, in milliseconds. -/
  now : Nat
  /-- `rand::random()` of `handle_start_versioning`. -/
  challenge : UInt32
  /-- `rand::random()` of `send_ping`. -/
  token : UInt32
  deriving DecidableEq, Repr

def nullInterval : Nat := 60 * 1000

def pingInterval : Nat := 180 * 1000

structure LegacyPeer where
  writer : List UInt8 := []
  expectedAccount : String
  accountName : Option String := none
  logonStyle : Option LogonStyle := none
  accountAccepted : Bool := false
  loggedOn : Bool := false
  keepalivesActive : Bool := false
  nextNull : Nat
  nextPing : Nat
  pendingPing : Option (UInt32 × Nat) := none
  deriving DecidableEq

abbrev Peering (α : Type) : Type := Stateful LegacyPeer IoError α

def invalidData (message : String) : IoError := .invalidData message

namespace LegacyPeer

def new (now : Nat) (expectedAccount : String) : LegacyPeer where
  expectedAccount := expectedAccount
  nextNull := now + nullInterval
  nextPing := now + pingInterval

/-- A call on the writer. -/
def onWriter {α : Type} (x : Stateful (List UInt8) IoError α) : Peering α :=
  within LegacyPeer.writer (fun writer peer => { peer with writer }) x

def send (id : UInt8) (payload : List UInt8) : Peering Unit :=
  onWriter (Packet.writeTo ⟨id, payload⟩)

/-! ## Checks -/

def requireLength (p : Packet) (expected : Nat) : Peering Unit :=
  if p.payload.length = expected then pure ()
  else fail (invalidData
    s!"{p.name} must contain exactly {expected} payload bytes, received {p.payload.length}")

def requireConsumed (r : PayloadReader) (packetName : String) : Peering Unit :=
  if r.remaining = 0 then pure ()
  else fail (invalidData s!"{packetName} contains {r.remaining} trailing bytes")

def validateEnterChat (p : Packet) : Peering Unit := do
  let (_, r) ← orFail (PayloadReader.cString ⟨p.payload, 0⟩)
    (invalidData "sid_enterchat has no username terminator")
  let (statstring, r) ← orFail r.cString (invalidData "sid_enterchat has no statstring terminator")
  if 128 < (utf8Bytes statstring).length then
    fail (invalidData "sid_enterchat statstring exceeds 128 bytes")
  else requireConsumed r "sid_enterchat"

/-- The command, or nothing when it has a control character in it. -/
def validateChatCommand (p : Packet) : Peering (Option String) :=
  if ¬ (2 ≤ p.payload.length ∧ p.payload.length ≤ 224) then
    fail (invalidData "sid_chatcommand must contain between 2 and 224 payload bytes")
  else
    match p.payload.getLast? with
    | none => fail (invalidData "sid_chatcommand is empty")
    | some terminator =>
      if terminator ≠ 0 then fail (invalidData "sid_chatcommand is not null terminated")
      else if p.payload.dropLast.any fun byte => byte < 32 then pure none
      else pure (some (fromUtf8Lossy p.payload.dropLast))

/-- `c_string_at`. -/
def cStringAt (data : List UInt8) (offset : Nat) : Option String :=
  if offset ≤ data.length then
    let tail := data.drop offset
    (tail.findIdx? fun byte => byte = 0).map fun length => fromUtf8Lossy (tail.take length)
  else none

/-! ## Answers -/

def sendAuthCheckSuccess : Peering Unit := send sidAuthCheck (dword 0 ++ cString "")

def sendPing (m : Moment) : Peering Unit := do
  send sidPing (dword m.token)
  change fun peer => { peer with
    pendingPing := some (m.token, m.now)
    nextPing := m.now + pingInterval }

def beginKeepalives (m : Moment) : Peering Unit := do
  let peer ← read
  if peer.keepalivesActive then pure ()
  else
    change fun peer => { peer with
      keepalivesActive := true
      nextNull := m.now + nullInterval }
    sendPing m

def handleAuthInfo (m : Moment) : Peering Unit := do
  beginKeepalives m
  sendAuthCheckSuccess

/-- The round trip is told for the token of the last ping, and once. -/
def handlePingReply (m : Moment) (p : Packet) : Peering (List Action) := do
  requireLength p 4
  let token := UInt32.ofNat (littleEndian (p.payload.take 4))
  let pending ← take fun peer => (peer.pendingPing, { peer with pendingPing := none })
  let roundTrip := (pending.filter fun entry => entry.1 = token).map fun entry => m.now - entry.2
  return [.pong roundTrip]

/-- As many strings as announced are passed over. -/
def skipStrings : Nat → PayloadReader → Peering PayloadReader
  | 0, r => pure r
  | count + 1, r => do
    let (_, r) ← orFail r.cString (invalidData "sid_readuserdata has an unterminated string")
    skipStrings count r

def handleReadUserData (p : Packet) : Peering Unit := do
  let (accountCount, r) ← orFail (PayloadReader.dword ⟨p.payload, 0⟩)
    (invalidData "sid_readuserdata is missing the account count")
  let (keyCount, r) ← orFail r.dword (invalidData "sid_readuserdata is missing the key count")
  let (requestId, r) ← orFail r.dword (invalidData "sid_readuserdata is missing the request id")
  if 31 < keyCount then
    fail (invalidData "sid_readuserdata cannot request more than 31 keys")
  else if 2 ^ 32 ≤ accountCount.toNat + keyCount.toNat then
    fail (invalidData "sid_readuserdata string count is too large")
  else if r.remaining < accountCount.toNat + keyCount.toNat then
    fail (invalidData "sid_readuserdata contains impossible string counts")
  else
    let r ← skipStrings (accountCount.toNat + keyCount.toNat) r
    requireConsumed r "sid_readuserdata"
    let (accountCount, keyCount) := if 1 < accountCount then (0, 0) else (accountCount, keyCount)
    -- one account and 31 keys at most, so the product is a `u32`
    send sidReadUserData (dword accountCount ++ dword keyCount ++ dword requestId ++
      List.replicate (accountCount.toNat * keyCount.toNat) 0)

/-! ## Logging on -/

def accountMatches (peer : LegacyPeer) : Bool :=
  peer.accountName.any fun account => eqIgnoreAsciiCase account peer.expectedAccount

/-- What both kinds of logon do first. -/
def beginLogon (style : LogonStyle) (account : Option String) : Peering Unit := do
  change fun peer => { peer with logonStyle := some style, accountName := account }
  change fun peer => { peer with accountAccepted := peer.accountMatches }
  change fun peer => { peer with loggedOn := false }

def sendLogonSuccess : Peering Unit := do
  let peer ← read
  if !peer.accountAccepted then
    fail (invalidData "cannot accept a BNCS account that is not the selected SC2 toon")
  else
    change fun peer => { peer with loggedOn := true }
    match peer.logonStyle.getD .old with
    | .legacy => send sidLogonResponse (dword 1)
    | .old => send sidLogonResponse2 (dword 0)
    | .new => send sidAuthAccountLogonProof (dword 0 ++ List.replicate 20 0 ++ cString "")

def sendOldLogonFailure (style : LogonStyle) : Peering Unit :=
  match style with
  | .legacy => send sidLogonResponse (dword 0)
  | .old => send sidLogonResponse2 (dword 1)
  -- the callers pass one of the others
  | .new => pure ()

def sendNewLogonProofFailure : Peering Unit :=
  send sidAuthAccountLogonProof (dword 2 ++ List.replicate 20 0 ++ cString "")

def handleNewLogon (payload : List UInt8) : Peering Unit := do
  beginLogon .new (cStringAt payload 32)
  let peer ← read
  send sidAuthAccountLogon (dword (if peer.accountAccepted then 0 else 1) ++
    List.replicate 32 0 ++ List.replicate 32 0)

def handleOldLogon (payload : List UInt8) (style : LogonStyle) : Peering Unit := do
  beginLogon style (cStringAt payload 28)
  let peer ← read
  if peer.accountAccepted then sendLogonSuccess else sendOldLogonFailure style

/-- The arm of `SID_AUTH_ACCOUNT_LOGON_PROOF`. -/
def handleProof : Peering Unit := do
  change fun peer => { peer with logonStyle := some .new }
  let peer ← read
  if peer.accountAccepted then sendLogonSuccess else sendNewLogonProofFailure

/-! ## Other answers -/

def sendLegacyCreationRejected : Peering Unit := send sidCreateAccount (dword 0)

def sendOldCreationRejected : Peering Unit := send sidCreateAccount2 (dword 4 ++ cString "")

def sendNewCreationRejected : Peering Unit := send sidAuthAccountCreate (dword 4)

def sendReportVersionSuccess : Peering Unit := send sidReportVersion (dword 2 ++ cString "")

def handleStartVersioning (m : Moment) : Peering Unit := do
  send sidClientId (dword 0 ++ dword 0 ++ dword 0 ++ dword 0)
  send sidLogonChallengeEx (dword 0 ++ dword m.challenge)
  sendReportVersionSuccess
  beginKeepalives m

def sendCdKeySuccess : Peering Unit := send sidCdKey2 (dword 1 ++ cString "")

def sendQueryRealmsResponse : Peering Unit := send sidQueryRealms2 (dword 0 ++ dword 0)

/-- A field that is missing is answered as zero or as empty, and read no further. -/
def sendFileTimeResponse (request : List UInt8) : Peering Unit :=
  let r : PayloadReader := ⟨request, 0⟩
  let (requestId, r) := r.dword.getD (0, r)
  let (unknown, r) := r.dword.getD (0, r)
  let filename := (r.cString.map Prod.fst).getD ""
  send sidGetFileTime (dword requestId ++ dword unknown ++ toLittleEndian 8 0 ++ cString filename)

def sendIconResponse : Peering Unit :=
  send sidGetIconData (toLittleEndian 8 0 ++ cString "icons.bni")

/-! ## Packets -/

/-- What is done and brings about no action. -/
def answering (x : Peering Unit) : Peering (List Action) := do
  x
  return []

/-- An arm with the guard `if self.logged_on`. -/
def whenLoggedOn (x : Peering (List Action)) : Peering (List Action) := do
  let peer ← read
  if peer.loggedOn then x else return []

def handleEnterChat (p : Packet) : Peering (List Action) := do
  validateEnterChat p
  let peer ← read
  return [.enterChat peer.expectedAccount]

def handleJoinChannel (p : Packet) : Peering (List Action) := do
  let (flags, r) ← orFail (PayloadReader.dword ⟨p.payload, 0⟩)
    (invalidData "sid_joinchannel is missing its flags")
  let (channel, r) ← orFail r.cString (invalidData "sid_joinchannel has no channel terminator")
  requireConsumed r "sid_joinchannel"
  return [.joinChannel flags channel]

def handleChatCommand (p : Packet) : Peering (List Action) := do
  let command ← validateChatCommand p
  return (command.map .chatCommand).toList

/-- The arms that check a length and give an action. -/
def lengthOnly (p : Packet) (expected : Nat) (action : Action) : Peering (List Action) := do
  requireLength p expected
  return [action]

/-- `handle`. -/
def handle (m : Moment) (p : Packet) : Peering (List Action) :=
  if p.id = sidNull then answering (requireLength p 0)
  else if p.id = sidAuthInfo then answering (handleAuthInfo m)
  else if p.id = sidAuthCheck then answering sendAuthCheckSuccess
  else if p.id = sidAuthAccountLogon then answering (handleNewLogon p.payload)
  else if p.id = sidAuthAccountLogonProof then answering handleProof
  else if p.id = sidLogonResponse2 then answering (handleOldLogon p.payload .old)
  else if p.id = sidLogonResponse then answering (handleOldLogon p.payload .legacy)
  else if p.id = sidCreateAccount then answering sendLegacyCreationRejected
  else if p.id = sidCreateAccount2 then answering sendOldCreationRejected
  else if p.id = sidAuthAccountCreate then answering sendNewCreationRejected
  else if p.id = sidStartVersioning then answering (handleStartVersioning m)
  else if p.id = sidReportVersion then answering sendReportVersionSuccess
  else if p.id = sidCdKey2 then answering sendCdKeySuccess
  else if p.id = sidQueryRealms2 then answering sendQueryRealmsResponse
  else if p.id = sidGetFileTime then answering (sendFileTimeResponse p.payload)
  else if p.id = sidGetIconData then answering sendIconResponse
  else if p.id = sidEnterChat then whenLoggedOn (handleEnterChat p)
  else if p.id = sidGetChannelList then lengthOnly p 4 .requestChannelList
  else if p.id = sidJoinChannel then whenLoggedOn (handleJoinChannel p)
  else if p.id = sidLeaveChat then whenLoggedOn (lengthOnly p 0 .leaveChat)
  else if p.id = sidChatCommand then handleChatCommand p
  else if p.id = sidFriendsList then whenLoggedOn (lengthOnly p 0 .requestFriendsList)
  else if p.id = sidPing then handlePingReply m p
  else if p.id = sidUdpPingResponse then do
    requireLength p 4
    let token := UInt32.ofNat (littleEndian (p.payload.take 4))
    return [.udpCapability (token = 0x626E6574)]
  else if p.id = sidLocaleInfo then
    if p.payload.length < 36 then
      fail (invalidData "sid_localeinfo must be at least 36 bytes")
    else return []
  else if p.id = sidReadUserData then whenLoggedOn (answering (handleReadUserData p))
  else return []

/-- The first half of `service_keepalive`: whether it sent something. -/
def serviceNull (m : Moment) : Peering Bool := do
  let peer ← read
  if peer.nextNull ≤ m.now then do
    send sidNull []
    change fun peer => { peer with nextNull := m.now + nullInterval }
    return true
  else return false

/-- The second half. -/
def servicePing (m : Moment) : Peering Bool := do
  let peer ← read
  if peer.nextPing ≤ m.now then do
    sendPing m
    return true
  else return false

/-- `service_keepalive`: whether something was sent. -/
def serviceKeepalive (m : Moment) : Peering Bool := do
  let peer ← read
  if !peer.keepalivesActive then return false
  else
    let sentNull ← serviceNull m
    let sentPing ← servicePing m
    return sentNull || sentPing

end LegacyPeer

end Superiority.Gateway
