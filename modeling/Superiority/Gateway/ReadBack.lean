import Superiority.Gateway.Bncs

/-!
# What a legacy client reads

The calls that write to a legacy client, and what a client makes of the bytes by the layout of each
packet. The packets themselves are always read back. **`readsBack_iff`**: the arguments are read back
exactly if no string of a call that is carried out has a NUL in it and no channel is without a name.
-/

namespace Superiority.Gateway

/-! ## Calls -/

/-- A call that writes to a legacy client. -/
inductive Call where
  | packet (packet : Packet)
  | enterChat (username stats : String)
  | chatEvent (eventId : UInt32) (username text : String) (flags ping : UInt32)
  | friendsList (friends : List FriendEntry)
  | channelList (channels : List String)

namespace Call

/-- The call, to a writer that has taken bytes before. -/
def perform : Call → List UInt8 → Except IoError Unit × List UInt8
  | packet p => p.writeTo
  | enterChat username stats => sendEnterChat username stats
  | chatEvent eventId username text flags ping => sendChatEvent eventId username text flags ping
  | friendsList friends => sendFriendsList friends
  | channelList channels => sendChannelList channels

/-- The packet of a call. -/
def toPacket : Call → Packet
  | packet p => p
  | enterChat username stats =>
    ⟨sidEnterChat, cString username ++ cString stats ++ cString username⟩
  | chatEvent eventId username text flags ping =>
    ⟨sidChatEvent, dword eventId ++ dword flags ++ dword ping ++ dword 0 ++
      dword syntheticAccountNumber ++ dword syntheticAccountNumber ++ cString username ++
      cString text⟩
  | friendsList friends =>
    ⟨sidFriendsList, [UInt8.ofNat friends.length] ++
      friends.flatMap fun friend => writeFriend friend true⟩
  | channelList channels => ⟨sidGetChannelList, channels.flatMap cString ++ [0]⟩

/-- The bytes of the payload, by the lengths of the arguments. -/
def payloadLength : Call → Nat
  | packet p => p.payload.length
  | enterChat username stats => 2 * (utf8Bytes username).length + (utf8Bytes stats).length + 3
  | chatEvent _ username text _ _ => (utf8Bytes username).length + (utf8Bytes text).length + 26
  | friendsList friends => (friends.map fun friend =>
      (utf8Bytes friend.name).length + (utf8Bytes friend.locationName).length + 8).sum + 1
  | channelList channels => (channels.map fun channel => (utf8Bytes channel).length + 1).sum + 1

/-- The arguments fit in a packet. -/
def Fits (call : Call) : Prop :=
  call.payloadLength + headerBytes ≤ maxPacketBytes ∧
    match call with
    | friendsList friends => friends.length ≤ 255
    | _ => True

instance (call : Call) : Decidable call.Fits := by
  unfold Fits
  cases call <;> exact inferInstance

/-- No string has a NUL in it, and no channel is without a name. -/
def Clean : Call → Prop
  | packet _ => True
  | enterChat username stats => nul ∉ username.toList ∧ nul ∉ stats.toList
  | chatEvent _ username text _ _ => nul ∉ username.toList ∧ nul ∉ text.toList
  | friendsList friends =>
    ∀ friend ∈ friends, nul ∉ friend.name.toList ∧ nul ∉ friend.locationName.toList
  | channelList channels => ∀ channel ∈ channels, channel ≠ "" ∧ nul ∉ channel.toList

end Call

/-! ## What a client makes of a payload -/

/-- A payload is read to its end. -/
def readWhole {α : Type} (read : PayloadReader → Option (α × PayloadReader))
    (payload : List UInt8) : Option α :=
  match read ⟨payload, 0⟩ with
  | some (value, r) => if r.remaining = 0 then some value else none
  | none => none

namespace PayloadReader

/-- The layout of `SID_ENTERCHAT`. -/
def enterChat (r : PayloadReader) : Option ((String × String × String) × PayloadReader) := do
  let (uniqueName, r) ← r.cString
  let (stats, r) ← r.cString
  let (account, r) ← r.cString
  return ((uniqueName, stats, account), r)

/-- The dwords of `SID_CHATEVENT`, as many as given. -/
def dwords : Nat → PayloadReader → Option (List UInt32 × PayloadReader)
  | 0, r => some ([], r)
  | count + 1, r => do
    let (value, r) ← r.dword
    let (values, r) ← dwords count r
    return (value :: values, r)

/-- The layout of `SID_CHATEVENT`. -/
def chatEvent (r : PayloadReader) : Option ((List UInt32 × String × String) × PayloadReader) := do
  let (values, r) ← r.dwords 6
  let (username, r) ← r.cString
  let (text, r) ← r.cString
  return ((values, username, text), r)

def friend (r : PayloadReader) : Option (FriendEntry × PayloadReader) := do
  let (name, r) ← r.cString
  let (status, r) ← r.byte
  let (location, r) ← r.byte
  let (product, r) ← r.dword
  let (locationName, r) ← r.cString
  return (⟨name, status, location, product, locationName⟩, r)

def friends : Nat → PayloadReader → Option (List FriendEntry × PayloadReader)
  | 0, r => some ([], r)
  | count + 1, r => do
    let (entry, r) ← r.friend
    let (entries, r) ← friends count r
    return (entry :: entries, r)

/-- The layout of `SID_FRIENDSLIST`. -/
def friendsList (r : PayloadReader) : Option (List FriendEntry × PayloadReader) := do
  let (count, r) ← r.byte
  friends count.toNat r

/-- The layout of `SID_GETCHANNELLIST`: names up to an empty one, in no more rounds than given. -/
def channelList : Nat → PayloadReader → Option (List String × PayloadReader)
  | 0, _ => none
  | rounds + 1, r => do
    let (channel, r) ← r.cString
    if channel = "" then return ([], r)
    else
      let (channels, r) ← channelList rounds r
      return (channel :: channels, r)

end PayloadReader

namespace Call

/-- A client reads the arguments of the call from the payload, and nothing is left over. -/
def IsReadFrom (payload : List UInt8) : Call → Prop
  | packet p => payload = p.payload
  | enterChat username stats =>
    readWhole PayloadReader.enterChat payload = some (username, stats, username)
  | chatEvent eventId username text flags ping =>
    readWhole PayloadReader.chatEvent payload = some
      ([eventId, flags, ping, 0, syntheticAccountNumber, syntheticAccountNumber], username, text)
  | friendsList friends => readWhole PayloadReader.friendsList payload = some friends
  | channelList channels =>
    readWhole (PayloadReader.channelList payload.length) payload = some channels

end Call

namespace PayloadReader

/-! ## The fields that a client reads -/

/-- These bytes are still to be read. -/
def Ahead (r : PayloadReader) (bytes : List UInt8) : Prop :=
  r.offset ≤ r.data.length ∧ r.data.drop r.offset = bytes

/-- From these bytes the value is read, and the reader is then behind them. -/
def Reads {α : Type} (read : PayloadReader → Option (α × PayloadReader)) (bytes : List UInt8)
    (value : α) : Prop :=
  ∀ (r : PayloadReader) (rest : List UInt8), Ahead r (bytes ++ rest) →
    ∃ r', read r = some (value, r') ∧ Ahead r' rest

theorem Ahead.advance {r : PayloadReader} {bytes rest : List UInt8} (h : Ahead r (bytes ++ rest)) :
    Ahead { r with offset := r.offset + bytes.length } rest := by
  obtain ⟨hoffset, hdrop⟩ := h
  have hlength := congrArg List.length hdrop
  rw [List.length_drop, List.length_append] at hlength
  constructor
  · show r.offset + bytes.length ≤ r.data.length
    omega
  · show r.data.drop (r.offset + bytes.length) = rest
    rw [← List.drop_drop, hdrop, List.drop_left]

theorem Ahead.remaining {r : PayloadReader} {bytes : List UInt8} (h : Ahead r bytes) :
    r.remaining = bytes.length := by
  rw [PayloadReader.remaining, ← h.2, List.length_drop]

theorem reads_dword (value : UInt32) : Reads dword (Gateway.dword value) value := by
  intro r rest h
  have hsize : (Gateway.dword value).length = 4 := length_toLittleEndian 4 _
  have hrange := (getRange_eq_some_iff h.1).2 ⟨rest, h.2, hsize⟩
  refine ⟨_, ?_, h.advance⟩
  rw [dword, hrange, Option.map_some, Gateway.dword,
    littleEndian_toLittleEndian (by simpa using value.toNat_lt), UInt32.ofNat_toNat]
  rfl

theorem reads_byte (value : UInt8) : Reads byte [value] value := by
  intro r rest h
  refine ⟨_, ?_, h.advance⟩
  have hget : r.data[r.offset]? = some value := by
    have hhead := congrArg List.head? h.2
    rwa [List.head?_drop] at hhead
  rw [byte, hget]
  rfl

theorem reads_cString {value : String} (hvalue : nul ∉ value.toList) :
    Reads cString (Gateway.cString value) value := by
  intro r rest h
  have hzero := zero_not_mem_utf8Bytes hvalue
  have hdrop : r.data.drop r.offset = utf8Bytes value ++ 0 :: rest := by
    rw [h.2, Gateway.cString, List.append_assoc]
    rfl
  have hfind : (utf8Bytes value ++ 0 :: rest).findIdx? (fun byte => decide (byte = 0))
      = some (utf8Bytes value).length := by
    have hnone : (utf8Bytes value).findIdx? (fun byte => decide (byte = 0)) = none := by
      simp only [List.findIdx?_eq_none_iff, decide_eq_false_iff_not]
      exact fun byte hmem hbyte => hzero (hbyte ▸ hmem)
    rw [List.findIdx?_append, hnone, List.findIdx?_cons]
    simp
  have hsize : (Gateway.cString value).length = (utf8Bytes value).length + 1 := by
    simp [Gateway.cString]
  refine ⟨_, ?_, h.advance⟩
  rw [cString, if_pos h.1]
  dsimp only
  rw [hdrop, hfind, Option.map_some, List.take_left, fromUtf8Lossy_utf8Bytes, hsize]

/-- No string that is read has a NUL in it. -/
theorem nul_not_mem_of_cString {r r' : PayloadReader} {value : String}
    (h : r.cString = some (value, r')) : nul ∉ value.toList := by
  unfold cString at h
  split_ifs at h
  obtain ⟨length, hfind, hread⟩ := Option.map_eq_some_iff.1 h
  obtain ⟨rfl, -⟩ := Prod.mk.inj hread
  refine nul_not_mem_fromUtf8Lossy fun hmem => ?_
  obtain ⟨hlt, -, hbefore⟩ := List.findIdx?_eq_some_iff_getElem.1 hfind
  obtain ⟨i, hi, hzero⟩ := List.mem_iff_getElem.1 hmem
  rw [List.length_take] at hi
  rw [List.getElem_take] at hzero
  exact hbefore i (by omega) (by simpa using hzero)

variable {α : Type}

/-- What is read from the whole payload is all there is. -/
theorem readWhole_eq {read : PayloadReader → Option (α × PayloadReader)} {payload : List UInt8}
    {a : α} (h : Reads read payload a) : readWhole read payload = some a := by
  obtain ⟨r, hread, hahead⟩ := h ⟨payload, 0⟩ [] ⟨Nat.zero_le _, by simp⟩
  rw [readWhole, hread]
  dsimp only
  rw [if_pos (by simpa using hahead.remaining)]

theorem of_readWhole {read : PayloadReader → Option (α × PayloadReader)} {payload : List UInt8}
    {a : α} (h : readWhole read payload = some a) : ∃ r, read ⟨payload, 0⟩ = some (a, r) := by
  unfold readWhole at h
  cases hread : read ⟨payload, 0⟩ with
  | none =>
    rw [hread] at h
    cases h
  | some found =>
    rw [hread] at h
    dsimp only at h
    split_ifs at h
    obtain rfl := Option.some.inj h
    exact ⟨found.2, rfl⟩

/-! ## The layouts -/

theorem reads_enterChat {username stats : String} (husername : nul ∉ username.toList)
    (hstats : nul ∉ stats.toList) :
    Reads enterChat (Gateway.cString username ++ Gateway.cString stats ++ Gateway.cString username)
      (username, stats, username) := by
  intro r rest h
  rw [List.append_assoc, List.append_assoc] at h
  obtain ⟨r₁, hname, h₁⟩ := reads_cString husername r _ h
  obtain ⟨r₂, hstring, h₂⟩ := reads_cString hstats r₁ _ h₁
  obtain ⟨r₃, haccount, h₃⟩ := reads_cString husername r₂ _ h₂
  refine ⟨r₃, ?_, h₃⟩
  simp [enterChat, hname, hstring, haccount]

theorem reads_dwords (values : List UInt32) :
    Reads (dwords values.length) (values.flatMap Gateway.dword) values := by
  induction values with
  | nil => exact fun r rest h => ⟨r, rfl, h⟩
  | cons value values ih =>
    intro r rest h
    rw [List.flatMap_cons, List.append_assoc] at h
    obtain ⟨r₁, hvalue, h₁⟩ := reads_dword value r _ h
    obtain ⟨r₂, hvalues, h₂⟩ := ih r₁ _ h₁
    refine ⟨r₂, ?_, h₂⟩
    simp [dwords, hvalue, hvalues]

theorem reads_chatEvent {eventId flags ping : UInt32} {username text : String}
    (husername : nul ∉ username.toList) (htext : nul ∉ text.toList) :
    Reads chatEvent (Gateway.dword eventId ++ Gateway.dword flags ++ Gateway.dword ping ++
        Gateway.dword 0 ++ Gateway.dword syntheticAccountNumber ++
        Gateway.dword syntheticAccountNumber ++ Gateway.cString username ++ Gateway.cString text)
      ([eventId, flags, ping, 0, syntheticAccountNumber, syntheticAccountNumber], username, text)
    := by
  intro r rest h
  obtain ⟨r₁, hvalues, h₁⟩ := reads_dwords
    [eventId, flags, ping, 0, syntheticAccountNumber, syntheticAccountNumber] r
    (Gateway.cString username ++ (Gateway.cString text ++ rest)) (by simpa using h)
  obtain ⟨r₂, hname, h₂⟩ := reads_cString husername r₁ _ h₁
  obtain ⟨r₃, hbody, h₃⟩ := reads_cString htext r₂ _ h₂
  refine ⟨r₃, ?_, h₃⟩
  have hsix : r.dwords 6 = some (_, r₁) := hvalues
  simp [chatEvent, hsix, hname, hbody]

theorem reads_friend {entry : FriendEntry} (hname : nul ∉ entry.name.toList)
    (hlocation : nul ∉ entry.locationName.toList) :
    Reads friend (writeFriend entry true) entry := by
  intro r rest h
  have hsplit : writeFriend entry true ++ rest = Gateway.cString entry.name ++ ([entry.status] ++
      ([entry.location] ++ (Gateway.dword entry.product ++
        (Gateway.cString entry.locationName ++ rest)))) := by
    simp [writeFriend]
  rw [hsplit] at h
  obtain ⟨r₁, hread₁, h₁⟩ := reads_cString hname r _ h
  obtain ⟨r₂, hread₂, h₂⟩ := reads_byte entry.status r₁ _ h₁
  obtain ⟨r₃, hread₃, h₃⟩ := reads_byte entry.location r₂ _ h₂
  obtain ⟨r₄, hread₄, h₄⟩ := reads_dword entry.product r₃ _ h₃
  obtain ⟨r₅, hread₅, h₅⟩ := reads_cString hlocation r₄ _ h₄
  refine ⟨r₅, ?_, h₅⟩
  simp [friend, hread₁, hread₂, hread₃, hread₄, hread₅]

theorem reads_friends {entries : List FriendEntry} (h : ∀ entry ∈ entries,
    nul ∉ entry.name.toList ∧ nul ∉ entry.locationName.toList) :
    Reads (friends entries.length) (entries.flatMap fun entry => writeFriend entry true) entries
    := by
  induction entries with
  | nil => exact fun r rest h => ⟨r, rfl, h⟩
  | cons entry entries ih =>
    intro r rest hahead
    rw [List.flatMap_cons, List.append_assoc] at hahead
    have hentry := h entry List.mem_cons_self
    obtain ⟨r₁, hread, h₁⟩ := reads_friend hentry.1 hentry.2 r _ hahead
    obtain ⟨r₂, hreads, h₂⟩ := ih (fun entry hmem => h entry (List.mem_cons_of_mem _ hmem)) r₁ _ h₁
    refine ⟨r₂, ?_, h₂⟩
    simp [friends, hread, hreads]

theorem reads_friendsList {entries : List FriendEntry} (hlength : entries.length ≤ 255)
    (h : ∀ entry ∈ entries, nul ∉ entry.name.toList ∧ nul ∉ entry.locationName.toList) :
    Reads friendsList ([UInt8.ofNat entries.length] ++
      entries.flatMap fun entry => writeFriend entry true) entries := by
  intro r rest hahead
  rw [List.append_assoc] at hahead
  obtain ⟨r₁, hcount, h₁⟩ := reads_byte (UInt8.ofNat entries.length) r _ hahead
  obtain ⟨r₂, hreads, h₂⟩ := reads_friends h r₁ _ h₁
  refine ⟨r₂, ?_, h₂⟩
  have htoNat : (UInt8.ofNat entries.length).toNat = entries.length :=
    toNat_ofNat_of_lt (Nat.lt_succ_of_le hlength)
  rw [friendsList, hcount]
  show friends (UInt8.ofNat entries.length).toNat r₁ = _
  rw [htoNat, hreads]

theorem reads_channelList {channels : List String}
    (h : ∀ channel ∈ channels, channel ≠ "" ∧ nul ∉ channel.toList) {rounds : Nat}
    (hrounds : channels.length < rounds) :
    Reads (channelList rounds) (channels.flatMap Gateway.cString ++ [0]) channels := by
  induction channels generalizing rounds with
  | nil =>
    obtain ⟨rounds, rfl⟩ := Nat.exists_eq_succ_of_ne_zero (Nat.ne_of_gt hrounds)
    intro r rest hahead
    have hempty : nul ∉ "".toList := by simp
    obtain ⟨r₁, hread, h₁⟩ := reads_cString hempty r rest hahead
    refine ⟨r₁, ?_, h₁⟩
    simp [channelList, hread]
  | cons channel channels ih =>
    cases rounds with
    | zero => cases hrounds
    | succ rounds =>
      intro r rest hahead
      rw [List.flatMap_cons, List.append_assoc, List.append_assoc] at hahead
      obtain ⟨hne, hnul⟩ := h channel List.mem_cons_self
      obtain ⟨r₁, hread, h₁⟩ := reads_cString hnul r _ hahead
      rw [← List.append_assoc] at h₁
      obtain ⟨r₂, hreads, h₂⟩ := ih (fun channel hmem => h channel (List.mem_cons_of_mem _ hmem))
        (Nat.lt_of_succ_lt_succ hrounds) r₁ _ h₁
      refine ⟨r₂, ?_, h₂⟩
      simp [channelList, hread, hne, hreads]

/-! ## What the layouts can read -/

theorem clean_of_enterChat {r r' : PayloadReader} {uniqueName stats account : String}
    (h : r.enterChat = some ((uniqueName, stats, account), r')) :
    nul ∉ uniqueName.toList ∧ nul ∉ stats.toList := by
  simp only [enterChat, Option.bind_eq_bind, Option.bind_eq_some_iff, Option.pure_def,
    Option.some.injEq, Prod.exists, Prod.mk.injEq] at h
  obtain ⟨_, _, hname, _, _, hstats, _, _, -, ⟨rfl, rfl, rfl⟩, -⟩ := h
  exact ⟨nul_not_mem_of_cString hname, nul_not_mem_of_cString hstats⟩

theorem clean_of_chatEvent {r r' : PayloadReader} {values : List UInt32} {username text : String}
    (h : r.chatEvent = some ((values, username, text), r')) :
    nul ∉ username.toList ∧ nul ∉ text.toList := by
  simp only [chatEvent, Option.bind_eq_bind, Option.bind_eq_some_iff, Option.pure_def,
    Option.some.injEq, Prod.exists, Prod.mk.injEq] at h
  obtain ⟨_, _, -, _, _, hname, _, _, htext, ⟨rfl, rfl, rfl⟩, -⟩ := h
  exact ⟨nul_not_mem_of_cString hname, nul_not_mem_of_cString htext⟩

theorem clean_of_friend {r r' : PayloadReader} {entry : FriendEntry}
    (h : r.friend = some (entry, r')) :
    nul ∉ entry.name.toList ∧ nul ∉ entry.locationName.toList := by
  simp only [friend, Option.bind_eq_bind, Option.bind_eq_some_iff, Option.pure_def,
    Option.some.injEq, Prod.exists, Prod.mk.injEq] at h
  obtain ⟨_, _, hname, _, _, -, _, _, -, _, _, -, _, _, hlocation, rfl, -⟩ := h
  exact ⟨nul_not_mem_of_cString hname, nul_not_mem_of_cString hlocation⟩

theorem clean_of_friends {count : Nat} {r r' : PayloadReader} {entries : List FriendEntry}
    (h : friends count r = some (entries, r')) :
    ∀ entry ∈ entries, nul ∉ entry.name.toList ∧ nul ∉ entry.locationName.toList := by
  induction count generalizing r r' entries with
  | zero =>
    obtain ⟨rfl, -⟩ := Prod.mk.inj (Option.some.inj h)
    exact nofun
  | succ count ih =>
    simp only [friends, Option.bind_eq_bind, Option.bind_eq_some_iff, Option.pure_def,
      Option.some.injEq, Prod.exists, Prod.mk.injEq] at h
    obtain ⟨_, _, hentry, _, _, hentries, rfl, -⟩ := h
    exact List.forall_mem_cons.2 ⟨clean_of_friend hentry, ih hentries⟩

theorem clean_of_channelList {rounds : Nat} {r r' : PayloadReader} {channels : List String}
    (h : channelList rounds r = some (channels, r')) :
    ∀ channel ∈ channels, channel ≠ "" ∧ nul ∉ channel.toList := by
  induction rounds generalizing r r' channels with
  | zero => cases h
  | succ rounds ih =>
    simp only [channelList, Option.bind_eq_bind, Option.bind_eq_some_iff, Option.pure_def,
      Prod.exists] at h
    obtain ⟨channel, r₁, hchannel, hrest⟩ := h
    split_ifs at hrest with hempty
    · obtain ⟨rfl, -⟩ := Prod.mk.inj (Option.some.inj hrest)
      exact nofun
    · simp only [Option.bind_eq_some_iff, Option.some.injEq, Prod.exists, Prod.mk.injEq] at hrest
      obtain ⟨_, _, hchannels, rfl, -⟩ := hrest
      exact List.forall_mem_cons.2 ⟨⟨hempty, nul_not_mem_of_cString hchannel⟩, ih hchannels⟩

end PayloadReader

namespace Call

/-! ## Calls and their packets -/

theorem length_cString (value : String) :
    (cString value).length = (utf8Bytes value).length + 1 := by
  simp [cString]

theorem length_dword (value : UInt32) : (dword value).length = 4 := length_toLittleEndian 4 _

theorem length_writeFriend (friend : FriendEntry) : (writeFriend friend true).length =
    (utf8Bytes friend.name).length + (utf8Bytes friend.locationName).length + 8 := by
  rw [writeFriend, if_pos rfl]
  simp only [List.length_append, length_cString, length_dword, List.length_cons, List.length_nil]
  omega

theorem length_toPacket (call : Call) : call.toPacket.payload.length = call.payloadLength := by
  cases call with
  | packet p => rfl
  | enterChat username stats =>
    simp only [toPacket, payloadLength, List.length_append, length_cString]
    omega
  | chatEvent eventId username text flags ping =>
    simp only [toPacket, payloadLength, List.length_append, length_cString, length_dword]
    omega
  | friendsList friends =>
    simp only [toPacket, payloadLength, List.length_append, List.length_flatMap,
      length_writeFriend, List.length_singleton]
    omega
  | channelList channels =>
    simp only [toPacket, payloadLength, List.length_append, List.length_flatMap, length_cString,
      List.length_singleton]

theorem writeTo_eq_ok {p : Packet} (h : p.payload.length + headerBytes ≤ maxPacketBytes)
    (writer : List UInt8) : p.writeTo writer = (.ok (), writer ++ p.bytes) :=
  if_pos (Nat.lt_succ_of_le h)

theorem writeTo_eq_error {p : Packet} (h : ¬ p.payload.length + headerBytes ≤ maxPacketBytes)
    (writer : List UInt8) : ∃ error, p.writeTo writer = (.error error, writer) :=
  ⟨_, if_neg fun hlt => h (Nat.le_of_lt_succ hlt)⟩

/-- A call whose arguments fit writes its packet. -/
theorem perform_of_fits {call : Call} (h : call.Fits) (writer : List UInt8) :
    call.perform writer = (.ok (), writer ++ call.toPacket.bytes) := by
  have hlength := h.1
  rw [← length_toPacket] at hlength
  cases call with
  | packet p => exact writeTo_eq_ok hlength writer
  | enterChat username stats => exact writeTo_eq_ok hlength writer
  | chatEvent eventId username text flags ping => exact writeTo_eq_ok hlength writer
  | friendsList friends =>
    have hcount : friends.length < 2 ^ 8 := Nat.lt_succ_of_le h.2
    rw [perform, sendFriendsList, if_pos hcount]
    exact writeTo_eq_ok hlength writer
  | channelList channels => exact writeTo_eq_ok hlength writer

/-- A call whose arguments do not fit writes nothing. -/
theorem perform_of_not_fits {call : Call} (h : ¬ call.Fits) (writer : List UInt8) :
    ∃ error, call.perform writer = (.error error, writer) := by
  have hlength (hcount : call.payloadLength + headerBytes ≤ maxPacketBytes → False) :
      ¬ call.toPacket.payload.length + headerBytes ≤ maxPacketBytes := by
    rwa [length_toPacket]
  cases call with
  | packet p => exact writeTo_eq_error (hlength fun hle => h ⟨hle, trivial⟩) writer
  | enterChat username stats =>
    exact writeTo_eq_error (hlength fun hle => h ⟨hle, trivial⟩) writer
  | chatEvent eventId username text flags ping =>
    exact writeTo_eq_error (hlength fun hle => h ⟨hle, trivial⟩) writer
  | friendsList friends =>
    rw [perform, sendFriendsList]
    by_cases hcount : friends.length < 2 ^ 8
    · rw [if_pos hcount]
      exact writeTo_eq_error (hlength fun hle => h ⟨hle, Nat.le_of_lt_succ hcount⟩) writer
    · rw [if_neg hcount]
      exact ⟨_, rfl⟩
  | channelList channels =>
    exact writeTo_eq_error (hlength fun hle => h ⟨hle, trivial⟩) writer

/-- **The arguments are read back exactly if they are clean.** -/
theorem isReadFrom_iff {call : Call} (h : call.Fits) :
    call.IsReadFrom call.toPacket.payload ↔ call.Clean := by
  cases call with
  | packet p => exact iff_of_true rfl trivial
  | enterChat username stats =>
    refine ⟨fun hread => ?_, fun hclean => ?_⟩
    · obtain ⟨r, hread⟩ := PayloadReader.of_readWhole hread
      exact PayloadReader.clean_of_enterChat hread
    · exact PayloadReader.readWhole_eq (PayloadReader.reads_enterChat hclean.1 hclean.2)
  | chatEvent eventId username text flags ping =>
    refine ⟨fun hread => ?_, fun hclean => ?_⟩
    · obtain ⟨r, hread⟩ := PayloadReader.of_readWhole hread
      exact PayloadReader.clean_of_chatEvent hread
    · exact PayloadReader.readWhole_eq (PayloadReader.reads_chatEvent hclean.1 hclean.2)
  | friendsList friends =>
    refine ⟨fun hread => ?_, fun hclean => ?_⟩
    · obtain ⟨r, hread⟩ := PayloadReader.of_readWhole hread
      simp only [PayloadReader.friendsList, Option.bind_eq_bind, Option.bind_eq_some_iff,
        Prod.exists] at hread
      obtain ⟨_, _, -, hfriends⟩ := hread
      exact PayloadReader.clean_of_friends hfriends
    · exact PayloadReader.readWhole_eq (PayloadReader.reads_friendsList h.2 hclean)
  | channelList channels =>
    refine ⟨fun hread => ?_, fun hclean => ?_⟩
    · obtain ⟨r, hread⟩ := PayloadReader.of_readWhole hread
      exact PayloadReader.clean_of_channelList hread
    · refine PayloadReader.readWhole_eq (PayloadReader.reads_channelList hclean ?_)
      rw [length_toPacket, payloadLength]
      have hcount := List.length_le_sum_of_one_le
        (channels.map fun channel => (utf8Bytes channel).length + 1) (by simp)
      rw [List.length_map] at hcount
      exact Nat.lt_succ_of_le hcount

end Call

/-! ## Sequences of calls -/

/-- What has been written, and the calls that have been carried out. -/
structure Sent where
  writer : List UInt8 := []
  calls : List Call := []

/-- The next call. -/
def Sent.next (sent : Sent) (call : Call) : Sent :=
  match call.perform sent.writer with
  | (.ok (), writer) => ⟨writer, sent.calls ++ [call]⟩
  | (.error _, writer) => ⟨writer, sent.calls⟩

def send (calls : List Call) : Sent := calls.foldl Sent.next ⟨[], []⟩

/-- What `Packet::read_from` returns when it is called again and again: packets, and then nothing or
an error. -/
inductive ReadsPackets : List (Arrival UInt8) → List Packet → Option IoError → Prop
  | finish {arrivals} (h : Packet.readFrom arrivals = .ok none) : ReadsPackets arrivals [] none
  | fail {arrivals error} (h : Packet.readFrom arrivals = .error error) :
    ReadsPackets arrivals [] (some error)
  | packet {arrivals packet arrivals' packets error}
    (h : Packet.readFrom arrivals = .ok (some (packet, arrivals')))
    (later : ReadsPackets arrivals' packets error) : ReadsPackets arrivals (packet :: packets) error

/-- What is asked of a sequence of calls: one that fails writes nothing; the packets of the others
are read in order, however the bytes arrive, and a stream that is cut off ends without an error only
between packets; and from each payload the arguments are read. -/
structure ReadsBack (calls : List Call) : Prop where
  unwritten : ∀ call ∈ calls, ∀ writer error, (call.perform writer).1 = .error error →
    (call.perform writer).2 = writer
  packets : ∀ arrivals, arrived arrivals = (send calls).writer →
    ReadsPackets arrivals ((send calls).calls.map Call.toPacket) none
  boundaries : ∀ arrivals, arrived arrivals <+: (send calls).writer →
    ∃ packets error, ReadsPackets arrivals packets error ∧
      packets <+: (send calls).calls.map Call.toPacket ∧
        (error = none → arrived arrivals = packets.flatMap Packet.bytes)
  arguments : ∀ call ∈ (send calls).calls, call.IsReadFrom call.toPacket.payload

theorem send_eq (calls : List Call) : send calls =
    ⟨((calls.filter fun call => call.Fits).map Call.toPacket).flatMap Packet.bytes,
      calls.filter fun call => call.Fits⟩ := by
  induction calls using List.reverseRecOn with
  | nil => rfl
  | append_singleton calls call ih =>
    have hnext : send (calls ++ [call]) = (send calls).next call := by
      rw [send, List.foldl_append]
      rfl
    rw [hnext, ih, Sent.next, List.filter_append]
    by_cases hfits : call.Fits
    · rw [Call.perform_of_fits hfits]
      simp [hfits]
    · obtain ⟨error, hperform⟩ := Call.perform_of_not_fits hfits
        (((calls.filter fun call => call.Fits).map Call.toPacket).flatMap Packet.bytes)
      rw [hperform]
      simp [hfits]

/-- Packets that fit are read as they were written. -/
theorem readsPackets_of_eq {packets : List Packet}
    (hfit : ∀ p ∈ packets, p.payload.length + headerBytes < 2 ^ 16)
    {arrivals : List (Arrival UInt8)} (h : arrived arrivals = packets.flatMap Packet.bytes) :
    ReadsPackets arrivals packets none := by
  induction packets generalizing arrivals with
  | nil => exact .finish (Packet.readFrom_nil h)
  | cons p packets ih =>
    rw [List.flatMap_cons] at h
    obtain ⟨arrivals', hread, harrived⟩ := Packet.readFrom_eq (hfit p List.mem_cons_self) h
    exact .packet hread (ih (fun p hp => hfit p (List.mem_cons_of_mem _ hp)) harrived)

/-- A stream that is cut off gives packets, and no error only between them. -/
theorem readsPackets_of_prefix {packets : List Packet}
    (hfit : ∀ p ∈ packets, p.payload.length + headerBytes < 2 ^ 16)
    {arrivals : List (Arrival UInt8)} (h : arrived arrivals <+: packets.flatMap Packet.bytes) :
    ∃ read error, ReadsPackets arrivals read error ∧ read <+: packets ∧
      (error = none → arrived arrivals = read.flatMap Packet.bytes) := by
  induction packets generalizing arrivals with
  | nil =>
    have hnil := List.prefix_nil.1 h
    exact ⟨[], none, .finish (Packet.readFrom_nil hnil), List.nil_prefix, fun _ => hnil⟩
  | cons p packets ih =>
    rw [List.flatMap_cons] at h
    have hp := hfit p List.mem_cons_self
    by_cases hnil : arrived arrivals = []
    · exact ⟨[], none, .finish (Packet.readFrom_nil hnil), List.nil_prefix, fun _ => hnil⟩
    by_cases hwhole : p.bytes <+: arrived arrivals
    · obtain ⟨rest, hrest⟩ := hwhole
      obtain ⟨arrivals', hread, harrived⟩ := Packet.readFrom_eq hp hrest.symm
      rw [← hrest] at h
      obtain ⟨read, error, hreads, hprefix, hends⟩ :=
        ih (fun p hp => hfit p (List.mem_cons_of_mem _ hp))
          (harrived ▸ (List.prefix_append_right_inj p.bytes).1 h)
      refine ⟨p :: read, error, .packet hread hreads, ?_, fun hnone => ?_⟩
      · exact (List.prefix_cons_inj p).2 hprefix
      · rw [← hrest, ← harrived, hends hnone, List.flatMap_cons]
    · -- the stream ends in this packet
      have hcut : arrived arrivals <+: p.bytes := by
        rcases List.prefix_or_prefix_of_prefix h (List.prefix_append p.bytes _) with hcut | hcut
        · exact hcut
        · exact absurd hcut hwhole
      have hshort : arrived arrivals ≠ p.bytes := fun hsame =>
        hwhole (hsame ▸ List.prefix_rfl)
      exact ⟨[], some .unexpectedEof, .fail (Packet.readFrom_short hp hcut hnil hshort),
        List.nil_prefix, nofun⟩

/-- **Exactly calls without a NUL in their strings, and without an empty channel, are read back**;
calls that do not fit in a packet write nothing. -/
theorem readsBack_iff (calls : List Call) :
    ReadsBack calls ↔ ∀ call ∈ calls, call.Fits → call.Clean := by
  have hmem {call : Call} : call ∈ (send calls).calls ↔ call ∈ calls ∧ call.Fits := by
    rw [send_eq, List.mem_filter, decide_eq_true_eq]
  constructor
  · intro h call hcall hfits
    exact (Call.isReadFrom_iff hfits).1 (h.arguments call (hmem.2 ⟨hcall, hfits⟩))
  · intro h
    have hfit : ∀ p ∈ (send calls).calls.map Call.toPacket,
        p.payload.length + headerBytes < 2 ^ 16 := by
      intro p hp
      obtain ⟨call, hcall, rfl⟩ := List.mem_map.1 hp
      rw [Call.length_toPacket]
      exact Nat.lt_succ_of_le (hmem.1 hcall).2.1
    have hwriter : (send calls).writer
        = ((send calls).calls.map Call.toPacket).flatMap Packet.bytes := by
      rw [send_eq]
    refine ⟨?_, ?_, ?_, ?_⟩
    · intro call _ writer error herror
      by_cases hfits : call.Fits
      · rw [Call.perform_of_fits hfits] at herror
        cases herror
      · obtain ⟨error', hperform⟩ := Call.perform_of_not_fits hfits writer
        rw [hperform]
    · intro arrivals harrived
      exact readsPackets_of_eq hfit (harrived.trans hwriter)
    · intro arrivals hprefix
      exact readsPackets_of_prefix hfit (hwriter ▸ hprefix)
    · intro call hcall
      obtain ⟨hcall, hfits⟩ := hmem.1 hcall
      exact (Call.isReadFrom_iff hfits).2 (h call hcall hfits)

/-- The client takes the rest of a message behind a NUL for something else. -/
theorem not_readsBack : ¬ ∀ calls, ReadsBack calls := by
  intro h
  have hfits : (Call.chatEvent 5 "Raynor" (String.ofList ['a', nul, 'b']) 0 0).Fits := by
    decide +kernel
  have hsent : Call.chatEvent 5 "Raynor" (String.ofList ['a', nul, 'b']) 0 0
      ∈ (send [.chatEvent 5 "Raynor" (String.ofList ['a', nul, 'b']) 0 0]).calls := by
    rw [send_eq]
    exact List.mem_filter.2 ⟨List.mem_singleton_self _, decide_eq_true hfits⟩
  have hread := (h _).arguments _ hsent
  revert hread
  unfold Call.IsReadFrom
  decide +kernel

end Superiority.Gateway
