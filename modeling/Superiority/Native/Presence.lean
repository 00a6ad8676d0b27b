import Std.Data.ExtTreeMap
import Std.Data.ExtTreeSet
import Superiority.Error
import Superiority.Library.Bytes
import Superiority.Library.Map
import Superiority.Native.Model
import Superiority.Text

/-!
# The presence directory

`native/presence.rs`: what the client knows about who is online. The service names a person by
presence ids that it may later join, so the directory files the state of a person under one
*representative* id and keeps `aliases` from the other ids to it.

Two routines refile state when ids are joined: `mergeAlias`, when one update names two ids, and
`foldIdentity`, when two representatives turn out to carry the same account.

The `BTreeMap`s of the source are `ExtTreeMap`s, which iterate in key order as they do. The
lookups of game adverts, and the trace that an environment variable turns on, are not modelled
here: neither touches the maps.
-/

namespace Superiority

open Std

/-! ## Field handles -/

def fieldAvatar : UInt32 := 65555
def fieldToonProfile : UInt32 := 65556
def fieldToonHandle : UInt32 := 65561
def fieldAccountId : UInt32 := 0x00010005
def fieldSocialAccountId : UInt32 := 0x0001001b
def fieldClanTag : UInt32 := 0x50004
def fieldInGame : UInt32 := 0x50002
def fieldAway : UInt32 := 0x10020
def fieldAwayFallback : UInt32 := 0x10010
def fieldBusy : UInt32 := 0x10022
def fieldBusyFallback : UInt32 := 0x10011

/-- `TYPE_ACCOUNT_INFO`: the announced type of a field that carries an account id. -/
def typeAccountInfo : UInt8 := 21

inductive PresenceState where
  | available | away | busy | inGame | offline | unknown
  deriving DecidableEq, Repr, Inhabited

/-- `STANDING_ORDER`: the fields that say away or busy, later ones winning a tie. -/
def standingOrder : List (UInt32 × PresenceState) :=
  [(fieldBusyFallback, .busy), (fieldAwayFallback, .away), (fieldBusy, .busy), (fieldAway, .away)]

def isStanding (handle : UInt32) : Bool :=
  handle == fieldInGame || standingOrder.any fun entry => entry.1 == handle

/-- `SESSION_MARKS`: the fields whose absence ends a session that once had one. -/
def sessionMarks : List UInt32 := [0x00010003, 0x00010009]

/-! ## The directory -/

/-- The field values of one person, by handle. -/
abbrev FieldValues := ExtTreeMap UInt32 (List UInt8)

/-- `PresenceDirectory`. `values`, `online`, `localPresence`, `seen`, `standing` and `sessioned`
are filed under representative ids. -/
structure PresenceDirectory where
  fields : ExtTreeMap UInt32 PresenceField := ∅
  values : ExtTreeMap UInt32 FieldValues := ∅
  aliases : ExtTreeMap UInt32 UInt32 := ∅
  localPresence : ExtTreeMap UInt32 UInt32 := ∅
  accountPresence : ExtTreeMap UInt32 UInt32 := ∅
  profilePresence : ExtTreeMap ProfileAddress UInt32 := ∅
  toonPresence : ExtTreeMap ToonHandle UInt32 := ∅
  online : ExtTreeMap UInt32 Bool := ∅
  seen : ExtTreeMap UInt32 UInt64 := ∅
  standing : ExtTreeMap UInt32 (ExtTreeMap UInt32 UInt64) := ∅
  sessioned : ExtTreeSet UInt32 := ∅
  clock : UInt64 := 0

/-- `PresenceIdentity`: what the directory says about one person. -/
structure PresenceIdentity where
  accountId : Option UInt32 := none
  profile : Option ProfileAddress := none
  toonHandle : Option ToonHandle := none
  avatar : Option ImageTableEntry := none
  clanTag : Option String := none
  state : PresenceState := .unknown
  deriving DecidableEq, Repr

/-! ## Decoding field values -/

def decodeAccountId (value : List UInt8) : Option UInt32 := do
  let accountId := UInt32.ofNat (bigEndian (← getRange value 0 4))
  if accountId != 0 then some accountId else none

def decodeProfileAddress (value : List UInt8) : Option ProfileAddress := do
  let label := UInt32.ofNat (bigEndian (← getRange value 0 4))
  let id := UInt64.ofNat (bigEndian (← getRange value 4 12))
  return { label, id }

def decodeToonHandle (value : List UInt8) : Option ToonHandle := do
  return {
    region := ← value.head?
    programId := UInt32.ofNat (bigEndian (← getRange value 1 5))
    realm := UInt32.ofNat (bigEndian (← getRange value 5 9))
    id := UInt64.ofNat (bigEndian (← getRange value 9 17)) }

def decodeImageTableEntry (value : List UInt8) : Option ImageTableEntry := do
  return {
    tableId := UInt16.ofNat (bigEndian (← getRange value 0 2))
    offset := UInt16.ofNat (bigEndian (← getRange value 2 4)) }

def decodeStringLiteral (value : List UInt8) : Option String := do
  let pairCount := (← value[0]?).toNat
  let trailingByte := (← value[1]?).toNat
  if trailingByte > 1 then none
  let byteCount := pairCount * 2 + trailingByte
  let encoded := value.drop 2
  if encoded.length != byteCount then none
  let decoded := trim (← fromUtf8 encoded)
  if decoded.isEmpty then none else some decoded

def boolField (values : FieldValues) (handle : UInt32) : Bool :=
  match values[handle]? with
  | some value => value == [1]
  | none => false

/-- `Iterator::max_by_key`, which keeps the last of equal maxima. -/
def maxByKey {α : Type} (key : α → UInt64) (items : List α) : Option α :=
  items.foldl (fun best item =>
    match best with
    | none => some item
    | some held => if key held ≤ key item then some item else some held) none

def stateFromValues (values : FieldValues) (online : Option Bool)
    (written : ExtTreeMap UInt32 UInt64) : PresenceState :=
  if online = some false then .offline
  else if boolField values fieldInGame then .inGame
  else
    let latest := maxByKey (fun entry => written[entry.1]?.getD 0)
      (standingOrder.filter fun entry => values.contains entry.1)
    let fallback := match online with
      | some true => PresenceState.available
      | some false => .offline
      | none => .unknown
    match latest with
    | some (handle, state) => if boolField values handle then state else fallback
    | none => fallback

def accountFieldPriority (values : FieldValues) (fields : ExtTreeMap UInt32 PresenceField) :
    UInt8 :=
  if values.contains fieldSocialAccountId then 2
  else if values.contains fieldAccountId || values.keys.any fun handle =>
      match fields[handle]? with
      | some field => field.identifier == typeAccountInfo
      | none => false
    then 1 else 0

/-- The account id a set of values carries: the social field, the account field, or the first
field announced as account info that decodes. -/
def accountOfValues (values : FieldValues) (fields : ExtTreeMap UInt32 PresenceField) :
    Option UInt32 :=
  ([fieldSocialAccountId, fieldAccountId].findSome? fun handle =>
    values[handle]?.bind decodeAccountId).or
  (values.toList.findSome? fun entry =>
    match fields[entry.1]? with
    | some field => if field.identifier == typeAccountInfo then decodeAccountId entry.2 else none
    | none => none)

def identityFromValues (values : FieldValues) (fields : ExtTreeMap UInt32 PresenceField)
    (online : Option Bool) (written : ExtTreeMap UInt32 UInt64) : PresenceIdentity where
  accountId := accountOfValues values fields
  profile := values[fieldToonProfile]?.bind decodeProfileAddress
  toonHandle := values[fieldToonHandle]?.bind decodeToonHandle
  avatar := values[fieldAvatar]?.bind decodeImageTableEntry
  clanTag := values[fieldClanTag]?.bind decodeStringLiteral
  state := stateFromValues values online written

namespace PresenceDirectory

/-! ## Ids -/

def canonicalPresenceId (d : PresenceDirectory) (presenceId : UInt32) : UInt32 :=
  d.aliases[presenceId]?.getD presenceId

/-- `canonical_id`: the representative an update is filed under. The master id is asked first. -/
def canonicalId (d : PresenceDirectory) (localId masterId : UInt32) : UInt32 :=
  (([masterId, localId].filter (· != 0)).findSome? fun id => d.aliases[id]?).getD
    (if masterId != 0 then masterId else localId)

def identity (d : PresenceDirectory) (presenceId : UInt32) : PresenceIdentity :=
  let canonical := d.canonicalPresenceId presenceId
  match d.values[canonical]? with
  | none => { state := stateFromValues ∅ d.online[canonical]? ∅ }
  | some values =>
    identityFromValues values d.fields d.online[canonical]? (d.standing[canonical]?.getD ∅)

/-! ## Joining ids -/

/-- Every alias of `old` now leads to `new`. -/
def redirectAliases (aliases : ExtTreeMap UInt32 UInt32) (old new : UInt32) :
    ExtTreeMap UInt32 UInt32 :=
  aliases.map fun _ canonical => if canonical = old then new else canonical

/-- `merge_alias`. It refiles `values`, `online` and `local_presence`, and no other map. -/
def mergeAlias (d : PresenceDirectory) (id canonical : UInt32) : PresenceDirectory :=
  match d.aliases[id]? with
  | none => d
  | some previous =>
    if previous = canonical then d
    else { d with
      values := moveKey d.values previous canonical fillFrom
      online := moveKey d.online previous canonical fun kept _ => kept
      localPresence := moveKey d.localPresence previous canonical fun kept _ => kept
      aliases := redirectAliases d.aliases previous canonical }

/-- `fold_identity`, which refiles all six maps. -/
def foldIdentity (d : PresenceDirectory) (folded keep : UInt32) : PresenceDirectory :=
  { d with
    values := moveKey d.values folded keep fillFrom
    standing := moveKey d.standing folded keep fillFrom
    online := moveKey d.online folded keep fun kept _ => kept
    localPresence := moveKey d.localPresence folded keep fun kept _ => kept
    seen := moveKey d.seen folded keep max
    sessioned := moveMember d.sessioned folded keep
    aliases := (redirectAliases d.aliases folded keep).insert folded keep }

/-! ## The identity indexes -/

/-- What one scan of `values` has collected. -/
structure IndexScan where
  profilePresence : ExtTreeMap ProfileAddress UInt32 := ∅
  toonPresence : ExtTreeMap ToonHandle UInt32 := ∅
  accountCandidates : ExtTreeMap UInt32 (UInt8 × UInt32) := ∅
  owners : ExtTreeMap UInt32 UInt32 := ∅
  duplicates : List (UInt32 × UInt32) := []

/-- `self.seen.get(a) >= self.seen.get(b)`: an absent entry is below every present one. -/
def seenAtLeast (d : PresenceDirectory) (a b : UInt32) : Bool :=
  match d.seen[a]?, d.seen[b]? with
  | _, none => true
  | none, some _ => false
  | some x, some y => y ≤ x

/-- The account part of a scan step: a second owner of an account queues a fold. -/
def scanAccount (d : PresenceDirectory) (scan : IndexScan) (canonical localPresenceId : UInt32)
    (values : FieldValues) (accountId : UInt32) : IndexScan :=
  let scan := match scan.owners[accountId]? with
    | none => { scan with owners := scan.owners.insert accountId canonical }
    | some held =>
      let (keep, folded) := if d.seenAtLeast canonical held then (canonical, held)
        else (held, canonical)
      { scan with
        owners := scan.owners.insert accountId keep
        duplicates := scan.duplicates ++ [(folded, keep)] }
  let priority := accountFieldPriority values d.fields
  let candidate := scan.accountCandidates[accountId]?.getD (priority, localPresenceId)
  let candidate := if priority > candidate.1 then (priority, localPresenceId) else candidate
  { scan with accountCandidates := scan.accountCandidates.insert accountId candidate }

/-- The body of the scan over `values`. -/
def scanIdentity (d : PresenceDirectory) (scan : IndexScan) (canonical : UInt32)
    (values : FieldValues) : IndexScan :=
  match d.localPresence[canonical]? with
  | none => scan
  | some localPresenceId =>
    let identity := identityFromValues values d.fields d.online[canonical]?
      (d.standing[canonical]?.getD ∅)
    let scan := match identity.accountId with
      | none => scan
      | some accountId => d.scanAccount scan canonical localPresenceId values accountId
    let scan := match identity.profile with
      | none => scan
      | some profile =>
        { scan with profilePresence := scan.profilePresence.insert profile localPresenceId }
    match identity.toonHandle with
    | none => scan
    | some toonHandle =>
      { scan with toonPresence := scan.toonPresence.insert toonHandle localPresenceId }

def scanIdentities (d : PresenceDirectory) : IndexScan :=
  d.values.foldl (fun scan canonical values => d.scanIdentity scan canonical values) {}

/-- The loop over the queued duplicates. -/
def foldDuplicates (d : PresenceDirectory) (duplicates : List (UInt32 × UInt32)) :
    PresenceDirectory :=
  duplicates.foldl (fun d duplicate =>
    let folded := duplicate.1
    let keep := d.canonicalPresenceId duplicate.2
    if folded ≠ keep ∧ d.values.contains folded then d.foldIdentity folded keep else d) d

/-- The indexes after a scan; `account_presence` is filled last. -/
def withIndexes (d : PresenceDirectory) (scan : IndexScan) : PresenceDirectory :=
  { d with
    accountPresence := ∅
    profilePresence := scan.profilePresence
    toonPresence := scan.toonPresence }

/-- `rebuild_identity_indexes`, with the number of rounds bounded by the fuel; every round that
recurses folds an entry of `values` away, so the number of entries is fuel enough. -/
def rebuildIdentityIndexes (d : PresenceDirectory) : Nat → PresenceDirectory
  | 0 => d
  | fuel + 1 =>
    let scan := d.scanIdentities
    let d := d.withIndexes scan
    if scan.duplicates.isEmpty then
      { d with accountPresence := scan.accountCandidates.map fun _ candidate => candidate.2 }
    else (d.foldDuplicates scan.duplicates).rebuildIdentityIndexes fuel

/-! ## Announcements and updates -/

def announce (d : PresenceDirectory) (fields : PresenceFields) : PresenceDirectory :=
  { d with fields := fields.entries.foldl (fun acc field => acc.insert field.handle field) d.fields }

/-- What the loop of `apply` over the announced handles has read. -/
structure PayloadScan where
  decoded : List (UInt32 × List UInt8) := []
  offset : Nat := 0
  variableIndex : Nat := 0
  unread : Bool := false

/-- The loop of `apply` over the handles. It stops at the first handle that was not announced. -/
def readHandles (d : PresenceDirectory) (update : PresenceUpdate) :
    List UInt32 → PayloadScan → Except Error PayloadScan
  | [], scan => .ok scan
  | handle :: handles, scan =>
    match d.fields[handle]? with
    | none => .ok { scan with unread := true }
    | some field => do
      let (size, variableIndex) ← match field.fixedSize with
        | some size => Except.ok (size.toNat, scan.variableIndex)
        | none =>
          match update.variableSizes[scan.variableIndex]? with
          | some size => .ok (size.toNat, scan.variableIndex + 1)
          | none => .error (.native "presence update omits a variable field size")
      let stop := scan.offset + size
      match getRange update.fieldData scan.offset stop with
      | none => .error (.native ("presence update field data is shorter than announced: " ++
          s!"data_bytes={update.fieldData.length}, offset={scan.offset}, field_handle={handle}, " ++
          s!"field_size={size}, handles={update.handles.length}, " ++
          s!"variable_sizes={update.variableSizes.length}"))
      | some bytes => d.readHandles update handles { scan with
          decoded := scan.decoded ++ [(handle, bytes)], offset := stop, variableIndex }

/-- The checked part of `apply`: the field values the payload carries. -/
def readPayload (d : PresenceDirectory) (update : PresenceUpdate) :
    Except Error (List (UInt32 × List UInt8)) := do
  let scan ← d.readHandles update update.handles {}
  if !scan.unread && (scan.offset != update.fieldData.length ||
      scan.variableIndex != update.variableSizes.length) then
    .error (.native ("presence update field sizes do not cover the payload: " ++
      s!"data_bytes={update.fieldData.length}, consumed_bytes={scan.offset}, " ++
      s!"variable_sizes={update.variableSizes.length}, " ++
      s!"consumed_variable_sizes={scan.variableIndex}"))
  else .ok scan.decoded

/-- The aliases an update sets: each of its ids now leads to the representative. -/
def fileIds (d : PresenceDirectory) (update : PresenceUpdate) (canonical : UInt32) :
    PresenceDirectory :=
  let aliases := ([update.localPresenceId, update.masterPresenceId].filter (· != 0)).foldl
    (fun acc id => acc.insert id canonical) d.aliases
  { d with
    aliases
    localPresence := if update.localPresenceId != 0
      then d.localPresence.insert canonical update.localPresenceId else d.localPresence }

/-- The values and write stamps an update sets under its representative. -/
def fileValues (d : PresenceDirectory) (update : PresenceUpdate) (canonical : UInt32)
    (decoded : List (UInt32 × List UInt8)) : PresenceDirectory :=
  let clock := d.clock + 1
  let told := (decoded.map (·.1)).filter isStanding
  let values := update.clearedHandles.foldl (·.erase ·) (d.values[canonical]?.getD ∅)
  let values := decoded.foldl (fun acc entry => acc.insert entry.1 entry.2) values
  let standing := update.clearedHandles.foldl (·.erase ·) (d.standing[canonical]?.getD ∅)
  let standing := told.foldl (fun acc handle => acc.insert handle clock) standing
  let held := (sessionMarks.filter fun mark => values.contains mark).length
  let sessioned := if held > 0 then d.sessioned.insert canonical else d.sessioned
  let gone := held == 0 && sessioned.contains canonical
  { d with
    clock
    values := d.values.insert canonical values
    standing := d.standing.insert canonical standing
    sessioned
    online := d.online.insert canonical (update.online && !gone)
    seen := d.seen.insert canonical clock }

/-- `apply`. The payload is checked before the directory is touched. -/
def apply (d : PresenceDirectory) (update : PresenceUpdate) :
    Except Error PresenceIdentity × PresenceDirectory :=
  let canonical := d.canonicalId update.localPresenceId update.masterPresenceId
  if canonical = 0 then (.error (.native "presence update has no identity"), d)
  else
    match d.readPayload update with
    | .error e => (.error e, d)
    | .ok decoded =>
      let d := d.mergeAlias update.localPresenceId canonical
      let d := d.mergeAlias update.masterPresenceId canonical
      let d := (d.fileIds update canonical).fileValues update canonical decoded
      let d := d.rebuildIdentityIndexes d.values.size
      let canonical := d.canonicalPresenceId canonical
      (.ok (d.identity canonical), d)

/-! ## Runs -/

/-- What the session feeds a directory. -/
inductive Step where
  | announce (fields : PresenceFields)
  | apply (update : PresenceUpdate)
  deriving DecidableEq, Repr

def step (d : PresenceDirectory) : Step → PresenceDirectory
  | .announce fields => d.announce fields
  | .apply update => (d.apply update).2

end PresenceDirectory

end Superiority
