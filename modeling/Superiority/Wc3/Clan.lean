import Mathlib.Data.List.Destutter
import Mathlib.Tactic
import Superiority.Library.Run
import Superiority.Wc3.Session

/-!
# The state of Warcraft III's clan

What a session knows of the account's clan: the membership and the roster that readers see, the
revision they compare, and whether the roster is to be read again. The roster is read outside, so
callbacks, requests and answers come in any order.

**`coherent_run`** – after every run of operations: only a member has a roster, and it was read for
the clan that has been held since; the revision goes on exactly in the steps that change what
readers see; and whatever calls for a read is followed by one request, for the clan held by then, or
by none when no clan is.
-/

namespace Superiority.Wc3

open Stateful
open Scr (bytesOf firstBytes firstVarint toU32)
open Wire (Field Message itemsOf)

def receivedMyClanOnLogin : UInt32 := 0x904CD17E
def clanUpdated : UInt32 := 0xF74F2D2E
def clanMemberAdded : UInt32 := 0x3625E7F1
def clanMemberRemoved : UInt32 := 0xF7668051
def clanMemberRankChanged : UInt32 := 0xF23B93BD
def clanMemberPresenceUpdated : UInt32 := 0x5D4F0B7F
def clanBatchedMemberPresenceUpdated : UInt32 := 0x5DF123B6

def maxClanMembers : Nat := 1024

/-! ## What is kept -/

structure ClanInfo where
  id : UInt64
  tag : String
  name : String
  motd : String
  description : String
  deriving DecidableEq

inductive ClanMembership where
  | pending
  | none
  | member (info : ClanInfo)
  deriving DecidableEq

structure ClanMember where
  accountId : UInt64
  name : String
  rank : UInt32
  deriving DecidableEq

structure ClanSnapshot where
  membership : ClanMembership
  members : List ClanMember
  readError : Option String
  deriving DecidableEq

structure ClanState where
  snapshot : ClanSnapshot
  revision : UInt64
  membersRefreshPending : Bool
  deriving DecidableEq

/-! ## Bodies -/

def optionalValidatedText (value : Option (List UInt8)) (label : String) : Except Error String :=
  match value with
  | none => .ok ""
  | some value => if value = [] then .ok "" else validatedText value label

def parseMyClan (body : List UInt8) : Except Error ClanMembership := do
  if body = [] then return .none
  let info ← orClassic (firstBytes body 2)
    "non-empty ReceivedMyClanOnLogin callback has no ClanInfo"
  let clanId ← orClassic (firstBytes info 1) "GetClanResponse ClanInfo has no ClanId"
  let id ← orClassic (firstVarint clanId 2) "GetClanResponse ClanId has no numeric id"
  let tag ← optionalValidatedText (firstBytes clanId 1) "clan tag"
  let name ← optionalValidatedText (firstBytes info 2) "clan name"
  let motd ← optionalValidatedText (firstBytes info 3) "clan motd"
  let description ← optionalValidatedText (firstBytes info 4) "clan description"
  return .member ⟨id, tag, name, motd, description⟩

def parseClanMember (member : List UInt8) : Except Error ClanMember := do
  let memberId ← orClassic (firstBytes member 1) "ClanMember has no ClanMemberId"
  let accountId ← orClassic (firstVarint memberId 1) "ClanMemberId has no account id"
  let name ← orClassic (firstBytes memberId 3) "ClanMemberId has no name"
  let name ← validatedText name "clan member name"
  let rank ← match firstVarint member 2 with
    | none => pure 0
    | some rank => orClassic (toU32 rank) "ClanMember rank exceeds uint32"
  return ⟨accountId, name, rank⟩

/-- One round of the loop over the fields of a roster. -/
def readClanMember (members : List ClanMember) (item : Except Error Field) :
    Except Error (List ClanMember) := do
  let field ← item
  if field.number ≠ 2 then return members
  let member ← orClassic (bytesOf field) "GetClanMembers member is not a message"
  if members.length = maxClanMembers then
    throw (classicError "clan roster exceeds the safety limit")
  let member ← parseClanMember member
  return members ++ [member]

/-- The sorts may leave members of one key in any order, and leave them as they were. -/
def sortClanMembers (members : List ClanMember) : List ClanMember :=
  let members := members.mergeSort fun left right => decide (left.accountId ≤ right.accountId)
  let members := members.destutter fun left right => left.accountId ≠ right.accountId
  members.mergeSort fun left right =>
    (compare (left.name.toList.map Char.toLower) (right.name.toList.map Char.toLower)).isLE

/-- A roster names its clan or leaves the name out. -/
def checkClanId (body : List UInt8) (expectedId : UInt64) : Except Error Unit := do
  match firstBytes body 1 with
  | none => pure ()
  | some clanId =>
    let id ← orClassic (firstVarint clanId 2) "GetClanMembers ClanId has no numeric id"
    if id ≠ expectedId then
      throw (classicError "GetClanMembers returned a roster for a different clan")

def parseClanMembers (body : List UInt8) (expectedId : UInt64) :
    Except Error (List ClanMember) := do
  checkClanId body expectedId
  let members ← (itemsOf body).foldlM readClanMember []
  return sortClanMembers members

/-- `error.to_string()`. -/
def errorText : Error → String
  | .bsnWire message => "bsn protocol error: " ++ message
  | .metadata message => "metadata error: " ++ message
  | .authentication message => "authentication error: " ++ message
  | .native message => "native protocol error: " ++ message
  | .nativeResumeRejected errorCode wait =>
    s!"native Battle.net resume was rejected (error={errorCode} wait={wait})"
  | .unmappedNativeRoute slot command =>
    s!"unsupported native record route slot={slot} command={command}"
  | .incompleteFrame message => "incomplete frame: " ++ message
  | .server message => "server rejected the request: " ++ message
  | .transport message => "transport error: " ++ message
  | .classicWire message => "classic protocol error: " ++ message
  | .bgsWire message => "bgs protocol error: " ++ message
  | .io message | .protobufDecode message | .url message => message

/-! ## The operations -/

namespace ClanState

def default_ : ClanState := ⟨⟨.pending, [], none⟩, 0, false⟩

def bump (state : ClanState) : ClanState := { state with revision := state.revision + 1 }

/-- The snapshot that readers see from now on. -/
def withSnapshot (state : ClanState) (snapshot : ClanSnapshot) : ClanState :=
  { state with snapshot := snapshot }

def failRead (state : ClanState) (error : String) : ClanState :=
  if state.snapshot.readError ≠ some error then
    (state.withSnapshot { state.snapshot with readError := some error }).bump
  else state

def isMember : ClanMembership → Bool
  | .member _ => true
  | _ => false

def sameClan : ClanMembership → ClanMembership → Bool
  | .member current, .member next => current.id = next.id
  | _, _ => false

def applyMembership (state : ClanState) (membership : ClanMembership) : ClanState :=
  if sameClan state.snapshot.membership membership then
    -- The roster stays, and no other read of it is called for.
    if state.snapshot.membership ≠ membership then
      (state.withSnapshot { state.snapshot with membership := membership }).bump
    else state
  else
    let changed := state.snapshot.membership ≠ membership ∨ state.snapshot.members ≠ [] ∨
      state.snapshot.readError.isSome
    let refreshed := { state with
      snapshot := ⟨membership, [], none⟩
      membersRefreshPending := isMember membership }
    if changed then refreshed.bump else refreshed

def applyCallback (state : ClanState) (methodId : UInt32) (body : List UInt8) : ClanState :=
  if methodId = receivedMyClanOnLogin then
    match parseMyClan body with
    | .ok membership => state.applyMembership membership
    | .error error => state.failRead (errorText error)
  else if methodId = clanMemberAdded ∨ methodId = clanMemberRemoved ∨
      methodId = clanMemberRankChanged then
    if isMember state.snapshot.membership then { state with membersRefreshPending := true }
    else state
  else state

/-- The request for the roster of a clan. -/
def membersRequest (id : UInt64) : List UInt8 :=
  (Message.new.bytesField 1 (Message.new.varint 2 id).bytes).bytes

def refreshRequest (state : ClanState) : Option (List UInt8) × ClanState :=
  if state.membersRefreshPending then
    (match state.snapshot.membership with
      | .member info => some (membersRequest info.id)
      | _ => none,
      { state with membersRefreshPending := false })
  else (none, state)

def applyMembers (body : List UInt8) : Stateful ClanState Error Unit := do
  let state ← read
  match state.snapshot.membership with
  | .member info =>
    let members ← ofExcept (parseClanMembers body info.id)
    if members = [] then
      fail (classicError
        s!"GetClanMembers returned an empty roster for active clan {info.id}")
    else if state.snapshot.members ≠ members ∨ state.snapshot.readError.isSome then
      change fun state =>
        (state.withSnapshot { state.snapshot with members := members, readError := none }).bump
  | _ => pure ()

/-- The loop of the dispatch: what stays in the queue, and the state. -/
def dispatchFrom (deferred : List Callback) (state : ClanState) :
    List Callback → List Callback × ClanState
  | [] => (deferred, state)
  | callback :: callbacks =>
    if callback.serviceId ≠ clan then dispatchFrom (deferred ++ [callback]) state callbacks
    else dispatchFrom deferred (state.applyCallback callback.methodId callback.body) callbacks

def dispatch (state : ClanState) (callbacks : List Callback) : List Callback × ClanState :=
  dispatchFrom [] state callbacks

/-! ## One operation -/

inductive Op where
  | callback (methodId : UInt32) (body : List UInt8)
  | refreshRequest
  | members (body : List UInt8)
  | failRead (error : String)
  deriving DecidableEq

def step (state : ClanState) : Op → ClanState
  | .callback methodId body => state.applyCallback methodId body
  | .refreshRequest => state.refreshRequest.2
  | .members body => (applyMembers body state).2
  | .failRead error => state.failRead error

/-- The clan that is held. -/
def heldId (state : ClanState) : Option UInt64 :=
  match state.snapshot.membership with
  | .member info => some info.id
  | _ => none

/-- Entering a clan that is not held, and a change of the roster of the one that is, call for a read
of the roster. -/
def Asks (state : ClanState) : Op → Prop
  | .callback methodId body =>
    (methodId = receivedMyClanOnLogin ∧
      ∃ info, parseMyClan body = .ok (.member info) ∧ state.heldId ≠ some info.id) ∨
    ((methodId = clanMemberAdded ∨ methodId = clanMemberRemoved ∨
      methodId = clanMemberRankChanged) ∧ state.heldId ≠ none)
  | _ => False

variable {state : ClanState}

@[simp] theorem heldId_bump (state : ClanState) : state.bump.heldId = state.heldId := rfl

@[simp] theorem snapshot_bump (state : ClanState) : state.bump.snapshot = state.snapshot := rfl

@[simp] theorem pending_bump (state : ClanState) :
    state.bump.membersRefreshPending = state.membersRefreshPending := rfl

theorem heldId_eq_some {id : UInt64} (h : state.heldId = some id) :
    ∃ info, state.snapshot.membership = .member info ∧ info.id = id := by
  unfold heldId at h
  split at h
  · next info hinfo => exact ⟨info, hinfo, Option.some.inj h⟩
  · cases h

theorem heldId_of_member {info : ClanInfo} (h : state.snapshot.membership = .member info) :
    state.heldId = some info.id := by
  rw [heldId, h]

theorem isMember_iff : isMember state.snapshot.membership = true ↔ state.heldId ≠ none := by
  unfold isMember heldId
  cases state.snapshot.membership <;> simp

/-! ## The revision -/

/-- The revision goes on exactly when what readers see changes. -/
def Noticed (state state' : ClanState) : Prop :=
  state'.revision ≠ state.revision ↔ state'.snapshot ≠ state.snapshot

theorem noticed_same {state' : ClanState} (hrevision : state'.revision = state.revision)
    (hsnapshot : state'.snapshot = state.snapshot) : Noticed state state' := by
  simp [Noticed, hrevision, hsnapshot]

theorem noticed_bump {state' : ClanState} (hrevision : state'.revision = state.revision)
    (hsnapshot : state'.snapshot ≠ state.snapshot) : Noticed state state'.bump := by
  have hnext : state.revision + 1 ≠ state.revision := by
    intro h
    simp at h
  simp [Noticed, bump, hrevision, hsnapshot, hnext]

theorem noticed_failRead (state : ClanState) (error : String) :
    Noticed state (state.failRead error) := by
  unfold failRead
  split_ifs with hnew
  · refine noticed_bump rfl fun h => hnew ?_
    exact (congrArg ClanSnapshot.readError h).symm
  · exact noticed_same rfl rfl

theorem noticed_applyMembership (state : ClanState) (membership : ClanMembership) :
    Noticed state (state.applyMembership membership) := by
  dsimp only [applyMembership]
  split_ifs with hsame hnew hchanged
  · refine noticed_bump rfl fun h => hnew ?_
    exact (congrArg ClanSnapshot.membership h).symm
  · exact noticed_same rfl rfl
  · refine noticed_bump rfl fun h => ?_
    rw [← h] at hchanged
    simp at hchanged
  · simp only [not_or, Decidable.not_not, Bool.not_eq_true, Option.isSome_eq_false_iff,
      Option.isNone_iff_eq_none] at hchanged
    obtain ⟨hmembership, hmembers, herror⟩ := hchanged
    refine noticed_same rfl ?_
    simp [← hmembership, ← hmembers, ← herror]

theorem noticed_applyMembers (state : ClanState) (body : List UInt8) :
    Noticed state (applyMembers body state).2 := by
  unfold applyMembers
  rw [bind_apply, read_apply]
  dsimp only
  cases state.snapshot.membership with
  | member info =>
    dsimp only
    rw [bind_apply, ofExcept_apply]
    cases parseClanMembers body info.id with
    | error error => exact noticed_same rfl rfl
    | ok members =>
      dsimp only
      split_ifs with hempty hchanged
      · exact noticed_same rfl rfl
      · refine noticed_bump rfl fun h => ?_
        rw [← h] at hchanged
        simp [withSnapshot] at hchanged
      · exact noticed_same rfl rfl
  | _ => exact noticed_same rfl rfl

theorem noticed_step (state : ClanState) (op : Op) : Noticed state (state.step op) := by
  cases op with
  | callback methodId body =>
    dsimp only [step, applyCallback]
    split_ifs with hlogin hstructural hmember
    · cases parseMyClan body with
      | ok membership => exact noticed_applyMembership state membership
      | error error => exact noticed_failRead state _
    · exact noticed_same rfl rfl
    · exact noticed_same rfl rfl
    · exact noticed_same rfl rfl
  | refreshRequest =>
    dsimp only [step, refreshRequest]
    split_ifs
    · exact noticed_same rfl rfl
    · exact noticed_same rfl rfl
  | members body => exact noticed_applyMembers state body
  | failRead error => exact noticed_failRead state error

/-! ## What an operation does to the clan that is held -/

/-- An operation leaves what is held and pending, or it does one of four things. -/
inductive Effect (state : ClanState) (op : Op) (state' : ClanState) : Prop
  | kept (hheld : state'.heldId = state.heldId)
      (hmembers : state'.snapshot.members = state.snapshot.members)
      (hpending : state'.membersRefreshPending = state.membersRefreshPending)
      (hop : op ≠ .refreshRequest) (hasks : ¬ Asks state op)
  | moved (hmembers : state'.snapshot.members = [])
      (hpending : state'.membersRefreshPending = true ↔ state'.heldId ≠ none)
      (hop : op ≠ .refreshRequest) (hasks : Asks state op ↔ state'.heldId ≠ none)
  | called (hheld : state'.heldId = state.heldId) (hsome : state.heldId ≠ none)
      (hmembers : state'.snapshot.members = state.snapshot.members)
      (hpending : state'.membersRefreshPending = true) (hop : op ≠ .refreshRequest)
      (hasks : Asks state op)
  | requested (hheld : state'.heldId = state.heldId)
      (hmembers : state'.snapshot.members = state.snapshot.members)
      (hpending : state'.membersRefreshPending = false) (hop : op = .refreshRequest)
  | filled (body : List UInt8) (id : UInt64) (hop : op = .members body)
      (hheld : state.heldId = some id) (hheld' : state'.heldId = some id)
      (hread : parseClanMembers body id = .ok state'.snapshot.members)
      (hpending : state'.membersRefreshPending = state.membersRefreshPending)

theorem sameClan_iff {membership : ClanMembership} :
    sameClan state.snapshot.membership membership = true ↔
      ∃ info, membership = .member info ∧ state.heldId = some info.id := by
  unfold sameClan heldId
  cases state.snapshot.membership <;> cases membership <;> simp

/-- A login callback that is read. -/
theorem effect_applyMembership {body : List UInt8} {membership : ClanMembership}
    (hparse : parseMyClan body = .ok membership) (state : ClanState) :
    Effect state (.callback receivedMyClanOnLogin body) (state.applyMembership membership) := by
  have hasks : Asks state (.callback receivedMyClanOnLogin body) ↔
      ∃ info, membership = .member info ∧ state.heldId ≠ some info.id := by
    simp [Asks, hparse, receivedMyClanOnLogin, clanMemberAdded, clanMemberRemoved,
      clanMemberRankChanged]
  by_cases hsame : sameClan state.snapshot.membership membership = true
  · obtain ⟨info, rfl, hheld⟩ := sameClan_iff.1 hsame
    have hquiet : ¬ Asks state (.callback receivedMyClanOnLogin body) := by
      rw [hasks]
      intro h
      obtain ⟨info', hinfo, hne⟩ := h
      obtain rfl := ClanMembership.member.inj hinfo
      exact hne hheld
    rw [applyMembership, if_pos hsame]
    split_ifs
    · exact .kept hheld.symm rfl rfl Op.noConfusion hquiet
    · exact .kept rfl rfl rfl Op.noConfusion hquiet
  · dsimp only [applyMembership]
    rw [if_neg hsame]
    have hheld : ∀ revision : UInt64, ∀ pending : Bool,
        (⟨⟨membership, [], none⟩, revision, pending⟩ : ClanState).heldId ≠ none ↔
          isMember membership = true := fun revision pending => isMember_iff.symm
    have hentered : Asks state (.callback receivedMyClanOnLogin body) ↔
        isMember membership = true := by
      rw [hasks]
      cases membership with
      | member info =>
        have hne : state.heldId ≠ some info.id := fun h => hsame (sameClan_iff.2 ⟨info, rfl, h⟩)
        simp [isMember, hne]
      | _ => simp [isMember]
    split_ifs
    · exact .moved rfl (hheld _ _).symm Op.noConfusion (hentered.trans (hheld _ _).symm)
    · exact .moved rfl (hheld _ _).symm Op.noConfusion (hentered.trans (hheld _ _).symm)

theorem effect_failRead (op : Op) (hop : op ≠ .refreshRequest) (hasks : ¬ Asks state op)
    (error : String) : Effect state op (state.failRead error) := by
  unfold failRead
  split_ifs
  · exact .kept rfl rfl rfl hop hasks
  · exact .kept rfl rfl rfl hop hasks

theorem effect_applyMembers (state : ClanState) (body : List UInt8) :
    Effect state (.members body) (applyMembers body state).2 := by
  have hsame : Effect state (.members body) state := .kept rfl rfl rfl Op.noConfusion id
  unfold applyMembers
  rw [bind_apply, read_apply]
  dsimp only
  cases hmembership : state.snapshot.membership with
  | member info =>
    dsimp only
    rw [bind_apply, ofExcept_apply]
    cases hparse : parseClanMembers body info.id with
    | error error => exact hsame
    | ok members =>
      have hheld := heldId_of_member hmembership
      dsimp only
      split_ifs
      · exact hsame
      · exact .filled body info.id rfl hheld (heldId_of_member hmembership) hparse rfl
      · exact hsame
  | _ => exact hsame

/-- **What one operation does.** -/
theorem effect_step (state : ClanState) (op : Op) : Effect state op (state.step op) := by
  cases op with
  | callback methodId body =>
    dsimp only [step, applyCallback]
    split_ifs with hlogin hstructural hmember
    · subst hlogin
      cases hparse : parseMyClan body with
      | ok membership => exact effect_applyMembership hparse state
      | error error =>
        refine effect_failRead _ Op.noConfusion ?_ _
        simp [Asks, hparse, receivedMyClanOnLogin, clanMemberAdded, clanMemberRemoved,
          clanMemberRankChanged]
    · exact .called rfl (isMember_iff.1 hmember) rfl rfl Op.noConfusion
        (.inr ⟨hstructural, isMember_iff.1 hmember⟩)
    · refine .kept rfl rfl rfl Op.noConfusion fun hasks => ?_
      rcases hasks with ⟨hlogin', -⟩ | ⟨-, hheld⟩
      · exact hlogin hlogin'
      · exact hmember (isMember_iff.2 hheld)
    · refine .kept rfl rfl rfl Op.noConfusion fun hasks => ?_
      rcases hasks with ⟨hlogin', -⟩ | ⟨hstructural', -⟩
      · exact hlogin hlogin'
      · exact hstructural hstructural'
  | refreshRequest =>
    dsimp only [step, refreshRequest]
    split_ifs with hpending
    · exact .requested rfl rfl rfl rfl
    · exact .requested rfl rfl (Bool.eq_false_iff.2 hpending) rfl
  | members body => exact effect_applyMembers state body
  | failRead error => exact effect_failRead _ Op.noConfusion id error

/-! ## The request that is owed -/

/-- Without a read of the roster in between, one is pending as long as a clan is held. -/
def Owes (state : ClanState) : Prop := state.membersRefreshPending = true ↔ state.heldId ≠ none

/-- Only a member has a roster to be read. -/
structure Sound (state : ClanState) : Prop where
  alone : state.heldId = none → state.snapshot.members = []
  pending : state.membersRefreshPending = true → state.heldId ≠ none

theorem sound_default : default_.Sound := ⟨fun _ => rfl, Bool.noConfusion⟩

theorem Sound.step (h : state.Sound) (op : Op) : (state.step op).Sound := by
  cases effect_step state op with
  | kept hheld hmembers hpending hop hasks =>
    constructor
    · rw [hheld, hmembers]
      exact h.alone
    · rw [hpending, hheld]
      exact h.pending
  | moved hmembers hpending hop hasks => exact ⟨fun _ => hmembers, hpending.1⟩
  | called hheld hsome hmembers hpending hop hasks =>
    constructor
    · rw [hheld, hmembers]
      exact h.alone
    · intro _
      rwa [hheld]
  | requested hheld hmembers hpending hop =>
    constructor
    · rw [hheld, hmembers]
      exact h.alone
    · intro htrue
      rw [hpending] at htrue
      cases htrue
  | filled body id hop hheld hheld' hread hpending =>
    constructor
    · intro hnone
      rw [hheld'] at hnone
      cases hnone
    · intro _
      rw [hheld']
      exact Option.some_ne_none id

/-- What calls for a read leaves one owed. -/
theorem owes_of_asks {op : Op} (hasks : Asks state op) : (state.step op).Owes := by
  cases effect_step state op with
  | kept hheld hmembers hpending hop hquiet => exact absurd hasks hquiet
  | moved hmembers hpending hop hiff => exact hpending
  | called hheld hsome hmembers hpending hop _ =>
    rw [Owes, hpending, hheld]
    simp [hsome]
  | requested hheld hmembers hpending hop =>
    subst hop
    cases hasks
  | filled body id hop hheld hheld' hread hpending =>
    subst hop
    cases hasks

/-- And so does every operation but the request itself. -/
theorem Owes.step (h : state.Owes) {op : Op} (hop : op ≠ .refreshRequest) :
    (state.step op).Owes := by
  cases effect_step state op with
  | kept hheld hmembers hpending _ hasks =>
    rw [Owes, hpending, hheld]
    exact h
  | moved hmembers hpending _ hasks => exact hpending
  | called hheld hsome hmembers hpending _ hasks =>
    rw [Owes, hpending, hheld]
    simp [hsome]
  | requested hheld hmembers hpending hrequest => exact absurd hrequest hop
  | filled body id _ hheld hheld' hread hpending =>
    rw [Owes, hpending, hheld', ← hheld]
    exact h

theorem Owes.run (h : state.Owes) {ops : List Op} (hops : .refreshRequest ∉ ops) :
    (run ClanState.step state ops).Owes := by
  induction ops generalizing state with
  | nil => exact h
  | cons op ops ih =>
    rw [List.mem_cons, not_or] at hops
    exact ih (h.step (Ne.symm hops.1)) hops.2

/-- The request that is owed is for the clan that is held. -/
theorem refreshRequest_of_owes (h : state.Owes) :
    state.refreshRequest.1 = state.heldId.map membersRequest := by
  unfold refreshRequest
  split_ifs with hpending
  · dsimp only [heldId]
    cases state.snapshot.membership <;> rfl
  · have hnone : state.heldId = none := by
      by_contra hheld
      exact hpending (h.2 hheld)
    rw [hnone]
    rfl

/-- An operation that does not call for a read. -/
def Quiet (state : ClanState) (op : Op) : Prop := ¬ Asks state op

/-- After a request nothing is pending until something calls for a read. -/
theorem refreshRequest_of_quiet (hpending : state.membersRefreshPending = false) {ops : List Op}
    (hquiet : StepsMeet ClanState.step Quiet state ops) :
    (run ClanState.step state ops).refreshRequest.1 = none := by
  induction ops generalizing state with
  | nil => simp [refreshRequest, hpending]
  | cons op ops ih =>
    refine ih ?_ hquiet.2
    cases effect_step state op with
    | kept _ _ hsame => rw [hsame, hpending]
    | moved hmembers hiff hop hasks =>
      refine Bool.eq_false_iff.2 fun htrue => hquiet.1 (hasks.2 (hiff.1 htrue))
    | called hheld hsome hmembers htrue hop hasks => exact absurd hasks hquiet.1
    | requested _ _ hfalse => exact hfalse
    | filled _ _ _ _ _ _ hsame => rw [hsame, hpending]

theorem pending_refreshRequest (state : ClanState) :
    state.refreshRequest.2.membersRefreshPending = false := by
  unfold refreshRequest
  split_ifs with hpending
  · rfl
  · exact Bool.eq_false_iff.2 hpending

/-! ## Runs -/

/-- The roster that is held was read in the run, for the clan that has been held from then on. -/
def RosterRead (ops : List Op) : Prop :=
  (run step default_ ops).snapshot.members ≠ [] → ∃ id before body after,
    ops = before ++ .members body :: after ∧
    parseClanMembers body id = .ok (run step default_ ops).snapshot.members ∧
    ∀ k, (run step default_ (before ++ (Op.members body :: after).take k)).heldId = some id

theorem sound_run (ops : List Op) : (run step default_ ops).Sound :=
  run_invariant' (fun _ op h => h.step op) sound_default ops

/-- An operation that leaves the roster and the clan. -/
theorem RosterRead.snoc {ops : List Op} (h : RosterRead ops) {op : Op}
    (hheld : ((run step default_ ops).step op).heldId = (run step default_ ops).heldId)
    (hmembers : ((run step default_ ops).step op).snapshot.members =
      (run step default_ ops).snapshot.members) : RosterRead (ops ++ [op]) := by
  have hrun : run step default_ (ops ++ [op]) = (run step default_ ops).step op := by simp
  intro hsome
  rw [hrun, hmembers] at hsome
  obtain ⟨id, before, body, after, rfl, hread, hthrough⟩ := h hsome
  refine ⟨id, before, body, after ++ [op], by simp, by rw [hrun, hmembers, hread], fun k => ?_⟩
  by_cases hk : k ≤ (Op.members body :: after).length
  · rw [← List.cons_append, List.take_append_of_le_length hk]
    exact hthrough k
  · have hall : before ++ (Op.members body :: (after ++ [op])).take k =
        (before ++ Op.members body :: after) ++ [op] := by
      rw [List.take_of_length_le (by simp at hk ⊢; omega)]
      simp
    have hlast := hthrough (Op.members body :: after).length
    rw [List.take_length] at hlast
    rw [hall, hrun, hheld, hlast]

theorem rosterRead (ops : List Op) : RosterRead ops := by
  induction ops using List.reverseRecOn with
  | nil => exact fun h => absurd rfl h
  | append_singleton ops op ih =>
    cases effect_step (run step default_ ops) op with
    | kept hheld hmembers _ _ _ => exact ih.snoc hheld hmembers
    | moved hmembers _ _ _ =>
      intro hsome
      rw [run_append] at hsome
      exact absurd hmembers hsome
    | called hheld _ hmembers _ _ _ => exact ih.snoc hheld hmembers
    | requested hheld hmembers _ _ => exact ih.snoc hheld hmembers
    | filled body id hop hheld hheld' hread _ =>
      subst hop
      intro _
      refine ⟨id, ops, body, [], rfl, by rw [run_append]; exact hread, fun k => ?_⟩
      cases k with
      | zero =>
        rw [List.take_zero, List.append_nil]
        exact hheld
      | succ k =>
        rw [List.take_succ_cons, List.take_nil, run_append]
        exact hheld'

/-- **The clan's state is coherent** after every run of operations. What calls for a read of the
roster is followed by one request, for the clan that is held by then, or by none when no clan is
held by then. -/
theorem coherent_run (ops : List Op) :
    ((run step default_ ops).heldId = none → (run step default_ ops).snapshot.members = []) ∧
    RosterRead ops ∧
    (∀ op, Noticed (run step default_ ops) ((run step default_ ops).step op)) ∧
    ∀ op between, Asks (run step default_ ops) op → .refreshRequest ∉ between →
      let state := run step default_ (ops ++ op :: between)
      state.refreshRequest.1 = state.heldId.map membersRequest ∧
      ∀ after, StepsMeet step Quiet state.refreshRequest.2 after →
        (run step state.refreshRequest.2 after).refreshRequest.1 = none := by
  refine ⟨(sound_run ops).alone, rosterRead ops, noticed_step _, fun op between hasks hops => ?_⟩
  have howes : (run step default_ (ops ++ op :: between)).Owes := by
    rw [run_append, run_cons]
    exact (owes_of_asks hasks).run hops
  exact ⟨refreshRequest_of_owes howes, fun after hquiet =>
    refreshRequest_of_quiet (pending_refreshRequest _) hquiet⟩

/-- The login callback of a clan. -/
def loggedIn : Op := .callback receivedMyClanOnLogin [0x12, 4, 0x0A, 2, 0x10, 91]

/-- The clan is left before its roster has been requested. -/
theorem not_requested : ¬ ∀ ops op between, Asks (run step default_ ops) op →
    Op.refreshRequest ∉ between → ∃ info,
      (run step default_ (ops ++ op :: between)).snapshot.membership = .member info ∧
      (run step default_ (ops ++ op :: between)).refreshRequest.1 =
        some (membersRequest info.id) := by
  intro h
  have hasks : Asks (run step default_ []) loggedIn :=
    .inl ⟨rfl, ⟨91, "", "", "", ""⟩, by decide +kernel, by decide⟩
  obtain ⟨info, hmember, -⟩ := h [] loggedIn [.callback receivedMyClanOnLogin []] hasks (by decide)
  have hleft : (run step default_ ([] ++ loggedIn ::
      [.callback receivedMyClanOnLogin []])).snapshot.membership = .none := by
    decide +kernel
  rw [hleft] at hmember
  cases hmember

end ClanState

end Superiority.Wc3
