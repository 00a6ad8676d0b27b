import Superiority.Library.Map
import Superiority.Library.Run
import Superiority.Sc2.Model

/-!
# The people in a public channel

The service lists the conferences behind the public channels, and counts their members, in answers
that are cut into pages. The desktop adds up the pages of descriptions and replaces the counts with
each page, and it keeps what it has when the connection is made anew.

The ledger of a run keeps beside the view the answers that the present connection has brought: the
entries of the one under way and of the latest complete one.

* **`follows_of_stepsMeet`** – population and availability follow the present directory in every
  run in which a connection hears at most one directory that lists something, without repetition,
  a reconnect finds nothing of one, and the last page of the counts says what the whole answer says.
-/

namespace Superiority.Desktop

open Std
open Sc2 (ConferenceDescription ConferenceMemberCount)

/-! ## The view -/

inductive ConnectionStage where
  | disconnected
  | webAuthentication
  | gameUtilities
  | nativeAuthentication
  | chatBootstrap
  | connected
  deriving DecidableEq

/-- `enUS`. The tag of a locale is the text of its four bytes, and no other bytes give this text. -/
def joinLocale : UInt32 := 0x656E5553

structure ConnectionComponent where
  stage : ConnectionStage
  signOutRequested : Bool

structure JoinComponent where
  publicChannels : ExtTreeMap UInt16 String
  channelConferences : ExtTreeMap UInt16 (List UInt32)
  conferenceMembers : ExtTreeMap UInt32 UInt16
  directoryComplete : Bool

namespace JoinComponent

def recordConference (conferences : ExtTreeMap UInt16 (List UInt32))
    (conference : ConferenceDescription) : ExtTreeMap UInt16 (List UInt32) :=
  conferences.insert conference.channelNameId
    (conferences.getD conference.channelNameId [] ++ [conference.conferenceId])

/-- Only the rooms of the locale that is joined with. -/
def recordConferences (recorded : ExtTreeMap UInt16 (List UInt32))
    (conferences : List ConferenceDescription) : ExtTreeMap UInt16 (List UInt32) :=
  (conferences.filter (·.locale = joinLocale)).foldl recordConference recorded

def memberCounts (counts : List ConferenceMemberCount) : ExtTreeMap UInt32 UInt16 :=
  .ofList (counts.map fun count => (count.conferenceId, count.members))

def handleLiveChat (join : JoinComponent) : Sc2.ChatEvent → JoinComponent
  | .publicChannelCatalog channels =>
    if channels.isEmpty then join else
      { join with publicChannels := .ofList (channels.map fun c => (c.identifier, c.name)) }
  | .conferenceDescriptions conferences complete => { join with
      channelConferences := recordConferences join.channelConferences conferences
      directoryComplete := join.directoryComplete || complete }
  | .conferenceMemberCounts counts _ => { join with conferenceMembers := memberCounts counts }
  | _ => join

def channelPopulation (join : JoinComponent) (nameId : UInt16) : Option Nat :=
  join.channelConferences[nameId]?.map fun conferences =>
    ((conferences.filterMap fun conference => join.conferenceMembers[conference]?).map
      UInt16.toNat).sum

end JoinComponent

def offersChannel (directoryComplete : Bool) (conferences : ExtTreeMap UInt16 (List UInt32)) :
    ChatChannel → Bool
  | .public_ nameId => !directoryComplete || conferences.contains nameId
  | _ => true

structure JoinView where
  connection : ConnectionComponent
  join : JoinComponent

namespace JoinView

inductive Input where
  | beginAttempt
  | signOut
  | stage (stage : ConnectionStage)
  | chat (event : Sc2.ChatEvent)

def handleStage (view : JoinView) (stage : ConnectionStage) : JoinView :=
  if view.connection.signOutRequested ∧ stage ≠ .disconnected then view else
    match stage with
    | .webAuthentication => {
        connection := ⟨stage, false⟩
        join := { view.join with publicChannels := ∅ } }
    | _ => { view with connection := { view.connection with stage := stage } }

def handle (view : JoinView) : Input → JoinView
  | .beginAttempt => { view with connection := { view.connection with signOutRequested := false } }
  | .signOut => { view with connection := ⟨.disconnected, true⟩ }
  | .stage stage => view.handleStage stage
  | .chat event => { view with join := view.join.handleLiveChat event }

def initial : JoinView where
  connection := ⟨.disconnected, false⟩
  join := ⟨∅, ∅, ∅, false⟩

/-- The rows of the public channels among those that may be joined. -/
def publicRows (view : JoinView) (joined : List ChatChannel) :
    List (UInt16 × String × Option Nat) :=
  (view.join.publicChannels.toList.filter fun channel =>
    .public_ channel.1 ∉ joined ∧ offersChannel view.join.directoryComplete
      view.join.channelConferences (.public_ channel.1)).map fun channel =>
    (channel.1, channel.2, view.join.channelPopulation channel.1)

end JoinView

/-! ## Answers -/

/-- What a connection has brought of an answer that comes in pages and may come again. -/
structure Answer (α : Type) where
  underWay : Option (List α)
  latest : Option (List α)

namespace Answer

variable {α : Type}

/-- The connection has brought nothing. -/
def unheard : Answer α := ⟨none, none⟩

/-- The entries of the answer under way, with those of its next page. -/
def continued (answer : Answer α) (entries : List α) : List α :=
  answer.underWay.getD [] ++ entries

def page (answer : Answer α) (entries : List α) (complete : Bool) : Answer α :=
  if complete then ⟨none, some (answer.continued entries)⟩
  else ⟨some (answer.continued entries), answer.latest⟩

/-- The latest answer, when it has arrived complete. -/
def arrived (answer : Answer α) : Option (List α) :=
  if answer.underWay.isSome then none else answer.latest

/-- All entries that the connection has brought since an answer was last completed, and that
answer's. -/
def heard (answer : Answer α) : List α := answer.latest.getD [] ++ answer.underWay.getD []

end Answer

/-- The conferences of the join locale that a directory lists for a channel. -/
def conferencesOf (directory : List ConferenceDescription) (nameId : UInt16) : List UInt32 :=
  (directory.filter fun conference =>
    conference.locale = joinLocale ∧ conference.channelNameId = nameId).map (·.conferenceId)

/-- How many members an answer counts in a conference. -/
def latestCount (counts : List ConferenceMemberCount) (conference : UInt32) : Nat :=
  ((JoinComponent.memberCounts counts)[conference]?.map UInt16.toNat).getD 0

structure PopulationLedger where
  view : JoinView
  directory : Answer ConferenceDescription
  counts : Answer ConferenceMemberCount

namespace PopulationLedger

def initial : PopulationLedger := ⟨.initial, .unheard, .unheard⟩

def directoryAfter (ledger : PopulationLedger) : JoinView.Input → Answer ConferenceDescription
  | .stage .webAuthentication => .unheard
  | .chat (.conferenceDescriptions conferences complete) =>
    ledger.directory.page conferences complete
  | _ => ledger.directory

def countsAfter (ledger : PopulationLedger) : JoinView.Input → Answer ConferenceMemberCount
  | .stage .webAuthentication => .unheard
  | .chat (.conferenceMemberCounts counts complete) => ledger.counts.page counts complete
  | _ => ledger.counts

def step (ledger : PopulationLedger) (input : JoinView.Input) : PopulationLedger where
  view := ledger.view.handle input
  directory := ledger.directoryAfter input
  counts := ledger.countsAfter input

def offers (ledger : PopulationLedger) (nameId : UInt16) : Bool :=
  offersChannel ledger.view.join.directoryComplete ledger.view.join.channelConferences
    (.public_ nameId)

/-- Population and availability are those of the present directory and the present counts. -/
structure Follows (ledger : PopulationLedger) : Prop where
  keeps : ledger.directory.latest = none → ∀ nameId, ledger.offers nameId = true
  drops : ∀ directory counts, ledger.directory.arrived = some directory →
    ledger.counts.arrived = some counts →
    ∀ nameId, ledger.offers nameId = false ↔ conferencesOf directory nameId = []
  counts : ∀ directory counts, ledger.directory.arrived = some directory →
    ledger.counts.arrived = some counts → ∀ nameId,
    (ledger.view.join.channelPopulation nameId).getD 0 =
      ((conferencesOf directory nameId).dedup.map (latestCount counts)).sum

/-- The conferences of the join locale, with their channels. -/
def rooms (directory : List ConferenceDescription) : List (UInt16 × UInt32) :=
  (directory.filter (·.locale = joinLocale)).map fun conference =>
    (conference.channelNameId, conference.conferenceId)

/-- The input leaves the directory that is heard the only one, with each room in it once, and the
counts as the answer has them. -/
def Unmixed (ledger : PopulationLedger) : JoinView.Input → Prop
  | .stage .webAuthentication =>
    ledger.directory.latest = none ∧ rooms ledger.directory.heard = []
  | .chat (.conferenceDescriptions conferences true) =>
    rooms (ledger.directory.latest.getD []) = [] ∧
      (rooms (ledger.directory.continued conferences)).Nodup
  | .chat (.conferenceMemberCounts counts true) =>
    ∀ count ∈ ledger.counts.continued counts,
      latestCount (ledger.counts.continued counts) count.conferenceId =
        latestCount counts count.conferenceId
  | _ => True

/-! ## What is recorded -/

@[simp] theorem rooms_append (directory more : List ConferenceDescription) :
    rooms (directory ++ more) = rooms directory ++ rooms more := by
  simp [rooms]

end PopulationLedger

open PopulationLedger

theorem conferencesOf_eq (directory : List ConferenceDescription) (nameId : UInt16) :
    conferencesOf directory nameId =
      ((rooms directory).filter (·.1 = nameId)).map (·.2) := by
  simp only [conferencesOf, rooms, List.filter_map, List.map_map, List.filter_filter]
  congr 2
  funext conference
  simp [Bool.and_comm]

theorem conferencesOf_append (directory more : List ConferenceDescription) (nameId : UInt16) :
    conferencesOf (directory ++ more) nameId =
      conferencesOf directory nameId ++ conferencesOf more nameId := by
  simp [conferencesOf]

theorem conferencesOf_of_rooms_eq_nil {directory : List ConferenceDescription}
    (h : rooms directory = []) (nameId : UInt16) : conferencesOf directory nameId = [] := by
  simp [conferencesOf_eq, h]

theorem nodup_conferencesOf {directory : List ConferenceDescription}
    (h : (rooms directory).Nodup) (nameId : UInt16) : (conferencesOf directory nameId).Nodup := by
  rw [conferencesOf_eq]
  refine (h.filter _).map_on fun a ha b hb hab => ?_
  have ha' : a.1 = nameId := by simpa using (List.mem_filter.1 ha).2
  have hb' : b.1 = nameId := by simpa using (List.mem_filter.1 hb).2
  exact Prod.ext (ha'.trans hb'.symm) hab

/-- The conferences that were filed for a channel follow those that it had. -/
def filed (had : Option (List UInt32)) (more : List UInt32) : Option (List UInt32) :=
  if more = [] then had else some (had.getD [] ++ more)

theorem filed_filed (had : Option (List UInt32)) (some_ more : List UInt32) :
    filed (filed had some_) more = filed had (some_ ++ more) := by
  by_cases hsome : some_ = [] <;> by_cases hmore : more = [] <;> simp [filed, hsome, hmore]

theorem filed_filed_none (had more : List UInt32) :
    filed (filed none had) more = filed none (had ++ more) :=
  filed_filed none had more

namespace JoinComponent

theorem getElem?_recordConference (recorded : ExtTreeMap UInt16 (List UInt32))
    (conference : ConferenceDescription) (nameId : UInt16) :
    (recordConference recorded conference)[nameId]? =
      filed recorded[nameId]?
        (if conference.channelNameId = nameId then [conference.conferenceId] else []) := by
  unfold recordConference
  by_cases h : conference.channelNameId = nameId
  · rw [← h, ExtTreeMap.getElem?_insert_self, ExtTreeMap.getD_eq_getD_getElem?]
    simp [filed]
  · rw [getElem?_insert_of_ne h]
    simp [filed, h]

theorem getElem?_recordConferences (recorded : ExtTreeMap UInt16 (List UInt32))
    (conferences : List ConferenceDescription) (nameId : UInt16) :
    (recordConferences recorded conferences)[nameId]? =
      filed recorded[nameId]? (conferencesOf conferences nameId) := by
  unfold recordConferences
  induction conferences generalizing recorded with
  | nil => rfl
  | cons conference conferences ih =>
    rw [show conference :: conferences = [conference] ++ conferences from rfl,
      conferencesOf_append, ← filed_filed]
    by_cases hlocale : conference.locale = joinLocale
    · have hone : conferencesOf [conference] nameId =
          if conference.channelNameId = nameId then [conference.conferenceId] else [] := by
        by_cases h : conference.channelNameId = nameId <;> simp [conferencesOf, hlocale, h]
      rw [hone, ← getElem?_recordConference, ← ih]
      simp [hlocale]
    · have hone : conferencesOf [conference] nameId = [] := by simp [conferencesOf, hlocale]
      rw [hone, show filed recorded[nameId]? [] = recorded[nameId]? from rfl, ← ih]
      simp [hlocale]

end JoinComponent

namespace PopulationLedger

/-! ## What the view keeps of the answers -/

structure Tracks (ledger : PopulationLedger) : Prop where
  recorded : ∀ nameId, ledger.view.join.channelConferences[nameId]? =
    filed none (conferencesOf ledger.directory.heard nameId)
  complete : ledger.view.join.directoryComplete = ledger.directory.latest.isSome
  distinct : (rooms (ledger.directory.latest.getD [])).Nodup
  members : ∀ counts, ledger.counts.arrived = some counts → ∀ conference,
    (ledger.view.join.conferenceMembers[conference]?.map UInt16.toNat).getD 0 =
      latestCount counts conference

theorem tracks_initial : Tracks initial where
  recorded nameId := by simp [initial, JoinView.initial, Answer.unheard, Answer.heard,
    conferencesOf, filed]
  complete := rfl
  distinct := List.nodup_nil
  members counts h := by simp [initial, Answer.unheard, Answer.arrived] at h

/-- The same of what is kept of the answers. -/
structure SameAnswers (join join' : JoinComponent) : Prop where
  conferences : join'.channelConferences = join.channelConferences
  members : join'.conferenceMembers = join.conferenceMembers
  complete : join'.directoryComplete = join.directoryComplete

theorem sameAnswers_handleStage (view : JoinView) (stage : ConnectionStage) :
    SameAnswers view.join (view.handleStage stage).join := by
  unfold JoinView.handleStage
  split
  · exact ⟨rfl, rfl, rfl⟩
  · split <;> exact ⟨rfl, rfl, rfl⟩

theorem sameAnswers_catalog (join : JoinComponent) (channels : List PublicChannel) :
    SameAnswers join (join.handleLiveChat (.publicChannelCatalog channels)) := by
  dsimp only [JoinComponent.handleLiveChat]
  split <;> exact ⟨rfl, rfl, rfl⟩

theorem Tracks.of_same {ledger ledger' : PopulationLedger} (h : ledger.Tracks)
    (hjoin : SameAnswers ledger.view.join ledger'.view.join)
    (hdirectory : ledger'.directory = ledger.directory)
    (hcounts : ledger'.counts = ledger.counts) : ledger'.Tracks where
  recorded := by simpa only [hjoin.conferences, hdirectory] using h.recorded
  complete := by simpa only [hjoin.complete, hdirectory] using h.complete
  distinct := by simpa only [hdirectory] using h.distinct
  members := by simpa only [hjoin.members, hcounts] using h.members

/-- The members of a conference that earlier pages counted are counted on the last one too. -/
theorem latestCount_continued {answer : Answer ConferenceMemberCount}
    {counts : List ConferenceMemberCount}
    (h : ∀ count ∈ answer.continued counts,
      latestCount (answer.continued counts) count.conferenceId =
        latestCount counts count.conferenceId) (conference : UInt32) :
    latestCount (answer.continued counts) conference = latestCount counts conference := by
  by_cases hmem : ∃ count ∈ answer.continued counts, count.conferenceId = conference
  · obtain ⟨count, hcount, rfl⟩ := hmem
    exact h count hcount
  · have hnone (some_ : List ConferenceMemberCount) (hsub : some_ ⊆ answer.continued counts) :
        latestCount some_ conference = 0 := by
      unfold latestCount
      cases hget : (JoinComponent.memberCounts some_)[conference]? with
      | none => rfl
      | some members =>
        obtain ⟨count, hcount, heq⟩ := List.mem_map.1 (mem_of_getElem?_ofList hget)
        exact absurd ⟨count, hsub hcount, congrArg Prod.fst heq⟩ hmem
    rw [hnone _ (List.Subset.refl _), hnone counts (List.subset_append_right _ _)]

theorem tracks_stage {ledger : PopulationLedger} (h : ledger.Tracks) {stage : ConnectionStage}
    (hunmixed : ledger.Unmixed (.stage stage)) : (ledger.step (.stage stage)).Tracks := by
  have hsame := sameAnswers_handleStage ledger.view stage
  by_cases hstage : stage = .webAuthentication
  · subst hstage
    obtain ⟨hlatest, hheard⟩ := hunmixed
    constructor
    · intro nameId
      exact ((congrArg (·[nameId]?) hsame.conferences).trans (h.recorded nameId)).trans
        (congrArg (filed none) (conferencesOf_of_rooms_eq_nil hheard nameId))
    · exact (hsame.complete.trans h.complete).trans (congrArg Option.isSome hlatest)
    · exact List.nodup_nil
    · intro counts harrived
      simp [step, countsAfter, Answer.unheard, Answer.arrived] at harrived
  · refine h.of_same hsame ?_ ?_
    · cases stage <;> first | rfl | exact absurd rfl hstage
    · cases stage <;> first | rfl | exact absurd rfl hstage

theorem tracks_descriptions {ledger : PopulationLedger} (h : ledger.Tracks)
    {conferences : List ConferenceDescription} {complete : Bool}
    (hunmixed : ledger.Unmixed (.chat (.conferenceDescriptions conferences complete))) :
    (ledger.step (.chat (.conferenceDescriptions conferences complete))).Tracks := by
  have hrecorded (nameId : UInt16) :
      (JoinComponent.recordConferences ledger.view.join.channelConferences conferences)[nameId]? =
        filed none (conferencesOf (ledger.directory.heard ++ conferences) nameId) := by
    rw [JoinComponent.getElem?_recordConferences, h.recorded, filed_filed, conferencesOf_append]
  cases complete with
  | false =>
    refine ⟨fun nameId => ?_, ?_, h.distinct, h.members⟩
    · rw [show (ledger.step (.chat (.conferenceDescriptions conferences false))).directory.heard =
        ledger.directory.heard ++ conferences from (List.append_assoc _ _ _).symm]
      exact hrecorded nameId
    · exact (Bool.or_false _).trans h.complete
  | true =>
    obtain ⟨hlatest, hnodup⟩ := hunmixed
    refine ⟨fun nameId => ?_, Bool.or_true _, hnodup, h.members⟩
    have hheard : conferencesOf (ledger.directory.heard ++ conferences) nameId =
        conferencesOf (ledger.directory.continued conferences ++ []) nameId := by
      have hnone := conferencesOf_of_rooms_eq_nil hlatest nameId
      simp only [Answer.heard, Answer.continued, List.append_assoc, List.append_nil]
      rw [conferencesOf_append, hnone, List.nil_append]
    exact (hrecorded nameId).trans (congrArg (filed none) hheard)

theorem tracks_counts {ledger : PopulationLedger} (h : ledger.Tracks)
    {counts : List ConferenceMemberCount} {complete : Bool}
    (hunmixed : ledger.Unmixed (.chat (.conferenceMemberCounts counts complete))) :
    (ledger.step (.chat (.conferenceMemberCounts counts complete))).Tracks := by
  refine ⟨h.recorded, h.complete, h.distinct, fun answer harrived conference => ?_⟩
  cases complete with
  | false => simp [step, countsAfter, Answer.page, Answer.arrived] at harrived
  | true =>
    obtain rfl : ledger.counts.continued counts = answer := by
      simpa [step, countsAfter, Answer.page, Answer.arrived] using harrived
    exact (latestCount_continued hunmixed conference).symm

theorem tracks_step {ledger : PopulationLedger} (h : ledger.Tracks) {input : JoinView.Input}
    (hunmixed : ledger.Unmixed input) : (ledger.step input).Tracks := by
  cases input with
  | beginAttempt => exact ⟨h.recorded, h.complete, h.distinct, h.members⟩
  | signOut => exact ⟨h.recorded, h.complete, h.distinct, h.members⟩
  | stage stage => exact tracks_stage h hunmixed
  | chat event =>
    cases event with
    | conferenceDescriptions conferences complete => exact tracks_descriptions h hunmixed
    | conferenceMemberCounts counts complete => exact tracks_counts h hunmixed
    | publicChannelCatalog channels =>
      exact h.of_same (sameAnswers_catalog ledger.view.join channels) rfl rfl
    | _ => exact ⟨h.recorded, h.complete, h.distinct, h.members⟩

/-! ## Population and availability -/

theorem offers_eq_false {ledger : PopulationLedger} (h : ledger.Tracks) (nameId : UInt16) :
    ledger.offers nameId = false ↔
      ledger.directory.latest.isSome ∧ conferencesOf ledger.directory.heard nameId = [] := by
  have hcontains : ledger.view.join.channelConferences.contains nameId =
      !(conferencesOf ledger.directory.heard nameId).isEmpty := by
    rw [ExtTreeMap.contains_eq_isSome_getElem?, h.recorded]
    cases conferencesOf ledger.directory.heard nameId <;> simp [filed]
  simp [offers, offersChannel, h.complete, hcontains]

theorem channelPopulation_eq {ledger : PopulationLedger} (h : ledger.Tracks)
    {counts : List ConferenceMemberCount} (harrived : ledger.counts.arrived = some counts)
    (nameId : UInt16) : (ledger.view.join.channelPopulation nameId).getD 0 =
      ((conferencesOf ledger.directory.heard nameId).map (latestCount counts)).sum := by
  have hsum (conferences : List UInt32) :
      ((conferences.filterMap fun conference =>
        ledger.view.join.conferenceMembers[conference]?).map UInt16.toNat).sum =
      (conferences.map (latestCount counts)).sum := by
    induction conferences with
    | nil => rfl
    | cons conference conferences ih =>
      rw [List.map_cons, List.sum_cons, ← ih, ← h.members counts harrived conference]
      cases hget : ledger.view.join.conferenceMembers[conference]? with
      | none => simp [hget]
      | some members => simp [hget]
  unfold JoinComponent.channelPopulation
  rw [h.recorded]
  by_cases hnil : conferencesOf ledger.directory.heard nameId = []
  · simp [filed, hnil]
  · simp only [filed, hnil, if_false, Option.map_some, Option.getD_some, Option.getD_none,
      List.nil_append]
    exact hsum _

theorem heard_of_arrived {α : Type} {answer : Answer α} {entries : List α}
    (h : answer.arrived = some entries) : answer.latest = some entries ∧
      answer.heard = entries := by
  obtain ⟨underWay, latest⟩ := answer
  cases underWay with
  | some _ => simp [Answer.arrived] at h
  | none =>
    obtain rfl : latest = some entries := h
    exact ⟨rfl, List.append_nil _⟩

theorem Tracks.follows {ledger : PopulationLedger} (h : ledger.Tracks) : ledger.Follows where
  keeps hlatest nameId := by
    rw [← Bool.not_eq_false, offers_eq_false h, hlatest]
    simp
  drops directory counts hdirectory _ nameId := by
    obtain ⟨hlatest, hheard⟩ := heard_of_arrived hdirectory
    rw [offers_eq_false h, hlatest, hheard]
    simp
  counts directory counts hdirectory hcounts nameId := by
    obtain ⟨hlatest, hheard⟩ := heard_of_arrived hdirectory
    have hnodup : (conferencesOf directory nameId).Nodup :=
      nodup_conferencesOf (by simpa [hlatest] using h.distinct) nameId
    rw [channelPopulation_eq h hcounts, hheard, hnodup.dedup]

/-- The rows of the public channels are then those of the channels with a room in the directory. -/
theorem Follows.mem_publicRows {ledger : PopulationLedger} (h : ledger.Follows)
    {directory : List ConferenceDescription} {counts : List ConferenceMemberCount}
    (hdirectory : ledger.directory.arrived = some directory)
    (hcounts : ledger.counts.arrived = some counts) {joined : List ChatChannel}
    {nameId : UInt16} {name : String} {count : Option Nat} :
    (nameId, name, count) ∈ ledger.view.publicRows joined ↔
      ledger.view.join.publicChannels[nameId]? = some name ∧ .public_ nameId ∉ joined ∧
        conferencesOf directory nameId ≠ [] ∧
        ledger.view.join.channelPopulation nameId = count := by
  have hoffers : ledger.offers nameId = true ↔ conferencesOf directory nameId ≠ [] := by
    rw [← Bool.not_eq_false, h.drops directory counts hdirectory hcounts]
  rw [← hoffers, ← ExtTreeMap.mem_toList_iff_getElem?_eq_some]
  simp only [JoinView.publicRows, List.mem_map, List.mem_filter, decide_eq_true_eq,
    Prod.mk.injEq, Prod.exists]
  constructor
  · intro hrow
    obtain ⟨_, _, ⟨hmem, hjoined, hoffered⟩, rfl, rfl, rfl⟩ := hrow
    exact ⟨hmem, hjoined, hoffered, rfl⟩
  · intro hrow
    obtain ⟨hmem, hjoined, hoffered, rfl⟩ := hrow
    exact ⟨nameId, name, ⟨hmem, hjoined, hoffered⟩, rfl, rfl, rfl⟩

/-- In every run that mixes no answers population and availability follow the directory. -/
theorem follows_of_stepsMeet {inputs : List JoinView.Input}
    (h : StepsMeet step Unmixed initial inputs) : StatesMeet step Follows initial inputs :=
  statesMeet_of_stepsMeet (C := Unmixed) (I := Tracks) (fun _ hledger => hledger.follows)
    (fun _ _ hledger hunmixed => tracks_step hledger hunmixed) tracks_initial h

/-- Counts that come in one page are unmixed. -/
theorem unmixed_counts {ledger : PopulationLedger} (h : ledger.counts.underWay = none)
    (counts : List ConferenceMemberCount) :
    ledger.Unmixed (.chat (.conferenceMemberCounts counts true)) := by
  have hone : ledger.counts.continued counts = counts := by simp [Answer.continued, h]
  intro count _
  rw [hone]

/-- The room 7 of the channel 1, in the locale that is joined with. -/
def general : ConferenceDescription := ⟨7, joinLocale, 1, 1, 0, 200, 0⟩

/-- A directory in two pages, then the counts twice. -/
def answeredOnce : List JoinView.Input :=
  [.stage .webAuthentication, .chat (.conferenceDescriptions [general] false),
    .chat (.conferenceDescriptions [{ general with conferenceId := 8, shard := 2 }] true),
    .chat (.conferenceMemberCounts [⟨7, 10, false⟩] true),
    .chat (.conferenceMemberCounts [⟨7, 12, false⟩, ⟨8, 3, false⟩] true)]

theorem follows_answeredOnce : StatesMeet step Follows initial answeredOnce := by
  refine follows_of_stepsMeet ⟨⟨rfl, rfl⟩, trivial, ⟨rfl, ?_⟩, ?_, ?_, trivial⟩
  · decide +kernel
  · exact unmixed_counts rfl _
  · exact unmixed_counts rfl _

/-- The directory comes a second time, and the room's ten members are counted twice. -/
theorem not_follows :
    ¬ ∀ inputs : List JoinView.Input, StatesMeet step Follows initial inputs := by
  intro h
  have hlast := (h [.stage .webAuthentication, .chat (.conferenceDescriptions [general] true),
    .chat (.conferenceDescriptions [general] true),
    .chat (.conferenceMemberCounts [⟨7, 10, false⟩] true)]).last
  have hcounted := hlast.counts [general] [⟨7, 10, false⟩] rfl rfl 1
  revert hcounted
  decide +kernel

end PopulationLedger

end Superiority.Desktop
