import Superiority.Bsn.Layout

/-!
# The registered layouts

The tables of `native/wire_layout.rs` and `register`, which installs them in a codec.

**`registerLayout_ok_iff`** – when one registration succeeds and what it does; **`registerAll_ok`** –
on a schema that has every type once, marked and shaped as its layout needs it, all of them do.
-/

namespace Superiority.Native.WireLayout

open Bsn

/-! ## The tables -/

/-- `WireField::new` for each pair. -/
def wireFields (fields : List (Nat × Nat)) : List WireField :=
  fields.map fun field => ⟨field.1, field.2⟩

def identity0 : List WireField := wireFields []
def identity1 : List WireField := wireFields [(0, 0)]
def conferenceDescriptions : List WireField := wireFields [(1, 0), (0, 0)]
def fullConferenceDescription : List WireField :=
  wireFields [(4, 0), (3, 0), (1, 0), (0, 0), (2, 0)]
def conferenceConfiguration : List WireField :=
  wireFields [(0, 8), (1, 0), (4, 0), (2, 0), (3, 0)]
def shardName : List WireField := wireFields [(1, 0), (0, 29)]
def identity2 : List WireField := wireFields [(0, 0), (1, 0)]
def identity3 : List WireField := wireFields [(0, 0), (1, 0), (2, 0)]
def identity4 : List WireField := wireFields [(0, 0), (1, 0), (2, 0), (3, 0)]
def friendInvitationAdded : List WireField := wireFields [(1, 0), (0, 0)]
def friendInvitation : List WireField :=
  wireFields [(3, 0), (4, 0), (6, 14), (1, 0), (5, 0), (7, 0), (0, 0), (2, 0)]
def toonHandle : List WireField := wireFields [(1, 0), (0, 0), (2, 0), (3, 0)]
def clubInviteAction : List WireField := wireFields [(2, 0), (1, 0), (0, 0), (3, 11)]
def modifyChannelList : List WireField := wireFields [(0, 0), (3, 0), (2, 4), (1, 0)]
def achievementCriteriaUpdate : List WireField :=
  wireFields [(1, 0), (3, 0), (0, 0), (4, 0), (2, 0)]
def achievementPersistentRecord : List WireField := wireFields [(2, 0), (0, 0), (1, 0)]
def chatCategoryDescriptions : List WireField := wireFields [(1, 0), (0, 0)]
def chatCreateAndInvite : List WireField := wireFields [(0, 0), (3, 0), (1, 0), (2, 0)]
def partyModifyNonLobbyAttributeList : List WireField := wireFields [(0, 20)]
def matchmakerFilter : List WireField := wireFields [(1, 0), (0, 17), (2, 0)]
def clubName : List WireField := wireFields [(0, 16)]
def clubSubscriptionSyncInfo : List WireField := wireFields [(2, 11), (0, 0), (1, 0)]
def clubChangeInfo : List WireField := wireFields [(0, 6), (3, 0), (1, 0), (2, 0)]
def billingInfo : List WireField := wireFields [(2, 0), (1, 19), (0, 28), (3, 0)]
def connectionClosing : List WireField := wireFields [(4, 0), (0, 0), (3, 0), (1, 0), (2, 0)]
def packetInfo : List WireField := wireFields [(1, 0), (0, 0), (4, 0), (2, 0), (3, 0)]
def battlepayGetInfoResponse : List WireField :=
  wireFields [(3, 0), (2, 0), (6, 0), (5, 0), (4, 0), (1, 0), (7, 0), (0, 0)]

def verifiedReflected : List String := [
  "Battlenet::Client::Achievement::ListenRequest",
  "Battlenet::Client::Chat::StatusChangeRequest",
  "Battlenet::Client::Chat::DatagramConnectionUpdate",
  "Battlenet::Client::Chat::WhisperRecv",
  "Battlenet::Client::Chat::WhisperEchoRecv",
  "Battlenet::Client::Connection::ServerVersion",
  "Battlenet::Client::Connection::RegulatorUpdate",
  "Battlenet::Client::Party::BeginReadyProcess",
  "Battlenet::Client::Party::ModifyMapOptions",
  "Battlenet::Client::Party::MapOptionsChange",
  "Battlenet::Client::Party::ReadyProcessUpdate",
  "Battlenet::Client::Presence::StatisticsUpdate",
  "Battlenet::Client::Presence::TemporaryPresenceResponse",
  "Battlenet::Client::Profile::SendStatsUIEvent",
  "Battlenet::Client::S2Master::MMQGetInfoRequest",
  "Battlenet::Client::S2Master::MMQGetListResponse",
  "Battlenet::Client::Toon::InitialNotifiesComplete"]

def candidateReflected : List String := [
  "Battlenet::Client::Toon::CaisTimeUpdate",
  "Battlenet::Client::S2Master::MMQAnnounce",
  "Battlenet::MatchMaker::Announce",
  "Battlenet::MatchMaker::StaticInfo",
  "Battlenet::MatchMaker::HistogramSet",
  "Battlenet::MatchMaker::PerGameQueueInfo"]

/-- The layouts `register` installs itself. -/
def registerOwn : List (String × RegisteredWireLayout) := [
  ("Battlenet::Client::Friends::FriendInvitationAddedNotify",
    .struct ⟨"generated Friends::FriendInvitationAddedNotify", friendInvitationAdded⟩),
  ("Battlenet::Friends::FriendInvitation",
    .struct ⟨"generated Friends::FriendInvitation", friendInvitation⟩),
  ("Battlenet::Client::Club::ClubChangeNotification",
    .candidateStruct ⟨"captured Club::ClubChangeNotification", identity1⟩),
  ("Battlenet::Club::ClubChangeInfo",
    .candidateStruct ⟨"captured Club::ClubChangeInfo", clubChangeInfo⟩),
  ("Battlenet::Club::ClubSummaryInfo", .custom .clubSummaryInfo),
  ("Battlenet::Club::ClubUserText", .custom .clubUserText),
  ("Battlenet::Client::Club::ClubSubscribeRequest",
    .struct ⟨"generated Club::ClubSubscribeRequest", identity1⟩),
  ("Battlenet::Club::SubscriptionSyncInfo",
    .struct ⟨"generated Club::SubscriptionSyncInfo", clubSubscriptionSyncInfo⟩),
  ("Battlenet::Client::Chat::CreateAndInviteRequest",
    .candidateStruct ⟨"captured Chat::CreateAndInviteRequest", chatCreateAndInvite⟩),
  ("Battlenet::Client::Party::ModifyNonLobbyAttributeList",
    .candidateStruct
      ⟨"captured Party::ModifyNonLobbyAttributeList", partyModifyNonLobbyAttributeList⟩),
  ("Battlenet::Client::Profile::ResolveToonHandleToNameRequest",
    .candidateStruct ⟨"captured Profile::ResolveToonHandleToNameRequest", identity2⟩),
  ("Battlenet::Client::Profile::ResolveToonHandleToName",
    .struct ⟨"empty Profile::ResolveToonHandleToName", identity0⟩),
  ("Battlenet::Client::Connection::LogoutRequest",
    .struct ⟨"empty Connection::LogoutRequest", identity0⟩),
  ("Battlenet::Client::BattlePay::GetWallets", .struct ⟨"empty BattlePay::GetWallets", identity0⟩),
  ("Battlenet::Client::BattlePay::GetWalletsResponse",
    .struct ⟨"generated BattlePay::GetWalletsResponse", identity2⟩),
  ("Battlenet::Client::BattlePay::GetInfo", .struct ⟨"empty BattlePay::GetInfo", identity0⟩),
  ("Battlenet::Client::BattlePay::GetInfoResponse",
    .struct ⟨"generated BattlePay::GetInfoResponse", battlepayGetInfoResponse⟩),
  ("Battlenet::Client::Connection::ConnectionClosing",
    .struct ⟨"generated Connection::ConnectionClosing", connectionClosing⟩),
  ("Battlenet::PacketInfo", .struct ⟨"generated Connection::PacketInfo", packetInfo⟩),
  ("Battlenet::Client::S2Map::S2ListMapFavorites",
    .struct ⟨"empty S2Map::S2ListMapFavorites", identity0⟩),
  ("Battlenet::Client::Club::InviteAction",
    .struct ⟨"identity Client::Club::InviteAction", identity1⟩),
  ("Battlenet::Client::Achievement::Data",
    .struct ⟨"identity Client::Achievement::Data", identity2⟩),
  ("Battlenet::Achievement::PersistentRecord",
    .struct ⟨"generated Achievement::PersistentRecord", achievementPersistentRecord⟩),
  ("Battlenet::Achievement::QuestUpdateRecord",
    .struct ⟨"identity Achievement::QuestUpdateRecord", identity1⟩),
  ("Battlenet::Achievement::CriteriaUpdateRecord",
    .struct ⟨"generated Achievement::CriteriaUpdateRecord", achievementCriteriaUpdate⟩),
  ("Battlenet::Club::InviteAction", .struct ⟨"generated Club::InviteAction", clubInviteAction⟩),
  ("Battlenet::Client::Chat::ModifyChannelListRequest",
    .struct ⟨"generated Chat::ModifyChannelListRequest", modifyChannelList⟩),
  ("Battlenet::Client::Chat::ModifyChannelListRequest2",
    .struct ⟨"identity Chat::ModifyChannelListRequest2", identity4⟩),
  ("Battlenet::Client::Chat::ModifyChannelListResponse2",
    .struct ⟨"identity Chat::ModifyChannelListResponse2", identity2⟩),
  ("Battlenet::Client::Chat::CategoryDescriptions",
    .struct ⟨"generated Chat::CategoryDescriptions", chatCategoryDescriptions⟩),
  ("Battlenet::Client::S2Map::S2ListMapFavoritesRequest",
    .struct ⟨"identity S2Map::S2ListMapFavoritesRequest", identity2⟩),
  ("Battlenet::Client::S2Map::S2ListMapFavoritesResponse",
    .struct ⟨"identity S2Map::S2ListMapFavoritesResponse", identity2⟩),
  ("Battlenet::Client::S2Master::MMQSubscribe",
    .struct ⟨"identity S2Master::MMQSubscribe", identity2⟩),
  ("Battlenet::MatchMaker::Filter", .struct ⟨"generated MatchMaker::Filter", matchmakerFilter⟩),
  ("Battlenet::Conference::CategoryDescription", .custom .categoryDescription),
  ("Battlenet::Client::Chat::ConferenceDescriptions",
    .struct ⟨"generated Chat::ConferenceDescriptions", conferenceDescriptions⟩),
  ("Battlenet::Conference::FullConferenceDescription",
    .struct ⟨"generated Conference::FullConferenceDescription", fullConferenceDescription⟩),
  ("Battlenet::Conference::ConferenceConfiguration",
    .struct ⟨"generated Conference::ConferenceConfiguration", conferenceConfiguration⟩),
  ("Battlenet::Conference::ShardName", .struct ⟨"generated Conference::ShardName", shardName⟩),
  ("Battlenet::Conference::PublicPartialName",
    .struct ⟨"identity Conference::PublicPartialName", identity2⟩),
  ("Battlenet::Conference::ClubName", .struct ⟨"generated Conference::ClubName", clubName⟩),
  ("Battlenet::Toon::Handle", .struct ⟨"generated Toon::Handle", toonHandle⟩),
  ("Battlenet::Client::Toon::BillingUpdateNotify",
    .struct ⟨"identity Toon::BillingUpdateNotify", identity1⟩)]

def registerSessionAndToonLayouts : List (String × RegisteredWireLayout) := [
  ("Battlenet::Session::BillingInfo", .struct ⟨"generated Session::BillingInfo", billingInfo⟩),
  ("Battlenet::Client::Toon::ToonCreateInit", .struct ⟨"empty Toon::ToonCreateInit", identity0⟩),
  ("Battlenet::Client::Toon::ToonCreateSetup", .struct ⟨"empty Toon::ToonCreateSetup", identity0⟩),
  ("Battlenet::Client::Toon::ToonCreateFinal",
    .struct ⟨"identity Toon::ToonCreateFinal", identity1⟩),
  ("Battlenet::Toon::ToonCreationData", .struct ⟨"identity Toon::ToonCreationData", identity1⟩),
  ("Battlenet::Client::Toon::ToonCreateCancel",
    .struct ⟨"empty Toon::ToonCreateCancel", identity0⟩),
  ("Battlenet::Client::Toon::ToonCreated", .struct ⟨"identity Toon::ToonCreated", identity3⟩),
  ("Battlenet::Client::Toon::Failure", .struct ⟨"identity Toon::Failure", identity1⟩)]

/-- `register_empty_layouts`: the marked types that reflect no members. -/
def registerEmptyLayouts : List (String × RegisteredWireLayout) := [
  ("Battlenet::Client::Cache::GetStreamItems", .struct ⟨"empty Cache::GetStreamItems", identity0⟩),
  ("Battlenet::Client::Chat::ChannelList", .struct ⟨"empty Chat::ChannelList", identity0⟩),
  ("Battlenet::Client::Chat::EnumCategoryDescriptions",
    .struct ⟨"empty Chat::EnumCategoryDescriptions", identity0⟩),
  ("Battlenet::Client::Chat::EnumConferenceDescriptions",
    .struct ⟨"empty Chat::EnumConferenceDescriptions", identity0⟩),
  ("Battlenet::Client::Chat::EnumConferenceMemberCounts",
    .struct ⟨"empty Chat::EnumConferenceMemberCounts", identity0⟩),
  ("Battlenet::Client::Chat::Message", .struct ⟨"empty Chat::Message", identity0⟩),
  ("Battlenet::Client::Chat::Whisper", .struct ⟨"empty Chat::Whisper", identity0⟩),
  ("Battlenet::Client::Chat::WhisperEcho", .struct ⟨"empty Chat::WhisperEcho", identity0⟩),
  ("Battlenet::Client::Connection::EnableEncryption",
    .struct ⟨"empty Connection::EnableEncryption", identity0⟩),
  ("Battlenet::Client::Friends::ToonsOfFriendPacket",
    .struct ⟨"empty Friends::ToonsOfFriendPacket", identity0⟩),
  ("Battlenet::Client::Presence::TemporaryPresence",
    .struct ⟨"empty Presence::TemporaryPresence", identity0⟩),
  ("Battlenet::Client::Profile::AddressQuery", .struct ⟨"empty Profile::AddressQuery", identity0⟩),
  ("Battlenet::Client::Profile::Read", .struct ⟨"empty Profile::Read", identity0⟩),
  ("Battlenet::Client::Profile::ResolveToonNameToHandle",
    .struct ⟨"empty Profile::ResolveToonNameToHandle", identity0⟩),
  ("Battlenet::Client::S2Master::CurrentSeason",
    .struct ⟨"empty S2Master::CurrentSeason", identity0⟩),
  ("Battlenet::Client::S2Master::MMQGetInfo", .struct ⟨"empty S2Master::MMQGetInfo", identity0⟩),
  ("Battlenet::Client::S2Master::MMQGetList", .struct ⟨"empty S2Master::MMQGetList", identity0⟩),
  ("Battlenet::Presence::SharedPackets::UpdateBase",
    .struct ⟨"empty Presence::SharedPackets::UpdateBase", identity0⟩)]

/-- All layouts, in the order in which `register` installs them. -/
def registrations : List (String × RegisteredWireLayout) :=
  registerOwn ++ registerSessionAndToonLayouts ++ registerEmptyLayouts ++
    verifiedReflected.map (·, .verifiedReflected) ++
    candidateReflected.map (·, .candidateReflected)

/-- The calls of `register`, one after the other. -/
def registerAll : List (String × RegisteredWireLayout) → Codec → Except Error Codec
  | [], codec => .ok codec
  | entry :: entries, codec => do
    let codec ← codec.registerLayout entry.1 entry.2
    registerAll entries codec

def register (codec : Codec) : Except Error Codec := registerAll registrations codec

/-! ## What `register` does -/

/-- The checks of a registration that are about the type alone. -/
def Admits (schema : Schema) (typeId : UInt32) : RegisteredWireLayout → Prop
  | .struct layout | .candidateStruct layout => Codec.checkStruct schema typeId layout = .ok ()
  | _ => ∃ shape, schema.shape typeId = .ok shape ∧ shape.obfuscated = true

theorem Admits.fits {schema : Schema} {typeId : UInt32} {layout : RegisteredWireLayout}
    (h : Admits schema typeId layout) : Fits schema typeId layout := by
  cases layout with
  | struct layout => exact Codec.fits_of_checkStruct h false
  | candidateStruct layout => exact Codec.fits_of_checkStruct h true
  | _ => exact h

/-- The codec with one more layout. -/
structure Installs (codec : Codec) (typeId : UInt32) (layout : RegisteredWireLayout)
    (codec' : Codec) : Prop where
  schema : codec'.schema = codec.schema
  wireLayouts : codec'.wireLayouts = codec.wireLayouts.insert typeId layout

variable {codec codec' : Codec} {name : String} {typeId : UInt32} {layout : RegisteredWireLayout}

theorem eq_insert_iff {h : Fits codec.schema typeId layout} :
    codec.insert typeId layout h = codec' ↔ Installs codec typeId layout codec' := by
  constructor
  · rintro rfl
    exact ⟨rfl, rfl⟩
  · rintro ⟨hschema, hlayouts⟩
    cases codec'
    cases hschema
    cases hlayouts
    rfl

theorem registerObfuscated_ok_iff {hplain : Codec.isPlain layout} :
    codec.registerObfuscated typeId layout hplain = .ok codec' ↔
      (∃ shape, codec.schema.shape typeId = .ok shape ∧ shape.obfuscated = true) ∧
        typeId ∉ codec.wireLayouts ∧ Installs codec typeId layout codec' := by
  rw [Codec.registerObfuscated]
  split
  · next e hshape => simp [hshape]
  · next shape hshape =>
    split_ifs with hmarked hknown
    · simp_all
    · rw [Except.ok.injEq, eq_insert_iff]
      simp_all
    · simp_all

theorem registerStruct_ok_iff {layout : StructWireLayout} {candidate : Bool} :
    codec.registerStruct name layout candidate = .ok codec' ↔
      ∃ typeId, codec.schema.uniqueTypeId name = .ok typeId ∧
        Codec.checkStruct codec.schema typeId layout = .ok () ∧ typeId ∉ codec.wireLayouts ∧
          Installs codec typeId (if candidate then .candidateStruct layout else .struct layout)
            codec' := by
  rw [Codec.registerStruct, except_bind_ok]
  refine exists_congr fun typeId => and_congr_right fun _ => ?_
  split
  · next e hchecked => simp [hchecked]
  · next hchecked =>
    by_cases hknown : codec.wireLayouts.contains typeId = true
    · rw [if_pos hknown]
      simp_all
    · rw [if_neg hknown]
      change (Except.ok (codec.insert _ _ _) = _) ↔ _
      rw [Except.ok.injEq, eq_insert_iff]
      simp_all

/-- What a registration does, and when it succeeds. -/
theorem registerLayout_ok_iff :
    codec.registerLayout name layout = .ok codec' ↔
      ∃ typeId, codec.schema.uniqueTypeId name = .ok typeId ∧ Admits codec.schema typeId layout ∧
        typeId ∉ codec.wireLayouts ∧ Installs codec typeId layout codec' := by
  cases layout with
  | struct layout => exact registerStruct_ok_iff
  | candidateStruct layout => exact registerStruct_ok_iff
  | _ =>
    rw [Codec.registerLayout, except_bind_ok]
    exact exists_congr fun typeId => and_congr_right fun _ => registerObfuscated_ok_iff

/-- What holds of a codec and is kept by every registration holds after all of them. -/
theorem registerAll_keeps {P : Codec → Prop} {entries : List (String × RegisteredWireLayout)}
    (hkeeps : ∀ {codec codec' typeId}, ∀ entry ∈ entries, Admits codec.schema typeId entry.2 →
      Installs codec typeId entry.2 codec' → P codec → P codec')
    (hcodec : P codec) (h : registerAll entries codec = .ok codec') : P codec' := by
  induction entries generalizing codec with
  | nil =>
    obtain rfl := Except.ok.inj h
    exact hcodec
  | cons entry entries ih =>
    rw [registerAll, except_bind_ok] at h
    obtain ⟨next, hnext, h⟩ := h
    obtain ⟨typeId, -, hadmits, -, hinstalls⟩ := registerLayout_ok_iff.1 hnext
    exact ih (fun entry hentry => hkeeps entry (List.mem_cons_of_mem _ hentry))
      (hkeeps entry List.mem_cons_self hadmits hinstalls hcodec) h

theorem schema_register (h : register codec = .ok codec') : codec'.schema = codec.schema :=
  registerAll_keeps (P := fun next => next.schema = codec.schema)
    (fun _ _ _ hinstalls hschema => hinstalls.schema.trans hschema) rfl h

/-- The ids that have a layout afterwards: those of the entries, each with its own, and those that
had one before. -/
structure Registers (entries : List (String × RegisteredWireLayout)) (typeIds : List UInt32)
    (codec codec' : Codec) : Prop where
  schema : codec'.schema = codec.schema
  installed : List.Forall₂ (fun entry typeId => codec'.wireLayouts[typeId]? = some entry.2) entries
    typeIds
  others : ∀ typeId ∉ typeIds, codec'.wireLayouts[typeId]? = codec.wireLayouts[typeId]?

/-- The registrations succeed on a schema that has each type once, marked and shaped as its layout
needs it. -/
theorem registerAll_ok {schema : Schema} {entries : List (String × RegisteredWireLayout)}
    {typeIds : List UInt32} (hschema : codec.schema = schema)
    (h : List.Forall₂ (fun entry typeId => schema.uniqueTypeId entry.1 = .ok typeId ∧
      Admits schema typeId entry.2) entries typeIds)
    (hnodup : typeIds.Nodup) (hfresh : ∀ typeId ∈ typeIds, typeId ∉ codec.wireLayouts) :
    ∃ codec', registerAll entries codec = .ok codec' ∧
      Registers entries typeIds codec codec' := by
  induction h generalizing codec with
  | nil => exact ⟨codec, rfl, rfl, .nil, fun _ _ => rfl⟩
  | @cons entry typeId entries typeIds hfirst hrest ih =>
    obtain ⟨hnot, hnodup⟩ := List.nodup_cons.1 hnodup
    subst hschema
    have hfit : Fits codec.schema typeId entry.2 := hfirst.2.fits
    let next := codec.insert typeId entry.2 hfit
    have hnext : codec.registerLayout entry.1 entry.2 = .ok next :=
      registerLayout_ok_iff.2 ⟨typeId, hfirst.1, hfirst.2, hfresh typeId List.mem_cons_self,
        eq_insert_iff.1 rfl⟩
    have hlookup : ∀ id, next.wireLayouts[id]? =
        if typeId = id then some entry.2 else codec.wireLayouts[id]? := by
      intro id
      rw [eq_insert_iff.1 (rfl : _ = next) |>.wireLayouts]
      simp [Std.ExtTreeMap.getElem?_insert]
    have hnextFresh : ∀ id ∈ typeIds, id ∉ next.wireLayouts := by
      intro id hid
      have hne : typeId ≠ id := fun h => hnot (h ▸ hid)
      have hnone : next.wireLayouts[id]? = none := by
        rw [hlookup, if_neg hne]
        exact Std.ExtTreeMap.getElem?_eq_none (hfresh id (List.mem_cons_of_mem _ hid))
      simpa using hnone
    obtain ⟨last, hlast, hregisters⟩ := ih (rfl : next.schema = _) hnodup hnextFresh
    refine ⟨last, except_bind_ok.2 ⟨next, hnext, hlast⟩, hregisters.schema, ?_, ?_⟩
    · apply List.Forall₂.cons _ hregisters.installed
      rw [hregisters.others typeId hnot, hlookup, if_pos rfl]
    · intro id hid
      have hne : typeId ≠ id := fun h => hid (h ▸ List.mem_cons_self)
      rw [hregisters.others id fun h => hid (List.mem_cons_of_mem _ h), hlookup, if_neg hne]

end Superiority.Native.WireLayout
