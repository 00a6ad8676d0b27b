import Superiority.Library.Run
import Superiority.Live.Mirror
import Superiority.Live.Read
import Superiority.Live.Rooms

/-!
# What of a session becomes visible

A session of any product with sharing on, from its tap to the read side: the tap acts, what it emits
is checked and stored, and the viewer asks for the product.

* **`ProductSession.visible_iff`** – once the first snapshot has been stored and until the
  session is ended, the read side shows the session exactly when it is a StarCraft II session
  with an open channel;
* `ProductSession.unsynced_step`: a classic tap never emits `session_synced`, without which the
  read side does not select a session.
-/

namespace Superiority

open Std

/-! ## Taps of any product -/

/-- The tap of a session, with what it shares. -/
inductive AnyTap where
  | sc2 (s : Tapped)
  | classic (s : ClassicTapped)

inductive AnyOp where
  | sc2 (op : SessionTap.Op)
  | classic (op : ClassicSessionTap.Op)
  deriving DecidableEq

/-- The slug as the Worker reads it. -/
def Product.wire : Product → ProductSlug
  | .starCraft2 => .sc2
  | .remastered => .scr
  | .warcraft3 => .wc3

theorem ofText_slug (product : Product) : ProductSlug.ofText product.slug = some product.wire := by
  cases product <;> rfl

namespace AnyTap

variable (lowercase : String → String) (clock : Nat → Nat)

def emitted : AnyTap → List EventDto
  | sc2 s => s.2.emitted
  | classic s => s.2.emitted

/-- The tap after the worker has taken everything from the channel. -/
def drained : AnyTap → AnyTap
  | sc2 s => sc2 (s.1, { s.2 with channel := [] })
  | classic s => classic (s.1, { s.2 with channel := [] })

/-- An operation on the tap of its own product. -/
def perform : AnyTap → AnyOp → AnyTap
  | sc2 s, .sc2 op => sc2 (SessionTap.perform clock op s)
  | classic s, .classic op => classic (ClassicSessionTap.perform lowercase clock op s)
  | tap, _ => tap

end AnyTap

/-! ## Runs -/

/-- A session with the rows of all it has emitted. -/
structure ProductSession where
  tap : AnyTap
  tables : SessionTables
  sent : List EventDto

namespace ProductSession

variable (lowercase : String → String) (session : WireSession) (times clock : Nat → Nat)

/-- A session begun with sharing on. -/
def start (id clientVersion : String) (startedAt : Nat) (product : Product)
    (localIdentity : Option String) (channels : List ChatChannel) (clubNames : ClubNames) :
    ProductSession :=
  let u : Uplink := { config := { enabled := true }, clubNames }
  let tap : AnyTap := match product with
    | .starCraft2 => .sc2 (SessionTap.beginSession clock id clientVersion startedAt channels u)
    | _ => .classic (.new lowercase id clientVersion startedAt product localIdentity, u)
  { tap, tables := SessionTables.storeDtos session times {} tap.emitted, sent := tap.emitted }

/-- The tap acts, and what it emits is stored. -/
def step (s : ProductSession) (op : AnyOp) : ProductSession :=
  let tap := s.tap.drained.perform lowercase clock op
  { tap, tables := s.tables.storeDtos session times tap.emitted, sent := s.sent ++ tap.emitted }

/-- The last event of a first snapshot: a complete roster from a classic tap, `session_synced` from
a StarCraft II tap, whose first snapshot is a reconciliation. -/
def completes (tap : AnyTap) (kind : EventKind) : Bool :=
  match tap, kind with
  | .sc2 _, .sessionSynced => true
  | .classic _, .roster _ true _ _ => true
  | _, _ => false

/-- The events of the first snapshot have been stored. -/
def Begun (s : ProductSession) : Prop :=
  ∃ dto ∈ s.sent, dto.Conforms ∧ completes s.tap dto.kind = true

/-- The session has not been ended. -/
def Unended (s : ProductSession) : Prop := ∀ dto ∈ s.sent, dto.kind ≠ .sessionEnded

instance (s : ProductSession) : Decidable s.Begun :=
  inferInstanceAs (Decidable (∃ dto ∈ s.sent, dto.Conforms ∧ completes s.tap dto.kind = true))

instance (s : ProductSession) : Decidable s.Unended :=
  inferInstanceAs (Decidable (∀ dto ∈ s.sent, dto.kind ≠ .sessionEnded))

end ProductSession

/-! ## The session's row -/

namespace SessionTables

variable {t : SessionTables} {session : WireSession} {times clock : Nat → Nat}

/-- The session's row, if there is one, is open, older than the next event, and marked synced
exactly when `synced` says so. -/
structure Tracks (t : SessionTables) (seq : Nat) (synced : Prop) : Prop where
  row : ∀ row, t.session = some row → row.lastSeq < seq ∧ row.endedAt = none ∧
    (row.syncedAt.isSome = true ↔ synced)
  made : synced → t.session.isSome

theorem storeDto_of_not_conforms {dto : EventDto} (h : ¬ dto.Conforms) :
    t.storeDto session times dto = t := by
  rw [storeDto]
  split
  · next event hvalid => exact absurd (validateEvent_iff.1 hvalid).1 h
  · rfl

theorem wireKind_eq_sessionEnded {kind : EventKind} :
    kind.wireKind = .sessionEnded ↔ kind = .sessionEnded := by
  cases kind <;> simp [EventKind.wireKind]

theorem wireKind_eq_sessionStarted {kind : EventKind} :
    kind.wireKind = .sessionStarted ↔ kind = .sessionStarted := by
  cases kind <;> simp [EventKind.wireKind]

theorem wireKind_eq_sessionSynced {kind : EventKind} :
    kind.wireKind = .sessionSynced ↔ kind = .sessionSynced := by
  cases kind <;> simp [EventKind.wireKind]

/-- The row of an open session after upkeep. -/
theorem tracks_sessionUpkeep {seq : Nat} {synced : Prop} (h : Tracks t seq synced)
    (session : WireSession) {event : WireEvent} (hkind : event.kind ≠ .sessionEnded) (time : Nat) :
    ∃ row, (t.sessionUpkeep session event time).session = some row ∧ row.endedAt = none ∧
      (row.syncedAt.isSome = true ↔ synced) ∧ row.lastSeq ≤ max (seq - 1) event.seq := by
  cases hrow : t.session with
  | none =>
    refine ⟨{
      product := session.product
      clientVersion := session.clientVersion
      startedAt := session.startedAt
      lastSeenAt := time
      lastSeq := event.seq }, by rw [sessionUpkeep, hrow], rfl, ?_, le_max_right _ _⟩
    have hsynced : ¬ synced := by
      intro hsynced
      have := h.made hsynced
      rw [hrow] at this
      cases this
    exact ⟨fun hsome => (by cases hsome), fun hsynced' => absurd hsynced' hsynced⟩
  | some row =>
    obtain ⟨hseq, hended, hsynced⟩ := h.row row hrow
    have hnot : ¬ (event.seq > row.lastSeq ∧ event.kind = .sessionEnded) := fun h => hkind h.2
    refine ⟨{ row with
      product := session.product
      lastSeenAt := max row.lastSeenAt time
      lastSeq := max row.lastSeq event.seq
      endedAt := none }, by simp only [sessionUpkeep, hrow, if_neg hnot, hended], rfl, hsynced, ?_⟩
    show max row.lastSeq event.seq ≤ max (seq - 1) event.seq
    omega

theorem tracks_storeDto (dto : EventDto) {synced : Prop} (h : Tracks t dto.seq synced)
    (hended : dto.kind ≠ .sessionEnded) (hstarted : dto.kind = .sessionStarted → ¬ synced) :
    Tracks (t.storeDto session times dto) (dto.seq + 1)
      (synced ∨ (dto.Conforms ∧ dto.kind = .sessionSynced)) := by
  by_cases hconforms : dto.Conforms
  swap
  · rw [storeDto_of_not_conforms hconforms]
    have hiff : synced ∨ (dto.Conforms ∧ dto.kind = .sessionSynced) ↔ synced :=
      or_iff_left fun hright => hconforms hright.1
    rw [hiff]
    refine ⟨fun row hrow => ?_, h.made⟩
    obtain ⟨hseq, hopen, hsynced⟩ := h.row row hrow
    exact ⟨Nat.lt_succ_of_lt hseq, hopen, hsynced⟩
  have hkind : dto.wire.kind ≠ .sessionEnded := fun heq => hended (wireKind_eq_sessionEnded.1 heq)
  obtain ⟨row, hrow, hopen, hsynced, hseq⟩ := tracks_sessionUpkeep h session hkind (times dto.seq)
  have hstored : (t.storeDto session times dto).session =
      some (sessionUpdate dto.wire row) := by
    rw [storeDto_eq hconforms fun row hrow => (h.row row hrow).1, session_statementsFor, hrow,
      Option.map_some]
  refine ⟨fun row' hrow' => ?_, fun _ => by rw [hstored]; rfl⟩
  rw [hstored] at hrow'
  obtain rfl := Option.some.inj hrow'
  refine ⟨?_, ?_, ?_⟩
  · rw [sessionUpdate_lastSeq]
    have : dto.wire.seq = dto.seq := rfl
    omega
  · rw [sessionUpdate_endedAt, hopen, ite_self]
  · simp only [hconforms, true_and, ← wireKind_eq_sessionSynced]
    have hwire : dto.wire.kind = dto.kind.wireKind := rfl
    unfold sessionUpdate
    rw [hwire]
    cases hdto : dto.kind.wireKind with
    | sessionStarted =>
      have hnot := hstarted (wireKind_eq_sessionStarted.1 hdto)
      simp [hnot]
    | sessionSynced => simp [hopen]
    | syncStarted => simp [hopen, hsynced]
    | _ => simp [hsynced]

variable (session times clock) in
/-- The events of one operation, none of which starts or ends the session. -/
theorem tracks_storeDtos {seq : Nat} {synced : Prop} {kinds : List EventKind}
    (h : Tracks t seq synced)
    (hkinds : ∀ kind ∈ kinds, kind ≠ .sessionEnded ∧ kind ≠ .sessionStarted) :
    Tracks (t.storeDtos session times (numbered clock seq kinds)) (seq + kinds.length)
      (synced ∨ ∃ dto ∈ numbered clock seq kinds, dto.Conforms ∧ dto.kind = .sessionSynced) := by
  induction kinds generalizing t seq synced with
  | nil => simpa [numbered, storeDtos] using h
  | cons kind kinds ih =>
    obtain ⟨hended, hstarted⟩ := hkinds kind List.mem_cons_self
    have hfirst : Tracks (t.storeDto session times ⟨seq, clock seq, kind⟩) (seq + 1) _ :=
      tracks_storeDto ⟨seq, clock seq, kind⟩ h hended fun heq => absurd heq hstarted
    have hrest := ih hfirst fun kind hkind => hkinds kind (List.mem_cons_of_mem _ hkind)
    have hlength : seq + (kind :: kinds).length = seq + 1 + kinds.length := by
      rw [List.length_cons]
      omega
    rw [hlength]
    have hnumbered : numbered clock seq (kind :: kinds) =
        ⟨seq, clock seq, kind⟩ :: numbered clock (seq + 1) kinds := rfl
    rw [hnumbered]
    simp only [List.exists_mem_cons_iff, ← or_assoc]
    exact hrest

/-- What storing one event may do to the session's row. -/
theorem session_storeDto_cases (t : SessionTables) (session : WireSession) (times : Nat → Nat)
    (dto : EventDto) : (t.storeDto session times dto).session = t.session ∨
      ∃ row, (t.storeDto session times dto).session = some (sessionUpdate dto.wire row) ∧
        row.product = session.product ∧ row.syncedAt = t.session.bind (·.syncedAt) := by
  by_cases hconforms : dto.Conforms
  swap
  · rw [storeDto_of_not_conforms hconforms]
    exact .inl rfl
  have hstore : t.storeDto session times dto =
      t.storeEnvelope ⟨session, [dto.wire]⟩ (times dto.seq) := by
    rw [storeDto, validateEvent_iff.2 ⟨hconforms, rfl⟩]
  rw [hstore]
  cases hnew : t.newEvents [dto.wire] with
  | nil =>
    refine .inl ?_
    rw [storeEnvelope, hnew]
    rfl
  | cons event rest =>
    have hsub : event :: rest ⊆ [dto.wire] := by
      rw [← hnew]
      exact List.filter_subset_self _
    have hlength : (event :: rest).length ≤ 1 := by
      rw [← hnew]
      exact List.length_filter_le _ _
    obtain rfl : event = dto.wire := List.mem_singleton.1 (hsub List.mem_cons_self)
    obtain rfl : rest = [] := by
      cases rest with
      | nil => rfl
      | cons next rest => exact absurd hlength (by simp)
    rw [storeEnvelope_of_newEvents hnew]
    refine .inr ?_
    show ∃ row, ((t.sessionUpkeep session dto.wire (times dto.seq)).statementsFor dto.wire
      (times dto.seq)).session = _ ∧ _
    rw [session_statementsFor, sessionUpkeep]
    cases t.session with
    | none => exact ⟨_, rfl, rfl, rfl⟩
    | some row => exact ⟨_, rfl, rfl, rfl⟩

end SessionTables

/-! ## Classic taps never sync -/

/-- The kind never comes out of the tap. -/
def Uplink.Without (kind : EventKind) (u : Uplink) : Prop := ∀ dto ∈ u.emitted, dto.kind ≠ kind

namespace ClassicSessionTap

variable {lowercase : String → String} {clock : Nat → Nat} {s : ClassicTapped}

theorem emitted_trySend {u : Uplink} {message : TapMessage} {dto : EventDto}
    (h : dto ∈ (u.trySend message).2.emitted) :
    dto ∈ u.emitted ∨ ∃ carried ∈ message.carried, carried.2 = dto := by
  unfold Uplink.trySend at h
  split at h
  · simp only [Uplink.emitted, List.filterMap_append, List.map_append, List.mem_append] at h
    rcases h with h | h
    · exact .inl h
    · refine .inr ?_
      cases hcarried : message.carried with
      | none => simp [hcarried] at h
      | some carried =>
        simp only [List.filterMap_cons, hcarried, List.filterMap_nil, List.map_cons, List.map_nil,
          List.mem_singleton] at h
        exact ⟨carried, rfl, h.symm⟩
  · exact .inl h

theorem without_place {s : Tapped} {kind other : EventKind} (h : s.2.Without other)
    (hkind : kind ≠ other) : (SessionTap.place clock kind s).2.2.Without other := by
  obtain ⟨tap, u⟩ := s
  have hsent : (u.trySend (.event tap.info.id ⟨tap.nextSeq, clock tap.nextSeq, kind⟩)).2.Without
      other := by
    intro dto hdto
    rcases emitted_trySend hdto with hbefore | ⟨carried, hcarried, rfl⟩
    · exact h dto hbefore
    · obtain rfl := Option.some.inj hcarried
      exact hkind
  unfold SessionTap.place
  dsimp only
  split_ifs
  · exact hsent
  · exact hsent

theorem without_emit {s : Tapped} {kind other : EventKind} (h : s.2.Without other)
    (hkind : kind ≠ other) (hdropped : ∀ count, EventKind.dropped count ≠ other) :
    (SessionTap.emit clock kind s).2.Without other := by
  unfold SessionTap.emit
  dsimp only
  refine without_place ?_ hkind
  split_ifs
  · exact without_place h (hdropped _)
  · exact without_place h (hdropped _)
  · exact h

theorem without_announceAndEmit {s : Tapped} {kind other : EventKind} (h : s.2.Without other)
    (hkind : kind ≠ other) (hdropped : ∀ count, EventKind.dropped count ≠ other)
    (hstarted : .sessionStarted ≠ other) :
    (SessionTap.announceAndEmit clock kind s).2.Without other := by
  have hannounce : (SessionTap.announce clock s).2.2.Without other := by
    obtain ⟨tap, u⟩ := s
    have hsent : (u.trySend (.session tap.info)).2.Without other := by
      intro dto hdto
      rcases emitted_trySend hdto with hbefore | ⟨carried, hcarried, -⟩
      · exact h dto hbefore
      · cases hcarried
    unfold SessionTap.announce
    dsimp only
    split_ifs
    · exact h
    · exact without_emit hsent hstarted hdropped
    · exact hsent
  unfold SessionTap.announceAndEmit
  dsimp only
  split_ifs
  · exact without_emit hannounce hkind hdropped
  · exact hannounce

/-- An event of a projector names a channel. -/
def Named (kinds : List EventKind) : Prop := ∀ kind ∈ kinds, kind.channel?.isSome

theorem unsynced_emitAll {kinds : List EventKind} (h : s.2.Without .sessionSynced)
    (hnamed : Named kinds) : (emitAll clock kinds s).2.Without .sessionSynced := by
  induction kinds generalizing s with
  | nil => exact h
  | cons kind kinds ih =>
    have hkind : kind ≠ .sessionSynced := by
      rintro rfl
      cases hnamed _ List.mem_cons_self
    exact ih (without_announceAndEmit (s := (s.1.sends, s.2)) h hkind nofun nofun)
      fun kind hkind => hnamed kind (List.mem_cons_of_mem _ hkind)

theorem named_append {kinds kinds' : List EventKind} (h : Named kinds) (h' : Named kinds') :
    Named (kinds ++ kinds') := by
  intro kind hkind
  rcases List.mem_append.1 hkind with hkind | hkind
  · exact h kind hkind
  · exact h' kind hkind

theorem named_rosterEvents (channel : ChannelRef) (members state : RosterMirror) (sent : Bool) :
    Named (rosterEvents channel members state sent).1 := by
  unfold rosterEvents
  dsimp only
  split_ifs
  · intro kind hkind
    rw [List.mem_singleton.1 hkind]
    rfl
  · exact fun kind hkind => absurd hkind List.not_mem_nil
  · intro kind hkind
    rw [List.mem_singleton.1 hkind]
    rfl

theorem named_scr (p : ScrProjector) (channel : ScrChannel) :
    Named (p.channelEvents lowercase channel).1 := by
  unfold ScrProjector.channelEvents
  dsimp only
  refine named_append ?_ (named_rosterEvents _ _ _ _)
  split_ifs
  · refine named_append ?_ fun kind hkind => ?_
    · intro kind hkind
      obtain ⟨previous, -, rfl⟩ := Option.map_eq_some_iff.1 (Option.mem_toList.1 hkind)
      rfl
    · rw [List.mem_singleton.1 hkind]
      rfl
  · exact fun kind hkind => absurd hkind List.not_mem_nil

theorem named_wc3 (p : Wc3Projector) (channel : Wc3Channel) :
    Named (p.channelEvents channel).1 := by
  unfold Wc3Projector.channelEvents
  dsimp only
  refine named_append ?_ (named_rosterEvents _ _ _ _)
  cases p.channels[channel.id]? with
  | none =>
    intro kind hkind
    rw [List.mem_singleton.1 hkind]
    rfl
  | some entry => exact fun kind hkind => absurd hkind List.not_mem_nil

theorem named_messageEvent (p : ScrProjector) (event : ScrEvent) :
    Named (p.messageEvent lowercase event).toList := by
  intro kind hkind
  have hsome := Option.mem_toList.1 hkind
  cases hchannel : p.channel with
  | none =>
    rw [ScrProjector.messageEvent, hchannel] at hsome
    cases hsome
  | some entry =>
    simp only [ScrProjector.messageEvent, hchannel, Option.bind_eq_bind, Option.bind_some] at hsome
    obtain ⟨eventKind, sender, text⟩ := event
    cases eventKind <;> cases sender <;> cases hsome <;> rfl

theorem named_eventKinds (p : Wc3Projector) (event : Wc3Event) : Named (p.eventKinds event).1 := by
  have hline {channel : Option ChannelRef} {f : ChannelRef → EventKind}
      (hf : ∀ channel, (f channel).channel?.isSome) : Named (channel.map f).toList := by
    intro kind hkind
    obtain ⟨channel, -, rfl⟩ := Option.map_eq_some_iff.1 (Option.mem_toList.1 hkind)
    exact hf channel
  cases event with
  | channelLeft id =>
    rw [Wc3Projector.eventKinds]
    cases p.channels[id]? with
    | none => exact fun kind hkind => absurd hkind List.not_mem_nil
    | some entry =>
      intro kind hkind
      rw [List.mem_singleton.1 hkind]
      rfl
  | message id body => exact hline fun _ => rfl
  | memberJoined id name => exact hline fun _ => rfl
  | memberLeft id name => exact hline fun _ => rfl
  | _ => exact fun kind hkind => absurd hkind List.not_mem_nil

theorem named_resend (p : ClassicProjector) : Named p.resend := by
  cases p with
  | scr p =>
    rw [ClassicProjector.resend, ScrProjector.resend]
    split
    · exact fun kind hkind => absurd hkind List.not_mem_nil
    · split
      · exact fun kind hkind => absurd hkind List.not_mem_nil
      · intro kind hkind
        rw [List.mem_singleton.1 hkind]
        rfl
  | wc3 p =>
    intro kind hkind
    obtain ⟨channel, -, rfl⟩ := List.mem_map.1 hkind
    rfl

theorem unsynced_end (h : s.2.Without .sessionSynced) :
    (end_ clock s).2.Without .sessionSynced := by
  show (SessionTap.endSession clock (s.1.sends, s.2)).2.Without .sessionSynced
  rw [SessionTap.endSession]
  split_ifs
  · exact without_emit (s := (s.1.sends, s.2)) h (by simp) (by simp)
  · exact h

/-- **A classic tap never reports a sync.** -/
theorem unsynced_perform (h : s.2.Without .sessionSynced) (op : Op) :
    (perform lowercase clock op s).2.Without .sessionSynced := by
  cases op with
  | heartbeat =>
    rw [perform]
    unfold heartbeat
    dsimp only
    split_ifs
    · exact unsynced_end h
    · refine unsynced_emitAll ?_ (named_resend _)
      exact without_emit (s := (_, s.2)) h (by simp) (by simp)
    · exact without_emit (s := (s.1.sends, s.2)) h (by simp) (by simp)
    · exact h
  | observeClassic event =>
    rw [perform]
    unfold observeClassic
    dsimp only
    split_ifs
    · exact h
    · split
      · exact unsynced_emitAll h (named_messageEvent _ _)
      · exact h
  | observeClassicChannel channel =>
    rw [perform]
    unfold observeClassicChannel
    dsimp only
    split_ifs
    · exact h
    · split
      · exact unsynced_emitAll h (named_scr _ _)
      · exact h
  | observeWarcraft event =>
    rw [perform]
    unfold observeWarcraft
    dsimp only
    split_ifs
    · exact h
    · split
      · exact unsynced_emitAll h (named_eventKinds _ _)
      · exact h
  | observeWarcraftChannel channel =>
    rw [perform]
    unfold observeWarcraftChannel
    dsimp only
    split_ifs
    · exact h
    · split
      · exact unsynced_emitAll h (named_wc3 _ _)
      · exact h
  | endSession => exact unsynced_end h

end ClassicSessionTap

/-! ## The invariant -/

namespace ProductSession

variable (lowercase : String → String) (session : WireSession) (times clock : Nat → Nat)

/-- What operations keep. The row has the product of the session. A StarCraft II session that has
not been ended shares soundly, and its row is marked synced once a sync has been stored; the row
of a classic session never is. -/
structure Inv (s : ProductSession) : Prop where
  product : ∀ row, s.tables.session = some row → row.product = session.product
  sc2 : ∀ tapped, s.tap = .sc2 tapped → s.Unended →
    SessionTap.Sharing tapped ∧ tapped.1.projector.Sound ∧
      s.tables.Tracks tapped.1.nextSeq (∃ dto ∈ s.sent, dto.Conforms ∧ dto.kind = .sessionSynced)
  classic : ∀ tapped, s.tap = .classic tapped →
    ∀ row, s.tables.session = some row → row.syncedAt = none

variable {lowercase session times clock} {s : ProductSession}

/-- The product of a row is the session's from the first event on. -/
theorem product_storeDtos {t : SessionTables}
    (h : ∀ row, t.session = some row → row.product = session.product) (dtos : List EventDto) :
    ∀ row, (t.storeDtos session times dtos).session = some row →
      row.product = session.product := by
  induction dtos generalizing t with
  | nil => exact h
  | cons dto dtos ih =>
    apply ih
    intro row hrow
    rcases t.session_storeDto_cases session times dto with hsame | ⟨before, hstored, hproduct, -⟩
    · exact h row (hsame.symm.trans hrow)
    · rw [hstored] at hrow
      rw [← Option.some.inj hrow, SessionTables.sessionUpdate_product, hproduct]

/-- Without a sync event the row is not marked synced. -/
theorem unsynced_storeDtos {t : SessionTables}
    (h : ∀ row, t.session = some row → row.syncedAt = none) {dtos : List EventDto}
    (hdtos : ∀ dto ∈ dtos, dto.kind ≠ .sessionSynced) :
    ∀ row, (t.storeDtos session times dtos).session = some row → row.syncedAt = none := by
  induction dtos generalizing t with
  | nil => exact h
  | cons dto dtos ih =>
    apply ih
    · intro row hrow
      rcases t.session_storeDto_cases session times dto with hsame | ⟨before, hstored, -, hsynced⟩
      · exact h row (hsame.symm.trans hrow)
      · rw [hstored] at hrow
        have hbefore : before.syncedAt = none := by
          rw [hsynced]
          cases hsession : t.session with
          | none => rfl
          | some row => exact h row hsession
        have hkind : dto.wire.kind ≠ .sessionSynced := fun heq =>
          hdtos dto List.mem_cons_self (SessionTables.wireKind_eq_sessionSynced.1 heq)
        rw [← Option.some.inj hrow, SessionTables.sessionUpdate]
        cases hwire : dto.wire.kind with
        | sessionSynced => exact absurd hwire hkind
        | sessionStarted => rfl
        | syncStarted =>
          dsimp only
          split_ifs
          · exact hbefore
          · exact hbefore
        | _ => exact hbefore
    · intro dto hdto
      exact hdtos dto (List.mem_cons_of_mem _ hdto)

theorem inv_sc2_step {tapped : Tapped} (h : Inv session s) (htap : s.tap = .sc2 tapped)
    (op : SessionTap.Op) : Inv session (s.step lowercase session times clock (.sc2 op)) := by
  have hperform : s.tap.drained.perform lowercase clock (.sc2 op) =
      .sc2 (SessionTap.perform clock op (tapped.1, { tapped.2 with channel := [] })) := by
    rw [htap]
    rfl
  refine ⟨product_storeDtos h.product _, ?_, ?_⟩
  · intro tapped' htapped' hunended
    replace htapped' : s.tap.drained.perform lowercase clock (.sc2 op) = .sc2 tapped' := htapped'
    rw [hperform] at htapped'
    obtain rfl := AnyTap.sc2.inj htapped'
    have hbefore : s.Unended := fun dto hdto => hunended dto (List.mem_append_left _ hdto)
    obtain ⟨hsharing, hsound, htracks⟩ := h.sc2 tapped htap hbefore
    have hdrained : SessionTap.Sharing (tapped.1, { tapped.2 with channel := [] }) :=
      hsharing.congr rfl rfl rfl rfl rfl
    by_cases hend : op = .endSession
    · -- the end of the session is among what has been sent
      subst hend
      obtain ⟨s', hemits, hend⟩ : ∃ s', SessionTap.Emits clock _ s' _ ∧ _ :=
        SessionTap.perform_endSession hdrained
      refine absurd rfl (hunended ⟨tapped.1.nextSeq, clock tapped.1.nextSeq, .sessionEnded⟩
        (List.mem_append_right _ ?_))
      rw [hperform, hend]
      show _ ∈ s'.2.emitted
      rw [hemits.emitted]
      exact List.mem_singleton.2 rfl
    · obtain ⟨hsharing', hsound', kinds, hshape, hseq, hemitted⟩ : SessionTap.Performs clock _ _ :=
        SessionTap.performs_perform hdrained hsound hend
      refine ⟨hsharing', hsound', ?_⟩
      have hkinds : ∀ kind ∈ kinds, kind ≠ .sessionEnded ∧ kind ≠ .sessionStarted := by
        intro kind hkind
        cases hshape with
        | none => exact absurd hkind List.not_mem_nil
        | plain hplain =>
          rw [List.mem_singleton.1 hkind]
          exact ⟨hplain.1, hplain.2.2⟩
        | sync hsent =>
          rcases List.mem_append.1 hkind with hkind | hkind
          · rcases List.mem_cons.1 hkind with rfl | hkind
            · exact ⟨nofun, nofun⟩
            · obtain ⟨_, _, _, _, _, _, rfl⟩ := Projector.mem_reconciliationEvents hkind
              exact ⟨nofun, nofun⟩
          · rw [List.mem_singleton.1 hkind]
            exact ⟨nofun, nofun⟩
      have hafter := SessionTables.tracks_storeDtos session times clock htracks hkinds
      have hout : (s.tap.drained.perform lowercase clock (.sc2 op)).emitted =
          numbered clock tapped.1.nextSeq kinds := by
        rw [hperform]
        exact hemitted
      show (s.tables.storeDtos session times _).Tracks _
        (∃ dto ∈ s.sent ++ _, dto.Conforms ∧ dto.kind = .sessionSynced)
      rw [hout, hseq]
      simp only [List.mem_append, or_and_right, exists_or]
      exact hafter
  · intro tapped' htapped'
    replace htapped' : s.tap.drained.perform lowercase clock (.sc2 op) = .classic tapped' := htapped'
    rw [hperform] at htapped'
    cases htapped'

theorem inv_classic_step {tapped : ClassicTapped} (h : Inv session s)
    (htap : s.tap = .classic tapped) (op : ClassicSessionTap.Op) :
    Inv session (s.step lowercase session times clock (.classic op)) := by
  have hperform : s.tap.drained.perform lowercase clock (.classic op) =
      .classic (ClassicSessionTap.perform lowercase clock op
        (tapped.1, { tapped.2 with channel := [] })) := by
    rw [htap]
    rfl
  refine ⟨product_storeDtos h.product _, ?_, ?_⟩
  · intro tapped' htapped'
    replace htapped' : s.tap.drained.perform lowercase clock (.classic op) = .sc2 tapped' := htapped'
    rw [hperform] at htapped'
    cases htapped'
  · intro _ _
    refine unsynced_storeDtos (h.classic tapped htap) ?_
    rw [hperform]
    have hdrained : Uplink.Without .sessionSynced { tapped.2 with channel := [] } :=
      fun dto hdto => absurd hdto List.not_mem_nil
    exact ClassicSessionTap.unsynced_perform (s := (tapped.1, { tapped.2 with channel := [] }))
      hdrained op

/-- An operation of the other product does not reach the tap, whose channel is just read. -/
theorem inv_drained (h : Inv session s) {op : AnyOp}
    (hop : s.tap.drained.perform lowercase clock op = s.tap.drained) :
    Inv session (s.step lowercase session times clock op) := by
  have hnothing : s.tap.drained.emitted = [] := by
    cases s.tap <;> rfl
  have hstep : s.step lowercase session times clock op = { s with tap := s.tap.drained } := by
    simp [step, hop, hnothing, SessionTables.storeDtos]
  rw [hstep]
  refine ⟨h.product, ?_, ?_⟩
  · intro tapped htapped hunended
    replace htapped : s.tap.drained = .sc2 tapped := htapped
    cases htap : s.tap with
    | classic before =>
      rw [htap] at htapped
      cases htapped
    | sc2 before =>
      rw [htap] at htapped
      obtain rfl := AnyTap.sc2.inj htapped
      obtain ⟨hsharing, hsound, htracks⟩ := h.sc2 before htap hunended
      exact ⟨hsharing.congr rfl rfl rfl rfl rfl, hsound, htracks⟩
  · intro tapped htapped
    replace htapped : s.tap.drained = .classic tapped := htapped
    cases htap : s.tap with
    | sc2 before =>
      rw [htap] at htapped
      cases htapped
    | classic before => exact h.classic before htap

theorem inv_step (h : Inv session s) (op : AnyOp) :
    Inv session (s.step lowercase session times clock op) := by
  cases htap : s.tap with
  | sc2 tapped =>
    cases op with
    | sc2 op => exact inv_sc2_step h htap op
    | classic op => exact inv_drained h (by rw [htap]; rfl)
  | classic tapped =>
    cases op with
    | classic op => exact inv_classic_step h htap op
    | sc2 op => exact inv_drained h (by rw [htap]; rfl)

theorem inv_start (id clientVersion : String) (startedAt : Nat) (product : Product)
    (localIdentity : Option String) (channels : List ChatChannel) (clubNames : ClubNames) :
    Inv session (start lowercase session times clock id clientVersion startedAt product
      localIdentity channels clubNames) := by
  have hrow : ∀ row : SessionRow, ({} : SessionTables).session ≠ some row := by
    intro row hrow
    cases hrow
  refine ⟨product_storeDtos (fun row h => absurd h (hrow row)) _, ?_, ?_⟩
  · intro tapped htapped hunended
    cases product with
    | remastered => cases htapped
    | warcraft3 => cases htapped
    | starCraft2 =>
      obtain rfl := AnyTap.sc2.inj htapped
      refine ⟨⟨rfl, rfl, rfl, rfl, rfl⟩, ?_, ?_⟩
      · constructor
        · intro index hindex
          exact absurd hindex ExtTreeSet.not_mem_empty
        · intro index mirror hmirror
          cases hmirror
      · have hempty : SessionTables.Tracks {} 1 False :=
          ⟨fun row h => absurd h (hrow row), False.elim⟩
        have hstarted : SessionTables.Tracks (SessionTables.storeDto session times {}
            ⟨1, clock 1, .sessionStarted⟩) 2 _ :=
          SessionTables.tracks_storeDto ⟨1, clock 1, .sessionStarted⟩ hempty nofun
            fun _ => not_false
        have hsynced : (∃ dto ∈ [(⟨1, clock 1, .sessionStarted⟩ : EventDto)],
            dto.Conforms ∧ dto.kind = .sessionSynced) ↔
            (False ∨ ((⟨1, clock 1, .sessionStarted⟩ : EventDto).Conforms ∧
              EventKind.sessionStarted = .sessionSynced)) := by
          simp
        exact propext hsynced ▸ hstarted
  · intro tapped htapped
    cases product with
    | starCraft2 => cases htapped
    | remastered => exact fun row h => absurd h (hrow row)
    | warcraft3 => exact fun row h => absurd h (hrow row)

/-- The tap of a StarCraft II session. -/
def IsSc2 (s : ProductSession) : Prop := ∃ tapped, s.tap = .sc2 tapped

theorem isSc2_step (op : AnyOp) :
    (s.step lowercase session times clock op).IsSc2 ↔ s.IsSc2 := by
  obtain ⟨tap, tables, sent⟩ := s
  cases tap <;> cases op <;> simp [IsSc2, step, AnyTap.drained, AnyTap.perform]

theorem isSc2_start (id clientVersion : String) (startedAt : Nat) (product : Product)
    (localIdentity : Option String) (channels : List ChatChannel) (clubNames : ClubNames) :
    (start lowercase session times clock id clientVersion startedAt product localIdentity
      channels clubNames).IsSc2 ↔ product = .starCraft2 := by
  cases product <;> simp [IsSc2, start]

/-- A session of which only a sync could tell is not selected. -/
theorem not_shows_of_unsynced {feed : Feed} {product : ProductSlug} {id : String}
    (hrows : feed[id]? = some s.tables)
    (hunsynced : ∀ row, s.tables.session = some row → row.syncedAt = none) :
    ¬ feed.Shows product id s.tables := by
  intro hshows
  obtain ⟨⟨other, row⟩, hchosen, rfl⟩ := Option.map_eq_some_iff.1 hshows.snapshot
  obtain ⟨t, hlookup, hsession, hselects⟩ := Feed.mem_sessionsWhere.1 (newestBy_mem hchosen)
  rw [hrows] at hlookup
  obtain rfl := Option.some.inj hlookup
  rw [hunsynced row hsession] at hselects
  cases hselects

variable (lowercase times clock)

/-- The session a tap of a product makes, after the given operations. -/
def reached (id clientVersion : String) (startedAt : Nat) (product : Product)
    (localIdentity : Option String) (channels : List ChatChannel) (clubNames : ClubNames)
    (ops : List AnyOp) : ProductSession :=
  run (step lowercase ⟨id, product.wire, clientVersion, startedAt⟩ times clock)
    (start lowercase ⟨id, product.wire, clientVersion, startedAt⟩ times clock id clientVersion
      startedAt product localIdentity channels clubNames) ops

/-- **What becomes visible.** From its first stored snapshot to its end a session that is the
feed's only one of its product is shown exactly when it is a StarCraft II session that has an
open channel. -/
theorem visible_iff (id clientVersion : String) (startedAt : Nat) (product : Product)
    (localIdentity : Option String) (channels : List ChatChannel) (clubNames : ClubNames)
    (ops : List AnyOp) {s : ProductSession} (hs : s = reached lowercase times clock id clientVersion
      startedAt product localIdentity channels clubNames ops)
    (hbegun : s.Begun) (hunended : s.Unended) (feed : Feed) (hrows : feed[id]? = some s.tables)
    (honly : ∀ (other : String) (t : SessionTables) (row : SessionRow), feed[other]? = some t →
      t.session = some row → row.product = product.wire → other = id) :
    feed.Shows product.wire id s.tables ↔ product = .starCraft2 ∧
      ∃ (key : String) (row : ChannelRow), s.tables.channels[key]? = some row ∧
        row.closedAt = none := by
  obtain ⟨hinv, hproduct⟩ : Inv ⟨id, product.wire, clientVersion, startedAt⟩ s ∧
      (s.IsSc2 ↔ product = .starCraft2) := by
    rw [hs, reached]
    refine run_invariant' (I := fun s => Inv ⟨id, product.wire, clientVersion, startedAt⟩ s ∧
      (s.IsSc2 ↔ product = .starCraft2)) (fun s op h => ?_) ⟨inv_start .., isSc2_start ..⟩ ops
    exact ⟨inv_step h.1 op, (isSc2_step op).trans h.2⟩
  cases htap : s.tap with
  | classic tapped =>
    have hnot : ¬ product = .starCraft2 := by
      rw [← hproduct]
      rintro ⟨tapped', htap'⟩
      rw [htap] at htap'
      cases htap'
    exact iff_of_false (not_shows_of_unsynced hrows (hinv.classic tapped htap))
      fun h => hnot h.1
  | sc2 tapped =>
    have hsynced : ∃ dto ∈ s.sent, dto.Conforms ∧ dto.kind = .sessionSynced := by
      obtain ⟨dto, hmem, hconforms, hcompletes⟩ := hbegun
      refine ⟨dto, hmem, hconforms, ?_⟩
      rw [htap] at hcompletes
      cases hkind : dto.kind with
      | sessionSynced => rfl
      | _ => rw [hkind] at hcompletes; cases hcompletes
    obtain ⟨-, -, htracks⟩ := hinv.sc2 tapped htap hunended
    obtain ⟨row, hrow⟩ := Option.isSome_iff_exists.1 (htracks.made hsynced)
    obtain ⟨-, hopen, hmarked⟩ := htracks.row row hrow
    rw [Feed.shows_iff ⟨hrows, hinv.product, honly⟩ hrow hopen, Feed.hasOpenChannel_iff]
    exact and_congr (iff_of_true (hmarked.2 hsynced) (hproduct.1 ⟨tapped, htap⟩)) Iff.rfl

/-! ## A StarCraft II session and a Remastered one -/

/-- A feed with one session. -/
def soleFeed (id : String) (t : SessionTables) : Feed := (∅ : Feed).insert id t

theorem eq_of_soleFeed {id other : String} {t t' : SessionTables}
    (h : (soleFeed id t)[other]? = some t') : other = id := by
  by_contra hne
  rw [soleFeed, getElem?_insert_of_ne (Ne.symm hne), ExtTreeMap.getElem?_empty] at h
  cases h

/-- A group is joined and its roster comes in. -/
def groupJoined : ProductSession :=
  reached WatchedTap.asciiLowercase id id "s" "1" 1 .starCraft2 none [.club 5] ∅
    [.sc2 (.observe (.joined 1 (.club 5) 7)),
      .sc2 (.observe (.roster ⟨1, true, [⟨7, some "Kerrigan", none, none, .available⟩]⟩))]

theorem visible_iff_groupJoined : (soleFeed "s" groupJoined.tables).Shows .sc2 "s"
    groupJoined.tables ↔ Product.starCraft2 = .starCraft2 ∧
      ∃ (key : String) (row : ChannelRow), groupJoined.tables.channels[key]? = some row ∧
        row.closedAt = none :=
  visible_iff WatchedTap.asciiLowercase id id "s" "1" 1 .starCraft2 none [.club 5] ∅ _ rfl
    (by decide +kernel) (by decide +kernel) _ ExtTreeMap.getElem?_insert_self
    fun _ _ _ h _ _ => eq_of_soleFeed h

/-- A room with one member. -/
def roomSnapshot : ProductSession :=
  reached WatchedTap.asciiLowercase id id "s" "1" 1 .remastered none [] ∅
    [.classic (WatchedTap.publicChannel ["Darko"]).op]

/-- Its events are all stored, but the read side has no session to show. -/
theorem roomSnapshot_invisible : roomSnapshot.Begun ∧ roomSnapshot.Unended ∧
    ¬ (soleFeed "s" roomSnapshot.tables).Shows .scr "s" roomSnapshot.tables := by
  refine ⟨by decide +kernel, by decide +kernel, fun hshows => ?_⟩
  have hnone : ((soleFeed "s" roomSnapshot.tables).snapshotSession (some .scr)).map (·.1) =
      none := by
    decide +kernel
  rw [hshows.snapshot] at hnone
  cases hnone

end ProductSession

end Superiority
