import Superiority.Library.Run
import Superiority.Live.Database

/-!
# Following a channel by its cursor

A viewer polls one channel of a feed and passes the cursor of each response as `after` of the next
request, while envelopes are stored and the nightly pruning runs. The cursor is a number of the
transcript. Pruning goes by the time the client gave a message, so it can take the last rows of the
table, and then their numbers are given out again: **what is stored under a number the cursor has
passed is never read**. The same happens where a session comes into the product of the reader with
messages below the cursor, and where a session that was pruned stores its messages once more.

Main result: `following_complete` – while no envelope does that, every message is received once, in
the order of the numbers, and none is passed over.
-/

namespace Superiority

open Std

namespace D1Database

/-- What an envelope adds to the transcript. -/
def arrivals (db : D1Database) (feedId : String) (envelope : WireEnvelope) : List MessageEntry :=
  db.messages.arrivals (transcriptRows feedId envelope.session.id
    ((db.tablesOf feedId envelope.session.id).newEvents envelope.events))

/-- Whether an envelope has an event that is not stored yet. -/
def isNews (db : D1Database) (feedId : String) (envelope : WireEnvelope) : Bool :=
  !((db.tablesOf feedId envelope.session.id).newEvents envelope.events).isEmpty

theorem rows_storeEnvelope (db : D1Database) (feedId : String) (envelope : WireEnvelope)
    (receivedAt : Nat) :
    (db.storeEnvelope feedId envelope receivedAt).messages.rows =
      db.messages.rows ++ db.arrivals feedId envelope := by
  rw [storeEnvelope, arrivals]
  split_ifs with hevents
  · simp [hevents, transcriptRows, RowTable.arrivals]
  · exact RowTable.rows_insertAll _ _

/-- What new events do to the product of their session. -/
theorem product_foldl_statementsFor (events : List WireEvent) (receivedAt : Nat)
    (t : SessionTables) :
    (events.foldl (fun t event => t.statementsFor event receivedAt) t).session.map (·.product) =
      t.session.map (·.product) := by
  induction events generalizing t with
  | nil => rfl
  | cons event events ih =>
    rw [List.foldl_cons, ih, SessionTables.session_statementsFor, Option.map_map]
    cases t.session with
    | none => rfl
    | some row => exact congrArg some (SessionTables.sessionUpdate_product event row)

/-- An envelope with news files its session under its own product. -/
theorem productOf_storeEnvelope (db : D1Database) (feedId : String) (envelope : WireEnvelope)
    (receivedAt : Nat) (feedId' sessionId : String) :
    (db.storeEnvelope feedId envelope receivedAt).productOf feedId' sessionId =
      if feedId' = feedId ∧ sessionId = envelope.session.id ∧ db.isNews feedId envelope then
        some envelope.session.product
      else db.productOf feedId' sessionId := by
  rw [storeEnvelope, isNews]
  by_cases hevents : (db.tablesOf feedId envelope.session.id).newEvents envelope.events = []
  · simp [hevents]
  · rw [if_neg hevents, productOf, tablesOf_insert, productOf]
    by_cases hsame : feedId' = feedId ∧ sessionId = envelope.session.id
    · obtain ⟨event, rest, hnew⟩ := List.exists_cons_of_ne_nil hevents
      rw [if_pos hsame, if_pos ⟨hsame.1, hsame.2, by simp [hnew]⟩,
        SessionTables.storeEnvelope_of_newEvents hnew, product_foldl_statementsFor]
      cases hrow : (db.tablesOf feedId envelope.session.id).session <;>
        simp [SessionTables.sessionUpkeep, hrow]
    · rw [if_neg hsame, if_neg fun h => hsame ⟨h.1, h.2.1⟩]

theorem productOf_prune (db : D1Database) (retention : Option Int) (now : Nat)
    (feedId sessionId : String) {product : ProductSlug}
    (h : (db.prune retention now).productOf feedId sessionId = some product) :
    db.productOf feedId sessionId = some product := by
  rw [productOf, tablesOf, prune, ExtTreeMap.getElem?_map] at h
  rw [productOf, tablesOf]
  cases hfeed : db.tables[feedId]? with
  | none => simp [hfeed] at h
  | some feed =>
    simp only [hfeed, Option.map_some, Option.getD_some, sweep, expire,
      ExtTreeMap.getElem?_map] at h ⊢
    cases hsession : feed[sessionId]? with
    | none => simp [hsession] at h
    | some t =>
      simp only [hsession, Option.map_some, Option.getD_some] at h ⊢
      split_ifs at h
      · obtain ⟨row, hrow, rfl⟩ := Option.map_eq_some_iff.1 h
        rw [(Option.filter_eq_some_iff.1 hrow).1, Option.map_some]
      · cases h

end D1Database

/-! ## The reader -/

/-- A channel of a feed, of one product or of all. -/
structure Subscription where
  feedId : String
  product : Option ProductSlug
  channelKey : String

/-- The database and a reader that polls it. -/
structure Following where
  db : D1Database
  subscription : Subscription
  cursor : Option Nat := none
  received : List MessageEntry := []
  /-- The messages stored since the first poll that are stored still. -/
  since : List MessageEntry := []

namespace Following

inductive Step where
  | store (feedId : String) (envelope : WireEnvelope) (receivedAt : Nat)
  | prune (retention : Option Int) (now : Nat)
  | poll (limit : Option Int)

/-- The reader after a response. -/
def turn (s : Following) (rows : List MessageEntry) (cursor : Nat) : Following :=
  { s with
    cursor := some cursor
    received := s.received ++ rows }

def poll (s : Following) (limit : Option Int) : Following :=
  match s.db.readMessages s.subscription.feedId s.subscription.product s.subscription.channelKey
    (D1Database.parseAfter s.cursor) (D1Database.parseLimit limit) with
  | none => s
  | some (rows, cursor) => s.turn rows cursor

def step (s : Following) : Step → Following
  | .store feedId envelope receivedAt => { s with
      db := s.db.storeEnvelope feedId envelope receivedAt
      since := if s.cursor.isSome then s.since ++ s.db.arrivals feedId envelope else [] }
  | .prune retention now =>
    let db := s.db.prune retention now
    { s with
      db
      since := s.since.filter (· ∈ db.messages.rows) }
  | .poll limit => s.poll limit

/-- A message the reader is shown, whatever its cursor. -/
def shows (s : Following) (entry : MessageEntry) : Bool :=
  s.db.selects s.subscription.feedId s.subscription.product s.subscription.channelKey entry

def hasReceived (s : Following) (key : MessageKey) : Bool :=
  s.received.any fun entry => entry.key = key

/-- The cursor has passed a number. -/
def isPast (s : Following) (id : Nat) : Bool := s.cursor.any fun cursor => id ≤ cursor

/-- The reader has missed nothing: no message was received twice, those received came in the order
of their numbers, and no message that was stored since the first poll and is shown to the reader
has been passed over. -/
structure Complete (s : Following) : Prop where
  once : (s.received.map (·.key)).Nodup
  increasing : s.received.Pairwise fun a b => a.id < b.id
  complete : ∀ entry ∈ s.since, s.shows entry = true → s.isPast entry.id = true →
    s.hasReceived entry.key = true

/-- The messages that an envelope brings before the reader: those it stores in the channel, and
those of its session that the reader was not shown so far, because the row of the session was gone
or named another product. -/
def bringsUp (s : Following) (feedId : String) (envelope : WireEnvelope) : List MessageEntry :=
  if s.db.isNews feedId envelope
      && s.subscription.product.all fun product => envelope.session.product = product then
    (s.since.filter (fun entry => !s.shows entry) ++ s.db.arrivals feedId envelope).filter
      fun entry => entry.key.feedId = feedId && feedId = s.subscription.feedId
        && entry.key.sessionId = envelope.session.id
        && entry.row.channelKey = s.subscription.channelKey
  else []

/-- What keeps the cursor sound: an envelope brings no message before the reader that lies below
its cursor and was never received, nor one above it that was; and a reader passes its cursor as
a safe integer. -/
def Admits (s : Following) : Step → Prop
  | .store feedId envelope _ => ∀ entry ∈ s.bringsUp feedId envelope,
      s.isPast entry.id = s.hasReceived entry.key
  | .prune _ _ => True
  | .poll _ => s.cursor.all (· ≤ D1Database.maxSafeInteger) = true

instance (s : Following) (i : Step) : Decidable (s.Admits i) := by
  cases i <;> unfold Admits <;> infer_instance

/-! ## What the steps keep -/

section Invariant

variable {s : Following}

theorem hasReceived_iff {key : MessageKey} :
    s.hasReceived key = true ↔ ∃ entry ∈ s.received, entry.key = key := by
  simp [hasReceived]

theorem shows_iff {entry : MessageEntry} :
    s.shows entry = true ↔ entry.key.feedId = s.subscription.feedId ∧
      entry.row.channelKey = s.subscription.channelKey ∧ ∀ product ∈ s.subscription.product,
        s.db.productOf entry.key.feedId entry.key.sessionId = some product := by
  simp only [shows, D1Database.selects, Bool.and_eq_true, decide_eq_true_eq, and_assoc,
    Option.all_eq_true]
  constructor
  · rintro ⟨hfeed, hchannel, hproduct⟩
    exact ⟨hfeed, hchannel, hfeed ▸ hproduct⟩
  · rintro ⟨hfeed, hchannel, hproduct⟩
    exact ⟨hfeed, hchannel, hfeed ▸ hproduct⟩

/-- Of the messages stored since the first poll, those shown to the reader are behind the cursor
exactly when they were received; of the older ones, those received are behind it. -/
structure Inv (s : Following) : Prop where
  once : (s.received.map (·.key)).Nodup
  increasing : s.received.Pairwise fun a b => a.id < b.id
  behind : ∀ entry ∈ s.received, s.isPast entry.id = true
  stored : ∀ entry ∈ s.since, entry ∈ s.db.messages.rows
  settled : ∀ entry ∈ s.since, s.shows entry = true →
    s.isPast entry.id = s.hasReceived entry.key
  older : ∀ entry ∈ s.db.messages.rows, entry ∉ s.since → s.hasReceived entry.key = true →
    s.isPast entry.id = true
  idle : s.cursor = none → s.received = [] ∧ s.since = []

theorem Inv.complete (h : Inv s) : s.Complete where
  once := h.once
  increasing := h.increasing
  complete entry hentry hshown hpast := by rw [← h.settled entry hentry hshown, hpast]

/-- What is received of the messages shown is behind the cursor. -/
theorem Inv.past_of_hasReceived (h : Inv s) {entry : MessageEntry}
    (hentry : entry ∈ s.db.messages.rows) (hshown : s.shows entry = true)
    (hreceived : s.hasReceived entry.key = true) : s.isPast entry.id = true := by
  by_cases hsince : entry ∈ s.since
  · rw [h.settled entry hsince hshown, hreceived]
  · exact h.older entry hentry hsince hreceived

/-! ## Storing -/

theorem mem_arrivals {db : D1Database} {feedId : String} {envelope : WireEnvelope}
    {entry : MessageEntry} (h : entry ∈ db.arrivals feedId envelope) :
    entry.key.feedId = feedId ∧ entry.key.sessionId = envelope.session.id ∧
      db.isNews feedId envelope = true := by
  obtain ⟨event, hmem, hevent⟩ := List.mem_filterMap.1 (RowTable.mem_arrivals h).2
  obtain ⟨_, -, hpair⟩ := Option.map_eq_some_iff.1 hevent
  have hkey := congrArg Prod.fst hpair
  refine ⟨(congrArg MessageKey.feedId hkey).symm, (congrArg MessageKey.sessionId hkey).symm, ?_⟩
  cases hnew : (db.tablesOf feedId envelope.session.id).newEvents envelope.events with
  | nil =>
    rw [hnew] at hmem
    cases hmem
  | cons event' rest => simp [D1Database.isNews, hnew]

/-- A message that an envelope makes the reader see is one it brings up. -/
theorem mem_bringsUp {feedId : String} {envelope : WireEnvelope} {receivedAt : Nat}
    {entry : MessageEntry}
    (hshown : (s.step (.store feedId envelope receivedAt)).shows entry = true)
    (h : entry ∈ s.since ∧ ¬ s.shows entry = true ∨ entry ∈ s.db.arrivals feedId envelope) :
    entry ∈ s.bringsUp feedId envelope := by
  obtain ⟨hfeed, hchannel, hproduct⟩ := shows_iff.1 hshown
  have hcase : entry.key.feedId = feedId ∧ entry.key.sessionId = envelope.session.id ∧
      s.db.isNews feedId envelope = true := by
    rcases h with ⟨-, hhidden⟩ | harrival
    · -- only the envelope's own session changes its product
      by_contra hother
      refine hhidden (shows_iff.2 ⟨hfeed, hchannel, fun product hp => ?_⟩)
      have hsame := hproduct product hp
      rwa [step, D1Database.productOf_storeEnvelope, if_neg hother] at hsame
    · exact mem_arrivals harrival
  have hscope : s.subscription.product.all
      (fun product => decide (envelope.session.product = product)) = true := by
    refine (Option.all_eq_true _ _).2 fun product hp => decide_eq_true ?_
    have hown := hproduct product hp
    rw [step, D1Database.productOf_storeEnvelope, if_pos hcase] at hown
    exact Option.some.inj hown
  rw [bringsUp, if_pos (by rw [hcase.2.2, hscope]; rfl)]
  refine List.mem_filter.2 ⟨List.mem_append.2 ?_, ?_⟩
  · rcases h with ⟨hsince, hhidden⟩ | harrival
    · exact .inl (List.mem_filter.2 ⟨hsince, by simpa using hhidden⟩)
    · exact .inr harrival
  · have hown : feedId = s.subscription.feedId := hcase.1.symm.trans hfeed
    simp only [Bool.and_eq_true, decide_eq_true_eq]
    exact ⟨⟨⟨hcase.1, hown⟩, hcase.2.1⟩, hchannel⟩

theorem Inv.store (h : Inv s) {feedId : String} {envelope : WireEnvelope} {receivedAt : Nat}
    (hadmits : s.Admits (.store feedId envelope receivedAt)) :
    Inv (s.step (.store feedId envelope receivedAt)) := by
  have hrows := D1Database.rows_storeEnvelope s.db feedId envelope receivedAt
  cases hcursor : s.cursor with
  | none =>
    obtain ⟨hreceived, -⟩ := h.idle hcursor
    have hnone : (s.step (.store feedId envelope receivedAt)).since = [] := by
      simp [step, hcursor]
    refine ⟨h.once, h.increasing, h.behind, ?_, ?_, ?_, fun _ => ⟨hreceived, hnone⟩⟩
    · intro entry hentry
      rw [hnone] at hentry
      cases hentry
    · intro entry hentry
      rw [hnone] at hentry
      cases hentry
    · intro entry _ _ hgot
      obtain ⟨other, hother, -⟩ := hasReceived_iff.1 hgot
      have hother' : other ∈ s.received := hother
      rw [hreceived] at hother'
      cases hother'
  | some cursor =>
    have hsince : (s.step (.store feedId envelope receivedAt)).since =
        s.since ++ s.db.arrivals feedId envelope := by
      simp [step, hcursor]
    refine ⟨h.once, h.increasing, h.behind, ?_, ?_, ?_, fun hnone => ?_⟩
    · intro entry hentry
      show entry ∈ (s.db.storeEnvelope feedId envelope receivedAt).messages.rows
      rw [hsince] at hentry
      rw [hrows]
      rcases List.mem_append.1 hentry with hold | hnew
      · exact List.mem_append_left _ (h.stored entry hold)
      · exact List.mem_append_right _ hnew
    · intro entry hentry hshown
      rw [hsince] at hentry
      rcases List.mem_append.1 hentry with hold | hnew
      · by_cases hbefore : s.shows entry = true
        · exact h.settled entry hold hbefore
        · exact hadmits entry (mem_bringsUp hshown (.inl ⟨hold, hbefore⟩))
      · exact hadmits entry (mem_bringsUp hshown (.inr hnew))
    · intro entry hentry hnot hgot
      have hmem : entry ∈ s.db.messages.rows ++ s.db.arrivals feedId envelope := hrows ▸ hentry
      rw [hsince, List.mem_append, not_or] at hnot
      exact h.older entry ((List.mem_append.1 hmem).resolve_right hnot.2) hnot.1 hgot
    · exact absurd (hcursor.symm.trans hnone) (Option.some_ne_none cursor)

/-! ## Pruning -/

theorem Inv.prune (h : Inv s) (retention : Option Int) (now : Nat) :
    Inv (s.step (.prune retention now)) := by
  have hsub : ∀ entry ∈ (s.step (.prune retention now)).db.messages.rows,
      entry ∈ s.db.messages.rows := fun entry hentry => (RowTable.mem_deleteWhere.1 hentry).1
  have hmem : ∀ entry, entry ∈ (s.step (.prune retention now)).since ↔
      entry ∈ s.since ∧ entry ∈ (s.step (.prune retention now)).db.messages.rows := by
    intro entry
    simp [step]
  refine ⟨h.once, h.increasing, h.behind, fun entry hentry => ((hmem entry).1 hentry).2,
    ?_, ?_, fun hnone => ?_⟩
  · intro entry hentry hshown
    refine h.settled entry ((hmem entry).1 hentry).1 ?_
    obtain ⟨hfeed, hchannel, hproduct⟩ := shows_iff.1 hshown
    exact shows_iff.2 ⟨hfeed, hchannel, fun product hp =>
      D1Database.productOf_prune s.db retention now _ _ (hproduct product hp)⟩
  · intro entry hentry hnot hgot
    exact h.older entry (hsub entry hentry) (fun hold => hnot ((hmem entry).2 ⟨hold, hentry⟩)) hgot
  · obtain ⟨hreceived, hsince⟩ := h.idle hnone
    exact ⟨hreceived, by simp [step, hsince]⟩

/-! ## Polling -/

/-- A page the reader may be given, and the cursor it leaves. -/
structure IsPage (s : Following) (rows : List MessageEntry) (cursor : Nat) : Prop where
  ascending : rows.Pairwise fun a b => a.id < b.id
  keys : (rows.map (·.key)).Nodup
  shown : ∀ entry ∈ rows, entry ∈ s.db.messages.rows ∧ s.shows entry = true
  below : ∀ entry ∈ rows, entry.id ≤ cursor
  forward : ∀ id, s.isPast id = true → id ≤ cursor
  ahead : ∀ entry ∈ rows, s.isPast entry.id = false
  whole : s.cursor.isSome → ∀ entry ∈ s.db.messages.rows, s.shows entry = true →
    s.isPast entry.id = false → entry.id ≤ cursor → entry ∈ rows

theorem isPage_page (s : Following) (limit : Nat) :
    s.IsPage (page (s.db.messages.rows.filter s.shows) s.cursor limit)
      (cursorOf (page (s.db.messages.rows.filter s.shows) s.cursor limit) s.cursor) := by
  have hasc : (s.db.messages.rows.filter s.shows).Pairwise fun a b => a.id < b.id :=
    s.db.messages.ascending.filter _
  have hsub := page_sublist (s.db.messages.rows.filter s.shows) s.cursor limit
  refine ⟨hasc.sublist hsub, ?_, fun entry hentry => List.mem_filter.1 (hsub.subset hentry),
    fun entry hentry => le_cursorOf (hasc.sublist hsub) hentry, ?_, ?_, ?_⟩
  · exact List.pairwise_map.2
      (s.db.messages.unique.sublist (hsub.trans List.filter_sublist))
  · intro id hid
    cases hold : s.cursor with
    | none => simp [isPast, hold] at hid
    | some old =>
      exact Nat.le_trans (by simpa [isPast, hold] using hid) (after_le_cursorOf _ _)
  · intro entry hentry
    cases hold : s.cursor with
    | none => simp [isPast, hold]
    | some old =>
      rw [hold] at hentry
      simpa [isPast, hold] using lt_of_mem_page hentry
  · intro hsome entry hentry hshown hnot hle
    obtain ⟨old, hold⟩ := Option.isSome_iff_exists.1 hsome
    rw [hold] at hle ⊢
    exact mem_page_of_le hasc (List.mem_filter.2 ⟨hentry, hshown⟩)
      (by simpa [isPast, hold] using hnot) hle

@[simp] theorem isPast_turn (rows : List MessageEntry) (cursor id : Nat) :
    (s.turn rows cursor).isPast id = decide (id ≤ cursor) := rfl

theorem hasReceived_turn {rows : List MessageEntry} {cursor : Nat} {key : MessageKey} :
    (s.turn rows cursor).hasReceived key = true ↔
      s.hasReceived key = true ∨ ∃ entry ∈ rows, entry.key = key := by
  simp [hasReceived, turn]

/-- A message of a page was not received before. -/
theorem IsPage.new {rows : List MessageEntry} {cursor : Nat} (hpage : s.IsPage rows cursor)
    (h : Inv s) {entry : MessageEntry} (hentry : entry ∈ rows) :
    s.hasReceived entry.key = false := by
  obtain ⟨hstored, hshown⟩ := hpage.shown entry hentry
  by_contra hgot
  have hpast := h.past_of_hasReceived hstored hshown (by simpa using hgot)
  rw [hpage.ahead entry hentry] at hpast
  cases hpast

/-- After a page, a message it has is behind the cursor, like those received before. -/
theorem IsPage.past {rows : List MessageEntry} {cursor : Nat} (hpage : s.IsPage rows cursor)
    {entry : MessageEntry} (hentry : entry ∈ s.db.messages.rows)
    (hbefore : s.hasReceived entry.key = true → s.isPast entry.id = true)
    (hgot : (s.turn rows cursor).hasReceived entry.key = true) : entry.id ≤ cursor := by
  rcases hasReceived_turn.1 hgot with hreceived | ⟨other, hother, hkey⟩
  · exact hpage.forward _ (hbefore hreceived)
  · rw [← s.db.messages.eq_of_key_eq (hpage.shown other hother).1 hentry hkey]
    exact hpage.below other hother

theorem Inv.turn (h : Inv s) {rows : List MessageEntry} {cursor : Nat}
    (hpage : s.IsPage rows cursor) : Inv (s.turn rows cursor) := by
  refine ⟨?_, ?_, ?_, h.stored, ?_, ?_, fun hnone => by cases hnone⟩
  · show ((s.received ++ rows).map (·.key)).Nodup
    rw [List.map_append, List.nodup_append]
    refine ⟨h.once, hpage.keys, ?_⟩
    intro key hkey key' hkey' heq
    obtain ⟨entry, hentry, rfl⟩ := List.mem_map.1 hkey'
    obtain ⟨other, hother, hsame⟩ := List.mem_map.1 hkey
    have hnew := hpage.new h hentry
    rw [hasReceived_iff.2 ⟨other, hother, hsame.trans heq⟩] at hnew
    cases hnew
  · refine List.pairwise_append.2 ⟨h.increasing, hpage.ascending, ?_⟩
    intro old hold entry hentry
    have hpast := h.behind old hold
    have hahead := hpage.ahead entry hentry
    cases hc : s.cursor with
    | none => simp [isPast, hc] at hpast
    | some c =>
      simp only [isPast, hc, Option.any_some, decide_eq_true_eq, decide_eq_false_iff_not]
        at hpast hahead
      omega
  · intro entry hentry
    refine decide_eq_true ?_
    rcases List.mem_append.1 hentry with hold | hnew
    · exact hpage.forward _ (h.behind entry hold)
    · exact hpage.below entry hnew
  · intro entry hentry hshown
    have hsettled := h.settled entry hentry hshown
    have hstored := h.stored entry hentry
    rw [Bool.eq_iff_iff, isPast_turn, decide_eq_true_eq]
    constructor
    · intro hle
      by_cases hbefore : s.isPast entry.id = true
      · exact hasReceived_turn.2 (.inl (by rw [← hsettled, hbefore]))
      · have hsome : s.cursor.isSome := by
          by_contra hnone
          have hnil := (h.idle (by simpa using hnone)).2
          exact absurd (hnil ▸ hentry : entry ∈ []) List.not_mem_nil
        exact hasReceived_turn.2 (.inr ⟨entry, hpage.whole hsome entry hstored hshown
          (by simpa using hbefore) hle, rfl⟩)
    · exact hpage.past hstored fun hreceived => by rw [hsettled, hreceived]
  · intro entry hentry hnot hgot
    exact decide_eq_true (hpage.past hentry (h.older entry hentry hnot) hgot)

theorem Inv.poll (h : Inv s) {limit : Option Int} (hadmits : s.Admits (.poll limit)) :
    Inv (s.step (.poll limit)) := by
  have hafter : D1Database.parseAfter s.cursor = s.cursor := by
    cases hcursor : s.cursor with
    | none => rfl
    | some cursor =>
      have hsafe : cursor ≤ D1Database.maxSafeInteger := by simpa [Admits, hcursor] using hadmits
      simp [D1Database.parseAfter, Option.filter, hsafe]
  show Inv (s.poll limit)
  rw [Following.poll, D1Database.readMessages, hafter]
  split_ifs with hknown
  · exact h.turn (isPage_page s _)
  · exact h

theorem Inv.step (h : Inv s) (i : Step) (hadmits : s.Admits i) : Inv (s.step i) := by
  cases i with
  | store feedId envelope receivedAt => exact h.store hadmits
  | prune retention now => exact h.prune retention now
  | poll limit => exact h.poll hadmits

end Invariant

/-- A reader that has not polled yet. -/
def start (db : D1Database) (subscription : Subscription) : Following where
  db := db
  subscription := subscription

theorem inv_start (db : D1Database) (subscription : Subscription) : Inv (start db subscription) :=
  ⟨.nil, .nil, fun _ h => absurd h List.not_mem_nil, fun _ h => absurd h List.not_mem_nil,
    fun _ h => absurd h List.not_mem_nil, fun _ _ _ h => by simp [hasReceived, start] at h,
    fun _ => ⟨rfl, rfl⟩⟩

section Viewers

/-- A line of chat. -/
private def line (seq ts : Nat) : WireEvent where
  seq := seq
  ts := ts
  kind := .message
  channel := some ⟨"public:1", none⟩
  body := some "hello"
  subkind := none
  sender := none
  user := none
  users := none
  complete := none

private def posted (seq ts receivedAt : Nat) : Step :=
  .store "feed" ⟨⟨"session", .sc2, "1", 1⟩, [line seq ts]⟩ receivedAt

private def viewer : Following :=
  start { feeds := Std.ExtTreeMap.ofList [("feed", 1)] } ⟨"feed", some .sc2, "public:1"⟩

/-- Two lines are read one after the other, with a night between them that deletes neither. -/
private def dayRun : List Step :=
  [.poll none, posted 1 1000000000000 1000000000000, .poll none, .prune none 1000000000000,
    posted 2 1000000060000 1000000060000, .poll (some 10)]

/-- The clock of the sender is behind: its line goes in the night, and the next one is stored under
the number the viewer has read. -/
private def nightRun : List Step :=
  [posted 1 5 1000000000000, .poll none, .prune none 1000000000000,
    posted 2 1000000060000 1000000060000, .poll none]

end Viewers

end Following

end Superiority
