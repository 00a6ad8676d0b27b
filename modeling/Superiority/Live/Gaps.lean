import Superiority.Live.Tap

/-!
# Sequence gaps

Every event a tap offers to its channel burns a sequence number, whether the channel takes it or
not, and so do the markers that report earlier losses. An `Offer` is one such try. From a tap and
what it offers everything else follows: the numbers that arrive increase, and each number that
does not arrive is reported by a marker that did or still waits to be reported.
-/

namespace Superiority

namespace SessionTap

/-- One try to put an event on the channel. `report` is the number of losses it reports when
`emit` puts it in front of an event, 0 for the events themselves. -/
structure Offer where
  dto : EventDto
  report : Nat
  taken : Bool
  deriving DecidableEq

/-- The offers the channel took. -/
def takenOf (offers : List Offer) : List Offer := offers.filter (·.taken)

/-- The offers that did not fit. -/
def refusedOf (offers : List Offer) : List Offer := offers.filter (!·.taken)

/-- The losses that the offers report. -/
def reported (offers : List Offer) : Nat := (offers.map (·.report)).sum

theorem takenOf_append (os os' : List Offer) : takenOf (os ++ os') = takenOf os ++ takenOf os' :=
  List.filter_append ..

theorem refusedOf_append (os os' : List Offer) :
    refusedOf (os ++ os') = refusedOf os ++ refusedOf os' :=
  List.filter_append ..

theorem reported_append (os os' : List Offer) : reported (os ++ os') = reported os + reported os' := by
  simp [reported]

theorem length_takenOf_add_refusedOf (offers : List Offer) :
    (takenOf offers).length + (refusedOf offers).length = offers.length := by
  induction offers with
  | nil => rfl
  | cons o offers ih => cases h : o.taken <;> simp_all [takenOf, refusedOf] <;> omega

/-- Going from `s` to `s'` a tap has offered the events of the given kinds, each loss counted. -/
structure Offers (s : Tapped) (kinds : List EventKind) (offers : List Offer) (s' : Tapped) :
    Prop where
  info : s'.1.info = s.1.info
  seqs : offers.map (·.dto.seq) = List.range' s.1.nextSeq offers.length
  next : s'.1.nextSeq = s.1.nextSeq + offers.length
  channel : s'.2.channel =
    s.2.channel ++ (takenOf offers).map fun o => .event s.1.info.id o.dto
  pending : s'.1.pendingDropped + reported (takenOf offers) =
    s.1.pendingDropped + (refusedOf offers).length
  dropped : s'.2.stats.dropped = s.2.stats.dropped + (refusedOf offers).length
  events : (offers.filter (·.report = 0)).map (·.dto.kind) = kinds
  markers : ∀ o ∈ offers, o.report ≠ 0 → o.dto.kind = .dropped o.report

theorem Offers.refl (s : Tapped) : Offers s [] [] s where
  info := rfl
  seqs := rfl
  next := rfl
  channel := by simp [takenOf]
  pending := rfl
  dropped := rfl
  events := rfl
  markers _ ho := by simp at ho

theorem Offers.trans {s t u : Tapped} {kinds kinds' : List EventKind} {os os' : List Offer}
    (h : Offers s kinds os t) (h' : Offers t kinds' os' u) :
    Offers s (kinds ++ kinds') (os ++ os') u where
  info := h'.info.trans h.info
  seqs := by
    rw [List.map_append, h.seqs, h'.seqs, h.next, List.length_append, List.range'_append_1]
  next := by rw [h'.next, h.next, List.length_append, Nat.add_assoc]
  channel := by
    rw [h'.channel, h.channel, h.info, takenOf_append, List.map_append, List.append_assoc]
  pending := by
    have hfirst := h.pending
    have hsecond := h'.pending
    rw [takenOf_append, refusedOf_append, reported_append, List.length_append]
    omega
  dropped := by
    rw [h'.dropped, h.dropped, refusedOf_append, List.length_append, Nat.add_assoc]
  events := by rw [List.filter_append, List.map_append, h.events, h'.events]
  markers o ho := by
    rcases List.mem_append.1 ho with ho | ho
    · exact h.markers o ho
    · exact h'.markers o ho

variable (clock : Nat → Nat)

/-- An event that is placed is one offer. -/
theorem offers_place (kind : EventKind) (s : Tapped) :
    ∃ offer, Offers s [kind] [offer] (place clock kind s).2 := by
  refine ⟨⟨⟨s.1.nextSeq, clock s.1.nextSeq, kind⟩, 0, (place clock kind s).1⟩, ?_⟩
  unfold place Uplink.trySend Uplink.noteDropped
  by_cases hroom : s.2.room.head?.getD true = true
  · constructor <;> simp [takenOf, refusedOf, reported, hroom]
  · constructor <;> simp [takenOf, refusedOf, reported, hroom]

/-- The marker that `emit` puts in front of an event when losses wait to be reported. -/
def placeMarker (s : Tapped) : Tapped :=
  if s.1.pendingDropped > 0 then
    let (sent, s) := place clock (.dropped s.1.pendingDropped) s
    if sent then ({ s.1 with pendingDropped := 0 }, s.2) else s
  else s

theorem emit_eq (kind : EventKind) (s : Tapped) :
    emit clock kind s = (place clock kind (placeMarker clock s)).2 := rfl

/-- A marker offers no event of its own; one that arrives reports all that was lost before. -/
theorem offers_placeMarker (s : Tapped) : ∃ offers, Offers s [] offers (placeMarker clock s) := by
  unfold placeMarker
  split_ifs with hpending
  · have hpos : s.1.pendingDropped ≠ 0 := by omega
    refine ⟨[⟨⟨s.1.nextSeq, clock s.1.nextSeq, .dropped s.1.pendingDropped⟩, s.1.pendingDropped,
      (place clock (.dropped s.1.pendingDropped) s).1⟩], ?_⟩
    unfold place Uplink.trySend Uplink.noteDropped
    by_cases hroom : s.2.room.head?.getD true = true
    · constructor <;> simp [takenOf, refusedOf, reported, hroom, hpos]
    · constructor <;> simp [takenOf, refusedOf, reported, hroom, hpos]
  · exact ⟨[], Offers.refl s⟩

theorem offers_emit (kind : EventKind) (s : Tapped) :
    ∃ offers, Offers s [kind] offers (emit clock kind s) := by
  obtain ⟨markers, hmarkers⟩ := offers_placeMarker clock s
  obtain ⟨offer, hoffer⟩ := offers_place clock kind (placeMarker clock s)
  rw [emit_eq]
  exact ⟨markers ++ [offer], hmarkers.trans hoffer⟩

/-- A sequence of `emit_event` calls. -/
def emitAll (kinds : List EventKind) (s : Tapped) : Tapped :=
  kinds.foldl (fun s kind => emit clock kind s) s

theorem offers_emitAll (kinds : List EventKind) (s : Tapped) :
    ∃ offers, Offers s kinds offers (emitAll clock kinds s) := by
  induction kinds generalizing s with
  | nil => exact ⟨[], Offers.refl s⟩
  | cons kind kinds ih =>
    obtain ⟨first, hfirst⟩ := offers_emit clock kind s
    obtain ⟨rest, hrest⟩ := ih (emit clock kind s)
    exact ⟨first ++ rest, hfirst.trans hrest⟩

end SessionTap

end Superiority
