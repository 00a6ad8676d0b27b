import Superiority.Library.Pieces
import Superiority.Sweep.Flushing

/-!
# What a direction holds of a stream

The segments are pieces of one stream `S`, which is shorter than half of the sequence space and
starts at any number. `Holds` says that a direction holds the stream from `a` to `b` and has put
pieces of it aside.

Two things are lost by `add`: of a segment that starts before the bytes held and ends behind them,
what lies behind; and a segment that is put aside is refused when a shorter or longer one with the
same number is already there. `Fits` rules them out, and **`reassembles_iff_eachFits`** says that
with it, and only with it, each call of `add` that returns leaves the largest covered interval.
-/

namespace Superiority.Sweep

open Std

namespace TcpDirection

/-! ## Numbers of a stream -/

/-- The sequence number of byte `i` of a stream. -/
def numberOf (isn : UInt32) (i : Nat) : UInt32 := isn + .ofNat i

variable {S : List UInt8} {isn : UInt32} {d : TcpDirection} {a b i j : Nat}

theorem toNat_numberOf_sub (isn : UInt32) (hi : i < 2 ^ 31) (ha : a < 2 ^ 31) :
    (numberOf isn i - numberOf isn a).toNat = (i + 2 ^ 32 - a) % 2 ^ 32 := by
  have hisn := isn.toNat_lt
  have hi' : (UInt32.ofNat i).toNat = i := UInt32.toNat_ofNat_of_lt' (by show i < 4294967296; omega)
  have ha' : (UInt32.ofNat a).toNat = a := UInt32.toNat_ofNat_of_lt' (by show a < 4294967296; omega)
  simp only [numberOf, UInt32.toNat_sub, UInt32.toNat_add, hi', ha']
  omega

theorem numberOf_inj (hi : i < 2 ^ 31) (ha : a < 2 ^ 31)
    (h : numberOf isn i = numberOf isn a) : i = a := by
  have hdifference := toNat_numberOf_sub isn hi ha
  rw [(eq_iff_toNat_sub _ _).1 h] at hdifference
  omega

/-! ## What is held -/

/-- The piece from `i` to `j` is put aside. -/
structure Aside (S : List UInt8) (isn : UInt32) (d : TcpDirection) (i j : Nat) : Prop where
  nonempty : i < j
  inside : j ≤ S.length
  filed : d.pending[numberOf isn i]? = some (piece S i j)

/-- The stream is held from `a` to `b`, and only pieces of it are put aside. -/
structure Holds (S : List UInt8) (isn : UInt32) (d : TcpDirection) (a b : Nat) : Prop where
  start : d.startSequence = some (numberOf isn a)
  data : d.data = piece S a b
  nonempty : a < b
  inside : b ≤ S.length
  pieces : ∀ (sequence : UInt32) (payload : List UInt8), d.pending[sequence]? = some payload →
    ∃ i j, sequence = numberOf isn i ∧ payload = piece S i j ∧ Aside S isn d i j

theorem Aside.unique (hS : S.length < 2 ^ 31) {i' j' : Nat} (h : Aside S isn d i j)
    (h' : Aside S isn d i' j') (hnumber : numberOf isn i = numberOf isn i') : i = i' ∧ j = j' := by
  have hi := h.nonempty
  have hj := h.inside
  have hi' := h'.nonempty
  have hj' := h'.inside
  obtain rfl := numberOf_inj (by omega) (by omega) hnumber
  have hpiece := Option.some.inj (h.filed.symm.trans h'.filed)
  refine ⟨rfl, piece_end_inj ?_ ?_ hj hj' hpiece⟩ <;> omega

section Place

variable (hS : S.length < 2 ^ 31) (h : Holds S isn d a b) (hij : i < j) (hj : j ≤ S.length)
include hS h hij hj

theorem place_number : d.place (numberOf isn i) (piece S i j) =
    if i < a then d.placeBefore (numberOf isn a) (numberOf isn i) (piece S i j)
    else if b < i then d.putAside (numberOf isn i) (piece S i j)
    else d.placeWithin (numberOf isn a) (numberOf isn i) (piece S i j) := by
  have hnonempty := h.nonempty
  have hinside := h.inside
  have hlength : d.data.length = b - a := by rw [h.data, length_piece hinside]
  have hlt : d.data.length < 2 ^ 32 := by omega
  have hdistance := toNat_numberOf_sub isn (i := i) (a := a) (by omega) (by omega)
  rw [place_of_some h.start (endOf_eq_ok.2 ⟨hlt, rfl⟩) (piece_ne_nil hij hj)]
  have hbefore : 0x80000000 < numberOf isn i - numberOf isn a ↔ i < a := by
    rw [half_lt_iff, hdistance]
    omega
  by_cases hia : i < a
  · rw [if_pos (hbefore.2 hia), if_pos hia]
  · rw [if_neg (mt hbefore.1 hia), if_neg hia]
    have hafter : (numberOf isn i - (numberOf isn a + .ofNat d.data.length) < 0x80000000 ∧
        numberOf isn i ≠ numberOf isn a + .ofNat d.data.length) ↔ b < i := by
      rw [UInt32.lt_iff_toNat_lt, Ne, eq_iff_toNat_sub, toNat_sub_endOf _ _ hlt, hdistance, hlength]
      show (_ < 2147483648 ∧ _) ↔ _
      omega
    by_cases hbi : b < i
    · rw [if_pos (hafter.2 hbi), if_pos hbi]
    · rw [if_neg (mt hafter.1 hbi), if_neg hbi]

/-- A segment that starts before the bytes held and reaches them: what it has behind them is not
taken. -/
theorem place_before (hia : i < a) (haj : a ≤ j) : d.place (numberOf isn i) (piece S i j)
    = .merges { d with startSequence := some (numberOf isn i), data := piece S i b }
      (some d.data.length) := by
  have hnonempty := h.nonempty
  have hinside := h.inside
  have hdistance := toNat_numberOf_sub isn (i := a) (a := i) (by omega) (by omega)
  have hgap : (numberOf isn a - numberOf isn i).toNat = a - i := by omega
  rw [place_number hS h hij hj, if_pos hia]
  unfold placeBefore
  dsimp only
  rw [hgap, length_piece hj, if_pos (by omega), drop_piece, h.data,
    show i + (a - i) = a by omega, length_piece hj, length_piece hinside, take_piece, take_piece,
    show min (a + min (j - a) (b - a)) b = min (a + min (j - a) (b - a)) j by omega,
    if_neg (fun hne => hne rfl), take_piece, show min (i + (a - i)) j = a by omega,
    piece_append (by omega) (by omega)]

theorem place_gap (hja : j < a) : d.place (numberOf isn i) (piece S i j)
    = d.putAside (numberOf isn i) (piece S i j) := by
  have hnonempty := h.nonempty
  have hinside := h.inside
  have hdistance := toNat_numberOf_sub isn (i := a) (a := i) (by omega) (by omega)
  rw [place_number hS h hij hj, if_pos (by omega)]
  unfold placeBefore
  dsimp only
  rw [if_neg]
  rw [length_piece hj]
  omega

theorem place_after (hbi : b < i) : d.place (numberOf isn i) (piece S i j)
    = d.putAside (numberOf isn i) (piece S i j) := by
  have hnonempty := h.nonempty
  rw [place_number hS h hij hj, if_neg (by omega), if_pos hbi]

theorem place_within (hai : a ≤ i) (hib : i ≤ b) : d.place (numberOf isn i) (piece S i j)
    = .merges { d with data := piece S a (max b j) } (some d.data.length) := by
  have hnonempty := h.nonempty
  have hinside := h.inside
  have hdistance := toNat_numberOf_sub isn (i := i) (a := a) (by omega) (by omega)
  have hoffset : (numberOf isn i - numberOf isn a).toNat = i - a := by omega
  rw [place_number hS h hij hj, if_neg (by omega), if_neg (by omega)]
  unfold placeWithin
  dsimp only
  rw [hoffset, h.data, length_piece hinside]
  by_cases hin : i - a < b - a
  · rw [if_pos hin, drop_piece, length_piece hj, show a + (i - a) = i by omega, take_piece,
      take_piece,
      show min (i + min (j - i) (b - a - (i - a))) b
        = min (i + min (j - i) (b - a - (i - a))) j by omega,
      if_neg (fun hne => hne rfl), drop_piece]
    by_cases hjb : j ≤ b
    · rw [piece_eq_nil (i := i + _) (by omega), List.append_nil, max_eq_left hjb]
    · rw [show i + min (j - i) (b - a - (i - a)) = b by omega, piece_append (by omega) (by omega),
        max_eq_right (by omega)]
  · rw [if_neg hin, show i = b by omega, piece_append (by omega) (by omega),
      max_eq_right (by omega)]

end Place

/-! ## What a flush takes in -/

/-- No piece that is put aside starts before the bytes held and ends behind them. -/
def NoneStraddles (S : List UInt8) (isn : UInt32) (d : TcpDirection) (a b : Nat) : Prop :=
  ∀ i j, Aside S isn d i j → i < a → j ≤ b

/-- From holding `[a, b)` a direction has come to hold `[a', b')`, by what it had put aside. -/
structure TakesIn (S : List UInt8) (isn : UInt32) (d : TcpDirection) (a b : Nat)
    (d' : TcpDirection) (a' b' : Nat) : Prop where
  lower : a' ≤ a
  upper : b ≤ b'
  kept : ∀ (sequence : UInt32) (payload : List UInt8), d'.pending[sequence]? = some payload →
    d.pending[sequence]? = some payload
  taken : ∀ i j, Aside S isn d i j → Aside S isn d' i j ∨ a' ≤ i ∧ j ≤ b'
  covers : ∀ x, a' ≤ x → x < b' → (a ≤ x ∧ x < b) ∨ ∃ i j, Aside S isn d i j ∧ i ≤ x ∧ x < j

theorem Aside.of_kept {d' : TcpDirection} (h : Aside S isn d' i j)
    (hkept : ∀ (sequence : UInt32) (payload : List UInt8), d'.pending[sequence]? = some payload →
      d.pending[sequence]? = some payload) : Aside S isn d i j where
  nonempty := h.nonempty
  inside := h.inside
  filed := hkept _ _ h.filed

theorem takesIn_refl : TakesIn S isn d a b d a b where
  lower := Nat.le_refl a
  upper := Nat.le_refl b
  kept := fun _ _ h => h
  taken := fun _ _ h => Or.inl h
  covers := fun _ ha hb => Or.inl ⟨ha, hb⟩

theorem TakesIn.trans {d₁ d₂ : TcpDirection} {a₁ b₁ a₂ b₂ : Nat}
    (h : TakesIn S isn d a b d₁ a₁ b₁) (h' : TakesIn S isn d₁ a₁ b₁ d₂ a₂ b₂) :
    TakesIn S isn d a b d₂ a₂ b₂ where
  lower := Nat.le_trans h'.lower h.lower
  upper := Nat.le_trans h.upper h'.upper
  kept := fun sequence payload hd => h.kept _ _ (h'.kept _ _ hd)
  taken := by
    intro i j haside
    have hlower := h'.lower
    have hupper := h'.upper
    rcases h.taken i j haside with haside | hin
    · exact h'.taken i j haside
    · exact Or.inr (by omega)
  covers := by
    intro x hax hxb
    rcases h'.covers x hax hxb with hin | ⟨i, j, haside, hij⟩
    · exact h.covers x hin.1 hin.2
    · exact Or.inr ⟨i, j, haside.of_kept h.kept, hij⟩

/-- A piece that is taken out of those put aside and joined to the bytes held. -/
theorem takesIn_withdraw (hS : S.length < 2 ^ 31) {merged : TcpDirection} {a' b' : Nat}
    (haside : Aside S isn d i j) (hpending : merged.pending = d.pending.erase (numberOf isn i))
    (hlower : a' ≤ a) (hupper : b ≤ b') (hin : a' ≤ i ∧ j ≤ b')
    (hcovers : ∀ x, a' ≤ x → x < b' → (a ≤ x ∧ x < b) ∨ i ≤ x ∧ x < j) :
    TakesIn S isn d a b merged a' b' where
  lower := hlower
  upper := hupper
  kept := by
    intro sequence payload h
    rw [hpending] at h
    have hleft : (d.withdraw (numberOf isn i)).pending[sequence]? = some payload := h
    exact pending_of_withdraw hleft
  taken := by
    intro i' j' haside'
    by_cases hnumber : numberOf isn i = numberOf isn i'
    · obtain ⟨rfl, rfl⟩ := haside.unique hS haside' hnumber
      exact Or.inr hin
    · refine Or.inl ⟨haside'.nonempty, haside'.inside, ?_⟩
      rw [hpending, getElem?_erase_of_ne hnumber]
      exact haside'.filed
  covers := by
    intro x hax hxb
    rcases hcovers x hax hxb with h | h
    · exact Or.inl h
    · exact Or.inr ⟨i, j, haside, h⟩

theorem holds_of_kept {d' : TcpDirection} {a' b' : Nat} (h : Holds S isn d a b)
    (hstart : d'.startSequence = some (numberOf isn a')) (hdata : d'.data = piece S a' b')
    (hnonempty : a' < b') (hinside : b' ≤ S.length)
    (hkept : ∀ (sequence : UInt32) (payload : List UInt8), d'.pending[sequence]? = some payload →
      d.pending[sequence]? = some payload) : Holds S isn d' a' b' where
  start := hstart
  data := hdata
  nonempty := hnonempty
  inside := hinside
  pieces := by
    intro sequence payload hd'
    obtain ⟨i, j, rfl, rfl, haside⟩ := h.pieces _ _ (hkept _ _ hd')
    exact ⟨i, j, rfl, rfl, haside.nonempty, haside.inside, hd'⟩

theorem holds_withdraw (h : Holds S isn d a b) (sequence : UInt32) :
    Holds S isn (d.withdraw sequence) a b :=
  holds_of_kept h h.start h.data h.nonempty h.inside fun _ _ => pending_of_withdraw

/-- What is due next: a piece that starts before the end of the bytes held, or there. -/
theorem aside_of_nextDue (hS : S.length < 2 ^ 31) (h : Holds S isn d a b) {sequence : UInt32}
    {payload : List UInt8} (hdue : d.nextDue = .ok (some (sequence, payload))) :
    ∃ i j, sequence = numberOf isn i ∧ payload = piece S i j ∧ Aside S isn d i j ∧ i ≤ b := by
  obtain ⟨start, endSequence, hstart, hend, hsegment, hpending⟩ := nextDue_eq_some hdue
  obtain ⟨i, j, rfl, rfl, haside⟩ := h.pieces _ _ hpending
  refine ⟨i, j, rfl, rfl, haside, ?_⟩
  obtain rfl := Option.some.inj (h.start.symm.trans hstart)
  obtain ⟨hlt, rfl⟩ := endOf_eq_ok.1 hend
  have hends := (isDue_iff _ _).1 hsegment
  have hi := haside.nonempty
  have hj := haside.inside
  have hab := h.nonempty
  have hb := h.inside
  rw [toNat_sub_endOf _ _ hlt, toNat_numberOf_sub isn (by omega) (by omega), h.data,
    length_piece hb] at hends
  omega

/-- With nothing due, what is put aside lies behind the bytes held. -/
theorem behind_of_nextDue (hS : S.length < 2 ^ 31) (h : Holds S isn d a b)
    (hdue : d.nextDue = .ok none) (haside : Aside S isn d i j) : b < i := by
  have hi := haside.nonempty
  have hj := haside.inside
  have hab := h.nonempty
  have hb := h.inside
  have hlength : d.data.length = b - a := by rw [h.data, length_piece hb]
  have hlt : d.data.length < 2 ^ 32 := by omega
  unfold nextDue at hdue
  rw [h.start] at hdue
  dsimp only at hdue
  rw [endOf_eq_ok.2 ⟨hlt, rfl⟩] at hdue
  have hnone := List.find?_eq_none.1 (Except.ok.inj hdue) _
    (ExtTreeMap.mem_toList_iff_getElem?_eq_some.2 haside.filed)
  dsimp only at hnone
  rw [isDue_iff, toNat_sub_endOf _ _ hlt, toNat_numberOf_sub isn (by omega) (by omega),
    hlength] at hnone
  omega

/-- What a flush ends with. -/
structure Flushed (S : List UInt8) (isn : UInt32) (d : TcpDirection) (a b : Nat)
    (result : Except CaptureError Unit) (d' : TcpDirection) : Prop where
  ok : result = .ok ()
  holds : ∃ a' b', Holds S isn d' a' b' ∧ TakesIn S isn d a b d' a' b' ∧
    ∀ i j, Aside S isn d' i j → b' < i

theorem Flushed.of_takesIn {d₁ d' : TcpDirection} {a₁ b₁ : Nat}
    {result : Except CaptureError Unit} (h : Flushed S isn d₁ a₁ b₁ result d')
    (htaken : TakesIn S isn d a b d₁ a₁ b₁) : Flushed S isn d a b result d' := by
  obtain ⟨a', b', hholds, htaken', hbehind⟩ := h.holds
  exact ⟨h.ok, a', b', hholds, htaken.trans htaken', hbehind⟩

theorem noneStraddles_of_takesIn {d' : TcpDirection} {a' b' : Nat}
    (h : NoneStraddles S isn d a b) (htaken : TakesIn S isn d a b d' a' b') :
    NoneStraddles S isn d' a' b' := by
  intro i j haside hia
  have hlower := htaken.lower
  have hupper := htaken.upper
  have hbefore := h i j (haside.of_kept htaken.kept) (by omega)
  omega

/-- A piece that was put aside is put aside again. -/
theorem returns_of_putAside (haside : Aside S isn d i j) :
    (d.withdraw (numberOf isn i)).putAside (numberOf isn i) (piece S i j)
      = .returns (.ok false) d :=
  putAside_withdraw haside.filed

/-- **A flush that ends has taken in all that is due**, and nothing is refused. -/
theorem flushed_of_flushPending (hS : S.length < 2 ^ 31) {rounds : Nat}
    {result : Except CaptureError Unit} {d' : TcpDirection} (h : Holds S isn d a b)
    (hstraddles : NoneStraddles S isn d a b)
    (hflush : flushPending rounds d = some (result, d')) : Flushed S isn d a b result d' := by
  induction rounds generalizing d a b result d' with
  | zero => cases hflush
  | succ rounds ih =>
    unfold flushPending at hflush
    rcases hdue : d.nextDue with e | _ | ⟨sequence, payload⟩
    · -- the bytes held are too few for this
      have hab := h.nonempty
      have hb := h.inside
      have hlength : d.data.length = b - a := by rw [h.data, length_piece hb]
      have hlt : d.data.length < 2 ^ 32 := by omega
      unfold nextDue at hdue
      rw [h.start] at hdue
      dsimp only at hdue
      rw [endOf_eq_ok.2 ⟨hlt, rfl⟩] at hdue
      cases hdue
    · rw [hdue] at hflush
      cases hflush
      exact ⟨rfl, a, b, h, takesIn_refl, fun i j => behind_of_nextDue hS h hdue⟩
    · obtain ⟨i, j, rfl, rfl, haside, hib⟩ := aside_of_nextDue hS h hdue
      rw [hdue] at hflush
      dsimp only at hflush
      have hwithdrawn := holds_withdraw h (numberOf isn i)
      have hij := haside.nonempty
      have hj := haside.inside
      -- a round that takes the piece in
      have hround {merged : TcpDirection} {previousLen : Option Nat} {m n : Nat}
          (hplace : (d.withdraw (numberOf isn i)).place (numberOf isn i) (piece S i j)
            = .merges merged previousLen) (hmerged : Holds S isn merged m n)
          (htaken : TakesIn S isn d a b merged m n) : Flushed S isn d a b result d' := by
        have hnone := noneStraddles_of_takesIn hstraddles htaken
        unfold addWith at hflush
        rw [hplace] at hflush
        dsimp only at hflush
        rcases hinner : flushPending rounds merged with _ | ⟨inner, d₂⟩
        · rw [hinner] at hflush
          cases hflush
        · obtain ⟨hok, a₂, b₂, hholds, htaken₂, -⟩ := ih hmerged hnone hinner
          subst hok
          rw [hinner] at hflush
          have htaken' := htaken.trans htaken₂
          exact (ih hholds (noneStraddles_of_takesIn hstraddles htaken') hflush).of_takesIn
            htaken'
      by_cases hia : i < a
      · by_cases hja : j < a
        · -- the piece is put aside again, and the next round finds the direction as it was
          unfold addWith at hflush
          rw [place_gap hS hwithdrawn hij hj hja, returns_of_putAside haside] at hflush
          exact ih h hstraddles hflush
        · have hjb := hstraddles i j haside hia
          have hab := h.nonempty
          have hplace := place_before hS hwithdrawn hij hj hia (by omega)
          refine hround (m := i) (n := b) hplace ?_ ?_
          · exact holds_of_kept h rfl rfl (by omega) h.inside fun _ _ => pending_of_withdraw
          · exact takesIn_withdraw hS haside rfl (by omega) (by omega) (by omega)
              fun x _ _ => by omega
      · have hplace := place_within hS hwithdrawn hij hj (by omega) hib
        have hab := h.nonempty
        have hb := h.inside
        refine hround (m := a) (n := max b j) hplace ?_ ?_
        · exact holds_of_kept h h.start rfl (by omega) (by omega) fun _ _ => pending_of_withdraw
        · exact takesIn_withdraw hS haside rfl (by omega) (by omega) (by omega)
            fun x _ _ => by omega

/-! ## Calls of `add` -/

/-- The bytes are those of the largest interval that contains the first piece and is covered. -/
def IsHeld (S : List UInt8) (added : List (Nat × Nat)) (bytes : List UInt8) : Prop :=
  ∃ first a b, added.head? = some first ∧ IsLargest added first a b ∧ bytes = piece S a b

/-- The pieces that have been added are held or put aside. -/
structure Tracks (S : List UInt8) (isn : UInt32) (d : TcpDirection) (added : List (Nat × Nat))
    (first : Nat × Nat) (a b : Nat) : Prop where
  holds : Holds S isn d a b
  apart : ∀ i j, Aside S isn d i j → j < a ∨ b < i
  filed : ∀ p ∈ added, (a ≤ p.1 ∧ p.2 ≤ b) ∨ Aside S isn d p.1 p.2
  known : ∀ i j, Aside S isn d i j → (i, j) ∈ added
  covers : ∀ x, a ≤ x → x < b → Covers added x
  head : added.head? = some first
  nonempty : first.1 < first.2
  inside : a ≤ first.1 ∧ first.2 ≤ b

variable {added : List (Nat × Nat)} {first : Nat × Nat}

theorem isHeld_of_tracks (h : Tracks S isn d added first a b) : IsHeld S added d.data := by
  have hab := h.holds.nonempty
  refine ⟨first, a, b, h.head, ?_, h.holds.data⟩
  refine isLargest_of_gaps h.nonempty ⟨h.inside.1, h.inside.2, h.covers⟩ ?_ ?_
  · intro x hx ⟨p, hp, hpx⟩
    rcases h.filed p hp with hin | haside
    · omega
    · have hapart := h.apart _ _ haside
      omega
  · intro ⟨p, hp, hpx⟩
    rcases h.filed p hp with hin | haside
    · omega
    · have hapart := h.apart _ _ haside
      omega

theorem head_append (h : Tracks S isn d added first a b) (p : Nat × Nat) :
    (added ++ [p]).head? = some first := by
  rw [List.head?_append, h.head, Option.some_or]

/-- The segment does not start before the bytes held and end behind them, and if it is to be put
aside, no other one is with its number. -/
def Fits (isn : UInt32) (S : List UInt8) (d : TcpDirection) (i j : Nat) : Prop :=
  ∀ start, d.startSequence = some start →
    ¬ (i < (start - isn).toNat ∧ (start - isn).toNat + d.data.length < j) ∧
    (j < (start - isn).toNat ∨ (start - isn).toNat + d.data.length < i →
      ∀ previous, d.pending[numberOf isn i]? = some previous → previous = piece S i j)

theorem fits_iff (hS : S.length < 2 ^ 31) (h : Holds S isn d a b) : Fits isn S d i j ↔
    ¬ (i < a ∧ b < j) ∧ (j < a ∨ b < i →
      ∀ previous, d.pending[numberOf isn i]? = some previous → previous = piece S i j) := by
  have hab := h.nonempty
  have hb := h.inside
  have hfrom : (numberOf isn a - isn).toNat = a := by
    have hdistance := toNat_numberOf_sub isn (i := a) (a := 0) (by omega) (by omega)
    rw [show numberOf isn 0 = isn from UInt32.add_zero isn] at hdistance
    omega
  have hlength : a + d.data.length = b := by
    rw [h.data, length_piece hb]
    omega
  constructor
  · intro hfits
    have hstart := hfits _ h.start
    rwa [hfrom, hlength] at hstart
  · intro hfits start hstart
    obtain rfl := Option.some.inj (h.start.symm.trans hstart)
    rwa [hfrom, hlength]

/-- What `add` does with a segment that is taken in. -/
theorem flush_of_add {rounds : Nat} {sequence : UInt32} {payload : List UInt8}
    {result : Except CaptureError Bool} {merged d' : TcpDirection} {previousLen : Option Nat}
    (hplace : d.place sequence payload = .merges merged previousLen)
    (hadd : add rounds d sequence payload = some (result, d')) :
    ∃ flushed, flushPending rounds merged = some (flushed, d') ∧
      (flushed = .ok () → result.isOk = true) := by
  unfold add addWith at hadd
  rw [hplace] at hadd
  dsimp only at hadd
  rcases hflush : flushPending rounds merged with _ | ⟨e | _, d₁⟩
  · rw [hflush] at hadd
    cases hadd
  · rw [hflush] at hadd
    cases hadd
    exact ⟨_, rfl, nofun⟩
  · rw [hflush] at hadd
    cases hadd
    exact ⟨_, rfl, fun _ => rfl⟩

/-- What `add` does with a segment that is put aside. -/
theorem putAside_of_add {rounds : Nat} {sequence : UInt32} {payload : List UInt8}
    {result : Except CaptureError Bool} {d' : TcpDirection}
    (hplace : d.place sequence payload = d.putAside sequence payload)
    (hadd : add rounds d sequence payload = some (result, d')) :
    (∃ previous, d.pending[sequence]? = some previous ∧ previous ≠ payload ∧
      result.isOk = false) ∨
    (∀ previous, d.pending[sequence]? = some previous → previous = payload) ∧
      result = .ok false ∧ d' = { d with pending := d.pending.insert sequence payload } := by
  unfold add addWith at hadd
  rw [hplace] at hadd
  unfold putAside insertPending at hadd
  cases hprevious : d.pending[sequence]? with
  | none =>
    rw [hprevious] at hadd
    cases hadd
    exact Or.inr ⟨nofun, rfl, rfl⟩
  | some previous =>
    by_cases hsame : previous = payload
    · rw [hprevious] at hadd
      simp only [Option.any_some, hsame, ne_eq, not_true_eq_false, decide_false,
        Bool.false_eq_true, if_false] at hadd
      cases hadd
      exact Or.inr ⟨fun other hother => (Option.some.inj hother).symm.trans hsame, rfl, rfl⟩
    · rw [hprevious] at hadd
      simp only [Option.any_some, hsame, ne_eq, not_false_eq_true, decide_true, if_true] at hadd
      cases hadd
      exact Or.inl ⟨previous, rfl, hsame, rfl⟩

section Step

variable (hS : S.length < 2 ^ 31) (h : Tracks S isn d added first a b) (hij : i < j)
  (hj : j ≤ S.length) {rounds : Nat} {result : Except CaptureError Bool} {d' : TcpDirection}
  (hadd : add rounds d (numberOf isn i) (piece S i j) = some (result, d'))
include hS h hij hj hadd

/-- A segment that is put aside. -/
theorem tracks_putAside (haway : j < a ∨ b < i)
    (hfits : ∀ previous, d.pending[numberOf isn i]? = some previous → previous = piece S i j) :
    result.isOk = true ∧ Tracks S isn d' (added ++ [(i, j)]) first a b := by
  have hplace : d.place (numberOf isn i) (piece S i j)
      = d.putAside (numberOf isn i) (piece S i j) := by
    rcases haway with hja | hbi
    · exact place_gap hS h.holds hij hj hja
    · exact place_after hS h.holds hij hj hbi
  rcases putAside_of_add hplace hadd with ⟨previous, hprevious, hne, -⟩ | ⟨-, rfl, rfl⟩
  · exact absurd (hfits previous hprevious) hne
  have haside (i' j' : Nat)
      (haside : Aside S isn
        { d with pending := d.pending.insert (numberOf isn i) (piece S i j) } i' j') :
      i' = i ∧ j' = j ∨ Aside S isn d i' j' := by
    by_cases hnumber : numberOf isn i = numberOf isn i'
    · have hi' := haside.nonempty
      have hj' := haside.inside
      obtain rfl := numberOf_inj (by omega) (by omega) hnumber
      have hfiled := haside.filed
      rw [ExtTreeMap.getElem?_insert_self] at hfiled
      have hend := piece_end_inj (by omega) (by omega) hj hj' (Option.some.inj hfiled)
      exact Or.inl ⟨rfl, hend.symm⟩
    · refine Or.inr ⟨haside.nonempty, haside.inside, ?_⟩
      have hfiled := haside.filed
      rwa [getElem?_insert_of_ne hnumber] at hfiled
  have hnew : Aside S isn
      { d with pending := d.pending.insert (numberOf isn i) (piece S i j) } i j :=
    ⟨hij, hj, ExtTreeMap.getElem?_insert_self⟩
  refine ⟨rfl, ?_, ?_, ?_, ?_, ?_, head_append h _, h.nonempty, h.inside⟩
  · refine ⟨h.holds.start, h.holds.data, h.holds.nonempty, h.holds.inside, ?_⟩
    intro sequence payload hpending
    by_cases hnumber : numberOf isn i = sequence
    · subst hnumber
      rw [ExtTreeMap.getElem?_insert_self] at hpending
      cases hpending
      exact ⟨i, j, rfl, rfl, hnew⟩
    · have hbefore := hpending
      rw [getElem?_insert_of_ne hnumber] at hbefore
      obtain ⟨i', j', rfl, rfl, hold⟩ := h.holds.pieces _ _ hbefore
      exact ⟨i', j', rfl, rfl, hold.nonempty, hold.inside, hpending⟩
  · intro i' j' hi'
    rcases haside i' j' hi' with ⟨rfl, rfl⟩ | hold
    · exact haway
    · exact h.apart i' j' hold
  · intro p hp
    rcases List.mem_append.1 hp with hp | hp
    · rcases h.filed p hp with hin | hold
      · exact Or.inl hin
      · refine Or.inr ⟨hold.nonempty, hold.inside, ?_⟩
        by_cases hnumber : numberOf isn i = numberOf isn p.1
        · have hsame := hfits _ (hnumber ▸ hold.filed)
          rw [← hnumber, ExtTreeMap.getElem?_insert_self, hsame]
        · rw [getElem?_insert_of_ne hnumber]
          exact hold.filed
    · rw [List.mem_singleton.1 hp]
      exact Or.inr hnew
  · intro i' j' hi'
    rcases haside i' j' hi' with ⟨rfl, rfl⟩ | hold
    · exact List.mem_append.2 (Or.inr List.mem_cons_self)
    · exact List.mem_append.2 (Or.inl (h.known i' j' hold))
  · exact fun x hax hxb => covers_append.2 (Or.inl (h.covers x hax hxb))

omit hij hj in
/-- A segment that is taken in whole. -/
theorem tracks_merged {merged : TcpDirection} {previousLen : Option Nat} {m n : Nat}
    (hplace : d.place (numberOf isn i) (piece S i j) = .merges merged previousLen)
    (hmerged : Holds S isn merged m n) (hlower : m ≤ a) (hupper : b ≤ n)
    (hin : m ≤ i ∧ j ≤ n) (hcovers : ∀ x, m ≤ x → x < n → (a ≤ x ∧ x < b) ∨ i ≤ x ∧ x < j) :
    result.isOk = true ∧ ∃ a' b', Tracks S isn d' (added ++ [(i, j)]) first a' b' := by
  obtain ⟨hpending, -⟩ := place_eq_merges hplace
  have haside (i' j' : Nat) : Aside S isn merged i' j' ↔ Aside S isn d i' j' := by
    constructor
    · exact fun h => ⟨h.nonempty, h.inside, hpending ▸ h.filed⟩
    · exact fun h => ⟨h.nonempty, h.inside, hpending ▸ h.filed⟩
  have hab := h.holds.nonempty
  have hnone : NoneStraddles S isn merged m n := by
    intro i' j' hi' hbefore
    have hapart := h.apart i' j' ((haside i' j').1 hi')
    omega
  obtain ⟨flushed, hflush, hok⟩ := flush_of_add hplace hadd
  obtain ⟨hflushed, a', b', hholds, htaken, hbehind⟩ :=
    flushed_of_flushPending hS hmerged hnone hflush
  have hlower' := htaken.lower
  have hupper' := htaken.upper
  refine ⟨hok hflushed, a', b', hholds, fun i' j' hi' => Or.inr (hbehind i' j' hi'), ?_, ?_, ?_,
    head_append h _, h.nonempty, ?_⟩
  · intro p hp
    rcases List.mem_append.1 hp with hp | hp
    · rcases h.filed p hp with hin' | hold
      · exact Or.inl (by omega)
      · rcases htaken.taken p.1 p.2 ((haside p.1 p.2).2 hold) with hkept | hin'
        · exact Or.inr hkept
        · exact Or.inl hin'
    · rw [List.mem_singleton.1 hp]
      exact Or.inl (by omega)
  · intro i' j' hi'
    have hold := (haside i' j').1 (hi'.of_kept htaken.kept)
    exact List.mem_append.2 (Or.inl (h.known i' j' hold))
  · intro x hax hxb
    rw [covers_append, covers_singleton]
    rcases htaken.covers x hax hxb with hin' | ⟨i', j', hi', hx⟩
    · rcases hcovers x hin'.1 hin'.2 with hold | hnew
      · exact Or.inl (h.covers x hold.1 hold.2)
      · exact Or.inr hnew
    · exact Or.inl ⟨(i', j'), h.known i' j' ((haside i' j').1 hi'), hx⟩
  · have hinside := h.inside
    omega

/-- **One call** with a segment that fits. -/
theorem tracks_step (hfits : Fits isn S d i j) :
    result.isOk = true ∧ ∃ a' b', Tracks S isn d' (added ++ [(i, j)]) first a' b' := by
  obtain ⟨hstraddles, hfiled⟩ := (fits_iff hS h.holds).1 hfits
  have hab := h.holds.nonempty
  have hb := h.holds.inside
  have hsame (merged : TcpDirection) (hpending : merged.pending = d.pending)
      (sequence : UInt32) (payload : List UInt8)
      (hmerged : merged.pending[sequence]? = some payload) :
      d.pending[sequence]? = some payload := hpending ▸ hmerged
  by_cases haway : j < a ∨ b < i
  · obtain ⟨hok, htracks⟩ := tracks_putAside hS h hij hj hadd haway (hfiled haway)
    exact ⟨hok, a, b, htracks⟩
  · by_cases hia : i < a
    · have hplace := place_before hS h.holds hij hj hia (by omega)
      refine tracks_merged hS h hadd (m := i) (n := b) hplace ?_ (by omega) (by omega)
        (by omega) (fun x _ _ => by omega)
      exact holds_of_kept h.holds rfl rfl (by omega) hb (hsame _ rfl)
    · have hplace := place_within hS h.holds hij hj (by omega) (by omega)
      refine tracks_merged hS h hadd (m := a) (n := max b j) hplace ?_ (by omega)
        (by omega) (by omega) (fun x _ _ => by omega)
      exact holds_of_kept h.holds h.holds.start rfl (by omega) (by omega) (hsame _ rfl)

/-- **One call** with a segment that does not fit: it is refused, or what it has behind the bytes
held is lost. -/
theorem not_isHeld_of_not_fits (hfits : ¬ Fits isn S d i j) (hok : result.isOk = true) :
    ¬ IsHeld S (added ++ [(i, j)]) d'.data := by
  have hab := h.holds.nonempty
  have hb := h.holds.inside
  have hinside := h.inside
  rw [fits_iff hS h.holds] at hfits
  have hstraddles : i < a ∧ b < j := by
    by_contra hnot
    refine hfits ⟨hnot, fun haway => ?_⟩
    have hplace : d.place (numberOf isn i) (piece S i j)
        = d.putAside (numberOf isn i) (piece S i j) := by
      rcases haway with hja | hbi
      · exact place_gap hS h.holds hij hj hja
      · exact place_after hS h.holds hij hj hbi
    rcases putAside_of_add hplace hadd with ⟨-, -, -, herror⟩ | ⟨hsame, -, -⟩
    · rw [hok] at herror
      cases herror
    · exact hsame
  obtain ⟨hia, hbj⟩ := hstraddles
  have hplace := place_before hS h.holds hij hj hia (by omega)
  have hmerged : Holds S isn
      { d with startSequence := some (numberOf isn i), data := piece S i b } i b :=
    holds_of_kept h.holds rfl rfl (by omega) hb fun _ _ hpending => hpending
  have hnone : NoneStraddles S isn
      { d with startSequence := some (numberOf isn i), data := piece S i b } i b := by
    intro i' j' hi' hbefore
    have hapart := h.apart i' j' ⟨hi'.nonempty, hi'.inside, hi'.filed⟩
    omega
  obtain ⟨flushed, hflush, -⟩ := flush_of_add hplace hadd
  obtain ⟨-, a', b', hholds, htaken, -⟩ := flushed_of_flushPending hS hmerged hnone hflush
  have hlower' := htaken.lower
  have hupper' := htaken.upper
  have hholds' := hholds.nonempty
  -- nothing that was put aside starts at the end of the bytes held
  have hend : b' = b := by
    by_contra hne
    rcases htaken.covers b (by omega) (by omega) with hin | ⟨i', j', hi', hx⟩
    · omega
    · have hapart := h.apart i' j' ⟨hi'.nonempty, hi'.inside, hi'.filed⟩
      omega
  subst hend
  intro ⟨first', A, B, hhead, hlargest, hbytes⟩
  rw [head_append h _] at hhead
  cases hhead
  have hcovered : IsCovered (added ++ [(i, j)]) first a' j := by
    refine ⟨by omega, by omega, fun x hax hxj => ?_⟩
    rw [covers_append, covers_singleton]
    by_cases hix : i ≤ x
    · exact Or.inr ⟨hix, hxj⟩
    · rcases htaken.covers x hax (by omega) with hin | ⟨i', j', hi', hx⟩
      · omega
      · exact Or.inl ⟨(i', j'), h.known i' j' ⟨hi'.nonempty, hi'.inside, hi'.filed⟩, hx⟩
  have hgreatest := hlargest.greatest a' j hcovered
  have hlength := congrArg List.length (hholds.data.symm.trans hbytes)
  rw [length_piece hb] at hlength
  simp only [piece, List.length_drop, List.length_take] at hlength
  omega

end Step

/-! ## Sequences of calls -/

/-- The first segment. -/
theorem tracks_first (hS : S.length < 2 ^ 31) (hij : i < j) (hj : j ≤ S.length) {rounds : Nat}
    {result : Except CaptureError Bool} {d' : TcpDirection}
    (hadd : add rounds {} (numberOf isn i) (piece S i j) = some (result, d')) :
    result.isOk = true ∧ ∃ a' b', Tracks S isn d' [(i, j)] (i, j) a' b' := by
  have hplace : ({} : TcpDirection).place (numberOf isn i) (piece S i j)
      = .merges { startSequence := some (numberOf isn i), data := piece S i j } none := by
    unfold place
    rw [if_neg (piece_ne_nil hij hj)]
    rfl
  have hempty (sequence : UInt32) (payload : List UInt8) :
      (∅ : ExtTreeMap UInt32 (List UInt8))[sequence]? ≠ some payload := by
    rw [ExtTreeMap.getElem?_empty]
    exact nofun
  have hmerged : Holds S isn { startSequence := some (numberOf isn i), data := piece S i j } i j :=
    ⟨rfl, rfl, hij, hj, fun sequence payload hpending => absurd hpending (hempty _ _)⟩
  obtain ⟨flushed, hflush, hok⟩ := flush_of_add hplace hadd
  obtain ⟨hflushed, a', b', hholds, htaken, hbehind⟩ := flushed_of_flushPending hS hmerged
    (fun i' j' hi' => absurd hi'.filed (hempty _ _)) hflush
  refine ⟨hok hflushed, a', b', hholds, fun i' j' hi' => Or.inr (hbehind i' j' hi'), ?_, ?_, ?_,
    rfl, hij, htaken.lower, htaken.upper⟩
  · intro p hp
    rw [List.mem_singleton.1 hp]
    exact Or.inl ⟨htaken.lower, htaken.upper⟩
  · exact fun i' j' hi' => absurd (htaken.kept _ _ hi'.filed) (hempty _ _)
  · intro x hax hxb
    rcases htaken.covers x hax hxb with hin | ⟨i', j', hi', -⟩
    · exact covers_singleton.2 hin
    · exact absurd hi'.filed (hempty _ _)

/-- Each call of `add` that returns is `Ok` and leaves the largest covered interval. -/
def Reassembles (isn : UInt32) (S : List UInt8) :
    TcpDirection → List (Nat × Nat) → List (Nat × Nat) → Prop
  | _, _, [] => True
  | d, added, p :: ps => ∀ rounds result d',
      add rounds d (numberOf isn p.1) (piece S p.1 p.2) = some (result, d') →
        result.isOk = true ∧ IsHeld S (added ++ [p]) d'.data ∧
          Reassembles isn S d' (added ++ [p]) ps

/-- Each segment for which the call returns fits, in the state in which it is offered. -/
def EachFits (isn : UInt32) (S : List UInt8) : TcpDirection → List (Nat × Nat) → Prop
  | _, [] => True
  | d, p :: ps => ∀ rounds result d',
      add rounds d (numberOf isn p.1) (piece S p.1 p.2) = some (result, d') →
        Fits isn S d p.1 p.2 ∧ EachFits isn S d' ps

theorem reassembles_iff_of_tracks (hS : S.length < 2 ^ 31) (h : Tracks S isn d added first a b)
    (ps : List (Nat × Nat)) (hps : ∀ p ∈ ps, p.1 < p.2 ∧ p.2 ≤ S.length) :
    Reassembles isn S d added ps ↔ EachFits isn S d ps := by
  induction ps generalizing d added a b with
  | nil => exact Iff.rfl
  | cons p ps ih =>
    obtain ⟨hij, hj⟩ := hps p List.mem_cons_self
    have hrest := fun q hq => hps q (List.mem_cons_of_mem p hq)
    constructor
    · intro hheld rounds result d' hadd
      obtain ⟨hok, hbytes, hafter⟩ := hheld rounds result d' hadd
      have hfits : Fits isn S d p.1 p.2 := by
        by_contra hnot
        exact not_isHeld_of_not_fits hS h hij hj hadd hnot hok hbytes
      obtain ⟨-, a', b', htracks⟩ := tracks_step hS h hij hj hadd hfits
      exact ⟨hfits, (ih htracks hrest).1 hafter⟩
    · intro hfits rounds result d' hadd
      obtain ⟨hfit, hafter⟩ := hfits rounds result d' hadd
      obtain ⟨hok, a', b', htracks⟩ := tracks_step hS h hij hj hadd hfit
      exact ⟨hok, isHeld_of_tracks htracks, (ih htracks hrest).2 hafter⟩

/-- **Reassembly** of any segments of a stream, from any first number: each call that returns leaves
the largest covered interval, if and only if each segment fits. -/
theorem reassembles_iff_eachFits (S : List UInt8) (hS : S.length < 2 ^ 31) (isn : UInt32)
    (ps : List (Nat × Nat)) (hps : ∀ p ∈ ps, p.1 < p.2 ∧ p.2 ≤ S.length) :
    Reassembles isn S {} [] ps ↔ EachFits isn S {} ps := by
  cases ps with
  | nil => exact Iff.rfl
  | cons p ps =>
    obtain ⟨hij, hj⟩ := hps p List.mem_cons_self
    have hrest := fun q hq => hps q (List.mem_cons_of_mem p hq)
    have hfits : Fits isn S {} p.1 p.2 := fun start hstart => nomatch hstart
    constructor
    · intro hheld rounds result d' hadd
      obtain ⟨-, a, b, htracks⟩ := tracks_first hS hij hj hadd
      obtain ⟨-, -, hafter⟩ := hheld rounds result d' hadd
      exact ⟨hfits, (reassembles_iff_of_tracks hS htracks ps hrest).1 hafter⟩
    · intro hall rounds result d' hadd
      obtain ⟨hok, a, b, htracks⟩ := tracks_first hS hij hj hadd
      obtain ⟨-, hafter⟩ := hall rounds result d' hadd
      exact ⟨hok, isHeld_of_tracks htracks,
        (reassembles_iff_of_tracks hS htracks ps hrest).2 hafter⟩

/-- The direction that is left by the calls. -/
def LeadsTo (isn : UInt32) (S : List UInt8) :
    TcpDirection → List (Nat × Nat) → TcpDirection → Prop
  | d, [], d' => d = d'
  | d, p :: ps, d' => ∃ rounds result d₁,
      add rounds d (numberOf isn p.1) (piece S p.1 p.2) = some (result, d₁) ∧
        LeadsTo isn S d₁ ps d'

theorem isHeld_of_leadsTo {d' : TcpDirection} {ps : List (Nat × Nat)}
    (h : Reassembles isn S d added ps) (hheld : added ≠ [] → IsHeld S added d.data)
    (hsome : added ++ ps ≠ []) (hleads : LeadsTo isn S d ps d') :
    IsHeld S (added ++ ps) d'.data := by
  induction ps generalizing d added with
  | nil =>
    cases hleads
    rw [List.append_nil] at hsome ⊢
    exact hheld hsome
  | cons p ps ih =>
    obtain ⟨rounds, result, d₁, hadd, hafter⟩ := hleads
    obtain ⟨-, hbytes, hrest⟩ := h rounds result d₁ hadd
    have hlast := ih hrest (fun _ => hbytes) (by simp) hafter
    rwa [List.append_assoc] at hlast

/-- **The order does not matter**: two orders with the same first segment leave the same bytes. -/
theorem bytes_eq_of_perm {ps qs : List (Nat × Nat)} {d d' : TcpDirection}
    (hps : Reassembles isn S {} [] ps) (hqs : Reassembles isn S {} [] qs) (hperm : ps.Perm qs)
    (hhead : ps.head? = qs.head?) (hd : LeadsTo isn S {} ps d) (hd' : LeadsTo isn S {} qs d') :
    d.data = d'.data := by
  by_cases hnil : ps = []
  · subst hnil
    obtain rfl := hperm.nil_eq
    cases hd
    cases hd'
    rfl
  · have hnil' : qs ≠ [] := fun h => hnil (h ▸ hperm).eq_nil
    obtain ⟨first, a, b, hfirst, hlargest, hbytes⟩ :=
      isHeld_of_leadsTo hps (fun h => absurd rfl h) hnil hd
    obtain ⟨first', a', b', hfirst', hlargest', hbytes'⟩ :=
      isHeld_of_leadsTo hqs (fun h => absurd rfl h) hnil' hd'
    obtain rfl := Option.some.inj (hfirst.symm.trans (hhead.trans hfirst'))
    obtain ⟨rfl, rfl⟩ := (hlargest.congr fun p => hperm.mem_iff).unique hlargest'
    rw [hbytes, hbytes']

/-! ## Runs -/

/-- Two bytes, whose numbers are the last and the first. -/
theorem reassembles_wrapping :
    Reassembles 0xFFFFFFFF [1, 2] {} [] [(1, 2), (0, 1)] := by
  have hfirst : add 1 {} (numberOf 0xFFFFFFFF 1) (piece [1, 2] 1 2)
      = some (.ok true, { startSequence := some 0, data := [2] }) := by rfl
  refine (reassembles_iff_eachFits [1, 2] (by decide) 0xFFFFFFFF [(1, 2), (0, 1)]
    (by decide)).2 ?_
  intro rounds result d' hadd
  refine ⟨fun start hstart => (nomatch hstart), ?_⟩
  cases add_unique hfirst hadd
  intro rounds' result' d'' _
  refine ⟨fun start hstart => ?_, trivial⟩
  cases hstart
  exact ⟨by decide, fun haway => absurd haway (by decide)⟩

/-- The third byte of six is held when all six come in one segment. -/
theorem not_reassembles : ¬ ∀ (S : List UInt8) (isn : UInt32) (ps : List (Nat × Nat)),
    S.length < 2 ^ 31 → (∀ p ∈ ps, p.1 < p.2 ∧ p.2 ≤ S.length) →
      Reassembles isn S {} [] ps := by
  intro h
  have hall := h [1, 2, 3, 4, 5, 6] 100 [(2, 3), (0, 6)] (by decide) (by decide)
  have hfirst : add 1 {} (numberOf 100 2) (piece [1, 2, 3, 4, 5, 6] 2 3)
      = some (.ok true, { startSequence := some 102, data := [3] }) := by rfl
  have hsecond : add 1 { startSequence := some 102, data := [3] } (numberOf 100 0)
      (piece [1, 2, 3, 4, 5, 6] 0 6)
      = some (.ok true, { startSequence := some 100, data := [1, 2, 3] }) := by rfl
  obtain ⟨-, -, hafter⟩ := hall 1 _ _ hfirst
  obtain ⟨-, ⟨first, a, b, hhead, hlargest, hbytes⟩, -⟩ := hafter 1 _ _ hsecond
  cases hhead
  have hcovered : IsCovered [(2, 3), (0, 6)] (2, 3) 0 6 :=
    ⟨by decide, by decide, fun x _ hx => ⟨(0, 6), by decide, Nat.zero_le x, hx⟩⟩
  have hgreatest := hlargest.greatest 0 6 hcovered
  have hlength := congrArg List.length hbytes
  simp only [piece, List.length_drop, List.length_take, List.length_cons, List.length_nil]
    at hlength
  omega

end TcpDirection

end Superiority.Sweep
