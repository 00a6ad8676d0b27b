import Superiority.Bsn.Simulation

/-!
# Decoding is prefix-stable

Every routine of the codec is put together from readings that depend on the bits they read and run
short when the buffer ends before them, so decoding does too, whatever the schema and the layouts
(**`stable_decodeAny`**). The recursion over a cyclic schema is bounded by a fuel; more fuel changes
nothing that has ended (**`simulates_decodeAny`**), so what a decoding ends with is one thing.

* **`decode_prefix_stable`** – the value and the end of a decoding are told by the bits up to that
  end, a shorter buffer asks for more, and an error that does not ask for more stays.
-/

namespace Superiority.Bsn

open Reading

theorem incomplete_appendDecodeContext (context : String) (e : Error) :
    Incomplete (appendDecodeContext context e) ↔ Incomplete e := by
  cases e <;> exact Iff.rfl

/-! ## Ranges and lists -/

theorem stable_readOffset (range : IntegerRange) : Stable Incomplete (readOffset range) := by
  unfold readOffset
  cases range.bitWidth with
  | none => exact Stable.pure _
  | some width => exact (stable_read width).bind fun _ => Stable.pure _

theorem stable_readRange (range : IntegerRange) : Stable Incomplete (readRange range) :=
  (stable_readOffset range).bind fun _ =>
    Stable.ite (fun _ => Stable.fail _) fun _ => Stable.pure _

theorem stable_readLength (range : IntegerRange) : Stable Incomplete (readLength range) :=
  (stable_readRange range).bind fun _ =>
    Stable.ite (fun _ => Stable.fail _) fun _ => Stable.pure _

theorem stable_decodeElements {decode : Nat → Reading Decoded}
    (hdecode : ∀ index, Stable Incomplete (decode index)) (index count : Nat) :
    Stable Incomplete (decodeElements decode index count) := by
  induction count generalizing index with
  | zero => exact Stable.pure _
  | succ count ih =>
    refine Stable.bind ?_ fun first => (ih (index + 1)).bind fun rest => Stable.pure _
    apply (hdecode index).mapError
    intro _ _ e
    exact incomplete_appendDecodeContext _ e

theorem stable_decodeMembers {decode : Member → Reading Decoded} {typeText : String}
    (hdecode : ∀ member, Stable Incomplete (decode member)) (members : List Member) :
    Stable Incomplete (decodeMembers decode typeText members) := by
  induction members with
  | nil => exact Stable.pure _
  | cons member members ih =>
    refine Stable.bind ?_ fun first => ih.bind fun rest => Stable.pure _
    apply (hdecode member).mapError
    intro _ _ e
    exact incomplete_appendDecodeContext _ e

theorem stable_readFiller (traced : Bool) (width : Nat) (label path : String) (depth : Nat) :
    Stable Incomplete (readFiller traced width label path depth) :=
  Stable.ite (fun _ => Stable.pure _) fun _ =>
    Stable.place.bind fun _ => (stable_read width).bind fun _ =>
      Stable.place.bind fun _ => Stable.pure _

theorem stable_decodeLayoutFields {decode : Member → Reading Decoded} {traced : Bool}
    {members : List Member} {path : String} {depth : Nat}
    (hdecode : ∀ member, Stable Incomplete (decode member)) (entries : List WireField) :
    Stable Incomplete (decodeLayoutFields decode traced members path depth entries) := by
  induction entries with
  | nil => exact Stable.pure _
  | cons entry entries ih =>
    rw [decodeLayoutFields]
    cases members[entry.logicalField]? with
    | none => exact Stable.fail _
    | some member =>
      exact (stable_readFiller _ _ _ _ _).bind fun filler => (hdecode member).bind fun value =>
        ih.bind fun rest => Stable.pure _

/-! ## The routines of the custom layouts -/

section custom

open Native.WireLayout

theorem stable_spanned {x : Reading BsnValue} (hx : Stable Incomplete x) (position : Nat) :
    Stable Incomplete (spanned position x) :=
  Stable.place.bind fun _ => hx.bind fun _ => Stable.place.bind fun _ => Stable.pure _

theorem stable_readGeneratedString (countWidth maximum : Nat) :
    Stable Incomplete (readGeneratedString countWidth maximum) :=
  (stable_read countWidth).bind fun length =>
    Stable.ite (fun _ => Stable.fail _) fun _ =>
      (stable_readBytes length true).bind fun _ => Stable.pure _

theorem stable_readTag : Stable Incomplete readTag :=
  (stable_read 1).bind fun _ =>
    Stable.ite (fun _ => Stable.pure _) fun _ =>
      (stable_readGeneratedString 5 24).bind fun _ => Stable.pure _

section club

variable {schema : Schema} {decodeFrom : UInt32 → Reading BsnValue} {rootType : UInt32}

theorem stable_readClubField (hdecode : ∀ typeId, Stable Incomplete (decodeFrom typeId))
    (position : Nat) : Stable Incomplete (readClubField schema decodeFrom rootType position) := by
  refine (Stable.ofExcept _).bind fun shape => ?_
  cases shape.memberTypes[position]? with
  | none => exact Stable.fail _
  | some memberType => exact stable_spanned (hdecode memberType) position

theorem stable_readClubFields (hdecode : ∀ typeId, Stable Incomplete (decodeFrom typeId))
    (positions : List Nat) :
    Stable Incomplete (readClubFields schema decodeFrom rootType positions) := by
  induction positions with
  | nil => exact Stable.pure _
  | cons position positions ih =>
    exact (stable_readClubField hdecode position).bind fun _ => ih.bind fun _ => Stable.pure _

theorem stable_readClubSummaryInfo (hdecode : ∀ typeId, Stable Incomplete (decodeFrom typeId)) :
    Stable Incomplete (readClubSummaryInfo schema decodeFrom rootType) :=
  Stable.place.bind fun _ => (stable_readClubFields hdecode _).bind fun _ =>
    (stable_spanned ((stable_readGeneratedString 8 32).map _) 2).bind fun _ =>
    (stable_read 6).bind fun _ => (stable_readClubFields hdecode _).bind fun _ =>
    (stable_spanned stable_readTag 3).bind fun _ => (stable_read 25).bind fun _ =>
    (stable_readClubField hdecode 8).bind fun _ => Stable.place.bind fun _ => Stable.pure _

theorem stable_readClubUserText (hdecode : ∀ typeId, Stable Incomplete (decodeFrom typeId)) :
    Stable Incomplete (readClubUserText schema decodeFrom rootType) :=
  Stable.place.bind fun _ => (stable_readClubFields hdecode _).bind fun _ =>
    (stable_spanned ((stable_readGeneratedString 13 4096).map _) 2).bind fun _ =>
    (stable_readClubField hdecode 1).bind fun _ => Stable.place.bind fun _ => Stable.pure _

end club

theorem stable_readSpanned (width : Nat) : Stable Incomplete (readSpanned width) :=
  Stable.place.bind fun _ => (stable_read width).bind fun _ =>
    Stable.place.bind fun _ => Stable.pure _

theorem stable_skipWords (count : Nat) : Stable Incomplete (skipWords count) := by
  induction count with
  | zero => exact Stable.pure _
  | succ count ih => exact (stable_read 32).bind fun _ => ih

theorem stable_readBoundedU32Array : Stable Incomplete readBoundedU32Array :=
  (stable_read 3).bind fun count =>
    Stable.ite (fun _ => Stable.fail _) fun _ => stable_skipWords count

theorem stable_readCategoryGeneratedState : Stable Incomplete readCategoryGeneratedState :=
  (stable_read 8).bind fun _ => (stable_read 16).bind fun _ =>
    stable_readBoundedU32Array.bind fun _ => (stable_read 32).bind fun _ =>
    stable_readBoundedU32Array.bind fun _ => (stable_read 32).bind fun _ => Stable.pure _

theorem stable_readVariantBody (tag : Nat) : Stable Incomplete (readVariantBody tag) := by
  unfold readVariantBody
  split
  · exact (stable_read 7).bind fun length => Stable.ite (fun _ => Stable.fail _) fun _ =>
      (stable_readBytes length true).bind fun _ => Stable.pure _
  · exact (stable_read 32).bind fun _ => (stable_read 16).bind fun _ => Stable.pure _
  · exact (stable_read 16).bind fun _ => (stable_read 32).bind fun _ => Stable.pure _
  · exact Stable.fail _

theorem stable_readCategoryGeneratedVariant : Stable Incomplete readCategoryGeneratedVariant :=
  (stable_read 16).bind fun _ => (stable_read 29).bind fun _ =>
    (stable_read 2).bind fun tag => stable_readVariantBody tag

theorem stable_readCategoryDescription : Stable Incomplete readCategoryDescription :=
  Stable.place.bind fun _ => (stable_readSpanned 32).bind fun _ => Stable.place.bind fun _ =>
    stable_readCategoryGeneratedState.bind fun _ =>
    stable_readCategoryGeneratedVariant.bind fun _ => Stable.place.bind fun _ =>
    (stable_readSpanned 8).bind fun _ => (stable_readSpanned 16).bind fun _ =>
    Stable.place.bind fun _ => Stable.pure _

variable {schema : Schema} {decodeFrom : UInt32 → Reading BsnValue}

theorem stable_decode (hdecode : ∀ typeId, Stable Incomplete (decodeFrom typeId))
    (layout : CustomLayout) (rootType : UInt32) :
    Stable Incomplete (Native.WireLayout.decode schema decodeFrom layout rootType) := by
  cases layout with
  | clubSummaryInfo =>
    exact (stable_readClubSummaryInfo hdecode).bind fun _ => Stable.ofExcept _
  | clubUserText => exact (stable_readClubUserText hdecode).bind fun _ => Stable.ofExcept _
  | categoryDescription => exact stable_readCategoryDescription.bind fun _ => Stable.ofExcept _

theorem stable_decodeTraced {texts : TraceTexts}
    (hdecode : ∀ typeId, Stable Incomplete (decodeFrom typeId)) (layout : CustomLayout)
    (rootType : UInt32) (path : String) (depth : Nat) :
    Stable Incomplete
      (Native.WireLayout.decodeTraced texts schema decodeFrom layout rootType path depth) := by
  cases layout with
  | clubSummaryInfo =>
    exact (stable_readClubSummaryInfo hdecode).bind fun _ => (Stable.ofExcept _).bind fun _ =>
      (Stable.ofExcept _).bind fun _ => Stable.pure _
  | clubUserText =>
    exact (stable_readClubUserText hdecode).bind fun _ => (Stable.ofExcept _).bind fun _ =>
      (Stable.ofExcept _).bind fun _ => Stable.pure _
  | categoryDescription =>
    exact stable_readCategoryDescription.bind fun _ => (Stable.ofExcept _).bind fun _ =>
      Stable.pure _

end custom

/-! ## One type -/

section inner

variable {texts : TraceTexts} {codec : Codec} {recur : Recur}

/-- The recursive call is stable, for every type. -/
def StableRecur (recur : Recur) : Prop :=
  ∀ traced reflected typeId path depth,
    Stable Incomplete (recur traced reflected typeId path depth)

theorem stable_decodeReflected (hrecur : StableRecur recur) (traced : Bool) (typeId : UInt32)
    (path : String) (depth : Nat) (shape : TypeShape) (reflected : Bool) :
    Stable Incomplete
      (decodeReflected texts codec recur traced typeId path depth shape reflected) := by
  unfold decodeReflected
  cases shape.kind with
  | «alias» =>
    exact (Stable.ofExcept _).bind fun _ => (hrecur _ _ _ _ _).bind fun _ => Stable.pure _
  | void => exact Stable.pure _
  | bool => exact (stable_read 1).bind fun _ => Stable.pure _
  | integer =>
    exact (Stable.ofExcept _).bind fun range => (stable_readRange range).bind fun _ =>
      Stable.pure _
  | enum =>
    exact (Stable.ofExcept _).bind fun range => (stable_readRange range).bind fun _ =>
      Stable.pure _
  | fourCc => exact (stable_read 32).bind fun _ => Stable.pure _
  | float32 => exact (stable_read 32).bind fun _ => Stable.pure _
  | float64 => exact (stable_read 64).bind fun _ => Stable.pure _
  | byteString =>
    exact (Stable.ofExcept _).bind fun range => (stable_readLength range).bind fun length =>
      (stable_readBytes length true).bind fun _ => Stable.pure _
  | blob =>
    exact (Stable.ofExcept _).bind fun range => (stable_readLength range).bind fun length =>
      (stable_readBytes length true).bind fun _ => Stable.pure _
  | string =>
    exact (Stable.ofExcept _).bind fun range => (stable_readLength _).bind fun length =>
      (stable_readBytes length true).bind fun _ => Stable.pure _
  | bitArray =>
    exact (Stable.ofExcept _).bind fun range => (stable_readLength range).bind fun bitCount =>
      (stable_readRaw bitCount).bind fun _ => Stable.pure _
  | array =>
    exact (Stable.ofExcept _).bind fun range => (stable_readLength range).bind fun length =>
      (Stable.ofExcept _).bind fun element =>
      (stable_decodeElements (fun _ => hrecur _ _ _ _ _) 0 length).bind fun _ => Stable.pure _
  | optional =>
    exact (stable_read 1).bind fun _ => Stable.ite (fun _ => Stable.pure _) fun _ =>
      (Stable.ofExcept _).bind fun _ => (hrecur _ _ _ _ _).bind fun _ => Stable.pure _
  | choice =>
    refine (Stable.ofExcept _).bind fun range => (stable_readRange range).bind fun index => ?_
    cases shape.members.find? (·.index == index) with
    | none => exact Stable.fail _
    | some member => exact (hrecur _ _ _ _ _).bind fun _ => Stable.pure _
  | struct =>
    exact (stable_decodeMembers (fun _ => hrecur _ _ _ _ _) shape.members).bind fun _ =>
      Stable.pure _

theorem stable_decodeCustom (hrecur : StableRecur recur) (traced : Bool) (typeId : UInt32)
    (path : String) (depth : Nat) (layout : CustomLayout) :
    Stable Incomplete (decodeCustom texts codec recur traced typeId path depth layout) := by
  have hdecode : ∀ member, Stable Incomplete (Prod.fst <$> recur false false member "value" 0) :=
    fun member => (hrecur _ _ _ _ _).map _
  apply Stable.ite
  · intro _
    exact stable_decodeTraced hdecode layout typeId path depth
  · intro _
    exact (stable_decode hdecode layout typeId).bind fun _ => Stable.pure _

theorem stable_decodeInner (hrecur : StableRecur recur) (traced : Bool) (typeId : UInt32)
    (path : String) (depth : Nat) (reflected : Bool) :
    Stable Incomplete (decodeInner texts codec recur traced typeId path depth reflected) := by
  have hstruct : ∀ shape layout, Stable Incomplete
      (decodeStructLayout recur traced typeId path depth shape layout) := fun shape layout =>
    (stable_decodeLayoutFields (fun _ => hrecur _ _ _ _ _) layout.fields).bind fun _ =>
      (Stable.ofExcept _).bind fun _ => Stable.pure _
  refine (Stable.ofExcept _).bind fun shape => ?_
  split
  · exact hstruct shape _
  · exact hstruct shape _
  · exact stable_decodeCustom hrecur _ _ _ _ _
  · exact (Stable.ofExcept _).bind fun _ => stable_decodeReflected hrecur _ _ _ _ _ _

theorem stable_decodeScoped (hrecur : StableRecur recur) :
    StableRecur (decodeScoped texts codec recur) := by
  intro traced reflected typeId path depth
  refine Stable.place.bind fun _ => (Stable.ofExcept _).bind fun shape => ?_
  refine Stable.bind ?_ fun _ => Stable.place.bind fun _ => Stable.pure _
  apply (stable_decodeInner hrecur _ _ _ _ _).mapError
  intro _ _ e
  exact incomplete_appendDecodeContext _ e

end inner

/-- **Every decoding is stable**, at every depth of recursion. -/
theorem stable_decodeAny (texts : TraceTexts) (codec : Codec) (fuel : Nat) :
    StableRecur (decodeAny texts codec fuel) := by
  induction fuel with
  | zero => exact fun _ _ _ _ _ => Stable.stuck
  | succ fuel ih => exact stable_decodeScoped ih

/-! ## Decoding a buffer -/

/-- Bytes of which the first `bitCount` bits are supplied. -/
structure Buffer where
  data : List UInt8
  bitCount : Nat
  supplied : bitCount ≤ 8 * data.length

/-- The buffers do not differ in their first `n` bits. -/
def Buffer.Agrees (b c : Buffer) (n : Nat) : Prop := ∀ i < n, bitAt b.data i = bitAt c.data i

section buffer

variable {texts : TraceTexts} {codec : Codec} {typeId : UInt32} {b c : Buffer} {start fuel : Nat}

/-- `decode` ends with this result, when it is given fuel enough. -/
def Ends (texts : TraceTexts) (codec : Codec) (typeId : UInt32) (b : Buffer) (start : Nat)
    (result : Except Error DecodedValue) : Prop :=
  ∃ fuel, decode texts codec fuel typeId b.data (some b.bitCount) start = some result

theorem stable_decodeFrom (texts : TraceTexts) (codec : Codec) (fuel : Nat) (typeId : UInt32) :
    Stable Incomplete (decodeFrom texts codec fuel typeId) :=
  (stable_decodeAny texts codec fuel _ _ _ _ _).map _

theorem simulates_decodeFrom {fuel' : Nat} (hfuel : fuel ≤ fuel') :
    Simulates Eq (decodeFrom texts codec fuel typeId) (decodeFrom texts codec fuel' typeId) := by
  apply (simulates_decodeAny texts codec hfuel _ _ _ _ _ _).bind
  rintro a b ⟨h, -⟩
  exact Simulates.pure h

theorem new_bind_setPosition (b : Buffer) (start : Nat) :
    BitReader.new b.data (some b.bitCount) >>= (·.setPosition start) =
      BitReader.setPosition ⟨b.data, b.bitCount, 0, b.supplied, Nat.zero_le _⟩ start := by
  have hnew : BitReader.new b.data (some b.bitCount) =
      .ok ⟨b.data, b.bitCount, 0, b.supplied, Nat.zero_le _⟩ := dif_pos b.supplied
  rw [hnew]
  rfl

/-- A start behind the end of the buffer asks for more. -/
theorem decode_of_lt (h : b.bitCount < start) :
    decode texts codec fuel typeId b.data (some b.bitCount) start =
      some (.error (.incompleteFrame s!"seek to bit {start}, only {b.bitCount} buffered")) := by
  have hseek : ¬ start ≤ b.bitCount := Nat.not_le.2 h
  rw [decode, new_bind_setPosition, BitReader.setPosition, dif_neg hseek]

/-- Otherwise the reader stands at the start. -/
theorem decode_of_le (h : start ≤ b.bitCount) :
    decode texts codec fuel typeId b.data (some b.bitCount) start =
      match decodeFrom texts codec fuel typeId ⟨b.data, b.bitCount, start, b.supplied, h⟩ with
      | .done value rest => some (.ok { value, bitCount := rest.position - start })
      | .failed e _ => some (.error e)
      | .unfinished => none := by
  rw [decode, new_bind_setPosition, BitReader.setPosition, dif_pos h] <;> rfl

/-- A decoding that succeeds, as a run of the reader. -/
theorem decode_ok {decoded : DecodedValue} :
    decode texts codec fuel typeId b.data (some b.bitCount) start = some (.ok decoded) ↔
      ∃ (h : start ≤ b.bitCount) (rest : BitReader),
        decodeFrom texts codec fuel typeId ⟨b.data, b.bitCount, start, b.supplied, h⟩ =
          .done decoded.value rest ∧ rest.position = start + decoded.bitCount := by
  constructor
  · intro hdecode
    by_cases h : start ≤ b.bitCount
    · rw [decode_of_le h] at hdecode
      split at hdecode
      · next value rest hrun =>
        obtain rfl := Except.ok.inj (Option.some.inj hdecode)
        have honward : start ≤ rest.position :=
          ((stable_decodeFrom _ _ _ _).onward hrun).position
        exact ⟨h, rest, hrun, (Nat.add_sub_cancel' honward).symm⟩
      · cases hdecode
      · cases hdecode
    · rw [decode_of_lt (Nat.not_le.1 h)] at hdecode
      cases hdecode
  · rintro ⟨h, rest, hrun, hposition⟩
    rw [decode_of_le h, hrun]
    simp [hposition]

/-- A decoding that fails and does not ask for more. -/
theorem decode_refused {e : Error} (he : ¬ Incomplete e) :
    decode texts codec fuel typeId b.data (some b.bitCount) start = some (.error e) ↔
      ∃ (h : start ≤ b.bitCount) (rest : BitReader),
        decodeFrom texts codec fuel typeId ⟨b.data, b.bitCount, start, b.supplied, h⟩ =
          .failed e rest := by
  constructor
  · intro hdecode
    by_cases h : start ≤ b.bitCount
    · rw [decode_of_le h] at hdecode
      split at hdecode
      · cases hdecode
      · next e' rest hrun =>
        obtain rfl := Except.error.inj (Option.some.inj hdecode)
        exact ⟨h, rest, hrun⟩
      · cases hdecode
    · rw [decode_of_lt (Nat.not_le.1 h)] at hdecode
      exact absurd ((Except.error.inj (Option.some.inj hdecode)) ▸ trivial) he
  · rintro ⟨h, rest, hrun⟩
    rw [decode_of_le h, hrun]

/-- More fuel gives the same result. -/
theorem decode_fuel {fuel' : Nat} (hfuel : fuel ≤ fuel') {result : Except Error DecodedValue}
    (h : decode texts codec fuel typeId b.data (some b.bitCount) start = some result) :
    decode texts codec fuel' typeId b.data (some b.bitCount) start = some result := by
  by_cases hstart : start ≤ b.bitCount
  · rw [decode_of_le hstart] at h ⊢
    have hsame : Simulates Eq (decodeFrom texts codec fuel typeId)
        (decodeFrom texts codec fuel' typeId) := simulates_decodeFrom hfuel
    split at h
    · next value rest hrun =>
      obtain ⟨value', hrun', rfl⟩ := hsame.done hrun
      rwa [hrun']
    · next e rest hrun => rwa [hsame.failed hrun]
    · cases h
  · rw [decode_of_lt (Nat.not_le.1 hstart)] at h ⊢
    exact h

/-- What a decoding ends with at one fuel is what it ends with. -/
theorem ends_iff {result : Except Error DecodedValue}
    (h : decode texts codec fuel typeId b.data (some b.bitCount) start = some result)
    (result' : Except Error DecodedValue) :
    Ends texts codec typeId b start result' ↔ result' = result := by
  constructor
  · rintro ⟨fuel', h'⟩
    have hmax := decode_fuel (Nat.le_max_left fuel fuel') h
    have hmax' := decode_fuel (Nat.le_max_right fuel fuel') h'
    exact Option.some.inj (hmax'.symm.trans hmax)
  · rintro rfl
    exact ⟨fuel, h⟩

end buffer

/-- **Decoding is prefix-stable.** A decoding that succeeds and stops at a bit gives the same on
every buffer that agrees up to that bit, and asks for more on every buffer that ends before it; one
that fails without asking for more does so on every extension of the buffer. -/
theorem decode_prefix_stable (texts : TraceTexts) (codec : Codec) (typeId : UInt32) (b : Buffer)
    (start : Nat) :
    (∀ decoded, Ends texts codec typeId b start (.ok decoded) →
      (∀ c : Buffer, b.Agrees c (start + decoded.bitCount) →
        start + decoded.bitCount ≤ c.bitCount → ∀ result,
          Ends texts codec typeId c start result ↔ result = .ok decoded) ∧
      ∀ c : Buffer, b.Agrees c c.bitCount → c.bitCount < start + decoded.bitCount →
        ∃ message, ∀ result,
          Ends texts codec typeId c start result ↔ result = .error (.incompleteFrame message)) ∧
    ∀ e, Ends texts codec typeId b start (.error e) → ¬ Incomplete e →
      ∀ c : Buffer, b.Agrees c b.bitCount → b.bitCount ≤ c.bitCount → ∃ e', ¬ Incomplete e' ∧
        ∀ result, Ends texts codec typeId c start result ↔ result = .error e' := by
  refine ⟨fun decoded ⟨fuel, h⟩ => ?_, fun e ⟨fuel, h⟩ he c hagree hsize => ?_⟩
  · have hstable := stable_decodeFrom texts codec fuel typeId
    obtain ⟨hstart, rest, hrun, hposition⟩ := decode_ok.1 h
    constructor
    · intro c hagree hsize
      have hstart' : start ≤ c.bitCount := (Nat.le_add_right _ _).trans hsize
      rw [← hposition] at hagree hsize
      obtain ⟨rest', hrun', -, hposition'⟩ :=
        hstable.whole (s := ⟨c.data, c.bitCount, start, c.supplied, hstart'⟩) hrun
          ⟨rfl, hagree⟩ hsize
      exact ends_iff (decode_ok.2 ⟨hstart', rest', hrun', hposition'.symm.trans hposition⟩)
    · intro c hagree hsize
      by_cases hstart' : start ≤ c.bitCount
      · rw [← hposition] at hsize
        obtain ⟨e, rest', hrun', hshort⟩ :=
          hstable.cut (s := ⟨c.data, c.bitCount, start, c.supplied, hstart'⟩) hrun
            ⟨rfl, hagree⟩ hsize
        have hfailed : decode texts codec fuel typeId c.data (some c.bitCount) start =
            some (.error e) := by
          rw [decode_of_le hstart', hrun']
        cases e with
        | incompleteFrame message => exact ⟨message, ends_iff hfailed⟩
        | _ => exact absurd hshort id
      · have hfailed : decode texts codec fuel typeId c.data (some c.bitCount) start = _ :=
          decode_of_lt (Nat.not_le.1 hstart')
        exact ⟨_, ends_iff hfailed⟩
  · obtain ⟨hstart, rest, hrun⟩ := (decode_refused he).1 h
    have hstart' : start ≤ c.bitCount := hstart.trans hsize
    obtain ⟨rest', hrun', -⟩ :=
      (stable_decodeFrom texts codec fuel typeId).refused
        (s := ⟨c.data, c.bitCount, start, c.supplied, hstart'⟩) hrun he ⟨rfl, hagree⟩ hsize
    exact ⟨e, he, ends_iff ((decode_refused he).2 ⟨hstart', rest', hrun'⟩)⟩

/-- A schema of one type, a `bool`. -/
def boolCodec : Codec := .fromSchema {
  knownTypeIds := [0]
  name := fun typeId => if typeId = 0 then .ok (some "Flag") else .error "no such type"
  lookup := fun typeId => if typeId = 0
    then .ok {
      kind := .bool
      obfuscated := false
      valueRange := none
      elementType := none
      indexValues := []
      memberTypes := []
      memberNames := []
      names_length := TypeShape.no_names
      types_length := TypeShape.no_types .bool }
    else .error "no such type" }

def blankTexts : TraceTexts := ⟨fun _ => "", fun _ => "", fun _ => ""⟩

/-- One bit is read: more bits change nothing, without it the decoding asks for more, and a type
that is not known stays unknown. -/
theorem decode_prefix_stable_bool :
    (∀ result, Ends blankTexts boolCodec 0 ⟨[3, 7], 16, by decide⟩ 0 result ↔
      result = .ok { value := .bool true, bitCount := 1 }) ∧
    (∃ message, ∀ result, Ends blankTexts boolCodec 0 ⟨[3], 0, by decide⟩ 0 result ↔
      result = .error (.incompleteFrame message)) ∧
    ∃ e, ¬ Incomplete e ∧ ∀ result,
      Ends blankTexts boolCodec 1 ⟨[3, 7], 16, by decide⟩ 0 result ↔ result = .error e := by
  have hread := (decode_prefix_stable blankTexts boolCodec 0 ⟨[3], 8, by decide⟩ 0).1
    { value := .bool true, bitCount := 1 } ⟨1, rfl⟩
  have hunknown := (decode_prefix_stable blankTexts boolCodec 1 ⟨[3], 8, by decide⟩ 0).2
    (.metadata "no such type") ⟨1, rfl⟩ id
  refine ⟨hread.1 _ ?_ (by decide), hread.2 _ ?_ (by decide), hunknown _ ?_ (by decide)⟩ <;>
    unfold Buffer.Agrees <;> decide

end Superiority.Bsn
