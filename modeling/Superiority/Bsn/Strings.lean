import Superiority.Bsn.Encode

/-!
# How long a string may be

The range of a string type counts characters, its length on the wire counts bytes: `byte_counted`
takes the maximum four times and gives the count two more bits, and leaves the minimum as it is.
The count is written as an offset from the minimum.

* **`string_round_trips_iff`** – a string in the range is coded and read back if and only if its
  length fits the widened count.
* **`string_coding_iff`** – so a type codes every string in its range if and only if the count is
  wide enough for four bytes in each of the characters it allows.
-/

namespace Superiority.Bsn

open Writing BitWriter

/-! ## Ranges -/

theorem writeRange_in_range {range : IntegerRange} {value : Int} {w w' : BitWriter} {u : Unit}
    (h : writeRange range value w = .done u w') :
    range.minimum ≤ value ∧ value ≤ range.maximum := by
  by_contra hrange
  rw [writeRange, if_pos hrange] at h
  cases h

/-- A value that was written as an offset. -/
theorem writeRange_offset {range : IntegerRange} {value : Int} {width : Nat} {w w' : BitWriter}
    {u : Unit} (hwidth : range.bitWidth = some width)
    (h : writeRange range value w = .done u w') :
    0 ≤ value - range.minimum ∧ value - range.minimum < 2 ^ 64 ∧
      w.write (value - range.minimum).toNat width = .ok w' := by
  rw [writeRange, if_neg (not_not.2 (writeRange_in_range h))] at h
  simp only [hwidth] at h
  split_ifs at h with hfits
  · exact ⟨hfits.1, hfits.2, run_done.1 h⟩
  · cases h

theorem writeRange_fixed {range : IntegerRange} {value : Int} {w w' : BitWriter} {u : Unit}
    (hwidth : range.bitWidth = none) (h : writeRange range value w = .done u w') :
    value = range.minimum ∧ w = w' := by
  rw [writeRange, if_neg (not_not.2 (writeRange_in_range h))] at h
  simp only [hwidth] at h
  by_cases hvalue : value = range.minimum
  · rw [if_neg (not_not.2 hvalue)] at h
    exact ⟨hvalue, (Decoder.pure_done.1 h).2⟩
  · rw [if_pos hvalue] at h
    cases h

theorem goes_writeRange {range : IntegerRange} {value : Int} {w w' : BitWriter} {u : Unit}
    (hw : w.Tidy) (h : writeRange range value w = .done u w') : Goes w w' := by
  cases hwidth : range.bitWidth with
  | none =>
    obtain ⟨-, rfl⟩ := writeRange_fixed hwidth h
    exact ⟨hw, Extends.refl w⟩
  | some width => exact goes_write hw (writeRange_offset hwidth h).2.2

/-- A value is read back from its range. -/
theorem conveys_readRange {range : IntegerRange} {value : Int} {w w' : BitWriter} {u : Unit}
    (hw : w.Tidy) (h : writeRange range value w = .done u w') :
    Conveys BitReader w w' (readRange range) (· = value) := by
  have hmaximum := (writeRange_in_range h).2
  have hoffset : Conveys BitReader w w' (readOffset range) (· = value) := by
    unfold readOffset
    cases hwidth : range.bitWidth with
    | none =>
      obtain ⟨rfl, rfl⟩ := writeRange_fixed hwidth h
      exact Conveys.pure rfl
    | some width =>
      obtain ⟨hlow, hhigh, hwrite⟩ := writeRange_offset hwidth h
      refine (conveys_read hw (by omega) hwrite).bind (Extends.refl _) fun n hn => ?_
      exact Conveys.pure (by omega)
  refine hoffset.bind (Extends.refl _) fun v hv => ?_
  rw [hv, if_neg (by omega)]
  exact Conveys.pure rfl

/-- A length is read back from its range. -/
theorem conveys_readLength {range : IntegerRange} {length : Nat} {w w' : BitWriter} {u : Unit}
    (hw : w.Tidy) (hlength : length < 2 ^ 64)
    (h : writeLength range length w = .done u w') :
    Conveys BitReader w w' (readLength range) (· = length) := by
  refine (conveys_readRange hw h).bind (Extends.refl _) fun v hv => ?_
  rw [hv, if_neg (by omega)]
  exact Conveys.pure (Int.toNat_natCast length)

/-- Where a value can be written as an offset. -/
theorem exists_writeRange_iff {range : IntegerRange} {value : Int} {width : Nat} (w : BitWriter)
    (hwidth : range.bitWidth = some width) :
    (∃ w', writeRange range value w = .done () w') ↔
      range.minimum ≤ value ∧ value ≤ range.maximum ∧ width ≤ 64 ∧
        value - range.minimum < 2 ^ width := by
  constructor
  · rintro ⟨w', h⟩
    obtain ⟨hlow, hhigh⟩ := writeRange_in_range h
    obtain ⟨hpos, hlt, hwrite⟩ := writeRange_offset hwidth h
    obtain ⟨hwide, hfits, -, -⟩ := write_ok hwrite
    refine ⟨hlow, hhigh, hwide, ?_⟩
    by_cases hwidth64 : width < 64
    · have hnat := hfits hwidth64
      zify at hnat
      rwa [Int.toNat_of_nonneg hpos] at hnat
    · obtain rfl : width = 64 := by omega
      exact hlt
  · rintro ⟨hlow, hhigh, hwide, hfits⟩
    have hlt : value - range.minimum < 2 ^ 64 :=
      hfits.trans_le (pow_le_pow_right₀ (by omega) hwide)
    have hnat : (value - range.minimum).toNat < 2 ^ width := by
      zify
      rwa [Int.toNat_of_nonneg (by omega)]
    obtain ⟨w', hwrite⟩ := w.exists_write hwide hnat
    refine ⟨w', ?_⟩
    rw [writeRange, if_neg (not_not.2 ⟨hlow, hhigh⟩)]
    simp only [hwidth]
    rw [if_pos ⟨by omega, hlt⟩]
    exact run_done.2 hwrite

/-! ## String types -/

/-- A string type that is coded as it is reflected: it is not marked obfuscated, or it is registered
as reflected. -/
structure StringType (codec : Codec) (typeId : UInt32) where
  shape : TypeShape
  range : IntegerRange
  width : Nat
  shape_eq : codec.schema.shape typeId = .ok shape
  kind_eq : shape.kind = .string
  range_eq : shape.valueRange = some range
  width_eq : range.bitWidth = some width
  reflects : shape.obfuscated = true →
    codec.wireLayouts[typeId]? = some .candidateReflected ∨
      codec.wireLayouts[typeId]? = some .verifiedReflected

namespace StringType

variable {codec : Codec} {typeId : UInt32} (t : StringType codec typeId)

include t in
/-- Any other layout is for a struct, or for a type that is marked obfuscated. -/
theorem layout_cases : codec.wireLayouts[typeId]? = none ∨
    codec.wireLayouts[typeId]? = some .candidateReflected ∨
      codec.wireLayouts[typeId]? = some .verifiedReflected := by
  rcases hlayout : codec.wireLayouts[typeId]? with _ | layout
  · exact .inl rfl
  · refine .inr ?_
    have hshape : ∀ {shape : TypeShape}, codec.schema.shape typeId = .ok shape →
        shape = t.shape := fun h => Except.ok.inj (h.symm.trans t.shape_eq)
    have hfits := codec.fits typeId layout hlayout
    by_cases hmarked : t.shape.obfuscated = true
    · rw [← hlayout]
      exact t.reflects hmarked
    · cases layout with
      | struct _ | candidateStruct _ =>
        obtain ⟨shape, hok, hkind, -⟩ := hfits
        rw [hshape hok, t.kind_eq] at hkind
        cases hkind
      | candidateReflected | verifiedReflected | custom _ =>
        obtain ⟨shape, hok, hobfuscated⟩ := hfits
        rw [hshape hok] at hobfuscated
        exact absurd hobfuscated hmarked

theorem exists_scope (reflected : Bool) :
    ∃ scope, codec.reflectedScope typeId t.shape reflected = .ok scope := by
  rw [Codec.reflectedScope]
  by_cases hplain : (reflected || !t.shape.obfuscated) = true
  · exact ⟨_, if_pos hplain⟩
  · rw [if_neg hplain]
    have hmarked : t.shape.obfuscated = true := by
      cases hobfuscated : t.shape.obfuscated <;> simp [hobfuscated] at hplain ⊢
    rcases t.reflects hmarked with hlayout | hlayout <;> rw [hlayout] <;> exact ⟨true, rfl⟩

/-- What the encoder does with a string: the count of its bytes, then the bytes. -/
theorem encodeInto_eq (fuel : Nat) (s : String) :
    encodeInto codec (fuel + 1) typeId (.string s) =
      writeLength (byteCounted t.range) (utf8Bytes s).length >>= fun _ =>
        Writing.writeBytes (utf8Bytes s) true := by
  obtain ⟨scope, hscope⟩ := t.exists_scope false
  unfold encodeInto encodeAny encodeScoped
  rw [t.shape_eq, Decoder.ofExcept_ok, Decoder.pure_bind]
  have hreflected : encodeReflected (encodeAny codec fuel) (defaultValue codec fuel) scope typeId
      t.shape (.string s) = writeLength (byteCounted t.range) (utf8Bytes s).length >>= fun _ =>
        Writing.writeBytes (utf8Bytes s) true := by
    rw [encodeReflected, t.kind_eq]
    simp only [requiredRange, t.range_eq, Decoder.ofExcept_ok]
    rfl
  rcases t.layout_cases with hlayout | hlayout | hlayout <;> rw [hlayout] <;> dsimp only <;>
    rw [hscope, Decoder.ofExcept_ok, Decoder.pure_bind, hreflected]

/-- What the decoder reads as a string. -/
theorem decodeInner_eq (texts : TraceTexts) (recur : Recur) (path : String) (depth : Nat) :
    decodeInner texts codec recur false typeId path depth false =
      readLength (byteCounted t.range) >>= fun length => Reading.readBytes length true >>=
        fun bytes => pure (.string (fromUtf8Lossy bytes), []) := by
  obtain ⟨scope, hscope⟩ := t.exists_scope false
  unfold decodeInner
  rw [t.shape_eq, Decoder.ofExcept_ok, Decoder.pure_bind]
  have hreflected : decodeReflected texts codec recur false typeId path depth t.shape scope =
      readLength (byteCounted t.range) >>= fun length => Reading.readBytes length true >>=
        fun bytes => pure (.string (fromUtf8Lossy bytes), []) := by
    rw [decodeReflected, t.kind_eq]
    simp only [requiredRange, t.range_eq, Decoder.ofExcept_ok]
    rfl
  rcases t.layout_cases with hlayout | hlayout | hlayout <;> rw [hlayout] <;> dsimp only <;>
    rw [hscope, Decoder.ofExcept_ok, Decoder.pure_bind, hreflected]

/-- The decoder of a string type reads what a string's count and bytes convey. -/
theorem conveys_decodeFrom (texts : TraceTexts) (fuel : Nat) {w w' : BitWriter} {s : String}
    (hext : Extends w w') (h : Conveys BitReader w w' (readLength (byteCounted t.range) >>= fun length =>
      Reading.readBytes length true) (· = utf8Bytes s)) :
    Conveys BitReader w w' (decodeFrom texts codec (fuel + 1) typeId) (· = .string s) := by
  have hinner : Conveys BitReader w w'
      (decodeInner texts codec (decodeAny texts codec fuel) false typeId "value" 0 false)
      fun a => a.1 = .string s := by
    rw [t.decodeInner_eq, ← Decoder.bind_assoc]
    refine h.bind (Extends.refl _) fun bytes hbytes => Conveys.pure ?_
    rw [hbytes, fromUtf8Lossy_utf8Bytes]
  refine Conveys.map (?_ : Conveys BitReader w w' _ fun a => a.1 = .string s) fun a ha => ha
  unfold decodeAny decodeScoped
  refine Conveys.place.bind_still hext fun _ _ => ?_
  rw [t.shape_eq, Decoder.ofExcept_ok, Decoder.pure_bind]
  refine hinner.mapError.bind (Extends.refl _) fun a ha => ?_
  exact Conveys.place.bind_still (Extends.refl _) fun _ _ => Conveys.pure ha

end StringType

/-- The string is written behind whatever the writer holds, and read back from there. -/
def RoundTrips (texts : TraceTexts) (codec : Codec) (typeId : UInt32) (s : String) : Prop :=
  ∀ (fuel : Nat) (w : BitWriter), w.Tidy → w.position < 2 ^ 64 → ∃ w',
    encodeInto codec (fuel + 1) typeId (.string s) w = .done () w' ∧
      Conveys BitReader w w' (decodeFrom texts codec (fuel + 1) typeId) (· = .string s)

/-- A message of its own is such a string. -/
theorem RoundTrips.decode_encode {texts : TraceTexts} {codec : Codec} {typeId : UInt32}
    (t : StringType codec typeId) {s : String} (h : RoundTrips texts codec typeId s) (fuel : Nat) :
    ∃ e, encode codec (fuel + 1) typeId (.string s) = some (.ok e) ∧
      decode texts codec (fuel + 1) typeId e.data (some e.bitCount) 0 =
        some (.ok { value := .string s, bitCount := e.bitCount }) := by
  obtain ⟨w, hencode, hconveys⟩ := h fuel {} tidy_empty (by decide)
  have htidy : w.Tidy := by
    have hencode' := hencode
    rw [t.encodeInto_eq] at hencode'
    obtain ⟨_, w₁, hlength, hbytes⟩ := Decoder.bind_done.1 hencode'
    exact (goes_writeBytes (goes_writeRange tidy_empty hlength).tidy (run_done.1 hbytes)).tidy
  exact Bsn.decode_encode codec (fuel + 1) typeId (.string s) texts htidy hencode hconveys

namespace StringType

variable {codec : Codec} {typeId : UInt32} (t : StringType codec typeId)

/-- A string in the range is coded if and only if its length fits the widened count. -/
theorem string_round_trips_iff (texts : TraceTexts) {s : Str} (hlow : t.range.minimum ≤ s.chars)
    (hhigh : s.chars ≤ t.range.maximum) :
    RoundTrips texts codec typeId s.value ↔
      t.width ≤ 62 ∧ s.bytes.length - t.range.minimum < 2 ^ (t.width + 2) := by
  have hwidth : (byteCounted t.range).bitWidth = some (t.width + 2) := by
    rw [byteCounted, t.width_eq]
    rfl
  obtain ⟨hmost, hleast⟩ := length_utf8Bytes s.value
  have hsize := s.size_lt
  have hfits : ∀ w, (∃ w', writeLength (byteCounted t.range) s.bytes.length w = .done () w') ↔
      t.width ≤ 62 ∧ s.bytes.length - t.range.minimum < 2 ^ (t.width + 2) := by
    intro w
    rw [writeLength, exists_writeRange_iff w hwidth]
    simp only [byteCounted, Str.chars, Str.bytes] at hlow hhigh ⊢
    constructor
    · rintro ⟨-, -, hwide, hcount⟩
      exact ⟨by omega, hcount⟩
    · rintro ⟨hwide, hcount⟩
      exact ⟨by omega, by omega, by omega, hcount⟩
  constructor
  · intro h
    obtain ⟨w', hencode, -⟩ := h 0 {} tidy_empty (by decide)
    rw [t.encodeInto_eq] at hencode
    obtain ⟨_, w₁, hlength, -⟩ := Decoder.bind_done.1 hencode
    exact (hfits {}).1 ⟨w₁, hlength⟩
  · intro h fuel w hw hposition
    obtain ⟨w₁, hlength⟩ := (hfits w).2 h
    have hgoes := goes_writeRange hw hlength
    obtain ⟨w₂, hbytes⟩ := exists_writeBytes hgoes.tidy s.bytes
    refine ⟨w₂, ?_, ?_⟩
    · rw [t.encodeInto_eq]
      exact Decoder.bind_done.2 ⟨(), w₁, hlength, run_done.2 hbytes⟩
    · have hwritten : w₁.position ≤ w.position + 64 := by
        obtain ⟨-, -, hwrite⟩ := writeRange_offset hwidth hlength
        have hadvance := (write_ok hwrite).2.2.1
        omega
      have hcount : s.bytes.length < 2 ^ 63 := hsize
      have hgoes' := goes_writeBytes hgoes.tidy hbytes
      refine t.conveys_decodeFrom texts fuel (hgoes.trans hgoes').extends_ ?_
      refine (conveys_readLength hw (by omega) hlength).bind hgoes'.extends_ fun length hread => ?_
      rw [hread]
      exact conveys_readBytes hgoes.tidy (by omega) hbytes

/-- The most bytes that a string of the type can have. -/
def most : Int := min (4 * t.range.maximum) (2 ^ 63 - 1)

/-- No string has so many characters. -/
def Vacant : Prop :=
  t.range.maximum < t.range.minimum ∨ t.range.maximum < 0 ∨ 2 ^ 63 ≤ t.range.minimum

/-- The widened count reaches from the minimum to the most bytes of a string. -/
def Covers : Prop := t.width ≤ 62 ∧ t.most < t.range.minimum + 2 ^ (t.width + 2)

/-- A string of the most bytes, where there is a string at all. -/
theorem exists_longest (h : ¬t.Vacant) : ∃ s : Str, t.range.minimum ≤ s.chars ∧
    s.chars ≤ t.range.maximum ∧ (s.bytes.length : Int) = t.most := by
  simp only [Vacant, not_or] at h
  by_cases hsmall : 4 * t.range.maximum ≤ 2 ^ 63 - 1
  · obtain ⟨s, hchars, hbytes⟩ : ∃ s : Str, s.chars = t.range.maximum.toNat ∧
        s.bytes.length = 4 * t.range.maximum.toNat :=
      exists_text (by omega) (by omega) (by omega)
    exact ⟨s, by omega, by omega, by rw [most, min_eq_left hsmall]; omega⟩
  · obtain ⟨s, hchars, hbytes⟩ : ∃ s : Str, s.chars = max t.range.minimum.toNat (2 ^ 61) ∧
        s.bytes.length = 2 ^ 63 - 1 := exists_text (by omega) (by omega) (by omega)
    exact ⟨s, by omega, by omega, by rw [most, min_eq_right (by omega)]; omega⟩

/-- Every string in the range is coded and read back, if and only if the count is wide enough. -/
theorem string_coding_iff (texts : TraceTexts) :
    (∀ s : Str, t.range.minimum ≤ s.chars → s.chars ≤ t.range.maximum →
      RoundTrips texts codec typeId s.value) ↔ t.Vacant ∨ t.Covers := by
  constructor
  · intro h
    by_cases hvacant : t.Vacant
    · exact .inl hvacant
    · obtain ⟨s, hlow, hhigh, hbytes⟩ := t.exists_longest hvacant
      obtain ⟨hwide, hcount⟩ := (t.string_round_trips_iff texts hlow hhigh).1 (h s hlow hhigh)
      exact .inr ⟨hwide, by omega⟩
  · intro h s hlow hhigh
    obtain ⟨hmost, hleast⟩ := length_utf8Bytes s.value
    have hsize := s.size_lt
    refine (t.string_round_trips_iff texts hlow hhigh).2 ?_
    simp only [Vacant, Covers, most, Str.chars, Str.bytes] at h hlow hhigh ⊢
    rcases h with hvacant | ⟨hwide, hcount⟩
    · omega
    · exact ⟨hwide, by omega⟩

/-- A count that tells the characters apart is wide enough if the shortest string has one at most. -/
theorem covers_of_minimum_le_one (hwidth : t.range.maximum - t.range.minimum < 2 ^ t.width)
    (hminimum : t.range.minimum ≤ 1) (hwide : t.width ≤ 62) : t.Covers := by
  refine ⟨hwide, (min_le_left _ _).trans_lt ?_⟩
  rw [pow_add]
  omega

end StringType

/-- Two to five characters, told apart by two bits. -/
def fewCharacters : TypeShape where
  kind := .string
  obfuscated := false
  valueRange := some { bitWidth := some 2, minimum := 2, maximum := 5 }
  elementType := none
  indexValues := []
  memberTypes := []
  memberNames := []
  names_length := TypeShape.no_names
  types_length := TypeShape.no_types .string

def fewCodec : Codec := Codec.fromSchema {
  knownTypeIds := [0]
  name := fun _ => .ok none
  lookup := fun _ => .ok fewCharacters }

def fewType : StringType fewCodec 0 where
  shape := fewCharacters
  range := { bitWidth := some 2, minimum := 2, maximum := 5 }
  width := 2
  shape_eq := rfl
  kind_eq := rfl
  range_eq := rfl
  width_eq := rfl
  reflects := nofun

/-- Five clefs take twenty bytes, eighteen more than the minimum, which four bits do not hold. -/
theorem five_clefs_refused : ¬∀ (texts : TraceTexts) (codec : Codec) (typeId : UInt32)
    (t : StringType codec typeId), t.range.maximum - t.range.minimum < 2 ^ t.width →
      ∀ s : Str, t.range.minimum ≤ s.chars → s.chars ≤ t.range.maximum →
        RoundTrips texts codec typeId s.value := by
  intro h
  let texts : TraceTexts := ⟨fun _ => "", fun _ => "", fun _ => ""⟩
  let clefs : Str := ⟨"𝄞𝄞𝄞𝄞𝄞", by decide⟩
  have hlow : fewType.range.minimum ≤ clefs.chars := by decide
  have hhigh : clefs.chars ≤ fewType.range.maximum := by decide
  have hcount := ((fewType.string_round_trips_iff texts hlow hhigh).1
    (h texts fewCodec 0 fewType (by decide) clefs hlow hhigh)).2
  exact absurd hcount (by decide)

end Superiority.Bsn
