import Superiority.Bsn.Encode
import Superiority.Bsn.RawBits
import Superiority.Bsn.TracePaths

/-!
# Whatever is encoded is decoded

What the encoder of `bsn/codec.rs` writes for a value, its decoder reads as the value in normal
form: the fields of a struct are in the order of the schema and under its names, with the defaults
of those that were left out, and a bit array is cut to its bits.

* **`Writes`** – a routine of the encoder and one of the decoder go over the same stretch of the
  stream.
* **`writes_encodeAny`** – the two recursions do, at every bit and in every scope. The induction is
  on the depth of the recursion, with one lemma for the kinds and one for the struct layouts.
* **`decode_encodeInto`** – the round trip, for any registered layouts, between whatever else is
  written.
-/

namespace Superiority.Bsn

open BitWriter Writing

variable {α β γ δ : Type}

/-! ## Routines that go over the same stretch -/

/-- Whatever the routine of the encoder writes, that of the decoder reads, with results that are
related. -/
def Writes (x : Writing γ) (y : Reading α) (P : γ → α → Prop) : Prop :=
  ∀ w w' c, w.Tidy → x w = .done c w' → Goes w w' ∧ (∃ a, P c a) ∧
    (w'.position < 2 ^ 64 → Conveys BitReader w w' y (P c))

namespace Writes

variable {x : Writing γ} {y : Reading α} {P : γ → α → Prop}

theorem mono {Q : γ → α → Prop} (h : Writes x y P) (hPQ : ∀ c a, P c a → Q c a) :
    Writes x y Q := by
  intro w w' c hw hx
  obtain ⟨hgoes, ⟨a, ha⟩, hconveys⟩ := h w w' c hw hx
  exact ⟨hgoes, ⟨a, hPQ c a ha⟩, fun hsize => (hconveys hsize).mono (hPQ c)⟩

theorem pure {c : γ} {a : α} (h : P c a) : Writes (pure c) (pure a) P := by
  intro w w' c' hw hx
  obtain ⟨rfl, rfl⟩ := Decoder.pure_done.1 hx
  exact ⟨⟨hw, Extends.refl w⟩, ⟨a, h⟩, fun _ => Conveys.pure h⟩

/-- An encoder that fails has written nothing that is to be read. -/
theorem fail (e : Error) (y : Reading α) : Writes (Decoder.fail e : Writing γ) y P := by
  intro w w' c _ hx
  cases hx

theorem bind {f : γ → Writing δ} {g : α → Reading β} {Q : δ → β → Prop} (h : Writes x y P)
    (hfg : ∀ c a, P c a → Writes (f c) (g a) Q) : Writes (x >>= f) (y >>= g) Q := by
  intro w w' d hw hx
  obtain ⟨c, w₁, hc, hd⟩ := Decoder.bind_done.1 hx
  obtain ⟨hgoes, ⟨a, ha⟩, hconveys⟩ := h w w₁ c hw hc
  obtain ⟨hgoes', hb, -⟩ := hfg c a ha w₁ w' d hgoes.tidy hd
  refine ⟨hgoes.trans hgoes', hb, fun hsize => ?_⟩
  have hsize₁ : w₁.position < 2 ^ 64 := lt_of_le_of_lt hgoes'.extends_.position hsize
  refine (hconveys hsize₁).bind hgoes'.extends_ fun a ha => ?_
  exact (hfg c a ha w₁ w' d hgoes.tidy hd).2.2 hsize

theorem fail_after (z : Writing δ) (e : Error) (y : Reading α) :
    Writes (z >>= fun _ => (Decoder.fail e : Writing γ)) y P := by
  intro w w' c _ hx
  obtain ⟨d, w₁, -, h⟩ := Decoder.bind_done.1 hx
  cases h

/-- The encoder does something first that writes nothing. -/
theorem after_still {z : Writing δ} {f : δ → Writing γ} {R : δ → Prop}
    (hz : ∀ w w' d, z w = .done d w' → w' = w ∧ R d) (h : ∀ d, R d → Writes (f d) y P) :
    Writes (z >>= f) y P := by
  intro w w' c hw hx
  obtain ⟨d, w₁, hd, hc⟩ := Decoder.bind_done.1 hx
  obtain ⟨rfl, hR⟩ := hz w w₁ d hd
  exact h d hR w₁ w' c hw hc

/-- The decoder looks where it is first. -/
theorem after_place {g : Nat → Reading α} (h : ∀ n, Writes x (g n) P) :
    Writes x (Tape.place >>= g) P := by
  intro w w' c hw hx
  obtain ⟨hgoes, ha, -⟩ := h 0 w w' c hw hx
  refine ⟨hgoes, ha, fun hsize => Conveys.place.bind_still hgoes.extends_ fun n _ => ?_⟩
  exact (h n w w' c hw hx).2.2 hsize

/-- The decoder does something with what it has read. -/
theorem map {g : α → Reading β} {Q : γ → β → Prop} (h : Writes x y P)
    (hg : ∀ c a, P c a → Writes (Pure.pure c) (g a) Q) : Writes x (y >>= g) Q := by
  intro w w' c hw hx
  refine h.bind (f := Pure.pure) hg w w' c hw ?_
  exact Decoder.bind_done.2 ⟨c, w', hx, rfl⟩

theorem mapError {f : Nat → Nat → Error → Error} (h : Writes x y P) :
    Writes x (y.mapError f) P := by
  intro w w' c hw hx
  obtain ⟨hgoes, ha, hconveys⟩ := h w w' c hw hx
  exact ⟨hgoes, ha, fun hsize => (hconveys hsize).mapError⟩

theorem ofExcept (e : Except Error α) :
    Writes (Decoder.ofExcept e) (Decoder.ofExcept e) fun c a => a = c := by
  cases e with
  | error e => exact fail e _
  | ok a => exact pure rfl

end Writes

/-- Both sides ask for the range of a type. -/
theorem Writes.range_bind {shape : TypeShape} {f : IntegerRange → Writing δ}
    {g : IntegerRange → Reading β} {Q : δ → β → Prop}
    (h : ∀ range, Writes (f range) (g range) Q) :
    Writes (Decoder.ofExcept (requiredRange shape) >>= f)
      (Decoder.ofExcept (requiredRange shape) >>= g) Q := by
  refine (Writes.ofExcept (requiredRange shape)).bind fun range range' hrange => ?_
  rw [hrange]
  exact h range

theorem requiredElement_eq_ok {shape : TypeShape} {element : UInt32} :
    requiredElement shape = .ok element ↔ shape.elementType = some element := by
  unfold requiredElement
  cases shape.elementType <;> simp

/-- Both sides ask for the type of the elements. -/
theorem Writes.element_bind {shape : TypeShape} {f : UInt32 → Writing δ}
    {g : UInt32 → Reading β} {Q : δ → β → Prop}
    (h : ∀ element, shape.elementType = some element → Writes (f element) (g element) Q) :
    Writes (Decoder.ofExcept (requiredElement shape) >>= f)
      (Decoder.ofExcept (requiredElement shape) >>= g) Q := by
  cases helement : requiredElement shape with
  | error e => exact Writes.fail e _
  | ok element => exact h element (requiredElement_eq_ok.1 helement)

/-! ## Fields -/

theorem writes_write {value : Nat} (hvalue : value < 2 ^ 64) (width : Nat) :
    Writes (write value width) (Reading.read width) fun _ a => a = value := by
  intro w w' c hw hx
  have hwrite := run_done.1 hx
  exact ⟨goes_write hw hwrite, ⟨value, rfl⟩, fun _ => conveys_read hw hvalue hwrite⟩

theorem writes_writeBytes (data : List UInt8) :
    Writes (writeBytes data true) (Reading.readBytes data.length true) fun _ a => a = data := by
  intro w w' c hw hx
  have hwrite := run_done.1 hx
  refine ⟨goes_writeBytes hw hwrite, ⟨data, rfl⟩, fun hsize => conveys_readBytes hw ?_ hwrite⟩
  obtain ⟨w₁, halign, hcopy⟩ := except_bind_ok.1 hwrite
  have hgoes := goes_align hw halign
  have hcopy : w₁.copyBytes data = .ok w' := hcopy
  rw [copyBytes_eq hgoes.tidy (aligned_position halign)] at hcopy
  obtain rfl := Except.ok.inj hcopy
  have hposition : w.position ≤ w₁.position := hgoes.extends_.position
  dsimp only at hsize
  omega

theorem writes_writeRaw (data : List UInt8) (bitCount : Nat) :
    Writes (writeRaw data (some bitCount)) (Reading.readRaw bitCount) fun _ a =>
      a = Reading.leadingBits data bitCount := by
  intro w w' c hw hx
  have hwrite := run_done.1 hx
  exact ⟨goes_writeRaw hw hwrite, ⟨_, rfl⟩, fun _ => conveys_readRaw hw hwrite⟩

theorem writes_writeRange (range : IntegerRange) (value : Int) :
    Writes (writeRange range value) (readRange range) fun _ a => a = value := by
  unfold writeRange
  by_cases hrange : range.minimum ≤ value ∧ value ≤ range.maximum
  swap
  · rw [if_pos hrange]
    exact Writes.fail _ _
  · rw [if_neg (not_not.2 hrange)]
    obtain ⟨hminimum, hmaximum⟩ := hrange
    refine Writes.map (P := fun _ a => a = value) ?_ fun c a ha => ?_
    · unfold readOffset
      cases range.bitWidth with
      | none =>
        dsimp only
        split_ifs with hvalue
        · exact Writes.fail _ _
        · exact Writes.pure (not_not.1 hvalue).symm
      | some width =>
        dsimp only
        split_ifs with hfits
        · refine (writes_write (by omega) width).map fun c a ha => Writes.pure ?_
          rw [ha]
          omega
        · exact Writes.fail _ _
    · rw [ha, if_neg (not_lt.2 hmaximum)]
      exact Writes.pure rfl

theorem writes_writeLength (range : IntegerRange) {length : Nat} (hlength : length < 2 ^ 64) :
    Writes (writeLength range length) (readLength range) fun _ a => a = length := by
  refine (writes_writeRange range length).map fun c a ha => ?_
  rw [ha, if_neg (by omega)]
  exact Writes.pure (Int.toNat_natCast length)

theorem writes_writeFiller (width : Nat) (state : UInt32) (label path : String) (depth : Nat) :
    Writes (writeFiller width state) (readFiller false width label path depth)
      fun _ _ => True := by
  unfold writeFiller readFiller
  by_cases hwidth : width = 0
  · rw [if_pos hwidth, if_pos hwidth]
    exact Writes.pure trivial
  · rw [if_neg hwidth, if_neg hwidth]
    refine Writes.after_still (R := fun _ => True) (fun w w' d h => ?_) fun w _ => ?_
    · cases h
      exact ⟨rfl, trivial⟩
    · have hfiller (state : UInt32) :
          (if width ≥ 32 then state.toNat else state.toNat % 2 ^ width) < 2 ^ 64 := by
        have hstate := state.toNat_lt
        have hmod := Nat.mod_le state.toNat (2 ^ width)
        split_ifs <;> omega
      refine Writes.after_place fun n => ?_
      refine (writes_write (hfiller _) width).bind fun c a _ => ?_
      exact Writes.after_place fun m => Writes.pure trivial

theorem writes_bytes {value : List UInt8} (hvalue : value.length < 2 ^ 64) (shape : TypeShape) :
    Writes (do
        let range ← Decoder.ofExcept (requiredRange shape)
        writeLength range value.length
        writeBytes value true)
      (do
        let range ← Decoder.ofExcept (requiredRange shape)
        let length ← readLength range
        let bytes ← Reading.readBytes length true
        return (BsnValue.bytes bytes, ([] : List DecodedField)))
      fun _ a => some (BsnValue.bytes value) = some a.1 := by
  refine Writes.range_bind fun range => ?_
  refine (writes_writeLength range hvalue).bind fun _ length hlength => ?_
  rw [hlength]
  refine (writes_writeBytes value).map fun _ a ha => Writes.pure ?_
  rw [ha]

/-! ## Normal forms -/

mutual

/-- A `usize` has 64 bits. -/
def BsnValue.Sized : BsnValue → Prop
  | .bytes value => value.length < 2 ^ 64
  | .string value => (utf8Bytes value).length < 2 ^ 64
  | .bitArray _ bitCount => bitCount < 2 ^ 64
  | .array values => values.length < 2 ^ 64 ∧ SizedValues values
  | .optional (some value) => value.Sized
  | .choice _ value => value.Sized
  | .struct _ fields => SizedFields fields
  | _ => True

def SizedValues : List BsnValue → Prop
  | [] => True
  | value :: values => value.Sized ∧ SizedValues values

def SizedFields : List BsnField → Prop
  | [] => True
  | .mk _ _ value :: fields => value.Sized ∧ SizedFields fields

end

theorem sizedValues_iff {values : List BsnValue} :
    SizedValues values ↔ ∀ value ∈ values, value.Sized := by
  induction values with
  | nil => simp [SizedValues]
  | cons value values ih => simp [SizedValues, ih]

theorem sizedFields_iff {fields : List BsnField} :
    SizedFields fields ↔ ∀ field ∈ fields, field.value.Sized := by
  induction fields with
  | nil => simp [SizedFields]
  | cons field fields ih =>
    obtain ⟨index, name, value⟩ := field
    simp [SizedFields, ih, BsnField.value]

theorem sized_fieldValue {fields : List BsnField} {index : Int} {value : BsnValue}
    (hsized : SizedFields fields) (h : fieldValue fields index = some value) : value.Sized := by
  obtain ⟨field, hfind, rfl⟩ := Option.map_eq_some_iff.1 h
  exact sizedFields_iff.1 hsized field (List.mem_reverse.1 (List.mem_of_find?_eq_some hfind))

section normal

variable (recur : UInt32 → BsnValue → Option BsnValue) (default : UInt32 → Option BsnValue)

/-- A member of a struct in normal form: under its name, or its default. -/
def normalMember (fields : List BsnField) (member : Member) : Option BsnField := do
  let value ← (fieldValue fields member.index).or (default member.type)
  let value ← recur member.type value
  return .mk member.index member.name value

/-- The normal form by the kind of the type. -/
def normalOf (typeId : UInt32) (shape : TypeShape) (value : BsnValue) : Option BsnValue :=
  match shape.kind, value with
  | .alias, value => do
    let element ← shape.elementType
    recur element value
  | .bitArray, .bitArray data bitCount =>
    some (.bitArray (Reading.leadingBits data bitCount) bitCount)
  | .array, .array values => do
    let element ← shape.elementType
    let values ← values.mapM (recur element)
    return .array values
  | .optional, .optional (some value) => do
    let element ← shape.elementType
    let value ← recur element value
    return .optional (some value)
  | .choice, .choice index value => do
    let member ← shape.members.find? (·.index == index)
    let value ← recur member.type value
    return .choice index value
  | .struct, .struct _ fields => do
    let fields ← shape.members.mapM (normalMember recur default fields)
    return .struct typeId fields
  | _, value => some value

end normal

/-- The default of a type, to a depth of recursion. -/
def defaultOf (schema : Schema) : Nat → UInt32 → Option BsnValue
  | 0, _ => none
  | fuel + 1, typeId =>
    match schema.shape typeId with
    | .error _ => none
    | .ok shape =>
      match shape.kind with
      | .alias => shape.elementType.bind (defaultOf schema fuel)
      | .optional => some (.optional none)
      | .void => some .void
      | kind => if kind = .struct ∧ shape.memberTypes = [] then some (.struct typeId []) else none

/-- The normal form of a value of a type, to a depth of recursion. -/
def normalForm (schema : Schema) : Nat → UInt32 → BsnValue → Option BsnValue
  | 0, _, _ => none
  | fuel + 1, typeId, value =>
    match schema.shape typeId with
    | .error _ => none
    | .ok shape => normalOf (normalForm schema fuel) (defaultOf schema fuel) typeId shape value

/-- A default is found without writing. -/
theorem defaultValue_done {codec : Codec} {fuel : Nat} {typeId : UInt32} {w w' : BitWriter}
    {value : BsnValue} (h : defaultValue codec fuel typeId w = .done value w') :
    w' = w ∧ defaultOf codec.schema fuel typeId = some value ∧ value.Sized := by
  induction fuel generalizing typeId with
  | zero => cases h
  | succ fuel ih =>
    obtain ⟨shape, w₁, hfound, h⟩ := Decoder.bind_done.1 h
    obtain ⟨hshape, rfl⟩ := Decoder.ofExcept_done.1 hfound
    rw [defaultOf, hshape]
    cases hkind : shape.kind with
    | «alias» =>
      simp only [hkind] at h ⊢
      obtain ⟨element, w₂, hfound, h⟩ := Decoder.bind_done.1 h
      obtain ⟨helement, rfl⟩ := Decoder.ofExcept_done.1 hfound
      obtain ⟨rfl, hdefault, hsized⟩ := ih h
      exact ⟨rfl, by rw [requiredElement_eq_ok.1 helement]; exact hdefault, hsized⟩
    | optional =>
      simp only [hkind] at h ⊢
      obtain ⟨rfl, rfl⟩ := Decoder.pure_done.1 h
      exact ⟨rfl, rfl, trivial⟩
    | void =>
      simp only [hkind] at h ⊢
      obtain ⟨rfl, rfl⟩ := Decoder.pure_done.1 h
      exact ⟨rfl, rfl, trivial⟩
    | struct =>
      simp only [hkind, true_and] at h ⊢
      split_ifs at h ⊢ with hempty
      · obtain ⟨rfl, rfl⟩ := Decoder.pure_done.1 h
        exact ⟨rfl, rfl, trivial⟩
      · cases h
    | _ =>
      simp only [hkind, reduceCtorEq, false_and, if_false] at h
      cases h

/-! ## Members -/

/-- The calls that the encoder makes of itself go over the same stretch as those of the decoder. -/
structure Matches (recur : Bool → UInt32 → BsnValue → Writing Unit)
    (default : UInt32 → Writing BsnValue) (decode : Recur)
    (normal : UInt32 → BsnValue → Option BsnValue) (defaultOf : UInt32 → Option BsnValue) :
    Prop where
  recur : ∀ reflected typeId (value : BsnValue) path depth, value.Sized →
    Writes (recur reflected typeId value) (decode false reflected typeId path depth)
      fun _ a => normal typeId value = some a.1
  default : ∀ typeId w w' (value : BsnValue), default typeId w = .done value w' →
    w' = w ∧ defaultOf typeId = some value ∧ value.Sized

namespace Matches

variable {recur : Bool → UInt32 → BsnValue → Writing Unit} {default : UInt32 → Writing BsnValue}
variable {decode : Recur} {normal : UInt32 → BsnValue → Option BsnValue}
variable {defaultOf : UInt32 → Option BsnValue}

theorem member (h : Matches recur default decode normal defaultOf) (reflected : Bool)
    {fields : List BsnField} (hsized : SizedFields fields) (member : Member) (path : String)
    (depth : Nat) :
    Writes (encodeMember recur default reflected fields member)
      (decode false reflected member.type path depth)
      fun _ a => normalMember normal defaultOf fields member =
        some (.mk member.index member.name a.1) := by
  unfold encodeMember normalMember
  cases hfield : fieldValue fields member.index with
  | some value =>
    refine (h.recur reflected member.type value path depth
      (sized_fieldValue hsized hfield)).mono fun _ a ha => ?_
    simp [ha]
  | none =>
    refine Writes.after_still (h.default member.type) fun value hvalue => ?_
    refine (h.recur reflected member.type value path depth hvalue.2).mono fun _ a ha => ?_
    simp [hvalue.1, ha]

theorem elements (h : Matches recur default decode normal defaultOf) (reflected : Bool)
    (element : UInt32) (path : Nat → String) (depth : Nat) {values : List BsnValue}
    (hsized : SizedValues values) (index : Nat) :
    Writes (encodeElements recur reflected element values)
      (decodeElements (fun index => decode false reflected element (path index) depth) index
        values.length)
      fun _ a => values.mapM (normal element) = some a.1 := by
  induction values generalizing index with
  | nil => exact Writes.pure rfl
  | cons value values ih =>
    refine (h.recur reflected element value (path index) depth hsized.1).mapError.bind
      fun _ a ha => ?_
    refine (ih hsized.2 (index + 1)).map fun _ b hb => Writes.pure ?_
    simp [ha, hb]

theorem members (h : Matches recur default decode normal defaultOf) (reflected : Bool)
    {fields : List BsnField} (hsized : SizedFields fields) (path : Member → String) (depth : Nat)
    (typeText : String) (members : List Member) :
    Writes (encodeMembers recur default reflected fields members)
      (decodeMembers (fun member => decode false reflected member.type (path member) depth)
        typeText members)
      fun _ a => members.mapM (normalMember normal defaultOf fields) = some a.1 := by
  induction members with
  | nil => exact Writes.pure rfl
  | cons member members ih =>
    refine (h.member reflected hsized member (path member) depth).mapError.bind fun _ a ha => ?_
    refine ih.map fun _ b hb => Writes.pure ?_
    simp [ha, hb]

/-- The fields of a struct layout, each with its logical position. -/
theorem layoutFields (h : Matches recur default decode normal defaultOf) {fields : List BsnField}
    (hsized : SizedFields fields) (members : List Member) (path : String)
    (paths : Member → String) (depth depth' : Nat) (entries : List WireField) (state : UInt32) :
    Writes (encodeLayoutFields recur default fields members state entries)
      (decodeLayoutFields (fun member => decode false false member.type (paths member) depth')
        false members path depth entries)
      fun _ a => entries.mapM (fun entry => members[entry.logicalField]?.bind fun member =>
        (normalMember normal defaultOf fields member).map (entry.logicalField, ·)) = some a.1 := by
  induction entries generalizing state with
  | nil => exact Writes.pure rfl
  | cons entry entries ih =>
    unfold encodeLayoutFields decodeLayoutFields
    cases hmember : members[entry.logicalField]? with
    | none => exact Writes.fail_after _ _ _
    | some member =>
      refine (writes_writeFiller entry.fillerBefore state member.label path depth).bind
        fun state _ _ => ?_
      refine (h.member false hsized member (paths member) depth').bind fun _ a ha => ?_
      refine (ih state).map fun _ b hb => Writes.pure ?_
      simp [hmember, ha, hb]

end Matches

/-! ## Struct layouts -/

/-- The layout of a struct that does not lie as it is reflected. -/
def RegisteredWireLayout.structLayout : RegisteredWireLayout → Option StructWireLayout
  | .struct layout | .candidateStruct layout => some layout
  | _ => none

/-- Every struct layout has each field of its struct once. -/
def Codec.Complete (codec : Codec) : Prop :=
  ∀ typeId registered layout shape, codec.wireLayouts[typeId]? = some registered →
    registered.structLayout = some layout → codec.schema.shape typeId = .ok shape →
    (layout.fields.map WireField.logicalField).Perm (List.range shape.memberTypes.length)

/-- What is found for every place of a list is found for the list. -/
theorem mapM_range {f : α → Option β} {g : Nat → Except Error β} (l : List α)
    (h : ∀ p a, l[p]? = some a → ∃ b, f a = some b ∧ g p = .ok b) :
    ∃ bs, l.mapM f = some bs ∧ (List.range l.length).mapM g = .ok bs := by
  induction l generalizing g with
  | nil => exact ⟨[], rfl, rfl⟩
  | cons a l ih =>
    obtain ⟨b, hf, hg⟩ := h 0 a rfl
    obtain ⟨bs, hfs, hgs⟩ := ih (g := fun p => g (p + 1)) fun p a ha => h (p + 1) a ha
    refine ⟨b :: bs, by simp [hf, hfs], ?_⟩
    rw [List.length_cons, List.range_succ_eq_map, List.mapM_cons, hg, List.mapM_map]
    exact except_bind_ok.2 ⟨b, rfl, except_bind_ok.2 ⟨bs, hgs, rfl⟩⟩

/-- What a list is mapped to comes from its entries, and each of them gives something. -/
theorem mem_of_mapM {f : α → Option β} {l : List α} {bs : List β} (h : l.mapM f = some bs) :
    (∀ b ∈ bs, ∃ a ∈ l, f a = some b) ∧ ∀ a ∈ l, ∃ b ∈ bs, f a = some b := by
  induction l generalizing bs with
  | nil =>
    obtain rfl : [] = bs := by simpa using h
    simp
  | cons a l ih =>
    rw [List.mapM_cons] at h
    obtain ⟨b, hb, h⟩ := Option.bind_eq_some_iff.1 h
    obtain ⟨bs', hbs, h⟩ := Option.bind_eq_some_iff.1 h
    obtain rfl := Option.some.inj h
    obtain ⟨hback, hforth⟩ := ih hbs
    constructor
    · intro b' hb'
      rcases List.mem_cons.1 hb' with rfl | hb'
      · exact ⟨a, List.mem_cons_self, hb⟩
      · obtain ⟨a', ha', hf⟩ := hback b' hb'
        exact ⟨a', List.mem_cons_of_mem a ha', hf⟩
    · intro a' ha'
      rcases List.mem_cons.1 ha' with rfl | ha'
      · exact ⟨b, List.mem_cons_self, hb⟩
      · obtain ⟨b', hb', hf⟩ := hforth a' ha'
        exact ⟨b', List.mem_cons_of_mem b hb', hf⟩

/-- The fields that a complete layout has are all there are, in the order of the schema. -/
theorem collectLogical_ok {layout : StructWireLayout} {members : List Member}
    {f : Member → Option BsnField} {values : List (Nat × BsnField)}
    (hcomplete : (layout.fields.map WireField.logicalField).Perm (List.range members.length))
    (hvalues : layout.fields.mapM (fun entry => members[entry.logicalField]?.bind fun member =>
      (f member).map (entry.logicalField, ·)) = some values) :
    ∃ fields, members.mapM f = some fields ∧
      collectLogical layout members.length values = .ok fields := by
  obtain ⟨hback, hforth⟩ := mem_of_mapM hvalues
  refine mapM_range members fun p member hmember => ?_
  have hfound (q : Nat) (field : BsnField) (h : (q, field) ∈ values) :
      members[q]?.bind f = some field := by
    obtain ⟨entry, -, hentry⟩ := hback _ h
    obtain ⟨member, hmember, hentry⟩ := Option.bind_eq_some_iff.1 hentry
    obtain ⟨field', hfield, heq⟩ := Option.map_eq_some_iff.1 hentry
    obtain ⟨rfl, rfl⟩ := Prod.mk.inj heq
    exact Option.bind_eq_some_iff.2 ⟨member, hmember, hfield⟩
  have hp : p ∈ layout.fields.map WireField.logicalField := by
    rw [hcomplete.mem_iff, List.mem_range]
    exact (List.getElem?_eq_some_iff.1 hmember).1
  have hsome : ∃ field, values.reverse.lookup p = some field := by
    obtain ⟨entry, hentry, rfl⟩ := List.mem_map.1 hp
    obtain ⟨value, hvalue, heq⟩ := hforth entry hentry
    obtain ⟨member, -, heq⟩ := Option.bind_eq_some_iff.1 heq
    obtain ⟨field, -, rfl⟩ := Option.map_eq_some_iff.1 heq
    rw [← Option.isSome_iff_exists, List.lookup_isSome_iff]
    exact ⟨_, List.mem_reverse.2 hvalue, by simp⟩
  obtain ⟨field, hlookup⟩ := hsome
  refine ⟨field, ?_, by rw [hlookup]⟩
  obtain ⟨l₁, l₂, heq, -⟩ := List.lookup_eq_some_iff.1 hlookup
  have hmem : (p, field) ∈ values := by
    rw [← List.mem_reverse, heq]
    simp
  have h := hfound p field hmem
  rwa [hmember] at h

namespace Matches

variable {recur : Bool → UInt32 → BsnValue → Writing Unit} {default : UInt32 → Writing BsnValue}
variable {decode : Recur} {normal : UInt32 → BsnValue → Option BsnValue}
variable {defaultOf : UInt32 → Option BsnValue}

theorem structLayout (h : Matches recur default decode normal defaultOf) {typeId : UInt32}
    {shape : TypeShape} {layout : StructWireLayout} {value : BsnValue} (hsized : value.Sized)
    (hkind : shape.kind = .struct)
    (hcomplete : (layout.fields.map WireField.logicalField).Perm
      (List.range shape.memberTypes.length)) (path : String) (depth : Nat) :
    Writes (encodeStructLayout recur default shape value layout)
      (decodeStructLayout decode false typeId path depth shape layout)
      fun _ a => normalOf normal defaultOf typeId shape value = some a.1 := by
  unfold encodeStructLayout
  cases value with
  | struct id fields =>
    dsimp only
    split_ifs with hcount
    · refine (h.layoutFields hsized shape.members path _ depth (depth + 1) layout.fields _).map
        fun _ a ha => ?_
      rw [← shape.length_members] at hcomplete ⊢
      obtain ⟨values, hvalues, hcollect⟩ := collectLogical_ok hcomplete ha
      dsimp only
      rw [hcollect]
      refine Writes.pure ?_
      simp [normalOf, hkind, hvalues]
    · exact Writes.fail _ _
  | _ => exact Writes.fail _ _

/-! ## One type -/

theorem reflected (h : Matches recur default decode normal defaultOf) (texts : TraceTexts)
    (codec : Codec) {value : BsnValue} (hsized : value.Sized) (typeId : UInt32)
    (shape : TypeShape) (reflected : Bool) (path : String) (depth : Nat) :
    Writes (encodeReflected recur default reflected typeId shape value)
      (decodeReflected texts codec decode false typeId path depth shape reflected)
      fun _ a => normalOf normal defaultOf typeId shape value = some a.1 := by
  unfold encodeReflected decodeReflected normalOf
  cases hkind : shape.kind with
  | «alias» =>
    refine Writes.element_bind fun element helement => ?_
    refine (h.recur reflected element value path depth hsized).map fun _ a ha => Writes.pure ?_
    simp [helement, ha]
  | void =>
    cases value with
    | void => exact Writes.pure rfl
    | _ => exact Writes.fail _ _
  | bool =>
    cases value with
    | bool value =>
      refine (writes_write (by cases value <;> decide) 1).map fun _ a ha => Writes.pure ?_
      rw [ha]
      cases value <;> rfl
    | _ => exact Writes.fail _ _
  | integer =>
    cases value with
    | integer value =>
      refine Writes.range_bind fun range => ?_
      refine (writes_writeRange range value).map fun _ a ha => Writes.pure ?_
      rw [ha]
    | _ => exact Writes.fail _ _
  | enum =>
    cases value with
    | integer value =>
      dsimp only
      split_ifs with hdeclared
      · exact Writes.fail _ _
      · refine Writes.range_bind fun range => ?_
        refine (writes_writeRange range value).map fun _ a ha => Writes.pure ?_
        rw [ha]
    | _ => exact Writes.fail _ _
  | fourCc =>
    cases value with
    | fourCc value =>
      refine (writes_write (by have := value.toNat_lt; omega) 32).map fun _ a ha =>
        Writes.pure ?_
      rw [ha, UInt32.ofNat_toNat]
    | _ => exact Writes.fail _ _
  | float32 =>
    cases value with
    | float32 bits =>
      refine (writes_write (by have := bits.toNat_lt; omega) 32).map fun _ a ha =>
        Writes.pure ?_
      rw [ha, UInt32.ofNat_toNat]
    | _ => exact Writes.fail _ _
  | float64 =>
    cases value with
    | float64 bits =>
      refine (writes_write bits.toNat_lt 64).map fun _ a ha => Writes.pure ?_
      rw [ha, UInt64.ofNat_toNat]
    | _ => exact Writes.fail _ _
  | byteString =>
    cases value with
    | bytes value => exact writes_bytes hsized _
    | _ => exact Writes.fail _ _
  | blob =>
    cases value with
    | bytes value => exact writes_bytes hsized _
    | _ => exact Writes.fail _ _
  | string =>
    cases value with
    | string value =>
      refine Writes.range_bind fun range => ?_
      refine (writes_writeLength (byteCounted range) hsized).bind fun _ length hlength => ?_
      rw [hlength]
      refine (writes_writeBytes (utf8Bytes value)).map fun _ a ha => Writes.pure ?_
      rw [ha, fromUtf8Lossy_utf8Bytes]
    | _ => exact Writes.fail _ _
  | bitArray =>
    cases value with
    | bitArray data bitCount =>
      dsimp only
      split_ifs with hinside
      · exact Writes.fail _ _
      · refine Writes.range_bind fun range => ?_
        refine (writes_writeLength range hsized).bind fun _ length hlength => ?_
        rw [hlength]
        refine (writes_writeRaw data bitCount).map fun _ a ha => Writes.pure ?_
        rw [ha]
    | _ => exact Writes.fail _ _
  | array =>
    cases value with
    | array values =>
      refine Writes.range_bind fun range => ?_
      refine (writes_writeLength range hsized.1).bind fun _ length hlength => ?_
      rw [hlength]
      refine Writes.element_bind fun element helement => ?_
      refine (h.elements reflected element _ (depth + 1) hsized.2 0).map fun _ a ha =>
        Writes.pure ?_
      simp [helement, ha]
    | _ => exact Writes.fail _ _
  | optional =>
    cases value with
    | optional value =>
      cases value with
      | none =>
        refine (writes_write (by decide) 1).map fun _ a ha => ?_
        rw [if_pos ha]
        exact Writes.pure rfl
      | some value =>
        refine (writes_write (by decide) 1).bind fun _ a ha => ?_
        rw [if_neg (by rw [ha]; decide)]
        refine Writes.element_bind fun element helement => ?_
        refine (h.recur reflected element value _ (depth + 1) hsized).map fun _ b hb =>
          Writes.pure ?_
        simp [helement, hb]
    | _ => exact Writes.fail _ _
  | choice =>
    cases value with
    | choice index value =>
      dsimp only
      cases hmember : shape.members.find? (·.index == index) with
      | none => exact Writes.fail _ _
      | some member =>
        refine Writes.range_bind fun range => ?_
        refine (writes_writeRange range index).bind fun _ read hread => ?_
        rw [hread, hmember]
        refine (h.recur reflected member.type value _ (depth + 1) hsized).map fun _ a ha =>
          Writes.pure ?_
        simp [ha]
    | _ => exact Writes.fail _ _
  | struct =>
    cases value with
    | struct id fields =>
      refine (h.members reflected hsized _ (depth + 1) _ shape.members).map fun _ a ha =>
        Writes.pure ?_
      simp [ha]
    | _ => exact Writes.fail _ _

/-- One level of the two recursions. -/
theorem inner (h : Matches recur default decode normal defaultOf) (texts : TraceTexts)
    {codec : Codec} (hcodec : codec.Complete) {typeId : UInt32} {shape : TypeShape}
    (hshape : codec.schema.shape typeId = .ok shape) {value : BsnValue} (hsized : value.Sized)
    (reflected : Bool) (path : String) (depth : Nat) :
    Writes (encodeScoped codec recur default reflected typeId value)
      (decodeInner texts codec decode false typeId path depth reflected)
      fun _ a => normalOf normal defaultOf typeId shape value = some a.1 := by
  have hstruct {registered : RegisteredWireLayout} {layout : StructWireLayout}
      (hfound : codec.wireLayouts[typeId]? = some registered)
      (hlayout : registered.structLayout = some layout) (hkind : shape.kind = .struct) :
      Writes (encodeStructLayout recur default shape value layout)
        (decodeStructLayout decode false typeId path depth shape layout)
        fun _ a => normalOf normal defaultOf typeId shape value = some a.1 :=
    h.structLayout hsized hkind (hcodec typeId registered layout shape hfound hlayout hshape)
      path depth
  have hreflected : Writes
      (Decoder.ofExcept (codec.reflectedScope typeId shape reflected) >>= fun reflected =>
        encodeReflected recur default reflected typeId shape value)
      (Decoder.ofExcept (codec.reflectedScope typeId shape reflected) >>= fun reflected =>
        decodeReflected texts codec decode false typeId path depth shape reflected)
      fun _ a => normalOf normal defaultOf typeId shape value = some a.1 := by
    cases codec.reflectedScope typeId shape reflected with
    | error e => exact Writes.fail e _
    | ok reflected => exact h.reflected texts codec hsized typeId shape reflected path depth
  unfold encodeScoped decodeInner
  rw [hshape]
  simp only [Decoder.ofExcept_ok, Decoder.pure_bind]
  cases hfound : codec.wireLayouts[typeId]? with
  | none => exact hreflected
  | some registered =>
    have hfits := codec.fits typeId registered hfound
    cases registered with
    | struct layout =>
      obtain ⟨shape', hshape', hkind, -⟩ := hfits
      rw [hshape] at hshape'
      exact hstruct hfound rfl (Except.ok.inj hshape' ▸ hkind)
    | candidateStruct layout =>
      obtain ⟨shape', hshape', hkind, -⟩ := hfits
      rw [hshape] at hshape'
      exact hstruct hfound rfl (Except.ok.inj hshape' ▸ hkind)
    | custom layout => cases layout <;> exact Writes.fail _ _
    | candidateReflected => exact hreflected
    | verifiedReflected => exact hreflected

end Matches

/-! ## The recursions -/

/-- Every value that the encoder writes the decoder reads, in normal form. -/
theorem writes_encodeAny (texts : TraceTexts) {codec : Codec} (hcodec : codec.Complete)
    (fuel : Nat) (reflected : Bool) (typeId : UInt32) {value : BsnValue} (hsized : value.Sized)
    (path : String) (depth : Nat) :
    Writes (encodeAny codec fuel reflected typeId value)
      (decodeAny texts codec fuel false reflected typeId path depth)
      fun _ a => normalForm codec.schema fuel typeId value = some a.1 := by
  induction fuel generalizing reflected typeId value path depth with
  | zero =>
    intro w w' c _ hx
    cases hx
  | succ fuel ih =>
    have hmatches : Matches (encodeAny codec fuel) (defaultValue codec fuel)
        (decodeAny texts codec fuel) (normalForm codec.schema fuel)
        (Bsn.defaultOf codec.schema fuel) := {
      recur := fun reflected typeId value path depth hsized =>
        ih reflected typeId hsized path depth
      default := fun typeId w w' value h => defaultValue_done h }
    show Writes (encodeScoped codec (encodeAny codec fuel) (defaultValue codec fuel) reflected
      typeId value) (decodeScoped texts codec (decodeAny texts codec fuel) false reflected typeId
      path depth) _
    refine Writes.after_place fun startBit => ?_
    rw [normalForm]
    cases hshape : codec.schema.shape typeId with
    | error e =>
      unfold encodeScoped
      rw [hshape]
      exact Writes.fail e _
    | ok shape =>
      refine (hmatches.inner texts hcodec hshape hsized reflected path depth).mapError.map
        fun _ a ha => ?_
      exact Writes.after_place fun endBit => Writes.pure ha

/-- The encoder of a type, from any tidy writer, and the decoder over what is there in the end. -/
theorem decode_of_extends (texts : TraceTexts) {codec : Codec} (hcodec : codec.Complete)
    {fuel : Nat} {typeId : UInt32} {value : BsnValue} {w w' w'' : BitWriter} (hw : w.Tidy)
    (hsized : value.Sized)
    (hencode : encodeInto codec fuel typeId value w = .done () w') (hgoes : Goes w' w'')
    (hsize : w''.position < 2 ^ 64) :
    ∃ value', normalForm codec.schema fuel typeId value = some value' ∧
      decode texts codec fuel typeId w''.intoBytes (some w''.position) w.position =
        some (.ok { value := value', bitCount := w'.position - w.position }) := by
  have hbytes : w''.intoBytes = w''.data := by
    rw [BitWriter.intoBytes, ← hgoes.tidy.length, List.take_length]
  have hsupplied : w''.position ≤ 8 * w''.data.length := by
    rw [hgoes.tidy.length]
    omega
  obtain ⟨hfirst, -, hconveys⟩ :=
    writes_encodeAny texts hcodec fuel false typeId hsized "value" 0 w w' () hw hencode
  have hmiddle : w'.position ≤ w''.position := hgoes.extends_.position
  have hstart : w.position ≤ w''.position := hfirst.extends_.position.trans hmiddle
  let r : BitReader := {
    data := w''.data
    bitCount := w''.position
    position := w.position
    supplied := hsupplied
    reached := hstart }
  obtain ⟨a, s, hdone, ha, -, hposition⟩ := hconveys (hmiddle.trans_lt hsize) r
    ⟨rfl, hgoes.extends_.bit, hmiddle⟩
  have hposition : s.position = w'.position := hposition
  have hreader : (BitReader.new w''.data (some w''.position) >>= (·.setPosition w.position)) =
      .ok r := by
    rw [BitReader.new, Option.getD_some, dif_pos hsupplied]
    exact dif_pos hstart
  refine ⟨a.1, ha, ?_⟩
  rw [decode, hbytes, hreader]
  simp only [decodeFrom_apply, hdone, hposition]

/-! ## Codecs -/

open Native.WireLayout

/-- A layout that passes its check has each field once. -/
theorem perm_of_checkStruct {schema : Schema} {typeId : UInt32} {layout : StructWireLayout}
    {shape : TypeShape} (h : Codec.checkStruct schema typeId layout = .ok ())
    (hshape : schema.shape typeId = .ok shape) :
    (layout.fields.map WireField.logicalField).Perm (List.range shape.memberTypes.length) := by
  have hnodup := nodup_of_checkStruct h
  rw [Codec.checkStruct, hshape] at h
  obtain ⟨_, heq, h⟩ := except_bind_ok.1 h
  obtain rfl := Except.ok.inj heq
  split_ifs at h with hkind hlength
  have hsubset : layout.fields.map WireField.logicalField ⊆
      List.range shape.memberTypes.length := by
    intro p hp
    obtain ⟨field, hfield, rfl⟩ := List.mem_map.1 hp
    exact List.mem_range.2 (Codec.lt_of_checkFields h field hfield)
  refine (List.subperm_of_subset hnodup hsubset).perm_of_length_le ?_
  rw [List.length_range, List.length_map]
  exact (not_not.1 hlength).ge

theorem complete_fromSchema (schema : Schema) : (Codec.fromSchema schema).Complete := by
  intro typeId registered layout shape h
  simp [Codec.fromSchema] at h

/-- Whatever is registered, every struct layout has each field of its struct once. -/
theorem complete_registerAll {schema : Schema} {codec : Codec}
    {entries : List (String × RegisteredWireLayout)}
    (h : registerAll entries (.fromSchema schema) = .ok codec) : codec.Complete := by
  refine registerAll_keeps ?_ (complete_fromSchema schema) h
  intro codec codec' typeId entry _ hadmits hinstalls hcomplete id registered layout shape hfound
    hlayout hshape
  rw [hinstalls.wireLayouts, Std.ExtTreeMap.getElem?_insert] at hfound
  rw [hinstalls.schema] at hshape
  split at hfound
  · next heq =>
    rw [Std.compare_eq_iff_eq] at heq
    subst heq
    rw [Option.some.inj hfound] at hadmits
    cases registered with
    | struct _ =>
      obtain rfl := Option.some.inj hlayout
      exact perm_of_checkStruct hadmits hshape
    | candidateStruct _ =>
      obtain rfl := Option.some.inj hlayout
      exact perm_of_checkStruct hadmits hshape
    | _ => cases hlayout
  · exact hcomplete id registered layout shape hfound hlayout hshape

/-- **What is encoded is decoded.** The codec may have any layouts registered, and the writer may
have been used before and after; the decoder begins where the encoder began, reads the value in
normal form and ends where the encoder ended. -/
theorem decode_encodeInto (texts : TraceTexts) {schema : Schema} {codec : Codec}
    {entries : List (String × RegisteredWireLayout)}
    (hcodec : registerAll entries (.fromSchema schema) = .ok codec) {fuel : Nat} {typeId : UInt32}
    {value : BsnValue} (hsized : value.Sized) (before after : List Op) {w : BitWriter}
    (hencode : encodeInto codec fuel typeId value (applyAll {} before) = .done () w)
    (hsize : (w.applyAll after).position < 2 ^ 64) :
    ∃ value', normalForm codec.schema fuel typeId value = some value' ∧
      decode texts codec fuel typeId (w.applyAll after).intoBytes
          (some (w.applyAll after).position) (applyAll {} before).position =
        some (.ok { value := value', bitCount := w.position - (applyAll {} before).position }) := by
  have hcomplete := complete_registerAll hcodec
  have hbefore := goes_applyAll tidy_empty before
  have hw : w.Tidy :=
    (writes_encodeAny texts hcomplete fuel false typeId hsized "value" 0 _ w () hbefore.tidy
      hencode).1.tidy
  exact decode_of_extends texts hcomplete hbefore.tidy hsized hencode (goes_applyAll hw after) hsize

/-- Three members: a bit, some bits, and a bit that may be left out. -/
def recordSchema : Schema := tableSchema [
  (some "Log::Record", structShape false [("seen", 1), ("flags", 2), ("note", 3)]),
  (none, leafShape .bool false rfl),
  (none, { leafShape .bitArray false rfl with valueRange := some ⟨some 4, 0, 10⟩ }),
  (none, { leafShape .optional false rfl with elementType := some 1 })]

/-- Not as it is reflected, and with filler bits. -/
def recordLayout : StructWireLayout := ⟨"Log::Record", [⟨2, 3⟩, ⟨0, 0⟩, ⟨1, 0⟩]⟩

def recordCodec : Codec :=
  (Codec.fromSchema recordSchema).insert 0 (.struct recordLayout) ⟨_, rfl, rfl, by decide⟩

theorem registerAll_record :
    registerAll [("Log::Record", .struct recordLayout)] (.fromSchema recordSchema) =
      .ok recordCodec := by
  have hregister : (Codec.fromSchema recordSchema).registerLayout "Log::Record"
      (.struct recordLayout) = .ok recordCodec :=
    registerLayout_ok_iff.2 ⟨0, rfl, rfl, by simp [Codec.fromSchema], rfl, rfl⟩
  rw [registerAll, hregister]
  rfl

/-- Out of order, without names, with a member left out and more bits than are counted. -/
theorem decode_encodeInto_record :
    ∃ w, encodeInto recordCodec 3 0
        (.struct 0 [.mk 1 none (.bitArray [255] 3), .mk 0 none (.bool true)])
        (applyAll {} [.write 1 1]) = .done () w ∧
      decode blankTexts recordCodec 3 0 (w.applyAll [.write 5 3]).intoBytes (some 16) 1 =
        some (.ok {
          value := .struct 0 [.mk 0 (some "seen") (.bool true),
            .mk 1 (some "flags") (.bitArray [7] 3), .mk 2 (some "note") (.optional none)]
          bitCount := 12 }) := by
  refine ⟨_, rfl, ?_⟩
  obtain ⟨value', hvalue, hdecode⟩ := @decode_encodeInto blankTexts recordSchema recordCodec
    [("Log::Record", .struct recordLayout)] registerAll_record 3 0
    (.struct 0 [.mk 1 none (.bitArray [255] 3), .mk 0 none (.bool true)])
    (by simp [BsnValue.Sized, SizedFields]) [.write 1 1] [.write 5 3] _ rfl (by decide +kernel)
  obtain rfl := Option.some.inj hvalue
  exact hdecode

end Superiority.Bsn
