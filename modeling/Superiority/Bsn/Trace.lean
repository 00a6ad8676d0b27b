import Superiority.Bsn.Stability

/-!
# The trace of a decoding is a tree

The entries of a trace come in the order in which the decoder pushes them: those of the parts of a
value before the one of the value itself, except that a custom layout begins with an entry of its
own for the whole value. `Forest` says that a list of entries consists of the trees of the parts of
one value, one behind the other in the buffer; `Parts` says what the parts of a value are called.
Only the path, the depth and the span of an entry count here, its `Place`.

**`pushes_decodeAny`** – what `decode_from_scoped_traced` pushes is the tree of one value, from where
the reader stood to where it stands.
-/

namespace Superiority.Bsn

open Reading Native.WireLayout

/-! ## Trees of entries -/

/-- The name under which a club routine traces a field. -/
def fieldLabel (shape : TypeShape) (position : Nat) : String :=
  "." ++ (shape.memberNames[position]?.getD none).getD "field"

/-- The labels an entry of a struct layout adds: that of its filler bits and its own. -/
def layoutLabels (shape : TypeShape) (entry : WireField) : List String :=
  match shape.members[entry.logicalField]? with
  | none => []
  | some member =>
    (if entry.fillerBefore = 0 then [] else [".filler_before_" ++ member.label]) ++
      ["." ++ member.label]

/-- The fields of a club summary and of a club text, in the order in which they are read. -/
def clubPositions : List (CustomLayout × List Nat) :=
  [(.clubSummaryInfo, [6, 10, 0, 5, 2, 9, 7, 4, 1, 11, 3, 8]), (.clubUserText, [0, 3, 2, 1])]

/-- What the parts of a value are called, by the way its type is read. -/
inductive Parts (codec : Codec) : List String → Prop where
  | none : Parts codec []
  | array (count : Nat) : Parts codec ((List.range' 0 count).map fun index => s!"[{index}]")
  | optional : Parts codec [".value"]
  | choice (index : Int) : Parts codec [s!".variant[{index}]"]
  | struct {typeId : UInt32} {shape : TypeShape} : codec.schema.shape typeId = .ok shape →
      shape.kind = .struct → Parts codec (shape.members.map fun member => "." ++ member.label)
  | layout {typeId : UInt32} {shape : TypeShape} {layout : StructWireLayout} :
      codec.schema.shape typeId = .ok shape →
      codec.wireLayouts[typeId]? = some (.struct layout) ∨
        codec.wireLayouts[typeId]? = some (.candidateStruct layout) →
      Parts codec (layout.fields.flatMap (layoutLabels shape))
  | club {typeId : UInt32} {shape : TypeShape} {layout : CustomLayout} {positions : List Nat} :
      codec.schema.shape typeId = .ok shape →
      codec.wireLayouts[typeId]? = some (.custom layout) → (layout, positions) ∈ clubPositions →
      (∀ position ∈ positions, position < shape.memberTypes.length) →
      Parts codec (positions.map (fieldLabel shape))
  | category : Parts codec [".m_name", ".generated", ".m_id", ".m_sortOrder"]

/-- Where an entry says that its value was found. -/
structure Place where
  path : String
  depth : Nat
  startBit : Nat
  endBit : Nat
  deriving DecidableEq

def DecodedField.place (f : DecodedField) : Place := ⟨f.path, f.depth, f.startBit, f.endBit⟩

/-- Some type has a layout with a routine of its own. -/
def HasCustom (codec : Codec) : Prop :=
  ∃ (typeId : UInt32) (layout : CustomLayout), codec.wireLayouts[typeId]? = some (.custom layout)

/-- How often a value is entered in front of its parts and behind them: once, or twice when a
custom layout begins with an entry of its own. -/
structure Counts (codec : Codec) (lead own : Nat) : Prop where
  some : 0 < lead + own
  lead_le : lead ≤ 1
  own_le : own ≤ 1
  custom : lead ≠ 0 → HasCustom codec

/-- The trees of the parts of one value, between two bits and one behind the other. -/
inductive Forest (codec : Codec) :
    (path : String) → (depth start stop : Nat) → List String → List Place → Prop where
  | nil {path : String} {depth start stop : Nat} : start ≤ stop →
      Forest codec path depth start stop [] []
  | cons {path label : String} {depth start stop s e lead own : Nat} {labels parts : List String}
      {inner rest : List Place} : start ≤ s → Counts codec lead own → Parts codec parts →
      Forest codec (path ++ label) (depth + 1) s e parts inner →
      Forest codec path depth e stop labels rest →
      Forest codec path depth start stop (label :: labels)
        (List.replicate lead ⟨path ++ label, depth, s, e⟩ ++ inner ++
          List.replicate own ⟨path ++ label, depth, s, e⟩ ++ rest)

/-- The entries of a value without the one that its decoding ends with. -/
def Body (codec : Codec) (path : String) (depth start stop : Nat) (places : List Place) : Prop :=
  ∃ lead inner parts, places = List.replicate lead ⟨path, depth, start, stop⟩ ++ inner ∧
    lead ≤ 1 ∧ (lead ≠ 0 → HasCustom codec) ∧ Parts codec parts ∧
    Forest codec path (depth + 1) start stop parts inner

/-- The entries of a value. -/
def Whole (codec : Codec) (path : String) (depth start stop : Nat) (places : List Place) : Prop :=
  ∃ lead inner own parts, places = List.replicate lead ⟨path, depth, start, stop⟩ ++ inner ++
      List.replicate own ⟨path, depth, start, stop⟩ ∧
    Counts codec lead own ∧ Parts codec parts ∧
    Forest codec path (depth + 1) start stop parts inner

/-- The entries that a custom layout pushes. -/
def Led (codec : Codec) (path : String) (depth start stop : Nat) (places : List Place) : Prop :=
  ∃ inner parts, places = ⟨path, depth, start, stop⟩ :: inner ∧ HasCustom codec ∧
    Parts codec parts ∧ Forest codec path (depth + 1) start stop parts inner

variable {codec : Codec} {path : String} {depth start stop : Nat}

theorem Forest.le {labels : List String} {places : List Place}
    (h : Forest codec path depth start stop labels places) : start ≤ stop := by
  induction h with
  | nil h => exact h
  | cons hstart _ _ _ _ hinner hrest => omega

/-- A value in front of the parts behind it. -/
theorem Whole.cons {label : String} {s e : Nat} {labels : List String} {first rest : List Place}
    (hfirst : Whole codec (path ++ label) depth s e first) (hstart : start ≤ s)
    (hrest : Forest codec path depth e stop labels rest) :
    Forest codec path depth start stop (label :: labels) (first ++ rest) := by
  obtain ⟨lead, inner, own, parts, rfl, hcounts, hparts, hinner⟩ := hfirst
  exact Forest.cons hstart hcounts hparts hinner hrest

theorem Whole.single {label : String} {s e : Nat} {places : List Place}
    (h : Whole codec (path ++ label) depth s e places) (hstart : start ≤ s) (hstop : e ≤ stop) :
    Forest codec path depth start stop [label] places := by
  have hforest := h.cons hstart (Forest.nil hstop)
  rwa [List.append_nil] at hforest

/-- One entry, without parts. -/
theorem whole_leaf (hle : start ≤ stop) :
    Whole codec path depth start stop [⟨path, depth, start, stop⟩] :=
  ⟨0, [], 1, [], rfl, ⟨by omega, by omega, by omega, fun h => absurd rfl h⟩, .none, .nil hle⟩

theorem Forest.append {start' : Nat} {labels labels' : List String} {places places' : List Place}
    (h : Forest codec path depth start start' labels places)
    (h' : Forest codec path depth start' stop labels' places') :
    Forest codec path depth start stop (labels ++ labels') (places ++ places') := by
  induction h with
  | nil hle =>
    cases h' with
    | nil hle' => exact .nil (hle.trans hle')
    | cons hstart hcounts hparts hinner hrest =>
      exact .cons (hle.trans hstart) hcounts hparts hinner hrest
  | cons hstart hcounts hparts hinner _ _ ih =>
    have hrest := ih h'
    rw [List.append_assoc]
    exact .cons hstart hcounts hparts hinner hrest

/-- A value without parts. -/
theorem body_nil (h : start ≤ stop) : Body codec path depth start stop [] :=
  ⟨0, [], [], rfl, by omega, fun h => absurd rfl h, .none, .nil h⟩

theorem body_of_forest {parts : List String} {places : List Place} (hparts : Parts codec parts)
    (h : Forest codec path (depth + 1) start stop parts places) :
    Body codec path depth start stop places :=
  ⟨0, places, parts, rfl, by omega, fun h => absurd rfl h, hparts, h⟩

/-- The entry of the value itself closes its tree. -/
theorem Body.close {places : List Place} (h : Body codec path depth start stop places) :
    Whole codec path depth start stop (places ++ [⟨path, depth, start, stop⟩]) := by
  obtain ⟨lead, inner, parts, rfl, hle, hcustom, hparts, hinner⟩ := h
  exact ⟨lead, inner, 1, parts, rfl, ⟨by omega, hle, by omega, hcustom⟩, hparts, hinner⟩

theorem Led.body {places : List Place} (h : Led codec path depth start stop places) :
    Body codec path depth start stop places := by
  obtain ⟨inner, parts, rfl, hcustom, hparts, hinner⟩ := h
  exact ⟨1, inner, parts, rfl, le_rfl, fun _ => hcustom, hparts, hinner⟩

theorem Led.whole {places : List Place} (h : Led codec path depth start stop places) :
    Whole codec path depth start stop places := by
  obtain ⟨inner, parts, rfl, hcustom, hparts, hinner⟩ := h
  refine ⟨1, inner, 0, parts, ?_, ⟨by omega, by omega, by omega, fun _ => hcustom⟩, hparts, hinner⟩
  simp

/-- What is in front of the parts or behind them may be counted in. -/
theorem Forest.widen {start' stop' : Nat} {labels : List String} {places : List Place}
    (h : Forest codec path depth start stop labels places) (hstart : start' ≤ start)
    (hstop : stop ≤ stop') : Forest codec path depth start' stop' labels places := by
  have hforest := (Forest.nil hstart).append (h.append (Forest.nil hstop))
  rwa [List.nil_append, List.nil_append, List.append_nil, List.append_nil] at hforest

/-! ## Lists of values -/

/-- The places a decoding pushes. -/
def Pushes (codec : Codec) (x : Reading Decoded) (path : String) (depth : Nat) : Prop :=
  ∀ r s value fields, x r = .done (value, fields) s →
    Whole codec path depth r.position s.position (fields.map DecodedField.place)

theorem forest_decodeElements {decode : Nat → Reading Decoded}
    (hdecode : ∀ index, Pushes codec (decode index) (path ++ s!"[{index}]") depth)
    {index count : Nat} {r s : BitReader} {values : List BsnValue} {fields : List DecodedField}
    (h : decodeElements decode index count r = .done (values, fields) s) :
    Forest codec path depth r.position s.position
      ((List.range' index count).map fun index => s!"[{index}]")
      (fields.map DecodedField.place) := by
  induction count generalizing index r values fields with
  | zero =>
    obtain ⟨hpure, rfl⟩ := Decoder.pure_done.1 h
    obtain ⟨-, rfl⟩ := Prod.mk.inj hpure
    exact .nil le_rfl
  | succ count ih =>
    obtain ⟨⟨value, first⟩, t, hfirst, h⟩ := Decoder.bind_done.1 h
    obtain ⟨⟨values', rest⟩, u, hrest, h⟩ := Decoder.bind_done.1 h
    obtain ⟨hpure, rfl⟩ := Decoder.pure_done.1 h
    obtain ⟨-, rfl⟩ := Prod.mk.inj hpure
    rw [List.map_append]
    exact (hdecode index _ _ _ _ (Decoder.mapError_done.1 hfirst)).cons le_rfl (ih hrest)

theorem forest_decodeMembers {decode : Member → Reading Decoded} {typeText : String}
    (hdecode : ∀ member, Pushes codec (decode member) (path ++ ("." ++ member.label)) depth)
    {members : List Member} {r s : BitReader} {values : List BsnField}
    {fields : List DecodedField}
    (h : decodeMembers decode typeText members r = .done (values, fields) s) :
    Forest codec path depth r.position s.position (members.map fun member => "." ++ member.label)
      (fields.map DecodedField.place) := by
  induction members generalizing r values fields with
  | nil =>
    obtain ⟨hpure, rfl⟩ := Decoder.pure_done.1 h
    obtain ⟨-, rfl⟩ := Prod.mk.inj hpure
    exact .nil le_rfl
  | cons member members ih =>
    obtain ⟨⟨value, first⟩, t, hfirst, h⟩ := Decoder.bind_done.1 h
    obtain ⟨⟨values', rest⟩, u, hrest, h⟩ := Decoder.bind_done.1 h
    obtain ⟨hpure, rfl⟩ := Decoder.pure_done.1 h
    obtain ⟨-, rfl⟩ := Prod.mk.inj hpure
    rw [List.map_append]
    exact (hdecode member _ _ _ _ (Decoder.mapError_done.1 hfirst)).cons le_rfl (ih hrest)

theorem forest_readFiller {width : Nat} {label : String} {r s : BitReader}
    {fields : List DecodedField}
    (h : readFiller true width label path depth r = .done fields s) :
    Forest codec path (depth + 1) r.position s.position
      (if width = 0 then [] else [".filler_before_" ++ label]) (fields.map DecodedField.place) := by
  have hle := (stable_readFiller true width label path depth).onward h
  unfold readFiller at h
  split_ifs at h ⊢ with hwidth
  · obtain ⟨rfl, rfl⟩ := Decoder.pure_done.1 h
    exact .nil le_rfl
  · obtain ⟨startBit, t, hplace, h⟩ := Decoder.bind_done.1 h
    obtain ⟨rfl, rfl⟩ := Outcome.done.inj hplace
    obtain ⟨_, t, hread, h⟩ := Decoder.bind_done.1 h
    obtain ⟨endBit, u, hplace, h⟩ := Decoder.bind_done.1 h
    obtain ⟨rfl, rfl⟩ := Outcome.done.inj hplace
    obtain ⟨rfl, rfl⟩ := Decoder.pure_done.1 h
    have hpath : s!"{path}.filler_before_{label}" = path ++ (".filler_before_" ++ label) :=
      String.append_assoc ..
    exact Whole.single (hpath ▸ whole_leaf hle.position) le_rfl le_rfl

theorem forest_decodeLayoutFields {decode : Member → Reading Decoded} {shape : TypeShape}
    (hdecode : ∀ member, Pushes codec (decode member) (path ++ ("." ++ member.label)) (depth + 1))
    {entries : List WireField} {r s : BitReader} {values : List (Nat × BsnField)}
    {fields : List DecodedField}
    (h : decodeLayoutFields decode true shape.members path depth entries r =
      .done (values, fields) s) :
    Forest codec path (depth + 1) r.position s.position (entries.flatMap (layoutLabels shape))
      (fields.map DecodedField.place) := by
  induction entries generalizing r values fields with
  | nil =>
    obtain ⟨hpure, rfl⟩ := Decoder.pure_done.1 h
    obtain ⟨-, rfl⟩ := Prod.mk.inj hpure
    exact .nil le_rfl
  | cons entry entries ih =>
    rw [decodeLayoutFields] at h
    rw [List.flatMap_cons, layoutLabels]
    cases hmember : shape.members[entry.logicalField]? with
    | none => simp [hmember] at h
    | some member =>
      rw [hmember] at h
      obtain ⟨filler, t, hfiller, h⟩ := Decoder.bind_done.1 h
      obtain ⟨⟨value, first⟩, u, hfirst, h⟩ := Decoder.bind_done.1 h
      obtain ⟨⟨values', rest⟩, v, hrest, h⟩ := Decoder.bind_done.1 h
      obtain ⟨hpure, rfl⟩ := Decoder.pure_done.1 h
      obtain ⟨-, rfl⟩ := Prod.mk.inj hpure
      have hmember := (hdecode member _ _ _ _ hfirst).cons le_rfl (ih hrest)
      simpa using (forest_readFiller hfiller).append hmember

/-! ## The routines of the custom layouts -/

section custom

variable {schema : Schema} {decodeFrom : UInt32 → Reading BsnValue} {rootType : UInt32}

/-- Fields that were read one behind the other. -/
def InOrder : (start stop : Nat) → List ReadField → Prop
  | start, stop, [] => start ≤ stop
  | start, stop, field :: fields =>
    start ≤ field.startBit ∧ field.startBit ≤ field.endBit ∧ InOrder field.endBit stop fields

theorem InOrder.append {start' : Nat} {fields fields' : List ReadField}
    (h : InOrder start start' fields) (h' : InOrder start' stop fields') :
    InOrder start stop (fields ++ fields') := by
  induction fields generalizing start with
  | nil =>
    cases fields' with
    | nil => exact Nat.le_trans h h'
    | cons field fields' => exact ⟨Nat.le_trans h h'.1, h'.2⟩
  | cons field fields ih => exact ⟨h.1, h.2.1, ih h.2.2⟩

theorem InOrder.widen {start' stop' : Nat} {fields : List ReadField} (h : InOrder start stop fields)
    (hstart : start' ≤ start) (hstop : stop ≤ stop') : InOrder start' stop' fields := by
  have hfront : InOrder start' start [] := hstart
  have hback : InOrder stop stop' [] := hstop
  have hall := hfront.append (h.append hback)
  rwa [List.append_nil] at hall

theorem forest_of_inOrder (shape : TypeShape) {fields : List ReadField}
    (h : InOrder start stop fields) :
    Forest codec path depth start stop (fields.map fun field => fieldLabel shape field.position)
      (fields.map fun field =>
        ⟨path ++ fieldLabel shape field.position, depth, field.startBit, field.endBit⟩) := by
  induction fields generalizing start with
  | nil => exact .nil h
  | cons field fields ih => exact (whole_leaf h.2.1).cons h.1 (ih h.2.2)

theorem spanned_done {position : Nat} {x : Reading BsnValue} {field : ReadField} {r s : BitReader}
    (h : spanned position x r = .done field s) :
    field.position = position ∧ field.startBit = r.position ∧ field.endBit = s.position ∧
      ∃ value, x r = .done value s := by
  obtain ⟨startBit, t, hstart, h⟩ := Decoder.bind_done.1 h
  obtain ⟨rfl, rfl⟩ := Tape.place_done.1 hstart
  obtain ⟨value, u, hx, h⟩ := Decoder.bind_done.1 h
  obtain ⟨endBit, v, hend, h⟩ := Decoder.bind_done.1 h
  obtain ⟨rfl, rfl⟩ := Tape.place_done.1 hend
  obtain ⟨rfl, rfl⟩ := Decoder.pure_done.1 h
  exact ⟨rfl, rfl, rfl, value, hx⟩

/-- One field by itself is in order. -/
theorem inOrder_spanned {position : Nat} {x : Reading BsnValue} {field : ReadField}
    {r s : BitReader} (hx : Stable Incomplete x) (h : spanned position x r = .done field s) :
    InOrder r.position s.position [field] := by
  obtain ⟨-, hstart, hend, value, hvalue⟩ := spanned_done h
  have hle := (hx.onward hvalue).position
  exact ⟨hstart.ge, hstart.trans_le (hle.trans_eq hend.symm), hend.le⟩

/-- What a club routine reads: fields at these positions, in order. -/
def ReadsAt (positions : List Nat) (start stop : Nat) (fields : List ReadField) : Prop :=
  fields.map (·.position) = positions ∧ InOrder start stop fields

theorem ReadsAt.append {positions positions' : List Nat} {start' : Nat}
    {fields fields' : List ReadField} (h : ReadsAt positions start start' fields)
    (h' : ReadsAt positions' start' stop fields') :
    ReadsAt (positions ++ positions') start stop (fields ++ fields') :=
  ⟨by rw [List.map_append, h.1, h'.1], h.2.append h'.2⟩

theorem readsAt_spanned {position : Nat} {x : Reading BsnValue} {field : ReadField}
    {r s : BitReader} (hx : Stable Incomplete x) (h : spanned position x r = .done field s) :
    ReadsAt [position] r.position s.position [field] :=
  ⟨by rw [← (spanned_done h).1]; rfl, inOrder_spanned hx h⟩

/-- Bits that belong to no field. -/
theorem readsAt_skip {α : Type} {x : Reading α} {a : α} {r s : BitReader}
    (hx : Stable Incomplete x) (h : x r = .done a s) : ReadsAt [] r.position s.position [] :=
  ⟨rfl, (hx.onward h).position⟩

/-- The type of a club value has members at these positions. -/
def HasMembers (schema : Schema) (typeId : UInt32) (positions : List Nat) : Prop :=
  ∀ shape, schema.shape typeId = .ok shape →
    ∀ position ∈ positions, position < shape.memberTypes.length

/-- A type with a member at a position has one at every position before it. -/
theorem HasMembers.below {position : Nat} {positions : List Nat}
    (h : HasMembers schema rootType [position]) (hle : ∀ other ∈ positions, other ≤ position) :
    HasMembers schema rootType positions := by
  intro shape hshape other hother
  exact (hle other hother).trans_lt (h shape hshape position List.mem_cons_self)

theorem hasMembers_readClubField {position : Nat} {field : ReadField} {r s : BitReader}
    (h : readClubField schema decodeFrom rootType position r = .done field s) :
    HasMembers schema rootType [position] := by
  obtain ⟨shape, t, hlookup, h⟩ := Decoder.bind_done.1 h
  obtain ⟨hshape, rfl⟩ := Decoder.ofExcept_done.1 hlookup
  intro shape' hshape' other hother
  obtain rfl := Except.ok.inj (hshape.symm.trans hshape')
  rw [List.mem_singleton.1 hother]
  cases hmember : shape.memberTypes[position]? with
  | none => simp [hmember] at h
  | some memberType => exact (List.getElem?_eq_some_iff.1 hmember).1

theorem hasMembers_readClubFields {positions : List Nat} {fields : List ReadField}
    {r s : BitReader}
    (h : readClubFields schema decodeFrom rootType positions r = .done fields s) :
    HasMembers schema rootType positions := by
  induction positions generalizing r fields with
  | nil => exact fun _ _ _ hother => absurd hother List.not_mem_nil
  | cons position positions ih =>
    obtain ⟨field, t, hfield, h⟩ := Decoder.bind_done.1 h
    obtain ⟨fields', u, hfields, h⟩ := Decoder.bind_done.1 h
    obtain ⟨rfl, rfl⟩ := Decoder.pure_done.1 h
    intro shape hshape other hother
    rcases List.mem_cons.1 hother with rfl | hother
    · exact hasMembers_readClubField hfield shape hshape _ List.mem_cons_self
    · exact ih hfields shape hshape other hother

variable (hdecode : ∀ typeId, Stable Incomplete (decodeFrom typeId))

include hdecode

theorem readsAt_readClubField {position : Nat} {field : ReadField} {r s : BitReader}
    (h : readClubField schema decodeFrom rootType position r = .done field s) :
    ReadsAt [position] r.position s.position [field] := by
  obtain ⟨shape, t, hshape, h⟩ := Decoder.bind_done.1 h
  obtain ⟨-, rfl⟩ := Decoder.ofExcept_done.1 hshape
  cases hmember : shape.memberTypes[position]? with
  | none => simp [hmember] at h
  | some memberType =>
    rw [hmember] at h
    exact readsAt_spanned (hdecode memberType) h

theorem readsAt_readClubFields {positions : List Nat} {fields : List ReadField} {r s : BitReader}
    (h : readClubFields schema decodeFrom rootType positions r = .done fields s) :
    ReadsAt positions r.position s.position fields := by
  induction positions generalizing r fields with
  | nil =>
    obtain ⟨rfl, rfl⟩ := Decoder.pure_done.1 h
    exact ⟨rfl, le_rfl⟩
  | cons position positions ih =>
    obtain ⟨field, t, hfield, h⟩ := Decoder.bind_done.1 h
    obtain ⟨fields', u, hfields, h⟩ := Decoder.bind_done.1 h
    obtain ⟨rfl, rfl⟩ := Decoder.pure_done.1 h
    exact (readsAt_readClubField hdecode hfield).append (ih hfields)

theorem readsAt_readClubSummaryInfo {values : ClubValues} {r s : BitReader}
    (h : readClubSummaryInfo schema decodeFrom rootType r = .done values s) :
    values.startBit = r.position ∧ values.endBit = s.position ∧
      HasMembers schema rootType [6, 10, 0, 5, 2, 9, 7, 4, 1, 11, 3, 8] ∧
      ReadsAt [6, 10, 0, 5, 2, 9, 7, 4, 1, 11, 3, 8] r.position s.position values.fields := by
  obtain ⟨startBit, t, hstart, h⟩ := Decoder.bind_done.1 h
  obtain ⟨rfl, rfl⟩ := Tape.place_done.1 hstart
  obtain ⟨first, t, hfirst, h⟩ := Decoder.bind_done.1 h
  obtain ⟨name, u, hname, h⟩ := Decoder.bind_done.1 h
  obtain ⟨skipped, v, hskipped, h⟩ := Decoder.bind_done.1 h
  obtain ⟨second, w, hsecond, h⟩ := Decoder.bind_done.1 h
  obtain ⟨tag, x, htag, h⟩ := Decoder.bind_done.1 h
  obtain ⟨skipped', y, hskipped', h⟩ := Decoder.bind_done.1 h
  obtain ⟨last, z, hlast, h⟩ := Decoder.bind_done.1 h
  obtain ⟨endBit, z', hend, h⟩ := Decoder.bind_done.1 h
  obtain ⟨rfl, rfl⟩ := Tape.place_done.1 hend
  obtain ⟨rfl, rfl⟩ := Decoder.pure_done.1 h
  have hmembers : HasMembers schema rootType [11] := fun shape hshape =>
    by simpa using hasMembers_readClubFields hsecond shape hshape 11 (by simp)
  refine ⟨rfl, rfl, hmembers.below (by simp), ?_⟩
  have hreads := (readsAt_readClubFields hdecode hfirst).append
    ((readsAt_spanned ((stable_readGeneratedString 8 32).map _) hname).append
      ((readsAt_skip (stable_read 6) hskipped).append
        ((readsAt_readClubFields hdecode hsecond).append
          ((readsAt_spanned stable_readTag htag).append
            ((readsAt_skip (stable_read 25) hskipped').append
              (readsAt_readClubField hdecode hlast))))))
  simpa using hreads

theorem readsAt_readClubUserText {values : ClubValues} {r s : BitReader}
    (h : readClubUserText schema decodeFrom rootType r = .done values s) :
    values.startBit = r.position ∧ values.endBit = s.position ∧
      HasMembers schema rootType [0, 3, 2, 1] ∧
      ReadsAt [0, 3, 2, 1] r.position s.position values.fields := by
  obtain ⟨startBit, t, hstart, h⟩ := Decoder.bind_done.1 h
  obtain ⟨rfl, rfl⟩ := Tape.place_done.1 hstart
  obtain ⟨first, t, hfirst, h⟩ := Decoder.bind_done.1 h
  obtain ⟨text, u, htext, h⟩ := Decoder.bind_done.1 h
  obtain ⟨last, v, hlast, h⟩ := Decoder.bind_done.1 h
  obtain ⟨endBit, v', hend, h⟩ := Decoder.bind_done.1 h
  obtain ⟨rfl, rfl⟩ := Tape.place_done.1 hend
  obtain ⟨rfl, rfl⟩ := Decoder.pure_done.1 h
  have hmembers : HasMembers schema rootType [3] := fun shape hshape =>
    by simpa using hasMembers_readClubFields hfirst shape hshape 3 (by simp)
  refine ⟨rfl, rfl, hmembers.below (by simp), ?_⟩
  have hreads := (readsAt_readClubFields hdecode hfirst).append
    ((readsAt_spanned ((stable_readGeneratedString 13 4096).map _) htext).append
      (readsAt_readClubField hdecode hlast))
  simpa using hreads

omit hdecode

/-- The entries of a club routine. -/
theorem led_clubTrace {texts : TraceTexts} {typeId : UInt32} {shape : TypeShape}
    {layout : CustomLayout} {positions : List Nat} {values : ClubValues}
    (hshape : codec.schema.shape typeId = .ok shape)
    (hlayout : codec.wireLayouts[typeId]? = some (.custom layout))
    (hpositions : (layout, positions) ∈ clubPositions)
    (hmembers : HasMembers codec.schema typeId positions)
    (hreads : ReadsAt positions values.startBit values.endBit values.fields) :
    Led codec path depth values.startBit values.endBit
      ((clubTrace texts shape values path depth).map DecodedField.place) := by
  have hparts := Parts.club hshape hlayout hpositions (hmembers shape hshape)
  rw [← hreads.1, List.map_map] at hparts
  have hforest : Forest codec path (depth + 1) values.startBit values.endBit _ _ :=
    forest_of_inOrder shape hreads.2
  refine ⟨_, _, ?_, ⟨typeId, layout, hlayout⟩, hparts, hforest⟩
  have hpath : ∀ name : String, s!"{path}.{name}" = path ++ ("." ++ name) :=
    fun name => String.append_assoc ..
  simp [clubTrace, DecodedField.place, fieldLabel, hpath]

/-- The entries of the category routine. -/
theorem led_categoryTrace {values : CategoryValues} {r s : BitReader} (hcustom : HasCustom codec)
    (h : readCategoryDescription r = .done values s) :
    Led codec path depth r.position s.position
      ((categoryTrace values path depth).map DecodedField.place) := by
  have hspanned : ∀ {width : Nat} {value : Spanned} {r s : BitReader},
      readSpanned width r = .done value s →
      value.startBit = r.position ∧ value.endBit = s.position ∧ r.position ≤ s.position := by
    intro width value r s h
    have hle := (stable_readSpanned width).onward h
    obtain ⟨startBit, t, hstart, h⟩ := Decoder.bind_done.1 h
    obtain ⟨rfl, rfl⟩ := Tape.place_done.1 hstart
    obtain ⟨_, u, _, h⟩ := Decoder.bind_done.1 h
    obtain ⟨endBit, v, hend, h⟩ := Decoder.bind_done.1 h
    obtain ⟨rfl, rfl⟩ := Tape.place_done.1 hend
    obtain ⟨rfl, rfl⟩ := Decoder.pure_done.1 h
    exact ⟨rfl, rfl, hle.position⟩
  obtain ⟨startBit, t, hstart, h⟩ := Decoder.bind_done.1 h
  obtain ⟨rfl, rfl⟩ := Tape.place_done.1 hstart
  obtain ⟨name, t, hname, h⟩ := Decoder.bind_done.1 h
  obtain ⟨generatedStart, t', hgeneratedStart, h⟩ := Decoder.bind_done.1 h
  obtain ⟨rfl, rfl⟩ := Tape.place_done.1 hgeneratedStart
  obtain ⟨_, u, hstate, h⟩ := Decoder.bind_done.1 h
  obtain ⟨_, v, hvariant, h⟩ := Decoder.bind_done.1 h
  obtain ⟨generatedEnd, v', hgeneratedEnd, h⟩ := Decoder.bind_done.1 h
  obtain ⟨rfl, rfl⟩ := Tape.place_done.1 hgeneratedEnd
  obtain ⟨id, w, hid, h⟩ := Decoder.bind_done.1 h
  obtain ⟨sortOrder, x, hsortOrder, h⟩ := Decoder.bind_done.1 h
  obtain ⟨endBit, x', hend, h⟩ := Decoder.bind_done.1 h
  obtain ⟨rfl, rfl⟩ := Tape.place_done.1 hend
  obtain ⟨rfl, rfl⟩ := Decoder.pure_done.1 h
  obtain ⟨hname, hname', hnameLe⟩ := hspanned hname
  obtain ⟨hid, hid', hidLe⟩ := hspanned hid
  obtain ⟨hsort, hsort', hsortLe⟩ := hspanned hsortOrder
  have hgenerated : t.position ≤ v.position :=
    (stable_readCategoryGeneratedState.onward hstate).position.trans
      (stable_readCategoryGeneratedVariant.onward hvariant).position
  have hforest : Forest codec path (depth + 1) _ _ [".m_name", ".generated", ".m_id", ".m_sortOrder"]
      _ :=
    (whole_leaf hnameLe).cons le_rfl ((whole_leaf hgenerated).cons le_rfl
      ((whole_leaf hidLe).cons le_rfl ((whole_leaf hsortLe).single le_rfl le_rfl)))
  refine ⟨_, _, ?_, hcustom, Parts.category, hforest⟩
  simp [categoryTrace, tracedInteger, DecodedField.place, hname, hname', hid, hid', hsort, hsort',
    toString, Tape.position]

end custom

/-! ## One type -/

section inner

variable {texts : TraceTexts} {recur : Recur}

/-- A reading that pushes nothing. -/
def Silent (x : Reading Decoded) : Prop :=
  ∀ r s value fields, x r = .done (value, fields) s → fields = []

theorem silent_pure (value : BsnValue) : Silent (pure (value, [])) := by
  intro r s value' fields h
  exact (Prod.mk.inj (Decoder.pure_done.1 h).1).2.symm

theorem Silent.bind {α : Type} {x : Reading α} {f : α → Reading Decoded}
    (hf : ∀ a, Silent (f a)) : Silent (x >>= f) := by
  intro r s value fields h
  obtain ⟨a, t, -, h⟩ := Decoder.bind_done.1 h
  exact hf a t s value fields h

/-- Rewording an entry leaves every entry where it is. -/
theorem map_place_rewordError (schema : Schema) (typeId : UInt32) (value : BsnValue)
    (fields : List DecodedField) :
    (rewordError texts schema typeId path value fields).map DecodedField.place =
      fields.map DecodedField.place := by
  unfold rewordError
  split
  · split_ifs with hcode
    · have hsplit := List.span_eq_takeWhile_dropWhile (p := (·.path != path)) (l := fields.reverse)
      split
      · rfl
      · next after field before hspan =>
        rw [hsplit] at hspan
        have hall := List.takeWhile_append_dropWhile (p := (·.path != path)) (l := fields.reverse)
        rw [(Prod.mk.inj hspan).1, (Prod.mk.inj hspan).2] at hall
        rw [← List.reverse_reverse fields, ← hall]
        simp [DecodedField.place]
    · rfl
  · rfl

/-- The recursive call pushes the tree of its value. -/
def PushesRecur (codec : Codec) (recur : Recur) : Prop :=
  ∀ reflected typeId path depth, Pushes codec (recur true reflected typeId path depth) path depth

theorem whole_decodeAlias (hrecur : PushesRecur codec recur) {typeId : UInt32} {shape : TypeShape}
    {reflected : Bool} (hkind : shape.kind = .alias) :
    Pushes codec (decodeReflected texts codec recur true typeId path depth shape reflected) path
      depth := by
  intro r s value fields h
  rw [decodeReflected, hkind] at h
  obtain ⟨element, t, helement, h⟩ := Decoder.bind_done.1 h
  obtain ⟨-, rfl⟩ := Decoder.ofExcept_done.1 helement
  obtain ⟨⟨value', fields'⟩, u, hvalue, h⟩ := Decoder.bind_done.1 h
  obtain ⟨hpure, rfl⟩ := Decoder.pure_done.1 h
  obtain ⟨-, rfl⟩ := Prod.mk.inj hpure
  rw [map_place_rewordError]
  exact hrecur _ _ _ _ _ _ _ _ hvalue

/-- A value with one part. -/
theorem body_single {x : Reading Decoded} {label : String} {f : BsnValue → BsnValue}
    (hx : Pushes codec x (path ++ label) (depth + 1)) (hparts : Parts codec [label])
    {r s : BitReader} {value : BsnValue} {fields : List DecodedField} (hstart : start ≤ r.position)
    (h : (x >>= fun a => pure (f a.1, a.2)) r = .done (value, fields) s) :
    Body codec path depth start s.position (fields.map DecodedField.place) := by
  obtain ⟨⟨value', fields'⟩, t, hvalue, h⟩ := Decoder.bind_done.1 h
  obtain ⟨hpure, rfl⟩ := Decoder.pure_done.1 h
  obtain ⟨-, rfl⟩ := Prod.mk.inj hpure
  exact body_of_forest hparts ((hx _ _ _ _ hvalue).single hstart le_rfl)

theorem body_decodeReflected (hstable : StableRecur recur) (hrecur : PushesRecur codec recur)
    {typeId : UInt32} {shape : TypeShape} {reflected : Bool} (hkind : shape.kind ≠ .alias)
    (hshape : codec.schema.shape typeId = .ok shape) {r s : BitReader} {value : BsnValue}
    {fields : List DecodedField}
    (h : decodeReflected texts codec recur true typeId path depth shape reflected r =
      .done (value, fields) s) :
    Body codec path depth r.position s.position (fields.map DecodedField.place) := by
  have honward := (stable_decodeReflected hstable _ _ _ _ _ _).onward h
  have hsilent : ∀ {x : Reading Decoded}, Silent x → x r = .done (value, fields) s →
      Body codec path depth r.position s.position (fields.map DecodedField.place) := by
    intro x hx h
    rw [hx _ _ _ _ h]
    exact body_nil honward.position
  unfold decodeReflected at h
  cases hk : shape.kind with
  | «alias» => exact absurd hk hkind
  | void => rw [hk] at h; exact hsilent (silent_pure _) h
  | bool => rw [hk] at h; exact hsilent (.bind fun _ => silent_pure _) h
  | integer => rw [hk] at h; exact hsilent (.bind fun _ => .bind fun _ => silent_pure _) h
  | enum => rw [hk] at h; exact hsilent (.bind fun _ => .bind fun _ => silent_pure _) h
  | fourCc => rw [hk] at h; exact hsilent (.bind fun _ => silent_pure _) h
  | float32 => rw [hk] at h; exact hsilent (.bind fun _ => silent_pure _) h
  | float64 => rw [hk] at h; exact hsilent (.bind fun _ => silent_pure _) h
  | byteString =>
    rw [hk] at h
    exact hsilent (.bind fun _ => .bind fun _ => .bind fun _ => silent_pure _) h
  | blob =>
    rw [hk] at h
    exact hsilent (.bind fun _ => .bind fun _ => .bind fun _ => silent_pure _) h
  | string =>
    rw [hk] at h
    exact hsilent (.bind fun _ => .bind fun _ => .bind fun _ => silent_pure _) h
  | bitArray =>
    rw [hk] at h
    exact hsilent (.bind fun _ => .bind fun _ => .bind fun _ => silent_pure _) h
  | array =>
    rw [hk] at h
    obtain ⟨range, t, hrange, h⟩ := Decoder.bind_done.1 h
    obtain ⟨-, rfl⟩ := Decoder.ofExcept_done.1 hrange
    obtain ⟨length, t, hlength, h⟩ := Decoder.bind_done.1 h
    obtain ⟨element, u, helement, h⟩ := Decoder.bind_done.1 h
    obtain ⟨-, rfl⟩ := Decoder.ofExcept_done.1 helement
    obtain ⟨⟨values, fields'⟩, u, hvalues, h⟩ := Decoder.bind_done.1 h
    obtain ⟨hpure, rfl⟩ := Decoder.pure_done.1 h
    obtain ⟨-, rfl⟩ := Prod.mk.inj hpure
    have hpath : ∀ index : Nat, s!"{path}[{index}]" = path ++ s!"[{index}]" := by
      intro index
      simp [toString, String.append_assoc]
    have hpushes : ∀ index : Nat, Pushes codec
        (recur true reflected element s!"{path}[{index}]" (depth + 1)) (path ++ s!"[{index}]")
        (depth + 1) := fun index => hpath index ▸ hrecur _ _ _ _
    have hforest := forest_decodeElements hpushes hvalues
    exact body_of_forest (Parts.array length)
      (hforest.widen ((stable_readLength range).onward hlength).position le_rfl)
  | optional =>
    rw [hk] at h
    obtain ⟨present, t, hpresent, h⟩ := Decoder.bind_done.1 h
    have hle := ((stable_read 1).onward hpresent).position
    split_ifs at h with hnone
    · obtain ⟨hpure, rfl⟩ := Decoder.pure_done.1 h
      obtain ⟨-, rfl⟩ := Prod.mk.inj hpure
      exact body_nil hle
    · obtain ⟨element, u, helement, h⟩ := Decoder.bind_done.1 h
      obtain ⟨-, rfl⟩ := Decoder.ofExcept_done.1 helement
      exact body_single (f := fun value => .optional (some value)) (hrecur _ _ _ _) Parts.optional
        hle h
  | choice =>
    rw [hk] at h
    obtain ⟨range, t, hrange, h⟩ := Decoder.bind_done.1 h
    obtain ⟨-, rfl⟩ := Decoder.ofExcept_done.1 hrange
    obtain ⟨index, t, hindex, h⟩ := Decoder.bind_done.1 h
    have hle := ((stable_readRange range).onward hindex).position
    cases hmember : shape.members.find? (·.index == index) with
    | none => simp [hmember] at h
    | some member =>
      rw [hmember] at h
      have hpath : s!"{path}.variant[{index}]" = path ++ s!".variant[{index}]" := by
        simp [toString, String.append_assoc]
      exact body_single (hpath ▸ hrecur _ _ _ _) (Parts.choice index) hle h
  | struct =>
    rw [hk] at h
    obtain ⟨⟨values, fields'⟩, t, hvalues, h⟩ := Decoder.bind_done.1 h
    obtain ⟨hpure, rfl⟩ := Decoder.pure_done.1 h
    obtain ⟨-, rfl⟩ := Prod.mk.inj hpure
    have hpath : ∀ member : Member, s!"{path}.{member.label}" = path ++ ("." ++ member.label) :=
      fun member => String.append_assoc ..
    exact body_of_forest (Parts.struct hshape hk)
      (forest_decodeMembers (fun member => hpath member ▸ hrecur _ _ _ _) hvalues)

theorem body_decodeStructLayout (hrecur : PushesRecur codec recur) {typeId : UInt32}
    {shape : TypeShape} {layout : StructWireLayout} (hshape : codec.schema.shape typeId = .ok shape)
    (hlayout : codec.wireLayouts[typeId]? = some (.struct layout) ∨
      codec.wireLayouts[typeId]? = some (.candidateStruct layout))
    {r s : BitReader} {value : BsnValue} {fields : List DecodedField}
    (h : decodeStructLayout recur true typeId path depth shape layout r =
      .done (value, fields) s) :
    Body codec path depth r.position s.position (fields.map DecodedField.place) := by
  obtain ⟨⟨values, fields'⟩, t, hvalues, h⟩ := Decoder.bind_done.1 h
  obtain ⟨values', u, hcollect, h⟩ := Decoder.bind_done.1 h
  obtain ⟨-, rfl⟩ := Decoder.ofExcept_done.1 hcollect
  obtain ⟨hpure, rfl⟩ := Decoder.pure_done.1 h
  obtain ⟨-, rfl⟩ := Prod.mk.inj hpure
  have hpath : ∀ member : Member, s!"{path}.{member.label}" = path ++ ("." ++ member.label) :=
    fun member => String.append_assoc ..
  exact body_of_forest (Parts.layout hshape hlayout)
    (forest_decodeLayoutFields (fun member => hpath member ▸ hrecur _ _ _ _) hvalues)

theorem led_decodeCustom (hstable : StableRecur recur) {typeId : UInt32} {layout : CustomLayout}
    (hlayout : codec.wireLayouts[typeId]? = some (.custom layout)) {r s : BitReader}
    {value : BsnValue} {fields : List DecodedField}
    (h : decodeCustom texts codec recur true typeId path depth layout r = .done (value, fields) s) :
    Led codec path depth r.position s.position (fields.map DecodedField.place) := by
  have hdecode : ∀ member, Stable Incomplete (Prod.fst <$> recur false false member "value" 0) :=
    fun member => (hstable _ _ _ _ _).map _
  -- What a club routine makes of its values, whichever fields it reads.
  have hclub : ∀ {values : ClubValues} {t : BitReader} {positions : List Nat},
      (layout, positions) ∈ clubPositions →
        values.startBit = r.position ∧ values.endBit = t.position ∧
        HasMembers codec.schema typeId positions ∧
        ReadsAt positions r.position t.position values.fields →
      (Decoder.ofExcept (clubResult texts codec.schema typeId true path depth values) :
        Reading Decoded) t = .done (value, fields) s →
      Led codec path depth r.position s.position (fields.map DecodedField.place) := by
    intro values t positions hpositions ⟨hstart, hend, hmembers, hreads⟩ h
    obtain ⟨hresult, rfl⟩ := Decoder.ofExcept_done.1 h
    rw [clubResult, except_bind_ok] at hresult
    obtain ⟨shape', hshape', hresult⟩ := hresult
    rw [except_bind_ok] at hresult
    obtain ⟨value', -, hresult⟩ := hresult
    obtain ⟨-, rfl⟩ := Prod.mk.inj (Except.ok.inj hresult)
    rw [← hstart, ← hend] at hreads ⊢
    exact led_clubTrace hshape' hlayout hpositions hmembers hreads
  rw [decodeCustom_eq] at h
  cases layout with
  | clubSummaryInfo =>
    obtain ⟨values, t, hvalues, h⟩ := Decoder.bind_done.1 h
    exact hclub (by simp [clubPositions]) (readsAt_readClubSummaryInfo hdecode hvalues) h
  | clubUserText =>
    obtain ⟨values, t, hvalues, h⟩ := Decoder.bind_done.1 h
    exact hclub (by simp [clubPositions]) (readsAt_readClubUserText hdecode hvalues) h
  | categoryDescription =>
    obtain ⟨values, t, hvalues, h⟩ := Decoder.bind_done.1 h
    obtain ⟨hresult, rfl⟩ := Decoder.ofExcept_done.1 h
    rw [categoryResult, except_bind_ok] at hresult
    obtain ⟨value', -, hresult⟩ := hresult
    obtain ⟨-, rfl⟩ := Prod.mk.inj (Except.ok.inj hresult)
    exact led_categoryTrace ⟨typeId, _, hlayout⟩ hvalues

/-- What the routine for a type pushes: for an alias the entries of its element, for any other type
those of the value without its own. -/
theorem pushes_decodeInner (hstable : StableRecur recur) (hrecur : PushesRecur codec recur)
    {typeId : UInt32} {shape : TypeShape} {reflected : Bool}
    (hshape : codec.schema.shape typeId = .ok shape) {r s : BitReader} {value : BsnValue}
    {fields : List DecodedField}
    (h : decodeInner texts codec recur true typeId path depth reflected r =
      .done (value, fields) s) :
    if shape.kind = .alias
    then Whole codec path depth r.position s.position (fields.map DecodedField.place)
    else Body codec path depth r.position s.position (fields.map DecodedField.place) := by
  obtain ⟨shape', t, hlookup, h⟩ := Decoder.bind_done.1 h
  obtain ⟨hshape', rfl⟩ := Decoder.ofExcept_done.1 hlookup
  obtain rfl := Except.ok.inj (hshape.symm.trans hshape')
  -- A struct layout is registered for structs only.
  have hstruct : ∀ layout, codec.wireLayouts[typeId]? = some (.struct layout) ∨
      codec.wireLayouts[typeId]? = some (.candidateStruct layout) → shape.kind = .struct := by
    intro layout hlayout
    have hfits : ∃ shape, codec.schema.shape typeId = .ok shape ∧ shape.kind = .struct ∧
        ∀ field ∈ layout.fields, field.logicalField < shape.memberTypes.length :=
      hlayout.elim (codec.fits typeId _) (codec.fits typeId _)
    obtain ⟨shape', hshape', hkind, -⟩ := hfits
    rw [Except.ok.inj (hshape.symm.trans hshape')]
    exact hkind
  have hreflected : ∀ reflected', (do
      let reflected ← Decoder.ofExcept reflected'
      decodeReflected texts codec recur true typeId path depth shape reflected) r =
        .done (value, fields) s →
      if shape.kind = .alias
      then Whole codec path depth r.position s.position (fields.map DecodedField.place)
      else Body codec path depth r.position s.position (fields.map DecodedField.place) := by
    intro reflected' h
    obtain ⟨reflected, t, hscope, h⟩ := Decoder.bind_done.1 h
    obtain ⟨-, rfl⟩ := Decoder.ofExcept_done.1 hscope
    split_ifs with hkind
    · exact whole_decodeAlias hrecur hkind _ _ _ _ h
    · exact body_decodeReflected hstable hrecur hkind hshape h
  cases hlayout : codec.wireLayouts[typeId]? with
  | none =>
    rw [hlayout] at h
    exact hreflected _ h
  | some layout =>
    rw [hlayout] at h
    cases layout with
    | candidateReflected => exact hreflected _ h
    | verifiedReflected => exact hreflected _ h
    | struct layout =>
      rw [hstruct layout (Or.inl hlayout)]
      exact body_decodeStructLayout hrecur hshape (Or.inl hlayout) h
    | candidateStruct layout =>
      rw [hstruct layout (Or.inr hlayout)]
      exact body_decodeStructLayout hrecur hshape (Or.inr hlayout) h
    | custom layout =>
      have hled := led_decodeCustom hstable hlayout h
      split_ifs
      · exact hled.whole
      · exact hled.body

theorem pushes_decodeScoped (hstable : StableRecur recur) (hrecur : PushesRecur codec recur) :
    PushesRecur codec (decodeScoped texts codec recur) := by
  intro reflected typeId path depth r s value fields h
  obtain ⟨startBit, t, hstart, h⟩ := Decoder.bind_done.1 h
  obtain ⟨rfl, rfl⟩ := Tape.place_done.1 hstart
  obtain ⟨shape, t, hlookup, h⟩ := Decoder.bind_done.1 h
  obtain ⟨hshape, rfl⟩ := Decoder.ofExcept_done.1 hlookup
  obtain ⟨⟨value', fields'⟩, t, hinner, h⟩ := Decoder.bind_done.1 h
  obtain ⟨endBit, u, hend, h⟩ := Decoder.bind_done.1 h
  obtain ⟨rfl, rfl⟩ := Tape.place_done.1 hend
  obtain ⟨hpure, rfl⟩ := Decoder.pure_done.1 h
  obtain ⟨-, rfl⟩ := Prod.mk.inj hpure
  have hpushes := pushes_decodeInner hstable hrecur hshape (Decoder.mapError_done.1 hinner)
  rw [List.map_append]
  by_cases hkind : shape.kind = .alias
  · rw [if_pos hkind] at hpushes
    simpa [ownEntry, hkind] using hpushes
  · rw [if_neg hkind] at hpushes
    simpa [ownEntry, hkind, DecodedField.place, Tape.position] using hpushes.close

end inner

/-- **The trace of a decoding is the tree of its value**, from where the reader stood to where it
stands. -/
theorem pushes_decodeAny (texts : TraceTexts) (codec : Codec) (fuel : Nat) :
    PushesRecur codec (decodeAny texts codec fuel) := by
  induction fuel with
  | zero => exact fun _ _ _ _ _ _ _ _ h => nomatch h
  | succ fuel ih => exact pushes_decodeScoped (stable_decodeAny texts codec fuel) ih

end Superiority.Bsn
