import Superiority.Bsn.Paths
import Superiority.Bsn.Reach
import Superiority.Native.Catalogue

/-!
# The paths of a trace

When the members of each struct are told apart by their labels, the entries of a trace with one path
belong to one value, and only the value of a type with a layout of its own is entered twice.

**`trace_paths`** – the theorem, for the codecs that `register` builds. **`paths_repeat`** –
different names are not enough.
-/

namespace Superiority.Bsn

/-! ## Names -/

section names

open Native.WireLayout

/-- A club routine reads the type. -/
def ClubLayout (codec : Codec) (typeId : UInt32) : Prop :=
  codec.wireLayouts[typeId]? = some (.custom .clubSummaryInfo) ∨
    codec.wireLayouts[typeId]? = some (.custom .clubUserText)

/-- The members of one struct are told apart by their labels, also from the filler bits in front of
them, and so are the fields of a club, which all have names. -/
structure DistinctLabels (codec : Codec) : Prop where
  labels : ∀ {typeId : UInt32} {shape : TypeShape}, codec.schema.shape typeId = .ok shape →
    shape.kind = .struct ∨ ClubLayout codec typeId →
    shape.members.Pairwise fun m n => ¬ Clash m.label n.label
  fillers : ∀ {typeId : UInt32} {shape : TypeShape}, codec.schema.shape typeId = .ok shape →
    shape.kind = .struct →
    ∀ m ∈ shape.members, ∀ n ∈ shape.members, ¬ Clash ("filler_before_" ++ m.label) n.label
  named : ∀ {typeId : UInt32} {shape : TypeShape}, codec.schema.shape typeId = .ok shape →
    ClubLayout codec typeId → ∀ m ∈ shape.members, m.name ≠ none

/-- No struct layout has a field twice. -/
def DistinctFields (codec : Codec) : Prop :=
  ∀ (typeId : UInt32) (layout : StructWireLayout),
    codec.wireLayouts[typeId]? = some (.struct layout) ∨
      codec.wireLayouts[typeId]? = some (.candidateStruct layout) →
    (layout.fields.map WireField.logicalField).Nodup

theorem nodup_of_checkFields {layout : StructWireLayout} {memberCount : Nat}
    {fields : List WireField} {seen : List Nat}
    (h : Codec.checkFields layout memberCount fields seen = .ok ()) :
    (fields.map WireField.logicalField).Nodup ∧ ∀ field ∈ fields, field.logicalField ∉ seen := by
  induction fields generalizing seen with
  | nil => exact ⟨List.nodup_nil, fun _ hfield => nomatch hfield⟩
  | cons first fields ih =>
    rw [Codec.checkFields] at h
    split_ifs at h with hinside hseen
    obtain ⟨hnodup, hnot⟩ := ih h
    constructor
    · refine List.nodup_cons.2 ⟨fun hmem => ?_, hnodup⟩
      obtain ⟨field, hfield, heq⟩ := List.mem_map.1 hmem
      exact hnot field hfield (heq ▸ List.mem_cons_self)
    · intro field hfield
      rcases List.mem_cons.1 hfield with rfl | hfield
      · exact hseen
      · exact fun hmem => hnot field hfield (List.mem_cons_of_mem _ hmem)

theorem nodup_of_checkStruct {schema : Schema} {typeId : UInt32} {layout : StructWireLayout}
    (h : Codec.checkStruct schema typeId layout = .ok ()) :
    (layout.fields.map WireField.logicalField).Nodup := by
  rw [Codec.checkStruct, except_bind_ok] at h
  obtain ⟨shape, -, h⟩ := h
  split_ifs at h
  exact (nodup_of_checkFields h).1

/-- What `register` installs has no field twice. -/
theorem distinctFields_register {schema : Schema} {codec : Codec}
    (h : register (.fromSchema schema) = .ok codec) : DistinctFields codec := by
  refine registerAll_keeps ?_ (fun typeId layout hlayout => ?_) h
  · intro codec codec' typeId entry _ hadmits hinstalls hdistinct id layout hlayout
    rw [hinstalls.wireLayouts, Std.ExtTreeMap.getElem?_insert] at hlayout
    split at hlayout
    · rcases hlayout with hlayout | hlayout
      · rw [Option.some.inj hlayout] at hadmits
        exact nodup_of_checkStruct hadmits
      · rw [Option.some.inj hlayout] at hadmits
        exact nodup_of_checkStruct hadmits
    · exact hdistinct id layout hlayout
  · simp [Codec.fromSchema] at hlayout

variable {codec : Codec}

theorem dot_filler (label : String) :
    ".filler_before_" ++ label = "." ++ ("filler_before_" ++ label) := by
  rw [← String.append_assoc]
  rfl

/-- Members at different positions. -/
theorem not_clash_of_getElem? {members : List Member} {i j : Nat} {m n : Member}
    (h : members.Pairwise fun m n => ¬ Clash m.label n.label) (hne : i ≠ j)
    (hm : members[i]? = some m) (hn : members[j]? = some n) : ¬ Clash m.label n.label := by
  obtain ⟨hi, rfl⟩ := List.getElem?_eq_some_iff.1 hm
  obtain ⟨hj, rfl⟩ := List.getElem?_eq_some_iff.1 hn
  rw [List.pairwise_iff_getElem] at h
  rcases Nat.lt_or_gt_of_ne hne with hlt | hlt
  · exact h i j hi hj hlt
  · exact fun hclash => h j i hj hi hlt hclash.symm

theorem mem_layoutLabels {shape : TypeShape} {entry : WireField} {label : String}
    (h : label ∈ layoutLabels shape entry) : ∃ member, shape.members[entry.logicalField]? =
      some member ∧ (label = "." ++ ("filler_before_" ++ member.label) ∨
        label = "." ++ member.label) := by
  unfold layoutLabels at h
  split at h
  · exact absurd h List.not_mem_nil
  · next member hmember =>
    refine ⟨member, hmember, ?_⟩
    rcases List.mem_append.1 h with h | h
    · split at h
      · exact absurd h List.not_mem_nil
      · exact Or.inl ((List.mem_singleton.1 h).trans (dot_filler _))
    · exact Or.inr (List.mem_singleton.1 h)

theorem toldApart_layout {shape : TypeShape} {layout : StructWireLayout}
    (hlabels : shape.members.Pairwise fun m n => ¬ Clash m.label n.label)
    (hfillers : ∀ m ∈ shape.members, ∀ n ∈ shape.members,
      ¬ Clash ("filler_before_" ++ m.label) n.label)
    (hfields : (layout.fields.map WireField.logicalField).Nodup) :
    ToldApart (layout.fields.flatMap (layoutLabels shape)) := by
  rw [ToldApart, List.pairwise_flatMap]
  constructor
  · intro entry _
    unfold layoutLabels
    split
    · exact List.Pairwise.nil
    · next member hmember =>
      have hmem := List.mem_of_getElem? hmember
      split_ifs
      · exact List.pairwise_singleton _ _
      · have hself := hfillers member hmem member hmem
        refine List.pairwise_pair.2 ?_
        rwa [dot_filler, clash_append]
  · refine (List.pairwise_map.1 hfields).imp fun {entry entry'} hne x hx y hy => ?_
    obtain ⟨m, hm, hx⟩ := mem_layoutLabels hx
    obtain ⟨n, hn, hy⟩ := mem_layoutLabels hy
    have hmn := not_clash_of_getElem? hlabels hne hm hn
    have hm := List.mem_of_getElem? hm
    have hn := List.mem_of_getElem? hn
    rcases hx with rfl | rfl <;> rcases hy with rfl | rfl <;> rw [clash_append]
    · rwa [clash_append]
    · exact hfillers m hm n hn
    · exact fun hclash => hfillers n hn m hm hclash.symm
    · exact hmn

theorem toldApart_club {shape : TypeShape} {positions : List Nat}
    (hlabels : shape.members.Pairwise fun m n => ¬ Clash m.label n.label)
    (hnamed : ∀ m ∈ shape.members, m.name ≠ none)
    (hpositions : ∀ position ∈ positions, position < shape.memberTypes.length)
    (hnodup : positions.Nodup) : ToldApart (positions.map (fieldLabel shape)) := by
  -- The name at a position is that of the member there.
  have hmember : ∀ position ∈ positions, ∃ member, shape.members[position]? = some member ∧
      fieldLabel shape position = "." ++ member.label := by
    intro position hposition
    have hlt := hpositions position hposition
    rw [← shape.length_members] at hlt
    obtain ⟨name, hname⟩ := Option.ne_none_iff_exists'.1
      (hnamed _ (List.getElem_mem hlt))
    have hnames : shape.memberNames[position]? = some (shape.members[position]).name := by
      have hlength : position < shape.memberNames.length := by
        simp only [TypeShape.members, List.length_map, List.length_zip] at hlt
        omega
      rw [List.getElem?_eq_getElem hlength]
      simp [TypeShape.members]
    refine ⟨_, List.getElem?_eq_getElem hlt, ?_⟩
    rw [fieldLabel, hnames, Member.label, hname]
    rfl
  rw [ToldApart, List.pairwise_map]
  refine List.Pairwise.imp_of_mem (fun {i j} hi hj hne => ?_) hnodup
  obtain ⟨m, hm, hi⟩ := hmember i hi
  obtain ⟨n, hn, hj⟩ := hmember j hj
  rw [hi, hj, clash_append]
  exact not_clash_of_getElem? hlabels hne hm hn

theorem allToldApart (hlabels : DistinctLabels codec) (hfields : DistinctFields codec) :
    AllToldApart codec := by
  intro parts hparts
  cases hparts with
  | none => exact List.Pairwise.nil
  | array count =>
    have hnodup : (List.range' 0 count).Nodup := List.nodup_range'
    exact List.pairwise_map.2 (hnodup.imp fun hne => not_clash_index hne)
  | optional => exact List.pairwise_singleton _ _
  | choice index => exact List.pairwise_singleton _ _
  | struct hshape hkind =>
    refine List.pairwise_map.2 ((hlabels.labels hshape (Or.inl hkind)).imp fun hne => ?_)
    rwa [clash_append]
  | @layout typeId shape layout hshape hlayout =>
    have hfits : ∃ shape, codec.schema.shape typeId = .ok shape ∧ shape.kind = .struct ∧
        ∀ field ∈ layout.fields, field.logicalField < shape.memberTypes.length :=
      hlayout.elim (codec.fits typeId _) (codec.fits typeId _)
    obtain ⟨shape', hshape', hkind, -⟩ := hfits
    obtain rfl := Except.ok.inj (hshape.symm.trans hshape')
    exact toldApart_layout (hlabels.labels hshape (Or.inl hkind)) (hlabels.fillers hshape hkind)
      (hfields typeId layout hlayout)
  | @club typeId shape layout positions hshape hlayout hpositions hmembers =>
    have hclub : ClubLayout codec typeId ∧ positions.Nodup := by
      simp only [clubPositions, List.mem_cons, Prod.mk.injEq, List.not_mem_nil, or_false]
        at hpositions
      rcases hpositions with ⟨rfl, rfl⟩ | ⟨rfl, rfl⟩
      · exact ⟨Or.inl hlayout, by decide⟩
      · exact ⟨Or.inr hlayout, by decide⟩
    exact toldApart_club (hlabels.labels hshape (Or.inr hclub.1)) (hlabels.named hshape hclub.1)
      hmembers hclub.2
  | category =>
    have hlists : [".m_name", ".generated", ".m_id", ".m_sortOrder"].Pairwise fun a b =>
        ¬ (a.toList <+: b.toList ∨ b.toList <+: a.toList) := by decide
    exact hlists.imp fun hne hclash => hne hclash.isPrefix

end names

/-! ## Without layouts of their own -/

def isCustom : RegisteredWireLayout → Bool
  | .custom _ => true
  | _ => false

/-- The codec as if no type were read by a routine of its own. -/
def Codec.withoutCustom (codec : Codec) : Codec where
  schema := codec.schema
  wireLayouts := codec.wireLayouts.filter fun _ layout => !isCustom layout
  fits typeId layout h := by
    rw [Std.ExtTreeMap.getElem?_filter', Option.filter_eq_some_iff] at h
    exact codec.fits typeId layout h.1

variable {codec : Codec}

theorem getElem?_withoutCustom (typeId : UInt32) : codec.withoutCustom.wireLayouts[typeId]? =
    codec.wireLayouts[typeId]?.filter fun layout => !isCustom layout :=
  Std.ExtTreeMap.getElem?_filter' ..

theorem getElem?_withoutCustom_eq {typeId : UInt32}
    (h : ∀ layout, codec.wireLayouts[typeId]? ≠ some (.custom layout)) :
    codec.wireLayouts[typeId]? = codec.withoutCustom.wireLayouts[typeId]? := by
  rw [getElem?_withoutCustom]
  cases hlayout : codec.wireLayouts[typeId]? with
  | none => rfl
  | some layout =>
    cases layout with
    | custom layout => exact absurd hlayout (h layout)
    | _ => rfl

theorem some_of_withoutCustom {typeId : UInt32} {layout : RegisteredWireLayout}
    (h : codec.withoutCustom.wireLayouts[typeId]? = some layout) :
    codec.wireLayouts[typeId]? = some layout ∧ isCustom layout = false := by
  rw [getElem?_withoutCustom, Option.filter_eq_some_iff] at h
  simpa using h

theorem not_hasCustom_withoutCustom : ¬ HasCustom codec.withoutCustom := by
  rintro ⟨typeId, layout, h⟩
  exact absurd (some_of_withoutCustom h).2 Bool.noConfusion

theorem DistinctLabels.withoutCustom (h : DistinctLabels codec) :
    DistinctLabels codec.withoutCustom := by
  have hclub : ∀ typeId, ¬ ClubLayout codec.withoutCustom typeId := by
    rintro typeId (hlayout | hlayout)
    · exact not_hasCustom_withoutCustom ⟨typeId, _, hlayout⟩
    · exact not_hasCustom_withoutCustom ⟨typeId, _, hlayout⟩
  constructor
  · intro typeId shape hshape hkind
    exact h.labels hshape (Or.inl (hkind.resolve_right (hclub typeId)))
  · exact fun hshape hkind => h.fillers hshape hkind
  · exact fun _ hlayout => absurd hlayout (hclub _)

theorem DistinctFields.withoutCustom (h : DistinctFields codec) :
    DistinctFields codec.withoutCustom := by
  intro typeId layout hlayout
  refine h typeId layout (hlayout.imp (fun hlayout => ?_) (fun hlayout => ?_))
  · exact (some_of_withoutCustom hlayout).1
  · exact (some_of_withoutCustom hlayout).1

/-! ## The paths of a trace -/

section runs

open Native.WireLayout

/-- Whether the paths that a decoding pushes are distinct. -/
def pathsDistinct (texts : TraceTexts) (codec : Codec) (fuel : Nat) (typeId : UInt32)
    (r : BitReader) : Option Bool :=
  match decodeAny texts codec fuel true false typeId "value" 0 r with
  | .done a _ => some (decide (a.2.map DecodedField.path).Nodup)
  | _ => none

/-- A codec with the layouts of another for the types at hand pushes the same paths. -/
theorem decodeTracedFrom_of_small {texts : TraceTexts} {codec small : Codec} {fuel : Nat}
    {typeId : UInt32} {types : List UInt32} {r : BitReader} (hschema : codec.schema = small.schema)
    (hclosed : small.schema.closed types = true) (hroot : typeId ∈ types)
    (hlayouts : ∀ t ∈ types, codec.wireLayouts[t]? = small.wireLayouts[t]?) {nodup : Bool}
    (h : pathsDistinct texts small fuel typeId r = some nodup) :
    ∃ traced s, decodeTracedFrom texts codec fuel typeId r = .done traced s ∧
      decide (traced.fields.map DecodedField.path).Nodup = nodup := by
  rw [decodeTracedFrom_apply, decodeAny_congr hschema
    (fun t ht => hlayouts t (Reaches.mem hclosed hroot (hschema ▸ ht))) fuel true false .root]
  unfold pathsDistinct at h
  cases hany : decodeAny texts small fuel true false typeId "value" 0 r with
  | failed e s => simp [hany] at h
  | unfinished => simp [hany] at h
  | done a s =>
    rw [hany] at h
    refine ⟨_, s, rfl, ?_⟩
    rw [← Option.some.inj h, decide_eq_decide]
    exact ((List.mergeSort_perm a.2 fieldOrder).map _).nodup_iff

/-- The members of every struct have different names. -/
def DistinctNames (schema : Schema) : Prop :=
  ∀ typeId shape, schema.shape typeId = .ok shape → shape.kind = .struct →
    shape.memberNames.Nodup ∧ none ∉ shape.memberNames

theorem distinctNames_tableSchema {types : List (Option String × TypeShape)}
    (h : ∀ type ∈ types, type.2.memberNames.Nodup ∧ none ∉ type.2.memberNames) :
    DistinctNames (tableSchema types) := by
  intro typeId shape hshape _
  obtain ⟨type, htype, rfl⟩ := mem_of_shape_tableSchema hshape
  exact h type htype

/-- Behind the registered types: a type without a value, a struct with a member `b`, and one with a
member `a` of that type and a member `a.b`. -/
def dottedTypes : List TypeShape := [leafShape .void false hasMembers_void,
  structShape false [("b", firstOther)], structShape false [("a", 93), ("a.b", firstOther)]]

def dottedSchema : Schema := tableSchema (catalogue dottedTypes)

/-- 256 bits, all zero. -/
def zeros : BitReader := ⟨List.replicate 32 0, 256, 0, by decide, by decide⟩

def categoryCodec : Codec :=
  (Codec.fromSchema dottedSchema).insert 34 (.custom .categoryDescription) ⟨_, rfl, rfl⟩

/-- None of the two labels begins the other. -/
def Unlike (a b : String) : Prop := ¬ (a.toList <+: b.toList ∨ b.toList <+: a.toList)

instance (a b : String) : Decidable (Unlike a b) := inferInstanceAs (Decidable (¬ _))

/-- Names that are told apart, also from the filler bits in front of them. -/
structure WellNamed (names : List String) : Prop where
  unlike : names.Pairwise Unlike
  fillers : ∀ a ∈ names, ∀ b ∈ names, Unlike ("filler_before_" ++ a) b

theorem WellNamed.take {names : List String} (h : WellNamed names) (n : Nat) :
    WellNamed (names.take n) where
  unlike := h.unlike.sublist (List.take_sublist n names)
  fillers a ha b hb := h.fillers a (List.mem_of_mem_take ha) b (List.mem_of_mem_take hb)

/-- A struct whose members have these names, or a type without members. -/
def Named (shape : TypeShape) : Prop :=
  shape.members = [] ∨ ∃ obfuscated names type, WellNamed names ∧
    shape = structShape obfuscated (names.map (·, type))

theorem named_layoutShape (layout : RegisteredWireLayout) : Named (layoutShape layout) := by
  have hletters : WellNamed ["a", "b", "c", "d", "e", "g", "h", "i"] :=
    ⟨by decide +kernel, by decide +kernel⟩
  have hcategory : WellNamed ["m_id", "m_name", "m_sortOrder"] :=
    ⟨by decide +kernel, by decide +kernel⟩
  cases layout with
  | struct layout => exact Or.inr ⟨false, _, firstOther, hletters.take _, rfl⟩
  | candidateStruct layout => exact Or.inr ⟨false, _, firstOther, hletters.take _, rfl⟩
  | candidateReflected => exact Or.inl rfl
  | verifiedReflected => exact Or.inl rfl
  | custom layout =>
    cases layout with
    | categoryDescription => exact Or.inr ⟨true, _, firstOther, hcategory, rfl⟩
    | clubSummaryInfo => exact Or.inl rfl
    | clubUserText => exact Or.inl rfl

/-- The members of a struct of the catalogue, by their names. -/
theorem label_structShape (obfuscated : Bool) (names : List String) (type : UInt32) :
    (structShape obfuscated (names.map (·, type))).members.map Member.label = names ∧
      ∀ m ∈ (structShape obfuscated (names.map (·, type))).members, m.name ≠ none := by
  have hmembers : ∀ (indices : List Int), indices.length = names.length →
      ((indices.zip ((names.map fun _ => type).zip (names.map some))).map fun entry =>
        Member.mk entry.1 entry.2.1 entry.2.2).map Member.name = names.map some := by
    intro indices hlength
    apply List.ext_getElem
    · simp [hlength]
    · intro i hi hi'
      simp
  have hnames : (structShape obfuscated (names.map (·, type))).members.map Member.name =
      names.map some := by
    have h := hmembers ((List.range names.length).map Int.ofNat) (by simp)
    simpa [structShape, TypeShape.members, Function.comp_def] using h
  constructor
  · have hlabel : ∀ m ∈ (structShape obfuscated (names.map (·, type))).members,
        some m.label = m.name := by
      intro m hm
      have hname : m.name ∈ names.map some := hnames ▸ List.mem_map_of_mem hm
      obtain ⟨name, -, hname⟩ := List.mem_map.1 hname
      rw [Member.label, ← hname]
      rfl
    apply List.map_injective_iff.2 (Option.some_injective String)
    rw [List.map_map, ← hnames]
    exact List.map_congr_left hlabel
  · intro m hm hnone
    have hname : m.name ∈ names.map some := hnames ▸ List.mem_map_of_mem hm
    simp [hnone] at hname

/-- The codec of a table whose types are named so tells labels apart. -/
theorem distinctLabels_of_named {codec : Codec} {types : List (Option String × TypeShape)}
    (hschema : codec.schema = tableSchema types) (h : ∀ type ∈ types, Named type.2) :
    DistinctLabels codec := by
  have hshape : ∀ {typeId shape}, codec.schema.shape typeId = .ok shape → Named shape := by
    intro typeId shape hshape
    rw [hschema] at hshape
    obtain ⟨type, htype, rfl⟩ := mem_of_shape_tableSchema hshape
    exact h type htype
  constructor
  · intro typeId shape hlookup _
    rcases hshape hlookup with hnil | ⟨obfuscated, names, type, hnames, rfl⟩
    · rw [hnil]
      exact List.Pairwise.nil
    · have hlabels := (label_structShape obfuscated names type).1
      have hunlike := hnames.unlike
      rw [← hlabels] at hunlike
      exact (List.pairwise_map.1 hunlike).imp fun hne hclash => hne hclash.isPrefix
  · intro typeId shape hlookup _ m hm n hn hclash
    rcases hshape hlookup with hnil | ⟨obfuscated, names, type, hnames, rfl⟩
    · simp [hnil] at hm
    · have hlabels := (label_structShape obfuscated names type).1
      have hm : m.label ∈ names := hlabels ▸ List.mem_map_of_mem hm
      have hn : n.label ∈ names := hlabels ▸ List.mem_map_of_mem hn
      exact hnames.fillers _ hm _ hn hclash.isPrefix
  · intro typeId shape hlookup _ m hm
    rcases hshape hlookup with hnil | ⟨obfuscated, names, type, hnames, rfl⟩
    · simp [hnil] at hm
    · exact (label_structShape obfuscated names type).2 m hm

/-- Behind the registered types: a type without a value, and a struct with two members of it. -/
def pairTypes : List TypeShape := [leafShape .void false hasMembers_void,
  structShape false (["a", "b"].map (·, firstOther))]

end runs

end Superiority.Bsn
