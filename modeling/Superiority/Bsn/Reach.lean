import Superiority.Bsn.Codec

/-!
# The types a decoding comes to

Decoding a type calls itself for the element of an alias, an array or an optional and for the
members of a struct or a choice, so it only looks up the layouts of the types that can be reached
this way.

**`decodeAny_congr`** – two codecs with one schema decode a type alike when they have the same
layouts for the types that can be reached from it.
-/

namespace Superiority.Bsn

open Reading Native.WireLayout

/-- The types that can be reached from one. -/
inductive Reaches (schema : Schema) (root : UInt32) : UInt32 → Prop where
  | root : Reaches schema root root
  | element {typeId element : UInt32} {shape : TypeShape} : Reaches schema root typeId →
      schema.shape typeId = .ok shape → shape.elementType = some element →
      Reaches schema root element
  | member {typeId member : UInt32} {shape : TypeShape} : Reaches schema root typeId →
      schema.shape typeId = .ok shape → member ∈ shape.memberTypes → Reaches schema root member

/-- No type of the list leads out of it. -/
def Schema.closed (schema : Schema) (types : List UInt32) : Bool :=
  types.all fun typeId =>
    match schema.shape typeId with
    | .ok shape => shape.elementType.all (· ∈ types) && shape.memberTypes.all (· ∈ types)
    | .error _ => true

theorem Reaches.mem {schema : Schema} {root typeId : UInt32} {types : List UInt32}
    (hclosed : schema.closed types = true) (hroot : root ∈ types)
    (h : Reaches schema root typeId) : typeId ∈ types := by
  have hstep : ∀ {typeId shape}, typeId ∈ types → schema.shape typeId = .ok shape →
      shape.elementType.all (· ∈ types) = true ∧ shape.memberTypes.all (· ∈ types) = true := by
    intro typeId shape hmem hshape
    have h := List.all_eq_true.1 hclosed typeId hmem
    rw [hshape] at h
    exact (Bool.and_eq_true _ _).mp h
  induction h with
  | root => exact hroot
  | element _ hshape helement ih =>
    have hall := (hstep ih hshape).1
    rw [helement] at hall
    simpa using hall
  | member _ hshape hmember ih =>
    simpa using List.all_eq_true.1 (hstep ih hshape).2 _ hmember

theorem Member.type_mem {shape : TypeShape} {member : Member} (h : member ∈ shape.members) :
    member.type ∈ shape.memberTypes := by
  obtain ⟨⟨index, type, name⟩, hentry, rfl⟩ := List.mem_map.1 h
  exact (List.of_mem_zip (List.of_mem_zip hentry).2).1

/-- Two recursive calls that agree on the element of a shape and on its members. -/
structure AgreeBelow (shape : TypeShape) (recur recur' : Recur) : Prop where
  element : ∀ element, shape.elementType = some element → ∀ traced reflected path depth,
    recur traced reflected element path depth = recur' traced reflected element path depth
  member : ∀ member ∈ shape.memberTypes, ∀ traced reflected path depth,
    recur traced reflected member path depth = recur' traced reflected member path depth

theorem requiredElement_ok {shape : TypeShape} {element : UInt32} :
    requiredElement shape = .ok element ↔ shape.elementType = some element := by
  unfold requiredElement
  cases shape.elementType <;> simp

/-! ## Lists of values -/

theorem decodeMembers_congr {decode decode' : Member → Reading Decoded} {typeText : String}
    {members : List Member} (h : ∀ member ∈ members, decode member = decode' member) :
    decodeMembers decode typeText members = decodeMembers decode' typeText members := by
  induction members with
  | nil => rfl
  | cons member members ih =>
    rw [decodeMembers, decodeMembers, h member List.mem_cons_self,
      ih fun member hmember => h member (List.mem_cons_of_mem _ hmember)]

theorem decodeLayoutFields_congr {decode decode' : Member → Reading Decoded} {traced : Bool}
    {members : List Member} {path : String} {depth : Nat} {entries : List WireField}
    (h : ∀ member ∈ members, decode member = decode' member) :
    decodeLayoutFields decode traced members path depth entries =
      decodeLayoutFields decode' traced members path depth entries := by
  induction entries with
  | nil => rfl
  | cons entry entries ih =>
    rw [decodeLayoutFields, decodeLayoutFields, ih]
    cases hmember : members[entry.logicalField]? with
    | none => rfl
    | some member => simp only [h member (List.mem_of_getElem? hmember)]

/-! ## The routines of the custom layouts -/

section custom

variable {schema : Schema} {decodeFrom decodeFrom' : UInt32 → Reading BsnValue} {rootType : UInt32}

/-- Two ways to read the members of a type are one. -/
def SameMembers (schema : Schema) (rootType : UInt32)
    (decodeFrom decodeFrom' : UInt32 → Reading BsnValue) : Prop :=
  ∀ shape, schema.shape rootType = .ok shape →
    ∀ member ∈ shape.memberTypes, decodeFrom member = decodeFrom' member

variable (h : SameMembers schema rootType decodeFrom decodeFrom')

include h

theorem readClubField_congr (position : Nat) :
    readClubField schema decodeFrom rootType position =
      readClubField schema decodeFrom' rootType position := by
  apply Decoder.bind_congr
  intro r shape s hlookup
  cases hmember : shape.memberTypes[position]? with
  | none => rfl
  | some member =>
    have hshape := (Decoder.ofExcept_done.1 hlookup).1
    simp only [h shape hshape member (List.mem_of_getElem? hmember)]

theorem readClubFields_congr (positions : List Nat) :
    readClubFields schema decodeFrom rootType positions =
      readClubFields schema decodeFrom' rootType positions := by
  induction positions with
  | nil => rfl
  | cons position positions ih => rw [readClubFields, readClubFields, readClubField_congr h, ih]

theorem decode_congr (layout : CustomLayout) :
    Native.WireLayout.decode schema decodeFrom layout rootType =
      Native.WireLayout.decode schema decodeFrom' layout rootType := by
  cases layout with
  | clubSummaryInfo =>
    simp only [Native.WireLayout.decode, readClubSummaryInfo, readClubField_congr h,
      readClubFields_congr h]
  | clubUserText =>
    simp only [Native.WireLayout.decode, readClubUserText, readClubField_congr h,
      readClubFields_congr h]
  | categoryDescription => rfl

theorem decodeTraced_congr (texts : TraceTexts) (layout : CustomLayout) (path : String)
    (depth : Nat) : decodeTraced texts schema decodeFrom layout rootType path depth =
      decodeTraced texts schema decodeFrom' layout rootType path depth := by
  cases layout with
  | clubSummaryInfo =>
    simp only [decodeTraced, readClubSummaryInfo, readClubField_congr h, readClubFields_congr h]
  | clubUserText =>
    simp only [decodeTraced, readClubUserText, readClubField_congr h, readClubFields_congr h]
  | categoryDescription => rfl

end custom

/-! ## One type -/

section inner

variable {texts : TraceTexts} {codec codec' : Codec} {recur recur' : Recur} {traced : Bool}
  {typeId : UInt32} {path : String} {depth : Nat} {shape : TypeShape}

theorem decodeReflected_congr (hschema : codec.schema = codec'.schema)
    (h : AgreeBelow shape recur recur') (reflected : Bool) :
    decodeReflected texts codec recur traced typeId path depth shape reflected =
      decodeReflected texts codec' recur' traced typeId path depth shape reflected := by
  have helement : ∀ {α : Type} {f g : UInt32 → Reading α},
      (∀ element, shape.elementType = some element → f element = g element) →
      (Decoder.ofExcept (requiredElement shape) >>= f) =
        (Decoder.ofExcept (requiredElement shape) >>= g) := by
    intro α f g hfg
    apply Decoder.bind_congr
    intro r element s hrequired
    exact hfg element (requiredElement_ok.1 (Decoder.ofExcept_done.1 hrequired).1)
  unfold decodeReflected
  cases shape.kind with
  | «alias» =>
    apply helement
    intro element hsome
    rw [h.element element hsome, hschema]
  | array =>
    refine Decoder.bind_congr fun _ range _ _ => Decoder.bind_congr fun _ length _ _ => ?_
    apply helement
    intro element hsome
    simp only [h.element element hsome]
  | optional =>
    refine Decoder.bind_congr fun _ present _ _ => ?_
    split_ifs
    · rfl
    · apply helement
      intro element hsome
      rw [h.element element hsome]
  | choice =>
    refine Decoder.bind_congr fun _ range _ _ => Decoder.bind_congr fun _ index _ _ => ?_
    cases hmember : shape.members.find? (·.index == index) with
    | none => rfl
    | some member =>
      have hmem := Member.type_mem (List.mem_of_find?_eq_some hmember)
      simp only [h.member member.type hmem]
  | struct =>
    have hmembers : ∀ text, decodeMembers (fun member =>
        recur traced reflected member.type s!"{path}.{member.label}" (depth + 1)) text
          shape.members = decodeMembers (fun member =>
        recur' traced reflected member.type s!"{path}.{member.label}" (depth + 1)) text
          shape.members := fun text => decodeMembers_congr fun member hmember =>
      h.member member.type (Member.type_mem hmember) _ _ _ _
    simp only [hschema, hmembers]
  | _ => rfl

theorem decodeStructLayout_congr (h : AgreeBelow shape recur recur') (layout : StructWireLayout) :
    decodeStructLayout recur traced typeId path depth shape layout =
      decodeStructLayout recur' traced typeId path depth shape layout := by
  unfold decodeStructLayout
  congr 1
  exact decodeLayoutFields_congr fun member hmember =>
    h.member member.type (Member.type_mem hmember) _ _ _ _

theorem decodeCustom_congr (hschema : codec.schema = codec'.schema)
    (hshape : codec.schema.shape typeId = .ok shape) (h : AgreeBelow shape recur recur')
    (layout : CustomLayout) :
    decodeCustom texts codec recur traced typeId path depth layout =
      decodeCustom texts codec' recur' traced typeId path depth layout := by
  have hsame : SameMembers codec'.schema typeId
      (fun member => Prod.fst <$> recur false false member "value" 0)
      (fun member => Prod.fst <$> recur' false false member "value" 0) := by
    intro shape' hshape' member hmember
    rw [← hschema] at hshape'
    obtain rfl := Except.ok.inj (hshape.symm.trans hshape')
    simp only [h.member member hmember]
  unfold decodeCustom
  dsimp only
  rw [hschema, decodeTraced_congr hsame, decode_congr hsame]

theorem decodeInner_congr (hschema : codec.schema = codec'.schema)
    (hlayouts : codec.wireLayouts[typeId]? = codec'.wireLayouts[typeId]?)
    (hshape : codec.schema.shape typeId = .ok shape) (h : AgreeBelow shape recur recur')
    (reflected : Bool) :
    decodeInner texts codec recur traced typeId path depth reflected =
      decodeInner texts codec' recur' traced typeId path depth reflected := by
  have hscope : codec.reflectedScope typeId shape reflected =
      codec'.reflectedScope typeId shape reflected := by
    unfold Codec.reflectedScope
    rw [hlayouts, hschema]
  have hreflected : (Decoder.ofExcept (codec.reflectedScope typeId shape reflected) >>=
        decodeReflected texts codec recur traced typeId path depth shape) =
      (Decoder.ofExcept (codec'.reflectedScope typeId shape reflected) >>=
        decodeReflected texts codec' recur' traced typeId path depth shape) := by
    rw [hscope]
    exact Decoder.bind_congr fun _ reflected _ _ => decodeReflected_congr hschema h reflected
  unfold decodeInner
  rw [← hschema, ← hlayouts, hshape, Decoder.ofExcept_ok, Decoder.pure_bind, Decoder.pure_bind]
  cases codec.wireLayouts[typeId]? with
  | none => exact hreflected
  | some layout =>
    cases layout with
    | struct layout => exact decodeStructLayout_congr h layout
    | candidateStruct layout => exact decodeStructLayout_congr h layout
    | custom layout => exact decodeCustom_congr hschema hshape h layout
    | candidateReflected => exact hreflected
    | verifiedReflected => exact hreflected

end inner

/-! ## The recursion -/

/-- **Only the layouts of the types that can be reached count.** -/
theorem decodeAny_congr {texts : TraceTexts} {codec codec' : Codec} {root : UInt32}
    (hschema : codec.schema = codec'.schema)
    (hlayouts : ∀ typeId, Reaches codec.schema root typeId →
      codec.wireLayouts[typeId]? = codec'.wireLayouts[typeId]?)
    (fuel : Nat) (traced reflected : Bool) {typeId : UInt32}
    (hreaches : Reaches codec.schema root typeId) (path : String) (depth : Nat) :
    decodeAny texts codec fuel traced reflected typeId path depth =
      decodeAny texts codec' fuel traced reflected typeId path depth := by
  induction fuel generalizing traced reflected typeId path depth with
  | zero => rfl
  | succ fuel ih =>
    have hinner : ∀ shape, codec.schema.shape typeId = .ok shape →
        decodeInner texts codec (decodeAny texts codec fuel) traced typeId path depth reflected =
          decodeInner texts codec' (decodeAny texts codec' fuel) traced typeId path depth
            reflected := by
      intro shape hshape
      apply decodeInner_congr hschema (hlayouts typeId hreaches) hshape
      constructor
      · exact fun element helement traced reflected =>
          ih traced reflected (hreaches.element hshape helement)
      · exact fun member hmember traced reflected =>
          ih traced reflected (hreaches.member hshape hmember)
    apply Decoder.bind_congr
    intro _ startBit _ _
    rw [← hschema]
    apply Decoder.bind_congr
    intro _ shape _ hlookup
    rw [hinner shape (Decoder.ofExcept_done.1 hlookup).1]

end Superiority.Bsn
