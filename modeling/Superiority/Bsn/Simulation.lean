import Superiority.Bsn.Codec

/-!
# What a trace and a bound on the recursion change

Decoding with a trace goes through the buffer as decoding without one does, ends at the same place
and gives the same value or the same error; and so does decoding with more fuel, once it ends.

**`simulates_decodeAny`** says both in one induction over the fuel: two runs of the codec on one
type, the second with at least as much fuel, agree wherever the first ends, and when both trace or
neither does, their entries agree as well.
-/

namespace Superiority.Bsn

open Reading

/-- The same value, and the same entries if both are traced alike. -/
def Alike (traced traced' : Bool) {α : Type} (a b : α × List DecodedField) : Prop :=
  a.1 = b.1 ∧ (traced = traced' → a.2 = b.2)

/-- The second recursive call goes the way of the first. -/
def SimulatesRecur (recur recur' : Recur) : Prop :=
  ∀ traced traced' reflected typeId path depth, Simulates (Alike traced traced')
    (recur traced reflected typeId path depth) (recur' traced' reflected typeId path depth)

variable {traced traced' : Bool}

theorem Alike.refl {α : Type} (a : α) (fields : List DecodedField) :
    Alike traced traced' (a, fields) (a, fields) := ⟨rfl, fun _ => rfl⟩

/-! ## Lists -/

theorem simulates_decodeElements {decode decode' : Nat → Reading Decoded}
    (hdecode : ∀ index, Simulates (Alike traced traced') (decode index) (decode' index))
    (index count : Nat) :
    Simulates (Alike traced traced') (decodeElements decode index count)
      (decodeElements decode' index count) := by
  induction count generalizing index with
  | zero => exact Simulates.pure (Alike.refl _ _)
  | succ count ih =>
    apply Simulates.bind ((hdecode index).mapError _)
    rintro ⟨value, fields⟩ ⟨_, fields'⟩ ⟨rfl, hfields⟩
    apply (ih (index + 1)).bind
    rintro ⟨values, rest⟩ ⟨_, rest'⟩ ⟨rfl, hrest⟩
    refine Simulates.pure ⟨rfl, fun h => ?_⟩
    exact congrArg₂ (· ++ ·) (hfields h) (hrest h)

theorem simulates_decodeMembers {decode decode' : Member → Reading Decoded} {typeText : String}
    (hdecode : ∀ member, Simulates (Alike traced traced') (decode member) (decode' member))
    (members : List Member) :
    Simulates (Alike traced traced') (decodeMembers decode typeText members)
      (decodeMembers decode' typeText members) := by
  induction members with
  | nil => exact Simulates.pure (Alike.refl _ _)
  | cons member members ih =>
    apply Simulates.bind ((hdecode member).mapError _)
    rintro ⟨value, fields⟩ ⟨_, fields'⟩ ⟨rfl, hfields⟩
    apply ih.bind
    rintro ⟨values, rest⟩ ⟨_, rest'⟩ ⟨rfl, hrest⟩
    refine Simulates.pure ⟨rfl, fun h => ?_⟩
    exact congrArg₂ (· ++ ·) (hfields h) (hrest h)

theorem simulates_readFiller (width : Nat) (label path : String) (depth : Nat) :
    Simulates (fun a b => traced = traced' → a = b) (readFiller traced width label path depth)
      (readFiller traced' width label path depth) := by
  unfold readFiller
  split_ifs with hwidth
  · exact Simulates.pure fun _ => rfl
  · apply (Simulates.refl _).bind_eq
    intro startBit
    apply (Simulates.refl _).bind_eq
    intro _
    apply (Simulates.refl _).bind_eq
    intro endBit
    refine Simulates.pure fun h => ?_
    rw [h]

theorem simulates_decodeLayoutFields {decode decode' : Member → Reading Decoded}
    {members : List Member} {path : String} {depth : Nat}
    (hdecode : ∀ member, Simulates (Alike traced traced') (decode member) (decode' member))
    (entries : List WireField) :
    Simulates (Alike traced traced') (decodeLayoutFields decode traced members path depth entries)
      (decodeLayoutFields decode' traced' members path depth entries) := by
  induction entries with
  | nil => exact Simulates.pure (Alike.refl _ _)
  | cons entry entries ih =>
    rw [decodeLayoutFields, decodeLayoutFields]
    cases members[entry.logicalField]? with
    | none => exact Simulates.fail _
    | some member =>
      apply (simulates_readFiller _ _ _ _).bind
      intro filler filler' hfiller
      apply (hdecode member).bind
      rintro ⟨value, fields⟩ ⟨_, fields'⟩ ⟨rfl, hfields⟩
      apply ih.bind
      rintro ⟨values, rest⟩ ⟨_, rest'⟩ ⟨rfl, hrest⟩
      refine Simulates.pure ⟨rfl, fun h => ?_⟩
      exact congrArg₂ (· ++ ·) (congrArg₂ (· ++ ·) (hfiller h) (hfields h)) (hrest h)

/-! ## The routines of the custom layouts -/

section custom

open Native.WireLayout

variable {texts : TraceTexts} {schema : Schema} {rootType : UInt32}

/-- What a club routine makes of the values it has read. -/
def clubResult (texts : TraceTexts) (schema : Schema) (rootType : UInt32) (traced : Bool)
    (path : String) (depth : Nat) (values : ClubValues) : Except Error Decoded := do
  let shape ← schema.shape rootType
  let value ← buildStruct schema rootType values.fields
  return (value, if traced then clubTrace texts shape values path depth else [])

/-- What the category routine makes of the values it has read. -/
def categoryResult (schema : Schema) (rootType : UInt32) (traced : Bool) (path : String)
    (depth : Nat) (values : CategoryValues) : Except Error Decoded := do
  let value ← buildCategoryDescription schema rootType values
  return (value, if traced then categoryTrace values path depth else [])

theorem decodeClub_eq (x : Reading ClubValues) (path : String) (depth : Nat) :
    (do let value ← decodeClub schema rootType x
        return (value, [])) =
      x >>= fun values =>
        Decoder.ofExcept (clubResult texts schema rootType false path depth values) := by
  rw [decodeClub, Decoder.bind_assoc]
  congr 1
  funext values
  unfold clubResult
  cases hshape : schema.shape rootType with
  | error e =>
    have hbuild : buildStruct schema rootType values.fields = .error e := by
      rw [buildStruct, hshape]
      rfl
    rw [hbuild]
    rfl
  | ok shape => cases buildStruct schema rootType values.fields <;> rfl

theorem decodeClubTraced_eq (x : Reading ClubValues) (path : String) (depth : Nat) :
    decodeClubTraced texts schema rootType x path depth =
      x >>= fun values =>
        Decoder.ofExcept (clubResult texts schema rootType true path depth values) := by
  unfold decodeClubTraced
  congr 1
  funext values
  unfold clubResult
  cases schema.shape rootType with
  | error e => rfl
  | ok shape => cases buildStruct schema rootType values.fields <;> rfl

theorem decodeCategory_eq (path : String) (depth : Nat) :
    (do let value ← decodeCategoryDescription schema rootType
        return (value, [])) =
      readCategoryDescription >>= fun values =>
        Decoder.ofExcept (categoryResult schema rootType false path depth values) := by
  rw [decodeCategoryDescription, Decoder.bind_assoc]
  congr 1
  funext values
  unfold categoryResult
  cases buildCategoryDescription schema rootType values <;> rfl

theorem decodeCategoryTraced_eq (path : String) (depth : Nat) :
    decodeCategoryDescriptionTraced schema rootType path depth =
      readCategoryDescription >>= fun values =>
        Decoder.ofExcept (categoryResult schema rootType true path depth values) := by
  unfold decodeCategoryDescriptionTraced
  congr 1
  funext values
  unfold categoryResult
  cases buildCategoryDescription schema rootType values <;> rfl

theorem alike_clubResult (path : String) (depth : Nat) (values : ClubValues) :
    Simulates (Alike traced traced')
      (Decoder.ofExcept (clubResult texts schema rootType traced path depth values) :
        Reading Decoded)
      (Decoder.ofExcept (clubResult texts schema rootType traced' path depth values)) := by
  unfold clubResult
  cases schema.shape rootType with
  | error e => exact Simulates.fail e
  | ok shape =>
    cases buildStruct schema rootType values.fields with
    | error e => exact Simulates.fail e
    | ok value => exact Simulates.pure ⟨rfl, fun h => by rw [h]⟩

theorem alike_categoryResult (path : String) (depth : Nat) (values : CategoryValues) :
    Simulates (Alike traced traced')
      (Decoder.ofExcept (categoryResult schema rootType traced path depth values) :
        Reading Decoded)
      (Decoder.ofExcept (categoryResult schema rootType traced' path depth values)) := by
  unfold categoryResult
  cases buildCategoryDescription schema rootType values with
  | error e => exact Simulates.fail e
  | ok value => exact Simulates.pure ⟨rfl, fun h => by rw [h]⟩

variable {decodeFrom decodeFrom' : UInt32 → Reading BsnValue}

theorem simulates_spanned {x y : Reading BsnValue} (hxy : Simulates Eq x y) (position : Nat) :
    Simulates Eq (spanned position x) (spanned position y) :=
  (Simulates.refl _).bind_eq fun _ => hxy.bind_eq fun _ => Simulates.refl _

theorem simulates_readClubField
    (hdecode : ∀ typeId, Simulates Eq (decodeFrom typeId) (decodeFrom' typeId)) (position : Nat) :
    Simulates Eq (readClubField schema decodeFrom rootType position)
      (readClubField schema decodeFrom' rootType position) := by
  apply (Simulates.refl _).bind_eq
  intro shape
  cases shape.memberTypes[position]? with
  | none => exact Simulates.fail _
  | some memberType => exact simulates_spanned (hdecode memberType) position

theorem simulates_readClubFields
    (hdecode : ∀ typeId, Simulates Eq (decodeFrom typeId) (decodeFrom' typeId))
    (positions : List Nat) :
    Simulates Eq (readClubFields schema decodeFrom rootType positions)
      (readClubFields schema decodeFrom' rootType positions) := by
  induction positions with
  | nil => exact Simulates.refl _
  | cons position positions ih =>
    exact (simulates_readClubField hdecode position).bind_eq fun _ =>
      ih.bind_eq fun _ => Simulates.refl _

theorem simulates_readClubSummaryInfo
    (hdecode : ∀ typeId, Simulates Eq (decodeFrom typeId) (decodeFrom' typeId)) :
    Simulates Eq (readClubSummaryInfo schema decodeFrom rootType)
      (readClubSummaryInfo schema decodeFrom' rootType) :=
  (Simulates.refl _).bind_eq fun _ => (simulates_readClubFields hdecode _).bind_eq fun _ =>
    (Simulates.refl _).bind_eq fun _ => (Simulates.refl _).bind_eq fun _ =>
    (simulates_readClubFields hdecode _).bind_eq fun _ => (Simulates.refl _).bind_eq fun _ =>
    (Simulates.refl _).bind_eq fun _ => (simulates_readClubField hdecode 8).bind_eq fun _ =>
    Simulates.refl _

theorem simulates_readClubUserText
    (hdecode : ∀ typeId, Simulates Eq (decodeFrom typeId) (decodeFrom' typeId)) :
    Simulates Eq (readClubUserText schema decodeFrom rootType)
      (readClubUserText schema decodeFrom' rootType) :=
  (Simulates.refl _).bind_eq fun _ => (simulates_readClubFields hdecode _).bind_eq fun _ =>
    (Simulates.refl _).bind_eq fun _ => (simulates_readClubField hdecode 1).bind_eq fun _ =>
    Simulates.refl _

end custom

/-- A custom layout reads the values of its fields and makes a value of them, and the entries if
it is traced. -/
theorem decodeCustom_eq (texts : TraceTexts) (codec : Codec) (recur : Recur) (traced : Bool)
    (typeId : UInt32) (path : String) (depth : Nat) (layout : CustomLayout) :
    decodeCustom texts codec recur traced typeId path depth layout =
      let decodeFrom := fun member => Prod.fst <$> recur false false member "value" 0
      match layout with
      | .clubSummaryInfo =>
        Native.WireLayout.readClubSummaryInfo codec.schema decodeFrom typeId >>= fun values =>
          Decoder.ofExcept (clubResult texts codec.schema typeId traced path depth values)
      | .clubUserText =>
        Native.WireLayout.readClubUserText codec.schema decodeFrom typeId >>= fun values =>
          Decoder.ofExcept (clubResult texts codec.schema typeId traced path depth values)
      | .categoryDescription =>
        Native.WireLayout.readCategoryDescription >>= fun values =>
          Decoder.ofExcept (categoryResult codec.schema typeId traced path depth values) := by
  cases traced with
  | false =>
    cases layout with
    | clubSummaryInfo => exact decodeClub_eq _ _ _
    | clubUserText => exact decodeClub_eq _ _ _
    | categoryDescription => exact decodeCategory_eq _ _
  | true =>
    cases layout with
    | clubSummaryInfo => exact decodeClubTraced_eq _ _ _
    | clubUserText => exact decodeClubTraced_eq _ _ _
    | categoryDescription => exact decodeCategoryTraced_eq _ _

/-! ## One type -/

section inner

variable {texts : TraceTexts} {codec : Codec} {recur recur' : Recur}

theorem simulates_decodeCustom (hrecur : SimulatesRecur recur recur') (typeId : UInt32)
    (path : String) (depth : Nat) (layout : CustomLayout) :
    Simulates (Alike traced traced') (decodeCustom texts codec recur traced typeId path depth layout)
      (decodeCustom texts codec recur' traced' typeId path depth layout) := by
  have hdecode : ∀ member, Simulates Eq (Prod.fst <$> recur false false member "value" 0)
      (Prod.fst <$> recur' false false member "value" 0) := by
    intro member
    apply (hrecur _ _ _ _ _ _).bind
    rintro a b ⟨h, -⟩
    exact Simulates.pure h
  rw [decodeCustom_eq, decodeCustom_eq]
  cases layout with
  | clubSummaryInfo =>
    exact (simulates_readClubSummaryInfo hdecode).bind_eq fun values => alike_clubResult _ _ values
  | clubUserText =>
    exact (simulates_readClubUserText hdecode).bind_eq fun values => alike_clubResult _ _ values
  | categoryDescription =>
    exact (Simulates.refl _).bind_eq fun values => alike_categoryResult _ _ values

/-- A reading without entries, followed by what needs no reading. -/
theorem simulates_plain {α : Type} (x : Reading α) (f : α → BsnValue) :
    Simulates (Alike traced traced') (x >>= fun a => pure (f a, []))
      (x >>= fun a => pure (f a, [])) :=
  (Simulates.refl x).bind_eq fun _ => Simulates.pure (Alike.refl _ _)

/-- The recursive call, with its value wrapped up. -/
theorem simulates_wrapped {x y : Reading Decoded} (hxy : Simulates (Alike traced traced') x y)
    (f : BsnValue → BsnValue) (g : BsnValue → List DecodedField → List DecodedField) :
    Simulates (Alike traced traced') (x >>= fun a => pure (f a.1, g a.1 a.2))
      (y >>= fun a => pure (f a.1, g a.1 a.2)) := by
  apply hxy.bind
  rintro ⟨value, fields⟩ ⟨_, fields'⟩ ⟨rfl, hfields⟩
  exact Simulates.pure ⟨rfl, fun h => congrArg (g value) (hfields h)⟩

theorem simulates_decodeReflected (hrecur : SimulatesRecur recur recur') (typeId : UInt32)
    (path : String) (depth : Nat) (shape : TypeShape) (reflected : Bool) :
    Simulates (Alike traced traced')
      (decodeReflected texts codec recur traced typeId path depth shape reflected)
      (decodeReflected texts codec recur' traced' typeId path depth shape reflected) := by
  unfold decodeReflected
  cases shape.kind with
  | «alias» =>
    exact (Simulates.refl _).bind_eq fun element =>
      simulates_wrapped (hrecur _ _ _ _ _ _) id (rewordError texts codec.schema typeId path)
  | void => exact Simulates.pure (Alike.refl _ _)
  | bool => exact simulates_plain _ _
  | integer => exact (Simulates.refl _).bind_eq fun _ => simulates_plain _ _
  | enum => exact (Simulates.refl _).bind_eq fun _ => simulates_plain _ _
  | fourCc => exact simulates_plain _ _
  | float32 => exact simulates_plain _ _
  | float64 => exact simulates_plain _ _
  | byteString =>
    exact (Simulates.refl _).bind_eq fun _ => (Simulates.refl _).bind_eq fun _ =>
      simulates_plain _ _
  | blob =>
    exact (Simulates.refl _).bind_eq fun _ => (Simulates.refl _).bind_eq fun _ =>
      simulates_plain _ _
  | string =>
    exact (Simulates.refl _).bind_eq fun _ => (Simulates.refl _).bind_eq fun _ =>
      simulates_plain _ _
  | bitArray =>
    exact (Simulates.refl _).bind_eq fun _ => (Simulates.refl _).bind_eq fun _ =>
      simulates_plain _ _
  | array =>
    refine (Simulates.refl _).bind_eq fun _ => (Simulates.refl _).bind_eq fun length =>
      (Simulates.refl _).bind_eq fun element => ?_
    apply (simulates_decodeElements (fun _ => hrecur _ _ _ _ _ _) 0 length).bind
    rintro ⟨values, fields⟩ ⟨_, fields'⟩ ⟨rfl, hfields⟩
    exact Simulates.pure ⟨rfl, hfields⟩
  | optional =>
    refine (Simulates.refl _).bind_eq fun present => ?_
    split_ifs with hpresent
    · exact Simulates.pure (Alike.refl _ _)
    · exact (Simulates.refl _).bind_eq fun element =>
        simulates_wrapped (hrecur _ _ _ _ _ _) (fun value => .optional (some value))
          (fun _ fields => fields)
  | choice =>
    refine (Simulates.refl _).bind_eq fun range => (Simulates.refl _).bind_eq fun index => ?_
    cases shape.members.find? (·.index == index) with
    | none => exact Simulates.fail _
    | some member =>
      exact simulates_wrapped (hrecur _ _ _ _ _ _) (.choice index) (fun _ fields => fields)
  | struct =>
    apply (simulates_decodeMembers (fun _ => hrecur _ _ _ _ _ _) shape.members).bind
    rintro ⟨values, fields⟩ ⟨_, fields'⟩ ⟨rfl, hfields⟩
    exact Simulates.pure ⟨rfl, hfields⟩

theorem simulates_decodeStructLayout (hrecur : SimulatesRecur recur recur') (typeId : UInt32)
    (path : String) (depth : Nat) (shape : TypeShape) (layout : StructWireLayout) :
    Simulates (Alike traced traced')
      (decodeStructLayout recur traced typeId path depth shape layout)
      (decodeStructLayout recur' traced' typeId path depth shape layout) := by
  apply (simulates_decodeLayoutFields (fun _ => hrecur _ _ _ _ _ _) layout.fields).bind
  rintro ⟨values, fields⟩ ⟨_, fields'⟩ ⟨rfl, hfields⟩
  exact (Simulates.refl _).bind_eq fun _ => Simulates.pure ⟨rfl, hfields⟩

theorem simulates_decodeInner (hrecur : SimulatesRecur recur recur') (typeId : UInt32)
    (path : String) (depth : Nat) (reflected : Bool) :
    Simulates (Alike traced traced')
      (decodeInner texts codec recur traced typeId path depth reflected)
      (decodeInner texts codec recur' traced' typeId path depth reflected) := by
  refine (Simulates.refl _).bind_eq fun shape => ?_
  split
  · exact simulates_decodeStructLayout hrecur _ _ _ _ _
  · exact simulates_decodeStructLayout hrecur _ _ _ _ _
  · exact simulates_decodeCustom hrecur _ _ _ _
  · exact (Simulates.refl _).bind_eq fun _ => simulates_decodeReflected hrecur _ _ _ _ _

theorem simulates_decodeScoped (hrecur : SimulatesRecur recur recur') :
    SimulatesRecur (decodeScoped texts codec recur) (decodeScoped texts codec recur') := by
  intro traced traced' reflected typeId path depth
  refine (Simulates.refl _).bind_eq fun startBit => (Simulates.refl _).bind_eq fun shape => ?_
  apply ((simulates_decodeInner hrecur _ _ _ _).mapError _).bind
  rintro ⟨value, fields⟩ ⟨_, fields'⟩ ⟨rfl, hfields⟩
  refine (Simulates.refl _).bind_eq fun endBit => Simulates.pure ⟨rfl, fun h => ?_⟩
  have hsame : fields = fields' := hfields h
  rw [hsame, h]

end inner

/-- **A trace and more fuel change nothing** that a decoding has ended with. -/
theorem simulates_decodeAny (texts : TraceTexts) (codec : Codec) {fuel fuel' : Nat}
    (hfuel : fuel ≤ fuel') :
    SimulatesRecur (decodeAny texts codec fuel) (decodeAny texts codec fuel') := by
  induction fuel generalizing fuel' with
  | zero => exact fun _ _ _ _ _ _ => Simulates.stuck _
  | succ fuel ih =>
    obtain ⟨fuel', rfl⟩ := Nat.exists_eq_add_of_lt hfuel
    exact simulates_decodeScoped (ih (Nat.le_add_right fuel fuel'))

end Superiority.Bsn
