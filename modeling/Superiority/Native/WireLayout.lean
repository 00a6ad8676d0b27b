import Superiority.Bsn.Layout
import Superiority.Bsn.Reading
import Superiority.Bsn.Value

/-!
# The wire layouts of the native protocol

`native/wire_layout.rs`: the layouts `register` installs, and the three routines that read a type by
hand. A routine reads the values of its fields, with their places, and puts them in the order of the
schema afterwards; the traced variant also reports the places. Some of the bits it reads belong to
no field.

The routines call the codec back for the fields whose types are reflected; here that is the
parameter `decodeFrom`.
-/

namespace Superiority.Native.WireLayout

open Bsn Reading

/-! ## Reading the fields -/

/-- A field that was read: its position in the schema, its value, and where it was. -/
structure ReadField where
  position : Nat
  value : BsnValue
  startBit : Nat
  endBit : Nat

/-- `ClubSummaryValues`. -/
structure ClubValues where
  startBit : Nat
  endBit : Nat
  fields : List ReadField

/-- The value of a reading, with its place. -/
def spanned (position : Nat) (x : Reading BsnValue) : Reading ReadField := do
  let startBit ← Tape.place
  let value ← x
  let endBit ← Tape.place
  return { position, value, startBit, endBit }

def readGeneratedString (countWidth maximum : Nat) : Reading String := do
  let length ← read countWidth
  if length > maximum then
    Decoder.fail (.bsnWire s!"generated string length {length} exceeds {maximum}")
  else do
    let bytes ← readBytes length true
    return fromUtf8Lossy bytes

section club

variable (schema : Schema) (decodeFrom : UInt32 → Reading BsnValue) (rootType : UInt32)

def readClubField (position : Nat) : Reading ReadField := do
  let shape ← Decoder.ofExcept (schema.shape rootType)
  match shape.memberTypes[position]? with
  | none => Decoder.fail (.bsnWire s!"club summary metadata omits field {position}")
  | some memberType => spanned position (decodeFrom memberType)

def readClubFields : List Nat → Reading (List ReadField)
  | [] => return []
  | position :: positions => do
    let field ← readClubField schema decodeFrom rootType position
    let fields ← readClubFields positions
    return field :: fields

/-- The clan tag of a club summary. -/
def readTag : Reading BsnValue := do
  let present ← read 1
  if present = 0 then return .optional none
  else do
    let tag ← readGeneratedString 5 24
    return .optional (some (.string tag))

def readClubSummaryInfo : Reading ClubValues := do
  let startBit ← Tape.place
  let fields ← readClubFields schema decodeFrom rootType [6, 10, 0, 5]
  let name ← spanned 2 (BsnValue.string <$> readGeneratedString 8 32)
  let _ ← read 6
  let fields' ← readClubFields schema decodeFrom rootType [9, 7, 4, 1, 11]
  let tag ← spanned 3 readTag
  let _ ← read 25
  let last ← readClubField schema decodeFrom rootType 8
  let endBit ← Tape.place
  return { startBit, endBit, fields := fields ++ name :: fields' ++ [tag, last] }

def readClubUserText : Reading ClubValues := do
  let startBit ← Tape.place
  let fields ← readClubFields schema decodeFrom rootType [0, 3]
  let text ← spanned 2 (BsnValue.string <$> readGeneratedString 13 4096)
  let last ← readClubField schema decodeFrom rootType 1
  let endBit ← Tape.place
  return { startBit, endBit, fields := fields ++ [text, last] }

end club

/-- `build_struct`: the fields in the order of the schema. -/
def buildStruct (schema : Schema) (rootType : UInt32) (values : List ReadField) :
    Except Error BsnValue := do
  let shape ← schema.shape rootType
  let fields ← shape.members.zipIdx.mapM fun (member, position) =>
    match values.reverse.find? (·.position == position) with
    | none => Except.error (Error.bsnWire s!"generated layout omits field {position}")
    | some field => .ok (BsnField.mk member.index member.name field.value)
  return .struct rootType fields

/-- A club routine without a trace. -/
def decodeClub (schema : Schema) (rootType : UInt32) (readValues : Reading ClubValues) :
    Reading BsnValue := do
  let values ← readValues
  Decoder.ofExcept (buildStruct schema rootType values.fields)

/-- The entries of a club routine: one for the whole, then one for each field. -/
def clubTrace (texts : TraceTexts) (shape : TypeShape) (values : ClubValues) (path : String)
    (depth : Nat) : List DecodedField :=
  { path, kind := "struct", value := s!"{values.fields.length} fields",
    startBit := values.startBit, endBit := values.endBit, depth } ::
  values.fields.map fun field =>
    let name := (shape.memberNames[field.position]?.getD none).getD "field"
    { path := s!"{path}.{name}", kind := "value", value := displayValue texts field.value,
      startBit := field.startBit, endBit := field.endBit, depth := depth + 1 }

/-- A club routine with its trace. -/
def decodeClubTraced (texts : TraceTexts) (schema : Schema) (rootType : UInt32)
    (readValues : Reading ClubValues) (path : String) (depth : Nat) :
    Reading (BsnValue × List DecodedField) := do
  let values ← readValues
  let shape ← Decoder.ofExcept (schema.shape rootType)
  let value ← Decoder.ofExcept (buildStruct schema rootType values.fields)
  return (value, clubTrace texts shape values path depth)

/-! ## Category descriptions -/

/-- `Spanned`. -/
structure Spanned where
  value : Nat
  startBit : Nat
  endBit : Nat

/-- `CategoryDescriptionValues`. -/
structure CategoryValues where
  startBit : Nat
  endBit : Nat
  name : Spanned
  generatedStartBit : Nat
  generatedEndBit : Nat
  id : Spanned
  sortOrder : Spanned

def readSpanned (width : Nat) : Reading Spanned := do
  let startBit ← Tape.place
  let value ← read width
  let endBit ← Tape.place
  return { value, startBit, endBit }

/-- As many 32-bit numbers as counted. -/
def skipWords : Nat → Reading Unit
  | 0 => return ()
  | count + 1 => do
    let _ ← read 32
    skipWords count

def readBoundedU32Array : Reading Unit := do
  let count ← read 3
  if count ≥ 5 then
    Decoder.fail (.bsnWire s!"generated category array count {count} exceeds four")
  else skipWords count

def readCategoryGeneratedState : Reading Unit := do
  let _ ← read 8
  let _ ← read 16
  readBoundedU32Array
  let _ ← read 32
  readBoundedU32Array
  let _ ← read 32
  return ()

/-- The variant behind its tag. -/
def readVariantBody (tag : Nat) : Reading Unit :=
  match tag with
  | 0 => do
    let length ← read 7
    if length ≥ 125 then
      Decoder.fail (.bsnWire s!"generated category string length {length} exceeds 124")
    else do
      let _ ← readBytes length true
      return ()
  | 2 => do
    let _ ← read 32
    let _ ← read 16
    return ()
  | 3 => do
    let _ ← read 16
    let _ ← read 32
    return ()
  | tag => Decoder.fail (.bsnWire s!"unsupported generated category variant {tag}")

def readCategoryGeneratedVariant : Reading Unit := do
  let _ ← read 16
  let _ ← read 29
  let tag ← read 2
  readVariantBody tag

def readCategoryDescription : Reading CategoryValues := do
  let startBit ← Tape.place
  let name ← readSpanned 32
  let generatedStartBit ← Tape.place
  readCategoryGeneratedState
  readCategoryGeneratedVariant
  let generatedEndBit ← Tape.place
  let id ← readSpanned 8
  let sortOrder ← readSpanned 16
  let endBit ← Tape.place
  return { startBit, endBit, name, generatedStartBit, generatedEndBit, id, sortOrder }

def buildCategoryDescription (schema : Schema) (rootType : UInt32) (values : CategoryValues) :
    Except Error BsnValue := do
  let shape ← schema.shape rootType
  let fields ← [("m_id", values.id.value), ("m_name", values.name.value),
      ("m_sortOrder", values.sortOrder.value)].mapM fun (name, value) =>
    match (shape.memberNames.zip shape.indexValues).find? (·.1 == some name) with
    | none => Except.error (Error.bsnWire s!"category metadata omits field {name}")
    | some (memberName, index) => .ok (BsnField.mk index memberName (.integer value))
  return .struct rootType fields

def decodeCategoryDescription (schema : Schema) (rootType : UInt32) : Reading BsnValue := do
  let values ← readCategoryDescription
  Decoder.ofExcept (buildCategoryDescription schema rootType values)

def tracedInteger (path kind : String) (value : Spanned) (depth : Nat) : DecodedField where
  path := path
  kind := kind
  value := toString value.value
  startBit := value.startBit
  endBit := value.endBit
  depth := depth

def categoryTrace (values : CategoryValues) (path : String) (depth : Nat) : List DecodedField :=
  [{ path, kind := "struct", value := "3 fields", startBit := values.startBit,
      endBit := values.endBit, depth },
    tracedInteger s!"{path}.m_name" "uint32" values.name (depth + 1),
    { path := s!"{path}.generated", kind := "generated fields", value := "ignored",
      startBit := values.generatedStartBit, endBit := values.generatedEndBit, depth := depth + 1 },
    tracedInteger s!"{path}.m_id" "uint8" values.id (depth + 1),
    tracedInteger s!"{path}.m_sortOrder" "uint16" values.sortOrder (depth + 1)]

def decodeCategoryDescriptionTraced (schema : Schema) (rootType : UInt32) (path : String)
    (depth : Nat) : Reading (BsnValue × List DecodedField) := do
  let values ← readCategoryDescription
  let value ← Decoder.ofExcept (buildCategoryDescription schema rootType values)
  return (value, categoryTrace values path depth)

/-! ## The routines -/

/-- `WireLayout::decode`. -/
def decode (schema : Schema) (decodeFrom : UInt32 → Reading BsnValue) (layout : CustomLayout)
    (rootType : UInt32) : Reading BsnValue :=
  match layout with
  | .clubSummaryInfo => decodeClub schema rootType (readClubSummaryInfo schema decodeFrom rootType)
  | .clubUserText => decodeClub schema rootType (readClubUserText schema decodeFrom rootType)
  | .categoryDescription => decodeCategoryDescription schema rootType

/-- `WireLayout::decode_traced`. -/
def decodeTraced (texts : TraceTexts) (schema : Schema) (decodeFrom : UInt32 → Reading BsnValue)
    (layout : CustomLayout) (rootType : UInt32) (path : String) (depth : Nat) :
    Reading (BsnValue × List DecodedField) :=
  match layout with
  | .clubSummaryInfo => decodeClubTraced texts schema rootType
      (readClubSummaryInfo schema decodeFrom rootType) path depth
  | .clubUserText => decodeClubTraced texts schema rootType
      (readClubUserText schema decodeFrom rootType) path depth
  | .categoryDescription => decodeCategoryDescriptionTraced schema rootType path depth

end Superiority.Native.WireLayout
