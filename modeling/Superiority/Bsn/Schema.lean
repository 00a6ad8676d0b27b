import Superiority.Error
import Superiority.Text

/-!
# Schemas

`metadata/mod.rs`, as far as the codec uses it: what a type id stands for. A schema comes from the
metadata block of the game or from a generated table, which is not modelled; both answer the same
three questions, and both give a struct or a choice one type and one name for each index and every
other type no member types.
-/

namespace Superiority.Bsn

inductive TypeKind where
  | array | byteString | bitArray | blob | bool | choice | enum | fourCc
  | integer | void | optional | float32 | float64 | struct | string | alias
  deriving DecidableEq, Repr

/-- The name `{:?}` prints. -/
def TypeKind.debug : TypeKind → String
  | .array => "Array"
  | .byteString => "ByteString"
  | .bitArray => "BitArray"
  | .blob => "Blob"
  | .bool => "Bool"
  | .choice => "Choice"
  | .enum => "Enum"
  | .fourCc => "FourCc"
  | .integer => "Integer"
  | .void => "Void"
  | .optional => "Optional"
  | .float32 => "Float32"
  | .float64 => "Float64"
  | .struct => "Struct"
  | .string => "String"
  | .alias => "Alias"

/-- `type_kind_name`. -/
def typeKindName : TypeKind → String
  | .array => "array"
  | .byteString => "byte string"
  | .bitArray => "bit array"
  | .blob => "blob"
  | .bool => "bool"
  | .choice => "choice"
  | .enum => "enum"
  | .fourCc => "fourcc"
  | .integer => "integer"
  | .void => "void"
  | .optional => "optional"
  | .float32 => "float32"
  | .float64 => "float64"
  | .struct => "struct"
  | .string => "string"
  | .alias => "alias"

/-- `IntegerRange`. Without a bit width only the minimum is in range. -/
structure IntegerRange where
  bitWidth : Option Nat
  minimum : Int
  maximum : Int
  deriving DecidableEq, Repr

/-- A kind of type that has members. -/
def TypeKind.hasMembers : TypeKind → Bool
  | .choice | .struct => true
  | _ => false

structure TypeShape where
  kind : TypeKind
  obfuscated : Bool
  valueRange : Option IntegerRange
  elementType : Option UInt32
  indexValues : List Int
  memberTypes : List UInt32
  memberNames : List (Option String)
  names_length : memberNames.length = indexValues.length := by decide
  types_length : memberTypes.length = if kind.hasMembers then indexValues.length else 0 := by
    decide

theorem TypeShape.no_names : ([] : List (Option String)).length = ([] : List Int).length := rfl

theorem TypeShape.no_types (kind : TypeKind) :
    ([] : List UInt32).length = if kind.hasMembers then ([] : List Int).length else 0 := by
  cases kind <;> rfl

/-- A member of a struct or of a choice. -/
structure Member where
  index : Int
  type : UInt32
  name : Option String
  deriving DecidableEq, Repr

/-- The parallel lists of a shape, read position by position. -/
def TypeShape.members (shape : TypeShape) : List Member :=
  (shape.indexValues.zip (shape.memberTypes.zip shape.memberNames)).map fun entry =>
    ⟨entry.1, entry.2.1, entry.2.2⟩

/-- No position that has a member type is left out. -/
theorem TypeShape.length_members (shape : TypeShape) :
    shape.members.length = shape.memberTypes.length := by
  have hnames := shape.names_length
  have htypes := shape.types_length
  simp only [members, List.length_map, List.length_zip]
  split at htypes <;> omega

/-- The name of a member in a path: its own, or its index. -/
def Member.label (member : Member) : String := member.name.getD s!"#{member.index}"

/-- `Schema`: the ids it knows, the name of a type and its shape, or why there is none. -/
structure Schema where
  knownTypeIds : List UInt32
  name : UInt32 → Except String (Option String)
  lookup : UInt32 → Except String TypeShape

namespace Schema

def shape (schema : Schema) (typeId : UInt32) : Except Error TypeShape :=
  (schema.lookup typeId).mapError .metadata

/-- `type_metadata(type_id).ok().and_then(|metadata| metadata.name)`. -/
def knownName (schema : Schema) (typeId : UInt32) : Option String :=
  match schema.name typeId with
  | .ok name => name
  | .error _ => none

/-- `type_name` of the codec. -/
def typeName (schema : Schema) (typeId : UInt32) : String :=
  (schema.knownName typeId).getD "unnamed"

/-- `find` for an exact name. -/
def find (schema : Schema) (query : String) : Except Error (List UInt32) :=
  go schema.knownTypeIds
where
  go : List UInt32 → Except Error (List UInt32)
    | [] => .ok []
    | typeId :: typeIds => do
      let name ← (schema.name typeId).mapError .metadata
      let found ← go typeIds
      if name.any (eqIgnoreAsciiCase · query) then return typeId :: found else return found

def uniqueTypeId (schema : Schema) (exactName : String) : Except Error UInt32 := do
  match ← schema.find exactName with
  | [typeId] => .ok typeId
  | found => .error (.metadata
      s!"expected one native type named \"{exactName}\", found {found.length}")

end Schema

end Superiority.Bsn
