import Superiority.Bsn.Schema

/-!
# Values and their trace

`bsn/value.rs`, and the entries with which `bsn/codec.rs` reports where in the stream a value was
found. A floating-point number is kept as its bits; how one is printed, and how a Battle.net error
is worded, is given by `TraceTexts`.
-/

namespace Superiority.Bsn

mutual

inductive BsnValue where
  | void
  | bool (value : Bool)
  | integer (value : Int)
  | fourCc (value : UInt32)
  | float32 (bits : UInt32)
  | float64 (bits : UInt64)
  | bytes (value : List UInt8)
  | string (value : String)
  | bitArray (data : List UInt8) (bitCount : Nat)
  | array (values : List BsnValue)
  | optional (value : Option BsnValue)
  | choice (index : Int) (value : BsnValue)
  | struct (typeId : UInt32) (fields : List BsnField)

inductive BsnField where
  | mk (index : Int) (name : Option String) (value : BsnValue)

end

/-- `BsnStruct`; a structure value holds its two parts. -/
structure BsnStruct where
  typeId : UInt32
  fields : List BsnField

def BsnField.name : BsnField → Option String
  | .mk _ name _ => name

def BsnField.value : BsnField → BsnValue
  | .mk _ _ value => value

/-- The first field of the name. -/
def BsnStruct.get (s : BsnStruct) (name : String) : Option BsnValue :=
  (s.fields.find? fun field => field.name = some name).map BsnField.value

def BsnValue.asStruct : BsnValue → Option BsnStruct
  | .struct typeId fields => some ⟨typeId, fields⟩
  | _ => none

structure DecodedField where
  path : String
  kind : String
  value : String
  startBit : Nat
  endBit : Nat
  depth : Nat
  deriving DecidableEq, Repr

/-- The texts the trace takes from elsewhere: `f32::to_string`, `f64::to_string` and
`errors::description`, which words an error by the messages installed for the locale. -/
structure TraceTexts where
  float32 : UInt32 → String
  float64 : UInt64 → String
  description : UInt16 → String

/-- `String::from_utf8_lossy(&value.to_be_bytes())`. -/
def fourCcText (value : UInt32) : String :=
  fromUtf8Lossy [(value >>> 24).toUInt8, (value >>> 16).toUInt8, (value >>> 8).toUInt8,
    value.toUInt8]

/-- `decoded_summary`. -/
def decodedSummary (texts : TraceTexts) : BsnValue → String
  | .void => "void"
  | .bool value => toString value
  | .integer value => toString value
  | .fourCc value => fourCcText value
  | .float32 bits => texts.float32 bits
  | .float64 bits => texts.float64 bits
  | .bytes value => s!"{value.length} bytes"
  | .string value => value
  | .bitArray _ bitCount => s!"{bitCount} bits"
  | .array values => s!"{values.length} items"
  | .optional (some _) => "present"
  | .optional none => "none"
  | .choice index _ => s!"variant {index}"
  | .struct typeId _ => s!"type #{typeId}"

/-- `display_value` of the custom layouts, which looks into an optional value. -/
def displayValue (texts : TraceTexts) : BsnValue → String
  | .void => "void"
  | .bool value => toString value
  | .integer value => toString value
  | .fourCc value => fourCcText value
  | .float32 bits => texts.float32 bits
  | .float64 bits => texts.float64 bits
  | .bytes value => s!"{value.length} bytes"
  | .string value => value
  | .bitArray _ bitCount => s!"{bitCount} bits"
  | .array values => s!"{values.length} items"
  | .optional (some value) => displayValue texts value
  | .optional none => "none"
  | .choice index _ => s!"variant {index}"
  | .struct _ fields => s!"{fields.length} fields"

end Superiority.Bsn
