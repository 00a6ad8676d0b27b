import Mathlib.Tactic

/-!
# JSON as the ingest Worker sees it

The values `JSON.parse` gives, with JavaScript's notions of length: a string is measured in UTF-16
code units and a value by the length of what `JSON.stringify` makes of it. Strings are lists of
Unicode scalar values, as everything the client serialises is.
-/

namespace Superiority

/-- A number: an integer, or any other number by the text `JSON.stringify` gives it. -/
inductive JsNumber where
  | int (value : Int)
  | other (text : String)
  deriving DecidableEq, Repr

inductive Js where
  | null
  | bool (value : Bool)
  | num (value : JsNumber)
  | str (value : String)
  | arr (items : List Js)
  | obj (fields : List (String × Js))

namespace Js

/-- A property of an object; `none` is JavaScript's `undefined`. -/
def get? (value : Js) (name : String) : Option Js :=
  match value with
  | obj fields => fields.lookup name
  | _ => none

def isRecord : Js → Bool
  | obj _ => true
  | _ => false

def ofNat (n : Nat) : Js := num (.int n)

end Js

/-! ## Lengths -/

/-- The code units of a character. -/
def utf16Units (c : Char) : Nat := if c.toNat < 0x10000 then 1 else 2

/-- `value.length` of a JavaScript string. -/
def utf16Length (s : String) : Nat := (s.toList.map utf16Units).sum

/-- The code units `JSON.stringify` spends on a character. -/
def escapedUnits (c : Char) : Nat :=
  if c = '"' ∨ c = '\\' then 2
  else if c.toNat ∈ [0x8, 0x9, 0xa, 0xc, 0xd] then 2
  else if c.toNat < 0x20 then 6
  else utf16Units c

def stringifiedString (s : String) : Nat := 2 + (s.toList.map escapedUnits).sum

def stringifiedNumber : JsNumber → Nat
  | .int value => (toString value).length
  | .other text => text.length

mutual

/-- `JSON.stringify(value).length`. -/
def stringifiedLength : Js → Nat
  | .null => 4
  | .bool true => 4
  | .bool false => 5
  | .num n => stringifiedNumber n
  | .str s => stringifiedString s
  | .arr items => 2 + stringifiedItems items + (items.length - 1)
  | .obj fields => 2 + stringifiedFields fields + (fields.length - 1)

def stringifiedItems : List Js → Nat
  | [] => 0
  | item :: items => stringifiedLength item + stringifiedItems items

def stringifiedFields : List (String × Js) → Nat
  | [] => 0
  | (name, value) :: fields =>
    stringifiedString name + 1 + stringifiedLength value + stringifiedFields fields

end

/-! ## The checks of `events.ts` -/

/-- `Number.MAX_SAFE_INTEGER`. -/
def maxSafeInteger : Nat := 9007199254740991

/-- `isString`: the string, when it is one of at most that many code units. -/
def asString (value : Option Js) (maxLength : Nat) : Option String :=
  match value with
  | some (.str s) => if utf16Length s ≤ maxLength then some s else none
  | _ => none

/-- `isNonEmptyString`. -/
def asNonEmptyString (value : Option Js) (maxLength : Nat) : Option String :=
  match value with
  | some (.str s) => if 1 ≤ utf16Length s ∧ utf16Length s ≤ maxLength then some s else none
  | _ => none

/-- `isNonNegativeInt`. -/
def asNonNegativeInt (value : Option Js) : Option Nat :=
  match value with
  | some (.num (.int n)) =>
    if 0 ≤ n ∧ n ≤ maxSafeInteger then some n.toNat else none
  | _ => none

/-- `isPositiveInt`. -/
def asPositiveInt (value : Option Js) : Option Nat :=
  match value with
  | some (.num (.int n)) =>
    if 0 < n ∧ n ≤ maxSafeInteger then some n.toNat else none
  | _ => none

/-- `typeof value === "boolean"`. -/
def asBool (value : Option Js) : Option Bool :=
  match value with
  | some (.bool b) => some b
  | _ => none

@[simp] theorem asNonNegativeInt_ofNat {n : Nat} (h : n ≤ maxSafeInteger) :
    asNonNegativeInt (some (Js.ofNat n)) = some n := by
  have hn : (n : Int) ≤ maxSafeInteger := by exact_mod_cast h
  simp [asNonNegativeInt, Js.ofNat, hn]

@[simp] theorem asPositiveInt_ofNat {n : Nat} (hpos : 0 < n) (h : n ≤ maxSafeInteger) :
    asPositiveInt (some (Js.ofNat n)) = some n := by
  have hn : (n : Int) ≤ maxSafeInteger := by exact_mod_cast h
  simp [asPositiveInt, Js.ofNat, hn, hpos]

theorem asString_str {s : String} {maxLength : Nat} (h : utf16Length s ≤ maxLength) :
    asString (some (.str s)) maxLength = some s := by
  simp [asString, h]

end Superiority
