/-!
# Strings of the standard library

The functions of Rust's `str` that the modelled code calls and Lean's `String` lacks.
-/

namespace Superiority

/-- `char::is_whitespace`: the Unicode `White_Space` property. -/
def isWhitespace (c : Char) : Bool :=
  let n := c.toNat
  (0x9 ≤ n && n ≤ 0xd) || n == 0x20 || n == 0x85 || n == 0xa0 || n == 0x1680
    || (0x2000 ≤ n && n ≤ 0x200a) || n == 0x2028 || n == 0x2029 || n == 0x202f || n == 0x205f
    || n == 0x3000

/-- `char::is_control`: the Unicode category `Cc`. -/
def isControl (c : Char) : Bool :=
  c.toNat < 0x20 || (0x7f ≤ c.toNat && c.toNat < 0xa0)

/-- `str::trim`. -/
def trim (s : String) : String :=
  let front := s.toList.dropWhile isWhitespace
  String.ofList (front.reverse.dropWhile isWhitespace).reverse

/-- `str::contains` of a string. -/
def containsStr (s pattern : String) : Bool :=
  go s.toList
where
  go : List Char → Bool
    | [] => pattern.toList.isEmpty
    | c :: cs => pattern.toList.isPrefixOf (c :: cs) || go cs

/-- `value.parse::<u64>()`, with the texts of `ParseIntError`. -/
def parseU64 (s : String) : Except String UInt64 :=
  match s.toList with
  | [] => .error "cannot parse integer from empty string"
  | ['+'] => .error "invalid digit found in string"
  | '+' :: digits => go 0 digits
  | digits => go 0 digits
where
  go (value : Nat) : List Char → Except String UInt64
    | [] => .ok (UInt64.ofNat value)
    | c :: cs =>
      if ! c.isDigit then .error "invalid digit found in string"
      else
        let value := 10 * value + (c.toNat - '0'.toNat)
        if value < 2 ^ 64 then go value cs else .error "number too large to fit in target type"

/-- `std::str::from_utf8(bytes).ok()`. -/
def fromUtf8 (bytes : List UInt8) : Option String :=
  String.fromUTF8? ⟨bytes.toArray⟩

/-- `str::eq_ignore_ascii_case`. -/
def eqIgnoreAsciiCase (s t : String) : Bool :=
  s.toList.map Char.toLower == t.toList.map Char.toLower

/-- A byte that continues a UTF-8 sequence. -/
def continuesUtf8 (b : UInt8) : Bool := 0x80 ≤ b && b ≤ 0xbf

/-- The character of a UTF-8 sequence, from the bits of its bytes. -/
def utf8Char (head : Nat) (tail : List UInt8) : Char :=
  Char.ofNat (tail.foldl (fun acc b => acc * 64 + b.toNat % 64) head)

/-- One chunk of `from_utf8_lossy`: a character, or U+FFFD for the longest start of a sequence that
is not finished, and how many bytes behind the first it takes. -/
def lossyChunk (b : UInt8) (rest : List UInt8) : Char × Nat :=
  let b1 := rest.getD 0 0
  let b2 := rest.getD 1 0
  let b3 := rest.getD 2 0
  let broken := Char.ofNat 0xfffd
  if b < 0x80 then (Char.ofNat b.toNat, 0)
  else if 0xc2 ≤ b && b ≤ 0xdf then
    if continuesUtf8 b1 then (utf8Char (b.toNat % 32) [b1], 1) else (broken, 0)
  else if 0xe0 ≤ b && b ≤ 0xef then
    let second := if b = 0xe0 then 0xa0 ≤ b1 && b1 ≤ 0xbf
      else if b = 0xed then 0x80 ≤ b1 && b1 ≤ 0x9f else continuesUtf8 b1
    if !second then (broken, 0)
    else if continuesUtf8 b2 then (utf8Char (b.toNat % 16) [b1, b2], 2) else (broken, 1)
  else if 0xf0 ≤ b && b ≤ 0xf4 then
    let second := if b = 0xf0 then 0x90 ≤ b1 && b1 ≤ 0xbf
      else if b = 0xf4 then 0x80 ≤ b1 && b1 ≤ 0x8f else continuesUtf8 b1
    if !second then (broken, 0)
    else if !continuesUtf8 b2 then (broken, 1)
    else if continuesUtf8 b3 then (utf8Char (b.toNat % 8) [b1, b2, b3], 3) else (broken, 2)
  else (broken, 0)

/-- `String::from_utf8_lossy`. -/
def fromUtf8Lossy (bytes : List UInt8) : String :=
  String.ofList (go bytes.length bytes)
where
  go : Nat → List UInt8 → List Char
    | 0, _ => []
    | _, [] => []
    | fuel + 1, b :: rest =>
      let (c, taken) := lossyChunk b rest
      c :: go fuel (rest.drop taken)

end Superiority
