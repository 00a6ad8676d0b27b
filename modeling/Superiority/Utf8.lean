import Mathlib.Tactic
import Superiority.Text

/-!
# UTF-8

The bytes of a string. **`fromUtf8Lossy_utf8Bytes`**: they are read as the string again, and no
byte of them is taken for a broken sequence. **`exists_text`**: between one and four for each
character, every number of bytes is that of a string.
-/

namespace Superiority

/-- `str::as_bytes`. -/
def utf8Bytes (s : String) : List UInt8 := s.toList.flatMap String.utf8EncodeChar

theorem toNat_ofNat_of_lt {n : Nat} (h : n < 256) : (UInt8.ofNat n).toNat = n := by
  rw [UInt8.toNat_ofNat']
  omega

/-- A code point is none of the surrogates. -/
theorem toNat_char (c : Char) : c.toNat < 0xd800 ∨ 0xdfff < c.toNat ∧ c.toNat < 0x110000 := c.valid

/-- A byte that continues a sequence. -/
def tailByte (n : Nat) : UInt8 := UInt8.ofNat (n % 0x40 + 0x80)

theorem toNat_tailByte (n : Nat) : (tailByte n).toNat = n % 64 + 128 := by
  rw [tailByte, toNat_ofNat_of_lt (by omega)]

theorem continuesUtf8_tailByte (n : Nat) : continuesUtf8 (tailByte n) = true := by
  have h := toNat_tailByte n
  simp only [continuesUtf8, Bool.and_eq_true, decide_eq_true_eq, UInt8.le_iff_toNat_le, h]
  have h0 : (0x80 : UInt8).toNat = 128 := rfl
  have h1 : (0xbf : UInt8).toNat = 191 := rfl
  omega

theorem lossyChunk_one {n : Nat} (h : n < 0x80) (rest : List UInt8) :
    lossyChunk (UInt8.ofNat n) rest = (Char.ofNat n, 0) := by
  have hb : (UInt8.ofNat n).toNat = n := toNat_ofNat_of_lt (by omega)
  have hlt : UInt8.ofNat n < 0x80 := by
    rw [UInt8.lt_iff_toNat_lt, hb]
    exact h
  simp only [lossyChunk, if_pos hlt, hb]

theorem lossyChunk_two {n : Nat} (hlow : 0x80 ≤ n) (hhigh : n < 0x800) (rest : List UInt8) :
    lossyChunk (UInt8.ofNat (n / 64 % 0x20 + 0xc0)) (tailByte n :: rest) = (Char.ofNat n, 1) := by
  have hb : (UInt8.ofNat (n / 64 % 0x20 + 0xc0)).toNat = n / 64 % 32 + 192 :=
    toNat_ofNat_of_lt (by omega)
  have h1 : ¬ UInt8.ofNat (n / 64 % 0x20 + 0xc0) < 0x80 := by
    rw [UInt8.lt_iff_toNat_lt, hb]
    show ¬ _ < 128
    omega
  have h2 : (0xc2 ≤ UInt8.ofNat (n / 64 % 0x20 + 0xc0) &&
      UInt8.ofNat (n / 64 % 0x20 + 0xc0) ≤ 0xdf) = true := by
    simp only [Bool.and_eq_true, decide_eq_true_eq, UInt8.le_iff_toNat_le, hb]
    show 194 ≤ _ ∧ _ ≤ 223
    omega
  have hchar : (n / 64 % 32 + 192) % 32 * 64 + (n % 64 + 128) % 64 = n := by omega
  simp only [lossyChunk, if_neg h1, if_pos h2, List.getD_cons_zero, continuesUtf8_tailByte, if_true,
    utf8Char, List.foldl_cons, List.foldl_nil, hb, toNat_tailByte, hchar]

theorem lossyChunk_three {n : Nat} (hlow : 0x800 ≤ n) (hhigh : n < 0x10000)
    (hscalar : n < 0xd800 ∨ 0xdfff < n) (rest : List UInt8) :
    lossyChunk (UInt8.ofNat (n / 4096 % 0x10 + 0xe0)) (tailByte (n / 64) :: tailByte n :: rest) =
      (Char.ofNat n, 2) := by
  generalize hlead : UInt8.ofNat (n / 4096 % 0x10 + 0xe0) = b
  have hb : b.toNat = n / 4096 % 16 + 224 := by
    rw [← hlead, toNat_ofNat_of_lt (by omega)]
  have h1 : ¬ b < 0x80 := by
    rw [UInt8.lt_iff_toNat_lt, hb]
    show ¬ _ < 128
    omega
  have h2 : ¬ (0xc2 ≤ b && b ≤ 0xdf) = true := by
    simp only [Bool.and_eq_true, decide_eq_true_eq, UInt8.le_iff_toNat_le, hb]
    show ¬ (194 ≤ _ ∧ _ ≤ 223)
    omega
  have h3 : (0xe0 ≤ b && b ≤ 0xef) = true := by
    simp only [Bool.and_eq_true, decide_eq_true_eq, UInt8.le_iff_toNat_le, hb]
    show 224 ≤ _ ∧ _ ≤ 239
    omega
  have hsecond : (if b = 0xe0 then (0xa0 ≤ tailByte (n / 64) && tailByte (n / 64) ≤ 0xbf : Bool)
      else if b = 0xed then (0x80 ≤ tailByte (n / 64) && tailByte (n / 64) ≤ 0x9f : Bool)
      else continuesUtf8 (tailByte (n / 64))) = true := by
    have htail := toNat_tailByte (n / 64)
    split_ifs with he0 hed
    · have hbyte : n / 4096 % 16 + 224 = 224 := hb.symm.trans (congrArg UInt8.toNat he0)
      simp only [Bool.and_eq_true, decide_eq_true_eq, UInt8.le_iff_toNat_le, htail]
      show 160 ≤ _ ∧ _ ≤ 191
      omega
    · have hbyte : n / 4096 % 16 + 224 = 237 := hb.symm.trans (congrArg UInt8.toNat hed)
      simp only [Bool.and_eq_true, decide_eq_true_eq, UInt8.le_iff_toNat_le, htail]
      show 128 ≤ _ ∧ _ ≤ 159
      omega
    · exact continuesUtf8_tailByte _
  have hchar : ((n / 4096 % 16 + 224) % 16 * 64 + (n / 64 % 64 + 128) % 64) * 64 +
      (n % 64 + 128) % 64 = n := by omega
  rw [continuesUtf8_tailByte] at hsecond
  simp only [lossyChunk, if_neg h1, if_neg h2, if_pos h3, List.getD_cons_zero,
    List.getD_cons_succ, hsecond, Bool.not_true, Bool.false_eq_true, if_false,
    continuesUtf8_tailByte, if_true, utf8Char, List.foldl_cons, List.foldl_nil, hb, toNat_tailByte,
    hchar]

theorem lossyChunk_four {n : Nat} (hlow : 0x10000 ≤ n) (hhigh : n < 0x110000)
    (rest : List UInt8) :
    lossyChunk (UInt8.ofNat (n / 262144 % 0x08 + 0xf0))
      (tailByte (n / 4096) :: tailByte (n / 64) :: tailByte n :: rest) = (Char.ofNat n, 3) := by
  generalize hlead : UInt8.ofNat (n / 262144 % 0x08 + 0xf0) = b
  have hb : b.toNat = n / 262144 % 8 + 240 := by
    rw [← hlead, toNat_ofNat_of_lt (by omega)]
  have h1 : ¬ b < 0x80 := by
    rw [UInt8.lt_iff_toNat_lt, hb]
    show ¬ _ < 128
    omega
  have h2 : ¬ (0xc2 ≤ b && b ≤ 0xdf) = true := by
    simp only [Bool.and_eq_true, decide_eq_true_eq, UInt8.le_iff_toNat_le, hb]
    show ¬ (194 ≤ _ ∧ _ ≤ 223)
    omega
  have h3 : ¬ (0xe0 ≤ b && b ≤ 0xef) = true := by
    simp only [Bool.and_eq_true, decide_eq_true_eq, UInt8.le_iff_toNat_le, hb]
    show ¬ (224 ≤ _ ∧ _ ≤ 239)
    omega
  have h4 : (0xf0 ≤ b && b ≤ 0xf4) = true := by
    simp only [Bool.and_eq_true, decide_eq_true_eq, UInt8.le_iff_toNat_le, hb]
    show 240 ≤ _ ∧ _ ≤ 244
    omega
  have hsecond : (if b = 0xf0 then (0x90 ≤ tailByte (n / 4096) && tailByte (n / 4096) ≤ 0xbf : Bool)
      else if b = 0xf4 then (0x80 ≤ tailByte (n / 4096) && tailByte (n / 4096) ≤ 0x8f : Bool)
      else continuesUtf8 (tailByte (n / 4096))) = true := by
    have htail := toNat_tailByte (n / 4096)
    split_ifs with hf0 hf4
    · have hbyte : n / 262144 % 8 + 240 = 240 := hb.symm.trans (congrArg UInt8.toNat hf0)
      simp only [Bool.and_eq_true, decide_eq_true_eq, UInt8.le_iff_toNat_le, htail]
      show 144 ≤ _ ∧ _ ≤ 191
      omega
    · have hbyte : n / 262144 % 8 + 240 = 244 := hb.symm.trans (congrArg UInt8.toNat hf4)
      simp only [Bool.and_eq_true, decide_eq_true_eq, UInt8.le_iff_toNat_le, htail]
      show 128 ≤ _ ∧ _ ≤ 143
      omega
    · exact continuesUtf8_tailByte _
  have hchar : (((n / 262144 % 8 + 240) % 8 * 64 + (n / 4096 % 64 + 128) % 64) * 64 +
      (n / 64 % 64 + 128) % 64) * 64 + (n % 64 + 128) % 64 = n := by omega
  rw [continuesUtf8_tailByte] at hsecond
  simp only [lossyChunk, if_neg h1, if_neg h2, if_neg h3, if_pos h4, List.getD_cons_zero,
    List.getD_cons_succ, hsecond, Bool.not_true, Bool.false_eq_true, if_false,
    continuesUtf8_tailByte, if_true, utf8Char, List.foldl_cons, List.foldl_nil, hb, toNat_tailByte,
    hchar]

/-- The bytes of a character are read as that character. -/
theorem lossyChunk_encodeChar (c : Char) (rest : List UInt8) : ∃ b bytes,
    String.utf8EncodeChar c = b :: bytes ∧ lossyChunk b (bytes ++ rest) = (c, bytes.length) := by
  have hscalar := toNat_char c
  have hchar : Char.ofNat c.val.toNat = c := Char.ofNat_toNat c
  have htoNat : c.toNat = c.val.toNat := rfl
  rw [htoNat] at hscalar
  by_cases h1 : c.val.toNat ≤ 0x7f
  · refine ⟨UInt8.ofNat c.val.toNat, [], ?_, ?_⟩
    · simp only [String.utf8EncodeChar, if_pos h1]
    · rw [List.nil_append, lossyChunk_one (by omega), hchar]
      rfl
  by_cases h2 : c.val.toNat ≤ 0x7ff
  · refine ⟨_, [tailByte c.val.toNat], ?_, (lossyChunk_two (by omega) (by omega) rest).trans ?_⟩
    · simp only [String.utf8EncodeChar, if_neg h1, if_pos h2, tailByte]
    · rw [hchar]
      rfl
  by_cases h3 : c.val.toNat ≤ 0xffff
  · refine ⟨_, [tailByte (c.val.toNat / 64), tailByte c.val.toNat], ?_,
      (lossyChunk_three (by omega) (by omega) (by omega) rest).trans ?_⟩
    · simp only [String.utf8EncodeChar, if_neg h1, if_neg h2, if_pos h3, tailByte]
    · rw [hchar]
      rfl
  · refine ⟨_, [tailByte (c.val.toNat / 4096), tailByte (c.val.toNat / 64), tailByte c.val.toNat],
      ?_, (lossyChunk_four (by omega) (by omega) rest).trans ?_⟩
    · simp only [String.utf8EncodeChar, if_neg h1, if_neg h2, if_neg h3, tailByte]
    · rw [hchar]
      rfl

theorem lossy_go_encode (cs : List Char) {fuel : Nat}
    (hfuel : (cs.flatMap String.utf8EncodeChar).length ≤ fuel) :
    fromUtf8Lossy.go fuel (cs.flatMap String.utf8EncodeChar) = cs := by
  induction cs generalizing fuel with
  | nil => cases fuel <;> rfl
  | cons c cs ih =>
    obtain ⟨b, bytes, hbytes, hchunk⟩ :=
      lossyChunk_encodeChar c (cs.flatMap String.utf8EncodeChar)
    rw [List.flatMap_cons, hbytes, List.cons_append] at hfuel ⊢
    rw [List.length_cons, List.length_append] at hfuel
    obtain ⟨fuel, rfl⟩ : ∃ n, fuel = n + 1 := ⟨fuel - 1, by omega⟩
    simp only [fromUtf8Lossy.go, hchunk, List.drop_left]
    rw [ih (by omega)]

/-- The text of a string's bytes is the string. -/
theorem fromUtf8Lossy_utf8Bytes (s : String) : fromUtf8Lossy (utf8Bytes s) = s := by
  rw [fromUtf8Lossy, utf8Bytes, lossy_go_encode s.toList (Nat.le_refl _), String.ofList_toList]

/-- A character takes one to four bytes. -/
theorem length_encodeChar (c : Char) : 1 ≤ (String.utf8EncodeChar c).length ∧
    (String.utf8EncodeChar c).length ≤ 4 := by
  simp only [String.utf8EncodeChar]
  split_ifs <;> simp

/-- A string has one to four bytes for each character. -/
theorem length_utf8Bytes (s : String) : s.toList.length ≤ (utf8Bytes s).length ∧
    (utf8Bytes s).length ≤ 4 * s.toList.length := by
  rw [utf8Bytes]
  induction s.toList with
  | nil => simp
  | cons c cs ih =>
    have hc := length_encodeChar c
    rw [List.flatMap_cons, List.length_append, List.length_cons]
    omega

/-- A character is one byte of ASCII, or starts with a byte that continues none and has no byte of
ASCII. -/
theorem encodeChar_cases (c : Char) :
    (c.toNat < 0x80 ∧ String.utf8EncodeChar c = [UInt8.ofNat c.toNat]) ∨
      ∃ lead tail, String.utf8EncodeChar c = lead :: tail ∧ continuesUtf8 lead = false ∧
        ∀ b ∈ lead :: tail, ¬ b < 0x80 := by
  have hscalar := toNat_char c
  have htoNat : c.toNat = c.val.toNat := rfl
  rw [htoNat] at hscalar ⊢
  have htail (n : Nat) : ¬ tailByte n < 0x80 := by
    rw [UInt8.lt_iff_toNat_lt, toNat_tailByte]
    show ¬ _ < 128
    omega
  have hlead (n : Nat) (hlow : 0xc0 ≤ n) (hhigh : n < 0x100) :
      continuesUtf8 (UInt8.ofNat n) = false ∧ ¬ UInt8.ofNat n < 0x80 := by
    have hn := toNat_ofNat_of_lt hhigh
    constructor
    · rw [← Bool.not_eq_true]
      simp only [continuesUtf8, Bool.and_eq_true, decide_eq_true_eq, UInt8.le_iff_toNat_le, hn]
      show ¬ (128 ≤ _ ∧ _ ≤ 191)
      omega
    · rw [UInt8.lt_iff_toNat_lt, hn]
      show ¬ _ < 128
      omega
  by_cases h1 : c.val.toNat ≤ 0x7f
  · refine Or.inl ⟨by omega, ?_⟩
    simp only [String.utf8EncodeChar, if_pos h1]
  refine Or.inr ?_
  by_cases h2 : c.val.toNat ≤ 0x7ff
  · obtain ⟨hstarts, hascii⟩ := hlead (c.val.toNat / 64 % 0x20 + 0xc0) (by omega) (by omega)
    refine ⟨_, [tailByte c.val.toNat], ?_, hstarts, ?_⟩
    · simp only [String.utf8EncodeChar, if_neg h1, if_pos h2, tailByte]
    · exact List.forall_mem_cons.2 ⟨hascii, List.forall_mem_singleton.2 (htail _)⟩
  by_cases h3 : c.val.toNat ≤ 0xffff
  · obtain ⟨hstarts, hascii⟩ := hlead (c.val.toNat / 4096 % 0x10 + 0xe0) (by omega) (by omega)
    refine ⟨_, [tailByte (c.val.toNat / 64), tailByte c.val.toNat], ?_, hstarts, ?_⟩
    · simp only [String.utf8EncodeChar, if_neg h1, if_neg h2, if_pos h3, tailByte]
    · exact List.forall_mem_cons.2 ⟨hascii, List.forall_mem_cons.2 ⟨htail _,
        List.forall_mem_singleton.2 (htail _)⟩⟩
  · obtain ⟨hstarts, hascii⟩ := hlead (c.val.toNat / 262144 % 0x08 + 0xf0) (by omega) (by omega)
    refine ⟨_, [tailByte (c.val.toNat / 4096), tailByte (c.val.toNat / 64),
      tailByte c.val.toNat], ?_, hstarts, ?_⟩
    · simp only [String.utf8EncodeChar, if_neg h1, if_neg h2, if_neg h3, tailByte]
    · exact List.forall_mem_cons.2 ⟨hascii, List.forall_mem_cons.2 ⟨htail _,
        List.forall_mem_cons.2 ⟨htail _, List.forall_mem_singleton.2 (htail _)⟩⟩⟩

/-- Behind a byte of ASCII a character starts. -/
def StartsAfterAscii (bytes : List UInt8) : Prop :=
  bytes.IsChain fun a b => a < 0x80 → continuesUtf8 b = false

/-- The first byte of a string starts a character, and so does each byte behind one of ASCII. -/
theorem startsAfterAscii_utf8Bytes (s : String) : StartsAfterAscii (utf8Bytes s) := by
  have hchars (cs : List Char) : StartsAfterAscii (cs.flatMap String.utf8EncodeChar) ∧
      ∀ b ∈ (cs.flatMap String.utf8EncodeChar).head?, continuesUtf8 b = false := by
    induction cs with
    | nil => exact ⟨List.isChain_nil, nofun⟩
    | cons c cs ih =>
      rw [List.flatMap_cons]
      rcases encodeChar_cases c with ⟨hsmall, hone⟩ | ⟨lead, tail, hbytes, hstarts, hascii⟩
      · rw [hone, List.singleton_append]
        constructor
        · exact List.isChain_cons.2 ⟨fun b hb _ => ih.2 b hb, ih.1⟩
        · intro b hb
          cases hb
          rw [← Bool.not_eq_true]
          simp only [continuesUtf8, Bool.and_eq_true, decide_eq_true_eq, UInt8.le_iff_toNat_le,
            toNat_ofNat_of_lt (show c.toNat < 256 by omega)]
          show ¬ (128 ≤ _ ∧ _ ≤ 191)
          omega
      · rw [hbytes]
        have hblock (block : List UInt8) (hblock : ∀ b ∈ block, ¬ b < 0x80) :
            StartsAfterAscii (block ++ cs.flatMap String.utf8EncodeChar) := by
          induction block with
          | nil => exact ih.1
          | cons b block ihb =>
            refine List.isChain_cons.2 ⟨fun b' _ hlt => ?_, ihb fun b' hb' => ?_⟩
            · exact absurd hlt (hblock b List.mem_cons_self)
            · exact hblock b' (List.mem_cons_of_mem b hb')
        refine ⟨hblock _ hascii, fun b hb => ?_⟩
        cases hb
        exact hstarts
  exact (hchars s.toList).1

/-- A character of each size. -/
def sampleChar : Nat → Char
  | 1 => 'a'
  | 2 => 'é'
  | 3 => '星'
  | _ => '𝄞'

theorem exists_chars {count size : Nat} (hlow : count ≤ size) (hhigh : size ≤ 4 * count) :
    ∃ cs : List Char, cs.length = count ∧ (cs.flatMap String.utf8EncodeChar).length = size := by
  induction count generalizing size with
  | zero => exact ⟨[], rfl, by simp; omega⟩
  | succ count ih =>
    -- A character that leaves the others no less than one byte each and no more than four.
    obtain ⟨first, hone, hfour, hfirst, hrest, hrest'⟩ : ∃ first, 1 ≤ first ∧ first ≤ 4 ∧
        first ≤ size ∧ count ≤ size - first ∧ size - first ≤ 4 * count := by
      by_cases hsmall : size ≤ 4 * count + 1
      · exact ⟨1, by omega, by omega, by omega, by omega, by omega⟩
      · exact ⟨size - 4 * count, by omega, by omega, by omega, by omega, by omega⟩
    obtain ⟨cs, hcount, hsize⟩ := ih hrest hrest'
    have hsample : (String.utf8EncodeChar (sampleChar first)).length = first := by
      interval_cases first <;> decide
    refine ⟨sampleChar first :: cs, by rw [List.length_cons, hcount], ?_⟩
    rw [List.flatMap_cons, List.length_append, hsize, hsample]
    omega

/-- `String`: at most `isize::MAX` bytes of UTF-8. -/
structure Str where
  value : String
  size_lt : (utf8Bytes value).length < 2 ^ 63

namespace Str

/-- How many characters it has. -/
def chars (s : Str) : Nat := s.value.toList.length

def bytes (s : Str) : List UInt8 := utf8Bytes s.value

end Str

theorem exists_text {count size : Nat} (hlow : count ≤ size) (hhigh : size ≤ 4 * count)
    (hsize : size < 2 ^ 63) : ∃ s : Str, s.chars = count ∧ s.bytes.length = size := by
  obtain ⟨cs, hcount, hbytes⟩ := exists_chars hlow hhigh
  refine ⟨⟨String.ofList cs, ?_⟩, ?_, ?_⟩
  · rw [utf8Bytes, String.toList_ofList, hbytes]
    exact hsize
  · rw [Str.chars, String.toList_ofList, hcount]
  · rw [Str.bytes, utf8Bytes, String.toList_ofList, hbytes]

/-! ## The NUL -/

/-- The character that ends a string of C. -/
def nul : Char := Char.ofNat 0

theorem ofNat_ne_nul {n : Nat} (hvalid : n < 0xd800 ∨ 0xdfff < n ∧ n < 0x110000) (hn : n ≠ 0) :
    Char.ofNat n ≠ nul := by
  intro h
  have hzero := congrArg Char.toNat h
  have hchar : (Char.ofNat n).toNat = n := by
    rw [Char.ofNat, dif_pos hvalid]
    rfl
  exact hn (hchar.symm.trans hzero)

/-- Only a byte that is zero is read as a NUL. -/
theorem lossyChunk_ne_nul {b : UInt8} (hb : b ≠ 0) (rest : List UInt8) :
    (lossyChunk b rest).1 ≠ nul := by
  have hzero : b.toNat ≠ 0 := fun h => hb (UInt8.toNat_inj.1 h)
  have hbroken : Char.ofNat 0xfffd ≠ nul := by decide
  unfold lossyChunk
  generalize rest.getD 0 0 = b1
  generalize rest.getD 1 0 = b2
  generalize rest.getD 2 0 = b3
  dsimp only
  by_cases hascii : b < 0x80
  · rw [if_pos hascii]
    rw [UInt8.lt_iff_toNat_lt] at hascii
    exact ofNat_ne_nul (Or.inl (Nat.lt_trans hascii (by decide))) hzero
  rw [if_neg hascii]
  by_cases htwo : (0xc2 ≤ b && b ≤ 0xdf) = true
  · rw [if_pos htwo]
    cases continuesUtf8 b1 with
    | false => exact hbroken
    | true =>
      simp only [Bool.and_eq_true, decide_eq_true_eq, UInt8.le_iff_toNat_le] at htwo
      have hlow : 194 ≤ b.toNat := htwo.1
      have hhigh : b.toNat ≤ 223 := htwo.2
      simp only [if_true, utf8Char, List.foldl_cons, List.foldl_nil]
      exact ofNat_ne_nul (by omega) (by omega)
  rw [if_neg htwo]
  by_cases hthree : (0xe0 ≤ b && b ≤ 0xef) = true
  · rw [if_pos hthree]
    generalize hsecond : (if b = 0xe0 then (0xa0 ≤ b1 && b1 ≤ 0xbf : Bool)
      else if b = 0xed then (0x80 ≤ b1 && b1 ≤ 0x9f : Bool) else continuesUtf8 b1) = second
    cases second with
    | false => exact hbroken
    | true =>
      cases continuesUtf8 b2 with
      | false => exact hbroken
      | true =>
        simp only [Bool.and_eq_true, decide_eq_true_eq, UInt8.le_iff_toNat_le] at hthree
        have hlow : 224 ≤ b.toNat := hthree.1
        have hhigh : b.toNat ≤ 239 := hthree.2
        have hbounds : (b.toNat = 224 → 160 ≤ b1.toNat ∧ b1.toNat ≤ 191) ∧
            (b.toNat = 237 → 128 ≤ b1.toNat ∧ b1.toNat ≤ 159) := by
          constructor
          · intro h
            obtain rfl : b = 0xe0 := UInt8.toNat_inj.1 h
            simpa [UInt8.le_iff_toNat_le] using hsecond
          · intro h
            obtain rfl : b = 0xed := UInt8.toNat_inj.1 h
            simpa [UInt8.le_iff_toNat_le] using hsecond
        simp only [Bool.not_true, Bool.false_eq_true, if_false, if_true, utf8Char, List.foldl_cons,
          List.foldl_nil]
        exact ofNat_ne_nul (by omega) (by omega)
  rw [if_neg hthree]
  by_cases hfour : (0xf0 ≤ b && b ≤ 0xf4) = true
  · rw [if_pos hfour]
    generalize hsecond : (if b = 0xf0 then (0x90 ≤ b1 && b1 ≤ 0xbf : Bool)
      else if b = 0xf4 then (0x80 ≤ b1 && b1 ≤ 0x8f : Bool) else continuesUtf8 b1) = second
    cases second with
    | false => exact hbroken
    | true =>
      cases continuesUtf8 b2 with
      | false => exact hbroken
      | true =>
        cases continuesUtf8 b3 with
        | false => exact hbroken
        | true =>
          simp only [Bool.and_eq_true, decide_eq_true_eq, UInt8.le_iff_toNat_le] at hfour
          have hlow : 240 ≤ b.toNat := hfour.1
          have hhigh : b.toNat ≤ 244 := hfour.2
          have hbounds : (b.toNat = 240 → 144 ≤ b1.toNat ∧ b1.toNat ≤ 191) ∧
              (b.toNat = 244 → 128 ≤ b1.toNat ∧ b1.toNat ≤ 143) := by
            constructor
            · intro h
              obtain rfl : b = 0xf0 := UInt8.toNat_inj.1 h
              simpa [UInt8.le_iff_toNat_le] using hsecond
            · intro h
              obtain rfl : b = 0xf4 := UInt8.toNat_inj.1 h
              simpa [UInt8.le_iff_toNat_le] using hsecond
          simp only [Bool.not_true, Bool.false_eq_true, if_false, if_true, utf8Char,
            List.foldl_cons, List.foldl_nil]
          exact ofNat_ne_nul (by omega) (by omega)
  rw [if_neg hfour]
  exact hbroken

theorem nul_not_mem_lossy_go {bytes : List UInt8} (h : 0 ∉ bytes) (fuel : Nat) :
    nul ∉ fromUtf8Lossy.go fuel bytes := by
  induction fuel generalizing bytes with
  | zero => cases bytes <;> exact List.not_mem_nil
  | succ fuel ih =>
    cases bytes with
    | nil => exact List.not_mem_nil
    | cons b rest =>
      rw [List.mem_cons, not_or] at h
      rw [fromUtf8Lossy.go]
      refine List.not_mem_cons_of_ne_of_not_mem (lossyChunk_ne_nul (Ne.symm h.1) rest).symm (ih ?_)
      exact fun hmem => h.2 (List.mem_of_mem_drop hmem)

/-- A text that is read from bytes without a zero has no NUL. -/
theorem nul_not_mem_fromUtf8Lossy {bytes : List UInt8} (h : 0 ∉ bytes) :
    nul ∉ (fromUtf8Lossy bytes).toList := by
  rw [fromUtf8Lossy, String.toList_ofList]
  exact nul_not_mem_lossy_go h _

/-- A text without a NUL has no byte that is zero. -/
theorem zero_not_mem_utf8Bytes {s : String} (h : nul ∉ s.toList) : 0 ∉ utf8Bytes s := by
  intro hmem
  obtain ⟨c, hc, hzero⟩ := List.mem_flatMap.1 hmem
  rcases encodeChar_cases c with ⟨hascii, hencode⟩ | ⟨lead, tail, hencode, -, hhigh⟩
  · rw [hencode, List.mem_singleton] at hzero
    have htoNat : c.toNat = 0 := by
      rw [← toNat_ofNat_of_lt (by omega : c.toNat < 256), ← hzero]
      rfl
    have hnul : c = nul := by
      rw [← Char.ofNat_toNat c, htoNat]
      rfl
    exact h (hnul ▸ hc)
  · rw [hencode] at hzero
    exact hhigh 0 hzero (by decide)

end Superiority
