import Mathlib.Data.List.TakeWhile
import Superiority.Updater.Versions

/-!
# Dotted numbers

Versions that are numbers with dots between them. **`compareVersions_dotted`**: they are compared
number by number, of any length, where a number that is missing counts as zero.
-/

namespace Superiority.Updater

open Std

/-! ## Numbers -/

/-- The number that digits are read as, behind a number that has been read. -/
def readDigits (before : Nat) (digits : List UInt8) : Nat :=
  digits.foldl (fun value b => 10 * value + (b.toNat - 48)) before

theorem toNat_of_isAsciiDigit {b : UInt8} (h : isAsciiDigit b = true) :
    48 ≤ b.toNat ∧ b.toNat ≤ 57 := by
  simp only [isAsciiDigit, Bool.and_eq_true, decide_eq_true_eq, UInt8.le_iff_toNat_le] at h
  exact h

theorem compare_toNat (a b : UInt8) : compare a b = compare a.toNat b.toNat := by
  simp only [compare, compareOfLessAndEq, UInt8.lt_iff_toNat_lt, UInt8.toNat_inj]

/-- The digits add less than one in the place before them. -/
theorem readDigits_bounds {digits : List UInt8} (h : ∀ b ∈ digits, isAsciiDigit b = true)
    (before : Nat) : before * 10 ^ digits.length ≤ readDigits before digits ∧
      readDigits before digits < (before + 1) * 10 ^ digits.length := by
  induction digits generalizing before with
  | nil => simp [readDigits]
  | cons b digits ih =>
    have hb := toNat_of_isAsciiDigit (h b List.mem_cons_self)
    obtain ⟨hle, hlt⟩ := ih (fun b hb => h b (List.mem_cons_of_mem _ hb))
      (10 * before + (b.toNat - 48))
    have hread : readDigits before (b :: digits) =
        readDigits (10 * before + (b.toNat - 48)) digits := rfl
    rw [hread, List.length_cons, pow_succ]
    constructor
    · calc before * (10 ^ digits.length * 10)
          = (10 * before) * 10 ^ digits.length := by ring
        _ ≤ (10 * before + (b.toNat - 48)) * 10 ^ digits.length :=
            Nat.mul_le_mul_right _ (Nat.le_add_right _ _)
        _ ≤ _ := hle
    · calc readDigits (10 * before + (b.toNat - 48)) digits
          < (10 * before + (b.toNat - 48) + 1) * 10 ^ digits.length := hlt
        _ ≤ (10 * before + 10) * 10 ^ digits.length := Nat.mul_le_mul_right _ (by omega)
        _ = (before + 1) * (10 ^ digits.length * 10) := by ring

/-- Numbers with as many digits are compared by their first different digit. -/
theorem compare_readDigits {left right : List UInt8} (hlength : left.length = right.length)
    (hleft : ∀ b ∈ left, isAsciiDigit b = true) (hright : ∀ b ∈ right, isAsciiDigit b = true)
    (before : Nat) :
    compare left right = compare (readDigits before left) (readDigits before right) := by
  induction left generalizing right before with
  | nil =>
    obtain rfl := List.length_eq_zero_iff.1 hlength.symm
    exact (Std.compare_eq_iff_eq.2 rfl).symm
  | cons a left ih =>
    cases right with
    | nil => cases hlength
    | cons b right =>
      have ha := toNat_of_isAsciiDigit (hleft a List.mem_cons_self)
      have hb := toNat_of_isAsciiDigit (hright b List.mem_cons_self)
      have hleft' : ∀ b ∈ left, isAsciiDigit b = true :=
        fun b hb => hleft b (List.mem_cons_of_mem _ hb)
      have hright' : ∀ b ∈ right, isAsciiDigit b = true :=
        fun b hb => hright b (List.mem_cons_of_mem _ hb)
      have hlength' : left.length = right.length := Nat.succ.inj hlength
      have hlex : compare (a :: left) (b :: right) = (compare a b).then (compare left right) := by
        rw [List.compare_eq_compareLex, List.compareLex_cons_cons]
      obtain ⟨hle, hlt⟩ := readDigits_bounds hleft' (10 * before + (a.toNat - 48))
      obtain ⟨hle', hlt'⟩ := readDigits_bounds hright' (10 * before + (b.toNat - 48))
      have hread (b : UInt8) (digits : List UInt8) : readDigits before (b :: digits) =
          readDigits (10 * before + (b.toNat - 48)) digits := rfl
      rw [hlex, hread, hread, compare_toNat]
      rw [hlength'] at hle hlt
      -- a digit less leaves the whole number below the other
      have hbelow {m n : Nat} (hmn : m < n) :
          (m + 1) * 10 ^ right.length ≤ n * 10 ^ right.length := Nat.mul_le_mul_right _ hmn
      rcases Nat.lt_trichotomy a.toNat b.toNat with h | h | h
      · have hsep := hbelow (by omega : 10 * before + (a.toNat - 48) < 10 * before + (b.toNat - 48))
        rw [compare_lt_iff_lt.2 h, compare_lt_iff_lt.2 (by omega)]
        rfl
      · obtain rfl : a = b := UInt8.toNat_inj.1 h
        rw [Std.compare_eq_iff_eq.2 (rfl : a.toNat = a.toNat)]
        exact ih hlength' hleft' hright' _
      · have hsep := hbelow (by omega : 10 * before + (b.toNat - 48) < 10 * before + (a.toNat - 48))
        rw [compare_gt_iff_gt.2 h, compare_gt_iff_gt.2 (by omega)]
        rfl

namespace VersionPart

theorem readDigits_trimZeros (digits : List UInt8) :
    readDigits 0 (trimZeros digits) = readDigits 0 digits := by
  induction digits with
  | nil => rfl
  | cons b digits ih =>
    by_cases hb : b = 48
    · rw [trimZeros, List.dropWhile_cons_of_pos (by simpa using hb)]
      subst hb
      exact ih
    · rw [trimZeros, List.dropWhile_cons_of_neg (by simpa using hb)]

/-- A number without leading zeros is at least what its first digit stands for. -/
theorem pow_le_readDigits {digits : List UInt8} (h : ∀ b ∈ digits, isAsciiDigit b = true)
    {n : Nat} (hlength : n < (trimZeros digits).length) :
    10 ^ n ≤ readDigits 0 (trimZeros digits) := by
  have hhead := List.head?_dropWhile_not (fun b : UInt8 => decide (b = 48)) digits
  have hdigits : ∀ b ∈ trimZeros digits, isAsciiDigit b = true :=
    fun b hb => h b ((List.dropWhile_suffix _).subset hb)
  unfold trimZeros at hlength hdigits ⊢
  generalize digits.dropWhile (fun b => decide (b = 48)) = trimmed at hlength hdigits hhead ⊢
  cases trimmed with
  | nil => exact absurd hlength (Nat.not_lt_zero _)
  | cons b rest =>
    have hb := toNat_of_isAsciiDigit (hdigits b List.mem_cons_self)
    have hne : b ≠ 48 := by simpa using hhead
    have hnat : b.toNat ≠ 48 := fun hnat => hne (UInt8.toNat_inj.1 hnat)
    have hle := (readDigits_bounds (fun b hb => hdigits b (List.mem_cons_of_mem _ hb))
      (10 * 0 + (b.toNat - 48))).1
    have hpow : 10 ^ n ≤ 10 ^ rest.length :=
      Nat.pow_le_pow_right (by omega) (Nat.le_of_lt_succ hlength)
    have hone : 1 * 10 ^ rest.length ≤ (10 * 0 + (b.toNat - 48)) * 10 ^ rest.length :=
      Nat.mul_le_mul_right _ (by omega)
    show 10 ^ n ≤ readDigits (10 * 0 + (b.toNat - 48)) rest
    omega

theorem trimZeros_eq_nil_iff (digits : List UInt8) :
    trimZeros digits = [] ↔ (number digits).isZero = true := by
  rw [trimZeros, List.dropWhile_eq_nil_iff, isZero, List.all_eq_true]

theorem readDigits_eq_zero_iff {digits : List UInt8} (h : ∀ b ∈ digits, isAsciiDigit b = true) :
    (number digits).isZero = true ↔ readDigits 0 digits = 0 := by
  rw [← trimZeros_eq_nil_iff, ← readDigits_trimZeros]
  constructor
  · intro hnil
    rw [hnil]
    rfl
  · intro hzero
    by_contra hne
    have hle := pow_le_readDigits h (List.length_pos_iff.2 hne)
    rw [hzero] at hle
    exact absurd hle (by decide)

/-- **Numbers are compared by their values**, however long they are. -/
theorem compareNumbers_eq {left right : List UInt8} (hleft : ∀ b ∈ left, isAsciiDigit b = true)
    (hright : ∀ b ∈ right, isAsciiDigit b = true) :
    compareNumbers left right = compare (readDigits 0 left) (readDigits 0 right) := by
  have htrim {digits : List UInt8} (h : ∀ b ∈ digits, isAsciiDigit b = true) :
      ∀ b ∈ trimZeros digits, isAsciiDigit b = true :=
    fun b hb => h b ((List.dropWhile_suffix _).subset hb)
  have hbound {digits : List UInt8} (h : ∀ b ∈ digits, isAsciiDigit b = true) :
      readDigits 0 (trimZeros digits) < 10 ^ (trimZeros digits).length := by
    simpa using (readDigits_bounds (htrim h) 0).2
  rw [← readDigits_trimZeros left, ← readDigits_trimZeros right]
  unfold compareNumbers
  dsimp only
  rcases Nat.lt_trichotomy (trimZeros left).length (trimZeros right).length with h | h | h
  · have hlt := hbound hleft
    have hle := pow_le_readDigits hright h
    rw [compare_lt_iff_lt.2 h, compare_lt_iff_lt.2 (by omega)]
    rfl
  · rw [Std.compare_eq_iff_eq.2 h]
    exact compare_readDigits h (htrim hleft) (htrim hright) 0
  · have hlt := hbound hright
    have hle := pow_le_readDigits hleft h
    rw [compare_gt_iff_gt.2 h, compare_gt_iff_gt.2 (by omega)]
    rfl

end VersionPart

/-! ## Versions of numbers -/

/-- A number in decimal digits, with zeros before it or without. -/
def IsNumeral (number : List Char) : Prop := number ≠ [] ∧ ∀ c ∈ number, c.isDigit = true

/-- Numbers with dots between them. -/
def dotted (numbers : List (List Char)) : String := String.ofList (List.intercalate ['.'] numbers)

/-- The value of a number in decimal digits. -/
def numeralValue (number : List Char) : Nat := Nat.ofDigitChars 10 number 0

/-- The bytes of a number. -/
def numeralBytes (number : List Char) : List UInt8 := number.map fun c => UInt8.ofNat c.toNat

theorem toNat_of_isDigit {c : Char} (h : c.isDigit = true) : 48 ≤ c.toNat ∧ c.toNat ≤ 57 := by
  simpa [Char.isDigit, UInt32.le_iff_toNat_le] using h

theorem isAsciiDigit_numeralBytes {number : List Char} (h : ∀ c ∈ number, c.isDigit = true) :
    ∀ b ∈ numeralBytes number, isAsciiDigit b = true := by
  intro b hb
  obtain ⟨c, hc, rfl⟩ := List.mem_map.1 hb
  have hdigit := toNat_of_isDigit (h c hc)
  simp only [isAsciiDigit, Bool.and_eq_true, decide_eq_true_eq, UInt8.le_iff_toNat_le,
    toNat_ofNat_of_lt (by omega : c.toNat < 256)]
  exact hdigit

theorem readDigits_numeralBytes {number : List Char} (h : ∀ c ∈ number, c.isDigit = true) :
    readDigits 0 (numeralBytes number) = numeralValue number := by
  unfold numeralValue
  generalize 0 = before
  induction number generalizing before with
  | nil => rfl
  | cons c number ih =>
    have hc := toNat_of_isDigit (h c List.mem_cons_self)
    rw [Nat.ofDigitChars_cons, ← ih fun c hc => h c (List.mem_cons_of_mem _ hc)]
    show readDigits (10 * before + ((UInt8.ofNat c.toNat).toNat - 48)) (numeralBytes number) = _
    rw [toNat_ofNat_of_lt (by omega)]
    rfl

theorem utf8Bytes_numeral {number : List Char} (h : ∀ c ∈ number, c.isDigit = true) :
    number.flatMap String.utf8EncodeChar = numeralBytes number := by
  induction number with
  | nil => rfl
  | cons c number ih =>
    have hc := toNat_of_isDigit (h c List.mem_cons_self)
    rw [List.flatMap_cons, ih fun c hc => h c (List.mem_cons_of_mem _ hc)]
    rcases encodeChar_cases c with hone | hmore
    · rw [hone.2]
      rfl
    · obtain ⟨lead, tail, hencode, -, hascii⟩ := hmore
      have hval : c.val.toNat ≤ 0x7f := by
        have htoNat : c.toNat = c.val.toNat := rfl
        omega
      simp only [String.utf8EncodeChar, if_pos hval, List.cons.injEq] at hencode
      refine absurd ?_ (hascii lead List.mem_cons_self)
      rw [← hencode.1, UInt8.lt_iff_toNat_lt, toNat_ofNat_of_lt (by omega)]
      exact Nat.lt_of_le_of_lt hval (by decide)

/-- A dot is passed over. -/
theorem partsOf_dot (bytes : List UInt8) : partsOf (46 :: bytes) = partsOf bytes := by
  have hnext : nextPart (46 :: bytes) = nextPart bytes := by
    unfold nextPart
    rw [List.dropWhile_cons_of_pos rfl]
  rw [partsOf_eq (46 :: bytes), partsOf_eq bytes, hnext]

/-- A number is read up to its last digit. -/
theorem partsOf_numeral {digits behind : List UInt8} (hne : digits ≠ [])
    (hdigits : ∀ b ∈ digits, isAsciiDigit b = true)
    (hbehind : ∀ b ∈ behind.head?, isAsciiDigit b = false) :
    partsOf (digits ++ behind) = .number digits :: partsOf behind := by
  obtain ⟨first, rest, rfl⟩ := List.exists_cons_of_ne_nil hne
  have hfirst := hdigits first List.mem_cons_self
  have halnum {b : UInt8} (hb : isAsciiDigit b = true) : isAsciiAlphanumeric b = true := by
    rw [isAsciiAlphanumeric, hb]
    rfl
  have hnext : nextPart (first :: rest ++ behind) = some (.number (first :: rest), behind) := by
    unfold nextPart
    rw [List.cons_append, List.dropWhile_cons_of_neg (by simp [halnum hfirst])]
    dsimp only
    rw [← List.cons_append, if_pos hfirst, hfirst]
    have hall : ∀ b ∈ first :: rest,
        (decide (isAsciiDigit b = true) && isAsciiAlphanumeric b) = true := fun b hb => by
      simp [hdigits b hb, halnum (hdigits b hb)]
    have htake : behind.takeWhile
        (fun b => decide (isAsciiDigit b = true) && isAsciiAlphanumeric b) = [] := by
      cases behind with
      | nil => rfl
      | cons b behind => simp [hbehind b rfl]
    have hdrop : behind.dropWhile
        (fun b => decide (isAsciiDigit b = true) && isAsciiAlphanumeric b) = behind := by
      cases behind with
      | nil => rfl
      | cons b behind => simp [hbehind b rfl]
    rw [List.takeWhile_append_of_pos hall, List.dropWhile_append_of_pos hall, htake, hdrop,
      List.append_nil]
  rw [partsOf_eq, hnext]

/-- The parts of a dotted version are its numbers. -/
theorem versionParts_dotted {numbers : List (List Char)} (h : ∀ n ∈ numbers, IsNumeral n) :
    versionParts (dotted numbers) = numbers.map fun n => .number (numeralBytes n) := by
  show partsOf (utf8Bytes (dotted numbers)) = _
  rw [utf8Bytes, dotted, String.toList_ofList]
  induction numbers with
  | nil => rfl
  | cons number numbers ih =>
    obtain ⟨hne, hdigits⟩ := h number List.mem_cons_self
    have hbytes : numeralBytes number ≠ [] := fun hnil => hne (List.map_eq_nil_iff.1 hnil)
    cases numbers with
    | nil =>
      rw [List.intercalate_singleton, utf8Bytes_numeral hdigits]
      have hparts : partsOf (numeralBytes number ++ []) = _ :=
        partsOf_numeral hbytes (isAsciiDigit_numeralBytes hdigits) (by simp)
      rwa [List.append_nil] at hparts
    | cons number' numbers =>
      rw [List.intercalate_cons_cons, List.flatMap_append, List.flatMap_append,
        utf8Bytes_numeral hdigits]
      have hdot : ['.'].flatMap String.utf8EncodeChar = [46] := rfl
      have hbehind (rest : List UInt8) : ∀ b ∈ (46 :: rest).head?, isAsciiDigit b = false := by
        intro b hb
        obtain rfl : 46 = b := Option.some.inj hb
        rfl
      rw [hdot, List.append_assoc, List.singleton_append,
        partsOf_numeral hbytes (isAsciiDigit_numeralBytes hdigits) (hbehind _), partsOf_dot,
        ih fun n hn => h n (List.mem_cons_of_mem _ hn)]
      rfl

/-- The zeros among the numbers are the zeros among the parts. -/
theorem all_isZero {numbers : List (List Char)} (h : ∀ n ∈ numbers, IsNumeral n) :
    (numbers.map fun n => VersionPart.number (numeralBytes n)).all VersionPart.isZero
      = (numbers.map numeralValue).all (· = 0) := by
  induction numbers with
  | nil => rfl
  | cons number numbers ih =>
    obtain ⟨-, hdigits⟩ := h number List.mem_cons_self
    have hsame : (VersionPart.number (numeralBytes number)).isZero
        = decide (numeralValue number = 0) := by
      rw [Bool.eq_iff_iff, decide_eq_true_eq, ← readDigits_numeralBytes hdigits]
      exact VersionPart.readDigits_eq_zero_iff (isAsciiDigit_numeralBytes hdigits)
    rw [List.map_cons, List.map_cons, List.all_cons, List.all_cons, hsame,
      ih fun n hn => h n (List.mem_cons_of_mem _ hn)]

/-- **Dotted numbers are compared number by number**, and a missing number is a zero. -/
theorem compareVersions_dotted {left right : List (List Char)} (hleft : ∀ n ∈ left, IsNumeral n)
    (hright : ∀ n ∈ right, IsNumeral n) :
    compareVersions (dotted left) (dotted right)
      = comparePadded compare (· = 0) (left.map numeralValue) (right.map numeralValue) := by
  rw [compareVersions, versionParts_dotted hleft, versionParts_dotted hright]
  induction left generalizing right with
  | nil =>
    rw [List.map_nil, List.map_nil, comparePadded_nil, comparePadded_nil, all_isZero hright]
  | cons a left ih =>
    cases right with
    | nil =>
      rw [List.map_nil, List.map_nil, comparePadded_right_nil, comparePadded_right_nil,
        all_isZero hleft]
    | cons b right =>
      obtain ⟨-, ha⟩ := hleft a List.mem_cons_self
      obtain ⟨-, hb⟩ := hright b List.mem_cons_self
      rw [List.map_cons, List.map_cons, List.map_cons, List.map_cons, comparePadded_cons_cons,
        comparePadded_cons_cons, ih (fun n hn => hleft n (List.mem_cons_of_mem _ hn))
          fun n hn => hright n (List.mem_cons_of_mem _ hn),
        ← readDigits_numeralBytes ha, ← readDigits_numeralBytes hb]
      exact congrArg (Ordering.then · _) (VersionPart.compareNumbers_eq
        (isAsciiDigit_numeralBytes ha) (isAsciiDigit_numeralBytes hb))

end Superiority.Updater
