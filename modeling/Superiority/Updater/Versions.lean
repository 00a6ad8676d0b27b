import Superiority.Library.Checked
import Superiority.Library.Padded
import Superiority.Updater.Appcast
import Superiority.Utf8

/-!
# Comparing versions

A version is read as runs of digits and runs of letters; everything else only separates them.
`compareLoop` is the loop of `compare_versions` over the two readers, which slice the strings. It
always ends, and no slice cuts a character (`compareLoop_eq`), with what `comparePadded` says of the
parts of the two versions.
-/

namespace Superiority.Updater

open Std

/-! ## Parts -/

def isAsciiDigit (b : UInt8) : Bool := 48 ≤ b && b ≤ 57

def isAsciiAlphabetic (b : UInt8) : Bool := (65 ≤ b && b ≤ 90) || (97 ≤ b && b ≤ 122)

def isAsciiAlphanumeric (b : UInt8) : Bool := isAsciiDigit b || isAsciiAlphabetic b

/-- `to_ascii_lowercase`, on a byte. -/
def toAsciiLowercase (b : UInt8) : UInt8 := if 65 ≤ b && b ≤ 90 then b + 32 else b

/-- `VersionPart`, with the bytes of the string. -/
inductive VersionPart where
  | number (value : List UInt8)
  | text (value : List UInt8)
  deriving DecidableEq, Repr

namespace VersionPart

/-- `is_zero`. -/
def isZero : VersionPart → Bool
  | number value => value.all (· = 48)
  | text value => value.isEmpty

/-- `trim_start_matches('0')`. -/
def trimZeros (value : List UInt8) : List UInt8 := value.dropWhile (· = 48)

/-- The comparison of two numbers: by their lengths first, without leading zeros. -/
def compareNumbers (left right : List UInt8) : Ordering :=
  let left := trimZeros left
  let right := trimZeros right
  (compare left.length right.length).then (compare left right)

/-- `VersionPart::cmp`. -/
def cmp : VersionPart → VersionPart → Ordering
  | number left, number right => compareNumbers left right
  | number _, text _ => .gt
  | text _, number _ => .lt
  | text left, text right => compare (left.map toAsciiLowercase) (right.map toAsciiLowercase)

end VersionPart

/-! ## Reading the parts -/

/-- `str::is_char_boundary`. -/
def isCharBoundary (bytes : List UInt8) (index : Nat) : Bool :=
  index = 0 || (match bytes[index]? with
    | none => index = bytes.length
    | some b => !continuesUtf8 b)

/-- `&value[start..stop]`. -/
def sliceStr (bytes : List UInt8) (start stop : Nat) : Checked Empty (List UInt8) :=
  if start ≤ stop && isCharBoundary bytes start && isCharBoundary bytes stop then
    Checked.slice bytes start stop
  else .error .panic

/-- `VersionParts`, with the bytes of the string. -/
structure VersionParts where
  value : List UInt8
  offset : Nat := 0

/-- `VersionParts::next`: separators are passed over, then a run of digits or of letters is read. -/
def VersionParts.next (p : VersionParts) : Checked Empty (Option VersionPart × VersionParts) :=
  let start := p.offset
    + ((p.value.drop p.offset).takeWhile fun b => !isAsciiAlphanumeric b).length
  match p.value[start]? with
  | none => .ok (none, { p with offset := start })
  | some first =>
    let numeric := isAsciiDigit first
    let stop := start + ((p.value.drop start).takeWhile fun b =>
      isAsciiDigit b = numeric && isAsciiAlphanumeric b).length
    match sliceStr p.value start stop with
    | .error e => .error e
    | .ok part => .ok (some (if numeric then .number part else .text part),
        { p with offset := stop })

/-- The loop of `compare_versions`, for as many rounds as given. -/
def compareLoop : Nat → VersionParts → VersionParts → Option (Checked Empty Ordering)
  | 0, _, _ => none
  | rounds + 1, left, right =>
    match left.next, right.next with
    | .ok (none, _), .ok (none, _) => some (.ok .eq)
    | .ok (some part, left), .ok (none, right) =>
      if part.isZero then compareLoop rounds left right else some (.ok .gt)
    | .ok (none, left), .ok (some part, right) =>
      if part.isZero then compareLoop rounds left right else some (.ok .lt)
    | .ok (some leftPart, left), .ok (some rightPart, right) =>
      if leftPart.cmp rightPart ≠ .eq then some (.ok (leftPart.cmp rightPart))
      else compareLoop rounds left right
    | .error e, _ => some (.error e)
    | _, .error e => some (.error e)

/-! ## The parts of a version -/

/-- The first part of what is left of a version, and what is left after it. -/
def nextPart (bytes : List UInt8) : Option (VersionPart × List UInt8) :=
  match bytes.dropWhile fun b => !isAsciiAlphanumeric b with
  | [] => none
  | first :: rest =>
    let same := fun b => isAsciiDigit b = isAsciiDigit first && isAsciiAlphanumeric b
    let part := (first :: rest).takeWhile same
    some (if isAsciiDigit first then .number part else .text part, (first :: rest).dropWhile same)

/-- The parts, no more than given. -/
def partsFrom : Nat → List UInt8 → List VersionPart
  | 0, _ => []
  | limit + 1, bytes =>
    match nextPart bytes with
    | none => []
    | some (part, rest) => part :: partsFrom limit rest

/-- The parts of a version. -/
def versionParts (version : String) : List VersionPart :=
  partsFrom (utf8Bytes version).length (utf8Bytes version)

/-- What `compare_versions` returns. -/
def compareVersions (left right : String) : Ordering :=
  comparePadded VersionPart.cmp VersionPart.isZero (versionParts left) (versionParts right)

/-! ## What the readers read -/

/-- A byte of ASCII starts a character. -/
theorem lt_of_isAsciiAlphanumeric {b : UInt8} (h : isAsciiAlphanumeric b = true) : b < 0x80 := by
  simp only [isAsciiAlphanumeric, isAsciiDigit, isAsciiAlphabetic, Bool.or_eq_true,
    Bool.and_eq_true, decide_eq_true_eq, UInt8.le_iff_toNat_le] at h
  rw [UInt8.lt_iff_toNat_lt]
  have h57 : (57 : UInt8).toNat = 57 := rfl
  have h90 : (90 : UInt8).toNat = 90 := rfl
  have h122 : (122 : UInt8).toNat = 122 := rfl
  have h128 : (0x80 : UInt8).toNat = 128 := rfl
  omega

theorem continuesUtf8_of_lt {b : UInt8} (h : b < 0x80) : continuesUtf8 b = false := by
  rw [UInt8.lt_iff_toNat_lt] at h
  rw [← Bool.not_eq_true]
  simp only [continuesUtf8, Bool.and_eq_true, decide_eq_true_eq, UInt8.le_iff_toNat_le]
  have h128 : (0x80 : UInt8).toNat = 128 := rfl
  omega

/-- The run of digits or letters that a byte starts. -/
def sameRun (first b : UInt8) : Bool :=
  isAsciiDigit b = isAsciiDigit first && isAsciiAlphanumeric b

/-- A run is cut out at the boundaries of characters. -/
theorem sliceStr_run {front run behind : List UInt8}
    (hbytes : StartsAfterAscii (front ++ (run ++ behind))) (hrun : run ≠ [])
    (halnum : ∀ b ∈ run, isAsciiAlphanumeric b = true) :
    sliceStr (front ++ (run ++ behind)) front.length (front.length + run.length) = .ok run := by
  have hstart : isCharBoundary (front ++ (run ++ behind)) front.length = true := by
    obtain ⟨first, rest, rfl⟩ := List.exists_cons_of_ne_nil hrun
    have hfirst := continuesUtf8_of_lt (lt_of_isAsciiAlphanumeric (halnum first List.mem_cons_self))
    simp [isCharBoundary, hfirst]
  have hstop : isCharBoundary (front ++ (run ++ behind)) (front.length + run.length) = true := by
    cases behind with
    | nil => simp [isCharBoundary]
    | cons b behind =>
      have hjoin := (List.isChain_append.1 (List.isChain_append.1 hbytes).2.1).2.2
      have hlast := run.getLast_mem hrun
      have hb : continuesUtf8 b = false :=
        hjoin _ (List.getLast?_eq_getLast_of_ne_nil hrun) b rfl
          (lt_of_isAsciiAlphanumeric (halnum _ hlast))
      simp [isCharBoundary, hb]
  unfold sliceStr
  rw [if_pos (by simp [hstart, hstop]), Checked.slice_eq (by simp), List.drop_left,
    Nat.add_sub_cancel_left, List.take_left]

/-- **A reader never panics**, and reads the next part of what is left. -/
theorem next_eq {bytes : List UInt8} (hbytes : StartsAfterAscii bytes) {offset : Nat}
    (hoffset : offset ≤ bytes.length) :
    (VersionParts.mk bytes offset).next = .ok (match nextPart (bytes.drop offset) with
      | none => (none, ⟨bytes, bytes.length⟩)
      | some (part, rest) => (some part, ⟨bytes, bytes.length - rest.length⟩)) ∧
    ∀ part rest, nextPart (bytes.drop offset) = some (part, rest) →
      rest.length < (bytes.drop offset).length ∧
        bytes.drop (bytes.length - rest.length) = rest := by
  have hfront : bytes.take offset ++ bytes.drop offset = bytes := List.take_append_drop _ _
  have hlength : (bytes.take offset).length = offset := List.length_take_of_le hoffset
  generalize hfrom : bytes.drop offset = tail at hfront
  generalize hbefore : bytes.take offset = before at hfront hlength
  subst hfront
  have hgap : tail.takeWhile (fun b => !isAsciiAlphanumeric b)
      ++ tail.dropWhile (fun b => !isAsciiAlphanumeric b) = tail :=
    List.takeWhile_append_dropWhile
  unfold VersionParts.next nextPart
  dsimp only
  rw [hfrom]
  generalize tail.takeWhile (fun b => !isAsciiAlphanumeric b) = gap at hgap
  have hhead := List.head?_dropWhile_not (fun b => !isAsciiAlphanumeric b) tail
  generalize tail.dropWhile (fun b => !isAsciiAlphanumeric b) = after at hgap hhead
  subst hgap
  have hstart : (before ++ (gap ++ after))[offset + gap.length]? = after.head? := by
    rw [← hlength, ← List.append_assoc, ← List.length_append, List.getElem?_append_right
      (Nat.le_refl _), Nat.sub_self, List.head?_eq_getElem?]
  rw [hstart]
  cases after with
  | nil =>
    refine ⟨?_, nofun⟩
    simp [hlength]
  | cons first rest =>
    have hfirst : isAsciiAlphanumeric first = true := by simpa using hhead
    dsimp only [List.head?_cons]
    have hdrop : (before ++ (gap ++ first :: rest)).drop (offset + gap.length)
        = first :: rest := by
      rw [← hlength, ← List.append_assoc, ← List.length_append, List.drop_left]
    rw [hdrop]
    have hsame : (fun b => decide (isAsciiDigit b = isAsciiDigit first) && isAsciiAlphanumeric b)
        = sameRun first := rfl
    rw [hsame]
    have hsplit : (first :: rest).takeWhile (sameRun first) ++ (first :: rest).dropWhile
        (sameRun first) = first :: rest := List.takeWhile_append_dropWhile
    have hrun : (first :: rest).takeWhile (sameRun first) ≠ [] := by
      simp [sameRun, hfirst]
    have halnum : ∀ b ∈ (first :: rest).takeWhile (sameRun first),
        isAsciiAlphanumeric b = true := by
      intro b hb
      have hb' := List.all_eq_true.1 List.all_takeWhile b hb
      simp only [sameRun, Bool.and_eq_true] at hb'
      exact hb'.2
    generalize (first :: rest).takeWhile (sameRun first) = run at hsplit hrun halnum
    generalize (first :: rest).dropWhile (sameRun first) = behind at hsplit
    rw [← hsplit] at hbytes ⊢
    rw [← List.append_assoc] at hbytes
    have hslice := sliceStr_run hbytes hrun halnum
    rw [List.append_assoc, List.length_append, hlength] at hslice
    rw [hslice]
    have hpos := List.length_pos_iff.2 hrun
    refine ⟨?_, ?_⟩
    · simp only [List.length_append, hlength]
      congr 3
      omega
    · intro part rest' h
      obtain ⟨-, rfl⟩ := Prod.mk.inj (Option.some.inj h)
      constructor
      · simp only [List.length_append]
        omega
      · have hall : before ++ (gap ++ (run ++ behind)) = (before ++ gap ++ run) ++ behind := by
          simp only [List.append_assoc]
        rw [hall, List.length_append, Nat.add_sub_cancel, List.drop_left]

/-! ## The loop -/

theorem nextPart_length {bytes : List UInt8} {read : VersionPart × List UInt8}
    (h : nextPart bytes = some read) : read.2.length < bytes.length := by
  have hgap := (bytes.dropWhile_sublist fun b => !isAsciiAlphanumeric b).length_le
  have hhead := List.head?_dropWhile_not (fun b => !isAsciiAlphanumeric b) bytes
  unfold nextPart at h
  generalize bytes.dropWhile (fun b => !isAsciiAlphanumeric b) = after at h hgap hhead
  cases after with
  | nil => cases h
  | cons first tail =>
    have hfirst : isAsciiAlphanumeric first = true := by simpa using hhead
    obtain rfl := Option.some.inj h
    dsimp only
    have hrest := (tail.dropWhile_sublist fun b =>
      decide (isAsciiDigit b = isAsciiDigit first) && isAsciiAlphanumeric b).length_le
    rw [List.dropWhile_cons_of_pos (by simp [hfirst])]
    rw [List.length_cons] at hgap
    omega

/-- All parts of what is left of a version. -/
def partsOf (bytes : List UInt8) : List VersionPart := partsFrom bytes.length bytes

theorem partsFrom_eq {limit : Nat} {bytes : List UInt8} (h : bytes.length ≤ limit) :
    partsFrom limit bytes = partsOf bytes := by
  have hsame (limit limit' : Nat) (bytes : List UInt8) (h : bytes.length ≤ limit)
      (h' : bytes.length ≤ limit') : partsFrom limit bytes = partsFrom limit' bytes := by
    induction limit generalizing bytes limit' with
    | zero =>
      obtain rfl := List.eq_nil_of_length_eq_zero (Nat.le_zero.1 h)
      cases limit' <;> rfl
    | succ limit ih =>
      cases limit' with
      | zero =>
        obtain rfl := List.eq_nil_of_length_eq_zero (Nat.le_zero.1 h')
        rfl
      | succ limit' =>
        unfold partsFrom
        cases hnext : nextPart bytes with
        | none => rfl
        | some read =>
          have hless := nextPart_length hnext
          dsimp only
          rw [ih limit' read.2 (by omega) (by omega)]
  exact hsame limit bytes.length bytes h (Nat.le_refl _)

theorem partsOf_eq (bytes : List UInt8) : partsOf bytes =
    match nextPart bytes with
    | none => []
    | some (part, rest) => part :: partsOf rest := by
  cases hnext : nextPart bytes with
  | none =>
    unfold partsOf
    cases bytes.length with
    | zero => rfl
    | succ n =>
      unfold partsFrom
      rw [hnext]
  | some read =>
    have hless := nextPart_length hnext
    dsimp only
    unfold partsOf
    obtain ⟨n, hn⟩ : ∃ n, bytes.length = n + 1 := ⟨bytes.length - 1, by omega⟩
    rw [hn]
    conv_lhs => unfold partsFrom
    rw [hnext]
    dsimp only
    rw [partsFrom_eq (by omega)]
    rfl

/-- What two readers that go on compare. -/
def compareRest (left right : List UInt8) : Ordering :=
  comparePadded VersionPart.cmp VersionPart.isZero (partsOf left) (partsOf right)

/-- **The loop ends without a panic**, in no more rounds than there are bytes left. -/
theorem compareLoop_rest {left right : List UInt8} (hleft : StartsAfterAscii left)
    (hright : StartsAfterAscii right) {rounds i j : Nat} (hi : i ≤ left.length)
    (hj : j ≤ right.length)
    (hrounds : (left.drop i).length + (right.drop j).length < rounds) :
    compareLoop rounds ⟨left, i⟩ ⟨right, j⟩
      = some (.ok (compareRest (left.drop i) (right.drop j))) := by
  induction rounds generalizing i j with
  | zero => omega
  | succ rounds ih =>
    obtain ⟨hnext, hrest⟩ := next_eq hleft hi
    obtain ⟨hnext', hrest'⟩ := next_eq hright hj
    have hend (bytes : List UInt8) : bytes.drop bytes.length = [] := List.drop_length
    have hnone : partsOf [] = [] := rfl
    unfold compareLoop compareRest
    rw [hnext, hnext', partsOf_eq (left.drop i), partsOf_eq (right.drop j)]
    cases hpart : nextPart (left.drop i) with
    | none =>
      cases hpart' : nextPart (right.drop j) with
      | none => rfl
      | some read' =>
        obtain ⟨hless, hdrop⟩ := hrest' read'.1 read'.2 hpart'
        dsimp only
        have hcontinue := ih (i := left.length) (j := right.length - read'.2.length) (Nat.le_refl _)
          (Nat.sub_le _ _) (by rw [hend, hdrop, List.length_nil]; omega)
        rw [hend, hdrop] at hcontinue
        rw [hcontinue]
        unfold compareRest
        rw [hnone, comparePadded_nil, comparePadded_nil, List.all_cons]
        cases read'.1.isZero <;> rfl
    | some read =>
      obtain ⟨hless, hdrop⟩ := hrest read.1 read.2 hpart
      cases hpart' : nextPart (right.drop j) with
      | none =>
        dsimp only
        have hcontinue := ih (i := left.length - read.2.length) (j := right.length)
          (Nat.sub_le _ _) (Nat.le_refl _) (by rw [hend, hdrop, List.length_nil]; omega)
        rw [hend, hdrop] at hcontinue
        rw [hcontinue]
        unfold compareRest
        rw [hnone, comparePadded_right_nil, comparePadded_right_nil, List.all_cons]
        cases read.1.isZero <;> rfl
      | some read' =>
        obtain ⟨hless', hdrop'⟩ := hrest' read'.1 read'.2 hpart'
        dsimp only
        have hcontinue := ih (i := left.length - read.2.length)
          (j := right.length - read'.2.length) (Nat.sub_le _ _) (Nat.sub_le _ _)
          (by rw [hdrop, hdrop']; omega)
        rw [hdrop, hdrop'] at hcontinue
        rw [hcontinue, comparePadded_cons_cons]
        unfold compareRest
        cases read.1.cmp read'.1 <;> rfl

/-- **`compare_versions` always returns**, and no slice cuts a character. -/
theorem compareLoop_eq (left right : String) {rounds : Nat}
    (h : (utf8Bytes left).length + (utf8Bytes right).length < rounds) :
    compareLoop rounds ⟨utf8Bytes left, 0⟩ ⟨utf8Bytes right, 0⟩
      = some (.ok (compareVersions left right)) :=
  compareLoop_rest (startsAfterAscii_utf8Bytes left) (startsAfterAscii_utf8Bytes right)
    (Nat.zero_le _) (Nat.zero_le _) h

end Superiority.Updater
