import Superiority.Updater.Numerals

/-!
# The order of versions, and the release that is offered

The parts of versions are ordered, and zeros count as nothing; but a part of letters is below a zero
and above nothing, so `1` and `1.0` are equal while `1.a` lies above the one and below the other.
**`orders_iff`**: among any versions, `compare_versions` is a total preorder and the release that is
offered is the newest one exactly if no three of them mix like that.
-/

namespace Superiority.Updater

open Std

namespace VersionPart

instance : TransCmp compareNumbers :=
  inferInstanceAs (TransCmp (compareLex (compareOn fun value => (trimZeros value).length)
    (compareOn trimZeros)))

theorem cmp_number (left right : List UInt8) :
    cmp (number left) (number right) = compareNumbers left right := rfl

theorem cmp_text (left right : List UInt8) : cmp (text left) (text right)
    = compareOn (List.map toAsciiLowercase) left right := rfl

instance : TransCmp cmp where
  eq_swap {a b} := by
    cases a with
    | number left =>
      cases b with
      | number right =>
        rw [cmp_number, cmp_number]
        exact OrientedCmp.eq_swap
      | text right => rfl
    | text left =>
      cases b with
      | number right => rfl
      | text right =>
        rw [cmp_text, cmp_text]
        exact OrientedCmp.eq_swap
  isLE_trans {a b c} hab hbc := by
    cases a with
    | number left =>
      cases b with
      | text middle => cases hab
      | number middle =>
        cases c with
        | text right => cases hbc
        | number right =>
          rw [cmp_number] at hab hbc ⊢
          exact TransCmp.isLE_trans hab hbc
    | text left =>
      cases c with
      | number right => rfl
      | text right =>
        cases b with
        | number middle => cases hbc
        | text middle =>
          rw [cmp_text] at hab hbc ⊢
          exact TransCmp.isLE_trans hab hbc

/-- The zeros among the parts that can be read: no part of letters is empty. -/
def isZeroNumber : VersionPart → Bool
  | number value => value.all (· = 48)
  | text _ => false

instance : LawfulZero cmp isZeroNumber where
  eq_of_isZero {a b} ha hb := by
    cases a with
    | text left => cases ha
    | number left =>
      cases b with
      | text right => cases hb
      | number right =>
        show compareNumbers left right = .eq
        unfold compareNumbers
        rw [(trimZeros_eq_nil_iff left).2 ha, (trimZeros_eq_nil_iff right).2 hb]
        rfl
  isZero_congr {a b} h := by
    cases a with
    | text left =>
      cases b with
      | text right => rfl
      | number right => cases h
    | number left =>
      cases b with
      | text right => cases h
      | number right =>
        have hsame : trimZeros left = trimZeros right := by
          have hthen : compareNumbers left right = .eq := h
          exact LawfulEqCmp.eq_of_compare (then_eq_eq.1 hthen).2
        show (number left).isZero = (number right).isZero
        rw [Bool.eq_iff_iff, ← trimZeros_eq_nil_iff, ← trimZeros_eq_nil_iff, hsame]

end VersionPart

open VersionPart

/-! ## The comparison of versions -/

theorem nextPart_isZero {bytes : List UInt8} {read : VersionPart × List UInt8}
    (h : nextPart bytes = some read) : read.1.isZero = read.1.isZeroNumber := by
  have hhead := List.head?_dropWhile_not (fun b => !isAsciiAlphanumeric b) bytes
  unfold nextPart at h
  generalize bytes.dropWhile (fun b => !isAsciiAlphanumeric b) = after at h hhead
  cases after with
  | nil => cases h
  | cons first tail =>
    have hfirst : isAsciiAlphanumeric first = true := by simpa using hhead
    obtain rfl := Option.some.inj h
    cases hdigit : isAsciiDigit first with
    | true => rfl
    | false =>
      rw [if_neg Bool.false_ne_true, List.takeWhile_cons_of_pos (by simp [hdigit, hfirst])]
      rfl

theorem partsOf_isZero (bytes : List UInt8) :
    ∀ part ∈ partsOf bytes, part.isZero = part.isZeroNumber := by
  induction hlength : bytes.length using Nat.strong_induction_on generalizing bytes with
  | _ n ih =>
    rw [partsOf_eq]
    cases hnext : nextPart bytes with
    | none => exact nofun
    | some read =>
      have hless := nextPart_length hnext
      intro part hpart
      rcases List.mem_cons.1 hpart with rfl | hpart
      · exact nextPart_isZero hnext
      · exact ih _ (by omega) read.2 rfl part hpart

theorem compareVersions_eq (left right : String) : compareVersions left right
    = comparePadded cmp isZeroNumber (versionParts left) (versionParts right) :=
  comparePadded_congr (partsOf_isZero _) (partsOf_isZero _)

/-- The version `x` ends before `y`, which goes on with zeros, and where `y` has one of these `z` has
letters, after parts equal to those of `y`. -/
def MixesVersions (x y z : String) : Prop :=
  Mixes cmp isZeroNumber (versionParts x) (versionParts y) (versionParts z)

theorem isPreorderOn_compareVersions {versions : List String} :
    IsPreorderOn compareVersions versions ↔
      ∀ x ∈ versions, ∀ y ∈ versions, ∀ z ∈ versions, ¬ MixesVersions x y z := by
  have hparts : IsPreorderOn (comparePadded cmp isZeroNumber) (versions.map versionParts) ↔ _ :=
    isPreorderOn_iff
  have hmap : IsPreorderOn compareVersions versions ↔
      IsPreorderOn (comparePadded cmp isZeroNumber) (versions.map versionParts) := by
    constructor
    · intro h
      refine ⟨?_, ?_, ?_⟩
      · simp only [List.forall_mem_map, ← compareVersions_eq]
        exact h.swap
      · simp only [List.forall_mem_map, ← compareVersions_eq]
        exact h.isGE_trans
      · simp only [List.forall_mem_map, ← compareVersions_eq]
        exact h.eq_trans
    · intro ⟨hswap, hge, heq⟩
      simp only [List.forall_mem_map, ← compareVersions_eq] at hswap hge heq
      exact ⟨hswap, hge, heq⟩
  rw [hmap, hparts]
  simp only [List.forall_mem_map]
  rfl

/-! ## The release that is offered -/

/-- The filter of `latest_newer_than` for the current build. -/
def isNewer (currentBuild : String) (release : Release) : Bool :=
  compareVersions release.build currentBuild = .gt

/-- The filter of `latest_newer_than` for the system's version. -/
def isCompatible (systemVersion : Option String) (release : Release) : Bool :=
  release.minimumSystemVersion.all fun minimum =>
    systemVersion.all fun current => compareVersions current minimum ≠ .lt

/-- `Appcast::latest_newer_than`. -/
def latestNewerThan (releases : List Release) (currentBuild : String)
    (systemVersion : Option String) : Option Release :=
  maxBy (fun left right => compareVersions left.build right.build)
    ((releases.filter (isNewer currentBuild)).filter (isCompatible systemVersion))

theorem mem_filter_newer {releases : List Release} {currentBuild : String}
    {systemVersion : Option String} {release : Release} :
    release ∈ (releases.filter (isNewer currentBuild)).filter (isCompatible systemVersion) ↔
      release ∈ releases ∧ isNewer currentBuild release = true ∧
        isCompatible systemVersion release = true := by
  rw [List.mem_filter, List.mem_filter, and_assoc]

/-- No release is newer and compatible. -/
theorem latestNewerThan_eq_none_iff {releases : List Release} {currentBuild : String}
    {systemVersion : Option String} : latestNewerThan releases currentBuild systemVersion = none ↔
      ∀ release ∈ releases, isNewer currentBuild release = true →
        ¬ isCompatible systemVersion release = true := by
  rw [latestNewerThan, ← Option.not_isSome_iff_eq_none, maxBy_isSome_iff, not_not,
    List.eq_nil_iff_forall_not_mem]
  simp only [mem_filter_newer, not_and]

theorem of_latestNewerThan {releases : List Release} {currentBuild : String}
    {systemVersion : Option String} {release : Release}
    (h : latestNewerThan releases currentBuild systemVersion = some release) :
    release ∈ releases ∧ isNewer currentBuild release = true ∧
      isCompatible systemVersion release = true :=
  mem_filter_newer.1 (mem_of_maxBy h)

/-- **No compatible release is newer than the one offered**, if the versions are ordered. -/
theorem isGE_latestNewerThan {versions : List String} (h : IsPreorderOn compareVersions versions)
    {releases : List Release} (hbuilds : ∀ release ∈ releases, release.build ∈ versions)
    {currentBuild : String} (hcurrent : currentBuild ∈ versions) {systemVersion : Option String}
    {release : Release}
    (hlatest : latestNewerThan releases currentBuild systemVersion = some release) :
    ∀ other ∈ releases, isCompatible systemVersion other = true →
      (compareVersions release.build other.build).isGE := by
  intro other hother hcompatible
  obtain ⟨hrelease, hnewer, -⟩ := of_latestNewerThan hlatest
  by_cases hgt : isNewer currentBuild other = true
  · have hpreorder : IsPreorderOn
        (fun left right : Release => compareVersions left.build right.build)
        ((releases.filter (isNewer currentBuild)).filter (isCompatible systemVersion)) := by
      refine (h.mono fun build hbuild => ?_).comap
      obtain ⟨release, hmem, rfl⟩ := List.mem_map.1 hbuild
      exact hbuilds release (mem_filter_newer.1 hmem).1
    exact isGE_maxBy hpreorder hlatest other (mem_filter_newer.2 ⟨hother, hgt, hcompatible⟩)
  · -- a release that is no newer than the current one is below the one offered
    have hbuild := hbuilds other hother
    have hgreater : compareVersions release.build currentBuild = .gt := of_decide_eq_true hnewer
    refine h.isGE_trans _ (hbuilds release hrelease) _ hcurrent _ hbuild
      (by rw [hgreater]; rfl) ?_
    rw [h.swap _ hbuild _ hcurrent]
    rw [isNewer, decide_eq_true_eq] at hgt
    revert hgt
    cases compareVersions other.build currentBuild <;> simp

/-! ## Where the versions are ordered -/

/-- What is asked of the comparison of these versions, and of the release offered among them. -/
structure Orders (versions : List String) : Prop where
  preorder : IsPreorderOn compareVersions versions
  returns : ∀ left ∈ versions, ∀ right ∈ versions, ∃ rounds,
    compareLoop rounds ⟨utf8Bytes left, 0⟩ ⟨utf8Bytes right, 0⟩
      = some (.ok (compareVersions left right))
  numeric : ∀ left right : List (List Char), (∀ n ∈ left, IsNumeral n) →
    (∀ n ∈ right, IsNumeral n) → dotted left ∈ versions → dotted right ∈ versions →
      (compareVersions (dotted left) (dotted right) = .lt ↔
        Precedes (left.map numeralValue) (right.map numeralValue))
  none_iff : ∀ (releases : List Release) (currentBuild : String) (systemVersion : Option String),
    (∀ release ∈ releases, release.build ∈ versions) → currentBuild ∈ versions →
      (latestNewerThan releases currentBuild systemVersion = none ↔
        ∀ release ∈ releases, isNewer currentBuild release = true →
          ¬ isCompatible systemVersion release = true)
  newest : ∀ (releases : List Release) (currentBuild : String) (systemVersion : Option String),
    (∀ release ∈ releases, release.build ∈ versions) → currentBuild ∈ versions →
      ∀ release, latestNewerThan releases currentBuild systemVersion = some release →
        release ∈ releases ∧ isNewer currentBuild release = true ∧
          isCompatible systemVersion release = true ∧
            ∀ other ∈ releases, isCompatible systemVersion other = true →
              (compareVersions release.build other.build).isGE

/-- **The versions are ordered exactly if no three of them mix**, and then the release offered is
the newest one. -/
theorem orders_iff (versions : List String) : Orders versions ↔
    ∀ x ∈ versions, ∀ y ∈ versions, ∀ z ∈ versions, ¬ MixesVersions x y z := by
  constructor
  · intro h
    exact isPreorderOn_compareVersions.1 h.preorder
  · intro h
    have hpreorder := isPreorderOn_compareVersions.2 h
    refine ⟨hpreorder, ?_, ?_, ?_, ?_⟩
    · intro left _ right _
      exact ⟨_, compareLoop_eq left right (Nat.lt_succ_self _)⟩
    · intro left right hleft hright _ _
      rw [compareVersions_dotted hleft hright]
      exact comparePadded_eq_lt_iff
    · intro releases currentBuild systemVersion _ _
      exact latestNewerThan_eq_none_iff
    · intro releases currentBuild systemVersion hbuilds hcurrent release hlatest
      obtain ⟨hmem, hnewer, hcompatible⟩ := of_latestNewerThan hlatest
      exact ⟨hmem, hnewer, hcompatible,
        isGE_latestNewerThan hpreorder hbuilds hcurrent hlatest⟩

/-- The version `1` is equal to `1.0`, which is above `1.a`, which is above `1`. -/
theorem not_orders : ¬ ∀ versions, Orders versions := by
  intro h
  have hge := (h ["1", "1.0", "1.a"]).preorder.isGE_trans "1" (by simp) "1.0" (by simp) "1.a"
    (by simp) (by decide +kernel) (by decide +kernel)
  revert hge
  decide +kernel

end Superiority.Updater
