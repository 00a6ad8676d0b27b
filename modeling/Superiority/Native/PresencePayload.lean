import Superiority.Library.Fallible
import Superiority.Native.PresenceInvariant

/-!
# The payload of a presence update

What an update carries, said without cursors: `Cut` cuts the field data into consecutive pieces, one
for each handle, of the announced fixed size or of the next variable size, with nothing left over.

**`apply_atomic`** – a refused update leaves the directory as it was; an accepted one whose handles
were all announced is cut in this way, and before any two presences are folded the values of its
representative are the old ones without the cleared handles, overwritten by the pieces.
-/

namespace Superiority

open Std

namespace PresenceDirectory

variable {d : PresenceDirectory}

/-! ## Cutting the field data -/

/-- The handles take the variable sizes and the field data up, one piece each. -/
inductive Cut (d : PresenceDirectory) :
    List UInt32 → List UInt16 → List UInt8 → List (UInt32 × List UInt8) → Prop where
  | done : Cut d [] [] [] []
  | fixed {handle : UInt32} {field : PresenceField} {size : UInt16} {bytes data : List UInt8}
      {handles : List UInt32} {sizes : List UInt16} {pieces : List (UInt32 × List UInt8)} :
      d.fields[handle]? = some field → field.fixedSize = some size →
      bytes.length = size.toNat → Cut d handles sizes data pieces →
      Cut d (handle :: handles) sizes (bytes ++ data) ((handle, bytes) :: pieces)
  | varying {handle : UInt32} {field : PresenceField} {size : UInt16} {bytes data : List UInt8}
      {handles : List UInt32} {sizes : List UInt16} {pieces : List (UInt32 × List UInt8)} :
      d.fields[handle]? = some field → field.fixedSize = none →
      bytes.length = size.toNat → Cut d handles sizes data pieces →
      Cut d (handle :: handles) (size :: sizes) (bytes ++ data) ((handle, bytes) :: pieces)

theorem getRange_eq_some {value bytes : List UInt8} {start size : Nat}
    (h : getRange value start (start + size) = some bytes) :
    start + size ≤ value.length ∧ bytes.length = size ∧
      value.drop start = bytes ++ value.drop (start + size) := by
  unfold getRange at h
  split_ifs at h with hrange
  obtain rfl := Option.some.inj h
  refine ⟨hrange.2, ?_, ?_⟩
  · simp only [Nat.add_sub_cancel_left, List.length_take, List.length_drop]
    omega
  · rw [Nat.add_sub_cancel_left, ← List.drop_drop, List.take_append_drop]

/-- One round of the loop over the handles, at a handle that was announced. -/
theorem readHandles_cons_ok {update : PresenceUpdate} {handle : UInt32} {handles : List UInt32}
    {scan result : PayloadScan} {field : PresenceField} (hfield : d.fields[handle]? = some field)
    (h : d.readHandles update (handle :: handles) scan = .ok result) :
    ∃ size variableIndex bytes,
      (field.fixedSize = some size ∧ variableIndex = scan.variableIndex ∨
        field.fixedSize = none ∧ update.variableSizes[scan.variableIndex]? = some size ∧
          variableIndex = scan.variableIndex + 1) ∧
      getRange update.fieldData scan.offset (scan.offset + size.toNat) = some bytes ∧
      d.readHandles update handles { scan with
        decoded := scan.decoded ++ [(handle, bytes)]
        offset := scan.offset + size.toNat
        variableIndex } = .ok result := by
  rw [readHandles, hfield] at h
  dsimp only at h
  cases hfixed : field.fixedSize with
  | some size =>
    simp only [hfixed, except_bind_ok, Except.ok.injEq, exists_eq_left'] at h
    split at h
    · cases h
    · next bytes hrange => exact ⟨size, _, bytes, Or.inl ⟨rfl, rfl⟩, hrange, h⟩
  | none =>
    cases hnext : update.variableSizes[scan.variableIndex]? with
    | none =>
      simp only [hfixed, hnext] at h
      cases h
    | some size =>
      simp only [hfixed, hnext, except_bind_ok, Except.ok.injEq, exists_eq_left'] at h
      split at h
      · cases h
      · next bytes hrange => exact ⟨size, _, bytes, Or.inr ⟨rfl, rfl, rfl⟩, hrange, h⟩

/-- A loop over announced handles that ends at the end of both lists has cut the rest of them. -/
theorem readHandles_cut {update : PresenceUpdate} {handles : List UInt32}
    {scan result : PayloadScan} (hannounced : ∀ handle ∈ handles, handle ∈ d.fields)
    (h : d.readHandles update handles scan = .ok result)
    (hoffset : result.offset = update.fieldData.length)
    (hvariable : result.variableIndex = update.variableSizes.length) :
    ∃ pieces, result.decoded = scan.decoded ++ pieces ∧
      d.Cut handles (update.variableSizes.drop scan.variableIndex)
        (update.fieldData.drop scan.offset) pieces := by
  induction handles generalizing scan with
  | nil =>
    obtain rfl := Except.ok.inj h
    refine ⟨[], by simp, ?_⟩
    rw [hoffset, hvariable, List.drop_length, List.drop_length]
    exact Cut.done
  | cons handle handles ih =>
    have hmem := hannounced handle List.mem_cons_self
    obtain ⟨field, hfield⟩ :=
      Option.isSome_iff_exists.1 (ExtTreeMap.mem_iff_isSome_getElem?.1 hmem)
    obtain ⟨size, variableIndex, bytes, hsize, hrange, hrest⟩ := readHandles_cons_ok hfield h
    obtain ⟨pieces, hdecoded, hcut⟩ :=
      ih (fun x hx => hannounced x (List.mem_cons_of_mem handle hx)) hrest
    obtain ⟨-, hbytes, hdata⟩ := getRange_eq_some hrange
    refine ⟨(handle, bytes) :: pieces, by simpa using hdecoded, ?_⟩
    rw [hdata]
    rcases hsize with ⟨hfixed, rfl⟩ | ⟨hfixed, hnext, rfl⟩
    · exact Cut.fixed hfield hfixed hbytes hcut
    · rw [List.drop_eq_getElem?_toList_append, hnext]
      exact Cut.varying hfield hfixed hbytes hcut

/-- The loop stops early only at a handle that was not announced. -/
theorem readHandles_unread {update : PresenceUpdate} {handles : List UInt32}
    {scan result : PayloadScan} (hannounced : ∀ handle ∈ handles, handle ∈ d.fields)
    (h : d.readHandles update handles scan = .ok result) : result.unread = scan.unread := by
  induction handles generalizing scan with
  | nil => rw [← Except.ok.inj h]
  | cons handle handles ih =>
    have hmem := hannounced handle List.mem_cons_self
    obtain ⟨field, hfield⟩ :=
      Option.isSome_iff_exists.1 (ExtTreeMap.mem_iff_isSome_getElem?.1 hmem)
    obtain ⟨size, variableIndex, bytes, -, -, hrest⟩ := readHandles_cons_ok hfield h
    have hrest := ih (fun x hx => hannounced x (List.mem_cons_of_mem handle hx)) hrest
    rw [hrest]

theorem readPayload_cut {update : PresenceUpdate} {decoded : List (UInt32 × List UInt8)}
    (hannounced : ∀ handle ∈ update.handles, handle ∈ d.fields)
    (h : d.readPayload update = .ok decoded) :
    d.Cut update.handles update.variableSizes update.fieldData decoded := by
  rw [readPayload, except_bind_ok] at h
  obtain ⟨scan, hscan, h⟩ := h
  have hunread := readHandles_unread hannounced hscan
  split_ifs at h with hleft
  obtain rfl := Except.ok.inj h
  simp only [hunread, Bool.not_false, Bool.true_and, Bool.or_eq_true, bne_iff_ne, not_or,
    not_not] at hleft
  obtain ⟨pieces, hdecoded, hcut⟩ := readHandles_cut hannounced hscan hleft.1 hleft.2
  rw [hdecoded]
  simpa using hcut

/-! ## Filing the pieces -/

/-- The directory an update has been filed in, before any presences are folded. -/
def filed (d : PresenceDirectory) (update : PresenceUpdate)
    (pieces : List (UInt32 × List UInt8)) : PresenceDirectory :=
  ((d.joined update).fileIds update (d.representative update)).fileValues update
    (d.representative update) pieces

/-- The values a representative has, none when it has no entry. -/
def valuesOf (d : PresenceDirectory) (id : UInt32) : FieldValues := d.values[id]?.getD ∅

theorem getElem?_foldl_erase (handles : List UInt32) (values : FieldValues) (handle : UInt32) :
    (handles.foldl (·.erase ·) values)[handle]? =
      if handle ∈ handles then none else values[handle]? := by
  induction handles generalizing values with
  | nil => simp
  | cons first handles ih =>
    rw [List.foldl_cons, ih, ExtTreeMap.getElem?_erase]
    by_cases hfirst : first = handle
    · simp [hfirst]
    · simp [hfirst, Ne.symm hfirst]

/-- A handle that is sent twice keeps the last value. -/
theorem getElem?_foldl_insert (pieces : List (UInt32 × List UInt8)) (values : FieldValues)
    (handle : UInt32) :
    (pieces.foldl (fun acc entry => acc.insert entry.1 entry.2) values)[handle]? =
      (pieces.reverse.lookup handle).or values[handle]? := by
  induction pieces generalizing values with
  | nil => simp
  | cons piece pieces ih =>
    obtain ⟨key, value⟩ := piece
    rw [List.foldl_cons, ih, List.reverse_cons, List.lookup_append, ExtTreeMap.getElem?_insert,
      List.lookup_cons, List.lookup_nil]
    by_cases hkey : key = handle
    · cases pieces.reverse.lookup handle <;> simp [hkey]
    · have hne : (handle == key) = false := by simpa using Ne.symm hkey
      cases pieces.reverse.lookup handle <;> simp [hkey, hne]

/-- The values of the representative once the update is filed. -/
theorem getElem?_filed (update : PresenceUpdate) (pieces : List (UInt32 × List UInt8))
    (handle : UInt32) :
    ((d.filed update pieces).valuesOf (d.representative update))[handle]? =
      (pieces.reverse.lookup handle).or
        (if handle ∈ update.clearedHandles then none
          else ((d.joined update).valuesOf (d.representative update))[handle]?) := by
  rw [valuesOf, filed, fileValues]
  simp only [ExtTreeMap.getElem?_insert_self, Option.getD_some]
  rw [getElem?_foldl_insert, getElem?_foldl_erase]
  rfl

/-- `apply` either refuses the update or files what its payload carries. -/
theorem apply_cases (d : PresenceDirectory) (update : PresenceUpdate) :
    (∃ e, d.apply update = (.error e, d)) ∨
      ∃ pieces identity, d.readPayload update = .ok pieces ∧
        d.apply update = (.ok identity, (d.filed update pieces).rebuildIdentityIndexes
          (d.filed update pieces).values.size) := by
  by_cases hzero : d.representative update = 0
  · left
    exact ⟨.native "presence update has no identity", by simp [apply, hzero]⟩
  · cases hpayload : d.readPayload update with
    | error e =>
      left
      exact ⟨e, by simp [apply, hzero, hpayload]⟩
    | ok pieces =>
      right
      let after := (d.filed update pieces).rebuildIdentityIndexes
        (d.filed update pieces).values.size
      refine ⟨pieces, after.identity (after.canonicalPresenceId (d.representative update)), rfl, ?_⟩
      simp only [apply, hzero, hpayload, if_false]
      rfl

/-- **An update is filed whole or not at all.** -/
theorem apply_atomic (d : PresenceDirectory) (update : PresenceUpdate) :
    match d.apply update with
    | (.error _, after) => after = d
    | (.ok _, after) => (∀ handle ∈ update.handles, handle ∈ d.fields) →
        ∃ pieces, d.Cut update.handles update.variableSizes update.fieldData pieces ∧
          after = (d.filed update pieces).rebuildIdentityIndexes
            (d.filed update pieces).values.size ∧
          ∀ handle : UInt32,
            ((d.filed update pieces).valuesOf (d.representative update))[handle]? =
              (pieces.reverse.lookup handle).or
                (if handle ∈ update.clearedHandles then none
                  else ((d.joined update).valuesOf (d.representative update))[handle]?) := by
  rcases d.apply_cases update with ⟨e, h⟩ | ⟨pieces, identity, hpayload, h⟩
  · rw [h]
  · rw [h]
    intro hannounced
    exact ⟨pieces, readPayload_cut hannounced hpayload, rfl, getElem?_filed update pieces⟩

/-- A handle that is both cleared and sent, after one that is only cleared. -/
theorem apply_atomic_cleared :
    let d := run step {} [.announce ⟨[⟨5, 0, ⟨0⟩, some 1⟩, ⟨6, 0, ⟨0⟩, none⟩]⟩]
    let update : PresenceUpdate := {
      localPresenceId := 3, masterPresenceId := 0, fieldData := [1, 2, 3]
      clearedHandles := [6, 7], handles := [5, 6], variableSizes := [2], online := true }
    ∃ pieces, d.Cut update.handles update.variableSizes update.fieldData pieces ∧
      (d.apply update).2 = (d.filed update pieces).rebuildIdentityIndexes
        (d.filed update pieces).values.size ∧
      ∀ handle : UInt32,
        ((d.filed update pieces).valuesOf (d.representative update))[handle]? =
          (pieces.reverse.lookup handle).or
            (if handle ∈ update.clearedHandles then none
              else ((d.joined update).valuesOf (d.representative update))[handle]?) := by
  intro d update
  have h := apply_atomic d update
  have haccepted : (d.apply update).1.isOk = true := by decide +kernel
  split at h
  · next hresult =>
    rw [hresult] at haccepted
    cases haccepted
  · next hresult =>
    rw [hresult]
    have hannounced : ([5, 6].all fun handle : UInt32 => decide (handle ∈ d.fields)) = true := by
      decide +kernel
    exact h fun handle hmem => of_decide_eq_true (List.all_eq_true.1 hannounced handle hmem)

end PresenceDirectory

end Superiority
