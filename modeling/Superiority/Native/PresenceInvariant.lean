import Superiority.Library.Run
import Superiority.Native.Presence

/-!
# What the presence directory keeps under its representatives

Everything a directory knows about a person should be filed under one id. Folding two accounts
into one refiles all six maps; joining the two ids of an update (`mergeAlias`) leaves `seen`,
`standing` and `sessioned` where they were.

* **`Filed`** – the aliases are flat, and the maps that both routines refile have only
  representatives as keys. Every step keeps it.
* **`Kept`** – the other three maps as well, with a write stamp for each standing value. Every
  step that joins no two representatives keeps it (`kept_step`).
* **`Stray`** – an id that is still in `seen` but is no representative. A step that joins two
  representatives leaves one behind (`stray_apply`), so the representation invariant holds
  exactly on the runs that join none: **`represents_iff_joins_none`**.
-/

namespace Superiority

open Std

namespace PresenceDirectory

variable {d : PresenceDirectory}

/-! ## The invariants -/

/-- The id is filed under itself. -/
def IsSelf (d : PresenceDirectory) (id : UInt32) : Prop := d.aliases[id]? = some id

/-- The aliases are flat, and the maps that every routine refiles are keyed by representatives. -/
structure Filed (d : PresenceDirectory) : Prop where
  flat : ∀ id c : UInt32, d.aliases[id]? = some c → d.IsSelf c
  zero : d.aliases[(0 : UInt32)]? = none
  values : ∀ k ∈ d.values, d.IsSelf k
  online : ∀ k ∈ d.online, d.IsSelf k
  localPresence : ∀ k ∈ d.localPresence, d.IsSelf k

/-- Every standing value held for a person has its write stamp under the same id. -/
def Stamped (d : PresenceDirectory) : Prop :=
  ∀ (k : UInt32) values handle, d.values[k]? = some values → handle ∈ values → isStanding handle →
    ∃ written, d.standing[k]? = some written ∧ handle ∈ written

/-- All six maps are keyed by representatives. -/
structure Kept (d : PresenceDirectory) : Prop extends Filed d where
  seen : ∀ k ∈ d.seen, d.IsSelf k
  standing : ∀ k ∈ d.standing, d.IsSelf k
  sessioned : ∀ k ∈ d.sessioned, d.IsSelf k
  stamped : d.Stamped

/-- Every id that an alias leads to has been seen. -/
def AliasSeen (d : PresenceDirectory) : Prop :=
  ∀ id c : UInt32, d.aliases[id]? = some c → c ∈ d.seen

/-- The representation invariant of the directory: looking up a representative is idempotent, the
keys of the six maps are representatives, and standing values are stamped. -/
structure Represents (d : PresenceDirectory) : Prop where
  idempotent : ∀ id, d.canonicalPresenceId (d.canonicalPresenceId id) = d.canonicalPresenceId id
  values : ∀ k ∈ d.values, d.canonicalPresenceId k = k
  standing : ∀ k ∈ d.standing, d.canonicalPresenceId k = k
  online : ∀ k ∈ d.online, d.canonicalPresenceId k = k
  localPresence : ∀ k ∈ d.localPresence, d.canonicalPresenceId k = k
  seen : ∀ k ∈ d.seen, d.canonicalPresenceId k = k
  sessioned : ∀ k ∈ d.sessioned, d.canonicalPresenceId k = k
  stamped : d.Stamped

/-- An id that a map still has as a key although it leads elsewhere. -/
structure Stray (d : PresenceDirectory) (id target : UInt32) : Prop where
  seen : id ∈ d.seen
  values : id ∉ d.values
  leads : d.aliases[id]? = some target
  ne : target ≠ id

theorem IsSelf.canonical {k : UInt32} (h : d.IsSelf k) : d.canonicalPresenceId k = k := by
  simp only [IsSelf] at h
  simp [canonicalPresenceId, h]

theorem Filed.isSelf_canonical (h : Filed d) {id : UInt32} (hid : id ∈ d.aliases) :
    d.IsSelf (d.canonicalPresenceId id) := by
  obtain ⟨c, hc⟩ := Option.isSome_iff_exists.1 (ExtTreeMap.mem_iff_isSome_getElem?.1 hid)
  have hself := h.flat id c hc
  simpa [canonicalPresenceId, hc] using hself

theorem Filed.idempotent (h : Filed d) (id : UInt32) :
    d.canonicalPresenceId (d.canonicalPresenceId id) = d.canonicalPresenceId id := by
  by_cases hid : id ∈ d.aliases
  · exact (h.isSelf_canonical hid).canonical
  · have hself : d.canonicalPresenceId id = id := by
      rw [canonicalPresenceId, ExtTreeMap.getElem?_eq_none hid, Option.getD_none]
    rw [hself, hself]

theorem Kept.represents (h : Kept d) : Represents d where
  idempotent := h.idempotent
  values k hk := (h.values k hk).canonical
  standing k hk := (h.standing k hk).canonical
  online k hk := (h.online k hk).canonical
  localPresence k hk := (h.localPresence k hk).canonical
  seen k hk := (h.seen k hk).canonical
  sessioned k hk := (h.sessioned k hk).canonical
  stamped := h.stamped

theorem Stray.not_represents {id target : UInt32} (h : Stray d id target) : ¬ Represents d := by
  intro hr
  have hid := hr.seen id h.seen
  simp only [canonicalPresenceId, h.leads, Option.getD_some] at hid
  exact h.ne hid

/-! ## Redirecting aliases -/

theorem getElem?_redirectAliases (aliases : ExtTreeMap UInt32 UInt32) (old new k : UInt32) :
    (redirectAliases aliases old new)[k]? =
      aliases[k]?.map fun c => if c = old then new else c := by
  simp [redirectAliases, ExtTreeMap.getElem?_map]

/-- A representative other than `old` stays one. -/
theorem redirectAliases_self {aliases : ExtTreeMap UInt32 UInt32} {old new k : UInt32}
    (hk : aliases[k]? = some k) (hne : k ≠ old) :
    (redirectAliases aliases old new)[k]? = some k := by
  simp [getElem?_redirectAliases, hk, hne]

/-- Redirecting flat aliases to a representative leaves them flat. -/
theorem redirectAliases_flat {aliases : ExtTreeMap UInt32 UInt32} {old new : UInt32}
    (hflat : ∀ id c : UInt32, aliases[id]? = some c → aliases[c]? = some c)
    (hnew : aliases[new]? = some new) (hne : old ≠ new) {id c : UInt32}
    (hc : (redirectAliases aliases old new)[id]? = some c) :
    (redirectAliases aliases old new)[c]? = some c := by
  rw [getElem?_redirectAliases, Option.map_eq_some_iff] at hc
  obtain ⟨b, hb, rfl⟩ := hc
  split_ifs with hold
  · exact redirectAliases_self hnew hne.symm
  · exact redirectAliases_self (hflat id b hb) hold

/-! ## Folding an account -/

section fold

variable {folded keep : UInt32}

theorem foldIdentity_isSelf {k : UInt32} (hself : d.IsSelf k) (hk : k ≠ folded) :
    (d.foldIdentity folded keep).IsSelf k := by
  simp only [IsSelf, foldIdentity, ExtTreeMap.getElem?_insert, Std.compare_eq_iff_eq, hk.symm,
    if_false]
  exact redirectAliases_self hself hk

/-- The keys of a refiled map are representatives again. -/
theorem foldIdentity_moved {ν : Type} {m : ExtTreeMap UInt32 ν} {join : ν → ν → ν}
    (hm : ∀ k ∈ m, d.IsSelf k) (hne : folded ≠ keep) (hkeep : d.IsSelf keep) {k : UInt32}
    (hk : k ∈ moveKey m folded keep join) : (d.foldIdentity folded keep).IsSelf k := by
  rw [mem_moveKey hne] at hk
  obtain ⟨hfolded, hk | ⟨rfl, -⟩⟩ := hk
  · exact foldIdentity_isSelf (hm k hk) hfolded
  · exact foldIdentity_isSelf hkeep hfolded

theorem foldIdentity_flat (h : Filed d) (hne : folded ≠ keep) (hkeep : d.IsSelf keep)
    {id c : UInt32} (hc : (d.foldIdentity folded keep).aliases[id]? = some c) :
    (d.foldIdentity folded keep).IsSelf c := by
  have hself : (d.foldIdentity folded keep).IsSelf keep := foldIdentity_isSelf hkeep hne.symm
  simp only [foldIdentity, ExtTreeMap.getElem?_insert, Std.compare_eq_iff_eq] at hc
  split_ifs at hc with hid
  · obtain rfl := Option.some.inj hc
    exact hself
  · rw [getElem?_redirectAliases, Option.map_eq_some_iff] at hc
    obtain ⟨b, hb, rfl⟩ := hc
    split_ifs with hfolded
    · exact hself
    · exact foldIdentity_isSelf (h.flat id b hb) hfolded

theorem filed_foldIdentity (h : Filed d) (hne : folded ≠ keep) (hfolded : folded ∈ d.values)
    (hkeep : d.IsSelf keep) : Filed (d.foldIdentity folded keep) where
  flat _ _ hc := foldIdentity_flat h hne hkeep hc
  zero := by
    have hfolded0 : folded ≠ 0 := by
      rintro rfl
      have hself := h.values 0 hfolded
      simp [IsSelf, h.zero] at hself
    simp [foldIdentity, ExtTreeMap.getElem?_insert, hfolded0, getElem?_redirectAliases, h.zero]
  values _ hk := foldIdentity_moved h.values hne hkeep hk
  online _ hk := foldIdentity_moved h.online hne hkeep hk
  localPresence _ hk := foldIdentity_moved h.localPresence hne hkeep hk

theorem stamped_foldIdentity (h : d.Stamped) (hne : folded ≠ keep) :
    (d.foldIdentity folded keep).Stamped := by
  intro k values handle hvalues hhandle hstanding
  simp only [foldIdentity] at hvalues ⊢
  by_cases hk : k = keep
  · subst hk
    rw [getElem?_moveKey_new hne] at hvalues ⊢
    -- The values under `keep` come from either side, and so does their stamp.
    have hside : (∃ v, d.values[folded]? = some v ∧ handle ∈ v) ∨
        ∃ v, d.values[k]? = some v ∧ handle ∈ v := by
      cases hf : d.values[folded]? with
      | none =>
        rw [hf] at hvalues
        exact Or.inr ⟨values, hvalues, hhandle⟩
      | some v =>
        cases hkept : d.values[k]? with
        | none =>
          simp only [hf, hkept, Option.some.injEq] at hvalues
          subst hvalues
          exact Or.inl ⟨v, rfl, hhandle⟩
        | some w =>
          simp only [hf, hkept, Option.some.injEq] at hvalues
          subst hvalues
          rcases mem_fillFrom.1 hhandle with hw | hv
          · exact Or.inr ⟨w, rfl, hw⟩
          · exact Or.inl ⟨v, rfl, hv⟩
    rcases hside with ⟨v, hv, hmem⟩ | ⟨v, hv, hmem⟩
    · obtain ⟨written, hw, hstamp⟩ := h folded v handle hv hmem hstanding
      rw [hw]
      cases d.standing[k]? with
      | none => exact ⟨written, rfl, hstamp⟩
      | some kept => exact ⟨_, rfl, mem_fillFrom.2 (Or.inr hstamp)⟩
    · obtain ⟨written, hw, hstamp⟩ := h k v handle hv hmem hstanding
      rw [hw]
      cases d.standing[folded]? with
      | none => exact ⟨written, rfl, hstamp⟩
      | some moved => exact ⟨_, rfl, mem_fillFrom.2 (Or.inl hstamp)⟩
  · have hk' : k ≠ folded := by
      rintro rfl
      have hmem : k ∈ moveKey d.values k keep fillFrom :=
        ExtTreeMap.mem_iff_isSome_getElem?.2 (by simp [hvalues])
      exact ((mem_moveKey hne).1 hmem).1 rfl
    rw [getElem?_moveKey_of_ne hk' hk] at hvalues ⊢
    exact h k values handle hvalues hhandle hstanding

theorem kept_foldIdentity (h : Kept d) (hne : folded ≠ keep) (hfolded : folded ∈ d.values)
    (hkeep : d.IsSelf keep) : Kept (d.foldIdentity folded keep) where
  toFiled := filed_foldIdentity h.toFiled hne hfolded hkeep
  seen _ hk := foldIdentity_moved h.seen hne hkeep hk
  standing _ hk := foldIdentity_moved h.standing hne hkeep hk
  sessioned k hk := by
    obtain ⟨hfolded', hk | ⟨rfl, -⟩⟩ := (mem_moveMember hne).1 hk
    · exact foldIdentity_isSelf (h.sessioned k hk) hfolded'
    · exact foldIdentity_isSelf hkeep hfolded'
  stamped := stamped_foldIdentity h.stamped hne

theorem aliasSeen_foldIdentity (h : Filed d) (hseen : d.AliasSeen) (hne : folded ≠ keep)
    (hfolded : folded ∈ d.values) (hkeep : d.IsSelf keep) :
    (d.foldIdentity folded keep).AliasSeen := by
  intro id c hc
  have hself := foldIdentity_flat h hne hkeep hc
  have hmem : c ∈ d.seen ∨ c = keep ∧ folded ∈ d.seen := by
    by_cases hck : c = keep
    · exact Or.inr ⟨hck, hseen folded folded (h.values folded hfolded)⟩
    · refine Or.inl ?_
      simp only [foldIdentity, ExtTreeMap.getElem?_insert, Std.compare_eq_iff_eq] at hc
      split_ifs at hc with hid
      · exact absurd (Option.some.inj hc).symm hck
      · rw [getElem?_redirectAliases, Option.map_eq_some_iff] at hc
        obtain ⟨b, hb, rfl⟩ := hc
        split_ifs at hck ⊢ with hbf
        · exact absurd rfl hck
        · exact hseen id b hb
  refine (mem_moveKey hne).2 ⟨?_, hmem⟩
  rintro rfl
  -- The folded id leads to `keep`, so it is no longer its own representative.
  simp only [IsSelf, foldIdentity, ExtTreeMap.getElem?_insert_self, Option.some.injEq] at hself
  exact hne hself.symm

theorem stray_foldIdentity {id target : UInt32} (h : Stray d id target) (hne : folded ≠ keep)
    (hfolded : folded ∈ d.values) (hkeep : d.IsSelf keep) :
    ∃ target, Stray (d.foldIdentity folded keep) id target := by
  have hidf : id ≠ folded := fun e => h.values (e ▸ hfolded)
  have hidk : id ≠ keep := by
    rintro rfl
    have halias := h.leads
    rw [hkeep] at halias
    exact h.ne (Option.some.inj halias).symm
  have halias : (d.foldIdentity folded keep).aliases[id]? =
      some (if target = folded then keep else target) := by
    simp [foldIdentity, ExtTreeMap.getElem?_insert, hidf.symm, getElem?_redirectAliases, h.leads]
  refine ⟨_, ?_, ?_, halias, ?_⟩
  · exact (mem_moveKey hne).2 ⟨hidf, Or.inl h.seen⟩
  · intro hmem
    obtain ⟨-, hmem | ⟨e, -⟩⟩ := (mem_moveKey hne).1 hmem
    · exact h.values hmem
    · exact hidk e
  · split_ifs
    · exact hidk.symm
    · exact h.ne

end fold

/-! ## Rebuilding the indexes -/

/-- What every fold keeps, the loop over the duplicates keeps. The kept side of a duplicate is an
id with an alias, and stays one. -/
theorem foldDuplicates_induction {P : PresenceDirectory → Prop} (hfiled : ∀ d, P d → Filed d)
    (hfold : ∀ d folded keep, P d → folded ≠ keep → folded ∈ d.values → d.IsSelf keep →
      P (d.foldIdentity folded keep))
    {duplicates : List (UInt32 × UInt32)} (hd : P d)
    (hkeep : ∀ e ∈ duplicates, e.2 ∈ d.aliases) : P (d.foldDuplicates duplicates) := by
  induction duplicates generalizing d with
  | nil => exact hd
  | cons e rest ih =>
    have hself := (hfiled d hd).isSelf_canonical (hkeep e List.mem_cons_self)
    have hrest := fun x hx => hkeep x (List.mem_cons_of_mem e hx)
    show P (foldDuplicates (if e.1 ≠ d.canonicalPresenceId e.2 ∧ d.values.contains e.1
      then d.foldIdentity e.1 (d.canonicalPresenceId e.2) else d) rest)
    split_ifs with h
    · refine ih (hfold d _ _ hd h.1 (ExtTreeMap.contains_iff_mem.1 h.2) hself) fun x hx => ?_
      refine ExtTreeMap.mem_insert.2 (Or.inr ?_)
      rw [ExtTreeMap.mem_iff_isSome_getElem?, getElem?_redirectAliases, Option.isSome_map]
      exact ExtTreeMap.mem_iff_isSome_getElem?.1 (hrest x hx)
    · exact ih hd hrest

/-- The scan queues, and remembers as owners, only ids it has passed. -/
structure ScanOwned (keys : List UInt32) (scan : IndexScan) : Prop where
  owners : ∀ (account k : UInt32), scan.owners[account]? = some k → k ∈ keys
  duplicates : ∀ e ∈ scan.duplicates, e.1 ∈ keys ∧ e.2 ∈ keys ∧ e.1 ≠ e.2

theorem ScanOwned.grow {keys : List UInt32} {scan : IndexScan} (h : ScanOwned keys scan)
    (k : UInt32) : ScanOwned (keys ++ [k]) scan where
  owners a x hx := List.mem_append_left _ (h.owners a x hx)
  duplicates e he :=
    have he := h.duplicates e he
    ⟨List.mem_append_left _ he.1, List.mem_append_left _ he.2.1, he.2.2⟩

/-- A second owner of an account queues the fold of the one seen less recently. -/
theorem scanAccount_held {scan : IndexScan} {account held : UInt32}
    (h : scan.owners[account]? = some held) (k presence : UInt32) (values : FieldValues) :
    (d.scanAccount scan k presence values account).owners =
        scan.owners.insert account (if d.seenAtLeast k held then k else held) ∧
      (d.scanAccount scan k presence values account).duplicates =
        scan.duplicates ++ [if d.seenAtLeast k held then (held, k) else (k, held)] := by
  unfold scanAccount
  rw [h]
  cases hseen : d.seenAtLeast k held <;> simp [hseen]

theorem scanAccount_owned {keys : List UInt32} {scan : IndexScan} (h : ScanOwned keys scan)
    {k : UInt32} (hk : k ∉ keys) (presence account : UInt32) (values : FieldValues) :
    ScanOwned (keys ++ [k]) (d.scanAccount scan k presence values account) := by
  have hlast : k ∈ keys ++ [k] := by simp
  have hinsert : ∀ x ∈ keys ++ [k], ∀ a y : UInt32,
      (scan.owners.insert account x)[a]? = some y → y ∈ keys ++ [k] := by
    intro x hx a y hy
    rw [ExtTreeMap.getElem?_insert] at hy
    split_ifs at hy
    · exact Option.some.inj hy ▸ hx
    · exact (h.grow k).owners a y hy
  cases howner : scan.owners[account]? with
  | none =>
    unfold scanAccount
    rw [howner]
    exact ⟨hinsert k hlast, (h.grow k).duplicates⟩
  | some held =>
    have hheld := (h.grow k).owners account held howner
    have hne : held ≠ k := fun e => hk (e ▸ h.owners account held howner)
    obtain ⟨howners, hduplicates⟩ := scanAccount_held (d := d) howner k presence values
    refine ⟨fun a y hy => ?_, fun e he => ?_⟩
    · rw [howners] at hy
      refine hinsert _ ?_ a y hy
      split_ifs
      · exact hlast
      · exact hheld
    · rw [hduplicates, List.mem_append, List.mem_singleton] at he
      rcases he with he | rfl
      · exact (h.grow k).duplicates e he
      · split_ifs
        · exact ⟨hheld, hlast, hne⟩
        · exact ⟨hlast, hheld, hne.symm⟩

theorem scanIdentity_owned {keys : List UInt32} {scan : IndexScan} (h : ScanOwned keys scan)
    {k : UInt32} (hk : k ∉ keys) (values : FieldValues) :
    ScanOwned (keys ++ [k]) (d.scanIdentity scan k values) := by
  unfold scanIdentity
  cases d.localPresence[k]? with
  | none => exact h.grow k
  | some presence =>
    dsimp only
    cases (identityFromValues values d.fields d.online[k]?
        (d.standing[k]?.getD ∅)).accountId with
    | none => dsimp only; split <;> split <;> exact ⟨(h.grow k).owners, (h.grow k).duplicates⟩
    | some account =>
      have hscan := scanAccount_owned (d := d) h hk presence account values
      dsimp only
      split <;> split <;> exact ⟨hscan.owners, hscan.duplicates⟩

/-- Both sides of a queued duplicate are keys of `values`, and they differ. -/
theorem scanIdentities_duplicates {e : UInt32 × UInt32}
    (he : e ∈ d.scanIdentities.duplicates) : e.1 ∈ d.values ∧ e.2 ∈ d.values ∧ e.1 ≠ e.2 := by
  have hscan : ∀ (entries : List (UInt32 × FieldValues)) (keys : List UInt32) (scan : IndexScan),
      (keys ++ entries.map (·.1)).Nodup → ScanOwned keys scan →
      ScanOwned (keys ++ entries.map (·.1))
        (entries.foldl (fun scan entry => d.scanIdentity scan entry.1 entry.2) scan) := by
    intro entries
    induction entries with
    | nil => intro keys scan _ h; simpa using h
    | cons entry entries ih =>
      intro keys scan hnodup h
      rw [List.map_cons, List.append_cons] at hnodup ⊢
      have hfresh : entry.1 ∉ keys := by
        intro hmem
        have hprefix := (List.nodup_append.1 hnodup).1
        exact (List.nodup_append.1 hprefix).2.2 _ hmem _ (by simp) rfl
      exact ih _ _ hnodup (scanIdentity_owned h hfresh entry.2)
  have hnodup : (d.values.toList.map (·.1)).Nodup := by
    have hdistinct := ExtTreeMap.distinct_keys_toList (t := d.values)
    rw [List.Nodup, List.pairwise_map]
    exact hdistinct.imp fun h e => h (by simp [e])
  have howned := hscan d.values.toList [] {} (by simpa using hnodup)
    ⟨fun a k h => by simp at h, fun e he => by simp at he⟩
  have hkey : ∀ k ∈ d.values.toList.map (·.1), k ∈ d.values := by
    intro k hk
    obtain ⟨⟨k', v⟩, hmem, rfl⟩ := List.mem_map.1 hk
    rw [ExtTreeMap.mem_toList_iff_getElem?_eq_some] at hmem
    exact ExtTreeMap.mem_iff_isSome_getElem?.2 (by simp [hmem])
  rw [scanIdentities, ExtTreeMap.foldl_eq_foldl_toList] at he
  obtain ⟨h1, h2, hne⟩ := howned.duplicates e he
  exact ⟨hkey _ (by simpa using h1), hkey _ (by simpa using h2), hne⟩

/-- One round of the rebuilding. -/
theorem rebuildIdentityIndexes_succ (d : PresenceDirectory) (fuel : Nat) :
    d.rebuildIdentityIndexes (fuel + 1) =
      if d.scanIdentities.duplicates.isEmpty then
        { d.withIndexes d.scanIdentities with
          accountPresence := d.scanIdentities.accountCandidates.map fun _ candidate => candidate.2 }
      else
        ((d.withIndexes d.scanIdentities).foldDuplicates
          d.scanIdentities.duplicates).rebuildIdentityIndexes fuel := rfl

/-- The kept side of every queued duplicate is known to `aliases`. -/
theorem scanIdentities_keep_mem (h : Filed d) {e : UInt32 × UInt32}
    (he : e ∈ d.scanIdentities.duplicates) : e.2 ∈ d.aliases := by
  have hself := h.values e.2 (scanIdentities_duplicates he).2.1
  exact ExtTreeMap.mem_iff_isSome_getElem?.2 (by rw [hself]; rfl)

theorem filed_withIndexes (h : Filed d) (scan : IndexScan) : Filed (d.withIndexes scan) :=
  ⟨h.flat, h.zero, h.values, h.online, h.localPresence⟩

/-- What every fold keeps and no index decides, the rebuilding keeps. -/
theorem rebuild_induction {P : PresenceDirectory → Prop} (hfiled : ∀ d, P d → Filed d)
    (hindex : ∀ d a p t, P d →
      P { d with accountPresence := a, profilePresence := p, toonPresence := t })
    (hfold : ∀ d folded keep, P d → folded ≠ keep → folded ∈ d.values → d.IsSelf keep →
      P (d.foldIdentity folded keep)) (hd : P d) (fuel : Nat) :
    P (d.rebuildIdentityIndexes fuel) := by
  induction fuel generalizing d with
  | zero => exact hd
  | succ fuel ih =>
    have hindexed : P (d.withIndexes d.scanIdentities) := hindex d _ _ _ hd
    rw [rebuildIdentityIndexes_succ]
    split_ifs
    · exact hindex d _ _ _ hd
    · exact ih (foldDuplicates_induction hfiled hfold hindexed fun e he =>
        scanIdentities_keep_mem (hfiled d hd) he)

/-- A round leaves the maps filed. -/
theorem filed_foldScan (h : Filed d) :
    Filed ((d.withIndexes d.scanIdentities).foldDuplicates d.scanIdentities.duplicates) :=
  foldDuplicates_induction (fun _ hd => hd)
    (fun _ _ _ hd hne hfolded hkeep => filed_foldIdentity hd hne hfolded hkeep)
    (filed_withIndexes h _) fun _ he => scanIdentities_keep_mem h he

theorem size_foldDuplicates_le (duplicates : List (UInt32 × UInt32)) :
    (d.foldDuplicates duplicates).values.size ≤ d.values.size := by
  induction duplicates generalizing d with
  | nil => exact le_rfl
  | cons e rest ih =>
    show (foldDuplicates (if e.1 ≠ d.canonicalPresenceId e.2 ∧ d.values.contains e.1
      then d.foldIdentity e.1 (d.canonicalPresenceId e.2) else d) rest).values.size ≤ d.values.size
    split_ifs
    · exact ih.trans size_moveKey_le
    · exact ih

/-- A round that queues duplicates folds at least the first of them. -/
theorem size_foldDuplicates_lt (h : Filed d) {e : UInt32 × UInt32}
    {rest : List (UInt32 × UInt32)} (hfolded : e.1 ∈ d.values) (hkeep : e.2 ∈ d.values)
    (hne : e.1 ≠ e.2) : (d.foldDuplicates (e :: rest)).values.size < d.values.size := by
  have hself := (h.values e.2 hkeep).canonical
  show (foldDuplicates (if e.1 ≠ d.canonicalPresenceId e.2 ∧ d.values.contains e.1
    then d.foldIdentity e.1 (d.canonicalPresenceId e.2) else d) rest).values.size < d.values.size
  rw [hself, if_pos ⟨hne, ExtTreeMap.contains_iff_mem.2 hfolded⟩]
  exact (size_foldDuplicates_le rest).trans_lt (size_moveKey_lt hne hfolded hkeep)

/-- A round that queues duplicates had two entries to begin with, and leaves fewer. -/
theorem size_round (h : Filed d) (hqueued : d.scanIdentities.duplicates ≠ []) :
    2 ≤ d.values.size ∧
      ((d.withIndexes d.scanIdentities).foldDuplicates d.scanIdentities.duplicates).values.size <
        d.values.size := by
  cases hscan : d.scanIdentities.duplicates with
  | nil => exact absurd hscan hqueued
  | cons e rest =>
    obtain ⟨hfolded, hkeep, hne⟩ := scanIdentities_duplicates (d := d) (e := e) (by simp [hscan])
    have htwo : (moveKey d.values e.1 e.2 fillFrom).size < d.values.size :=
      size_moveKey_lt hne hfolded hkeep
    have hone : e.2 ∈ moveKey d.values e.1 e.2 fillFrom :=
      (mem_moveKey hne).2 ⟨hne.symm, Or.inl hkeep⟩
    have hpositive := size_pos_of_mem hone
    exact ⟨by omega, size_foldDuplicates_lt (filed_withIndexes h _) hfolded hkeep hne⟩

/-- **The rebuilding ends by itself.** More rounds than there are entries in `values` are never
taken, so the fuel that `apply` gives decides nothing. -/
theorem rebuildIdentityIndexes_fuel (h : Filed d) {fuel : Nat} (hpos : 0 < fuel)
    (hfuel : d.values.size ≤ fuel) :
    d.rebuildIdentityIndexes (fuel + 1) = d.rebuildIdentityIndexes fuel := by
  induction fuel generalizing d with
  | zero => exact absurd hpos (lt_irrefl 0)
  | succ fuel ih =>
    rw [rebuildIdentityIndexes_succ d (fuel + 1), rebuildIdentityIndexes_succ d fuel]
    split_ifs with hempty
    · rfl
    · have hqueued : d.scanIdentities.duplicates ≠ [] := fun hnil => hempty (by simp [hnil])
      obtain ⟨htwo, hlt⟩ := size_round h hqueued
      exact ih (filed_foldScan h) (by omega) (by omega)

/-! ## Joining the ids of an update -/

section update

variable {id canonical : UInt32}

/-- The id is unknown or already filed under the representative. -/
def AgreesOn (d : PresenceDirectory) (canonical id : UInt32) : Prop :=
  ∀ previous, d.aliases[id]? = some previous → previous = canonical

theorem exists_of_not_agrees (h : ¬ d.AgreesOn canonical id) :
    ∃ previous, d.aliases[id]? = some previous ∧ previous ≠ canonical := by
  simpa [AgreesOn] using h

theorem mergeAlias_of_agrees (h : d.AgreesOn canonical id) : d.mergeAlias id canonical = d := by
  unfold mergeAlias
  cases hid : d.aliases[id]? with
  | none => rfl
  | some previous => simp [h previous hid]

/-- The merge of an id filed elsewhere. -/
theorem mergeAlias_of_ne {previous : UInt32} (h : d.aliases[id]? = some previous)
    (hne : previous ≠ canonical) :
    d.mergeAlias id canonical = { d with
      values := moveKey d.values previous canonical fillFrom
      online := moveKey d.online previous canonical fun kept _ => kept
      localPresence := moveKey d.localPresence previous canonical fun kept _ => kept
      aliases := redirectAliases d.aliases previous canonical } := by
  simp [mergeAlias, h, hne]

@[simp] theorem mergeAlias_seen : (d.mergeAlias id canonical).seen = d.seen := by
  unfold mergeAlias
  split
  · rfl
  · split_ifs <;> rfl

theorem filed_mergeAlias (h : Filed d) (hcanonical : id ∈ d.aliases → d.IsSelf canonical) :
    Filed (d.mergeAlias id canonical) := by
  by_cases hagrees : d.AgreesOn canonical id
  · rwa [mergeAlias_of_agrees hagrees]
  · obtain ⟨previous, hid, hne⟩ := exists_of_not_agrees hagrees
    have hself : d.aliases[canonical]? = some canonical :=
      hcanonical (ExtTreeMap.mem_iff_isSome_getElem?.2 (by simp [hid]))
    rw [mergeAlias_of_ne hid hne]
    have hmoved : ∀ {ν : Type} {m : ExtTreeMap UInt32 ν} {join : ν → ν → ν},
        (∀ k ∈ m, d.IsSelf k) → ∀ k ∈ moveKey m previous canonical join,
          (redirectAliases d.aliases previous canonical)[k]? = some k := by
      intro ν m join hm k hk
      rw [mem_moveKey hne] at hk
      obtain ⟨hprevious, hk | ⟨rfl, -⟩⟩ := hk
      · exact redirectAliases_self (hm k hk) hprevious
      · exact redirectAliases_self hself hprevious
    exact {
      flat := fun _ _ hc => redirectAliases_flat h.flat hself hne hc
      zero := by simp [getElem?_redirectAliases, h.zero]
      values := hmoved h.values
      online := hmoved h.online
      localPresence := hmoved h.localPresence }

/-- After the merge the id agrees with the representative, and ids that did still do. -/
theorem mergeAlias_agrees {other : UInt32} (h : other = id ∨ d.AgreesOn canonical other) :
    (d.mergeAlias id canonical).AgreesOn canonical other := by
  by_cases hagrees : d.AgreesOn canonical id
  · rw [mergeAlias_of_agrees hagrees]
    rcases h with rfl | h
    · exact hagrees
    · exact h
  · obtain ⟨previous, hid, hne⟩ := exists_of_not_agrees hagrees
    intro c hc
    rw [mergeAlias_of_ne hid hne] at hc
    simp only [getElem?_redirectAliases, Option.map_eq_some_iff] at hc
    obtain ⟨b, hb, rfl⟩ := hc
    rcases h with rfl | h
    · simp [Option.some.inj (hb.symm.trans hid)]
    · simp [h b hb]

theorem mergeAlias_isSelf (hself : d.IsSelf canonical) :
    (d.mergeAlias id canonical).IsSelf canonical := by
  by_cases hagrees : d.AgreesOn canonical id
  · rwa [mergeAlias_of_agrees hagrees]
  · obtain ⟨previous, hid, hne⟩ := exists_of_not_agrees hagrees
    rw [mergeAlias_of_ne hid hne]
    exact redirectAliases_self hself hne.symm

/-- A merge that moves an id leaves its old representative behind in `seen`. -/
theorem stray_mergeAlias (h : Filed d) (hseen : d.AliasSeen)
    (hjoin : ¬ d.AgreesOn canonical id) : ∃ old, Stray (d.mergeAlias id canonical) old canonical := by
  obtain ⟨previous, hid, hne⟩ := exists_of_not_agrees hjoin
  have hprevious : d.aliases[previous]? = some previous := h.flat id previous hid
  rw [mergeAlias_of_ne hid hne]
  exact ⟨previous, {
    seen := hseen id previous hid
    values := fun hmem => ((mem_moveKey hne).1 hmem).1 rfl
    leads := by simp [getElem?_redirectAliases, hprevious]
    ne := hne.symm }⟩

theorem Stray.mergeAlias {old : UInt32} (h : Stray d old canonical) :
    Stray (d.mergeAlias id canonical) old canonical := by
  by_cases hagrees : d.AgreesOn canonical id
  · rwa [mergeAlias_of_agrees hagrees]
  · obtain ⟨previous, hid, hne⟩ := exists_of_not_agrees hagrees
    rw [mergeAlias_of_ne hid hne]
    exact {
      seen := h.seen
      values := fun hmem => by
        obtain ⟨-, hmem | ⟨e, -⟩⟩ := (mem_moveKey hne).1 hmem
        · exact h.values hmem
        · exact h.ne e.symm
      leads := by simp [getElem?_redirectAliases, h.leads]
      ne := h.ne }

/-! ## Filing an update -/

/-- The ids an update names. -/
def updateIds (update : PresenceUpdate) : List UInt32 :=
  [update.localPresenceId, update.masterPresenceId].filter (· != 0)

theorem getElem?_fileIds (update : PresenceUpdate) (k : UInt32) :
    (d.fileIds update canonical).aliases[k]? =
      if k ∈ updateIds update then some canonical else d.aliases[k]? := by
  have hfold : ∀ (ids : List UInt32) (acc : ExtTreeMap UInt32 UInt32),
      (ids.foldl (fun acc id => acc.insert id canonical) acc)[k]? =
        if k ∈ ids then some canonical else acc[k]? := by
    intro ids
    induction ids with
    | nil => simp
    | cons id ids ih =>
      intro acc
      simp only [List.foldl_cons, ih, ExtTreeMap.getElem?_insert, Std.compare_eq_iff_eq,
        List.mem_cons]
      by_cases hids : k ∈ ids
      · simp [hids]
      · simp [hids, eq_comm]
  exact hfold _ _

/-- An update's own ids lead to its representative, which leads to itself. -/
structure FilesUnder (d : PresenceDirectory) (update : PresenceUpdate) (canonical : UInt32) :
    Prop where
  agrees : ∀ id ∈ updateIds update, d.AgreesOn canonical id
  self : canonical ∈ updateIds update ∨ d.IsSelf canonical

theorem fileIds_isSelf_of {update : PresenceUpdate} (hfiles : FilesUnder d update canonical)
    {k : UInt32} (hk : d.IsSelf k) : (d.fileIds update canonical).IsSelf k := by
  rw [IsSelf, getElem?_fileIds]
  split_ifs with hmem
  · rw [hfiles.agrees k hmem k hk]
  · exact hk

theorem fileIds_isSelf {update : PresenceUpdate} (hfiles : FilesUnder d update canonical) :
    (d.fileIds update canonical).IsSelf canonical := by
  rcases hfiles.self with hmem | hself
  · rw [IsSelf, getElem?_fileIds, if_pos hmem]
  · exact fileIds_isSelf_of hfiles hself

theorem filed_fileIds (h : Filed d) {update : PresenceUpdate}
    (hfiles : FilesUnder d update canonical) : Filed (d.fileIds update canonical) where
  flat id c hc := by
    rw [getElem?_fileIds] at hc
    split_ifs at hc
    · obtain rfl := Option.some.inj hc
      exact fileIds_isSelf hfiles
    · exact fileIds_isSelf_of hfiles (h.flat id c hc)
  zero := by
    rw [getElem?_fileIds, if_neg (by simp [updateIds]), h.zero]
  values k hk := fileIds_isSelf_of hfiles (h.values k hk)
  online k hk := fileIds_isSelf_of hfiles (h.online k hk)
  localPresence k hk := by
    simp only [fileIds] at hk
    split_ifs at hk with hlocal
    · rw [ExtTreeMap.mem_insert, Std.compare_eq_iff_eq] at hk
      rcases hk with rfl | hk
      · exact fileIds_isSelf hfiles
      · exact fileIds_isSelf_of hfiles (h.localPresence k hk)
    · exact fileIds_isSelf_of hfiles (h.localPresence k hk)

theorem filed_fileValues (h : Filed d) {update : PresenceUpdate} (hself : d.IsSelf canonical)
    (decoded : List (UInt32 × List UInt8)) : Filed (d.fileValues update canonical decoded) := by
  have hinsert : ∀ {ν : Type} {m : ExtTreeMap UInt32 ν} {v : ν}, (∀ k ∈ m, d.IsSelf k) →
      ∀ k ∈ m.insert canonical v, d.IsSelf k := by
    intro ν m v hm k hk
    rw [ExtTreeMap.mem_insert, Std.compare_eq_iff_eq] at hk
    rcases hk with rfl | hk
    · exact hself
    · exact hm k hk
  exact {
    flat := h.flat
    zero := h.zero
    values := hinsert h.values
    online := hinsert h.online
    localPresence := h.localPresence }

theorem stamped_fileValues (h : d.Stamped) (update : PresenceUpdate)
    (decoded : List (UInt32 × List UInt8)) : (d.fileValues update canonical decoded).Stamped := by
  intro k values handle hvalues hhandle hstanding
  simp only [fileValues, ExtTreeMap.getElem?_insert, Std.compare_eq_iff_eq] at hvalues ⊢
  by_cases hk : canonical = k
  · subst hk
    simp only [if_true, Option.some.injEq] at hvalues ⊢
    subst hvalues
    refine ⟨_, rfl, ?_⟩
    rw [mem_foldl_insert (fun handle => handle), mem_foldl_erase]
    rw [mem_foldl_insert, mem_foldl_erase] at hhandle
    rcases hhandle with ⟨hold, hkept⟩ | ⟨entry, hentry, rfl⟩
    · refine Or.inl ⟨?_, hkept⟩
      cases hprevious : d.values[canonical]? with
      | none => simp [hprevious] at hold
      | some previous =>
        rw [hprevious, Option.getD_some] at hold
        obtain ⟨written, hwritten, hstamp⟩ := h canonical previous handle hprevious hold hstanding
        rwa [hwritten, Option.getD_some]
    · refine Or.inr ⟨entry.1, List.mem_filter.2 ⟨?_, hstanding⟩, rfl⟩
      exact List.mem_map.2 ⟨entry, hentry, rfl⟩
  · simp only [if_neg hk] at hvalues ⊢
    exact h k values handle hvalues hhandle hstanding

theorem kept_fileValues (h : Kept d) {update : PresenceUpdate} (hself : d.IsSelf canonical)
    (decoded : List (UInt32 × List UInt8)) : Kept (d.fileValues update canonical decoded) where
  toFiled := filed_fileValues h.toFiled hself decoded
  seen k hk := by
    simp only [fileValues, ExtTreeMap.mem_insert, Std.compare_eq_iff_eq] at hk
    rcases hk with rfl | hk
    · exact hself
    · exact h.seen k hk
  standing k hk := by
    simp only [fileValues, ExtTreeMap.mem_insert, Std.compare_eq_iff_eq] at hk
    rcases hk with rfl | hk
    · exact hself
    · exact h.standing k hk
  sessioned k hk := by
    simp only [fileValues] at hk
    split_ifs at hk
    · rw [ExtTreeSet.mem_insert, Std.compare_eq_iff_eq] at hk
      rcases hk with rfl | hk
      · exact hself
      · exact h.sessioned k hk
    · exact h.sessioned k hk
  stamped := stamped_fileValues h.stamped update decoded

theorem kept_fileIds (h : Kept d) {update : PresenceUpdate}
    (hfiles : FilesUnder d update canonical) : Kept (d.fileIds update canonical) where
  toFiled := filed_fileIds h.toFiled hfiles
  seen k hk := fileIds_isSelf_of hfiles (h.seen k hk)
  standing k hk := fileIds_isSelf_of hfiles (h.standing k hk)
  sessioned k hk := fileIds_isSelf_of hfiles (h.sessioned k hk)
  stamped := h.stamped

theorem aliasSeen_file (h : d.AliasSeen) (update : PresenceUpdate)
    (decoded : List (UInt32 × List UInt8)) :
    ((d.fileIds update canonical).fileValues update canonical decoded).AliasSeen := by
  intro id c hc
  have hc : (d.fileIds update canonical).aliases[id]? = some c := hc
  rw [getElem?_fileIds] at hc
  refine ExtTreeMap.mem_insert.2 ?_
  split_ifs at hc
  · exact Or.inl (Std.compare_eq_iff_eq.2 (Option.some.inj hc))
  · exact Or.inr (h id c hc)

theorem Stray.fileIds {old : UInt32} (h : Stray d old canonical) (update : PresenceUpdate) :
    Stray (d.fileIds update canonical) old canonical where
  seen := h.seen
  values := h.values
  leads := by
    rw [getElem?_fileIds, h.leads, ite_self]
  ne := h.ne

theorem Stray.fileValues {old : UInt32} (h : Stray d old canonical) (update : PresenceUpdate)
    (decoded : List (UInt32 × List UInt8)) :
    Stray (d.fileValues update canonical decoded) old canonical where
  seen := ExtTreeMap.mem_insert.2 (Or.inr h.seen)
  values hmem := by
    simp only [PresenceDirectory.fileValues, ExtTreeMap.mem_insert, Std.compare_eq_iff_eq] at hmem
    rcases hmem with e | hmem
    · exact h.ne e
    · exact h.values hmem
  leads := h.leads
  ne := h.ne

end update

/-! ## One update -/

/-- The representative an update is filed under. -/
abbrev representative (d : PresenceDirectory) (update : PresenceUpdate) : UInt32 :=
  d.canonicalId update.localPresenceId update.masterPresenceId

/-- An update is refused when it names nobody or its payload does not add up. -/
def Refuses (d : PresenceDirectory) (update : PresenceUpdate) : Prop :=
  d.representative update = 0 ∨ ∃ e, d.readPayload update = .error e

/-- The directory before the update is filed, its ids joined. -/
def joined (d : PresenceDirectory) (update : PresenceUpdate) : PresenceDirectory :=
  (d.mergeAlias update.localPresenceId (d.representative update)).mergeAlias
    update.masterPresenceId (d.representative update)

theorem apply_of_refuses {update : PresenceUpdate} (h : d.Refuses update) :
    (d.apply update).2 = d := by
  unfold apply
  by_cases hzero : d.representative update = 0
  · simp [hzero]
  · obtain ⟨e, he⟩ := h.resolve_left hzero
    simp [hzero, he]

/-- An accepted update joins the ids, files the values and rebuilds the indexes. -/
theorem apply_of_accepts {update : PresenceUpdate} (h : ¬ d.Refuses update) :
    ∃ decoded fuel, (d.apply update).2 =
      (((d.joined update).fileIds update (d.representative update)).fileValues update
        (d.representative update) decoded).rebuildIdentityIndexes fuel := by
  simp only [Refuses, not_or, not_exists] at h
  cases hpayload : d.readPayload update with
  | error e => exact absurd hpayload (h.2 e)
  | ok decoded => exact ⟨decoded, _, by simp [apply, h.1, hpayload, joined]; rfl⟩

theorem mem_updateIds {update : PresenceUpdate} {id : UInt32} :
    id ∈ updateIds update ↔
      id ≠ 0 ∧ (id = update.localPresenceId ∨ id = update.masterPresenceId) := by
  simp [updateIds, and_comm]

/-- The representative is where a known id leads; when none is known, it is one of the ids. -/
theorem representative_cases (d : PresenceDirectory) (update : PresenceUpdate) :
    (∃ id ∈ updateIds update, d.aliases[id]? = some (d.representative update)) ∨
      ((∀ id ∈ updateIds update, d.aliases[id]? = none) ∧
        (d.representative update = 0 ∨ d.representative update ∈ updateIds update)) := by
  have hswap : ∀ id, id ∈ [update.masterPresenceId, update.localPresenceId].filter (· != 0) ↔
      id ∈ updateIds update := by
    intro id
    simp [updateIds, or_comm]
  unfold representative canonicalId
  cases hfind : ([update.masterPresenceId, update.localPresenceId].filter
      (· != 0)).findSome? fun id => d.aliases[id]? with
  | some c =>
    obtain ⟨id, hid, hc⟩ := List.exists_of_findSome?_eq_some hfind
    exact Or.inl ⟨id, (hswap id).1 hid, hc⟩
  | none =>
    refine Or.inr ⟨fun id hid => List.findSome?_eq_none_iff.1 hfind id ((hswap id).2 hid), ?_⟩
    simp only [Option.getD_none, mem_updateIds]
    split_ifs with hmaster
    · exact Or.inr ⟨by simpa using hmaster, Or.inr rfl⟩
    · by_cases hlocal : update.localPresenceId = 0
      · exact Or.inl hlocal
      · exact Or.inr ⟨hlocal, Or.inl rfl⟩

theorem isSelf_representative (h : Filed d) {update : PresenceUpdate} {id : UInt32}
    (hid : id ∈ updateIds update) (hmem : id ∈ d.aliases) : d.IsSelf (d.representative update) := by
  rcases d.representative_cases update with ⟨k, -, hk⟩ | ⟨hnone, -⟩
  · exact h.flat k _ hk
  · rw [ExtTreeMap.mem_iff_isSome_getElem?, hnone id hid] at hmem
    cases hmem

/-- An id of the update that has an alias makes the representative one of its own. -/
theorem isSelf_representative_of_alias (h : Filed d) {update : PresenceUpdate} {id : UInt32}
    (hid : id = update.localPresenceId ∨ id = update.masterPresenceId) (hmem : id ∈ d.aliases) :
    d.IsSelf (d.representative update) := by
  refine isSelf_representative h (mem_updateIds.2 ⟨?_, hid⟩) hmem
  rintro rfl
  rw [ExtTreeMap.mem_iff_isSome_getElem?, h.zero] at hmem
  cases hmem

theorem filed_joined (h : Filed d) (update : PresenceUpdate) : Filed (d.joined update) := by
  refine filed_mergeAlias (filed_mergeAlias h fun hmem =>
    isSelf_representative_of_alias h (Or.inl rfl) hmem) fun hmem => mergeAlias_isSelf ?_
  refine isSelf_representative_of_alias h (Or.inr rfl) ?_
  unfold mergeAlias at hmem
  split at hmem
  · exact hmem
  · split_ifs at hmem
    · exact hmem
    · rw [ExtTreeMap.mem_iff_isSome_getElem?, getElem?_redirectAliases, Option.isSome_map] at hmem
      exact ExtTreeMap.mem_iff_isSome_getElem?.2 hmem

theorem filesUnder_joined (h : Filed d) {update : PresenceUpdate}
    (hrepresentative : d.representative update ≠ 0) :
    FilesUnder (d.joined update) update (d.representative update) where
  agrees id hid := by
    rcases (mem_updateIds.1 hid).2 with rfl | rfl
    · exact mergeAlias_agrees (Or.inr (mergeAlias_agrees (Or.inl rfl)))
    · exact mergeAlias_agrees (Or.inl rfl)
  self := by
    rcases d.representative_cases update with ⟨id, hid, hc⟩ | ⟨-, hzero | hmem⟩
    · refine Or.inr (mergeAlias_isSelf (mergeAlias_isSelf ?_))
      exact h.flat id _ hc
    · exact absurd hzero hrepresentative
    · exact Or.inl hmem

/-- The ids of the update are new or already filed under its representative. -/
def JoinsNone (d : PresenceDirectory) (update : PresenceUpdate) : Prop :=
  ∀ id ∈ updateIds update, d.AgreesOn (d.representative update) id

theorem joined_of_joinsNone (h : Filed d) {update : PresenceUpdate} (hjoin : d.JoinsNone update) :
    d.joined update = d := by
  have hagrees : ∀ id, id = update.localPresenceId ∨ id = update.masterPresenceId →
      d.AgreesOn (d.representative update) id := by
    intro id hid
    by_cases hzero : id = 0
    · intro previous hprevious
      rw [hzero, h.zero] at hprevious
      cases hprevious
    · exact hjoin id (mem_updateIds.2 ⟨hzero, hid⟩)
  unfold joined
  rw [mergeAlias_of_agrees (hagrees _ (Or.inl rfl)), mergeAlias_of_agrees (hagrees _ (Or.inr rfl))]

/-- Joining two representatives leaves one of them behind. -/
theorem stray_joined (h : Filed d) (hseen : d.AliasSeen) {update : PresenceUpdate}
    (hjoin : ¬ d.JoinsNone update) :
    ∃ old, Stray (d.joined update) old (d.representative update) := by
  by_cases hlocal : d.AgreesOn (d.representative update) update.localPresenceId
  · have hmaster : ¬ d.AgreesOn (d.representative update) update.masterPresenceId := by
      intro hmaster
      refine hjoin fun id hid => ?_
      rcases (mem_updateIds.1 hid).2 with rfl | rfl
      · exact hlocal
      · exact hmaster
    unfold joined
    rw [mergeAlias_of_agrees hlocal]
    exact stray_mergeAlias h hseen hmaster
  · obtain ⟨old, hold⟩ := stray_mergeAlias h hseen hlocal
    exact ⟨old, hold.mergeAlias⟩

/-- An accepted update that joins two representatives leaves a stray id. -/
theorem stray_apply (h : Filed d) (hseen : d.AliasSeen) {update : PresenceUpdate}
    (haccepts : ¬ d.Refuses update) (hjoin : ¬ d.JoinsNone update) :
    ∃ old target, Stray (d.apply update).2 old target := by
  obtain ⟨decoded, fuel, happly⟩ := apply_of_accepts haccepts
  have hrepresentative : d.representative update ≠ 0 := fun e => haccepts (Or.inl e)
  have hfiles := filesUnder_joined h hrepresentative
  have hids := filed_fileIds (filed_joined h update) hfiles
  obtain ⟨old, hold⟩ := stray_joined h hseen hjoin
  rw [happly]
  have hstray := rebuild_induction (P := fun d => Filed d ∧ ∃ target, Stray d old target)
    (fun _ hd => hd.1)
    (fun d _ _ _ hd => ⟨⟨hd.1.flat, hd.1.zero, hd.1.values, hd.1.online, hd.1.localPresence⟩,
      hd.2.imp fun _ ht => ⟨ht.seen, ht.values, ht.leads, ht.ne⟩⟩)
    (fun d folded keep hd hne hfolded hkeep =>
      ⟨filed_foldIdentity hd.1 hne hfolded hkeep, hd.2.elim fun _ ht =>
        stray_foldIdentity ht hne hfolded hkeep⟩)
    ⟨filed_fileValues hids (fileIds_isSelf hfiles) decoded,
      ⟨_, (hold.fileIds update).fileValues update decoded⟩⟩ fuel
  exact ⟨old, hstray.2⟩

/-- An update that joins no two representatives keeps everything filed under one id. -/
theorem kept_apply (h : Kept d) (hseen : d.AliasSeen) {update : PresenceUpdate}
    (hstep : d.Refuses update ∨ d.JoinsNone update) :
    Kept (d.apply update).2 ∧ (d.apply update).2.AliasSeen := by
  by_cases hrefuses : d.Refuses update
  · rw [apply_of_refuses hrefuses]
    exact ⟨h, hseen⟩
  · have hjoin := hstep.resolve_left hrefuses
    obtain ⟨decoded, fuel, happly⟩ := apply_of_accepts hrefuses
    have hrepresentative : d.representative update ≠ 0 := fun e => hrefuses (Or.inl e)
    have hfiles := filesUnder_joined h.toFiled hrepresentative
    rw [joined_of_joinsNone h.toFiled hjoin] at happly hfiles
    rw [happly]
    exact rebuild_induction (P := fun d => Kept d ∧ d.AliasSeen) (fun _ hd => hd.1.toFiled)
      (fun d _ _ _ hd => ⟨⟨⟨hd.1.flat, hd.1.zero, hd.1.values, hd.1.online, hd.1.localPresence⟩,
        hd.1.seen, hd.1.standing, hd.1.sessioned, hd.1.stamped⟩, hd.2⟩)
      (fun d folded keep hd hne hfolded hkeep =>
        ⟨kept_foldIdentity hd.1 hne hfolded hkeep,
          aliasSeen_foldIdentity hd.1.toFiled hd.2 hne hfolded hkeep⟩)
      ⟨kept_fileValues (kept_fileIds h hfiles) (fileIds_isSelf hfiles) decoded,
        aliasSeen_file hseen update decoded⟩ fuel

/-! ## Runs -/

/-- The step is no update, or one that is refused or joins no two representatives. -/
def StepJoinsNone (d : PresenceDirectory) : Step → Prop
  | .announce _ => True
  | .apply update => d.Refuses update ∨ d.JoinsNone update

theorem kept_empty : Kept {} where
  flat _ _ h := by simp at h
  zero := by simp
  values _ h := by simp at h
  online _ h := by simp at h
  localPresence _ h := by simp at h
  seen _ h := by simp at h
  standing _ h := by simp at h
  sessioned _ h := by simp at h
  stamped _ _ _ h := by simp at h

theorem kept_step (h : Kept d ∧ d.AliasSeen) (s : Step) (hs : d.StepJoinsNone s) :
    Kept (d.step s) ∧ (d.step s).AliasSeen := by
  cases s with
  | announce fields =>
    obtain ⟨hkept, hseen⟩ := h
    exact ⟨⟨⟨hkept.flat, hkept.zero, hkept.values, hkept.online, hkept.localPresence⟩, hkept.seen,
      hkept.standing, hkept.sessioned, hkept.stamped⟩, hseen⟩
  | apply update => exact kept_apply h.1 h.2 hs

/-- **Joined ids are not refiled.** The representation invariant holds in every state of a run
exactly when no accepted update of the run joins two representatives. -/
theorem represents_iff_joins_none (steps : List Step) :
    StatesMeet step Represents {} steps ↔ StepsMeet step StepJoinsNone {} steps := by
  refine statesMeet_iff_stepsMeet (I := fun d => Kept d ∧ d.AliasSeen)
    (fun d h => h.1.represents) (fun d s h hs => kept_step h s hs) (fun d s h hs => ?_)
    ⟨kept_empty, fun _ _ h => by simp at h⟩
  cases s with
  | announce fields => exact absurd trivial hs
  | apply update =>
    simp only [StepJoinsNone, not_or] at hs
    obtain ⟨old, target, hstray⟩ := stray_apply h.1.toFiled h.2 hs.1 hs.2
    exact hstray.not_represents

/-- Presence 1 and presence 2 report separately, then one update names both. -/
def joiningRun : List Step :=
  let report (localId masterId : UInt32) : Step := .apply {
    localPresenceId := localId, masterPresenceId := masterId, fieldData := []
    clearedHandles := [], handles := [], variableSizes := [], online := true }
  [report 1 0, report 2 0, report 1 2]

/-- The state of the first id is left behind: `seen` still has it, and it leads to the second. -/
theorem joiningRun_not_represents : ¬ ∀ steps, StatesMeet step Represents {} steps := by
  intro h
  have hseen := (h joiningRun).last.seen 1
  have hmem : (1 : UInt32) ∈ (run step {} joiningRun).seen := by decide
  have hleads : (run step {} joiningRun).canonicalPresenceId 1 = 2 := by decide
  rw [hleads] at hseen
  exact absurd (hseen hmem) (by decide)

end PresenceDirectory

end Superiority
