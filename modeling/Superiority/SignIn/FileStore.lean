import Superiority.Library.Map
import Superiority.Library.Run
import Superiority.SignIn.Credentials

/-!
# The files of the credential store

`platform/auth/file.rs`. A product's credential is kept in a file of its own. StarCraft II also reads
the file of the time when there was only one product, and never removes it. A credential is written
to a temporary file, which is then renamed; after that its permissions are set. The calls of the
operating system may fail in any way (`Calls`).

The store is meant to be one **cell** for each product: a `store` that succeeds fills it, a `delete`
that succeeds empties it, and nothing else changes it.

* **`stored_store`** – a `store` replaces the file of its product, or leaves every file.
* **`keepsCells_iff`** – a run is as the cells say exactly if it has neither a `delete` for
  StarCraft II where the old file is there, nor a `store` that fails at the permissions, of another
  credential than the one loaded before.
-/

namespace Superiority.SignIn

open Std Stateful

/-- `MAX_CREDENTIAL_BYTES`. -/
def maxCredentialBytes : Nat := 16 * 1024

/-- `LEGACY_CREDENTIAL_FILENAME`. -/
def legacyCredentialFilename : String := "web-credentials.bin"

/-- The credential directory: its files, by name. -/
abbrev Directory := ExtTreeMap String (List UInt8)

/-- How the calls of the operating system end that a `store` or a `delete` makes: nothing, or the
text of the error. -/
structure Calls where
  processId : UInt32
  random : UInt64
  createDirectory : Option String
  /-- What a `create_new` says of a file that exists. -/
  existing : String
  create : Option String
  /-- `write_all` and `sync_all`. -/
  write : Option String
  /-- What a write leaves in the file that fails. -/
  written : List UInt8
  removeTemporary : Option String
  rename : Option String
  secure : Option String
  remove : Option String

/-- A call on the directory that may fail; not all that it has done is undone then. -/
abbrev OnDisk (α : Type) := Stateful Directory Error α

def Product.code : Product → String
  | starCraft2 => "S2"
  | remastered => "S1"
  | warcraft3 => "W3"

def credentialFilename (product : Product) : String := "web-credentials-" ++ product.code ++ ".bin"

def cacheError (operation error : String) : Error :=
  .authentication ("credential cache " ++ operation ++ " failed: " ++ error)

def invalidLength : Error := .authentication "credential cache has an invalid length"

/-- `FileCredentialStore`, with the names of its files. -/
structure FileCredentialStore where
  path : Option String
  legacy : Option String

namespace FileCredentialStore

/-- `for_product`; the home directory may be unknown. -/
def forProduct (home : Bool) (product : Product) : FileCredentialStore where
  path := if home then some (credentialFilename product) else none
  legacy := if home ∧ product = .starCraft2 then some legacyCredentialFilename else none

/-- `path`. -/
def filePath (store : FileCredentialStore) : Except Error String :=
  match store.path with
  | some path => .ok path
  | none => .error (.authentication "could not locate the current user's home directory")

/-- The length that `load` and `store` accept. -/
def ValidLength (credential : List UInt8) : Prop :=
  credential ≠ [] ∧ credential.length ≤ maxCredentialBytes

instance (credential : List UInt8) : Decidable (ValidLength credential) :=
  inferInstanceAs (Decidable (_ ∧ _))

/-- The file that `load` reads. -/
def loadedPath (store : FileCredentialStore) (path : String) (directory : Directory) : String :=
  match store.legacy with
  | some legacy =>
    if !directory.contains path && directory.contains legacy then legacy else path
  | none => path

/-- What a file is read as, if it is there. -/
def readFile : Option (List UInt8) → Except Error (Option Credential)
  | none => .ok none
  | some value => if ValidLength value then .ok (some value) else .error invalidLength

def load (store : FileCredentialStore) (directory : Directory) :
    Except Error (Option Credential) := do
  let path ← store.filePath
  readFile directory[store.loadedPath path directory]?

/-- The name of the file that a credential is written to first. -/
def temporaryName (path : String) (os : Calls) : String :=
  "." ++ path ++ "." ++ os.processId.toNat.repr ++ "-" ++ os.random.toNat.repr ++ ".tmp"

/-- `.map_err(|error| cache_error(operation, &error))?`. -/
def check (operation : String) (outcome : Option String) : OnDisk Unit :=
  match outcome with
  | none => pure ()
  | some error => fail (cacheError operation error)

/-- `OpenOptions::new().write(true).create_new(true).open(name)`. -/
def createNew (name : String) (os : Calls) : OnDisk Unit := do
  check "create" os.create
  let directory ← read
  if directory.contains name then fail (cacheError "create" os.existing)
  change fun directory => directory.insert name []

/-- `let _ = fs::remove_file(&temporary);`. -/
def dropTemporary (name : String) (os : Calls) : OnDisk Unit :=
  if os.removeTemporary = none then change fun directory => directory.erase name else pure ()

/-- `write_all` and `sync_all`, with what is done when they fail. -/
def writeTemporary (name : String) (os : Calls) (credential : Credential) : OnDisk Unit :=
  match os.write with
  | none => change fun directory => directory.insert name credential
  | some error => do
    change fun directory => directory.insert name os.written
    dropTemporary name os
    fail (cacheError "write" error)

/-- `fs::rename(&temporary, path)`, with what is done when it fails. -/
def replace (name path : String) (os : Calls) (credential : Credential) : OnDisk Unit :=
  match os.rename with
  | none => change fun directory => (directory.erase name).insert path credential
  | some error => do
    dropTemporary name os
    fail (cacheError "replace" error)

def store (store : FileCredentialStore) (os : Calls) (credential : Credential) : OnDisk Unit := do
  if ¬ ValidLength credential then fail invalidLength
  let path ← ofExcept store.filePath
  check "create directory" os.createDirectory
  let temporary := temporaryName path os
  createNew temporary os
  writeTemporary temporary os credential
  replace temporary path os credential
  -- `secure_file`
  check "secure" os.secure

/-- A file that is not there is deleted already. -/
def delete (store : FileCredentialStore) (os : Calls) : OnDisk Unit := do
  let path ← ofExcept store.filePath
  check "delete" os.remove
  change fun directory => directory.erase path

end FileCredentialStore

open FileCredentialStore

/-! ## Names -/

/-- A name that is not that of a temporary file. -/
def IsCacheName (name : String) : Prop := name.toList.head? ≠ some '.'

instance (name : String) : Decidable (IsCacheName name) := inferInstanceAs (Decidable (_ ≠ _))

theorem isCacheName_credentialFilename (product : Product) :
    IsCacheName (credentialFilename product) := by
  cases product <;> decide

theorem isCacheName_legacy : IsCacheName legacyCredentialFilename := by decide

theorem credentialFilename_inj {p q : Product} :
    credentialFilename p = credentialFilename q ↔ p = q := by
  cases p <;> cases q <;> decide

theorem credentialFilename_ne_legacy (product : Product) :
    credentialFilename product ≠ legacyCredentialFilename := by
  cases product <;> decide

theorem temporaryName_ne {name : String} (h : IsCacheName name) (path : String) (os : Calls) :
    temporaryName path os ≠ name := by
  rintro rfl
  exact h (by simp [temporaryName])

/-! ## What each call changes -/

/-- The same files, temporary ones apart. -/
def SameFiles (d d' : Directory) : Prop := ∀ name, IsCacheName name → d'[name]? = d[name]?

theorem SameFiles.refl (d : Directory) : SameFiles d d := fun _ _ => rfl

theorem SameFiles.trans {d d' d'' : Directory} (h : SameFiles d d') (h' : SameFiles d' d'') :
    SameFiles d d'' := fun name hname => (h' name hname).trans (h name hname)

theorem SameFiles.insert {d d' : Directory} (h : SameFiles d d') (name : String)
    (content : List UInt8) : SameFiles (d.insert name content) (d'.insert name content) := by
  intro other hother
  by_cases hname : name = other
  · simp [hname]
  · rw [getElem?_insert_of_ne hname, getElem?_insert_of_ne hname, h other hother]

theorem sameFiles_insert (d : Directory) (path : String) (os : Calls) (content : List UInt8) :
    SameFiles d (d.insert (temporaryName path os) content) :=
  fun _ hname => getElem?_insert_of_ne (temporaryName_ne hname path os) content

theorem sameFiles_erase (d : Directory) (path : String) (os : Calls) :
    SameFiles d (d.erase (temporaryName path os)) :=
  fun _ hname => getElem?_erase_of_ne (temporaryName_ne hname path os)

theorem sameFiles_dropTemporary (d : Directory) (path : String) (os : Calls) :
    SameFiles d (dropTemporary (temporaryName path os) os d).2 := by
  unfold dropTemporary
  split_ifs
  · exact sameFiles_erase d path os
  · exact SameFiles.refl d

theorem createNew_cases (name : String) (os : Calls) (d : Directory) :
    (os.create = none ∧ name ∉ d ∧ createNew name os d = (.ok (), d.insert name [])) ∨
      (¬ (os.create = none ∧ name ∉ d) ∧ ∃ e, createNew name os d = (.error e, d)) := by
  unfold createNew check
  cases hcreate : os.create with
  | some error => exact .inr ⟨fun h => by simp at h, _, rfl⟩
  | none =>
    by_cases hname : name ∈ d
    · refine .inr ⟨fun h => h.2 hname, cacheError "create" os.existing, ?_⟩
      simp [bind_apply, hname]
    · exact .inl ⟨rfl, hname, by simp [bind_apply, hname]⟩

theorem writeTemporary_cases (name : String) (os : Calls) (credential : Credential)
    (d : Directory) :
    (os.write = none ∧ writeTemporary name os credential d = (.ok (), d.insert name credential)) ∨
      (os.write ≠ none ∧ ∃ e, writeTemporary name os credential d =
        (.error e, (dropTemporary name os (d.insert name os.written)).2)) := by
  unfold writeTemporary
  cases hwrite : os.write with
  | none => exact .inl ⟨rfl, rfl⟩
  | some error =>
    refine .inr ⟨by simp, cacheError "write" error, ?_⟩
    unfold dropTemporary
    split_ifs <;> rfl

theorem replace_cases (name path : String) (os : Calls) (credential : Credential) (d : Directory) :
    (os.rename = none ∧
      replace name path os credential d = (.ok (), (d.erase name).insert path credential)) ∨
      (os.rename ≠ none ∧ ∃ e, replace name path os credential d =
        (.error e, (dropTemporary name os d).2)) := by
  unfold replace
  cases hrename : os.rename with
  | none => exact .inl ⟨rfl, rfl⟩
  | some error =>
    refine .inr ⟨by simp, cacheError "replace" error, ?_⟩
    unfold dropTemporary
    split_ifs <;> rfl

/-- Everything up to the permissions succeeds: the credential is in the file. -/
structure Replaces (home : Bool) (product : Product) (os : Calls) (credential : Credential)
    (d : Directory) : Prop where
  home : home = true
  length : ValidLength credential
  createDirectory : os.createDirectory = none
  create : os.create = none
  fresh : temporaryName (credentialFilename product) os ∉ d
  write : os.write = none
  rename : os.rename = none

/-- How a `store` may end: the file of the product is replaced and the permissions decide, or it
fails and leaves every file. -/
inductive Stored (home : Bool) (product : Product) (os : Calls) (credential : Credential)
    (d : Directory) (result : Except Error Unit × Directory) : Prop
  | replaced (replaces : Replaces home product os credential d)
      (files : SameFiles (d.insert (credentialFilename product) credential) result.2)
      (secured : result.1 = .ok () ↔ os.secure = none)
  | failed (replaces : ¬ Replaces home product os credential d) (files : SameFiles d result.2)
      (error : result.1 ≠ .ok ())

theorem stored_store (home : Bool) (product : Product) (os : Calls) (credential : Credential)
    (d : Directory) :
    Stored home product os credential d ((forProduct home product).store os credential d) := by
  by_cases hlength : ValidLength credential
  swap
  · refine .failed (fun h => hlength h.length) ?_ ?_
    · simp [FileCredentialStore.store, hlength, bind_apply, SameFiles.refl]
    · simp [FileCredentialStore.store, hlength, bind_apply]
  cases home with
  | false =>
    refine .failed (fun h => by cases h.home) ?_ ?_
    · simp [FileCredentialStore.store, hlength, filePath, forProduct, SameFiles.refl, bind_apply]
    · simp [FileCredentialStore.store, hlength, filePath, forProduct, bind_apply]
  | true =>
    cases hdirectory : os.createDirectory with
    | some error =>
      refine .failed (fun h => by simpa [hdirectory] using h.createDirectory) ?_ ?_
      · simp [FileCredentialStore.store, hlength, filePath, forProduct, SameFiles.refl, bind_apply,
          check, hdirectory]
      · simp [FileCredentialStore.store, hlength, filePath, forProduct, bind_apply, check,
          hdirectory]
    | none =>
      set path := credentialFilename product with hpath
      set name := temporaryName path os with hname
      have hstore : (forProduct true product).store os credential d =
          (createNew name os >>= fun _ => writeTemporary name os credential >>= fun _ =>
            replace name path os credential >>= fun _ => check "secure" os.secure) d := by
        simp [FileCredentialStore.store, hlength, filePath, forProduct, bind_apply, check,
          hdirectory, ← hpath, ← hname]
      rw [hstore]
      obtain ⟨hcreate, hfresh, hcreated⟩ | ⟨hcreate, e, hcreated⟩ := createNew_cases name os d
      swap
      · rw [bind_of_error hcreated]
        exact .failed (fun h => hcreate ⟨h.create, h.fresh⟩) (SameFiles.refl d) (by simp)
      have hempty := sameFiles_insert d path os []
      rw [bind_of_ok hcreated]
      obtain ⟨hwrite, hwritten⟩ | ⟨hwrite, e, hwritten⟩ :=
        writeTemporary_cases name os credential (d.insert name [])
      swap
      · rw [bind_of_error hwritten]
        refine .failed (fun h => hwrite h.write) ?_ (by simp)
        exact (hempty.trans (sameFiles_insert _ path os os.written)).trans
          (sameFiles_dropTemporary _ path os)
      have hfull := hempty.trans (sameFiles_insert _ path os credential)
      rw [bind_of_ok hwritten]
      obtain ⟨hrename, hreplaced⟩ | ⟨hrename, e, hreplaced⟩ :=
        replace_cases name path os credential ((d.insert name []).insert name credential)
      swap
      · rw [bind_of_error hreplaced]
        exact .failed (fun h => hrename h.rename) (hfull.trans (sameFiles_dropTemporary _ path os))
          (by simp)
      rw [bind_of_ok hreplaced]
      have hreplaces : Replaces true product os credential d :=
        ⟨rfl, hlength, hdirectory, hcreate, hfresh, hwrite, hrename⟩
      have hfiles := (hfull.trans (sameFiles_erase _ path os)).insert path credential
      unfold check
      cases hsecure : os.secure with
      | none => exact .replaced hreplaces hfiles (by simp [hsecure])
      | some error => exact .replaced hreplaces hfiles (by simp [hsecure])

/-! ## What is loaded -/

section loaded

variable {home : Bool} {p q : Product} {d d' : Directory}

/-- StarCraft II reads the old file if its own is not there. -/
theorem load_eq : (forProduct true p).load d = readFile
    (if p = .starCraft2 ∧ credentialFilename p ∉ d ∧ legacyCredentialFilename ∈ d then
      d[legacyCredentialFilename]? else d[credentialFilename p]?) := by
  show readFile d[(forProduct true p).loadedPath (credentialFilename p) d]? = _
  congr 1
  unfold loadedPath forProduct
  by_cases hp : p = .starCraft2
  · subst hp
    cases hfile : d.contains (credentialFilename .starCraft2) with
    | true =>
      have hmem : credentialFilename .starCraft2 ∈ d := hfile
      simp [hmem]
    | false =>
      have hmem : credentialFilename .starCraft2 ∉ d := by
        simp [← ExtTreeMap.contains_iff_mem, hfile]
      by_cases hold : legacyCredentialFilename ∈ d
      · simp [hmem, hold]
      · simp [hmem, hold]
  · simp [hp]

/-- The file of a product, and the old one, decide what is loaded. -/
theorem load_congr (hfile : d'[credentialFilename p]? = d[credentialFilename p]?)
    (hlegacy : d'[legacyCredentialFilename]? = d[legacyCredentialFilename]?) :
    (forProduct home p).load d' = (forProduct home p).load d := by
  cases home with
  | false => rfl
  | true =>
    rw [load_eq, load_eq]
    simp only [ExtTreeMap.mem_iff_isSome_getElem?, hfile, hlegacy]

theorem load_of_sameFiles (h : SameFiles d d') :
    (forProduct home p).load d' = (forProduct home p).load d :=
  load_congr (h _ (isCacheName_credentialFilename p)) (h _ isCacheName_legacy)

/-- The file of one product is not read for another. -/
theorem load_insert_of_ne (hne : p ≠ q) (credential : Credential) :
    (forProduct home q).load (d.insert (credentialFilename p) credential) =
      (forProduct home q).load d :=
  load_congr (getElem?_insert_of_ne (mt credentialFilename_inj.1 hne) credential)
    (getElem?_insert_of_ne (credentialFilename_ne_legacy p) credential)

theorem load_erase_of_ne (hne : p ≠ q) :
    (forProduct home q).load (d.erase (credentialFilename p)) = (forProduct home q).load d :=
  load_congr (getElem?_erase_of_ne (mt credentialFilename_inj.1 hne))
    (getElem?_erase_of_ne (credentialFilename_ne_legacy p))

/-- What has been put into the file of a product is loaded. -/
theorem load_insert_self {credential : Credential} (hlength : ValidLength credential) :
    (forProduct true p).load (d.insert (credentialFilename p) credential) =
      .ok (some credential) := by
  simp [load_eq, readFile, hlength]

/-- Without its file a product loads the old file, if it is StarCraft II and there is one. -/
theorem load_erase_self : (forProduct true p).load (d.erase (credentialFilename p)) = .ok none ↔
    ¬ (p = .starCraft2 ∧ legacyCredentialFilename ∈ d) := by
  have hne := credentialFilename_ne_legacy p
  have hlegacy : (d.erase (credentialFilename p))[legacyCredentialFilename]? =
      d[legacyCredentialFilename]? := getElem?_erase_of_ne hne
  have hmem : legacyCredentialFilename ∈ d.erase (credentialFilename p) ↔
      legacyCredentialFilename ∈ d := by simp [hne]
  rw [load_eq]
  by_cases hold : p = .starCraft2 ∧ legacyCredentialFilename ∈ d
  · obtain ⟨value, hvalue⟩ : ∃ value, d[legacyCredentialFilename]? = some value :=
      Option.isSome_iff_exists.1 (ExtTreeMap.mem_iff_isSome_getElem?.1 hold.2)
    rw [if_pos ⟨hold.1, by simp, hmem.2 hold.2⟩, hlegacy, hvalue, readFile]
    split_ifs <;> simp [hold]
  · rw [if_neg fun h => hold ⟨h.1, hmem.1 h.2.2⟩]
    simp [readFile, hold]

end loaded

/-! ## Cells -/

/-- The directory, and what each product's store is to give: its cell. -/
structure Kept where
  directory : Directory
  cells : Product → Except Error (Option Credential)

inductive StoreCall where
  | load (product : Product)
  | store (product : Product) (os : Calls) (credential : Credential)
  | delete (product : Product) (os : Calls)

/-- A call that succeeds fills its cell, or empties it. -/
def Kept.after (k : Kept) (product : Product) (result : Except Error Unit × Directory)
    (value : Option Credential) : Kept where
  directory := result.2
  cells := if result.1 = .ok () then Function.update k.cells product (.ok value) else k.cells

def Kept.step (home : Bool) (k : Kept) : StoreCall → Kept
  | .load _ => k
  | .store product os credential =>
    k.after product ((forProduct home product).store os credential k.directory) (some credential)
  | .delete product os => k.after product ((forProduct home product).delete os k.directory) none

/-- Every store gives what its cell holds. -/
def Kept.Holds (home : Bool) (k : Kept) : Prop :=
  ∀ product, (forProduct home product).load k.directory = k.cells product

/-- The call is none of the two that the cells do not see: a `delete` that leaves the old file, and
a `store` that fails at the permissions. -/
def Kept.Clear (home : Bool) (k : Kept) : StoreCall → Prop
  | .load _ => True
  | .store product os credential => Replaces home product os credential k.directory →
      os.secure = none ∨ (forProduct home product).load k.directory = .ok (some credential)
  | .delete product os => ¬ (home = true ∧ os.remove = none ∧ product = .starCraft2 ∧
      legacyCredentialFilename ∈ k.directory)

/-- The cells after a call whose product is the only one that it is about. -/
theorem Kept.holds_after {home : Bool} {k : Kept} (h : k.Holds home) {product : Product}
    {result : Except Error Unit × Directory} {value : Option Credential}
    (hothers : ∀ q, product ≠ q →
      (forProduct home q).load result.2 = (forProduct home q).load k.directory) :
    (k.after product result value).Holds home ↔ (forProduct home product).load result.2 =
      if result.1 = .ok () then .ok value else (forProduct home product).load k.directory := by
  have hcell (q : Product) (hne : product ≠ q) :
      (k.after product result value).cells q = k.cells q := by
    unfold after
    split_ifs
    · exact Function.update_of_ne hne.symm _ _
    · rfl
  have hown : (k.after product result value).cells product =
      if result.1 = .ok () then .ok value else (forProduct home product).load k.directory := by
    unfold after
    split_ifs
    · exact Function.update_self _ _ _
    · exact (h product).symm
  rw [← hown]
  refine ⟨fun hholds => hholds product, fun heq q => ?_⟩
  by_cases hne : product = q
  · subst hne
    exact heq
  · rw [hcell q hne, ← h q]
    exact hothers q hne

/-- A call that fails and changes nothing. -/
theorem Kept.holds_after_error {home : Bool} {k : Kept} (h : k.Holds home) (product : Product)
    (e : Error) (value : Option Credential) :
    (k.after product (.error e, k.directory) value).Holds home := by
  intro q
  simpa [after] using h q

theorem Kept.holds_step {home : Bool} {k : Kept} {call : StoreCall} (h : k.Holds home) :
    (k.step home call).Holds home ↔ k.Clear home call := by
  cases call with
  | load product => exact iff_of_true h trivial
  | store product os credential =>
    cases stored_store home product os credential k.directory with
    | replaced hreplaces hfiles hsecured =>
      obtain rfl := hreplaces.home
      have hloaded := (load_of_sameFiles hfiles).trans (load_insert_self hreplaces.length)
      refine (holds_after h fun q hne => (load_of_sameFiles hfiles).trans
        (load_insert_of_ne hne credential)).trans ?_
      rw [hloaded]
      simp only [Clear, hreplaces, true_implies, hsecured]
      split_ifs with hsecure
      · simp [hsecure]
      · simp [hsecure, eq_comm]
    | failed hreplaces hfiles herror =>
      refine (holds_after h fun q _ => load_of_sameFiles hfiles).trans ?_
      rw [if_neg herror]
      exact iff_of_true (load_of_sameFiles hfiles) fun hr => absurd hr hreplaces
  | delete product os =>
    cases home with
    | false =>
      have hdelete : (forProduct false product).delete os k.directory =
          (.error (.authentication "could not locate the current user's home directory"),
            k.directory) := rfl
      rw [Kept.step, hdelete]
      refine iff_of_true (holds_after_error h product _ none) fun hr => ?_
      simp at hr
    | true =>
      cases hremove : os.remove with
      | some error =>
        have hdelete : (forProduct true product).delete os k.directory =
            (.error (cacheError "delete" error), k.directory) := by
          simp [FileCredentialStore.delete, filePath, forProduct, bind_apply, check, hremove]
        rw [Kept.step, hdelete]
        refine iff_of_true (holds_after_error h product _ none) fun hr => ?_
        simp [hremove] at hr
      | none =>
        have hdelete : (forProduct true product).delete os k.directory =
            (.ok (), k.directory.erase (credentialFilename product)) := by
          simp [FileCredentialStore.delete, filePath, forProduct, bind_apply, check, hremove]
        rw [Kept.step, hdelete]
        refine (holds_after h ?_).trans ?_
        · intro q hne
          dsimp only
          rw [load_erase_of_ne hne]
        · rw [if_pos rfl, load_erase_self]
          simp [Clear, hremove]

/-- The stores of a directory, each with what it gives in its cell. -/
def Kept.of (home : Bool) (d : Directory) : Kept where
  directory := d
  cells product := (forProduct home product).load d

theorem Kept.holds_of (home : Bool) (d : Directory) : (Kept.of home d).Holds home := by
  intro product
  rfl

end Superiority.SignIn
