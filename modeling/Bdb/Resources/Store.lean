import Bdb.Base.Crowd
import Mathlib.Data.List.Sort
import Mathlib.Data.String.Basic

/-! # The store of shared resources

A resource has a directory of its own, with its payload, a manifest that describes the payload, and the lock file of
whoever publishes it. Calls work on these files one after another, each file step by itself; a call that is not advanced
any more has crashed.
-/
namespace Bdb.Resources

/-! ## Keys and manifests -/

abbrev Bytes := List UInt8

inductive MutabilityClass where
  | sealedImmutable
  | appendOnlyCache
  | mutableDisallowed
deriving DecidableEq

structure SharingRule where
  ecosystem : String
  artifactClass : String
  area : String
  mutability : MutabilityClass
  sharedAllowed : Bool
  projectLocalRequired : Bool
  noConflict : projectLocalRequired = true → sharedAllowed = false

theorem notProjectLocal : false = true → true = false :=
  nofun

def defaultRules : List SharingRule :=
  [⟨"npm","download_cache","Cache",.appendOnlyCache,true,false,notProjectLocal⟩,
    ⟨"pnpm","download_cache","Cache",.appendOnlyCache,true,false,notProjectLocal⟩,
    ⟨"python","wheel_cache","Cache",.appendOnlyCache,true,false,notProjectLocal⟩,
    ⟨"python","venv","Environment",.mutableDisallowed,false,true,fun _ => rfl⟩,
    ⟨"node","node_modules","Environment",.mutableDisallowed,false,true,fun _ => rfl⟩,
    ⟨"cargo","registry_cache","Cache",.appendOnlyCache,true,false,notProjectLocal⟩,
    ⟨"cargo","git_cache","Cache",.appendOnlyCache,true,false,notProjectLocal⟩,
    ⟨"cargo","target","Environment",.mutableDisallowed,false,true,fun _ => rfl⟩,
    ⟨"toolchain","sealed_toolchain","Toolchains",.sealedImmutable,true,false,notProjectLocal⟩]

structure SharedResourceKey where
  ecosystem : String
  artifactClass : String
  platform : String
  toolVersion : String
  contentDigest : String
deriving DecidableEq

structure Manifest where
  key : SharedResourceKey
  area : String
  mutability : MutabilityClass
  payloadDigest : String
  sizeBytes : ℕ
deriving DecidableEq

/-- The directory of a resource is named by the digest of its key. -/
structure Directory where
  area : String
  ecosystem : String
  artifactClass : String
  keyDigest : String
deriving DecidableEq

/-- The sharing matrix, the quotas and the areas of a store, and its digests. -/
structure Setting where
  rules : List SharingRule
  limitFor : String → ℕ
  areas : List String
  sha256 : Bytes → String
  keyDigest : SharedResourceKey → String

def maxEntryBytes : ℕ := 16 * 1024 * 1024

variable (w : Setting)

def Setting.ruleFor (key : SharedResourceKey) : Option SharingRule :=
  w.rules.find? fun r => r.ecosystem == key.ecosystem && r.artifactClass == key.artifactClass

def Setting.directory (rule : SharingRule) (key : SharedResourceKey) : Directory :=
  ⟨rule.area,key.ecosystem,key.artifactClass,w.keyDigest key⟩

def Setting.exact (rule : SharingRule) (key : SharedResourceKey) (m : Manifest) (payload : Bytes) : Bool :=
  m.key = key && m.area = rule.area && m.payloadDigest = w.sha256 payload && m.sizeBytes = payload.length

/-! ## Files -/

/-- A lock file, with the token of its owner once that is written. -/
structure LockFile where
  owner : ℕ
  written : Bool
deriving DecidableEq

/-- What reading a manifest file gives: the manifest, or the code of the failure. -/
abbrev ManifestFile := Except String Manifest

/-- The files of one directory, with the unfinished ones of publishers. -/
structure Files where
  payload : Option Bytes
  manifest : Option ManifestFile
  lock : Option LockFile
  partials : List ℕ

def Files.none : Files := ⟨Option.none,Option.none,Option.none,[]⟩

def Files.isEmpty (f : Files) : Bool := f.payload.isNone && f.manifest.isNone && f.lock.isNone && f.partials.isEmpty

/-- The directories of the store, and the keys that are active in each of its instances. -/
structure Disk where
  directories : List (Directory × Files)
  active : ℕ → List (String × String)

namespace Disk

variable (disk : Disk)

def get (d : Directory) : Option Files := (disk.directories.find? (·.1 = d)).map (·.2)

def files (d : Directory) : Files := (disk.get d).getD .none

def makeDirectory (d : Directory) : Disk :=
  match disk.get d with
  | some _ => disk
  | none => { disk with directories := disk.directories ++ [(d,.none)] }

def change (d : Directory) (f : Files → Files) : Disk :=
  { disk with directories := disk.directories.map fun e => if e.1 = d then (e.1,f e.2) else e }

def removeDirectory (d : Directory) : Disk × Bool :=
  match disk.get d with
  | some f =>
    if f.isEmpty = true then ({ disk with directories := disk.directories.filter fun e => e.1 ≠ d },true)
    else (disk,false)
  | none => (disk,false)

inductive Locking where
  | created
  | taken
  | failed

def createLock (d : Directory) (owner : ℕ) : Disk × Locking :=
  match disk.get d with
  | none => (disk,.failed)
  | some f =>
    match f.lock with
    | some _ => (disk,.taken)
    | none => (disk.change d fun f => { f with lock := some ⟨owner,false⟩ },.created)

def readManifest (d : Directory) : Except String Manifest :=
  match (disk.files d).manifest with
  | some content => content
  | none => .error "missing_entry"

def readPayload (d : Directory) : Except String Bytes :=
  match (disk.files d).payload with
  | some payload => if maxEntryBytes < payload.length then .error "entry_too_large" else .ok payload
  | none => .error "missing_entry"

def manifests (area : String) : List Directory :=
  (disk.directories.filter fun e => e.1.area == area && e.2.manifest.isSome).map (·.1)

def isActive (inst : ℕ) (keyDigest : String) : Bool := (disk.active inst).any (·.1 == keyDigest)

def markActive (inst : ℕ) (keyDigest token : String) : Disk × Bool :=
  if disk.isActive inst keyDigest then (disk,false)
  else ({ disk with active := fun i => if i = inst then disk.active i ++ [(keyDigest,token)] else disk.active i },true)

def releaseActive (inst : ℕ) (keyDigest token : String) : Disk × Bool :=
  if (keyDigest,token) ∈ disk.active inst then
    ({ disk with active := fun i => if i = inst then (disk.active i).filter (·.1 != keyDigest) else disk.active i },true)
  else (disk,false)

end Disk

/-! ## File steps -/

/-- A file or a directory that the system does not remove. -/
inductive Refusal where
  | payload
  | manifest
  | directory
deriving DecidableEq

/-- The arguments of `garbage_collect` on an instance of the store, and what the system refuses it. -/
structure CollectCall where
  inst : ℕ
  referenced : List String
  refuses : Directory → Option Refusal

/-- A step on the files; the steps that remove files say for which collection. -/
inductive FileStep where
  | makeDirectory (d : Directory)
  | createLock (d : Directory) (owner : ℕ)
  | writeLock (d : Directory) (owner : ℕ)
  | lockExists (d : Directory)
  | readLock (d : Directory)
  | unlinkLock (d : Directory)
  | manifestExists (d : Directory)
  | payloadExists (d : Directory)
  | readManifest (d : Directory)
  | readPayload (d : Directory)
  | stage (d : Directory) (owner : ℕ)
  | replacePayload (d : Directory) (owner : ℕ) (key : SharedResourceKey) (payload : Bytes)
  | replaceManifest (d : Directory) (owner : ℕ) (m : Manifest)
  | manifests (area : String)
  | isActive (inst : ℕ) (keyDigest : String)
  | unlinkPayload (d : Directory) (c : CollectCall)
  | unlinkManifest (d : Directory) (c : CollectCall)
  | removeDirectory (d : Directory) (c : CollectCall)
  | markActive (inst : ℕ) (keyDigest token : String)
  | releaseActive (inst : ℕ) (keyDigest token : String)

namespace FileStep

def Answer : FileStep → Type
  | makeDirectory _ | writeLock _ _ | unlinkLock _ | stage _ _ | replacePayload _ _ _ _ | replaceManifest _ _ _
  | unlinkPayload _ _ | unlinkManifest _ _ => Unit
  | createLock _ _ => Disk.Locking
  | readLock _ => Option LockFile
  | lockExists _ | manifestExists _ | payloadExists _ | isActive _ _ | removeDirectory _ _ | markActive _ _ _
  | releaseActive _ _ _ => Bool
  | readManifest _ => Except String Manifest
  | readPayload _ => Except String Bytes
  | manifests _ => List Directory

def perform : (q : FileStep) → Disk → Disk × q.Answer
  | makeDirectory d, disk => (disk.makeDirectory d,())
  | createLock d owner, disk => disk.createLock d owner
  | writeLock d owner, disk => (disk.change d fun f => { f with lock := some ⟨owner,true⟩ },())
  | lockExists d, disk => (disk,(disk.files d).lock.isSome)
  | readLock d, disk => (disk,(disk.files d).lock)
  | unlinkLock d, disk => (disk.change d fun f => { f with lock := none },())
  | manifestExists d, disk => (disk,(disk.files d).manifest.isSome)
  | payloadExists d, disk => (disk,(disk.files d).payload.isSome)
  | readManifest d, disk => (disk,disk.readManifest d)
  | readPayload d, disk => (disk,disk.readPayload d)
  | stage d owner, disk => (disk.change d fun f => { f with partials := owner :: f.partials },())
  | replacePayload d owner _ payload, disk =>
    (disk.change d fun f => { f with payload := some payload, partials := f.partials.erase owner },())
  | replaceManifest d owner m, disk =>
    (disk.change d fun f => { f with manifest := some (.ok m), partials := f.partials.erase owner },())
  | manifests area, disk => (disk,disk.manifests area)
  | isActive inst keyDigest, disk => (disk,disk.isActive inst keyDigest)
  | unlinkPayload d _, disk => (disk.change d fun f => { f with payload := none },())
  | unlinkManifest d _, disk => (disk.change d fun f => { f with manifest := none },())
  | removeDirectory d _, disk => disk.removeDirectory d
  | markActive inst keyDigest token, disk => disk.markActive inst keyDigest token
  | releaseActive inst keyDigest token, disk => disk.releaseActive inst keyDigest token

end FileStep

abbrev ResourceScript := Script FileStep FileStep.Answer

def ask (q : FileStep) : ResourceScript q.Answer := Script.request q

/-! ## Calls -/

inductive Lookup where
  | blocked
  | missing
  | poisoned (code : String)
  | hit (m : Manifest) (payload : Bytes)

inductive Status where
  | published
  | rebuilt
  | exactHit
  | poisoned
  | blocked
  | aclDenied
  | quotaBlocked
  | lockBusy
  | invalid
deriving DecidableEq

structure Publication where
  status : Status
  accepted : Bool
  bytesWritten : ℕ
  reason : String
deriving DecidableEq

/-- What a call gives back; it may also raise an error with a code. -/
inductive Result where
  | raised (code : String)
  | lookup (key : SharedResourceKey) (l : Lookup)
  | publication (key : SharedResourceKey) (p : Publication)
  | collected (keyDigests : List String)
  | active (b : Bool)

/-- Reads the two files of an entry, and compares them with the key. -/
def examine (rule : SharingRule) (key : SharedResourceKey) : ResourceScript Lookup := do
  let d := w.directory rule key
  let hasManifest : Bool ← ask (.manifestExists d)
  if hasManifest = false then return .missing
  else
    let hasPayload : Bool ← ask (.payloadExists d)
    if hasPayload = false then return .missing
    else
      match ← ask (.readManifest d) with
      | .error code => return .poisoned code
      | .ok m =>
        match ← ask (.readPayload d) with
        | .error code => return .poisoned code
        | .ok payload => return if w.exact rule key m payload then .hit m payload else .poisoned "poisoned_entry"

def lookup (key : SharedResourceKey) : ResourceScript Lookup :=
  match w.ruleFor key with
  | none => return .blocked
  | some rule => examine w rule key

def payloadSizes : List Directory → ResourceScript ℕ
  | [] => return 0
  | d :: rest => do
    match ← ask (.readPayload d) with
    | .error _ => payloadSizes rest
    | .ok payload => return payload.length + (← payloadSizes rest)

def areaBytes (area : String) (exclude : Directory) : ResourceScript ℕ := do
  let ds : List Directory ← ask (.manifests area)
  payloadSizes (ds.filter (· ≠ exclude))

inductive Fault where
  | beforePublication
  | afterPayload
  | beforeManifest
  | afterManifest
deriving DecidableEq

/-- Tries to create the lock file, and writes the token into it. -/
def tryLock (d : Directory) (owner : ℕ) (onTaken : ResourceScript Disk.Locking) : ResourceScript Disk.Locking := do
  match ← ask (.createLock d owner) with
  | .created =>
    ask (.writeLock d owner)
    return .created
  | .taken => onTaken
  | .failed => return .failed

/-- Tries to get the lock, and as long as it is taken at most so many times again. -/
def acquire (d : Directory) (owner : ℕ) : ℕ → ResourceScript Disk.Locking
  | 0 => tryLock d owner (return .taken)
  | n + 1 => tryLock d owner (acquire d owner n)

/-- Removes the lock file if it holds the token of the owner. -/
def release (d : Directory) (owner : ℕ) : ResourceScript Unit := do
  let exist : Bool ← ask (.lockExists d)
  if exist = false then return ()
  else
    match ← ask (.readLock d) with
    | some f =>
      if f.written = true ∧ f.owner = owner then
        ask (.unlinkLock d)
        return ()
      else return ()
    | none => return ()

/-- What a publisher does under its lock when the key is no hit. -/
def publishOpen (owner : ℕ) (rule : SharingRule) (key : SharedResourceKey) (payload : Bytes) (fault : Option Fault)
    (existing : Lookup) : ResourceScript Result :=
  let d := w.directory rule key
  if fault = some .beforePublication then return .raised "crash_before_publication"
  else do
    let others ← areaBytes rule.area d
    if w.limitFor rule.area < others + payload.length then
      return .publication key ⟨.quotaBlocked,false,0,"SHARED_AREA_QUOTA_EXHAUSTED"⟩
    else if maxEntryBytes < payload.length then return .raised "entry_too_large"
    else
      ask (.stage d owner)
      ask (.replacePayload d owner key payload)
      if fault = some .afterPayload then return .raised "crash_after_payload"
      else if fault = some .beforeManifest then return .raised "crash_before_manifest"
      else
        ask (.stage d owner)
        ask (.replaceManifest d owner ⟨key,rule.area,rule.mutability,w.sha256 payload,payload.length⟩)
        if fault = some .afterManifest then return .raised "crash_after_manifest"
        else
          match ← examine w rule key with
          | .hit _ _ =>
            let status : Status := match existing with
              | .poisoned _ => .rebuilt
              | _ => .published
            return .publication key ⟨status,true,payload.length,"SEALED_SHARED_ENTRY_READY"⟩
          | _ => return .publication key ⟨.poisoned,false,0,"POST_PUBLICATION_VERIFICATION_FAILED"⟩

/-- What a publisher does under its lock, after a look at the entry. -/
def publishOver (owner : ℕ) (rule : SharingRule) (key : SharedResourceKey) (payload : Bytes) (fault : Option Fault) :
    Lookup → ResourceScript Result
  | .hit _ _ => return .publication key ⟨.exactHit,true,0,"EXACT_KEY_REUSED"⟩
  | existing => publishOpen w owner rule key payload fault existing

def publishLocked (owner : ℕ) (rule : SharingRule) (key : SharedResourceKey) (payload : Bytes) (fault : Option Fault) :
    ResourceScript Result := do
  publishOver w owner rule key payload fault (← examine w rule key)

/-- The arguments of `publish`, with how often it may try to get the lock. -/
structure PublishCall where
  key : SharedResourceKey
  payload : Bytes
  allowWrite : Bool
  fault : Option Fault
  tries : ℕ

def underLock (owner : ℕ) (rule : SharingRule) (c : PublishCall) : Disk.Locking → ResourceScript Result
  | .failed => return .raised "lock_acquire_failed"
  | .taken => return .publication c.key ⟨.lockBusy,false,0,"FOREIGN_OR_BUSY_LOCK"⟩
  | .created => do
    let result ← publishLocked w owner rule c.key c.payload c.fault
    release (w.directory rule c.key) owner
    return result

def publish (owner : ℕ) (c : PublishCall) : ResourceScript Result :=
  match w.ruleFor c.key with
  | none => return .raised "policy_denied"
  | some rule =>
    if rule.sharedAllowed = false ∨ rule.projectLocalRequired = true ∨ rule.mutability = .mutableDisallowed then
      return .publication c.key ⟨.blocked,false,0,"PROJECT_STATE_MUST_REMAIN_LOCAL"⟩
    else if c.allowWrite = false then return .publication c.key ⟨.aclDenied,false,0,"ACL_DENIED_NO_ELEVATION"⟩
    else if w.sha256 c.payload ≠ c.key.contentDigest then
      return .publication c.key ⟨.invalid,false,0,"PAYLOAD_DIGEST_MISMATCH"⟩
    else do
      let d := w.directory rule c.key
      ask (.makeDirectory d)
      underLock w owner rule c (← acquire d owner c.tries)

def collectEntry (c : CollectCall) (d : Directory) : ResourceScript (Option String) := do
  match ← ask (.readManifest d) with
  | .error _ => return none
  | .ok m =>
    let keyDigest := w.keyDigest m.key
    if keyDigest ∈ c.referenced then return none
    else
      let active : Bool ← ask (.isActive c.inst keyDigest)
      if active = true then return none
      else
        let locked : Bool ← ask (.lockExists d)
        if locked = true then return none
        else if c.refuses d = some .payload then return none
        else
          ask (.unlinkPayload d c)
          if c.refuses d = some .manifest then return none
          else
            ask (.unlinkManifest d c)
            if c.refuses d = some .directory then return none
            else
              let removed : Bool ← ask (.removeDirectory d c)
              return if removed = true then some keyDigest else none

def collectEntries (c : CollectCall) : List Directory → ResourceScript (List String)
  | [] => return []
  | d :: rest => do
    let keyDigest ← collectEntry w c d
    return keyDigest.toList ++ (← collectEntries c rest)

def collectAreas (c : CollectCall) : List String → ResourceScript (List String)
  | [] => return []
  | area :: rest => do
    let ds : List Directory ← ask (.manifests area)
    let keyDigests ← collectEntries w c ds
    return keyDigests ++ (← collectAreas c rest)

def garbageCollect (c : CollectCall) : ResourceScript Result := do
  return .collected ((← collectAreas w c w.areas).insertionSort (· ≤ ·))

inductive ResourceCall where
  | lookup (key : SharedResourceKey)
  | publish (c : PublishCall)
  | garbageCollect (c : CollectCall)
  | markActive (inst : ℕ) (key : SharedResourceKey) (token : String)
  | releaseActive (inst : ℕ) (key : SharedResourceKey) (token : String)

def ResourceCall.script (client : ℕ) : ResourceCall → ResourceScript Result
  | .lookup key => do return .lookup key (← Resources.lookup w key)
  | .publish c => Resources.publish w client c
  | .garbageCollect c => Resources.garbageCollect w c
  | .markActive inst key token =>
    match w.ruleFor key with
    | none => return .raised "policy_denied"
    | some _ => do return .active (← ask (.markActive inst (w.keyDigest key) token))
  | .releaseActive inst key token => do return .active (← ask (.releaseActive inst (w.keyDigest key) token))

/-- The store, what was done to its files, and the calls under way. -/
abbrev ResourceState := Crowd Disk FileStep.Answer Result

def resourceRun (disk : Disk) (moves : List (Move ResourceCall)) : ResourceState :=
  Crowd.run FileStep.perform (ResourceCall.script w) (Crowd.begin disk) moves

end Bdb.Resources
