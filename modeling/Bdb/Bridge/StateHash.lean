import Bdb.Base.Bytes
import Bdb.Bridge.Paths
import Mathlib.Data.List.AList
import Mathlib.Data.List.Dedup

/-! # The state hash of a workspace

The hash covers the allowed paths that git reports as changed, each with the digest of its
bytes. Before a patch is applied its hash is predicted from the bytes that the patch will
leave; the prediction covers the paths of the patch whatever git will report of them.
-/
namespace Bdb.Bridge

/-! ## Trees and checkouts -/

inductive Node where
  | file (content : Bytes)
  | directory
deriving DecidableEq

/-- The files and directories below the root. -/
abbrev Tree := AList fun _ : RepoPath => Node

def Tree.fileAt (t : Tree) (p : RepoPath) : Option Bytes :=
  match t.lookup p with
  | some (.file content) => some content
  | _ => none

/-- A checkout: the commit, the tracked files, the tree, what the ignore rules say of a path
among the files of a tree, and the paths that lead through a link. -/
structure Checkout where
  head : String
  index : AList fun _ : RepoPath => Bytes
  tree : Tree
  ignored : (RepoPath → Option Bytes) → RepoPath → Bool
  throughLink : RepoPath → Bool

/-- The paths that differ from the index or are missing, and the untracked ones that are not
ignored. -/
def Checkout.reports (c : Checkout) (p : RepoPath) : Bool :=
  p.names ≠ [] &&
    match c.index.lookup p with
    | some content => c.tree.fileAt p ≠ some content
    | none => c.tree.fileAt p ≠ none && !c.ignored c.tree.fileAt p

/-! ## The manager of a workspace -/

structure WorkspaceManager where
  allowedPaths : List String
  manifestPaths : List String

variable (m : WorkspaceManager) (lsFiles : Checkout → List String)

def WorkspaceManager.allowedPath (relative : String) : Option RepoPath :=
  match validateRepoRelativePath relative with
  | .ok p => if pathMatches p m.allowedPaths && pathMatches p m.manifestPaths then some p else none
  | .error _ => none

def WorkspaceManager.resolve (c : Checkout) (p : RepoPath) : Outcome Unit :=
  if pathMatches p m.allowedPaths = false then
    fail "policy_denied" ("Path is not allowed by local policy: " ++ p.text)
  else if pathMatches p m.manifestPaths = false then
    fail "scope_violation" ("Path is outside manifest scope: " ++ p.text)
  else if c.throughLink p then
    fail "unsafe_worktree_path" ("Symlink/reparse component is not allowed: " ++ p.names.getLastD "")
  else .ok ()

def WorkspaceManager.resolveAllowedPath (c : Checkout) (relative : String) : Outcome RepoPath := do
  let p ← validateRepoRelativePath relative
  m.resolve c p
  pure p

/-! ## Hashes -/

def contentDigest : Option Bytes → List ℕ
  | some content => Sha256.digest content.nats
  | none => textBytes "<missing>"

def hashEntry (p : RepoPath) (content : Option Bytes) : List ℕ :=
  textBytes p.text ++ 0 :: (contentDigest content ++ [0])

def hashEntries (content : RepoPath → Outcome (Option Bytes)) : List RepoPath → Outcome (List ℕ)
  | [] => .ok []
  | p :: rest => do
    let found ← content p
    let more ← hashEntries content rest
    pure (hashEntry p found ++ more)

def hashHeader (head : String) : List ℕ := textBytes "bdb-poc-state-v1" ++ 0 :: (textBytes head ++ [0])

/-- The allowed paths of a set of texts, in the order of the texts. -/
def WorkspaceManager.hashedPaths (paths : List String) : List RepoPath :=
  (paths.dedup.insertionSort (· ≤ ·)).filterMap m.allowedPath

def WorkspaceManager.stateBytes (c : Checkout) (content : RepoPath → Outcome (Option Bytes)) (paths : List String) :
    Outcome (List ℕ) := do
  let entries ← hashEntries content (m.hashedPaths paths)
  pure (hashHeader c.head ++ entries)

def stateHashOf (bytes : List ℕ) : String := "sha256:" ++ Sha256.hexDigest bytes

def WorkspaceManager.readNow (c : Checkout) (p : RepoPath) : Outcome (Option Bytes) := do
  m.resolve c p
  pure (c.tree.fileAt p)

def WorkspaceManager.computeStateBytes (c : Checkout) : Outcome (List ℕ) :=
  m.stateBytes c (m.readNow c) (lsFiles c)

def WorkspaceManager.computeStateHash (c : Checkout) : Outcome String :=
  (m.computeStateBytes lsFiles c).map stateHashOf

abbrev Overrides := AList fun _ : RepoPath => Option Bytes

def WorkspaceManager.normalizeOverrides (c : Checkout) : List (String × Option Bytes) → Outcome Overrides
  | [] => .ok ∅
  | (relative, content) :: rest => do
    let p ← m.resolveAllowedPath c relative
    let more ← normalizeOverrides c rest
    -- a later entry of the same path wins
    pure (if p ∈ more then more else more.insert p content)

def WorkspaceManager.readOverridden (c : Checkout) (overrides : Overrides) (p : RepoPath) : Outcome (Option Bytes) :=
  match overrides.lookup p with
  | some content => .ok content
  | none => m.readNow c p

def WorkspaceManager.predictedBytes (c : Checkout) (overrides : Overrides) : Outcome (List ℕ) :=
  m.stateBytes c (m.readOverridden c overrides) (lsFiles c ++ overrides.keys.map RepoPath.text)

def WorkspaceManager.computeStateHashWithOverrides (c : Checkout) (overrides : List (String × Option Bytes)) :
    Outcome String := do
  let normalized ← m.normalizeOverrides c overrides
  (m.predictedBytes lsFiles c normalized).map stateHashOf

def WorkspaceManager.computeStateHashWithOverride (c : Checkout) (relativePath : String) (plannedBytes : Bytes) :
    Outcome String := do
  let p ← m.resolveAllowedPath c relativePath
  let bytes ← m.stateBytes c (fun q => if q = p then .ok (some plannedBytes) else m.readNow c q)
    (lsFiles c ++ [p.text])
  pure (stateHashOf bytes)

/-! ## Where the hashes are compared -/

def WorkspaceManager.finishCheckpoint (c : Checkout) (workspaceStateHashAfter : String) : Outcome Unit := do
  let actual ← m.computeStateHash lsFiles c
  require (actual = workspaceStateHashAfter) "manual_reconciliation_required"
    "Workspace hash differs before final batch commit"

/-- The check after the write of a single file. -/
def WorkspaceManager.checkReplaced (c : Checkout) (plannedAfterStateHash : String) : Outcome Unit := do
  let actual ← m.computeStateHash lsFiles c
  require (actual = plannedAfterStateHash) "journal_corrupt" "Workspace state differs after atomic replace"

end Bdb.Bridge
