import Bdb.Base.Crashes
import Bdb.Bridge.Envelopes
import Mathlib.Data.List.AList

/-! # Promoting a result

A successful result of a workspace is promoted by one commit that the source checkout is moved
to, and a receipt that names it. In a separate worktree the commit is made there and the source
is fast-forwarded; a direct checkout is committed in place. Each step of git and each step of the
receipt is a request of its own, between which the promoter may crash.
-/
namespace Bdb.Bridge.Promotion
open Json

/-! ## Git -/

abbrev Oid := String
abbrev Blob := List UInt8
abbrev Tree := String → Option Blob

structure CommitNode where
  parents : List Oid
  tree : Tree
  message : String
  stamp : String

/-- What git makes of its arguments: how it names commits, and how it lists paths. -/
structure GitBehaviour where
  name : CommitNode → Oid
  /-- The sorted paths that the lines of the status of a head, an index and the files are read as. -/
  statusNames : Tree → Tree → Tree → List String
  checkPasses : Tree → Tree → List String → Bool
  /-- The sorted lines of the staged changes. -/
  stagedNames : Tree → Tree → List String
  /-- The sorted lines of the changes of a commit. -/
  treeNames : Tree → Tree → List String

/-- No commit is a parent of itself. -/
def GitBehaviour.Acyclic (b : GitBehaviour) : Prop := ∀ c, b.name c ∉ c.parents

structure WorkTree where
  head : Oid
  index : Tree
  files : Tree

structure Worktree where
  tree : WorkTree
  registered : ℕ
  detached : Bool
  attached : Bool

def WorkTree.add (t : WorkTree) (paths : List String) : WorkTree :=
  { t with index := fun p => if p ∈ paths then t.files p else t.index p }

/-! ## The durable state -/

structure Receipt where
  sessionId : String
  sequence : ℕ
  sourceCommit : Oid
  parentCommit : Oid
  changedFiles : List String
  repositoryEventSeq : ℕ
deriving DecidableEq

structure PromoterWorld where
  commits : AList fun _ : Oid => CommitNode
  branch : Option String
  source : WorkTree
  worktrees : String → Option Worktree
  sessions : String → Option Oid
  receipts : AList fun _ : String => Receipt
  eventSeq : Option ℕ
  temps : List (String × ℕ)

inductive Place where
  | source
  | worktree (sessionId : String)
deriving DecidableEq

namespace PromoterWorld

def treeAt (w : PromoterWorld) : Place → Option WorkTree
  | .source => some w.source
  | .worktree sessionId => (w.worktrees sessionId).map (·.tree)

def setTree (w : PromoterWorld) (t : WorkTree) : Place → PromoterWorld
  | .source => { w with source := t }
  | .worktree sessionId => { w with
    worktrees := fun other => if other = sessionId then (w.worktrees other).map fun x => { x with tree := t } else w.worktrees other }

def node (w : PromoterWorld) (oid : Oid) : Outcome CommitNode :=
  need (w.commits.lookup oid) "git_error" "git object is missing"

/-- The values of the status of a checkout. -/
def status (b : GitBehaviour) (w : PromoterWorld) (t : WorkTree) : Outcome (List String) := do
  let head ← w.node t.head
  pure (b.statusNames head.tree t.index t.files)

def singleParent (w : PromoterWorld) (oid : Oid) : Outcome Oid := do
  let c ← w.node oid
  match c.parents with
  | [parent] => pure parent
  | _ => fail "manual_reconciliation_required" "Promotion commit must have exactly one parent"

def verifySourceBranch (w : PromoterWorld) : Outcome Unit :=
  require (w.branch.getD "" ≠ "") "policy_denied" "Source checkout must be attached to a local branch"

def verifyRegisteredWorktree (x : Worktree) : Outcome Unit := do
  require (x.registered = 0 ∨ x.detached = true) "manual_reconciliation_required" "Promotion workspace is not detached"
  require (x.registered = 1) "manual_reconciliation_required" "Promotion workspace is not exactly one registered worktree"
  require (x.attached = false) "manual_reconciliation_required" "Promotion workspace HEAD is attached"

end PromoterWorld

/-! ## Requests -/

inductive PromoterRequest where
  | look
  | add (place : Place) (paths : List String)
  | commit (place : Place) (message stamp : String)
  | merge (oid : Oid)
  | storeSeq (n : ℕ)
  | openTemp (key : String) (pid : ℕ)
  | replaceReceipt (key : String) (pid : ℕ) (receipt : Receipt)
  /-- Whatever others do to the repository; receipts are the promoter's alone. -/
  | elsewhere (commits : AList fun _ : Oid => CommitNode) (branch : Option String) (source : WorkTree)
    (worktrees : String → Option Worktree) (sessions : String → Option Oid)

namespace PromoterRequest

def Answer : PromoterRequest → Type
  | look => PromoterWorld
  | add _ _ => Outcome Unit
  | commit _ _ _ => Outcome Unit
  | merge _ => Outcome Unit
  | storeSeq _ => Unit
  | openTemp _ _ => Outcome Unit
  | replaceReceipt _ _ _ => Unit
  | elsewhere _ _ _ _ _ => Unit

def makeCommit (b : GitBehaviour) (place : Place) (message stamp : String) (w : PromoterWorld) : PromoterWorld × Outcome Unit :=
  match w.treeAt place with
  | none => (w,fail "git_error" "git commit failed")
  | some t =>
    match w.commits.lookup t.head with
    | none => (w,fail "git_error" "git commit failed")
    | some head =>
      if b.stagedNames head.tree t.index = [] then (w,fail "git_error" "git commit failed")
      else
        let c : CommitNode := ⟨[t.head],t.index,message,stamp⟩
        ({ w.setTree { t with head := b.name c } place with commits := w.commits.insert (b.name c) c },.ok ())

def fastForward (oid : Oid) (w : PromoterWorld) : PromoterWorld × Outcome Unit :=
  match w.commits.lookup w.source.head, w.commits.lookup oid with
  | some old, some new =>
    if w.source.head ∈ new.parents then
      ({ w with
        source := {
          head := oid
          index := new.tree
          files := fun p => if new.tree p = old.tree p then w.source.files p else new.tree p } },.ok ())
    else (w,fail "git_error" "git merge --ff-only failed")
  | _, _ => (w,fail "git_error" "git merge --ff-only failed")

def perform (b : GitBehaviour) : (q : PromoterRequest) → PromoterWorld → PromoterWorld × q.Answer
  | look, w => (w,w)
  | add place paths, w =>
    match w.treeAt place with
    | none => (w,fail "git_error" "git add failed")
    | some t => (w.setTree (t.add paths) place,.ok ())
  | commit place message stamp, w => makeCommit b place message stamp w
  | merge oid, w => fastForward oid w
  | storeSeq n, w => ({ w with eventSeq := some n },())
  | openTemp key pid, w =>
    if (key,pid) ∈ w.temps then (w,fail "FileExistsError" "File exists") else ({ w with temps := (key,pid) :: w.temps },.ok ())
  | replaceReceipt key pid receipt, w =>
    ({ w with temps := w.temps.erase (key,pid), receipts := w.receipts.insert key receipt },())
  | elsewhere commits branch source worktrees sessions, w =>
    ({ w with commits := commits, branch := branch, source := source, worktrees := worktrees, sessions := sessions },())

end PromoterRequest

/-! ## Results -/

structure PromoterConfig where
  direct : Bool
  allowedPaths : List String

/-- Python's equality of a value of a document with an integer; booleans are integers. -/
def equalsInt (v : Option Json) (n : ℤ) : Bool :=
  match v with
  | some (.int m) => m == n
  | some (.bool b) => (if b then 1 else 0) == n
  | _ => false

def isText : Json → Option String
  | .str s => some s
  | _ => none

/-- The evidence of results of the first executor. -/
def legacyExact (d : Fields) : Bool :=
  let before := d.lookup "workspace_revision_before"
  ((d.lookup "data").getD .null == .null) && d.lookup "executor_version" == some (.str "0.5.0-ghb0") &&
    (d.lookup "summary" == some (.str "Command effect recorded") || d.lookup "summary" == some (.str "Idempotent effect replay") ||
      d.lookup "summary" == some (.str "Recovered PLANNED-AFTER effect")) &&
    (match before with
      | some (.int n) => equalsInt (d.lookup "workspace_revision_after") (n + 1)
      | _ => false) &&
    (match d.lookup "changed_files" with
      | some (.arr [.str _]) => true
      | _ => false) &&
    (match d.lookup "diff" with
      | some (.str s) => s ≠ ""
      | _ => false)

def validateOperation (d : Fields) : Outcome Unit :=
  match d.lookup "data" with
  | some (.obj data) =>
    if data.lookup "operation" = some (.str "multi_file_patch") then
      require (data.lookup "checkpoint_state" = some (.str "committed") ∧ data.lookup "rollback_performed" = some (.bool false))
        "policy_denied" "Promotion requires a committed checkpoint without rollback"
    else if data.lookup "operation" = some (.str "replace_exact_and_test") then
      require (data.lookup "rollback_performed" = some (.bool false)) "policy_denied"
        "Exact replacement promotion requires completion without rollback"
    else fail "policy_denied" "Automatic promotion supports only multi_file_patch or replace_exact_and_test"
  | _ => require (legacyExact d = true) "invalid_payload"
      "Promotion result has neither valid data nor legacy exact-result evidence"

def backslashes (value : String) : String := String.ofList (value.toList.map fun c => if c = '\\' then '/' else c)

def normalizedPath (cfg : PromoterConfig) (value : String) : Outcome String := do
  let path ← validateRepoRelativePath (backslashes value)
  require (pathMatches path cfg.allowedPaths = true) "policy_denied" ("Promotion path is outside local policy: " ++ path.text)
  pure path.text

def validateResult (cfg : PromoterConfig) (d : Fields) : Outcome (String × List String) := do
  require (d.lookup "status" = some (.str "success") ∧ equalsInt (d.lookup "exit_code") 0 = true) "policy_denied"
    "Only successful zero-exit results can be promoted"
  let sessionId ← need ((d.lookup "session_id").bind isText) "invalid_payload" "Promotion result has no session_id"
  validateSessionId sessionId
  require (d.lookup "sequence" = some (.int 1)) "policy_denied" "Automatic promotion requires a fresh sequence-1 session"
  validateOperation d
  match d.lookup "changed_files" with
  | some (.arr values) => do
    require (values ≠ [] ∧ values.length ≤ 200) "invalid_payload" "Promotion changed_files is invalid"
    let texts ← need (values.mapM isText) "invalid_payload" "Promotion changed_files is invalid"
    let normalized ← texts.mapM (normalizedPath cfg)
    require normalized.Nodup "invalid_payload" "Promotion changed_files contains duplicates"
    pure (sessionId,normalized.insertionSort (· ≤ ·))
  | _ => fail "invalid_payload" "Promotion changed_files is invalid"

/-! ## Promotion -/

inductive PromotionStatus where
  | promoted
  | alreadyPromoted
deriving DecidableEq

structure PromotionOutcome where
  status : PromotionStatus
  sessionId : String
  sourceCommit : Oid
  changedFiles : List String
deriving DecidableEq

abbrev PromoterProgram := Script PromoterRequest PromoterRequest.Answer (Outcome PromotionOutcome)

/-- A call of the promoter, in a process at a time. -/
structure PromoteCall where
  document : Fields
  pid : ℕ
  stamp : String

def receiptKey (sessionId : String) : String := sessionId ++ "-" ++ sequenceText 1

def readExistingReceipt (receipt : Receipt) (sessionId : String) (changed : List String) : Outcome PromotionOutcome := do
  require (receipt.sessionId = sessionId ∧ receipt.sequence = 1 ∧ receipt.changedFiles = changed) "journal_conflict"
    "Promotion receipt does not match the durable result"
  pure ⟨.alreadyPromoted,sessionId,receipt.sourceCommit,changed⟩

def halt (e : Failure) : PromoterProgram := .done (.error e)

/-- The number of the receipt is taken, and the receipt is put in its place. -/
def storeReceipt (sessionId : String) (changed : List String) (commitSha parentSha : Oid) (pid : ℕ) (eventSeq : Option ℕ) :
    PromoterProgram :=
  let n := eventSeq.getD 0 + 1
  .ask (.storeSeq n) fun _ =>
    .ask (.openTemp (receiptKey sessionId) pid) fun
      | .error e => halt e
      | .ok _ =>
        .ask (.replaceReceipt (receiptKey sessionId) pid ⟨sessionId,1,commitSha,parentSha,changed,n⟩) fun _ =>
          .done (.ok ⟨.promoted,sessionId,commitSha,changed⟩)

def commitMessage (direct : Bool) (document : Fields) (sessionId : String) : String :=
  (if direct then "bdb: direct checkout " else "bdb: promote ") ++
    match document.lookup "command_id" with
    | some (.str s) => if s = "" then commandIdFor sessionId 1 else s
    | _ => commandIdFor sessionId 1

/-! ### The separate worktree -/

/-- The state of a worktree before its promotion: its changes are not committed, or they are. -/
inductive Found where
  | changed
  | committed (commitSha parentSha : Oid)

def inspectIsolated (b : GitBehaviour) (sessionId : String) (changed : List String) (w : PromoterWorld) : Outcome Found := do
  let x ← need (w.worktrees sessionId) "FileNotFoundError" "Promotion worktree path is unsafe"
  PromoterWorld.verifyRegisteredWorktree x
  w.verifySourceBranch
  let sourceStatus ← w.status b w.source
  require (sourceStatus = []) "dirty_source_checkout" "Source checkout must be clean before promotion"
  let changes ← w.status b x.tree
  if changes ≠ [] then do
    require (changes = changed) "manual_reconciliation_required" "Worktree changes differ from durable result"
    require (w.source.head = x.tree.head) "manual_reconciliation_required"
      "Source HEAD no longer matches the isolated workspace base"
    require (b.checkPasses x.tree.index x.tree.files changed = true) "git_error" "git diff --check failed"
    pure .changed
  else do
    let parent ← w.singleParent x.tree.head
    let c ← w.node x.tree.head
    let before ← w.node parent
    require (b.treeNames before.tree c.tree = changed) "manual_reconciliation_required"
      "Clean worktree commit does not match the durable result"
    require (w.source.head = parent ∨ w.source.head = x.tree.head) "manual_reconciliation_required"
      "Source HEAD is neither the promotion parent nor the promoted commit"
    pure (.committed x.tree.head parent)

def checkStaged (b : GitBehaviour) (place : Place) (changed : List String) (w : PromoterWorld) : Outcome Unit := do
  let t ← need (w.treeAt place) "git_error" "git diff failed"
  let head ← w.node t.head
  require (b.stagedNames head.tree t.index = changed) "manual_reconciliation_required"
    "Staged paths differ from durable result"

/-- The new commit of a checkout is on the expected parent. -/
def checkCommit (place : Place) (parentSha : Oid) (w : PromoterWorld) : Outcome Oid := do
  let t ← need (w.treeAt place) "git_error" "git rev-parse failed"
  let parent ← w.singleParent t.head
  require (parent = parentSha) "manual_reconciliation_required" "Promotion commit parent differs from source HEAD"
  pure t.head

def checkForwarded (b : GitBehaviour) (commitSha : Oid) (w : PromoterWorld) : Outcome Unit := do
  let status ← w.status b w.source
  require (w.source.head = commitSha ∧ status = []) "manual_reconciliation_required"
    "Source checkout differs after fast-forward promotion"

def closeIsolated (b : GitBehaviour) (sessionId : String) (changed : List String) (commitSha parentSha : Oid) (pid : ℕ) :
    PromoterProgram :=
  .ask .look fun w =>
    match checkForwarded b commitSha w with
    | .error e => halt e
    | .ok _ => storeReceipt sessionId changed commitSha parentSha pid w.eventSeq

def forward (b : GitBehaviour) (sessionId : String) (changed : List String) (commitSha parentSha sourceHead : Oid) (pid : ℕ) :
    PromoterProgram :=
  if sourceHead = parentSha then
    .ask (.merge commitSha) fun
      | .error e => halt e
      | .ok _ => closeIsolated b sessionId changed commitSha parentSha pid
  else if sourceHead ≠ commitSha then
    halt ⟨"manual_reconciliation_required","Source checkout cannot be fast-forwarded safely",[]⟩
  else closeIsolated b sessionId changed commitSha parentSha pid

def commitStaged (b : GitBehaviour) (call : PromoteCall) (place : Place) (sessionId : String) (changed : List String) (parentSha : Oid)
    (k : Oid → PromoterProgram) : PromoterProgram :=
  .ask (.add place changed) fun
    | .error e => halt e
    | .ok _ => .ask .look fun w =>
      match checkStaged b place changed w with
      | .error e => halt e
      | .ok _ =>
        .ask (.commit place (commitMessage (place = .source) call.document sessionId) call.stamp) fun
          | .error e => halt e
          | .ok _ => .ask .look fun w =>
            match checkCommit place parentSha w with
            | .error e => halt e
            | .ok commitSha => k commitSha

def promoteIsolated (b : GitBehaviour) (call : PromoteCall) (sessionId : String) (changed : List String) (w : PromoterWorld) :
    PromoterProgram :=
  match inspectIsolated b sessionId changed w with
  | .error e => halt e
  | .ok (.committed commitSha parentSha) => forward b sessionId changed commitSha parentSha w.source.head call.pid
  | .ok .changed => commitStaged b call (.worktree sessionId) sessionId changed w.source.head fun commitSha =>
    forward b sessionId changed commitSha w.source.head w.source.head call.pid

/-! ### The direct checkout -/

def controlled (cfg : PromoterConfig) (path : String) : Bool := cfg.allowedPaths.any (fnmatchcase path)

def inspectDirect (b : GitBehaviour) (cfg : PromoterConfig) (sessionId : String) (changed : List String) (w : PromoterWorld) :
    Outcome (List String) := do
  w.verifySourceBranch
  let base ← need (w.sessions sessionId) "manual_reconciliation_required"
    "Direct checkout promotion has no durable session record"
  require (w.source.head = base) "manual_reconciliation_required"
    "Direct checkout HEAD no longer matches the session base SHA"
  let changes ← w.status b w.source
  require (changes.filter (controlled cfg) = changed) "manual_reconciliation_required"
    "Direct checkout controlled changes differ from durable result"
  require (b.checkPasses w.source.index w.source.files changed = true) "git_error" "git diff --check failed"
  pure (changes.filter fun p => !controlled cfg p)

def checkLeft (b : GitBehaviour) (cfg : PromoterConfig) (foreign : List String) (w : PromoterWorld) : Outcome Unit := do
  let changes ← w.status b w.source
  require (changes.filter (controlled cfg) = []) "manual_reconciliation_required"
    "Direct checkout still has controlled changes after commit"
  require (changes.filter (fun p => !controlled cfg p) = foreign) "manual_reconciliation_required"
    "Unrelated local changes changed during direct checkout promotion"

def promoteDirect (b : GitBehaviour) (cfg : PromoterConfig) (call : PromoteCall) (sessionId : String) (changed : List String)
    (w : PromoterWorld) : PromoterProgram :=
  match inspectDirect b cfg sessionId changed w with
  | .error e => halt e
  | .ok foreign => commitStaged b call .source sessionId changed w.source.head fun commitSha =>
    .ask .look fun left =>
      match checkLeft b cfg foreign left with
      | .error e => halt e
      | .ok _ => storeReceipt sessionId changed commitSha w.source.head call.pid left.eventSeq

/-! ### The call -/

def promoteFile (b : GitBehaviour) (cfg : PromoterConfig) (call : PromoteCall) : PromoterProgram :=
  match validateResult cfg call.document with
  | .error e => halt e
  | .ok (sessionId, changed) => .ask .look fun w =>
    match w.receipts.lookup (receiptKey sessionId) with
    | some receipt => .done (readExistingReceipt receipt sessionId changed)
    | none =>
      if cfg.direct = true then promoteDirect b cfg call sessionId changed w
      else promoteIsolated b call sessionId changed w

/-- What happens to the promoter's state: a call, or something elsewhere in the repository. -/
inductive PromoterCall where
  | promote (call : PromoteCall)
  | elsewhere (commits : AList fun _ : Oid => CommitNode) (branch : Option String) (source : WorkTree)
    (worktrees : String → Option Worktree) (sessions : String → Option Oid)

def PromoterCall.program (b : GitBehaviour) (cfg : PromoterConfig) : PromoterCall → PromoterProgram
  | .promote call => promoteFile b cfg call
  | .elsewhere commits branch source worktrees sessions =>
    .ask (.elsewhere commits branch source worktrees sessions) fun _ => halt ⟨"","",[]⟩

end Bdb.Bridge.Promotion
