import Bdb.Base.Stamps

/-! # Continuation packets

A packet names the canonical state it was issued for and is addressed by the digest of
its content. It is valid only while every fact it names still agrees with the live
authority.
-/
namespace Bdb.Continuation

open Json

inductive AutoScope where
  | task
  | milestone
  | project
  | untilStopped
deriving DecidableEq

def AutoScope.value : AutoScope → String
  | .task => "TASK"
  | .milestone => "MILESTONE"
  | .project => "PROJECT"
  | .untilStopped => "UNTIL_STOPPED"

inductive ScopeAction where
  | launchTask
  | continueTaskRetry
  | continueTaskRepair
  | stopScopeComplete
  | stopProjectComplete
  | stopExternalStopRequested
  | pauseManualGateRequired
  | pausePolicyApprovalRequired
  | waitDependencyPending
  | waitMilestoneGatePending
  | waitCiWaiting
  | waitTransientBackoff
  | haltNoRunnableWork
  | haltWaitingForPlan
  | haltBlocked
deriving DecidableEq

def ScopeAction.value : ScopeAction → String
  | .launchTask => "LAUNCH_TASK"
  | .continueTaskRetry => "CONTINUE_TASK_RETRY"
  | .continueTaskRepair => "CONTINUE_TASK_REPAIR"
  | .stopScopeComplete => "STOP_SCOPE_COMPLETE"
  | .stopProjectComplete => "STOP_PROJECT_COMPLETE"
  | .stopExternalStopRequested => "STOP_EXTERNAL_STOP_REQUESTED"
  | .pauseManualGateRequired => "PAUSE_MANUAL_GATE_REQUIRED"
  | .pausePolicyApprovalRequired => "PAUSE_POLICY_APPROVAL_REQUIRED"
  | .waitDependencyPending => "WAIT_DEPENDENCY_PENDING"
  | .waitMilestoneGatePending => "WAIT_MILESTONE_GATE_PENDING"
  | .waitCiWaiting => "WAIT_CI_WAITING"
  | .waitTransientBackoff => "WAIT_TRANSIENT_BACKOFF"
  | .haltNoRunnableWork => "HALT_NO_RUNNABLE_WORK"
  | .haltWaitingForPlan => "HALT_WAITING_FOR_PLAN"
  | .haltBlocked => "HALT_BLOCKED"

/-- What a packet says. An optional field is absent, null or a text. -/
structure PacketContent where
  projectId : String
  planIdentity : String
  planVersion : ℕ
  planDigest : String
  scope : AutoScope
  runId : String
  scopeEpoch : ℕ
  currentMilestoneId : String
  currentTaskId : String
  executionBindingId : String
  expectedRepoHeadBefore : String
  stateRevision : ℕ
  stateDigest : String
  allowedNextAction : ScopeAction
  budgetSummary : Fields
  evidenceRefs : List Json
  issuedAt : DateTime
  expiresAt : DateTime
  continuationGeneration : ℕ
  attemptId : Option (Option String)
  expectedTree : Option (Option String)
  conversationBindingPolicy : Option String

def textOrNull : Option String → Json
  | some s => .str s
  | none => .null

def optionalField (name : String) (value : Option Json) : Fields :=
  match value with
  | some v => [(name,v)]
  | none => []

namespace PacketContent

/-- The document without the two digest fields, in the order of its canonical text. -/
def semantic (c : PacketContent) : Fields :=
  [("allowed_next_action",.str c.allowedNextAction.value)] ++
    optionalField "attempt_id" (c.attemptId.map textOrNull) ++
    [("budget_summary",.obj c.budgetSummary),("continuation_generation",.int c.continuationGeneration)] ++
    optionalField "conversation_binding_policy" (c.conversationBindingPolicy.map .str) ++
    [("current_milestone_id",.str c.currentMilestoneId),("current_task_id",.str c.currentTaskId),
      ("evidence_refs",.arr c.evidenceRefs),("execution_binding_id",.str c.executionBindingId),
      ("expected_repo_head_before",.str c.expectedRepoHeadBefore)] ++
    optionalField "expected_tree" (c.expectedTree.map textOrNull) ++
    [("expires_at",.str (utcText c.expiresAt)),("expiry_policy",.str "REJECT_AT_OR_AFTER_EXPIRY"),
      ("issued_at",.str (utcText c.issuedAt)),("packet_version",.str "v1"),
      ("plan_digest",.str c.planDigest),("plan_identity",.str c.planIdentity),
      ("plan_version",.int c.planVersion),("project_id",.str c.projectId),("run_id",.str c.runId),
      ("schema",.str "bdb-continuation-packet-v1"),("scope",.str c.scope.value),
      ("scope_epoch",.int c.scopeEpoch),("state_digest",.str c.stateDigest),
      ("state_revision",.int c.stateRevision)]

def computeDigest (rt : Runtime) (c : PacketContent) : String :=
  "sha256:" ++ rt.sha256 (canonicalText (.obj c.semantic))

end PacketContent

/-- A packet whose identity is the digest of its content. -/
structure ContinuationPacket (rt : Runtime) extends PacketContent where
  continuationId : String
  packetDigest : String
  idAddressed : continuationId = toPacketContent.computeDigest rt
  digestAddressed : packetDigest = toPacketContent.computeDigest rt
  epochPositive : 1 ≤ scopeEpoch
  issuedBeforeExpiry : issuedAt < expiresAt

variable {rt : Runtime}

namespace ContinuationPacket

def document (p : ContinuationPacket rt) : Json :=
  .obj ([("continuation_id",.str p.continuationId),("packet_digest",.str p.packetDigest)] ++ p.semantic)

def packetSizeBytes (p : ContinuationPacket rt) : ℕ := byteLength (canonicalText p.document)

end ContinuationPacket

/-- The live facts a packet is compared with. -/
structure ContinuationAuthoritySnapshot where
  projectId : String
  planIdentity : String
  planVersion : ℕ
  planDigest : String
  scope : AutoScope
  runId : String
  scopeEpoch : ℕ
  currentMilestoneId : Option String
  currentTaskId : Option String
  executionBindingId : Option String
  expectedRepoHeadBefore : String
  stateRevision : ℕ
  stateDigest : String
  allowedNextAction : ScopeAction
  budgetSummary : Fields
  evidenceRefs : List Json
  status : String
  taskStatus : String
  stopRequested : Bool
  planApproved : Bool
  attemptId : Option String
  expectedTree : Option String
  conversationBindingPolicy : String

mutual
/-- The value that equality of documents compares: truth values count as numbers. -/
def comparable : Json → Json
  | .bool b => .int (if b then 1 else 0)
  | .arr xs => .arr (comparableList xs)
  | .obj fs => .obj (comparableFields fs)
  | .null => .null
  | .int n => .int n
  | .str s => .str s
def comparableList : List Json → List Json
  | [] => []
  | x :: xs => comparable x :: comparableList xs
def comparableFields : Fields → Fields
  | [] => []
  | (k, x) :: fs => (k,comparable x) :: comparableFields fs
end

def sameDocument (a b : Json) : Bool := canon (comparable a) = canon (comparable b)

def nonContinuableStatuses : List String := ["BLOCKED","COMPLETED","PAUSED","STOPPED","WAITING_FOR_PLAN"]

def terminalTaskStatuses : List String := ["ACCEPTED","COMPLETED","SKIPPED"]

/-- The compared identity fields, each with the code of a difference. -/
def comparisons (p : ContinuationPacket rt) (live : ContinuationAuthoritySnapshot) : List (Bool × String) :=
  [(p.projectId == live.projectId,"PROJECT_MISMATCH"),
    (p.planIdentity == live.planIdentity,"STALE_PLAN_IDENTITY"),
    (p.planVersion == live.planVersion,"STALE_PLAN_VERSION"),
    (p.planDigest == live.planDigest,"STALE_PLAN_DIGEST"),
    (p.scope == live.scope,"STALE_SCOPE"),(p.runId == live.runId,"STALE_RUN"),
    (p.scopeEpoch == live.scopeEpoch,"STALE_SCOPE_EPOCH"),
    (some p.currentMilestoneId == live.currentMilestoneId,"STALE_MILESTONE"),
    (some p.currentTaskId == live.currentTaskId,"STALE_TASK"),
    (some p.executionBindingId == live.executionBindingId,"STALE_BINDING"),
    (p.expectedRepoHeadBefore == live.expectedRepoHeadBefore,"STALE_HEAD"),
    (p.stateRevision == live.stateRevision,"STALE_STATE_REVISION"),
    (p.stateDigest == live.stateDigest,"STALE_STATE_DIGEST"),
    (p.allowedNextAction == live.allowedNextAction,"STALE_ALLOWED_ACTION")]

def compareFields : List (Bool × String) → Outcome Unit
  | [] => .ok ()
  | (same, code) :: rest =>
    if same then compareFields rest
    else fail code "packet identity differs from current canonical authority"

/-- Fails with the code and message of the first check the packet does not pass. -/
def validatePacket (p : ContinuationPacket rt) (live : ContinuationAuthoritySnapshot) (now : DateTime) :
    Outcome Unit := do
  require (p.packetSizeBytes ≤ 16384) "PACKET_TOO_LARGE"
    "serialized continuation packet exceeds its byte-size limit"
  require (now < p.expiresAt) "EXPIRED_PACKET"
    "continuation packet is expired at the supplied authority clock"
  require (live.planApproved = true) "PLAN_NOT_APPROVED" "live authority has no approved plan"
  require (live.stopRequested = false ∧ rt.upper live.status ∉ ["STOPPED","COMPLETED"]) "STOP_CANONICAL"
    "canonical STOP or completion rejects continuation"
  require (rt.upper live.status ∉ nonContinuableStatuses) "AUTHORITY_NOT_CONTINUABLE"
    "live authority state is not legally continuable"
  require (rt.upper live.taskStatus ∉ terminalTaskStatuses) "TASK_ALREADY_ACCEPTED"
    "current task is already terminal in live authority"
  compareFields (comparisons p live)
  require (sameDocument (.obj p.budgetSummary) (.obj live.budgetSummary) = true) "STALE_BUDGET"
    "packet budget summary differs from current authority"
  require (sameDocument (.arr p.evidenceRefs) (.arr live.evidenceRefs) = true) "STALE_EVIDENCE_REFS"
    "packet evidence references differ from current authority"
  require (p.conversationBindingPolicy.getD "EXISTING_CHAT_ONLY" = live.conversationBindingPolicy)
    "STALE_BINDING_POLICY" "packet conversation binding policy differs from current authority"
  require (p.attemptId.getD none = live.attemptId) "STALE_ATTEMPT"
    "packet attempt identity differs from current authority"
  require (p.expectedTree.getD none = live.expectedTree) "STALE_TREE"
    "packet expected tree differs from current authority"

end Bdb.Continuation
