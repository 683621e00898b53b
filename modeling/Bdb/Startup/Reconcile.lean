import Bdb.Startup.Snapshot

/-! # The decision of startup recovery

The rules are tested one after the other, each over the rows of the snapshot that it names,
and the first that applies returns its candidate. The declared precedence is a table of its
own, from which the rejected rules of a decision are read.
-/
namespace Bdb.Startup

inductive RecoveryRule where
  | stopped
  | securityDataCorruptionFreeze
  | deliveryUncertain
  | activeSendIntent
  | continuationReentry
  | operatorCheckpoint
  | activeContinuationLease
  | expiredOrphanLease
  | ciWaiting
  | repairRetest
  | waitingForPlan
  | manualPolicyCheckpoint
  | currentRunnableTask
  | projectScopeComplete
  | idle
deriving DecidableEq

def RecoveryRule.value : RecoveryRule → String
  | stopped => "STOPPED"
  | securityDataCorruptionFreeze => "SECURITY_DATA_CORRUPTION_FREEZE"
  | deliveryUncertain => "DELIVERY_UNCERTAIN"
  | activeSendIntent => "ACTIVE_SEND_INTENT"
  | continuationReentry => "CONTINUATION_REENTRY"
  | operatorCheckpoint => "OPERATOR_CHECKPOINT"
  | activeContinuationLease => "ACTIVE_CONTINUATION_LEASE"
  | expiredOrphanLease => "EXPIRED_ORPHAN_LEASE"
  | ciWaiting => "CI_WAITING"
  | repairRetest => "REPAIR_RETEST"
  | waitingForPlan => "WAITING_FOR_PLAN"
  | manualPolicyCheckpoint => "MANUAL_POLICY_CHECKPOINT"
  | currentRunnableTask => "CURRENT_RUNNABLE_TASK"
  | projectScopeComplete => "PROJECT_SCOPE_COMPLETE"
  | idle => "IDLE"

def precedence : List RecoveryRule :=
  [.stopped,.securityDataCorruptionFreeze,.deliveryUncertain,.activeSendIntent,.continuationReentry,.operatorCheckpoint,
    .activeContinuationLease,.expiredOrphanLease,.ciWaiting,.repairRetest,.waitingForPlan,.manualPolicyCheckpoint,
    .currentRunnableTask,.projectScopeComplete,.idle]

inductive RecoveryAction where
  | stopped
  | freezeAndRequireReconciliation
  | reconcileUncertainDelivery
  | ackSendIntent
  | resumeSendIntent
  | resumeSessionReentry
  | operatorCheckpoint
  | waitForActiveContinuationLease
  | reclaimExpiredContinuationLease
  | ciWaiting
  | repairRetest
  | waitingForPlan
  | manualPolicyCheckpoint
  | resumeCurrentTask
  | runCurrentTask
  | advanceScope
  | projectScopeComplete
  | idle
deriving DecidableEq

def RecoveryAction.value : RecoveryAction → String
  | stopped => "STOPPED"
  | freezeAndRequireReconciliation => "FREEZE_AND_REQUIRE_RECONCILIATION"
  | reconcileUncertainDelivery => "RECONCILE_UNCERTAIN_DELIVERY"
  | ackSendIntent => "ACK_SEND_INTENT"
  | resumeSendIntent => "RESUME_SEND_INTENT"
  | resumeSessionReentry => "RESUME_SESSION_REENTRY"
  | operatorCheckpoint => "OPERATOR_CHECKPOINT"
  | waitForActiveContinuationLease => "WAIT_FOR_ACTIVE_CONTINUATION_LEASE"
  | reclaimExpiredContinuationLease => "RECLAIM_EXPIRED_CONTINUATION_LEASE"
  | ciWaiting => "CI_WAITING"
  | repairRetest => "REPAIR_RETEST"
  | waitingForPlan => "WAITING_FOR_PLAN"
  | manualPolicyCheckpoint => "MANUAL_POLICY_CHECKPOINT"
  | resumeCurrentTask => "RESUME_CURRENT_TASK"
  | runCurrentTask => "RUN_CURRENT_TASK"
  | advanceScope => "ADVANCE_SCOPE"
  | projectScopeComplete => "PROJECT_SCOPE_COMPLETE"
  | idle => "IDLE"

structure Candidate where
  rule : RecoveryRule
  action : RecoveryAction
  reasonCode : String
  explanation : String
  detail : Fields

structure RecoveryDecision where
  accepted : Bool
  rule : RecoveryRule
  action : RecoveryAction
  reasonCode : String
  explanation : String
  projectId : String
  runId : Option String
  scope : Option String
  scopeEpoch : Option Int
  currentMilestoneId : Option String
  currentTaskId : Option String
  canonicalRevision : Int
  snapshotDigest : String
  trace : List String
  diagnostics : Fields
  rejectedCompetingActions : List (RecoveryRule × String)
  effects : ℕ

variable (rt : RecoveryRuntime) (data : Canonical) (now : DateTime)

/-! ## What the rules look at -/

def projectedStatus (row : Fields) (field : String) : String :=
  match row.get field with
  | .null => ""
  | value => rt.runtime.upper (pyStr rt value)

def currentCursor : Fields := data.cursor.getD []

def currentRun : Fields := (data.runs.find? fun row => row.get "run_id" == (currentCursor data).get "run_id").getD []

def currentScope : Fields :=
  (data.scopes.find? fun row => row.get "scope_id" == (currentCursor data).get "scope" ||
    row.get "mode" == (currentCursor data).get "scope").getD []

def cursorStatus : String := projectedStatus rt (currentCursor data) "status"

def cursorDisposition : String := projectedStatus rt (currentCursor data) "disposition"

def runStatus : String := projectedStatus rt (currentRun data) "status"

def scopeStatus : String := projectedStatus rt (currentScope data) "status"

def currentEpoch : Read Int := intOrZero rt ((currentCursor data).get "scope_epoch")

def isStopped (epoch : Int) : Read Bool :=
  if cursorStatus rt data = "STOPPED" ∨ cursorDisposition rt data = "STOPPED" ∨ runStatus rt data = "STOPPED" ∨
      scopeStatus rt data = "STOPPED" then .ok true
  else data.stopFences.anyM fun row => do return (← intOrZero rt (row.get "scope_epoch")) == epoch

def withStatus (field : String) (statuses : List String) (rows : List Fields) : List Fields :=
  rows.filter fun row => decide (projectedStatus rt row field ∈ statuses)

def securityFailures : List Fields :=
  withStatus rt "failure_class" ["SECURITY","DATA_CORRUPTION","SECURITY_DATA_CORRUPTION"] data.failures

def securityAttention : List Fields := withStatus rt "type" securityKinds data.attention

def securityCount : ℕ := data.securityEvents.length + (securityFailures rt data).length + (securityAttention rt data).length

def uncertainSends : List Fields := withStatus rt "status" (sendUncertain ++ ["PHYSICAL_SEND_ATTEMPTED"]) data.sendIntents

def activeSends : List Fields := withStatus rt "status" sendActive data.sendIntents

def confirmedSends : List Fields := withStatus rt "status" ["SEND_CONFIRMED"] (activeSends rt data)

def pendingReentries : List Fields := withStatus rt "liveness_state" reentryPending data.sessionReentries

def operatorReentries : List Fields := withStatus rt "liveness_state" ["OPERATOR_CHECKPOINT"] data.sessionReentries

def blockedReentries : List Fields := withStatus rt "liveness_state" reentryBlocked data.sessionReentries

def continuationLeases : List Fields :=
  withStatus rt "status" leaseActive (withStatus rt "lease_kind" ["CONTINUATION"] data.leases)

def leaseExpiry (row : Fields) : Read DateTime := parseUtc rt (pyStr rt (row.get "expires_at")) "lease.expires_at"

def expiresAfter (row : Fields) : Bool :=
  match leaseExpiry rt row with
  | .ok expires => decide (now < expires)
  | .error _ => false

def activeLeases : List Fields := (continuationLeases rt data).filter (expiresAfter rt now)

def expiredLeases : List Fields := (continuationLeases rt data).filter fun row => !expiresAfter rt now row

def waitingForCi : List Fields := withStatus rt "status" ["QUEUED","IN_PROGRESS"] data.ciWaits

def pendingRetries : List Fields := withStatus rt "status" ["SCHEDULED","EXECUTING"] data.retries

def repairFailures : List Fields :=
  withStatus rt "failure_class" ["PROJECT_REPAIRABLE","REPAIRABLE","RETEST","PROJECT_RETEST"] data.failures

def isWaitingForPlan : Prop :=
  cursorDisposition rt data = "WAITING_FOR_PLAN" ∨ cursorStatus rt data = "WAITING_FOR_PLAN" ∨
    runStatus rt data = "WAITING_FOR_PLAN"

instance : Decidable (isWaitingForPlan rt data) := inferInstanceAs (Decidable (_ ∨ _ ∨ _))

def checkpointKinds : List String := ["MANUAL_CHECKPOINT","POLICY_CHECKPOINT","OPERATOR_CHECKPOINT"]

def manualCheckpoints : List Fields := withStatus rt "label" checkpointKinds data.checkpoints

def atCheckpoint : Prop := cursorDisposition rt data ∈ checkpointKinds ∨ manualCheckpoints rt data ≠ []

instance : Decidable (atCheckpoint rt data) := inferInstanceAs (Decidable (_ ∨ _))

def scopeComplete : Prop :=
  scopeStatus rt data ∈ ["COMPLETED","FAILED"] ∨ runStatus rt data ∈ ["COMPLETED","FAILED"] ∨
    cursorStatus rt data = "COMPLETED" ∨ cursorDisposition rt data = "COMPLETED"

instance : Decidable (scopeComplete rt data) := inferInstanceAs (Decidable (_ ∨ _ ∨ _ ∨ _))

def currentTaskId : Json := (currentCursor data).get "current_task_id"

def currentTaskStatus : Option String := do
  guard ((currentTaskId data).truthy = true)
  let state ← data.taskStates.find? fun row => row.get "task_id" == currentTaskId data
  pure (projectedStatus rt state "status")

/-! ## The candidate -/

def sortedIds (name : String) (rows : List Fields) : Json :=
  .arr (((rows.map fun row => pyStr rt (row.get name)).insertionSort (· ≤ ·)).map .str)

def taskCandidate : Option Candidate :=
  match currentTaskStatus rt data with
  | none => none
  | some status =>
    if status = "ACTIVE" then
      some ⟨.currentRunnableTask,.resumeCurrentTask,"CURRENT_TASK_IN_PROGRESS",
        "canonical current task is in progress and can be reconstructed without a new binding",
        [("task_id",currentTaskId data)]⟩
    else if status = "PENDING" ∨ status = "REVIEW" then
      some ⟨.currentRunnableTask,if status = "PENDING" then .runCurrentTask else .resumeCurrentTask,
        if status = "PENDING" then "CURRENT_TASK_RUNNABLE" else "CURRENT_TASK_REVIEW",
        "canonical current task remains the next runnable task after restart",
        [("task_id",currentTaskId data),("task_status",.str status)]⟩
    else if status = "COMPLETED" ∨ status = "SKIPPED" then
      some ⟨.currentRunnableTask,.advanceScope,"CURRENT_TASK_ALREADY_TERMINAL",
        "canonical current task is terminal; scope advancement remains the next workflow action",
        [("task_id",currentTaskId data),("task_status",.str status)]⟩
    else none

/-- The rules below the leases, in the order in which they are tested. -/
def lowerCandidate : Candidate :=
  if waitingForCi rt data ≠ [] then
    ⟨.ciWaiting,.ciWaiting,"CI_WAITING",
      "durable CI wait state outranks lower-priority task selection and remains waiting after restart",
      [("wait_ids",sortedIds rt "wait_id" (waitingForCi rt data))]⟩
  else if pendingRetries rt data ≠ [] ∨ repairFailures rt data ≠ [] then
    ⟨.repairRetest,.repairRetest,"REPAIR_OR_RETEST_PENDING",
      "durable repair/retest state outranks a fresh runnable task",
      [("retry_ids",sortedIds rt "retry_request_id" (pendingRetries rt data))]⟩
  else if isWaitingForPlan rt data then
    ⟨.waitingForPlan,.waitingForPlan,"WAITING_FOR_PLAN",
      "canonical workflow is waiting for an approved plan; startup cannot infer or invent one from UI state",[]⟩
  else if atCheckpoint rt data then
    ⟨.manualPolicyCheckpoint,.manualPolicyCheckpoint,"MANUAL_POLICY_CHECKPOINT",
      "canonical manual or policy checkpoint remains the next legal transition",
      [("checkpoint_ids",sortedIds rt "checkpoint_id" (manualCheckpoints rt data))]⟩
  -- completion is terminal, and is tested before the current task
  else if scopeComplete rt data then
    ⟨.projectScopeComplete,.projectScopeComplete,"PROJECT_SCOPE_COMPLETE",
      "canonical project or scope completion is terminal and survives restart",[]⟩
  else (taskCandidate rt data).getD
    ⟨.idle,.idle,"NO_RECOVERY_ACTION",
      "no higher-priority canonical recovery condition or runnable task is present",[]⟩

def leaseCandidate : Read Candidate := do
  (continuationLeases rt data).forM fun row => discard (leaseExpiry rt row)
  if activeLeases rt data now ≠ [] then
    pure ⟨.activeContinuationLease,.waitForActiveContinuationLease,"ACTIVE_CONTINUATION_LEASE",
      "an unexpired canonical continuation lease is preserved across process death; disappearance alone cannot reclaim it",
      [("lease_ids",sortedIds rt "lease_id" (activeLeases rt data now))]⟩
  else if expiredLeases rt data now ≠ [] then
    pure ⟨.expiredOrphanLease,.reclaimExpiredContinuationLease,"EXPIRED_ORPHAN_LEASE",
      "the canonical continuation lease is expired and may be reclaimed only through NX-026 deterministic rules",
      [("lease_ids",sortedIds rt "lease_id" (expiredLeases rt data now))]⟩
  else pure (lowerCandidate rt data)

def candidate : Read Candidate := do
  let epoch ← currentEpoch rt data
  let stop ← isStopped rt data epoch
  if stop = true then
    pure ⟨.stopped,.stopped,"STOP_CANONICAL","canonical STOP state or STOP fence remains authoritative after restart",
      [("epoch",.int epoch)]⟩
  else if securityCount rt data ≠ 0 then
    pure ⟨.securityDataCorruptionFreeze,.freezeAndRequireReconciliation,"SECURITY_OR_DATA_CORRUPTION_FREEZE",
      "canonical security or data-corruption evidence blocks automatic recovery",
      [("security_event_count",.int (securityCount rt data))]⟩
  else if uncertainSends rt data ≠ [] then
    pure ⟨.deliveryUncertain,.reconcileUncertainDelivery,"DELIVERY_UNCERTAIN",
      "durable send delivery is unresolved; startup must reconcile evidence and must not resend blindly",
      [("intent_ids",sortedIds rt "intent_id" (uncertainSends rt data))]⟩
  else if activeSends rt data ≠ [] then
    pure ⟨.activeSendIntent,if confirmedSends rt data ≠ [] then .ackSendIntent else .resumeSendIntent,
      if confirmedSends rt data ≠ [] then "SEND_ACK_PENDING" else "SEND_INTENT_ACTIVE",
      if confirmedSends rt data ≠ [] then "confirmed send evidence awaits durable acknowledgement"
      else "durable send intent has not crossed a terminal acknowledgement and may be resumed only after live revalidation",
      [("intent_ids",sortedIds rt "intent_id" (activeSends rt data))]⟩
  else if pendingReentries rt data ≠ [] then
    pure ⟨.continuationReentry,.resumeSessionReentry,"CONTINUATION_PENDING",
      "canonical session re-entry remains pending and is reconstructed from its stored packet identity",
      [("reentry_ids",sortedIds rt "reentry_id" (pendingReentries rt data))]⟩
  else if operatorReentries rt data ≠ [] then
    pure ⟨.operatorCheckpoint,.operatorCheckpoint,"OPERATOR_CHECKPOINT_PENDING",
      "canonical re-entry requires the already-prepared bounded operator checkpoint",
      [("checkpoint_ids",sortedIds rt "checkpoint_id" (operatorReentries rt data))]⟩
  -- a blocked re-entry returns a rule that the table ranks below the leases
  else if blockedReentries rt data ≠ [] then
    pure ⟨.manualPolicyCheckpoint,.manualPolicyCheckpoint,"REENTRY_BLOCKED",
      "a previous canonical re-entry is blocked or failed; startup must not guess or create a new continuation",
      [("reentry_ids",sortedIds rt "reentry_id" (blockedReentries rt data))]⟩
  else leaseCandidate rt data now

/-! ## The decision -/

/-- The rules ranked below the selected one, unless nothing was selected. -/
def rejectedRules (rule : RecoveryRule) : List (RecoveryRule × String) :=
  (precedence.drop (precedence.idxOf rule + 1)).filterMap fun r =>
    if r ≠ .idle ∧ rule ≠ .idle then some (r,"lower precedence than " ++ rule.value) else none

def textOf (value : Json) : Option String :=
  match value with
  | .null => none
  | value => some (pyStr rt value)

/-- `dict(base, **detail)`: a repeated key keeps its place and takes the later value. -/
def mergeFields (base detail : Fields) : Fields :=
  base.map (fun p => (p.1,detail.getOr p.1 p.2)) ++ detail.filter fun p => (base.lookup p.1).isNone

def epochOf (cursor : Fields) : Read (Option Int) :=
  match cursor.get "scope_epoch" with
  | .null => .ok none
  | value => some <$> intOrRaise rt value

def decisionFromSnapshot (s : CanonicalRecoverySnapshot) : Read RecoveryDecision := do
  let cursor := currentCursor s.data
  let c ← candidate rt s.data now
  let epoch ← epochOf rt cursor
  pure {
    accepted := true
    rule := c.rule
    action := c.action
    reasonCode := c.reasonCode
    explanation := c.explanation
    projectId := s.projectId
    runId := textOf rt (cursor.get "run_id")
    scope := textOf rt (cursor.get "scope")
    scopeEpoch := epoch
    currentMilestoneId := textOf rt (cursor.get "current_milestone_id")
    currentTaskId := textOf rt (cursor.get "current_task_id")
    canonicalRevision := s.canonicalRevision
    snapshotDigest := s.snapshotDigest
    trace := ["STARTUP_READ_CANONICAL_STATE","RECOVERY_RULE:" ++ c.rule.value,"NEXT_ACTION:" ++ c.action.value]
    diagnostics := mergeFields [
      ("canonical_revision",.int s.canonicalRevision),
      ("snapshot_digest",.str s.snapshotDigest),
      ("precedence_index",.int (precedence.idxOf c.rule)),
      ("canonical_authority",.str "ProjectMemoryStoreV2"),
      ("browser_state_consulted",.bool false),
      ("native_state_consulted",.bool false),
      ("effects",.int 0),
      ("recovery_precedence_ambiguities",.int 0)] c.detail
    rejectedCompetingActions := rejectedRules c.rule
    effects := 0 }

def errorDigest (projectId : String) (e : RecoveryError) : String :=
  digestJson rt (.obj [
    ("schema",.str "bdb-startup-recovery-v1"),
    ("version",.str "v1"),
    ("project_id",.str projectId),
    ("error_code",.str e.code),
    ("table",e.table.elim .null .str),
    ("row_id",e.rowId.elim .null .str)])

def frozenDecision (projectId : String) (e : RecoveryError) : RecoveryDecision where
  accepted := false
  rule := .securityDataCorruptionFreeze
  action := .freezeAndRequireReconciliation
  reasonCode := e.code
  explanation := "canonical recovery state is unavailable or corrupt; automatic restart recovery is frozen"
  projectId := projectId
  runId := none
  scope := none
  scopeEpoch := none
  currentMilestoneId := none
  currentTaskId := none
  canonicalRevision := 0
  snapshotDigest := errorDigest rt projectId e
  trace := ["CANONICAL_RECOVERY_READ_FAILED","NEXT_ACTION:FREEZE_AND_REQUIRE_RECONCILIATION"]
  diagnostics := [
    ("canonical_revision",.int 0),
    ("snapshot_digest",.str (errorDigest rt projectId e)),
    ("canonical_authority",.str "ProjectMemoryStoreV2"),
    ("browser_state_consulted",.bool false),
    ("native_state_consulted",.bool false),
    ("effects",.int 0),
    ("error_code",.str e.code),
    ("error_table",e.table.elim .null .str),
    ("error_row_id",e.rowId.elim .null .str),
    ("recovery_precedence_ambiguities",.int 0)]
  rejectedCompetingActions := []
  effects := 0

def reconcile (db : Tables) (projectId : String) : Read RecoveryDecision :=
  match snapshot rt db projectId with
  | .ok s => decisionFromSnapshot rt now s
  | .error (.recovery e) => .ok (frozenDecision rt projectId e)
  | .error .uncaught => .error .uncaught

end Bdb.Startup
