import Bdb.Base.Crashes
import Bdb.Base.Floats
import Bdb.Base.Sha256
import Bdb.Base.Table
import Bdb.Budget.Spending

/-! # Retries of transient failures

A retry is scheduled for an operation that may be repeated, and executed once its delay has
passed: an attempt is taken from the budget, the operation is called, and the record is
marked. Each statement is committed before the next one, so a crash can fall between any two.
-/
namespace Bdb.Recovery

open Budget

/-! ## Failures, operations and records -/

inductive FailureClass where
  | projectRepairable
  | transientInfrastructure
  | ciWaiting
  | testInfraFailure
  | transportUncertain
  | environmentRepairable
  | sourceDivergence
  | policyViolation
  | securityViolation
  | dataCorruption
  | externalActionRequired
  | ambiguousFailure
  | phaseScopeViolation
  | earlyImplementation
deriving DecidableEq

namespace FailureClass

def value : FailureClass → String
  | projectRepairable => "PROJECT_REPAIRABLE"
  | transientInfrastructure => "TRANSIENT_INFRASTRUCTURE"
  | ciWaiting => "CI_WAITING"
  | testInfraFailure => "TEST_INFRA_FAILURE"
  | transportUncertain => "TRANSPORT_UNCERTAIN"
  | environmentRepairable => "ENVIRONMENT_REPAIRABLE"
  | sourceDivergence => "SOURCE_DIVERGENCE"
  | policyViolation => "POLICY_VIOLATION"
  | securityViolation => "SECURITY_VIOLATION"
  | dataCorruption => "DATA_CORRUPTION"
  | externalActionRequired => "EXTERNAL_ACTION_REQUIRED"
  | ambiguousFailure => "AMBIGUOUS_FAILURE"
  | phaseScopeViolation => "PHASE_SCOPE_VIOLATION"
  | earlyImplementation => "EARLY_IMPLEMENTATION"

/-- The classes that the transition matrix allows to retry or to repair. -/
def retryAllowed : FailureClass → Bool
  | projectRepairable => true
  | transientInfrastructure => true
  | testInfraFailure => true
  | environmentRepairable => true
  | phaseScopeViolation => true
  | earlyImplementation => true
  | _ => false

def repairAllowed : FailureClass → Bool
  | projectRepairable => true
  | testInfraFailure => true
  | environmentRepairable => true
  | phaseScopeViolation => true
  | earlyImplementation => true
  | _ => false

end FailureClass

structure TransientOperation where
  operationId : String
  taskId : String
  operationType : String
  isIdempotent : Bool
  idempotencyKey : Option String

def TransientOperation.repeatable (op : TransientOperation) : Bool :=
  op.isIdempotent || op.idempotencyKey.getD "" != ""

inductive RetryStatus where
  | scheduled
  | executing
  | succeeded
  | failed
  | exhausted
deriving DecidableEq

structure TransientRetryRecord (F : Type) where
  retryRequestId : String
  projectId : String
  runId : String
  taskId : String
  operationId : String
  idempotencyKey : Option String
  fingerprintDigest : String
  evidenceDigest : String
  generation : Int
  delaySeconds : F
  scheduledAt : String
  eligibleAt : String
  status : RetryStatus
  executionCount : Int
  resultDigest : Option String
  createdAt : String
  updatedAt : String

/-- A record whose execution is already noted is not executed again. -/
def TransientRetryRecord.suppressed {F : Type} (r : TransientRetryRecord F) : Bool :=
  r.status == .succeeded || decide (0 < r.executionCount)

/-! ## The two tables -/

structure RetryBooks (F : Type) where
  ledgers : Table LedgerRow (·.taskId)
  retries : Table (TransientRetryRecord F) (·.retryRequestId)

namespace RetryBooks

variable {F : Type}

def empty : RetryBooks F := ⟨.empty,.empty⟩

/-- The mark of an execution, counted when the operation was called. -/
structure Mark where
  id : String
  status : RetryStatus
  counted : Bool
  resultDigest : Option String
  now : String

def Mark.apply (m : Mark) (r : TransientRetryRecord F) : TransientRetryRecord F :=
  { r with
    status := m.status
    executionCount := if m.counted then r.executionCount + 1 else r.executionCount
    resultDigest := m.resultDigest.or r.resultDigest
    updatedAt := m.now }

def spend (b : RetryBooks F) (taskId : String) (u : TransientUpdate) : RetryBooks F :=
  { b with
    ledgers := b.ledgers.change (fun row => if row.taskId = taskId then u.apply row else row) (by
      intro row
      split <;> rfl) }

def mark (b : RetryBooks F) (m : Mark) : RetryBooks F :=
  { b with
    retries := b.retries.change (fun r => if r.retryRequestId = m.id then m.apply r else r) (by
      intro r
      split <;> rfl) }

def createLedger (b : RetryBooks F) (c : Creation) : RetryBooks F × Outcome Unit :=
  if b.ledgers.rows.any (fun row => row.ledgerId = c.ledgerId) then
    (b,fail "IntegrityError" "UNIQUE constraint failed: budget_ledgers.ledger_id")
  else
    match b.ledgers.insert c.row with
    | some ledgers => ({ b with ledgers := ledgers },.ok ())
    | none => (b,fail "IntegrityError" "UNIQUE constraint failed: budget_ledgers.project_id, budget_ledgers.task_id")

def insertRetry (b : RetryBooks F) (r : TransientRetryRecord F) : RetryBooks F × Outcome Unit :=
  match b.retries.insert r with
  | some retries => ({ b with retries := retries },.ok ())
  | none => (b,fail "IntegrityError" "UNIQUE constraint failed: transient_retry_records.retry_request_id")

end RetryBooks

/-- The statements of the calls, each with its commit, and the call of the operation. An
insertion carries what the call was made for; a call of the operation carries the record as
it was read, and the clock reading. -/
inductive RetryRequest (F : Type) where
  | loadLedger (taskId : String)
  | createLedger (c : Creation)
  | findRetry (id : String)
  | insertRetry (op : TransientOperation) (failureClass : FailureClass) (r : TransientRetryRecord F)
  | spend (taskId : String) (u : TransientUpdate)
  | operationFn (r : TransientRetryRecord F) (now : F)
  | mark (m : RetryBooks.Mark)

namespace RetryRequest

variable {F : Type}

def Answer : RetryRequest F → Type
  | .loadLedger _ => Option LedgerRow
  | .createLedger _ => Outcome Unit
  | .findRetry _ => Option (TransientRetryRecord F)
  | .insertRetry _ _ _ => Outcome Unit
  | _ => Unit

def perform : (q : RetryRequest F) → RetryBooks F → RetryBooks F × q.Answer
  | .loadLedger taskId, b => (b,b.ledgers.get taskId)
  | .createLedger c, b => b.createLedger c
  | .findRetry id, b => (b,b.retries.get id)
  | .insertRetry _ _ r, b => b.insertRetry r
  | .spend taskId u, b => (b.spend taskId u,())
  | .operationFn _ _, b => (b,())
  | .mark m, b => (b.mark m,())

end RetryRequest

/-! ## The calls -/

/-- What a call answers: success, the request it is about, and a reason. -/
structure RetryAnswer (F : Type) where
  done : Bool
  request : Option (TransientRetryRecord F)
  reason : String

abbrev RetryScript (F : Type) := Script (RetryRequest F) RetryRequest.Answer (Outcome (RetryAnswer F))

def refuse {F : Type} (reason : String) : RetryScript F := .done (.ok ⟨false,none,reason⟩)

structure TransientRetryPolicy (F : Type) where
  maxAttempts : ℕ
  initialScheduleSeconds : List F
  jitterFactor : F

def TransientRetryPolicy.budget {F : Type} (p : TransientRetryPolicy F) : FailureBudgetPolicy := ⟨p.maxAttempts,0,0⟩

structure RecoveryController (F : Type) where
  projectId : String
  policy : TransientRetryPolicy F

/-- The first sixteen digits of a hash, after a tag. -/
def shortDigest (tag seed : String) : String := tag ++ String.ofList ((Sha256.sha256 seed.toList).toList.take 16)

/-- An element counted from the front, or from the end when the index is negative. -/
def pyIndex {α : Type} (xs : List α) (i : Int) : Option α :=
  if 0 ≤ i then xs[i.toNat]?
  else if 0 ≤ xs.length + i then xs[(xs.length + i).toNat]?
  else none

section Calls

variable {F : Type} [Floats F]

open Floats

/-- The number that hexadecimal digits stand for. -/
def hexNumber (cs : List Char) : ℕ := cs.foldl (fun n c => 16 * n + Json.hexValue c) 0

def computeDeterministicJitter (seed generation attemptIndex : Int) (baseDelay jitterFactor : F) : F :=
  let key := toString seed ++ ":" ++ toString generation ++ ":" ++ toString attemptIndex
  let hexDigest := Sha256.sha256 key.toList
  let fraction : F := divided (ofInt (hexNumber (hexDigest.toList.take 8))) (ofInt 0xFFFFFFFF)
  let jitterOffset := times (times baseDelay jitterFactor) (minus (times (ofInt 2) fraction) (ofInt 1))
  let rounded := round4 (plus baseDelay jitterOffset)
  if lt (ofInt 0) rounded then rounded else ofInt 0

def getOrCreateLedger (ctl : RecoveryController F) (taskId : String) (runId : Option String) (now : String)
    (f : LedgerRow → RetryScript F) : RetryScript F :=
  .ask (.loadLedger taskId) fun stored =>
    match stored with
    | some row => f row
    | none =>
      .ask (.createLedger ⟨shortDigest "bl-" (ctl.projectId ++ ":" ++ taskId),taskId,runId,now⟩) fun created =>
        match created with
        | .error e => .done (.error e)
        | .ok _ => .ask (.loadLedger taskId) fun loaded =>
          match loaded with
          | some row => f row
          | none => .done (fail "AssertionError" "")

/-- The digests are those of the evidence; computing them may raise. -/
structure ScheduleArgs (F : Type) where
  runId : String
  operation : TransientOperation
  failureClass : FailureClass
  fingerprintDigest : Outcome String
  evidenceDigest : Outcome String
  now : F
  createdAt : String

/-- The backoff of the next attempt. -/
def totalDelay (policy : TransientRetryPolicy F) (row : LedgerRow) : Outcome F := do
  let attemptsMade := row.transientRetryCount
  let schedule := policy.initialScheduleSeconds
  let baseDelay ← need (pyIndex schedule (min attemptsMade (schedule.length - 1))) "IndexError"
    "tuple index out of range"
  pure (computeDeterministicJitter row.jitterSeed row.repairGeneration (attemptsMade + 1) baseDelay
    policy.jitterFactor)

def retryRecord (ctl : RecoveryController F) (a : ScheduleArgs F) (nowIso fingerprint evidence : String)
    (row : LedgerRow) : Outcome (TransientRetryRecord F) := do
  let delay ← totalDelay ctl.policy row
  let eligibleIso ← isoformat (plus a.now delay)
  let retryGen := row.transientRetryCount + 1
  let seed := ctl.projectId ++ ":" ++ a.runId ++ ":" ++ a.operation.taskId ++ ":" ++ a.operation.operationId ++
    ":" ++ toString retryGen ++ ":" ++ fingerprint
  pure
    { retryRequestId := shortDigest "ret-" seed
      projectId := ctl.projectId
      runId := a.runId
      taskId := a.operation.taskId
      operationId := a.operation.operationId
      idempotencyKey := a.operation.idempotencyKey
      fingerprintDigest := fingerprint
      evidenceDigest := evidence
      generation := retryGen
      delaySeconds := delay
      scheduledAt := nowIso
      eligibleAt := eligibleIso
      status := .scheduled
      executionCount := 0
      resultDigest := none
      createdAt := nowIso
      updatedAt := nowIso }

/-- A request that is stored is returned, a new one is inserted. -/
def insertOnce (a : ScheduleArgs F) (r : TransientRetryRecord F) : RetryScript F :=
  .ask (.findRetry r.retryRequestId) fun existing =>
    match existing with
    | some _ => .ask (.findRetry r.retryRequestId) fun loaded =>
      .done (.ok ⟨true,loaded,"duplicate_retry_request_suppressed"⟩)
    | none => .ask (.insertRetry a.operation a.failureClass r) fun inserted =>
      match inserted with
      | .error e => .done (.error e)
      | .ok _ => .done (.ok ⟨true,some r,"retry_scheduled"⟩)

def scheduleRetry (ctl : RecoveryController F) (a : ScheduleArgs F) : RetryScript F :=
  match isoformat a.now with
  | .error e => .done (.error e)
  | .ok nowIso =>
    if a.failureClass = .ciWaiting then refuse "ci_waiting_cannot_schedule_transient_retry"
    else if a.failureClass ≠ .transientInfrastructure then
      refuse ("ineligible_failure_class_" ++ a.failureClass.value)
    else if a.operation.repeatable = false then refuse "non_idempotent_operation_cannot_retry"
    else
      match (do let fingerprint ← a.fingerprintDigest; let evidence ← a.evidenceDigest; pure (fingerprint,evidence)) with
      | .error e => .done (.error e)
      | .ok (fingerprint,evidence) =>
        getOrCreateLedger ctl a.operation.taskId (some a.runId) a.createdAt fun row =>
          if ctl.policy.maxAttempts ≤ row.transientRetryCount then
            refuse "budget_exhausted_transient_retry_limit_reached"
          else
            match retryRecord ctl a nowIso fingerprint evidence row with
            | .error e => .done (.error e)
            | .ok r => insertOnce a r

/-- How the operation ends: it returns, it raises, or it takes the process with it. -/
inductive OperationEnd where
  | returns
  | raises (message : String)
  | interrupted

structure ExecuteArgs (F : Type) where
  retryRequestId : String
  operation : OperationEnd
  now : F
  clockText : String

/-- The operation is called and its end is noted, unless it does not come back. -/
def executeOperation (a : ExecuteArgs F) (row : TransientRetryRecord F) : RetryScript F :=
  .ask (.operationFn row a.now) fun _ =>
    match a.operation with
    | .returns =>
      .ask (.mark ⟨a.retryRequestId,.succeeded,true,some "sha256:success",a.clockText⟩) fun _ =>
        .done (.ok ⟨true,none,"retry_succeeded"⟩)
    | .raises message =>
      .ask (.mark ⟨a.retryRequestId,.failed,true,none,a.clockText⟩) fun _ => refuse ("retry_failed: " ++ message)
    | .interrupted => .done (fail "KeyboardInterrupt" "")

/-- An attempt is taken from the budget before the operation is called. -/
def consumeAndExecute (ctl : RecoveryController F) (a : ExecuteArgs F) (row : TransientRetryRecord F)
    (taskId : String) : RetryScript F :=
  getOrCreateLedger ctl taskId none a.clockText fun ledger =>
    match transientUpdate ctl.policy.budget ledger (isoformat a.now) with
    | .error (.answer r) =>
      .ask (.mark ⟨a.retryRequestId,.exhausted,false,none,a.clockText⟩) fun _ =>
        refuse ("transient_budget_exhausted: " ++ r.reason)
    | .error (.raised e) => .done (.error e)
    | .ok u => .ask (.spend taskId u) fun _ => executeOperation a row

def executeRetry (ctl : RecoveryController F) (a : ExecuteArgs F) : RetryScript F :=
  .ask (.findRetry a.retryRequestId) fun loaded =>
    match loaded with
    | none => refuse "retry_request_not_found"
    | some req => .ask (.findRetry a.retryRequestId) fun found =>
      match found with
      | none => .done (fail "TypeError" "'NoneType' object is not subscriptable")
      | some row =>
        if row.suppressed then refuse "duplicate_retry_execution_suppressed"
        else
          match timestamp row.eligibleAt with
          | .error e => .done (.error e)
          | .ok eligibleTs =>
            if lt a.now eligibleTs then
              refuse ("retry_not_eligible_yet (" ++ oneDecimal (minus eligibleTs a.now) ++ "s remaining)")
            else consumeAndExecute ctl a row req.taskId

inductive RetryCall (F : Type) where
  | scheduleRetry (a : ScheduleArgs F)
  | executeRetry (a : ExecuteArgs F)

def RetryCall.program (ctl : RecoveryController F) : RetryCall F → RetryScript F
  | .scheduleRetry a => Recovery.scheduleRetry ctl a
  | .executeRetry a => Recovery.executeRetry ctl a

abbrev RetryEntry (F : Type) := Entry (RetryRequest.Answer (F := F))

/-- The tables after a sequence of calls and crashes, and everything that was performed. -/
def retryRun (ctl : RecoveryController F) (attempts : List (Attempt (RetryCall F))) :
    Logged (RetryBooks F) (RetryRequest.Answer (F := F)) :=
  Logged.run RetryRequest.perform (RetryCall.program ctl) ⟨.empty,[]⟩ attempts

end Calls

end Bdb.Recovery
