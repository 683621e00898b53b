import Bdb.Budget.Overrides
import Bdb.Recovery.Evaluation

/-! # The repair loop

A repair is requested within the budget, applied within its scope, marked ready and retested
by the verifier it names. Each call is one transaction on four tables; only the consumption
of the budget is committed before the rest of the request.
-/
namespace Bdb.Recovery

open Budget Floats

/-! ## Selectors and scopes -/

structure RetestSelector where
  selectorType : String
  target : String
  expectedVerifierId : String
  parameters : Fields

structure RepairScopeEnvelope where
  allowedPaths : List String
  disallowedPaths : List String
  maxChangedFiles : Int

/-- A path with forward slashes, without blanks at its ends. -/
def normalizedPath (p : String) : List Char := stripChars (p.toList.map fun c => if c = '\\' then '/' else c)

def under (path boundary : List Char) : Bool :=
  path == boundary || (boundary.rdropWhile (· == '/') ++ ['/']).isPrefixOf path

def escapes (path : List Char) : Bool :=
  path.tails.any (['.','.'].isPrefixOf ·) || path.head? == some '/' || path.contains ':'

variable (rt : Runtime)

def RepairScopeEnvelope.validatePath (env : RepairScopeEnvelope) (p : String) : Except String Unit :=
  let normalized := normalizedPath p
  if escapes normalized then .error ("path traversal or absolute path escape detected: " ++ p)
  else
    match env.disallowedPaths.find? fun dis => under normalized (normalizedPath dis) with
    | some dis => .error ("path " ++ p ++ " violates disallowed boundary " ++ dis)
    | none =>
      if env.allowedPaths.any fun allowed => normalizedPath allowed == ['*'] || under normalized (normalizedPath allowed) then
        .ok ()
      else .error ("path " ++ p ++ " escapes allowed repair envelope " ++ rt.str (.arr (env.allowedPaths.map .str)))

def RepairScopeEnvelope.validateMutation (env : RepairScopeEnvelope) (changedPaths : List String) : Except String Unit :=
  if env.maxChangedFiles < changedPaths.length then
    .error ("changed file count " ++ toString changedPaths.length ++ " exceeds max " ++ toString env.maxChangedFiles)
  else changedPaths.forM (env.validatePath rt)

/-! ## Stages and rows -/

inductive RepairStage where
  | intentRecorded
  | effectApplied
  | readyForRetest
  | retestRunning
  | accepted
  | repairFailed
deriving DecidableEq

namespace RepairStage

def value : RepairStage → String
  | intentRecorded => "INTENT_RECORDED"
  | effectApplied => "EFFECT_APPLIED"
  | readyForRetest => "READY_FOR_RETEST"
  | retestRunning => "RETEST_RUNNING"
  | accepted => "ACCEPTED"
  | repairFailed => "REPAIR_FAILED"

end RepairStage

structure RepairRequest where
  repairRequestId : String
  projectId : String
  runId : String
  taskId : String
  failedBindingId : String
  failedAttemptId : Option String
  fingerprintDigest : String
  failureClass : FailureClass
  evidenceDigest : String
  repairGeneration : Int
  scopeEnvelope : RepairScopeEnvelope
  expectedSourceHead : String
  expectedSourceTree : String
  retestSelector : RetestSelector
  createdAt : String

structure RepairRecord where
  repairRequestId : String
  projectId : String
  taskId : String
  runId : String
  bindingId : String
  attemptId : String
  generation : Int
  fingerprintDigest : String
  evidenceDigest : String
  sourceBefore : String
  sourceAfter : Option String
  changedPaths : List String
  retestSelector : RetestSelector
  stage : RepairStage
  retestStatus : Option String
  retestEvidenceDigest : Option String
  createdAt : String
  updatedAt : String

structure AcceptedRepairResult where
  acceptanceId : String
  projectId : String
  taskId : String
  runId : String
  bindingId : String
  attemptId : String
  canonicalResultDigest : String
  acceptedAt : String

/-- A task has one accepted result. -/
structure RepairTables where
  ledgers : Table LedgerRow (·.taskId)
  requests : Table RepairRequest (·.repairRequestId)
  records : Table RepairRecord (·.repairRequestId)
  accepted : Table AcceptedRepairResult (·.taskId)

namespace RepairTables

def empty : RepairTables := ⟨.empty,.empty,.empty,.empty⟩

def updateRecord (t : RepairTables) (id : String) (f : RepairRecord → RepairRecord)
    (hf : ∀ r, (f r).repairRequestId = r.repairRequestId) : RepairTables :=
  { t with
    records := t.records.change (fun r => if r.repairRequestId = id then f r else r) (by
      intro r
      split
      · exact hf r
      · rfl) }

end RepairTables

/-- What a call tells: success, the request it returns, and a reason. -/
structure RepairAnswer where
  done : Bool
  request : Option RepairRequest
  reason : String

abbrev Told := RepairTables × Outcome RepairAnswer

def told (t : RepairTables) (done : Bool) (reason : String) : Told := (t,.ok ⟨done,none,reason⟩)

structure RepairController (F : Type) where
  projectId : String
  policy : RepairPolicy F

variable {F : Type} [Floats F] (ctl : RepairController F)

/-! ## Requests -/

def RepairController.getOrCreateLedger (t : RepairTables) (taskId : String) (runId : Option String) (now : String) :
    RepairTables × Outcome LedgerRow :=
  match t.ledgers.get taskId with
  | some row => (t,.ok row)
  | none =>
    let ledgerId := shortDigest "bl-" (ctl.projectId ++ ":" ++ taskId)
    if t.ledgers.rows.any (fun row => row.ledgerId = ledgerId) then
      (t,fail "IntegrityError" "UNIQUE constraint failed: budget_ledgers.ledger_id")
    else
      match t.ledgers.insert (newLedger ledgerId taskId runId now) with
      | some ledgers => ({ t with ledgers := ledgers },.ok (newLedger ledgerId taskId runId now))
      | none => (t,fail "IntegrityError" "UNIQUE constraint failed: budget_ledgers.project_id, budget_ledgers.task_id")

structure CreateArgs (F : Type) where
  runId : String
  taskId : String
  failedBindingId : String
  failedAttemptId : Option String
  fingerprint : FailureFingerprint
  classification : FailureClass
  evidenceDigest : String
  scopeEnvelope : RepairScopeEnvelope
  expectedSourceHead : String
  expectedSourceTree : String
  retestSelector : RetestSelector
  currentBindingGeneration : Int
  now : F
  clockText : String

def CreateArgs.generation (a : CreateArgs F) : Int := a.currentBindingGeneration + 1

def CreateArgs.requestId (a : CreateArgs F) : String :=
  shortDigest "rep-" (ctl.projectId ++ ":" ++ a.runId ++ ":" ++ a.taskId ++ ":" ++ a.failedBindingId ++ ":" ++
    a.fingerprint.fingerprintDigest ++ ":" ++ toString a.generation)

def CreateArgs.request (a : CreateArgs F) : RepairRequest where
  repairRequestId := a.requestId ctl
  projectId := ctl.projectId
  runId := a.runId
  taskId := a.taskId
  failedBindingId := a.failedBindingId
  failedAttemptId := a.failedAttemptId
  fingerprintDigest := a.fingerprint.fingerprintDigest
  failureClass := a.classification
  evidenceDigest := a.evidenceDigest
  repairGeneration := a.generation
  scopeEnvelope := a.scopeEnvelope
  expectedSourceHead := a.expectedSourceHead
  expectedSourceTree := a.expectedSourceTree
  retestSelector := a.retestSelector
  createdAt := a.clockText

def CreateArgs.record (a : CreateArgs F) : RepairRecord :=
  let bindingId := shortDigest "bnd-" (ctl.projectId ++ ":" ++ a.taskId ++ ":" ++ toString a.generation)
  { repairRequestId := a.requestId ctl
    projectId := ctl.projectId
    taskId := a.taskId
    runId := a.runId
    bindingId := bindingId
    attemptId := shortDigest "att-" (bindingId ++ ":repair:" ++ toString a.generation)
    generation := a.generation
    fingerprintDigest := a.fingerprint.fingerprintDigest
    evidenceDigest := a.evidenceDigest
    sourceBefore := a.expectedSourceHead
    sourceAfter := none
    changedPaths := []
    retestSelector := a.retestSelector
    stage := .intentRecorded
    retestStatus := none
    retestEvidenceDigest := none
    createdAt := a.clockText
    updatedAt := a.clockText }

/-- The budget's answer, for the fingerprint computed anew from the features that are given. -/
def CreateArgs.evaluation (a : CreateArgs F) (row : LedgerRow) : Outcome Evaluation :=
  let computed := computeFailureFingerprint rt a.classification a.fingerprint.semanticFeatures a.fingerprint.ruleId
  evaluateFailure ctl.policy row a.classification computed.fingerprintDigest a.now

def consumeRepairAttempt (t : RepairTables) (a : CreateArgs F) : RepairTables × Outcome (Except String Unit) :=
  match ctl.getOrCreateLedger t a.taskId none a.clockText with
  | (t,.error e) => (t,.error e)
  | (t,.ok row) =>
    match repairUpdate ctl.policy.budget row a.fingerprint.fingerprintDigest (.ok a.clockText) with
    | .error (.raised e) => (t,.error e)
    | .error (.answer r) => (t,.ok (.error r.reason))
    | .ok u => ({ t with ledgers := t.ledgers.put (u.apply row) },.ok (.ok ()))

/-- The two rows of a request. -/
def insertRequest (t : RepairTables) (a : CreateArgs F) : Told :=
  match columnInt a.generation with
  | .error e => (t,.error e)
  | .ok _ =>
    match t.requests.insert (a.request ctl) with
    | none => (t,fail "IntegrityError" "UNIQUE constraint failed: repair_requests.repair_request_id")
    | some requests =>
      match t.records.insert (a.record ctl) with
      | none => ({ t with requests := requests },fail "IntegrityError" "UNIQUE constraint failed: repair_records.repair_request_id")
      | some records =>
        ({ t with requests := requests, records := records },.ok ⟨true,some (a.request ctl),"repair_request_created"⟩)

def createRepairRequest (t : RepairTables) (a : CreateArgs F) : Told :=
  match ctl.getOrCreateLedger t a.taskId (some a.runId) a.clockText with
  | (t,.error e) => (t,.error e)
  | (t,.ok row) =>
    match a.evaluation rt ctl row with
    | .error e => (t,.error e)
    | .ok evaluated =>
      if evaluated.allowed = false then told t false ("budget_exhausted: " ++ evaluated.reason)
      else
        match t.requests.get (a.requestId ctl) with
        | some req => (t,.ok ⟨true,some req,"duplicate_repair_request_idempotent"⟩)
        | none =>
          match consumeRepairAttempt ctl t a with
          | (t,.error e) => (t,.error e)
          | (t,.ok (.error reason)) => told t false ("budget_exhaustion_during_consumption: " ++ reason)
          | (t,.ok (.ok _)) => insertRequest ctl t a

/-! ## Effects and retests -/

structure ApplyArgs where
  repairRequestId : String
  changedPaths : List String
  sourceAfterHead : String
  clockText : String

def RepairRecord.withEffect (a : ApplyArgs) (r : RepairRecord) : RepairRecord :=
  { r with
    sourceAfter := some a.sourceAfterHead
    changedPaths := a.changedPaths
    stage := .effectApplied
    updatedAt := a.clockText }

def applyRepairEffect (t : RepairTables) (a : ApplyArgs) : Told :=
  match t.requests.get a.repairRequestId with
  | none => told t false "repair_request_not_found"
  | some req =>
    match req.scopeEnvelope.validateMutation rt a.changedPaths with
    | .error reason => told t false ("scope_violation: " ++ reason)
    | .ok _ =>
      told (t.updateRecord a.repairRequestId (·.withEffect a) fun _ => rfl) true "effect_applied_within_boundary"

def markReadyForRetest (t : RepairTables) (repairRequestId clockText : String) : Told :=
  match t.records.get repairRequestId with
  | none => told t false "repair_record_not_found"
  | some r =>
    if r.stage ≠ .effectApplied then told t false ("cannot_transition_to_retest_from_" ++ r.stage.value)
    else
      told (t.updateRecord repairRequestId (fun r => { r with stage := .readyForRetest, updatedAt := clockText })
        fun _ => rfl) true "ready_for_retest"

structure VerifierExecutionResult where
  verifierId : String
  target : String
  status : String
  evidenceDigest : String

structure RetestArgs where
  repairRequestId : String
  verifier : RetestSelector → Outcome VerifierExecutionResult
  clockText : String

def RepairRecord.withVerdict (stage : RepairStage) (status evidenceDigest clockText : String) (r : RepairRecord) :
    RepairRecord :=
  { r with
    stage := stage
    retestStatus := some status
    retestEvidenceDigest := some evidenceDigest
    updatedAt := clockText }

def acceptance (projectId : String) (req : RepairRequest) (r : RepairRecord) (evidenceDigest clockText : String) :
    AcceptedRepairResult where
  acceptanceId := shortDigest "acc-" (projectId ++ ":" ++ req.taskId)
  projectId := projectId
  taskId := req.taskId
  runId := req.runId
  bindingId := r.bindingId
  attemptId := r.attemptId
  canonicalResultDigest := evidenceDigest
  acceptedAt := clockText

/-- The accepted row comes first: another one of the task, or of the same id, refuses it. -/
def recordPass (projectId : String) (t : RepairTables) (req : RepairRequest) (r : RepairRecord)
    (evidenceDigest clockText : String) : Told :=
  let row := acceptance projectId req r evidenceDigest clockText
  if t.accepted.rows.any (fun a => a.acceptanceId = row.acceptanceId) then told t false "duplicate_acceptance_rejected"
  else
    match t.accepted.insert row with
    | none => told t false "duplicate_acceptance_rejected"
    | some accepted =>
      told ({ t with accepted := accepted }.updateRecord req.repairRequestId
        (·.withVerdict .accepted "PASS" evidenceDigest clockText) fun _ => rfl) true "accepted"

def executeExactRetest (projectId : String) (t : RepairTables) (a : RetestArgs) : Told :=
  match t.requests.get a.repairRequestId with
  | none => told t false "repair_request_not_found"
  | some req =>
    match t.records.get a.repairRequestId with
    | none => told t false "repair_record_not_found"
    | some r =>
      if r.stage ≠ .readyForRetest then told t false ("invalid_retest_stage: " ++ r.stage.value)
      else
        match a.verifier req.retestSelector with
        | .error e => (t,.error e)
        | .ok result =>
          if result.target ≠ req.retestSelector.target then
            told t false ("wrong_retest_target: expected " ++ req.retestSelector.target ++ ", got " ++ result.target)
          else if result.verifierId ≠ req.retestSelector.expectedVerifierId then
            told t false ("wrong_verifier_id: expected " ++ req.retestSelector.expectedVerifierId ++ ", got " ++
              result.verifierId)
          else if result.status = "PASS" then recordPass projectId t req r result.evidenceDigest a.clockText
          else
            told (t.updateRecord a.repairRequestId
              (·.withVerdict .repairFailed "FAIL" result.evidenceDigest a.clockText) fun _ => rfl) false "retest_failed"

inductive RepairCall (F : Type) where
  | createRepairRequest (a : CreateArgs F)
  | applyRepairEffect (a : ApplyArgs)
  | markReadyForRetest (repairRequestId clockText : String)
  | executeExactRetest (a : RetestArgs)

def RepairCall.perform (t : RepairTables) : RepairCall F → Told
  | .createRepairRequest a => Recovery.createRepairRequest rt ctl t a
  | .applyRepairEffect a => Recovery.applyRepairEffect rt t a
  | .markReadyForRetest id clockText => Recovery.markReadyForRetest t id clockText
  | .executeExactRetest a => Recovery.executeExactRetest ctl.projectId t a

end Bdb.Recovery
