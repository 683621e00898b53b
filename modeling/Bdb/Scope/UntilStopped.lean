import Bdb.Base.Transaction
import Bdb.Scope.Tick

/-! # The controller of a run until STOP

Plans are admitted one at a time: a start approves the first, and a successor is presented
and approved once the current plan is exhausted. A tick decides from the approved plan
alone and stores its decision in the cursor. STOP and resume are those of every scope.
-/
namespace Bdb.Scope

open Continuation (AutoScope ScopeCursor StopFenceRecord StopRequest Database)
open Continuation.Database (ResumeRequest)
open Step

/-! ## Admissions -/

inductive AdmissionStatus where
  | candidate
  | approved
  | superseded
  | rejected
deriving DecidableEq

structure PlanAdmissionRecord where
  admissionId : String
  planIdentity : String
  planVersion : ℕ
  planDigest : String
  status : AdmissionStatus
  predecessorPlanIdentity : Option String
  predecessorPlanVersion : Option ℕ
  predecessorPlanDigest : Option String
  approvedAt : Option String
  approvedBy : Option String
  createdAt : String
  approvalRevision : ℕ
deriving DecidableEq

/-- A stored admission keeps the plan itself. -/
structure PlanAdmission where
  record : PlanAdmissionRecord
  plan : CanonicalPlanGraph
deriving DecidableEq

abbrev Admissions := Table PlanAdmission (·.record.admissionId)

/-- What a stored decision says of itself. -/
structure DecisionExplanation where
  action : ScopeAction
  reasonCode : String
  planExhausted : Bool
  approvedPlan : Option PlanAdmissionRecord
deriving DecidableEq

/-- The database, the explanation column of its cursor, and the admissions. -/
structure ControllerState where
  db : Database
  explanation : Option DecisionExplanation
  admissions : Admissions

def approvedRows (t : Admissions) : List PlanAdmission := t.rows.filter (fun a => a.record.status = .approved)

def indexed (t : Admissions) : Outcome Admissions := do
  require ((approvedRows t).length ≤ 1) "IntegrityError" "UNIQUE constraint failed: until_stopped_plan_admissions.project_id"
  pure t

def sameIdentity (identity : String) (version : ℕ) (digest : String) (a : PlanAdmission) : Bool :=
  a.record.planIdentity = identity ∧ a.record.planVersion = version ∧ a.record.planDigest = digest

/-- A new row, within the unique indices. -/
def insertAdmission (t : Admissions) (a : PlanAdmission) : Outcome Admissions := do
  require (t.rows.all (fun b => !sameIdentity a.record.planIdentity a.record.planVersion a.record.planDigest b))
    "IntegrityError" "UNIQUE constraint failed: until_stopped_plan_admissions.plan_digest"
  let inserted ← need (t.insert a) "IntegrityError" "UNIQUE constraint failed: until_stopped_plan_admissions.admission_id"
  indexed inserted

def PlanAdmission.setStatus (status : AdmissionStatus) (a : PlanAdmission) : PlanAdmission :=
  { a with record := { a.record with status := status } }

def PlanAdmission.approve (now approvedBy : String) (revision : ℕ) (a : PlanAdmission) : PlanAdmission :=
  { a with record := { a.record with status := .approved, approvedAt := some now, approvedBy := some approvedBy,
                                     approvalRevision := revision } }

/-- The rows with the identity that pass the test are changed. -/
def changeWhere (t : Admissions) (admissionId : String) (p : AdmissionStatus → Bool) (f : PlanAdmission → PlanAdmission)
    (hf : ∀ a, (f a).record.admissionId = a.record.admissionId) : Admissions :=
  t.change (fun a => if a.record.admissionId = admissionId ∧ p a.record.status = true then f a else a) (by
    intro a
    split
    · exact hf a
    · rfl)

namespace ControllerState

def approvedPlan (s : ControllerState) : Option PlanAdmission := s.admissions.find (fun a => a.record.status = .approved)

def admissionFor (s : ControllerState) (identity : String) (version : ℕ) (digest : String) : Option PlanAdmission :=
  s.admissions.find (sameIdentity identity version digest)

def revision (s : ControllerState) : ℕ := (s.db.cursor.map (·.stateRevision)).getD 0

end ControllerState

/-! ## Plans -/

/-- A plan as a caller gives it, with the digest it declares. -/
structure PlanSubmission where
  graph : CanonicalPlanGraph
  planDigest : Option String

def canonicalDocument (plan : CanonicalPlanGraph) : Json :=
  .obj [("plan_identity",.str plan.planIdentity),("plan_version",.int plan.planVersion),
    ("milestones",.arr (plan.milestones.map fun m => .obj [("milestone_id",.str m.milestoneId),("gate_id",.str m.gateId),
      ("dependencies",.arr (m.dependencies.map .str)),("task_ids",.arr (m.taskIds.map .str))])),
    ("tasks",.arr (plan.tasks.map fun t => .obj [("task_id",.str t.taskId),("milestone_id",.str t.milestoneId),
      ("dependencies",.arr (t.dependencies.map .str)),("is_gate",.bool t.isGate),
      ("requires_manual_approval",.bool t.requiresManualApproval),
      ("requires_policy_approval",.bool t.requiresPolicyApproval)]))]

variable (rt : Runtime)

def computedPlanDigest (plan : CanonicalPlanGraph) : String :=
  "sha256:" ++ rt.sha256 (Json.text (Json.canon (canonicalDocument plan)))

def validatePlan (plan : PlanSubmission) : Outcome String :=
  match plan.graph.validateGraph with
  | some message => fail "INVALID_PLAN_GRAPH" message
  | none => do
    require (1 ≤ plan.graph.planVersion ∧ plan.graph.planIdentity ≠ "") "INVALID_PLAN_IDENTITY"
      "plan identity/version is invalid"
    require (∀ digest ∈ plan.planDigest, digest = computedPlanDigest rt plan.graph) "PLAN_DIGEST_MISMATCH"
      "plan graph digest is not bound to its canonical bytes"
    pure (computedPlanDigest rt plan.graph)

/-! ## Starting -/

inductive ScopeChoice where
  | missing
  | unsupported
  | scope (scope : AutoScope)
deriving DecidableEq

structure StartArgs where
  plan : PlanSubmission
  runId : String
  explicitScope : ScopeChoice
  readiness : Bool
  planApproved : Bool
  approvedBy : String
  suffix : String
  now : String

/-- An admission with these values is returned when there is one, approved if that was asked
for; otherwise a new one is stored. -/
def insertOrGetAdmission (s : ControllerState) (plan : PlanSubmission) (status : AdmissionStatus)
    (predecessor : Option PlanAdmissionRecord) (approvedBy : Option String) (suffix now : String) :
    Outcome (ControllerState × PlanAdmission) := do
  let digest ← validatePlan rt plan
  match s.admissionFor plan.graph.planIdentity plan.graph.planVersion digest with
  | some existing =>
    if status = .approved ∧ existing.record.status ≠ .approved then do
      let admissions ← indexed (changeWhere s.admissions existing.record.admissionId
        (fun st => st = .candidate ∨ st = .rejected)
        (·.approve now (Continuation.nonEmptyOr (approvedBy.getD "") "operator") (s.revision + 1)) (fun _ => rfl))
      let row ← need (admissions.get existing.record.admissionId) "AssertionError" ""
      pure ({ s with admissions := admissions },row)
    else pure (s,existing)
  | none => do
    let row : PlanAdmission :=
      { record :=
          { admissionId := "admission-" ++ s.db.projectId ++ "-" ++ suffix
            planIdentity := plan.graph.planIdentity
            planVersion := plan.graph.planVersion
            planDigest := digest
            status := status
            predecessorPlanIdentity := predecessor.map (·.planIdentity)
            predecessorPlanVersion := predecessor.map (·.planVersion)
            predecessorPlanDigest := predecessor.map (·.planDigest)
            approvedAt := if status = .approved then some now else none
            approvedBy := if status = .approved then approvedBy else none
            createdAt := now
            approvalRevision := if status = .approved then s.revision else 0 }
        plan := plan.graph }
    let admissions ← insertAdmission s.admissions row
    pure ({ s with admissions := admissions },row)

def checkStarted (s : ControllerState) (existing : ScopeCursor) (plan : PlanSubmission) (digest : String) : Outcome ScopeCursor := do
  require (existing.stopped = false) "STOP_FENCED" "stopped UNTIL_STOPPED scope requires an explicit resume"
  require (existing.scope = .untilStopped ∧ existing.scopeSelectionExplicit = true) "EXPLICIT_SCOPE_REQUIRED"
    "existing cursor was not explicitly selected for UNTIL_STOPPED"
  require (existing.planIdentity = plan.graph.planIdentity ∧ existing.planVersion = plan.graph.planVersion)
    "PLAN_IDENTITY_MISMATCH" "start plan differs from the current canonical plan"
  require ((s.admissionFor plan.graph.planIdentity plan.graph.planVersion digest).any
    (fun a => a.record.status = .approved)) "PLAN_APPROVAL_REQUIRED" "current plan is not canonically approved"
  pure existing

def checkStart (a : StartArgs) : Outcome String := do
  require (a.explicitScope ≠ .unsupported) "INVALID_SCOPE" "unsupported AUTO scope"
  require (a.explicitScope = .scope .untilStopped) "EXPLICIT_SCOPE_REQUIRED"
    "UNTIL_STOPPED requires explicit per-run scope selection"
  require (a.readiness = true) "READINESS_REQUIRED" "UNTIL_STOPPED cannot start before readiness is canonical"
  require (a.planApproved = true) "PLAN_APPROVAL_REQUIRED" "initial plan must be canonically approved before start"
  validatePlan rt a.plan

def ControllerState.start (s : ControllerState) (a : StartArgs) : ControllerState × Outcome ScopeCursor :=
  match checkStart rt a with
  | .error f => (s,.error f)
  | .ok digest =>
    match s.db.cursor with
    | some existing => (s,checkStarted s existing a.plan digest)
    | none =>
      let cursor := getOrCreateCursor none s.db.projectId a.runId .untilStopped a.plan.graph.planIdentity
        a.plan.graph.planVersion true
      let created : ControllerState := { s with db := { s.db with cursor := some cursor }, explanation := none }
      match insertOrGetAdmission rt created a.plan .approved none (some a.approvedBy) a.suffix a.now with
      | .ok (admitted, _) => (admitted,.ok cursor)
      | .error f => (created,.error f)

/-! ## Successors -/

structure PlanAdmissionOutcome where
  success : Bool
  admission : Option PlanAdmissionRecord
  reasonCode : String
  explanation : String

def refusedPlan (code explanation : String) : PlanAdmissionOutcome := ⟨false,none,code,explanation⟩

/-- Commits what a body returns; an early answer or an error changes nothing. -/
def ControllerState.settle {ρ : Type} (s : ControllerState) (body : Step ρ (ControllerState × ρ)) : ControllerState × Outcome ρ :=
  match body with
  | .ok (t, r) => (t,.ok r)
  | .error (.answer r) => (s,.ok r)
  | .error (.raised f) => (s,.error f)

def waiting (c : ScopeCursor) : Bool := c.status == "WAITING_FOR_PLAN" || c.disposition == "WAITING_FOR_PLAN"

def isSuccessor (plan : CanonicalPlanGraph) (current : PlanAdmissionRecord) : Bool :=
  !(plan.planIdentity = current.planIdentity ∧ plan.planVersion = current.planVersion)

def admitOr {α : Type} (o : Outcome α) : Step PlanAdmissionOutcome α :=
  match o with
  | .ok a => .ok a
  | .error f => if f.code = "IntegrityError" then .error (.raised f) else answer (refusedPlan f.code f.message)

def presentSuccessorBody (s : ControllerState) (plan : PlanSubmission) (predecessor : Option PlanAdmissionRecord)
    (suffix now : String) : Step PlanAdmissionOutcome (ControllerState × PlanAdmissionOutcome) := do
  let cursor ← needOr s.db.cursor (refusedPlan "SCOPE_NOT_STARTED" "UNTIL_STOPPED scope has not started")
  answerUnless (cursor.scope = .untilStopped ∧ cursor.scopeSelectionExplicit = true)
    (refusedPlan "EXPLICIT_SCOPE_REQUIRED" "UNTIL_STOPPED was not explicitly selected")
  let current ← needOr s.approvedPlan (refusedPlan "NO_APPROVED_PLAN" "there is no current approved plan")
  answerUnless (∀ p ∈ predecessor, p = current.record)
    (refusedPlan "PREDECESSOR_MISMATCH" "successor predecessor is not current authority")
  answerUnless (cursor.stopped = true ∨ waiting cursor = true)
    (refusedPlan "CURRENT_PLAN_NOT_EXHAUSTED" "successor admission requires WAITING_FOR_PLAN")
  answerUnless (isSuccessor plan.graph current.record = true)
    (refusedPlan "INVALID_SUCCESSOR" "candidate is not a logical successor")
  let p ← admitOr (insertOrGetAdmission rt s plan .candidate (some current.record) none suffix now)
  pure (p.1,⟨true,some p.2.record,"CANDIDATE_RECORDED","successor candidate is durable but not approved"⟩)

def ControllerState.presentSuccessor (s : ControllerState) (plan : PlanSubmission)
    (predecessor : Option PlanAdmissionRecord) (suffix now : String) : ControllerState × Outcome PlanAdmissionOutcome :=
  s.settle (presentSuccessorBody rt s plan predecessor suffix now)

/-- A successor is named by its graph or by its identity. -/
inductive SuccessorName where
  | graph (plan : PlanSubmission)
  | identity (planIdentity : String) (planVersion : Option ℕ) (planDigest : Option String)

def SuccessorName.resolve : SuccessorName → Step PlanAdmissionOutcome (String × ℕ × String)
  | .graph plan => do
    let digest ← admitOr (validatePlan rt plan)
    pure (plan.graph.planIdentity,plan.graph.planVersion,digest)
  | .identity planIdentity (some version) (some digest) => pure (planIdentity,version,digest)
  | .identity _ _ _ => answer (refusedPlan "PLAN_IDENTITY_REQUIRED" "successor identity/version/digest is required")

/-- A named graph is that of the durable candidate. -/
def SuccessorName.agrees (a : PlanAdmission) : SuccessorName → Bool
  | .graph plan => a.plan = plan.graph
  | .identity _ _ _ => true

def successorCursor (cursor : ScopeCursor) (candidate : PlanAdmissionRecord) : ScopeCursor :=
  { cursor with
    currentMilestoneId := none
    currentTaskId := none
    lastAcceptedTaskId := none
    lastAcceptedGate := none
    planIdentity := candidate.planIdentity
    planVersion := candidate.planVersion
    disposition := "SUCCESSOR_APPROVED"
    status := "ACTIVE"
    stopRequestedAt := none
    stopReason := none }

def linked (candidate current : PlanAdmissionRecord) : Bool :=
  candidate.predecessorPlanIdentity = some current.planIdentity ∧
    candidate.predecessorPlanVersion = some current.planVersion ∧
    candidate.predecessorPlanDigest = some current.planDigest

def approveSuccessorBody (s : ControllerState) (name : SuccessorName) (approvedBy now : String) :
    Step PlanAdmissionOutcome (ControllerState × PlanAdmissionOutcome) := do
  let cursor ← needOr s.db.cursor (refusedPlan "SCOPE_NOT_STARTED" "UNTIL_STOPPED scope has not started")
  answerUnless (cursor.stopped = false) (refusedPlan "STOP_FENCED" "STOP remains authoritative")
  answerUnless (waiting cursor = true) (refusedPlan "CURRENT_PLAN_NOT_EXHAUSTED" "current plan is not exhausted")
  let current ← needOr s.approvedPlan (refusedPlan "NO_APPROVED_PLAN" "there is no current approved plan")
  let id ← name.resolve rt
  let candidate ← needOr ((s.admissionFor id.1 id.2.1 id.2.2).filter (fun a => a.record.status = .candidate))
    (refusedPlan "SUCCESSOR_NOT_PRESENTED" "only a durable candidate may be approved")
  answerUnless (linked candidate.record current.record = true)
    (refusedPlan "PREDECESSOR_MISMATCH" "candidate is not linked to current plan")
  answerUnless (name.agrees candidate = true)
    (refusedPlan "PLAN_BYTES_MISMATCH" "candidate graph differs from durable candidate")
  let superseded ← orRaise (indexed (changeWhere s.admissions current.record.admissionId (· = .approved)
    (·.setStatus .superseded) (fun _ => rfl)))
  let admissions ← orRaise (indexed (changeWhere superseded candidate.record.admissionId (· = .candidate)
    (·.approve now approvedBy (cursor.stateRevision + 1)) (fun _ => rfl)))
  let updated ← needOr (updateCursorCas cursor (successorCursor cursor candidate.record) cursor.stateRevision)
    (refusedPlan "STALE_CURSOR" "successor approval could not update the canonical cursor")
  let done : ControllerState := { s with db := { s.db with cursor := some updated }, admissions := admissions }
  pure (done,⟨true,(done.admissionFor id.1 id.2.1 id.2.2).map (·.record),"SUCCESSOR_APPROVED",
    "successor plan is now canonical"⟩)

def ControllerState.approveSuccessor (s : ControllerState) (name : SuccessorName) (approvedBy now : String) :
    ControllerState × Outcome PlanAdmissionOutcome :=
  s.settle (approveSuccessorBody rt s name approvedBy now)

/-! ## The decision of a tick -/

structure UntilStoppedInputs where
  taskStatuses : String → Option String
  milestoneGateStatuses : String → Option String
  manualApprovals : String → Bool
  policyApprovals : String → Bool
  manualPause : Bool
  policyPause : Bool
  realBlocker : Bool
  blockerReason : String
  stopRequested : Bool

namespace UntilStoppedInputs

variable (i : UntilStoppedInputs)

def taskStatus (taskId : String) : String := rt.upper ((i.taskStatuses taskId).getD "NOT_STARTED")

def gateStatus (milestoneId : String) : String := rt.upper ((i.milestoneGateStatuses milestoneId).getD "NOT_REACHED")

def taskTerminal (taskId : String) : Bool := i.taskStatus rt taskId ∈ ["ACCEPTED","COMPLETED","SKIPPED"]

def taskBlocked (taskId : String) : Bool := i.taskStatus rt taskId ∈ ["BLOCKED","FAILED"]

def gateApproved (milestoneId : String) : Bool := i.gateStatus rt milestoneId ∈ ["ACCEPTED","PASSED"]

end UntilStoppedInputs

/-- A decision with the status that is reported for it. -/
structure Verdict where
  decision : ScopeDecision
  status : String
  planExhausted : Bool := false
deriving DecidableEq

def blockedVerdict (reason explanation : String) (taskId milestoneId : Option String) : Verdict where
  decision :=
    { action := .haltBlocked, canonicalWorkState := .blocked, selectedTaskId := taskId, selectedMilestoneId := milestoneId,
      reasonCode := reason, explanation := explanation, isTerminal := true }
  status := "BLOCKED"

def waitingVerdict (explanation : String) (milestoneId : Option String) : Verdict where
  decision :=
    { action := .haltWaitingForPlan, canonicalWorkState := .waitingForPlan, selectedMilestoneId := milestoneId,
      reasonCode := "WAITING_FOR_PLAN", explanation := explanation, isTerminal := true }
  status := "WAITING_FOR_PLAN"
  planExhausted := true

def stoppedVerdict : Verdict where
  decision :=
    { action := .stopExternalStopRequested, canonicalWorkState := .paused, reasonCode := "STOP_REQUESTED",
      explanation := "UNTIL_STOPPED remains fenced after canonical STOP.", isTerminal := true }
  status := "STOPPED"

def pauseVerdict (action : ScopeAction) (reason what taskId milestoneId : String) : Verdict where
  decision :=
    { action := action, canonicalWorkState := .paused, selectedTaskId := some taskId, selectedMilestoneId := some milestoneId,
      reasonCode := reason, explanation := "Task " ++ taskId ++ " requires " ++ what ++ " approval before effect." }
  status := "PAUSED"

def launchVerdict (cursor : ScopeCursor) (taskId milestoneId : String) : Verdict where
  decision :=
    { action := .launchTask, canonicalWorkState := .runnable, selectedTaskId := some taskId,
      selectedMilestoneId := some milestoneId, reasonCode := "APPROVED_PLAN_TASK",
      explanation := "Task " ++ taskId ++ " is the next legal task in the approved plan.",
      crossesTaskBoundary := cursor.currentTaskId ≠ some taskId,
      crossesMilestoneBoundary := cursor.currentMilestoneId ≠ none ∧ cursor.currentMilestoneId ≠ some milestoneId }
  status := "ACTIVE"

def taskVerdict (cursor : ScopeCursor) (graph : CanonicalPlanGraph) (i : UntilStoppedInputs) (milestoneId taskId : String) :
    Verdict :=
  match graph.getTask taskId with
  | none => blockedVerdict "MALFORMED_PLAN" "Plan milestone references a task that is not in the immutable graph." none
      (some milestoneId)
  | some task =>
    let pending := task.dependencies.filter (fun dep => !i.taskTerminal rt dep)
    if pending ≠ [] then
      { decision :=
          { action := .waitDependencyPending, canonicalWorkState := .waiting, selectedTaskId := some taskId,
            selectedMilestoneId := some milestoneId, reasonCode := "DEPENDENCY_PENDING",
            explanation := "Task " ++ taskId ++ " waits for dependencies: " ++ ", ".intercalate pending ++ ".",
            crossesTaskBoundary := cursor.currentTaskId ≠ some taskId }
        status := "WAITING" }
    else if i.manualPause = true ∨ (task.requiresManualApproval = true ∧ i.manualApprovals taskId = false) then
      pauseVerdict .pauseManualGateRequired "MANUAL_APPROVAL_REQUIRED" "manual" taskId milestoneId
    else if i.policyPause = true ∨ (task.requiresPolicyApproval = true ∧ i.policyApprovals taskId = false) then
      pauseVerdict .pausePolicyApprovalRequired "POLICY_APPROVAL_REQUIRED" "policy" taskId milestoneId
    else launchVerdict cursor taskId milestoneId

/-- The gate of a milestone whose tasks are all terminal. -/
def gateVerdict (i : UntilStoppedInputs) (m : PlanMilestoneNode) : Option Verdict :=
  if i.gateApproved rt m.milestoneId then none
  else if i.gateStatus rt m.milestoneId = "FAILED" then
    some (blockedVerdict "MILESTONE_GATE_FAILED" ("Milestone gate " ++ m.gateId ++ " failed; no later work is selected.")
      none (some m.milestoneId))
  else some
    { decision :=
        { action := .waitMilestoneGatePending, canonicalWorkState := .waiting, selectedMilestoneId := some m.milestoneId,
          reasonCode := "MILESTONE_GATE_PENDING",
          explanation := "Milestone gate " ++ m.gateId ++ " must be accepted before continuing." }
      status := "WAITING" }

def milestoneVerdict (cursor : ScopeCursor) (graph : CanonicalPlanGraph) (i : UntilStoppedInputs)
    (before : List PlanMilestoneNode) (m : PlanMilestoneNode) : Option Verdict :=
  match m.taskIds.find? (i.taskBlocked rt) with
  | some taskId => some (blockedVerdict "REAL_BLOCKER" ("Task " ++ taskId ++
      " is blocked; UNTIL_STOPPED will not skip to other work.") (some taskId) (some m.milestoneId))
  | none =>
    if before.any (fun n => !i.gateApproved rt n.milestoneId) then
      some (blockedVerdict "WRONG_MILESTONE_CURSOR" "A prior milestone gate is not accepted; later work is not runnable."
        none (some m.milestoneId))
    else
      match m.taskIds.find? (fun taskId => !i.taskTerminal rt taskId) with
      | some taskId => some (taskVerdict rt cursor graph i m.milestoneId taskId)
      | none => gateVerdict rt i m

/-- The milestones are looked at in order, until one of them decides. -/
def traverse (cursor : ScopeCursor) (graph : CanonicalPlanGraph) (i : UntilStoppedInputs) :
    List PlanMilestoneNode → List PlanMilestoneNode → Option Verdict
  | _, [] => none
  | before, m :: rest =>
    match milestoneVerdict rt cursor graph i before m with
    | some v => some v
    | none => traverse cursor graph i (before ++ [m]) rest

def planIsExhausted (graph : CanonicalPlanGraph) (i : UntilStoppedInputs) : Bool :=
  graph.tasks.all (fun t => i.taskTerminal rt t.taskId) &&
    graph.milestones.all (fun m => m.taskIds.all (i.taskTerminal rt) && i.gateApproved rt m.milestoneId)

/-- What the approved plan lets happen next. -/
def planVerdict (cursor : ScopeCursor) (approved : PlanAdmission) (i : UntilStoppedInputs) (plan : PlanSubmission) : Verdict :=
  match validatePlan rt plan with
  | .error f => blockedVerdict f.code "The supplied plan is not structurally/content bound to canonical authority." none none
  | .ok digest =>
    if ¬ (sameIdentity plan.graph.planIdentity plan.graph.planVersion digest approved = true ∧
        cursor.planIdentity = approved.record.planIdentity ∧ cursor.planVersion = approved.record.planVersion) then
      blockedVerdict "PLAN_IDENTITY_MISMATCH" "Only the exact currently approved plan identity/version/digest may run." none none
    else if i.realBlocker then
      blockedVerdict i.blockerReason "A real blocker stops automatic progression; unrelated work is not selected." none none
    else if planIsExhausted rt plan.graph i then
      waitingVerdict "Approved plan exhausted; waiting for a canonically approved successor."
        (plan.graph.milestones.getLast?.map (·.milestoneId))
    else (traverse rt cursor plan.graph i [] plan.graph.milestones).getD
      (waitingVerdict "No approved runnable work remains; waiting for a successor plan." none)

/-- Without a given plan the stored one is taken. -/
def verdict (s : ControllerState) (cursor : ScopeCursor) (i : UntilStoppedInputs) (plan : Option PlanSubmission) : Verdict :=
  match s.approvedPlan with
  | none => waitingVerdict "No canonically approved plan is available; no task is fabricated." none
  | some approved => planVerdict rt cursor approved i (plan.getD ⟨approved.plan,none⟩)

/-! ## Storing a decision -/

structure UntilStoppedResult where
  decision : ScopeDecision
  status : String
  cursor : ScopeCursor
  approvedPlan : Option PlanAdmissionRecord
  planExhausted : Bool

def storedTask (cursor : ScopeCursor) (d : ScopeDecision) : Option String × String :=
  match d.action with
  | .haltWaitingForPlan => (none,"WAITING_FOR_PLAN")
  | .pauseManualGateRequired | .pausePolicyApprovalRequired => (orElse d.selectedTaskId cursor.currentTaskId,"PAUSED")
  | .haltBlocked => (orElse d.selectedTaskId cursor.currentTaskId,"BLOCKED")
  | .waitDependencyPending | .waitMilestoneGatePending | .waitCiWaiting | .waitTransientBackoff => (d.selectedTaskId,"WAITING")
  | .stopProjectComplete | .stopScopeComplete => (none,"COMPLETED")
  | .stopExternalStopRequested => (cursor.currentTaskId,"STOPPED")
  | _ => (orElse d.selectedTaskId cursor.currentTaskId,"ACTIVE")

def decidedCursor (cursor : ScopeCursor) (d : ScopeDecision) (plan : Option PlanAdmissionRecord) (planExhausted : Bool) :
    ScopeCursor :=
  { cursor with
    currentMilestoneId := orElse d.selectedMilestoneId cursor.currentMilestoneId
    currentTaskId := (storedTask cursor d).1
    planIdentity := (plan.map (·.planIdentity)).getD cursor.planIdentity
    planVersion := (plan.map (·.planVersion)).getD cursor.planVersion
    disposition := if planExhausted then "WAITING_FOR_PLAN" else d.action.value
    status := (storedTask cursor d).2 }

def persistDecision (s : ControllerState) (cursor : ScopeCursor) (v : Verdict) (plan : Option PlanAdmissionRecord) :
    ControllerState × Outcome UntilStoppedResult :=
  let updated := decidedCursor cursor v.decision plan v.planExhausted
  let explanation : DecisionExplanation := ⟨v.decision.action,v.decision.reasonCode,v.planExhausted,plan⟩
  let result := fun c => (⟨v.decision,v.status,c,s.approvedPlan.map (·.record),v.planExhausted⟩ : UntilStoppedResult)
  if updated = cursor ∧ s.explanation = some explanation then (s,.ok (result cursor))
  else
    match updateCursorCas cursor updated cursor.stateRevision with
    | none => (s,fail "STALE_CURSOR" "UNTIL_STOPPED decision lost a canonical cursor race")
    | some stored =>
      ({ s with db := { s.db with cursor := some stored }, explanation := some explanation },.ok (result stored))

/-- A tick after its STOP request. -/
def ControllerState.evaluate (s : ControllerState) (i : UntilStoppedInputs) (plan : Option PlanSubmission) :
    ControllerState × Outcome UntilStoppedResult :=
  match s.db.cursor with
  | none => (s,fail "AssertionError" "")
  | some cursor =>
    if cursor.stopped then
      (s,.ok ⟨stoppedVerdict.decision,"STOPPED",cursor,s.approvedPlan.map (·.record),false⟩)
    else if ¬ (cursor.scope = .untilStopped ∧ cursor.scopeSelectionExplicit = true) then
      persistDecision s cursor (blockedVerdict "EXPLICIT_SCOPE_REQUIRED"
        "UNTIL_STOPPED is never enabled by an implicit or stale cursor." none none) none
    else if waiting cursor then
      let v := waitingVerdict
        "The durable WAITING_FOR_PLAN checkpoint remains fenced until a successor is canonically approved."
        cursor.currentMilestoneId
      (s,.ok ⟨v.decision,v.status,cursor,s.approvedPlan.map (·.record),true⟩)
    else persistDecision s cursor (verdict rt s cursor i plan) (s.approvedPlan.map (·.record))

structure StopStamps where
  fenceSuffix : String
  eventSuffix : String
  now : DateTime

def ControllerState.tick (s : ControllerState) (i : UntilStoppedInputs) (plan : Option PlanSubmission) (stamps : StopStamps) :
    ControllerState × Outcome UntilStoppedResult :=
  match s.db.cursor with
  | none => (s,fail "SCOPE_NOT_STARTED" "UNTIL_STOPPED scope has not started")
  | some cursor =>
    if i.stopRequested = true ∧ cursor.stopped = false then
      match s.db.stop ⟨some cursor.scopeEpoch,"UNTIL_STOPPED STOP requested","operator",stamps.fenceSuffix,
        stamps.eventSuffix,stamps.now⟩ with
      | (db,.error f) => ({ s with db := db },.error f)
      | (db,.ok _) => ControllerState.evaluate rt { s with db := db } i plan
    else s.evaluate rt i plan

/-! ## Operations -/

inductive ScopeOperation where
  | start (a : StartArgs)
  | presentSuccessor (plan : PlanSubmission) (predecessor : Option PlanAdmissionRecord) (suffix now : String)
  | approveSuccessor (name : SuccessorName) (approvedBy now : String)
  | tick (i : UntilStoppedInputs) (plan : Option PlanSubmission) (stamps : StopStamps)
  | stop (q : StopRequest)
  | resume (q : ResumeRequest)

def ControllerState.perform (s : ControllerState) : ScopeOperation → ControllerState
  | .start a => (s.start rt a).1
  | .presentSuccessor plan predecessor suffix now => (s.presentSuccessor rt plan predecessor suffix now).1
  | .approveSuccessor name approvedBy now => (s.approveSuccessor rt name approvedBy now).1
  | .tick i plan stamps => (s.tick rt i plan stamps).1
  | .stop q => { s with db := (s.db.stop q).1 }
  | .resume q => { s with db := (s.db.resume q).1 }

end Bdb.Scope
