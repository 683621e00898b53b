import Bdb.Base.JsonSize
import Bdb.Project.Plan

/-! # Records of the execution document

Bindings, attempts, acceptance results, milestone runs, launch records and
checkpoints, each with the document it is stored as. A stored record always has all
the fields its writer gives it.
-/
namespace Bdb.Project

def projectExecutionSchema : String := "bdb-project-execution-v1"

inductive BindingStatus where
  | active
  | accepted
  | failed
  | superseded
  | other (text : String)
deriving DecidableEq

namespace BindingStatus

def text : BindingStatus → String
  | .active => "ACTIVE"
  | .accepted => "ACCEPTED"
  | .failed => "FAILED"
  | .superseded => "SUPERSEDED"
  | .other s => s

def ofText (s : String) : BindingStatus :=
  if s = "ACTIVE" then .active
  else if s = "ACCEPTED" then .accepted
  else if s = "FAILED" then .failed
  else if s = "SUPERSEDED" then .superseded
  else .other s

/-- One of the four canonical statuses. -/
def legal : BindingStatus → Bool
  | .other _ => false
  | _ => true

def terminal : BindingStatus → Bool
  | .accepted => true
  | .failed => true
  | .superseded => true
  | _ => false

end BindingStatus

structure ProjectExecutionBinding where
  executionBindingId : String
  projectId : String
  planVersion : String
  taskId : String
  launchId : String
  correlationId : String
  commandId : String
  repoAlias : String
  expectedRepoHeadBefore : String
  createdAt : String
  status : BindingStatus
  superseded : Bool
  generation : Int
  conversationId : Option String
  finishedAt : Option String
deriving DecidableEq

namespace ProjectExecutionBinding

def toDict (b : ProjectExecutionBinding) : Fields :=
  [("schema",.str projectExecutionSchema),("execution_binding_id",.str b.executionBindingId),
    ("project_id",.str b.projectId),("plan_version",.str b.planVersion),("task_id",.str b.taskId),
    ("launch_id",.str b.launchId),("correlation_id",.str b.correlationId),
    ("command_id",.str b.commandId),("repo_alias",.str b.repoAlias),
    ("expected_repo_head_before",.str b.expectedRepoHeadBefore),("created_at",.str b.createdAt),
    ("status",.str b.status.text),("superseded",.bool b.superseded),
    ("generation",.int b.generation)] ++
  optionalText "conversation_id" b.conversationId ++ optionalText "finished_at" b.finishedAt

/-- The binding still waits for its one result. -/
def isActive (b : ProjectExecutionBinding) : Bool := b.status == .active && !b.superseded

def sameGroup (taskId planVersion : String) (b : ProjectExecutionBinding) : Bool :=
  b.taskId == taskId && b.planVersion == planVersion

end ProjectExecutionBinding

def resultSubject (b : ProjectExecutionBinding) : List String :=
  [b.executionBindingId,b.commandId,b.correlationId,b.projectId,b.taskId,b.planVersion,b.repoAlias]

inductive ResultStatus where
  | pass
  | fail
  | reviewRequired
  | unknown
  | staleResult
deriving DecidableEq

def ResultStatus.text : ResultStatus → String
  | .pass => "PASS"
  | .fail => "FAIL"
  | .reviewRequired => "REVIEW_REQUIRED"
  | .unknown => "UNKNOWN"
  | .staleResult => "STALE_RESULT"

/-- One recorded result. An attempt written before identities had a version has none. -/
structure ProjectExecutionAttempt where
  identityVersion : Option String
  attemptId : String
  projectId : String
  planVersion : String
  taskId : String
  executionBindingId : String
  commandId : String
  startedAt : String
  finishedAt : Option String
  headBefore : String
  headAfter : Json
  executionStatus : String
  validationStatus : String
  promotionStatus : String
  resultStatus : ResultStatus
  resultSummary : String
  evidenceRefs : List String
  failureCode : Json
  resultDigest : String
deriving DecidableEq

def ProjectExecutionAttempt.toDict (a : ProjectExecutionAttempt) : Fields :=
  [("schema",.str "bdb-project-execution-attempt-v1")] ++
  optionalText "identity_version" a.identityVersion ++
  [("attempt_id",.str a.attemptId),("project_id",.str a.projectId),
    ("plan_version",.str a.planVersion),("task_id",.str a.taskId),
    ("execution_binding_id",.str a.executionBindingId),("command_id",.str a.commandId),
    ("started_at",.str a.startedAt),("finished_at",nullableText a.finishedAt),
    ("head_before",.str a.headBefore),("head_after",a.headAfter),
    ("execution_status",.str a.executionStatus),("validation_status",.str a.validationStatus),
    ("promotion_status",.str a.promotionStatus),("result_status",.str a.resultStatus.text),
    ("result_summary",.str a.resultSummary),("evidence_refs",strings a.evidenceRefs),
    ("failure_code",a.failureCode),("result_digest",.str a.resultDigest)]

/-- A stored attempt carries the canonical references of its result. -/
structure AttemptDocument where
  attempt : ProjectExecutionAttempt
  canonicalRefs : Fields
deriving DecidableEq

namespace AttemptDocument

def toDict (a : AttemptDocument) : Fields :=
  a.attempt.toDict ++ [("canonical_refs",.obj a.canonicalRefs)]

def isStale (a : AttemptDocument) : Bool := a.attempt.resultStatus == .staleResult

end AttemptDocument

inductive CriterionKind where
  | deterministic
  | manualReview
  | external
  | unknown
deriving DecidableEq

namespace CriterionKind

def text : CriterionKind → String
  | .deterministic => "DETERMINISTIC"
  | .manualReview => "MANUAL_REVIEW"
  | .external => "EXTERNAL"
  | .unknown => "UNKNOWN"

def ofText (s : String) : CriterionKind :=
  if s = "DETERMINISTIC" then .deterministic
  else if s = "MANUAL_REVIEW" then .manualReview
  else if s = "EXTERNAL" then .external
  else .unknown

end CriterionKind

def criterionStatusOfText (s : String) : ResultStatus :=
  if s = "PASS" then .pass
  else if s = "FAIL" then .fail
  else if s = "REVIEW_REQUIRED" then .reviewRequired
  else .unknown

structure CriterionResult where
  criterion : String
  kind : CriterionKind
  status : ResultStatus
  evidenceRef : Json
deriving DecidableEq

def CriterionResult.toDict (c : CriterionResult) : Fields :=
  [("criterion",.str c.criterion),("type",.str c.kind.text),("status",.str c.status.text),
    ("evidence_ref",c.evidenceRef)]

structure TaskAcceptanceResult where
  projectId : String
  planVersion : String
  taskId : String
  attemptId : String
  criteria : List CriterionResult
  overall : ResultStatus
  createdAt : String
deriving DecidableEq

def TaskAcceptanceResult.toDict (a : TaskAcceptanceResult) : Fields :=
  [("schema",.str "bdb-task-acceptance-result-v1"),("project_id",.str a.projectId),
    ("plan_version",.str a.planVersion),("task_id",.str a.taskId),("attempt_id",.str a.attemptId),
    ("criteria",.arr (a.criteria.map (fun c => .obj c.toDict))),("overall",.str a.overall.text),
    ("created_at",.str a.createdAt)]

/-- What keeps a task or a milestone from going on. -/
structure Blocker where
  id : String
  kind : String
  status : String
deriving DecidableEq

def Blocker.toJson (b : Blocker) : Json :=
  .obj [("id",.str b.id),("kind",.str b.kind),("status",.str b.status)]

inductive ProgressStatus where
  | milestoneRequired
  | milestoneCompleted
  | reviewRequired
  | runnable
  | blocked
  | gateRequired
  | openQuestionRequired
  | prerequisiteRequired
  | stopped
deriving DecidableEq

def ProgressStatus.text : ProgressStatus → String
  | .milestoneRequired => "MILESTONE_REQUIRED"
  | .milestoneCompleted => "MILESTONE_COMPLETED"
  | .reviewRequired => "REVIEW_REQUIRED"
  | .runnable => "RUNNABLE"
  | .blocked => "BLOCKED"
  | .gateRequired => "GATE_REQUIRED"
  | .openQuestionRequired => "OPEN_QUESTION_REQUIRED"
  | .prerequisiteRequired => "PREREQUISITE_REQUIRED"
  | .stopped => "STOPPED"

inductive RunStatus where
  | running
  | review
  | blocked
  | completed
  | stopped
  | other (text : String)
deriving DecidableEq

namespace RunStatus

def text : RunStatus → String
  | .running => "running"
  | .review => "review"
  | .blocked => "blocked"
  | .completed => "completed"
  | .stopped => "stopped"
  | .other s => s

/-- The run still takes part in task selection. -/
def live : RunStatus → Bool
  | .running => true
  | .review => true
  | .blocked => true
  | _ => false

/-- The run waits for an operator at its current task. -/
def halted : RunStatus → Bool
  | .review => true
  | .blocked => true
  | _ => false

end RunStatus

structure MilestoneRun where
  milestoneRunId : String
  projectId : String
  planVersion : String
  milestoneId : String
  status : RunStatus
  startedAt : String
  updatedAt : String
  currentTaskId : Option String
  stopReason : Option String
  completedTasks : Option ℕ
  totalTasks : Option ℕ
  progressStatus : Option ProgressStatus
  blocker : Option (Option Blocker)
deriving DecidableEq

def MilestoneRun.toDict (r : MilestoneRun) : Fields :=
  [("schema",.str "bdb-milestone-run-v1"),("milestone_run_id",.str r.milestoneRunId),
    ("project_id",.str r.projectId),("plan_version",.str r.planVersion),
    ("milestone_id",.str r.milestoneId),("status",.str r.status.text),
    ("started_at",.str r.startedAt),("updated_at",.str r.updatedAt),
    ("current_task_id",nullableText r.currentTaskId)] ++
  optionalText "stop_reason" r.stopReason ++
  (r.completedTasks.map (fun n => ("completed_tasks",Json.int n))).toList ++
  (r.totalTasks.map (fun n => ("total_tasks",Json.int n))).toList ++
  optionalText "progress_status" (r.progressStatus.map ProgressStatus.text) ++
  (r.blocker.map (fun b => ("blocker",(b.map Blocker.toJson).getD .null))).toList

inductive HandoffStatus where
  | pending
  | sent
deriving DecidableEq

def HandoffStatus.text : HandoffStatus → String
  | .pending => "PENDING"
  | .sent => "SENT"

structure LaunchHandoff where
  projectId : String
  executionBindingId : String
  taskId : String
  launchId : String
  status : HandoffStatus
  updatedAt : String
  conversationId : Option String
deriving DecidableEq

def LaunchHandoff.toDict (h : LaunchHandoff) : Fields :=
  [("schema",.str "bdb-project-launch-handoff-v1"),("project_id",.str h.projectId),
    ("execution_binding_id",.str h.executionBindingId),("task_id",.str h.taskId),
    ("launch_id",.str h.launchId),("status",.str h.status.text),("updated_at",.str h.updatedAt)] ++
  optionalText "conversation_id" h.conversationId

inductive OutboxStatus where
  | pending
  | published
  | acknowledged
deriving DecidableEq

def OutboxStatus.text : OutboxStatus → String
  | .pending => "PENDING"
  | .published => "PUBLISHED"
  | .acknowledged => "ACKNOWLEDGED"

structure ProjectLaunchOutboxRecord where
  launchId : String
  executionBindingId : String
  projectId : String
  planVersion : String
  taskId : String
  correlationId : String
  commandId : String
  repoAlias : String
  prompt : String
  autoSend : Bool
  status : OutboxStatus
  createdAt : String
  updatedAt : String
  expiresAt : String
  expectedRepoHeadBefore : Option String
deriving DecidableEq

def ProjectLaunchOutboxRecord.toDict (o : ProjectLaunchOutboxRecord) : Fields :=
  [("schema",.str "bdb-project-launch-outbox-v1"),("launch_id",.str o.launchId),
    ("execution_binding_id",.str o.executionBindingId),("project_id",.str o.projectId),
    ("plan_version",.str o.planVersion),("task_id",.str o.taskId),
    ("correlation_id",.str o.correlationId),("command_id",.str o.commandId),
    ("repo_alias",.str o.repoAlias),("prompt",.str o.prompt),("auto_send",.bool o.autoSend),
    ("status",.str o.status.text),("created_at",.str o.createdAt),("updated_at",.str o.updatedAt),
    ("expires_at",.str o.expiresAt)] ++
  optionalText "expected_repo_head_before" o.expectedRepoHeadBefore

structure ExecutionCheckpoint where
  executionBindingId : String
  projectId : String
  taskId : String
  planVersion : String
  status : String
  progressSummary : String
  externalReference : Option String
  lastProgressAt : String
deriving DecidableEq

def ExecutionCheckpoint.toDict (c : ExecutionCheckpoint) : Fields :=
  [("schema",.str "bdb-project-execution-checkpoint-v1"),
    ("execution_binding_id",.str c.executionBindingId),("project_id",.str c.projectId),
    ("task_id",.str c.taskId),("plan_version",.str c.planVersion),("status",.str c.status),
    ("progress_summary",.str c.progressSummary),
    ("external_reference",nullableText c.externalReference),
    ("last_progress_at",.str c.lastProgressAt)]

/-! ## The execution document -/

/-- The stored execution mapping. Any key may still be absent. -/
structure Execution where
  schema : Option String
  bindings : Option (List ProjectExecutionBinding)
  attempts : Option (List AttemptDocument)
  acceptanceResults : Option (List TaskAcceptanceResult)
  checkpoints : Option (Dict ExecutionCheckpoint)
  taskStatuses : Option (Dict TaskStatus)
  gateStatuses : Option (Dict String)
  openQuestionStatuses : Option (Dict String)
  milestonesCompleted : Option (List String)
  milestoneRuns : Option (Dict MilestoneRun)
  launchHandoffs : Option (Dict LaunchHandoff)
  launchOutbox : Option (Dict ProjectLaunchOutboxRecord)
  activeMilestoneRun : Option MilestoneRun
  currentTaskId : Option (Option String)
  currentBindingId : Option (Option String)
  staleResult : Bool
deriving DecidableEq

namespace Execution

def empty : Execution :=
  { schema := none, bindings := none, attempts := none, acceptanceResults := none,
    checkpoints := none, taskStatuses := none, gateStatuses := none, openQuestionStatuses := none,
    milestonesCompleted := none, milestoneRuns := none, launchHandoffs := none,
    launchOutbox := none, activeMilestoneRun := none, currentTaskId := none,
    currentBindingId := none, staleResult := false }

def field (key : String) (value : Option Json) : Fields := (value.map (fun v => (key,v))).toList

def toDict (e : Execution) : Fields :=
  optionalText "schema" e.schema ++
  field "bindings" (e.bindings.map (fun bs => .arr (bs.map (fun b => .obj b.toDict)))) ++
  field "attempts" (e.attempts.map (fun xs => .arr (xs.map (fun a => .obj a.toDict)))) ++
  field "acceptance_results"
    (e.acceptanceResults.map (fun xs => .arr (xs.map (fun a => .obj a.toDict)))) ++
  field "checkpoints" (e.checkpoints.map (Dict.toJson (fun c => .obj c.toDict))) ++
  field "task_statuses" (e.taskStatuses.map (Dict.toJson (fun s => .str s.text))) ++
  field "gate_statuses" (e.gateStatuses.map (Dict.toJson .str)) ++
  field "open_question_statuses" (e.openQuestionStatuses.map (Dict.toJson .str)) ++
  field "milestones_completed" (e.milestonesCompleted.map strings) ++
  field "milestone_runs" (e.milestoneRuns.map (Dict.toJson (fun r => .obj r.toDict))) ++
  field "launch_handoffs" (e.launchHandoffs.map (Dict.toJson (fun h => .obj h.toDict))) ++
  field "launch_outbox" (e.launchOutbox.map (Dict.toJson (fun o => .obj o.toDict))) ++
  field "active_milestone_run" (e.activeMilestoneRun.map (fun r => .obj r.toDict)) ++
  field "current_task_id" (e.currentTaskId.map nullableText) ++
  field "current_binding_id" (e.currentBindingId.map nullableText) ++
  field "stale_result" (if e.staleResult then some (.bool true) else none)

def bytes (e : Execution) : ℕ := Json.byteLength (Json.canonicalText (.obj e.toDict))

instance (e : Execution) (n : ℕ) : Decidable (e.bytes ≤ n) := Json.decidableTextLe (.obj e.toDict) n

end Execution

/-- The execution mapping with every default filled in. -/
structure ExecutionDocument where
  schema : Option String
  bindings : List ProjectExecutionBinding
  attempts : List AttemptDocument
  acceptanceResults : List TaskAcceptanceResult
  checkpoints : Dict ExecutionCheckpoint
  taskStatuses : Dict TaskStatus
  gateStatuses : Dict String
  openQuestionStatuses : Dict String
  milestonesCompleted : List String
  milestoneRuns : Dict MilestoneRun
  launchHandoffs : Dict LaunchHandoff
  launchOutbox : Dict ProjectLaunchOutboxRecord
  activeMilestoneRun : Option MilestoneRun
  currentTaskId : Option (Option String)
  currentBindingId : Option (Option String)
  staleResult : Bool
deriving DecidableEq

namespace ExecutionDocument

/-- The mapping that is written back. -/
def toExecution (d : ExecutionDocument) : Execution :=
  { schema := d.schema, bindings := some d.bindings, attempts := some d.attempts,
    acceptanceResults := some d.acceptanceResults, checkpoints := some d.checkpoints,
    taskStatuses := some d.taskStatuses, gateStatuses := some d.gateStatuses,
    openQuestionStatuses := some d.openQuestionStatuses,
    milestonesCompleted := some d.milestonesCompleted, milestoneRuns := some d.milestoneRuns,
    launchHandoffs := some d.launchHandoffs, launchOutbox := some d.launchOutbox,
    activeMilestoneRun := d.activeMilestoneRun, currentTaskId := d.currentTaskId,
    currentBindingId := d.currentBindingId, staleResult := d.staleResult }

def currentTask (d : ExecutionDocument) : Option String := d.currentTaskId.join

def currentBinding (d : ExecutionDocument) : Option String := d.currentBindingId.join

def binding? (d : ExecutionDocument) (bindingId : String) : Option ProjectExecutionBinding :=
  d.bindings.find? (fun b => b.executionBindingId == bindingId)

end ExecutionDocument

/-- The document as readers see it, absent keys standing for their defaults. An empty
mapping is read as a fresh document with its schema. -/
def Execution.filled (e : Execution) : ExecutionDocument :=
  { schema := if e = Execution.empty then some projectExecutionSchema else e.schema,
    bindings := e.bindings.getD [], attempts := e.attempts.getD [],
    acceptanceResults := e.acceptanceResults.getD [], checkpoints := e.checkpoints.getD ∅,
    taskStatuses := e.taskStatuses.getD ∅, gateStatuses := e.gateStatuses.getD ∅,
    openQuestionStatuses := e.openQuestionStatuses.getD ∅,
    milestonesCompleted := e.milestonesCompleted.getD [],
    milestoneRuns := e.milestoneRuns.getD ∅, launchHandoffs := e.launchHandoffs.getD ∅,
    launchOutbox := e.launchOutbox.getD ∅, activeMilestoneRun := e.activeMilestoneRun,
    currentTaskId := e.currentTaskId, currentBindingId := e.currentBindingId,
    staleResult := e.staleResult }

@[simp] theorem ExecutionDocument.filled_toExecution (d : ExecutionDocument) :
    d.toExecution.filled = d := by
  have hne : d.toExecution ≠ Execution.empty := by
    intro h
    exact absurd (congrArg Execution.bindings h) nofun
  simp only [Execution.filled,if_neg hne]
  rfl

end Bdb.Project
