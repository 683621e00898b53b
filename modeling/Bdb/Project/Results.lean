import Bdb.Project.Launch

/-! # Recording a result

A result is either a replay of a recorded attempt, stale, or the one result of its
binding. Only the last kind settles the binding, moves the task and advances the
active milestone run.
-/
namespace Bdb.Project

/-! ## Acceptance -/

def startsWithAny (prefixes : List String) (s : String) : Bool :=
  prefixes.any (fun p => p.toList.isPrefixOf s.toList)

def criterionType (rt : Runtime) (criterion : String) : String :=
  let lowered := rt.lower (strip criterion)
  if startsWithAny ["manual:","review:","visual:"] lowered then "MANUAL_REVIEW"
  else if startsWithAny ["external:"] lowered then "EXTERNAL"
  else if startsWithAny ["unknown:","tbd:"] lowered then "UNKNOWN"
  else "DETERMINISTIC"

/-- The supplied record of a criterion; a later record replaces an earlier one. -/
def suppliedCriterion (rt : Runtime) (items : List Json) (criterion : String) : Fields :=
  ((items.filter Json.isObject).reverse.find? (fun item =>
    rt.str (item.fields.get "criterion") == criterion)).elim [] Json.fields

def orText (rt : Runtime) (value : Json) (default : String) : String :=
  if value.truthy then rt.str value else default

def defaultCriterionStatus (validationOk : Bool) : CriterionKind → String
  | .deterministic => if validationOk then "PASS" else "UNKNOWN"
  | .manualReview => "REVIEW_REQUIRED"
  | .external => "REVIEW_REQUIRED"
  | .unknown => "UNKNOWN"

def evaluateCriterion (rt : Runtime) (validationOk : Bool) (items : List Json) (criterion : String) :
    CriterionResult :=
  let item := suppliedCriterion rt items criterion
  let kind := CriterionKind.ofText (rt.upper (orText rt (item.get "type") (criterionType rt criterion)))
  let status := criterionStatusOfText (rt.upper
    (orText rt (item.get "status") (defaultCriterionStatus validationOk kind)))
  ⟨criterion,kind,status,item.get "evidence_ref"⟩

namespace CriterionResult

def deterministicFailure (c : CriterionResult) : Bool := c.kind == .deterministic && c.status == .fail

def needsReview (c : CriterionResult) : Bool :=
  (c.kind == .manualReview || c.kind == .external) && c.status != .pass

def undecided (c : CriterionResult) : Bool :=
  !c.deterministicFailure && !c.needsReview && (c.kind == .unknown || c.status == .unknown)

end CriterionResult

def acceptanceOverall (validationOk : Bool) (criteria : List CriterionResult) : ResultStatus :=
  if criteria.any CriterionResult.deterministicFailure || !validationOk then .fail
  else if criteria.any CriterionResult.undecided then .unknown
  else if criteria.any CriterionResult.needsReview then .reviewRequired
  else .pass

def evaluateAcceptance (amb : Ambient) (task : ProjectTask) (projectId planVersion attemptId : String)
    (validationOk : Bool) (items : List Json) : TaskAcceptanceResult :=
  let criteria := task.acceptanceCriteria.map (evaluateCriterion amb.runtime validationOk items)
  ⟨projectId,planVersion,task.taskId,attemptId,criteria,acceptanceOverall validationOk criteria,amb.now⟩

/-- A missing list of criteria is read as an empty one. -/
def suppliedItems (result : Fields) : Outcome (List Json) :=
  let value := result.get "criteria"
  if value.truthy then value.elements else pure []

/-! ## Staleness -/

inductive StaleReason where
  | bindingStale
  | identityMismatch
  | subjectMismatch
  | repoIdentityMismatch
  | repoHeadMismatch
  | taskSuperseded
deriving DecidableEq

def StaleReason.text : StaleReason → String
  | .bindingStale => "execution_binding_stale"
  | .identityMismatch => "execution_identity_mismatch"
  | .subjectMismatch => "execution_subject_mismatch"
  | .repoIdentityMismatch => "repo_identity_mismatch"
  | .repoHeadMismatch => "repo_head_mismatch"
  | .taskSuperseded => "task_superseded"

def differs (value : Json) (expected : String) : Bool := value != .null && value != .str expected

/-- The last of the staleness conditions that holds names the reason. -/
def staleReason (project : ProjectRecord) (plan : ProjectPlan) (d : ExecutionDocument)
    (binding : ProjectExecutionBinding) (result : Fields) : Option StaleReason :=
  if (plan.task? binding.taskId).isNone then some .taskSuperseded
  else if differs (result.get "head_before") binding.expectedRepoHeadBefore then some .repoHeadMismatch
  else if differs (result.get "repo_alias") binding.repoAlias then some .repoIdentityMismatch
  else if differs (result.get "project_id") binding.projectId ||
      differs (result.get "task_id") binding.taskId ||
      differs (result.get "plan_version") binding.planVersion then some .subjectMismatch
  else if result.get "command_id" != .str binding.commandId ||
      result.get "correlation_id" != .str binding.correlationId then some .identityMismatch
  else if binding.projectId != project.projectId || binding.repoAlias != project.repoAlias ||
      binding.planVersion != plan.planVersion || binding.superseded || binding.status != .active ||
      d.currentBinding.any (· != binding.executionBindingId) then some .bindingStale
  else none

/-! ## Attempts -/

def successful : List String := ["PASS","SUCCEEDED","SUCCESS"]

def evidenceTexts (result : Fields) : Outcome (List String) := do
  let items ← (result.getOr "evidence_refs" (.arr [])).elements
  items.mapM (fun item => executionText item "evidence_ref" 512 true)

/-- The attempt document of a result; the caller decides status, summary default and
failure code. -/
def attemptDocument (amb : Ambient) (project : ProjectRecord) (bindingId : String)
    (binding : ProjectExecutionBinding) (result : Fields) (attemptId digest : String)
    (status : ResultStatus) (summary : String) (failureCode : Json) : Outcome AttemptDocument := do
  let executionStatus ← statusText amb.runtime
    (result.getOr "execution_status" (.str "UNKNOWN")) "execution_status"
  let validationStatus ← statusText amb.runtime
    (result.getOr "validation_status" (.str "UNKNOWN")) "validation_status"
  let promotionStatus ← statusText amb.runtime
    (result.getOr "promotion_status" (.str "NOT_RUN")) "promotion_status"
  let summaryText ← executionText (result.getOr "result_summary" (.str summary)) "result_summary" 4000
    false
  let evidence ← evidenceTexts result
  pure ⟨⟨some identityVersionV2,attemptId,project.projectId,binding.planVersion,binding.taskId,
    bindingId,binding.commandId,binding.createdAt,some amb.now,
    orText amb.runtime (result.get "head_before") binding.expectedRepoHeadBefore,
    result.get "head_after",executionStatus,validationStatus,promotionStatus,status,summaryText,evidence,
    failureCode,digest⟩,canonicalRefs result⟩

/-- The status a recorded outcome gives the task. -/
def taskStatusOf (overall : ResultStatus) (failureCode : Json) (validationOk : Bool) : TaskStatus :=
  match overall with
  | .pass => .completed
  | .reviewRequired => .review
  | .unknown => .review
  | _ => if failureCode.truthy || !validationOk then .blocked else .active

/-! ## The document after a result -/

def settled (now bindingId : String) (attempt : AttemptDocument) (acceptance : TaskAcceptanceResult)
    (taskId : String) (status : TaskStatus) (d : ExecutionDocument) : ExecutionDocument :=
  { d with
    attempts := d.attempts ++ [attempt],
    acceptanceResults := d.acceptanceResults ++ [acceptance],
    bindings := updateFirst (fun b => b.executionBindingId == bindingId)
      (fun b => { b with
        status := if attempt.attempt.resultStatus = .pass then .accepted else .failed,
        finishedAt := some now }) d.bindings,
    taskStatuses := d.taskStatuses.insert taskId status }

/-- The active run while it takes part in task selection. -/
def liveRun (d : ExecutionDocument) : Option MilestoneRun :=
  d.activeMilestoneRun.filter (fun r => r.status.live)

def runRecord (d : ExecutionDocument) (run : MilestoneRun) : MilestoneRun :=
  d.milestoneRuns.get run.milestoneRunId run

def withRun (run : MilestoneRun) (runId : String) (d : ExecutionDocument) : ExecutionDocument :=
  { d with milestoneRuns := d.milestoneRuns.insert runId run, activeMilestoneRun := some run }

/-- The run after a result: completed work moves it on, anything else stops it at the task. -/
def advancedRun (now taskId : String) (status : TaskStatus) (progress : MilestoneProgress)
    (run : MilestoneRun) : MilestoneRun :=
  let base := { run with
    updatedAt := now, completedTasks := some (progress.completedTasks.getD 0),
    totalTasks := some (progress.totalTasks.getD 0), blocker := some progress.blocker }
  match status with
  | .completed =>
    { base with
      currentTaskId := progress.nextTaskId, progressStatus := some progress.status,
      status := if progress.status = .milestoneCompleted then .completed else .running }
  | .review =>
    { base with currentTaskId := some taskId, progressStatus := some progress.status, status := .review }
  | .blocked =>
    { base with currentTaskId := some taskId, progressStatus := some progress.status, status := .blocked }
  | _ => { base with currentTaskId := some taskId, progressStatus := some .runnable, status := .running }

/-- The only runnable task of the plan, if there is exactly one. -/
def onlyAvailable (plan : ProjectPlan) (d : ExecutionDocument) : Option String :=
  match availableProjectTasks plan d none with
  | [t] => some t.taskId
  | _ => none

def advanced (now : String) (plan : ProjectPlan) (taskId : String) (status : TaskStatus)
    (d : ExecutionDocument) : ExecutionDocument :=
  match liveRun d with
  | some active =>
    let run := advancedRun now taskId status
      (milestoneAutoProgress plan d (some active.milestoneId)) (runRecord d active)
    { withRun run active.milestoneRunId d with
      currentTaskId := some run.currentTaskId, currentBindingId := some none }
  | none => { d with currentTaskId := some (onlyAvailable plan d), currentBindingId := some none }

section Frame
variable (now : String) (plan : ProjectPlan) (taskId : String) (status : TaskStatus) (d : ExecutionDocument)

@[simp] theorem advanced_bindings : (advanced now plan taskId status d).bindings = d.bindings := by
  unfold advanced
  split <;> rfl

@[simp] theorem advanced_attempts : (advanced now plan taskId status d).attempts = d.attempts := by
  unfold advanced
  split <;> rfl

@[simp] theorem advanced_acceptanceResults :
    (advanced now plan taskId status d).acceptanceResults = d.acceptanceResults := by
  unfold advanced
  split <;> rfl

@[simp] theorem advanced_taskStatuses :
    (advanced now plan taskId status d).taskStatuses = d.taskStatuses := by
  unfold advanced
  split <;> rfl

@[simp] theorem advanced_milestonesCompleted :
    (advanced now plan taskId status d).milestonesCompleted = d.milestonesCompleted := by
  unfold advanced
  split <;> rfl

end Frame

/-- A milestone with tasks, all of them completed or skipped. -/
def milestoneDone (plan : ProjectPlan) (d : ExecutionDocument) (milestoneId : String) : Bool :=
  let required := plan.milestoneTasks milestoneId
  !required.isEmpty && required.all (fun t => (effectiveStatus d t).done)

def newlyCompleted (plan : ProjectPlan) (d : ExecutionDocument) : List String :=
  ((plan.milestones.map (·.milestoneId)).filter (fun m =>
    milestoneDone plan d m && decide (m ∉ d.milestonesCompleted))).eraseDups

def withMilestones (plan : ProjectPlan) (d : ExecutionDocument) : ExecutionDocument :=
  { d with milestonesCompleted := sortedTexts (d.milestonesCompleted.eraseDups ++ newlyCompleted plan d) }

/-! ## Events of a result -/

structure EventText where
  eventType : String
  summary : String
  subject : EventSubject

def appendEvents (amb : Ambient) (projectId : String) :
    List EventText → ProjectMemoryState → Outcome ProjectMemoryState
  | [], s => pure s
  | e :: rest, s => do
    let t ← appendEvent amb projectId e.eventType e.summary e.subject s
    appendEvents amb projectId rest t

def taskEvent (rt : Runtime) (task : ProjectTask) (planVersion correlationId : String)
    (overall : ResultStatus) (failureCode : Json) (status : TaskStatus) : EventText :=
  let subject := EventSubject.ofTask task.taskId planVersion (some correlationId)
  match status with
  | .completed => ⟨"TASK_COMPLETED",
      "Zakończono zadanie " ++ task.taskId ++ "; acceptance " ++ overall.text,subject⟩
  | .review => ⟨"TASK_REVIEW","Zadanie " ++ task.taskId ++ " gotowe do przeglądu",subject⟩
  | .blocked => ⟨"TASK_BLOCKED","Zadanie " ++ task.taskId ++ " zablokowane: " ++
      orText rt failureCode "validation_failed",subject⟩
  | _ => ⟨"EXECUTION_COMPLETED","Próba zadania " ++ task.taskId ++ " zakończona: " ++ overall.text,subject⟩

/-- A finished automatic run is announced before its milestones. -/
def runEvents (plan : ProjectPlan) (correlationId : String) (d : ExecutionDocument) : List EventText :=
  match liveRun d with
  | none => []
  | some active =>
    if (milestoneAutoProgress plan d (some active.milestoneId)).status = .milestoneCompleted then
      [⟨"MILESTONE_AUTO_COMPLETED","AUTO ukończył milestone " ++ active.milestoneId,
        .ofMilestone active.milestoneId plan.planVersion (some correlationId)⟩]
    else []

def milestoneEvents (plan : ProjectPlan) (correlationId : String) (d : ExecutionDocument) :
    List EventText :=
  (newlyCompleted plan d).map (fun m =>
    ⟨"MILESTONE_COMPLETED","Zakończono milestone " ++ m,
      .ofMilestone m plan.planVersion (some correlationId)⟩)

/-! ## The transition -/

/-- What a caller of the transition learns: the attempt, and why it is stale if it is. -/
abbrev Recorded := ProjectExecutionAttempt × Option Json

def recordStale (amb : Ambient) (project : ProjectRecord) (bindingId : String)
    (binding : ProjectExecutionBinding) (result : Fields) (attemptId digest : String)
    (reason : StaleReason) (d : ExecutionDocument) (state : ProjectMemoryState) :
    Outcome (ProjectMemoryState × Recorded) := do
  let attempt ← attemptDocument amb project bindingId binding result attemptId digest .staleResult
    "stale execution result" (.str reason.text)
  let updated ← appendEvent amb project.projectId "EXECUTION_STALE_RESULT"
    ("Późny wynik zadania " ++ binding.taskId ++ " wymaga reconciliacji (" ++ reason.text ++ ")")
    (.ofTask binding.taskId binding.planVersion (some binding.correlationId))
    (state.withDocument { d with attempts := d.attempts ++ [attempt], staleResult := true })
  pure (updated,attempt.attempt,some (.str reason.text))

/-- The outcome of a fresh result: overall status and the status its task takes. -/
structure Verdict where
  acceptance : TaskAcceptanceResult
  overall : ResultStatus
  taskStatus : TaskStatus

def verdict (amb : Ambient) (project : ProjectRecord) (plan : ProjectPlan) (task : ProjectTask)
    (result : Fields) (attemptId : String) : Outcome Verdict := do
  let validation ← statusText amb.runtime (result.getOr "validation_status" (.str "UNKNOWN"))
    "validation_status"
  let validationOk := decide (validation ∈ successful)
  let items ← suppliedItems result
  let acceptance := evaluateAcceptance amb task project.projectId plan.planVersion attemptId validationOk
    items
  let execution ← statusText amb.runtime (result.getOr "execution_status" (.str "UNKNOWN"))
    "execution_status"
  let overall := if execution ∈ successful then acceptance.overall else .fail
  pure ⟨acceptance,overall,taskStatusOf overall (result.get "failure_code") validationOk⟩

def recordFresh (amb : Ambient) (project : ProjectRecord) (plan : ProjectPlan) (bindingId : String)
    (raw binding : ProjectExecutionBinding) (task : ProjectTask) (result : Fields)
    (attemptId digest : String) (d : ExecutionDocument) (state : ProjectMemoryState) :
    Outcome (ProjectMemoryState × Recorded) := do
  let v ← verdict amb project plan task result attemptId
  let attempt ← attemptDocument amb project bindingId binding result attemptId digest v.overall ""
    (result.get "failure_code")
  validateBindingTransition raw.status (if v.overall = .pass then .accepted else .failed)
  require (¬ (effectiveStatus d task = .completed ∧ v.taskStatus ≠ .completed))
    "task_completed_downgrade" "completed task cannot be downgraded by an execution result"
  let moved := settled amb.now bindingId attempt v.acceptance task.taskId v.taskStatus d
  let events := taskEvent amb.runtime task plan.planVersion binding.correlationId v.overall
      (result.get "failure_code") v.taskStatus ::
    runEvents plan binding.correlationId moved ++ milestoneEvents plan binding.correlationId moved
  let updated ← appendEvents amb project.projectId events
    (state.withDocument (withMilestones plan (advanced amb.now plan task.taskId v.taskStatus moved)))
  pure (updated,attempt.attempt,none)

def replayed (a : ProjectExecutionAttempt) : Recorded :=
  (a,if a.resultStatus = .staleResult then
      some (if a.failureCode.truthy then a.failureCode else .str StaleReason.bindingStale.text)
    else none)

def attemptIdOf (amb : Ambient) (result : Fields) : Outcome String :=
  let value := result.get "attempt_id"
  identifier (if value.truthy then value else .str ("attempt-" ++ amb.uuid)) "attempt_id"

/-- How a result stands to the document: a replay, stale, or the first of its binding. -/
inductive ResultKind where
  | replay (attempt : AttemptDocument)
  | stale (reason : StaleReason)
  | fresh (task : ProjectTask)
deriving DecidableEq

def classify (project : ProjectRecord) (plan : ProjectPlan) (d : ExecutionDocument)
    (bindingId : String) (binding : ProjectExecutionBinding) (result : Fields)
    (digestV2 digestV1 : String) : Option ResultKind :=
  match d.attempts.find? (isReplay bindingId digestV2 digestV1) with
  | some stored => some (.replay stored)
  | none =>
    match staleReason project plan d binding result, plan.task? binding.taskId with
    | some reason, _ => some (.stale reason)
    | none, some task => some (.fresh task)
    | none, none => none

/-- A result together with what the document holds about it. -/
structure Examined where
  document : ExecutionDocument
  raw : ProjectExecutionBinding
  binding : ProjectExecutionBinding
  digest : String
  kind : ResultKind
deriving DecidableEq

def examine (rt : Runtime) (project : ProjectRecord) (plan : ProjectPlan) (bindingId : String)
    (result : Fields) (state : ProjectMemoryState) : Outcome Examined := do
  let d ← executionDocument state
  let raw ← storedBinding d bindingId
  let binding ← bindingFromDict rt raw
  let digestV2 ← executionResultDigestV2 rt binding result
  let digestV1 ← executionResultDigestV1 rt binding result
  let kind ← need (classify project plan d bindingId binding result digestV2 digestV1) "task_not_found"
    "bound task does not exist"
  pure ⟨d,raw,binding,digestV2,kind⟩

def recordResultTransition (amb : Ambient) (project : ProjectRecord) (plan : ProjectPlan)
    (bindingId : String) (result : Fields) : Transition Recorded := fun state => do
  let x ← examine amb.runtime project plan bindingId result state
  match x.kind with
  | .replay stored => do
    let attempt ← attemptFromDict amb.runtime stored.attempt
    pure (state,replayed attempt)
  | .stale reason => do
    let attemptId ← attemptIdOf amb result
    recordStale amb project bindingId x.binding result attemptId x.digest reason x.document state
  | .fresh task => do
    let attemptId ← attemptIdOf amb result
    recordFresh amb project plan bindingId x.raw x.binding task result attemptId x.digest x.document state

/-- What an examination found. -/
structure Examines (rt : Runtime) (project : ProjectRecord) (plan : ProjectPlan) (bindingId : String)
    (result : Fields) (state : ProjectMemoryState) (x : Examined) (d₁ : String) : Prop where
  document : executionDocument state = .ok x.document
  raw : storedBinding x.document bindingId = .ok x.raw
  binding : bindingFromDict rt x.raw = .ok x.binding
  digestV2 : executionResultDigestV2 rt x.binding result = .ok x.digest
  digestV1 : executionResultDigestV1 rt x.binding result = .ok d₁
  kind : classify project plan x.document bindingId x.binding result x.digest d₁ = some x.kind

variable {project : ProjectRecord} {bindingId : String} {result : Fields}

theorem examine_ok {rt : Runtime} {plan : ProjectPlan} {state : ProjectMemoryState} {x : Examined}
    (h : examine rt project plan bindingId result state = .ok x) :
    ∃ digestV1, Examines rt project plan bindingId result state x digestV1 := by
  obtain ⟨d,hd,h⟩ := bind_ok.mp h
  obtain ⟨raw,hraw,h⟩ := bind_ok.mp h
  obtain ⟨binding,hb,h⟩ := bind_ok.mp h
  obtain ⟨digestV2,h2,h⟩ := bind_ok.mp h
  obtain ⟨digestV1,h1,h⟩ := bind_ok.mp h
  obtain ⟨kind,hk,h⟩ := of_need h
  obtain rfl := pure_ok.mp h
  exact ⟨digestV1,hd,hraw,hb,h2,h1,hk⟩

theorem classify_fresh {plan : ProjectPlan} {d : ExecutionDocument} {binding : ProjectExecutionBinding}
    {digestV2 digestV1 : String} {task : ProjectTask}
    (h : classify project plan d bindingId binding result digestV2 digestV1 = some (.fresh task)) :
    d.attempts.find? (isReplay bindingId digestV2 digestV1) = none ∧
      staleReason project plan d binding result = none ∧ plan.task? binding.taskId = some task := by
  unfold classify at h
  split at h
  · cases h
  · rename_i hnone
    split at h
    · cases h
    · rename_i hfresh htask
      cases h
      exact ⟨hnone,hfresh,htask⟩
    · cases h

end Bdb.Project
