import Bdb.Project.Results

/-! # Milestone runs, reviews and reconciliation

An automatic run walks through one milestone. Starting and stopping it, approving or
rejecting a review and reconciling the task cursor are explicit operations.
-/
namespace Bdb.Project

def MilestoneProgress.toDict (p : MilestoneProgress) : Fields :=
  [("schema",.str "bdb-milestone-progress-v1"),("status",.str p.status.text),
    ("milestone_id",nullableText p.milestoneId)] ++
  match p.completedTasks, p.totalTasks with
  | some completed, some total =>
    [("completed_tasks",.int completed),("total_tasks",.int total),
      ("completed_task_ids",strings p.completedTaskIds),
      ("runnable_task_ids",strings p.runnableTaskIds),("next_task_id",nullableText p.nextTaskId),
      ("blocker",(p.blocker.map Blocker.toJson).getD .null)]
  | _, _ => [("runnable_task_ids",strings p.runnableTaskIds)]

/-! ## Starting and stopping a run -/

/-- The run identifier: the requested one, the active run's for the same milestone, or
a fresh one. -/
def runIdFor (amb : Ambient) (d : ExecutionDocument) (selected : String) (requested : Option String) :
    Outcome String :=
  let inherited := (d.activeMilestoneRun.filter (fun r => r.milestoneId == selected)).map
    (·.milestoneRunId)
  let name := (requested.filter (· ≠ "") <|> inherited.filter (· ≠ "")).getD ("milestone-run-" ++ amb.uuid)
  identifier (.str name) "milestone_run_id"

def startedRun (now projectId runId selected : String) (plan : ProjectPlan)
    (progress : MilestoneProgress) (existing : Option MilestoneRun) : MilestoneRun :=
  { milestoneRunId := runId, projectId := projectId, planVersion := plan.planVersion,
    milestoneId := selected,
    status := if progress.status = .milestoneCompleted then .completed else .running,
    startedAt := (existing.map (·.startedAt)).getD now, updatedAt := now,
    currentTaskId := progress.nextTaskId, stopReason := existing.bind (·.stopReason),
    completedTasks := existing.bind (·.completedTasks), totalTasks := existing.bind (·.totalTasks),
    progressStatus := existing.bind (·.progressStatus), blocker := existing.bind (·.blocker) }

def started (run : MilestoneRun) (existing : Option MilestoneRun) (d : ExecutionDocument) :
    ExecutionDocument :=
  { withRun run run.milestoneRunId d with
    currentTaskId := some run.currentTaskId,
    currentBindingId := if existing.isNone then some none else d.currentBindingId }

def beginMilestoneAutoTransition (amb : Ambient) (projectId : String) (plan : ProjectPlan)
    (progress : MilestoneProgress) (selected runId : String) : Transition Unit := fun state => do
  let d ← executionDocument state
  require (¬ ∃ r ∈ liveRun d, r.milestoneId ≠ selected) "milestone_run_active"
    "another milestone AUTO run is already active"
  let existing := d.milestoneRuns.lookup runId
  require (∀ r ∈ existing, r.milestoneId = selected ∧ r.projectId = projectId) "milestone_run_conflict"
    "milestone run identity is already bound to another milestone"
  let run := startedRun amb.now projectId runId selected plan progress existing
  let updated := state.withDocument (started run existing d)
  match existing with
  | some _ => pure (updated,())
  | none => do
    let logged ← appendEvent amb projectId "MILESTONE_AUTO_STARTED"
      ("Uruchomiono AUTO dla milestone " ++ selected) (.ofMilestone selected plan.planVersion none) updated
    pure (logged,())

def stopMilestoneAutoTransition (amb : Ambient) (projectId : String) (plan : ProjectPlan)
    (runId reason : String) : Transition Unit := fun state => do
  let d ← executionDocument state
  let run ← need (d.milestoneRuns.lookup runId) "milestone_run_not_found" "milestone run does not exist"
  let stopReason ← executionText (.str reason) "stop_reason" 256 true
  let stopped := { run with status := .stopped, stopReason := some stopReason, updatedAt := amb.now }
  let halted := { d with
    milestoneRuns := d.milestoneRuns.insert runId stopped,
    activeMilestoneRun := d.activeMilestoneRun.map (fun r =>
      if r.milestoneRunId = runId then stopped else r) }
  let updated ← appendEvent amb projectId "MILESTONE_AUTO_STOPPED"
    ("Zatrzymano AUTO milestone " ++ stopped.milestoneId ++ ": " ++ reason)
    (.ofMilestone stopped.milestoneId plan.planVersion none) (state.withDocument halted)
  pure (updated,())

structure MilestoneAutoSnapshot where
  runId : Option String
  progress : MilestoneProgress
  taskStatuses : Dict TaskStatus

def milestoneAutoSnapshot (site : Site) (projectId : String) (runId : Option String)
    (memory : Option ProjectMemoryState) : Outcome MilestoneAutoSnapshot := do
  let (_,plan) ← site.authority projectId
  let state ← readState projectId memory
  let d ← executionDocument state
  let selected := runId.filter (· ≠ "") <|> d.activeMilestoneRun.map (·.milestoneRunId)
  let run := match selected.filter (· ≠ "") with
    | some id => d.milestoneRuns.lookup id
    | none => d.activeMilestoneRun
  pure ⟨selected,milestoneAutoProjection plan d run,d.taskStatuses⟩

/-! ## Reviews -/

def requireReview (d : ExecutionDocument) (taskId : String) : Outcome Unit :=
  require (d.taskStatuses.lookup taskId = some .review) "task_review_required"
    "task is not awaiting manual review"

/-- The run after an approval. -/
def approvedRun (now : String) (progress : MilestoneProgress) (run : MilestoneRun) : MilestoneRun :=
  { run with
    currentTaskId := progress.nextTaskId, completedTasks := some (progress.completedTasks.getD 0),
    totalTasks := some (progress.totalTasks.getD 0),
    status := if progress.status = .milestoneCompleted then .completed else .running,
    progressStatus := some progress.status, updatedAt := now }

def approved (now : String) (plan : ProjectPlan) (taskId : String) (d : ExecutionDocument) :
    ExecutionDocument :=
  let candidate := { d with taskStatuses := d.taskStatuses.insert taskId .completed }
  match liveRun candidate with
  | some active =>
    let progress := milestoneAutoProgress plan candidate (some active.milestoneId)
    { withRun (approvedRun now progress (runRecord candidate active)) active.milestoneRunId candidate with
      currentTaskId := some progress.nextTaskId }
  | none => { candidate with currentTaskId := some (onlyAvailable plan candidate) }

def approveReviewTransition (amb : Ambient) (projectId : String) (plan : ProjectPlan)
    (taskId reason : String) : Transition Unit := fun state => do
  let d ← executionDocument state
  requireReview d taskId
  let acceptance ← need (d.acceptanceResults.reverse.find? (fun a => a.taskId == taskId))
    "task_review_invalid" "task has no reviewable acceptance result"
  require (acceptance.overall = .reviewRequired) "task_review_invalid"
    "task has no reviewable acceptance result"
  require (acceptance.criteria.any CriterionResult.deterministicFailure = false)
    "deterministic_acceptance_failed" "manual approval cannot override deterministic failure"
  let text ← executionText (.str reason) "review_reason" 2000 true
  let updated ← appendEvent amb projectId "TASK_REVIEW_ACCEPTED"
    ("Zatwierdzono ręczny przegląd zadania " ++ taskId ++ ": " ++ text)
    (.ofTask taskId plan.planVersion none) (state.withDocument (approved amb.now plan taskId d))
  pure (updated,())

def changesRequested (now taskId : String) (d : ExecutionDocument) : ExecutionDocument :=
  let reopened := { d with
    taskStatuses := d.taskStatuses.insert taskId .active,
    currentTaskId := some (some taskId), currentBindingId := some none }
  match reopened.activeMilestoneRun with
  | some active =>
    withRun { runRecord reopened active with
      status := .running, currentTaskId := some taskId, updatedAt := now } active.milestoneRunId reopened
  | none => reopened

def requestChangesTransition (amb : Ambient) (projectId : String) (plan : ProjectPlan)
    (taskId reason : String) : Transition Unit := fun state => do
  let d ← executionDocument state
  requireReview d taskId
  let text ← executionText (.str reason) "review_reason" 2000 true
  let updated ← appendEvent amb projectId "TASK_REVIEW_CHANGES_REQUESTED"
    ("Wymagane poprawki dla " ++ taskId ++ ": " ++ text) (.ofTask taskId plan.planVersion none)
    (state.withDocument (changesRequested amb.now taskId d))
  pure (updated,())

section Frame
variable (now : String) (plan : ProjectPlan) (taskId : String) (d : ExecutionDocument)

@[simp] theorem approved_bindings : (approved now plan taskId d).bindings = d.bindings := by
  simp only [approved]
  split <;> rfl

@[simp] theorem approved_attempts : (approved now plan taskId d).attempts = d.attempts := by
  simp only [approved]
  split <;> rfl

@[simp] theorem approved_acceptanceResults :
    (approved now plan taskId d).acceptanceResults = d.acceptanceResults := by
  simp only [approved]
  split <;> rfl

@[simp] theorem approved_taskStatuses :
    (approved now plan taskId d).taskStatuses = d.taskStatuses.insert taskId .completed := by
  simp only [approved]
  split <;> rfl

@[simp] theorem approved_milestonesCompleted :
    (approved now plan taskId d).milestonesCompleted = d.milestonesCompleted := by
  simp only [approved]
  split <;> rfl

@[simp] theorem changesRequested_bindings : (changesRequested now taskId d).bindings = d.bindings := by
  simp only [changesRequested]
  split <;> rfl

@[simp] theorem changesRequested_attempts : (changesRequested now taskId d).attempts = d.attempts := by
  simp only [changesRequested]
  split <;> rfl

@[simp] theorem changesRequested_acceptanceResults :
    (changesRequested now taskId d).acceptanceResults = d.acceptanceResults := by
  simp only [changesRequested]
  split <;> rfl

@[simp] theorem changesRequested_taskStatuses :
    (changesRequested now taskId d).taskStatuses = d.taskStatuses.insert taskId .active := by
  simp only [changesRequested]
  split <;> rfl

@[simp] theorem changesRequested_milestonesCompleted :
    (changesRequested now taskId d).milestonesCompleted = d.milestonesCompleted := by
  simp only [changesRequested]
  split <;> rfl

end Frame

/-! ## Reconciliation -/

def completedCount (plan : ProjectPlan) (d : ExecutionDocument) : ℕ :=
  (plan.tasks.filter (fun t => (effectiveStatus d t).done)).length

/-- The task the cursor should point at. -/
def reconciledTask (plan : ProjectPlan) (d : ExecutionDocument) : Option String :=
  match d.currentTaskId with
  | none => if completedCount plan d < plan.tasks.length then plan.currentTaskId else none
  | some current =>
    match d.activeMilestoneRun with
    | some run =>
      match run.status with
      | .running => (milestoneAutoProgress plan d (some run.milestoneId)).nextTaskId
      | .review => run.currentTaskId.filter (· ≠ "") <|> current
      | .blocked => run.currentTaskId.filter (· ≠ "") <|> current
      | .completed => current
      | .stopped => current
      | .other _ => current <|> onlyAvailable plan d
    | none => current <|> onlyAvailable plan d

def setPointerTransition (current : Option String) : Transition Unit := fun state => do
  let d ← executionDocument state
  pure (state.withDocument { d with currentTaskId := some current },())

def reconciledRecord (project : ProjectRecord) (plan : ProjectPlan) (d : ExecutionDocument)
    (current : Option String) : ProjectRecord :=
  let completed := completedCount plan d
  let status :=
    if completed = plan.tasks.length ∧ plan.tasks ≠ [] then "completed"
    else if plan.tasks.any (fun t => effectiveStatus d t == .blocked) then "blocked"
    else "active"
  { project with
    projectStatus := status, planImported := true, planVersion := some plan.planVersion,
    totalTasks := plan.tasks.length, completedTasks := completed,
    currentMilestone := (current.bind plan.task?).map (·.milestoneId), currentTask := current }

end Bdb.Project
