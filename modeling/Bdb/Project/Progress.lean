import Bdb.Project.Memory

/-! # Task status, prerequisites and milestone progress

The read-only projection that decides which task comes next. Stored statuses take
precedence over the status a task has in the plan; task identifiers of a validated
plan are unique, so a task's own entry is the one that counts.
-/
namespace Bdb.Project

def effectiveStatus (d : ExecutionDocument) (t : ProjectTask) : TaskStatus :=
  d.taskStatuses.get t.taskId t.status

variable {d : ExecutionDocument} {t : ProjectTask} {plan : ProjectPlan} {milestoneId : String}

theorem effectiveStatus_of_lookup {status : TaskStatus}
    (h : d.taskStatuses.lookup t.taskId = some status) : effectiveStatus d t = status :=
  Dict.get_of_lookup h t.status

theorem effectiveStatus_insert {e : ExecutionDocument} {k : String} {v : TaskStatus}
    (h : e.taskStatuses = d.taskStatuses.insert k v) (t : ProjectTask) :
    effectiveStatus e t = if t.taskId = k then v else effectiveStatus d t := by
  unfold effectiveStatus Dict.get
  rw [h]
  split
  · rename_i hk
    rw [hk,AList.lookup_insert]
    rfl
  · rename_i hk
    rw [AList.lookup_insert_ne hk]

/-- A stored prerequisite status, or the default when absent or unsupported. -/
def boundedRuntimeStatus (raw : Dict String) (default : String) (allowed : List String)
    (identifier : String) : String :=
  let s := raw.get identifier default
  if s ∈ allowed then s else default

def gateStatusValues : List String := ["pending","passed"]
def openQuestionStatusValues : List String := ["open","resolved"]

def gateStatus (d : ExecutionDocument) (gateId : String) : String :=
  boundedRuntimeStatus d.gateStatuses "pending" gateStatusValues gateId

def openQuestionStatus (d : ExecutionDocument) (questionId : String) : String :=
  boundedRuntimeStatus d.openQuestionStatuses "open" openQuestionStatusValues questionId

/-- The unsatisfied record of one dependency, if it is unsatisfied. -/
def dependencyBlocker (plan : ProjectPlan) (d : ExecutionDocument) (dependency : String) :
    Option Blocker :=
  match classifyDependencyTarget plan dependency with
  | some .task =>
    let status := ((plan.task? dependency).map (effectiveStatus d)).getD .pending
    if status.done then none else some ⟨dependency,"task",status.text⟩
  | some .gate =>
    let status := gateStatus d dependency
    if status = "passed" then none else some ⟨dependency,"gate",status⟩
  | some .openQuestion =>
    let status := openQuestionStatus d dependency
    if status = "resolved" then none else some ⟨dependency,"open_question",status⟩
  | none => some ⟨dependency,"unknown","unknown"⟩

def taskPrerequisiteBlockers (plan : ProjectPlan) (d : ExecutionDocument) (task : ProjectTask) :
    List Blocker :=
  task.dependencies.filterMap (dependencyBlocker plan d)

def availableProjectTasks (plan : ProjectPlan) (d : ExecutionDocument) (milestoneId : Option String) :
    List ProjectTask :=
  plan.tasks.filter (fun t => milestoneId.all (· == t.milestoneId) && (effectiveStatus d t).startable &&
    (taskPrerequisiteBlockers plan d t).isEmpty)

structure MilestoneProgress where
  status : ProgressStatus
  milestoneId : Option String
  completedTasks : Option ℕ
  totalTasks : Option ℕ
  completedTaskIds : List String
  runnableTaskIds : List String
  nextTaskId : Option String
  blocker : Option Blocker
deriving DecidableEq

/-- The milestone a projection is about: the one asked for, else the active run's,
else the one of the current task. -/
def selectedMilestone (plan : ProjectPlan) (d : ExecutionDocument) (milestoneId : Option String) :
    Option String :=
  match milestoneId.filter (· ≠ "") <|> d.activeMilestoneRun.map (·.milestoneId) with
  | some m => some m
  | none =>
    match d.currentTask.bind plan.task? with
    | some t => some t.milestoneId
    | none => plan.currentMilestone.map (·.milestoneId)

def prerequisiteCode (b : Blocker) : ProgressStatus :=
  if b.kind = "gate" then .gateRequired
  else if b.kind = "open_question" then .openQuestionRequired
  else .prerequisiteRequired

/-- Where a milestone stands: its status, the next task and what is in the way. -/
structure Cursor where
  status : ProgressStatus
  nextTaskId : Option String
  blocker : Option Blocker

def milestoneCursor (plan : ProjectPlan) (d : ExecutionDocument) (milestoneId : String) : Cursor :=
  let incomplete := (plan.milestoneTasks milestoneId).filter (fun t => !(effectiveStatus d t).done)
  if incomplete.isEmpty then ⟨.milestoneCompleted,none,none⟩
  else match incomplete.find? (fun t => effectiveStatus d t == .review) with
  | some t => ⟨.reviewRequired,some t.taskId,some ⟨t.taskId,"review","review"⟩⟩
  | none =>
    match availableProjectTasks plan d (some milestoneId) with
    | t :: _ => ⟨.runnable,some t.taskId,none⟩
    | [] =>
      match incomplete.find? (fun t => effectiveStatus d t == .blocked) with
      | some t => ⟨.blocked,some t.taskId,some ⟨t.taskId,"task","blocked"⟩⟩
      | none =>
        let first := (incomplete.flatMap (taskPrerequisiteBlockers plan d)).head?.getD
          ⟨milestoneId,"prerequisite","blocked"⟩
        ⟨prerequisiteCode first,none,some first⟩

def milestoneAutoProgress (plan : ProjectPlan) (d : ExecutionDocument) (milestoneId : Option String) :
    MilestoneProgress :=
  let selected := selectedMilestone plan d milestoneId
  match selected.bind plan.milestone? with
  | none => ⟨.milestoneRequired,selected,none,none,[],[],none,none⟩
  | some milestone =>
    let tasks := plan.milestoneTasks milestone.milestoneId
    let completed := tasks.filter (fun t => (effectiveStatus d t).done)
    let runnable := availableProjectTasks plan d (some milestone.milestoneId)
    let cursor := milestoneCursor plan d milestone.milestoneId
    ⟨cursor.status,some milestone.milestoneId,some completed.length,some tasks.length,
      completed.map (·.taskId),runnable.map (·.taskId),cursor.nextTaskId,cursor.blocker⟩

def milestoneAutoProjection (plan : ProjectPlan) (d : ExecutionDocument) (run : Option MilestoneRun) :
    MilestoneProgress :=
  let progress := milestoneAutoProgress plan d (run.map (·.milestoneId))
  match run with
  | none => progress
  | some r =>
    match r.status with
    | .completed => { progress with status := .milestoneCompleted, nextTaskId := none }
    | .stopped => { progress with status := .stopped, nextTaskId := r.currentTaskId }
    | .blocked =>
      let current := r.currentTaskId.filter (· ≠ "") <|> progress.nextTaskId
      { progress with
        status := .blocked, nextTaskId := current, runnableTaskIds := [],
        blocker := progress.blocker <|> current.map (fun t => ⟨t,"task","blocked"⟩) }
    | .review =>
      let current := r.currentTaskId.filter (· ≠ "") <|> progress.nextTaskId
      { progress with
        status := .reviewRequired, nextTaskId := current, runnableTaskIds := [],
        blocker := progress.blocker <|> current.map (fun t => ⟨t,"review","review"⟩) }
    | .running => progress
    | .other _ =>
      { progress with
        status := .blocked, nextTaskId := r.currentTaskId.filter (· ≠ "") <|> progress.nextTaskId,
        runnableTaskIds := [] }

/-! ## The cursor stays in its milestone -/

theorem mem_milestoneTasks :
    t ∈ plan.milestoneTasks milestoneId ↔ t ∈ plan.tasks ∧ t.milestoneId = milestoneId := by
  simp [ProjectPlan.milestoneTasks]

theorem mem_availableProjectTasks (h : t ∈ availableProjectTasks plan d (some milestoneId)) :
    t ∈ plan.milestoneTasks milestoneId := by
  obtain ⟨hmem,hcond⟩ := List.mem_filter.mp h
  simp only [Option.all_some,Bool.and_eq_true,beq_iff_eq] at hcond
  exact mem_milestoneTasks.mpr ⟨hmem,hcond.1.1.symm⟩

theorem milestoneCursor_next {taskId : String}
    (h : (milestoneCursor plan d milestoneId).nextTaskId = some taskId) :
    ∃ t ∈ plan.milestoneTasks milestoneId, t.taskId = taskId := by
  simp only [milestoneCursor] at h
  split at h
  · cases h
  · split at h
    · rename_i t ht
      exact ⟨t,(List.mem_filter.mp (List.mem_of_find?_eq_some ht)).1,Option.some.inj h⟩
    · split at h
      · rename_i t rest hrun
        have ht : t ∈ availableProjectTasks plan d (some milestoneId) := by
          rw [hrun]
          exact List.mem_cons_self
        exact ⟨t,mem_availableProjectTasks ht,Option.some.inj h⟩
      · split at h
        · rename_i t ht
          exact ⟨t,(List.mem_filter.mp (List.mem_of_find?_eq_some ht)).1,Option.some.inj h⟩
        · cases h

theorem milestoneAutoProgress_next {milestoneId : Option String} {taskId : String}
    (h : (milestoneAutoProgress plan d milestoneId).nextTaskId = some taskId) :
    ∃ m, (milestoneAutoProgress plan d milestoneId).milestoneId = some m ∧
      ∃ t ∈ plan.milestoneTasks m, t.taskId = taskId := by
  simp only [milestoneAutoProgress] at h ⊢
  split at h
  · cases h
  · exact ⟨_,rfl,milestoneCursor_next h⟩

theorem milestoneAutoProgress_selected {milestoneId : Option String}
    (h : (milestoneAutoProgress plan d milestoneId).status = .runnable ∨
      (milestoneAutoProgress plan d milestoneId).status = .milestoneCompleted) :
    (milestoneAutoProgress plan d milestoneId).milestoneId =
      some ((milestoneAutoProgress plan d milestoneId).milestoneId.getD "None") := by
  simp only [milestoneAutoProgress] at h ⊢
  split at h
  · simp at h
  · rfl

end Bdb.Project
