import Bdb.Continuation.Packet

/-! # The scope contract

The decision taken from one flattened snapshot: stop, wait, pause, halt, or launch a task.
Only four branches launch, and the inversion lemma at the end says when each is taken.
-/
namespace Bdb.Scope

open Continuation (AutoScope)

inductive CanonicalWorkState where
  | completed
  | waiting
  | paused
  | blocked
  | noRunnableWork
  | waitingForPlan
  | runnable
deriving DecidableEq

inductive ScopeAction where
  | launchTask
  | continueTaskRetry
  | continueTaskRepair
  | stopScopeComplete
  | stopProjectComplete
  | stopExternalStopRequested
  | pauseManualGateRequired
  | pausePolicyApprovalRequired
  | waitDependencyPending
  | waitMilestoneGatePending
  | waitCiWaiting
  | waitTransientBackoff
  | haltNoRunnableWork
  | haltWaitingForPlan
  | haltBlocked
deriving DecidableEq

def ScopeAction.value : ScopeAction → String
  | .launchTask => "LAUNCH_TASK"
  | .continueTaskRetry => "CONTINUE_TASK_RETRY"
  | .continueTaskRepair => "CONTINUE_TASK_REPAIR"
  | .stopScopeComplete => "STOP_SCOPE_COMPLETE"
  | .stopProjectComplete => "STOP_PROJECT_COMPLETE"
  | .stopExternalStopRequested => "STOP_EXTERNAL_STOP_REQUESTED"
  | .pauseManualGateRequired => "PAUSE_MANUAL_GATE_REQUIRED"
  | .pausePolicyApprovalRequired => "PAUSE_POLICY_APPROVAL_REQUIRED"
  | .waitDependencyPending => "WAIT_DEPENDENCY_PENDING"
  | .waitMilestoneGatePending => "WAIT_MILESTONE_GATE_PENDING"
  | .waitCiWaiting => "WAIT_CI_WAITING"
  | .waitTransientBackoff => "WAIT_TRANSIENT_BACKOFF"
  | .haltNoRunnableWork => "HALT_NO_RUNNABLE_WORK"
  | .haltWaitingForPlan => "HALT_WAITING_FOR_PLAN"
  | .haltBlocked => "HALT_BLOCKED"

structure ScopeInputSnapshot where
  currentScope : AutoScope
  currentTaskId : Option String
  currentTaskStatus : Option String
  taskNeedsRetry : Bool
  taskNeedsRepair : Bool
  taskAttemptsExhausted : Bool
  acceptedTasksInCurrentScope : ℕ
  currentMilestoneId : Option String
  allMilestoneTasksAccepted : Bool
  currentMilestoneGateStatus : Option String
  nextTaskInMilestoneId : Option String
  nextTaskDependenciesSatisfied : Bool
  nextMilestoneId : Option String
  firstTaskInNextMilestoneId : Option String
  nextMilestoneDependenciesSatisfied : Bool
  allProjectMilestonesCompleted : Bool
  manualGateRequired : Bool
  manualGateApproved : Bool
  policyGateRequired : Bool
  policyGateApproved : Bool
  stopRequested : Bool
  ciWaiting : Bool
  transientBackoff : Bool
  approvedPlanExhausted : Bool
deriving DecidableEq

structure ScopeDecision where
  action : ScopeAction
  canonicalWorkState : CanonicalWorkState
  selectedTaskId : Option String := none
  selectedMilestoneId : Option String := none
  reasonCode : String := ""
  explanation : String := ""
  crossesTaskBoundary : Bool := false
  crossesMilestoneBoundary : Bool := false
  isTerminal : Bool := false
deriving DecidableEq

/-- An absent value and an empty text are both false in a condition. -/
def given (o : Option String) : Option String := o.filter (fun s => s ≠ "")

def orElse (o alternative : Option String) : Option String := if (given o).isSome then o else alternative

/-- How an absent value is printed. -/
def printed (o : Option String) : String := o.getD "None"

/-! ## The branches -/

def haltNoRunnableWork (explanation : String) : ScopeDecision where
  action := .haltNoRunnableWork
  canonicalWorkState := .noRunnableWork
  reasonCode := "NO_RUNNABLE_WORK"
  explanation := explanation
  isTerminal := true

def launchNext (s : ScopeInputSnapshot) (taskId pending pendingText start startText : String) (crosses : Bool) :
    ScopeDecision :=
  if s.nextTaskDependenciesSatisfied = false then
    { action := .waitDependencyPending
      canonicalWorkState := .waiting
      selectedTaskId := some taskId
      reasonCode := pending
      explanation := pendingText }
  else
    { action := .launchTask
      canonicalWorkState := .runnable
      selectedTaskId := some taskId
      selectedMilestoneId := s.currentMilestoneId
      reasonCode := start
      explanation := startText
      crossesTaskBoundary := crosses }

def evaluateTask (s : ScopeInputSnapshot) : ScopeDecision :=
  if s.currentTaskStatus = some "ACCEPTED" ∨ 1 ≤ s.acceptedTasksInCurrentScope then
    { action := .stopScopeComplete
      canonicalWorkState := .completed
      reasonCode := "TASK_SCOPE_COMPLETED"
      explanation := "TASK scope stops after exactly 1 accepted task. Will not launch next task."
      isTerminal := true }
  else
    match given s.nextTaskInMilestoneId with
    | some taskId => launchNext s taskId "TASK_DEPENDENCY_PENDING"
        ("Task " ++ taskId ++ " dependencies are not yet satisfied.") "TASK_SCOPE_START"
        ("Starting task " ++ taskId ++ " under TASK scope.") false
    | none => haltNoRunnableWork "No runnable task found in TASK scope."

def evaluateMilestone (s : ScopeInputSnapshot) : ScopeDecision :=
  match given s.nextTaskInMilestoneId with
  | some taskId => launchNext s taskId "MILESTONE_TASK_DEPENDENCY_PENDING"
      ("Task " ++ taskId ++ " dependencies not yet satisfied.") "MILESTONE_NEXT_TASK"
      ("Advancing to next task " ++ taskId ++ " within milestone.") true
  | none =>
    if s.allMilestoneTasksAccepted then
      if s.currentMilestoneGateStatus ≠ some "ACCEPTED" then
        { action := .waitMilestoneGatePending
          canonicalWorkState := .waiting
          selectedMilestoneId := s.currentMilestoneId
          reasonCode := "MILESTONE_GATE_PENDING"
          explanation := "All tasks accepted; milestone gate for " ++ printed s.currentMilestoneId ++ " is pending." }
      else
        { action := .stopScopeComplete
          canonicalWorkState := .completed
          selectedMilestoneId := s.currentMilestoneId
          reasonCode := "MILESTONE_SCOPE_COMPLETED"
          explanation := "Milestone " ++ printed s.currentMilestoneId ++
            " gate accepted. MILESTONE scope complete; will not cross to next milestone."
          isTerminal := true }
    else haltNoRunnableWork "No runnable task found within current milestone."

def crossMilestone (s : ScopeInputSnapshot) (nextMilestoneId : String) : ScopeDecision :=
  if s.nextMilestoneDependenciesSatisfied = false then
    { action := .waitDependencyPending
      canonicalWorkState := .waiting
      selectedMilestoneId := some nextMilestoneId
      reasonCode := "NEXT_MILESTONE_DEPENDENCY_PENDING"
      explanation := "Next milestone " ++ nextMilestoneId ++ " dependencies are pending." }
  else
    { action := .launchTask
      canonicalWorkState := .runnable
      selectedTaskId := orElse s.firstTaskInNextMilestoneId s.nextTaskInMilestoneId
      selectedMilestoneId := some nextMilestoneId
      reasonCode := "ADVANCE_TO_NEXT_MILESTONE"
      explanation := "Previous milestone gate passed. Advancing to next milestone " ++ nextMilestoneId ++ "."
      crossesTaskBoundary := true
      crossesMilestoneBoundary := true }

def evaluateProject (s : ScopeInputSnapshot) : ScopeDecision :=
  match given s.nextTaskInMilestoneId with
  | some taskId => launchNext s taskId "TASK_DEPENDENCY_PENDING"
      ("Task " ++ taskId ++ " dependencies not yet satisfied.") "PROJECT_NEXT_TASK"
      ("Launching task " ++ taskId ++ ".") true
  | none =>
    if s.allMilestoneTasksAccepted then
      if s.currentMilestoneGateStatus ≠ some "ACCEPTED" then
        { action := .waitMilestoneGatePending
          canonicalWorkState := .waiting
          selectedMilestoneId := s.currentMilestoneId
          reasonCode := "MILESTONE_GATE_REQUIRED_BEFORE_ADVANCING"
          explanation := "Milestone " ++ printed s.currentMilestoneId ++
            " gate must be accepted before advancing to next milestone." }
      else
        match given s.nextMilestoneId with
        | some nextMilestoneId => crossMilestone s nextMilestoneId
        | none =>
          { action := .stopProjectComplete
            canonicalWorkState := .completed
            reasonCode := "PROJECT_COMPLETED"
            explanation := "All milestones and gates completed."
            isTerminal := true }
    else haltNoRunnableWork "No runnable work available in project."

def evaluateInProgress (s : ScopeInputSnapshot) : ScopeDecision :=
  if s.taskAttemptsExhausted then
    { action := .haltBlocked
      canonicalWorkState := .blocked
      selectedTaskId := s.currentTaskId
      reasonCode := "BUDGET_EXHAUSTED"
      explanation := "Task " ++ printed s.currentTaskId ++ " exhausted its failure/repair budget."
      isTerminal := true }
  else if s.taskNeedsRepair then
    { action := .continueTaskRepair
      canonicalWorkState := .runnable
      selectedTaskId := s.currentTaskId
      reasonCode := "TASK_REPAIR_LOOP"
      explanation := "Continuing repair loop attempt for task " ++ printed s.currentTaskId ++ "." }
  else if s.taskNeedsRetry then
    { action := .continueTaskRetry
      canonicalWorkState := .runnable
      selectedTaskId := s.currentTaskId
      reasonCode := "TASK_TRANSIENT_RETRY"
      explanation := "Continuing transient retry attempt for task " ++ printed s.currentTaskId ++ "." }
  else
    { action := .launchTask
      canonicalWorkState := .runnable
      selectedTaskId := s.currentTaskId
      selectedMilestoneId := s.currentMilestoneId
      reasonCode := "TASK_IN_PROGRESS"
      explanation := "Current task " ++ printed s.currentTaskId ++ " is in progress." }

/-- The code's own notion of a task that is under way. -/
def underWay (status : Option String) : Bool := status = some "IN_PROGRESS" ∨ status = some "FAILED"

/-- Crossing scopes go from milestone to milestone. -/
def crossing (scope : AutoScope) : Bool := scope = .project ∨ scope = .untilStopped

def evaluateBoundary (s : ScopeInputSnapshot) : ScopeDecision :=
  match s.currentScope with
  | .task => evaluateTask s
  | .milestone => evaluateMilestone s
  | .project => evaluateProject s
  | .untilStopped => evaluateProject s

def evaluateScopeTransition (s : ScopeInputSnapshot) : ScopeDecision :=
  if s.stopRequested then
    { action := .stopExternalStopRequested
      canonicalWorkState := .paused
      reasonCode := "STOP_REQUESTED"
      explanation := "Execution halted because external STOP was explicitly requested."
      isTerminal := true }
  else if s.approvedPlanExhausted then
    { action := .haltWaitingForPlan
      canonicalWorkState := .waitingForPlan
      reasonCode := "WAITING_FOR_PLAN"
      explanation := "Approved project plan exhausted; waiting for plan extension. Never fabricating tasks."
      isTerminal := true }
  else if s.allProjectMilestonesCompleted ∧ crossing s.currentScope then
    { action := .stopProjectComplete
      canonicalWorkState := .completed
      reasonCode := "PROJECT_COMPLETED"
      explanation := "All milestones and milestone gates in project are accepted. Project is complete."
      isTerminal := true }
  else if s.manualGateRequired ∧ s.manualGateApproved = false then
    { action := .pauseManualGateRequired
      canonicalWorkState := .paused
      reasonCode := "MANUAL_APPROVAL_REQUIRED"
      explanation := "A manual operator checkpoint is required before proceeding." }
  else if s.policyGateRequired ∧ s.policyGateApproved = false then
    { action := .pausePolicyApprovalRequired
      canonicalWorkState := .paused
      reasonCode := "POLICY_APPROVAL_REQUIRED"
      explanation := "A policy gate approval is required before proceeding." }
  else if s.ciWaiting then
    { action := .waitCiWaiting
      canonicalWorkState := .waiting
      selectedTaskId := s.currentTaskId
      reasonCode := "CI_WAITING_DURABLE"
      explanation := "Task is durably waiting for CI pipeline completion." }
  else if s.transientBackoff then
    { action := .waitTransientBackoff
      canonicalWorkState := .waiting
      selectedTaskId := s.currentTaskId
      reasonCode := "TRANSIENT_BACKOFF"
      explanation := "Transient recovery is in exponential backoff before next attempt." }
  else if underWay s.currentTaskStatus then evaluateInProgress s
  else evaluateBoundary s

/-! ## What a decision comes from -/

variable {s : ScopeInputSnapshot}

/-- Nothing holds the scope back before its boundary is looked at. -/
structure Clear (s : ScopeInputSnapshot) : Prop where
  stop : s.stopRequested = false
  plan : s.approvedPlanExhausted = false
  unfinished : ¬ (s.allProjectMilestonesCompleted = true ∧ crossing s.currentScope = true)
  manual : ¬ (s.manualGateRequired = true ∧ s.manualGateApproved = false)
  policy : ¬ (s.policyGateRequired = true ∧ s.policyGateApproved = false)
  ci : s.ciWaiting = false
  backoff : s.transientBackoff = false

/-- The current milestone is done and its gate is accepted, and there is a next one. -/
structure AtCrossing (s : ScopeInputSnapshot) (nextMilestoneId : String) : Prop where
  idle : underWay s.currentTaskStatus = false
  scope : crossing s.currentScope = true
  noTask : given s.nextTaskInMilestoneId = none
  tasks : s.allMilestoneTasksAccepted = true
  gate : s.currentMilestoneGateStatus = some "ACCEPTED"
  next : given s.nextMilestoneId = some nextMilestoneId

/-- The three ways to launch: the task under way, the next task of the milestone, and the
first task of the next milestone. -/
inductive Launched (s : ScopeInputSnapshot) (d : ScopeDecision) : Prop
  | inProgress (h : underWay s.currentTaskStatus = true) (htask : d.selectedTaskId = s.currentTaskId)
      (hmilestone : d.selectedMilestoneId = s.currentMilestoneId)
  | next {taskId : String} (hidle : underWay s.currentTaskStatus = false)
      (hscope : s.currentScope = .task → s.currentTaskStatus ≠ some "ACCEPTED")
      (hnext : given s.nextTaskInMilestoneId = some taskId) (hdeps : s.nextTaskDependenciesSatisfied = true)
      (htask : d.selectedTaskId = some taskId) (hmilestone : d.selectedMilestoneId = s.currentMilestoneId)
  | crossed {m : String} (h : AtCrossing s m) (hdeps : s.nextMilestoneDependenciesSatisfied = true)
      (htask : d.selectedTaskId = orElse s.firstTaskInNextMilestoneId s.nextTaskInMilestoneId)
      (hmilestone : d.selectedMilestoneId = some m)

/-- What becomes of a snapshot: it launches, it moves to the next milestone without a task,
or it stays in its milestone. -/
inductive Decided (s : ScopeInputSnapshot) (d : ScopeDecision) : Prop
  | launched (haction : d.action = .launchTask) (hclear : Clear s) (h : Launched s d) (hlive : d.isTerminal = false)
  | moved {m : String} (haction : d.action ≠ .launchTask) (h : AtCrossing s m) (hclear : Clear s)
      (hmilestone : d.selectedMilestoneId = some m) (hlive : d.isTerminal = false)
  | stayed (haction : d.action ≠ .launchTask)
      (hmilestone : d.selectedMilestoneId = none ∨ d.selectedMilestoneId = s.currentMilestoneId)

theorem decided_inProgress (hclear : Clear s) (h : underWay s.currentTaskStatus = true) :
    Decided s (evaluateInProgress s) := by
  unfold evaluateInProgress
  split
  · exact .stayed nofun (.inl rfl)
  · split
    · exact .stayed nofun (.inl rfl)
    · split
      · exact .stayed nofun (.inl rfl)
      · exact .launched rfl hclear (.inProgress h rfl rfl) rfl

section

variable (hclear : Clear s) (hidle : underWay s.currentTaskStatus = false)

include hclear hidle

theorem decided_launchNext {taskId pending pendingText start startText : String} {crosses : Bool}
    (hscope : s.currentScope = .task → s.currentTaskStatus ≠ some "ACCEPTED")
    (hnext : given s.nextTaskInMilestoneId = some taskId) :
    Decided s (launchNext s taskId pending pendingText start startText crosses) := by
  unfold launchNext
  split
  · exact .stayed nofun (.inl rfl)
  · rename_i hdeps
    exact .launched rfl hclear (.next hidle hscope hnext (by simpa using hdeps) rfl rfl) rfl

theorem decided_task :
    Decided s (evaluateTask s) := by
  unfold evaluateTask
  split
  · exact .stayed nofun (.inl rfl)
  · rename_i hopen
    split
    · rename_i taskId hnext
      exact decided_launchNext hclear hidle (fun _ haccepted => hopen (.inl haccepted)) hnext
    · exact .stayed nofun (.inl rfl)

theorem decided_milestone (hscope : s.currentScope = .milestone) : Decided s (evaluateMilestone s) := by
  unfold evaluateMilestone
  split
  · rename_i taskId hnext
    exact decided_launchNext hclear hidle (by rw [hscope]; nofun) hnext
  · split
    · split
      all_goals exact .stayed nofun (.inr rfl)
    · exact .stayed nofun (.inl rfl)

theorem decided_project (hscope : crossing s.currentScope = true) : Decided s (evaluateProject s) := by
  unfold evaluateProject
  split
  · rename_i taskId hnext
    refine decided_launchNext hclear hidle ?_ hnext
    intro htask
    rw [htask] at hscope
    cases hscope
  · rename_i hnone
    split
    · rename_i htasks
      split
      · exact .stayed nofun (.inr rfl)
      · rename_i hgate
        split
        · rename_i m hm
          have hat : AtCrossing s m := ⟨hidle,hscope,hnone,htasks,not_not.mp hgate,hm⟩
          unfold crossMilestone
          split
          · exact .moved nofun hat hclear rfl rfl
          · rename_i hdeps
            exact .launched rfl hclear (.crossed hat (by simpa using hdeps) rfl rfl) rfl
        · exact .stayed nofun (.inl rfl)
    · exact .stayed nofun (.inl rfl)

theorem decided_boundary :
    Decided s (evaluateBoundary s) := by
  unfold evaluateBoundary
  cases hscope : s.currentScope with
  | task => exact decided_task hclear hidle
  | milestone => exact decided_milestone hclear hidle hscope
  | project | untilStopped => exact decided_project hclear hidle (by rw [hscope]; rfl)

end

theorem evaluate_of_clear (h : Clear s) : evaluateScopeTransition s =
    if underWay s.currentTaskStatus then evaluateInProgress s else evaluateBoundary s := by
  unfold evaluateScopeTransition
  rw [if_neg (by simp [h.stop]),if_neg (by simp [h.plan]),if_neg h.unfinished,if_neg h.manual,if_neg h.policy,
    if_neg (by simp [h.ci]),if_neg (by simp [h.backoff])]

theorem evaluate_decided (s : ScopeInputSnapshot) : Decided s (evaluateScopeTransition s) := by
  by_cases hclear : Clear s
  · rw [evaluate_of_clear hclear]
    split
    · rename_i h
      exact decided_inProgress hclear h
    · rename_i h
      exact decided_boundary hclear (by simpa using h)
  · -- one of the guards before the boundary answers
    unfold evaluateScopeTransition
    split_ifs with hstop hplan hdone hmanual hpolicy hci hbackoff
    all_goals first
      | exact .stayed nofun (.inl rfl)
      | exact absurd ⟨by simpa using hstop,by simpa using hplan,hdone,hmanual,hpolicy,by simpa using hci,
          by simpa using hbackoff⟩ hclear

theorem evaluateBoundary_crossing (h : crossing s.currentScope = true) : evaluateBoundary s = evaluateProject s := by
  unfold evaluateBoundary
  cases hs : s.currentScope with
  | task | milestone => rw [hs] at h; cases h
  | project | untilStopped => rfl

theorem evaluate_crossing {m : String} (hclear : Clear s) (h : AtCrossing s m)
    (hdeps : s.nextMilestoneDependenciesSatisfied = true) :
    (evaluateScopeTransition s).action = .launchTask ∧
      (evaluateScopeTransition s).selectedTaskId = orElse s.firstTaskInNextMilestoneId s.nextTaskInMilestoneId ∧
      (evaluateScopeTransition s).selectedMilestoneId = some m := by
  have hproject : evaluateScopeTransition s = crossMilestone s m := by
    rw [evaluate_of_clear hclear,if_neg (by simp [h.idle]),evaluateBoundary_crossing h.scope]
    unfold evaluateProject
    rw [h.noTask]
    simp only [h.tasks,h.gate,h.next,if_true,ne_eq,not_true_eq_false,if_false]
  rw [hproject]
  unfold crossMilestone
  rw [if_neg (by simp [hdeps])]
  exact ⟨rfl,rfl,rfl⟩

end Bdb.Scope
