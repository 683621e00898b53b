import Bdb.Continuation.Database
import Bdb.Scope.Plan
import Bdb.Scope.Transition

/-! # The orchestrator tick

A tick finds the milestone of the cursor in the plan, flattens plan, cursor and statuses
into a snapshot, lets the contract decide, and computes the cursor to store. The store
takes the new cursor only at the revision that was read.
-/
namespace Bdb.Scope

open Continuation (AutoScope ScopeCursor)

/-- What a tick reads besides the plan and the cursor. -/
structure TickInputs where
  taskStatuses : String → Option String
  milestoneGateStatuses : String → Option String
  manualApprovals : String → Bool
  policyApprovals : String → Bool
  stopRequested : Bool
  ciWaitingTasks : List String
  transientBackoffTasks : List String
  approvedPlanExhausted : Bool

structure NextActionExplanation where
  action : String
  reasonCode : String
  projectId : String
  runId : String
  scope : String
  currentTaskId : Option String
  selectedTaskId : Option String
  selectedMilestoneId : Option String
  dependencyEvidence : String → Option String
  gateEvidence : String → Option String
  stateRevision : ℕ
  cursorRevision : ℕ
  planIdentity : String
  planVersion : ℕ
  canonicalWorkState : CanonicalWorkState
  explanation : String

namespace TickInputs

variable (i : TickInputs)

def accepted (taskId : String) : Bool := i.taskStatuses taskId = some "ACCEPTED"

def gateAccepted (milestoneId : String) : Bool := i.milestoneGateStatuses milestoneId = some "ACCEPTED"

end TickInputs

/-! ## The next task of a milestone -/

structure Runnable where
  taskId : Option String
  dependenciesSatisfied : Bool
  pending : List String

def pendingDependencies (i : TickInputs) (t : PlanTaskNode) : List String :=
  t.dependencies.filter (fun dep => !i.accepted dep)

def candidate (plan : CanonicalPlanGraph) (i : TickInputs) (taskIds : List String) : Option PlanTaskNode :=
  taskIds.findSome? (fun taskId => if i.accepted taskId then none else plan.getTask taskId)

def resolveNextRunnableTask (plan : CanonicalPlanGraph) (milestoneId : String) (i : TickInputs) : Runnable :=
  match plan.getMilestone milestoneId with
  | none => ⟨none,false,[]⟩
  | some m =>
    match candidate plan i m.taskIds with
    | some t => ⟨some t.taskId,pendingDependencies i t = [],pendingDependencies i t⟩
    | none => ⟨none,true,[]⟩

/-! ## The snapshot -/

def haltBlocked (reasonCode explanation : String) : ScopeDecision where
  action := .haltBlocked
  canonicalWorkState := .blocked
  reasonCode := reasonCode
  explanation := explanation
  isTerminal := true

def currentMilestoneId (plan : CanonicalPlanGraph) (cursor : ScopeCursor) : Option String :=
  orElse cursor.currentMilestoneId (plan.milestones.head?.map (·.milestoneId))

/-- The plan must be valid, the milestone of the cursor must be in it, and the gates of all
milestones before that one must be accepted. The flag says that the refusal shows the gates. -/
def locate (plan : CanonicalPlanGraph) (cursor : ScopeCursor) (i : TickInputs) :
    Except (ScopeDecision × Bool) PlanMilestoneNode :=
  match plan.validateGraph with
  | some message => .error (haltBlocked "AMBIGUOUS_PLAN_GRAPH" ("Plan graph validation failed: " ++ message),false)
  | none =>
    let id := currentMilestoneId plan cursor
    match (given id).bind plan.getMilestone with
    | none => .error (haltBlocked "INVALID_MILESTONE_CURSOR"
        ("Cursor milestone " ++ printed id ++ " not found in plan."),false)
    | some m =>
      match (plan.milestonesBefore m.milestoneId).find? (fun n => !i.gateAccepted n.milestoneId) with
      | some previous => .error (haltBlocked "WRONG_MILESTONE_CURSOR" ("Cannot operate in milestone " ++
          m.milestoneId ++ " because previous milestone " ++ previous.milestoneId ++ " gate is not accepted."),true)
      | none => .ok m

def allTasksAccepted (i : TickInputs) (m : PlanMilestoneNode) : Bool :=
  !m.taskIds.isEmpty && m.taskIds.all i.accepted

def nextMilestoneId (plan : CanonicalPlanGraph) (m : PlanMilestoneNode) : Option String :=
  (plan.milestones[plan.indexOf m.milestoneId + 1]?).map (·.milestoneId)

/-- The milestone after this one; an empty identity counts as none. -/
def nextMilestone (plan : CanonicalPlanGraph) (m : PlanMilestoneNode) : Option PlanMilestoneNode :=
  (given (nextMilestoneId plan m)).bind plan.getMilestone

/-- The identity of an approval that is needed: none for an absent or empty task. -/
def activeTask (plan : CanonicalPlanGraph) (next : Runnable) : Option PlanTaskNode :=
  (given next.taskId).bind plan.getTask

def currentTaskStatus (cursor : ScopeCursor) (i : TickInputs) : Option String :=
  (given cursor.currentTaskId).bind i.taskStatuses

def snapshot (plan : CanonicalPlanGraph) (cursor : ScopeCursor) (i : TickInputs) (m : PlanMilestoneNode) :
    ScopeInputSnapshot :=
  let id := m.milestoneId
  let allAccepted := allTasksAccepted i m
  let gateStatus := (i.milestoneGateStatuses id).getD "NOT_REACHED"
  let next := resolveNextRunnableTask plan id i
  let active := activeTask plan next
  let manual := (active.map (·.requiresManualApproval)).getD false
  let policy := (active.map (·.requiresPolicyApproval)).getD false
  let status := currentTaskStatus cursor i
  { currentScope := cursor.scope
    currentTaskId := cursor.currentTaskId
    currentTaskStatus := status
    taskNeedsRetry := false
    taskNeedsRepair := false
    taskAttemptsExhausted := false
    acceptedTasksInCurrentScope := if status = some "ACCEPTED" then 1 else 0
    currentMilestoneId := some id
    allMilestoneTasksAccepted := allAccepted
    currentMilestoneGateStatus := some gateStatus
    nextTaskInMilestoneId := next.taskId
    nextTaskDependenciesSatisfied := next.dependenciesSatisfied
    nextMilestoneId := nextMilestoneId plan m
    firstTaskInNextMilestoneId :=
      (nextMilestone plan m).bind fun n => (resolveNextRunnableTask plan n.milestoneId i).taskId
    nextMilestoneDependenciesSatisfied :=
      ((nextMilestone plan m).map fun n => n.dependencies.all i.gateAccepted).getD true
    allProjectMilestonesCompleted :=
      plan.indexOf id + 1 = plan.milestones.length ∧ allAccepted = true ∧ gateStatus = "ACCEPTED"
    manualGateRequired := manual
    manualGateApproved := if manual then i.manualApprovals (next.taskId.getD "") else true
    policyGateRequired := policy
    policyGateApproved := if policy then i.policyApprovals (next.taskId.getD "") else true
    stopRequested := i.stopRequested || cursor.stopped
    ciWaiting := (given cursor.currentTaskId).any (· ∈ i.ciWaitingTasks)
    transientBackoff := (given cursor.currentTaskId).any (· ∈ i.transientBackoffTasks)
    approvedPlanExhausted := i.approvedPlanExhausted }

/-! ## The tick -/

def explain (projectId : String) (plan : CanonicalPlanGraph) (cursor : ScopeCursor) (d : ScopeDecision)
    (dependencyEvidence gateEvidence : String → Option String) : NextActionExplanation where
  action := d.action.value
  reasonCode := d.reasonCode
  projectId := projectId
  runId := cursor.runId
  scope := cursor.scope.value
  currentTaskId := cursor.currentTaskId
  selectedTaskId := d.selectedTaskId
  selectedMilestoneId := d.selectedMilestoneId
  dependencyEvidence := dependencyEvidence
  gateEvidence := gateEvidence
  stateRevision := cursor.stateRevision
  cursorRevision := cursor.stateRevision
  planIdentity := plan.planIdentity
  planVersion := plan.planVersion
  canonicalWorkState := d.canonicalWorkState
  explanation := d.explanation

def advanceCursor (plan : CanonicalPlanGraph) (cursor : ScopeCursor) (i : TickInputs) (m : PlanMilestoneNode)
    (d : ScopeDecision) : ScopeCursor :=
  { cursor with
    currentMilestoneId := orElse d.selectedMilestoneId (some m.milestoneId)
    currentTaskId := if d.action = .launchTask then d.selectedTaskId else cursor.currentTaskId
    lastAcceptedTaskId :=
      if currentTaskStatus cursor i = some "ACCEPTED" then cursor.currentTaskId else cursor.lastAcceptedTaskId
    lastAcceptedGate :=
      if i.gateAccepted m.milestoneId then some m.gateId else cursor.lastAcceptedGate
    planIdentity := plan.planIdentity
    planVersion := plan.planVersion
    disposition := d.action.value }

def tick (projectId : String) (plan : CanonicalPlanGraph) (cursor : ScopeCursor) (i : TickInputs) :
    ScopeDecision × NextActionExplanation × ScopeCursor :=
  match locate plan cursor i with
  | .error (d,showsGates) =>
    let gates := if showsGates then i.milestoneGateStatuses else fun _ => none
    (d,explain projectId plan cursor d (fun _ => none) gates,cursor)
  | .ok m =>
    let id := m.milestoneId
    let d := evaluateScopeTransition (snapshot plan cursor i m)
    let pending := (resolveNextRunnableTask plan id i).pending
    let dependencies := fun dep => if dep ∈ pending then some ((i.taskStatuses dep).getD "UNKNOWN") else none
    let gates := fun milestoneId => if milestoneId = id then some ((i.milestoneGateStatuses id).getD "NOT_REACHED") else none
    (d,explain projectId plan cursor d dependencies gates,advanceCursor plan cursor i m d)

def getOrCreateCursor (stored : Option ScopeCursor) (projectId runId : String) (scope : AutoScope)
    (planIdentity : String) (planVersion : ℕ) (scopeSelectionExplicit : Bool) : ScopeCursor :=
  stored.getD
    { cursorId := "cur-" ++ projectId
      runId := runId
      scope := scope
      scopeEpoch := 1
      currentMilestoneId := none
      currentTaskId := none
      lastAcceptedTaskId := none
      lastAcceptedGate := none
      planIdentity := planIdentity
      planVersion := planVersion
      stateRevision := 1
      disposition := "INITIALIZED"
      status := "ACTIVE"
      stopRequestedAt := none
      stopReason := none
      scopeSelectionExplicit := scopeSelectionExplicit }

def updateCursorCas (stored cursor : ScopeCursor) (expectedRevision : ℕ) : Option ScopeCursor :=
  if stored.stateRevision = expectedRevision then
    some { cursor with cursorId := stored.cursorId, stateRevision := expectedRevision + 1 }
  else none

/-! ## What a tick reads -/

variable {plan : CanonicalPlanGraph} {cursor : ScopeCursor} {i : TickInputs} {m n : PlanMilestoneNode}
  {t : PlanTaskNode} {projectId : String}

theorem given_eq_some {o : Option String} {text : String} : given o = some text ↔ o = some text ∧ text ≠ "" := by
  cases o with
  | none => simp [given]
  | some s =>
    by_cases hs : s = ""
    · simp only [given,Option.filter,hs]
      constructor
      · intro h
        cases h
      · rintro ⟨h,hne⟩
        exact absurd (Option.some.inj h).symm hne
    · simp only [given,Option.filter,ne_eq,hs,not_false_eq_true,decide_true,if_true]
      constructor
      · intro h
        exact ⟨h,Option.some.inj h ▸ hs⟩
      · exact fun h => h.1

theorem candidate_some {taskIds : List String} (h : candidate plan i taskIds = some t) :
    t.taskId ∈ taskIds ∧ i.accepted t.taskId = false ∧ plan.getTask t.taskId = some t := by
  obtain ⟨taskId,hmem,htask⟩ := List.exists_of_findSome?_eq_some h
  split at htask
  · cases htask
  · rename_i hopen
    obtain rfl := CanonicalPlanGraph.getTask_id htask
    exact ⟨hmem,by simpa using hopen,htask⟩

theorem candidate_none {taskIds : List String} (h : taskIds.all i.accepted = true) :
    candidate plan i taskIds = none := by
  refine List.findSome?_eq_none_iff.mpr ?_
  intro taskId hmem
  rw [if_pos (List.all_eq_true.mp h taskId hmem)]

theorem resolve_taskId (h : plan.getMilestone m.milestoneId = some m) :
    (resolveNextRunnableTask plan m.milestoneId i).taskId = (candidate plan i m.taskIds).map (·.taskId) := by
  unfold resolveNextRunnableTask
  rw [h]
  cases hc : candidate plan i m.taskIds <;> simp [hc]

/-- A located milestone is the first of its identity, and all gates before it are accepted. -/
structure Located (plan : CanonicalPlanGraph) (cursor : ScopeCursor) (i : TickInputs) (m : PlanMilestoneNode) :
    Prop where
  valid : plan.validateGraph = none
  current : given (currentMilestoneId plan cursor) = some m.milestoneId
  known : plan.getMilestone m.milestoneId = some m
  before : ∀ n ∈ plan.milestonesBefore m.milestoneId, i.gateAccepted n.milestoneId = true

theorem locate_ok : locate plan cursor i = .ok m ↔ Located plan cursor i m := by
  constructor
  · intro h
    unfold locate at h
    split at h
    · cases h
    · rename_i hvalid
      dsimp only at h
      split at h
      · cases h
      · rename_i m' hm
        obtain ⟨id,hid,hfound⟩ := Option.bind_eq_some_iff.mp hm
        obtain rfl := CanonicalPlanGraph.getMilestone_id hfound
        split at h
        · cases h
        · rename_i hbefore
          cases h
          refine ⟨hvalid,hid,hfound,?_⟩
          intro n hn
          simpa using List.find?_eq_none.mp hbefore n hn
  · intro h
    unfold locate
    rw [h.valid]
    simp only [h.current,Option.bind_some,h.known]
    rw [List.find?_eq_none.mpr]
    intro n hn
    simp [h.before n hn]

theorem tick_of_located (h : Located plan cursor i m) : (tick projectId plan cursor i).1 =
    evaluateScopeTransition (snapshot plan cursor i m) := by
  unfold tick
  rw [locate_ok.mpr h]

theorem located_of_launch (h : (tick projectId plan cursor i).1.action = .launchTask) :
    ∃ m, Located plan cursor i m := by
  cases hlocate : locate plan cursor i with
  | ok m => exact ⟨m,locate_ok.mp hlocate⟩
  | error e =>
    -- every refusal blocks
    obtain ⟨d,gates⟩ := e
    unfold tick at h
    rw [hlocate] at h
    unfold locate at hlocate
    split at hlocate
    · cases hlocate
      cases h
    · dsimp only at hlocate
      split at hlocate
      · cases hlocate
        cases h
      · split at hlocate
        · cases hlocate
          cases h
        · cases hlocate

end Bdb.Scope
