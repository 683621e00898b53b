import Bdb.Base.Transaction
import Bdb.Scope.LaunchSoundness

/-! # Crossing a milestone in PROJECT scope

The coordinator checks the STOP fence, the gate evidence, the repository head and the
approvals, and then writes the cursor of the next milestone. It does not look at whether
that write took place, whether evidence without a run belongs to this run, whether the
tasks it leaves are accepted, or whether the dependencies of the next task are.
-/
namespace Bdb.Scope

open Continuation (AutoScope ScopeCursor Database EffectBoundary)
open Step

/-- What the evidence of a gate says. -/
structure GateEvidence where
  status : Option String
  runId : Option String
deriving DecidableEq

structure TransitionCall where
  plan : CanonicalPlanGraph
  runId : String
  currentCursor : ScopeCursor
  milestoneGateEvidence : String → Option GateEvidence
  taskStatuses : String → Option String
  currentRepoHead : String
  expectedBoundaryHead : String
  manualApprovals : String → Bool
  policyApprovals : String → Bool

structure CrossMilestoneTransitionResult where
  success : Bool
  fromMilestoneId : String
  toMilestoneId : Option String
  nextTaskId : Option String
  decision : ScopeDecision
  boundHeadVerified : Bool
  priorGateAccepted : Bool
  reasonCode : String
  explanation : String
deriving DecidableEq

def crossingResult (success : Bool) (fromId : String) (toId taskId : Option String) (head gate : Bool)
    (d : ScopeDecision) : CrossMilestoneTransitionResult :=
  ⟨success,fromId,toId,taskId,d,head,gate,d.reasonCode,d.explanation⟩

namespace TransitionCall

variable (call : TransitionCall)

def inputs : TickInputs where
  taskStatuses := call.taskStatuses
  milestoneGateStatuses milestoneId := (call.milestoneGateEvidence milestoneId).bind (·.status)
  manualApprovals := call.manualApprovals
  policyApprovals := call.policyApprovals
  stopRequested := false
  ciWaitingTasks := []
  transientBackoffTasks := []
  approvedPlanExhausted := false

def leaving : Outcome PlanMilestoneNode := do
  let first := call.plan.milestones.head?.map (·.milestoneId)
  let id ← need ((given call.currentCursor.currentMilestoneId).or first) "IndexError" "tuple index out of range"
  need (call.plan.getMilestone id) "AssertionError" ""

def evidence (m : PlanMilestoneNode) : GateEvidence :=
  (call.milestoneGateEvidence m.milestoneId).getD ⟨none,none⟩

def gateStatus (m : PlanMilestoneNode) : String := (call.evidence m).status.getD "NOT_REACHED"

/-! ## Refusals -/

def fenced (m : PlanMilestoneNode) (message : String) : CrossMilestoneTransitionResult :=
  crossingResult false m.milestoneId none none false false
    { action := .stopExternalStopRequested
      canonicalWorkState := .paused
      reasonCode := "STOP_FENCED"
      explanation := "Cross-milestone transition blocked by STOP fence: " ++ message
      isTerminal := true }

def wrongRun (m : PlanMilestoneNode) : CrossMilestoneTransitionResult :=
  crossingResult false m.milestoneId none none false false
    (haltBlocked "WRONG_RUN_GATE_EVIDENCE" ("Gate evidence belongs to run '" ++ printed (call.evidence m).runId ++
      "', but current run is '" ++ call.runId ++ "'."))

def gatePending (m : PlanMilestoneNode) : CrossMilestoneTransitionResult :=
  let explanation := "Cannot cross to next milestone: gate for milestone " ++ m.milestoneId ++ " is " ++
    call.gateStatus m ++ "."
  crossingResult false m.milestoneId none none false false <|
    if call.gateStatus m = "FAILED" then haltBlocked "PRIOR_GATE_FAILED" explanation
    else
      { action := .waitMilestoneGatePending
        canonicalWorkState := .waiting
        reasonCode := "PRIOR_GATE_NOT_ACCEPTED"
        explanation := explanation }

def staleHead (m : PlanMilestoneNode) : CrossMilestoneTransitionResult :=
  crossingResult false m.milestoneId none none false true
    (haltBlocked "STALE_HEAD_DIVERGENCE" ("Stale HEAD at milestone boundary: current=" ++ call.currentRepoHead ++
      ", expected=" ++ call.expectedBoundaryHead ++ "."))

def projectComplete (m : PlanMilestoneNode) : CrossMilestoneTransitionResult :=
  crossingResult true m.milestoneId none none true true
    { action := .stopProjectComplete
      canonicalWorkState := .completed
      reasonCode := "PROJECT_COMPLETED"
      explanation := "All milestones and milestone gates in project are accepted. Project is complete."
      isTerminal := true }

def noTask (m n : PlanMilestoneNode) : CrossMilestoneTransitionResult :=
  crossingResult false m.milestoneId (some n.milestoneId) none true true
    (haltNoRunnableWork ("No runnable tasks in milestone " ++ n.milestoneId ++ "."))

def unapproved (m n : PlanMilestoneNode) (taskId : String) (action : ScopeAction) (reasonCode requires : String) :
    CrossMilestoneTransitionResult :=
  crossingResult false m.milestoneId (some n.milestoneId) (some taskId) true true
    { action := action
      canonicalWorkState := .paused
      selectedTaskId := some taskId
      selectedMilestoneId := some n.milestoneId
      reasonCode := reasonCode
      explanation := "Task " ++ taskId ++ " in milestone " ++ n.milestoneId ++ " requires " ++ requires ++ "." }

/-! ## The transition -/

def crossed (m n : PlanMilestoneNode) (taskId : String) : CrossMilestoneTransitionResult :=
  crossingResult true m.milestoneId (some n.milestoneId) (some taskId) true true
    { action := .launchTask
      canonicalWorkState := .runnable
      selectedTaskId := some taskId
      selectedMilestoneId := some n.milestoneId
      reasonCode := "CROSS_MILESTONE_LAUNCH"
      explanation := "Successfully crossed milestone boundary from " ++ m.milestoneId ++ " to " ++ n.milestoneId ++
        "; ready to launch " ++ taskId ++ "."
      crossesTaskBoundary := true
      crossesMilestoneBoundary := true }

def crossedCursor (m n : PlanMilestoneNode) (taskId : String) : ScopeCursor :=
  { call.currentCursor with
    runId := call.runId
    scope := .project
    currentMilestoneId := some n.milestoneId
    currentTaskId := some taskId
    lastAcceptedGate := some m.gateId
    disposition := ScopeAction.launchTask.value }

def checkApprovals (m n : PlanMilestoneNode) (taskId : String) : Step CrossMilestoneTransitionResult Unit := do
  let node := call.plan.getTask taskId
  answerUnless (∀ t ∈ node, t.requiresManualApproval = true → call.manualApprovals taskId = true)
    (unapproved m n taskId .pauseManualGateRequired "MANUAL_APPROVAL_REQUIRED" "manual operator approval")
  answerUnless (∀ t ∈ node, t.requiresPolicyApproval = true → call.policyApprovals taskId = true)
    (unapproved m n taskId .pausePolicyApprovalRequired "POLICY_APPROVAL_REQUIRED" "policy approval")

def select (db : Database) :
    Step CrossMilestoneTransitionResult (PlanMilestoneNode × PlanMilestoneNode × String) := do
  let m ← orRaise call.leaving
  orAnswer (fun _ message => fenced m message)
    (db.checkBoundary call.currentCursor.scopeEpoch .orchestratorTickLaunch)
  answerUnless (∀ runId ∈ (call.evidence m).runId, runId = call.runId) (call.wrongRun m)
  answerUnless (call.gateStatus m = "ACCEPTED") (call.gatePending m)
  answerUnless (call.currentRepoHead = call.expectedBoundaryHead) (call.staleHead m)
  let n ← needOr (call.plan.milestones[call.plan.indexOf m.milestoneId + 1]?) (projectComplete m)
  let taskId ← needOr (given (resolveNextRunnableTask call.plan n.milestoneId call.inputs).taskId) (noTask m n)
  call.checkApprovals m n taskId
  pure (m,n,taskId)

end TransitionCall

def casCursor (db : Database) (cursor : ScopeCursor) (expectedRevision : ℕ) : Database :=
  match db.cursor.bind (fun stored => updateCursorCas stored cursor expectedRevision) with
  | some written => { db with cursor := some written }
  | none => db

/-- The answer of the compare-and-swap is not looked at. -/
def executeCrossMilestoneTransition (db : Database) (call : TransitionCall) :
    Database × Outcome CrossMilestoneTransitionResult :=
  match call.select db with
  | .ok (m,n,taskId) =>
    (casCursor db (call.crossedCursor m n taskId) call.currentCursor.stateRevision,
      .ok (TransitionCall.crossed m n taskId))
  | .error (.answer r) => (db,.ok r)
  | .error (.raised f) => (db,.error f)

/-! ## Honest reports -/

variable {db db' : Database} {call : TransitionCall} {m n : PlanMilestoneNode} {t : PlanTaskNode} {taskId : String}
  {r : CrossMilestoneTransitionResult}

/-- What a reported success with a next task should mean. -/
structure HonestSuccess (call : TransitionCall) (r : CrossMilestoneTransitionResult) (db db' : Database) : Prop where
  advanced : ∃ stored written, db.cursor = some stored ∧ db'.cursor = some written ∧
    stored.stateRevision = call.currentCursor.stateRevision ∧ written.stateRevision = stored.stateRevision + 1 ∧
    written.currentMilestoneId = r.toMilestoneId ∧ written.currentTaskId = r.nextTaskId
  evidence : ∃ e, call.milestoneGateEvidence r.fromMilestoneId = some e ∧ e.status = some "ACCEPTED" ∧
    e.runId = some call.runId
  left : ∃ m, call.plan.getMilestone r.fromMilestoneId = some m ∧ m.taskIds.all call.inputs.accepted = true
  task : ∃ n t, r.toMilestoneId = some n.milestoneId ∧ call.plan.getMilestone n.milestoneId = some n ∧
    r.nextTaskId = some t.taskId ∧ call.plan.getTask t.taskId = some t ∧ t.taskId ∈ n.taskIds ∧
    call.inputs.accepted t.taskId = false ∧ ∀ dep ∈ t.dependencies, call.inputs.accepted dep = true

def ReportsTask (o : Outcome CrossMilestoneTransitionResult) (r : CrossMilestoneTransitionResult) : Prop :=
  o = .ok r ∧ r.success = true ∧ r.nextTaskId.isSome = true

/-- A success with a next task means what it says, and any other report leaves the cursor. -/
def Honest (db : Database) (call : TransitionCall) : Prop :=
  (∀ r, ReportsTask (executeCrossMilestoneTransition db call).2 r →
    HonestSuccess call r db (executeCrossMilestoneTransition db call).1) ∧
  ((∀ r, ¬ ReportsTask (executeCrossMilestoneTransition db call).2 r) →
    (executeCrossMilestoneTransition db call).1.cursor = db.cursor)

/-- The call passes every check that the coordinator makes. -/
structure Passes (db : Database) (call : TransitionCall) (m n : PlanMilestoneNode) (t : PlanTaskNode) : Prop where
  leaving : call.leaving = .ok m
  guard : db.checkBoundary call.currentCursor.scopeEpoch .orchestratorTickLaunch = .ok ()
  run : ∀ runId ∈ (call.evidence m).runId, runId = call.runId
  gate : call.gateStatus m = "ACCEPTED"
  head : call.currentRepoHead = call.expectedBoundaryHead
  next : call.plan.milestones[call.plan.indexOf m.milestoneId + 1]? = some n
  task : ∃ n', call.plan.getMilestone n.milestoneId = some n' ∧ candidate call.plan call.inputs n'.taskIds = some t
  named : t.taskId ≠ ""
  approved : Approved call.inputs t

/-- What the coordinator does not check. -/
structure Warranted (db : Database) (call : TransitionCall) (m : PlanMilestoneNode) (t : PlanTaskNode) : Prop where
  revision : ∀ stored ∈ db.cursor, stored.stateRevision = call.currentCursor.stateRevision
  run : (call.evidence m).runId = some call.runId
  tasks : m.taskIds.all call.inputs.accepted = true
  dependencies : ∀ dep ∈ t.dependencies, call.inputs.accepted dep = true

/-! ## The checks -/

theorem leaving_known (h : call.leaving = .ok m) : call.plan.getMilestone m.milestoneId = some m := by
  unfold TransitionCall.leaving at h
  obtain ⟨_,h⟩ := rest_ok h
  have hfound := need_ok.mp h
  rwa [CanonicalPlanGraph.getMilestone_id hfound]

theorem resolve_some : given (resolveNextRunnableTask call.plan n.milestoneId call.inputs).taskId = some taskId ↔
    ∃ n' t, call.plan.getMilestone n.milestoneId = some n' ∧ candidate call.plan call.inputs n'.taskIds = some t ∧
      t.taskId = taskId ∧ taskId ≠ "" := by
  rw [given_eq_some]
  unfold resolveNextRunnableTask
  constructor
  · rintro ⟨htask,hne⟩
    split at htask
    · cases htask
    · rename_i n' hn'
      split at htask
      · rename_i t ht
        exact ⟨n',t,hn',ht,Option.some.inj htask,hne⟩
      · cases htask
  · rintro ⟨n',t,hn',ht,rfl,hne⟩
    simp only [hn',ht]
    exact ⟨trivial,hne⟩

theorem checkApprovals_ok (htask : call.plan.getTask t.taskId = some t) :
    call.checkApprovals m n t.taskId = .ok () ↔ Approved call.inputs t := by
  unfold TransitionCall.checkApprovals
  rw [htask,bind_ok]
  constructor
  · rintro ⟨_,hmanual,hpolicy⟩
    exact ⟨answerUnless_ok.mp hmanual t rfl,answerUnless_ok.mp hpolicy t rfl⟩
  · intro h
    refine ⟨(),answerUnless_ok.mpr ?_,answerUnless_ok.mpr ?_⟩
    · rintro _ ⟨⟩
      exact h.manual
    · rintro _ ⟨⟩
      exact h.policy

theorem select_ok : call.select db = .ok (m,n,taskId) ↔ ∃ t, t.taskId = taskId ∧ Passes db call m n t := by
  unfold TransitionCall.select
  constructor
  · intro h
    obtain ⟨m',hleaving,h⟩ := bind_ok.mp h
    obtain ⟨_,hguard,h⟩ := bind_ok.mp h
    obtain ⟨_,hrun,h⟩ := bind_ok.mp h
    obtain ⟨_,hgate,h⟩ := bind_ok.mp h
    obtain ⟨_,hhead,h⟩ := bind_ok.mp h
    obtain ⟨n',hnext,h⟩ := bind_ok.mp h
    obtain ⟨id,hid,h⟩ := bind_ok.mp h
    obtain ⟨_,happrovals,h⟩ := bind_ok.mp h
    cases pure_ok.mp h
    obtain ⟨n'',t,hn'',ht,rfl,hne⟩ := resolve_some.mp (needOr_ok.mp hid)
    refine ⟨t,rfl,orRaise_ok.mp hleaving,orAnswer_ok.mp hguard,answerUnless_ok.mp hrun,answerUnless_ok.mp hgate,
      answerUnless_ok.mp hhead,needOr_ok.mp hnext,⟨n'',hn'',ht⟩,hne,?_⟩
    exact (checkApprovals_ok (candidate_some ht).2.2).mp happrovals
  · rintro ⟨t,rfl,h⟩
    obtain ⟨n',hn',ht⟩ := h.task
    refine bind_of (orRaise_ok.mpr h.leaving) ?_
    refine bind_of (orAnswer_ok.mpr h.guard) ?_
    refine answerUnless_bind h.run ?_
    refine answerUnless_bind h.gate ?_
    refine answerUnless_bind h.head ?_
    refine bind_of (needOr_ok.mpr h.next) ?_
    refine bind_of (needOr_ok.mpr (resolve_some.mpr ⟨n',t,hn',ht,rfl,h.named⟩)) ?_
    exact bind_ok.mpr ⟨(),(checkApprovals_ok (candidate_some ht).2.2).mpr h.approved,rfl⟩

theorem select_answers : Answers (fun r => r.success = true → r.nextTaskId = none) (call.select db) := by
  unfold TransitionCall.select TransitionCall.checkApprovals
  refine answers_bind (answers_orRaise _) fun m _ => ?_
  refine answers_bind (answers_orAnswer fun _ _ => nofun) fun _ _ => ?_
  refine answers_check nofun ?_
  refine answers_check nofun ?_
  refine answers_check nofun ?_
  refine answers_bind (answers_needOr fun _ => rfl) fun n _ => ?_
  refine answers_bind (answers_needOr fun _ => rfl) fun taskId _ => ?_
  refine answers_bind (answers_bind (answers_answerUnless fun _ => nofun) fun _ _ =>
    answers_answerUnless fun _ => nofun) fun _ _ => ?_
  exact answers_pure _

theorem cursor_of_guard {epoch : ℕ} {boundary : EffectBoundary} (h : db.checkBoundary epoch boundary = .ok ()) :
    ∃ stored, db.cursor = some stored := by
  unfold Database.checkBoundary at h
  cases hcursor : db.cursor with
  | none =>
    rw [hcursor] at h
    cases h
  | some stored => exact ⟨stored,rfl⟩

theorem casCursor_cursor {stored cursor : ScopeCursor} {revision : ℕ} (hstored : db.cursor = some stored) :
    (casCursor db cursor revision).cursor =
      if stored.stateRevision = revision then
        some { cursor with cursorId := stored.cursorId, stateRevision := revision + 1 }
      else some stored := by
  unfold casCursor updateCursorCas
  simp only [hstored,Option.bind_some]
  split_ifs with hrevision
  · rfl
  · exact hstored

theorem accepted_of_gateStatus (h : call.gateStatus m = "ACCEPTED") :
    ∃ e, call.milestoneGateEvidence m.milestoneId = some e ∧ e.status = some "ACCEPTED" ∧ call.evidence m = e := by
  unfold TransitionCall.gateStatus TransitionCall.evidence at h
  unfold TransitionCall.evidence
  cases he : call.milestoneGateEvidence m.milestoneId with
  | none =>
    rw [he] at h
    simp at h
  | some e =>
    refine ⟨e,rfl,?_,rfl⟩
    rw [he] at h
    cases hstatus : e.status with
    | none =>
      simp [hstatus] at h
    | some status =>
      simp [hstatus] at h
      rw [h]

theorem execute_of_passes (h : Passes db call m n t) : executeCrossMilestoneTransition db call =
    (casCursor db (call.crossedCursor m n t.taskId) call.currentCursor.stateRevision,
      .ok (TransitionCall.crossed m n t.taskId)) := by
  unfold executeCrossMilestoneTransition
  rw [select_ok.mpr ⟨t,rfl,h⟩]

theorem passes_of_reports (h : ReportsTask (executeCrossMilestoneTransition db call).2 r) :
    ∃ m n t, Passes db call m n t := by
  obtain ⟨hr,hsuccess,htask⟩ := h
  unfold executeCrossMilestoneTransition at hr
  split at hr
  · rename_i m n taskId hselect
    obtain ⟨t,-,hpasses⟩ := select_ok.mp hselect
    exact ⟨m,n,t,hpasses⟩
  · rename_i r' hselect
    cases hr
    rw [of_answers hselect select_answers hsuccess] at htask
    cases htask
  · cases hr

theorem unchanged_of_silent (h : ∀ r, ¬ ReportsTask (executeCrossMilestoneTransition db call).2 r) :
    (executeCrossMilestoneTransition db call).1 = db := by
  unfold executeCrossMilestoneTransition at h ⊢
  split
  · rename_i m n taskId hselect
    rw [hselect] at h
    exact absurd ⟨rfl,rfl,rfl⟩ (h (TransitionCall.crossed m n taskId))
  · rfl
  · rfl

theorem honest_of_warranted (h : Passes db call m n t) (hw : Warranted db call m t) :
    HonestSuccess call (TransitionCall.crossed m n t.taskId) db
      (casCursor db (call.crossedCursor m n t.taskId) call.currentCursor.stateRevision) := by
  obtain ⟨stored,hstored⟩ := cursor_of_guard h.guard
  have hrevision := hw.revision stored hstored
  obtain ⟨n',hn',ht⟩ := h.task
  obtain ⟨hmember,hopen,htask⟩ := candidate_some ht
  have hid := CanonicalPlanGraph.getMilestone_id hn'
  constructor
  · refine ⟨stored,_,hstored,(casCursor_cursor hstored).trans (if_pos hrevision),hrevision,?_,rfl,rfl⟩
    rw [hrevision]
  · obtain ⟨e,he,hstatus,heq⟩ := accepted_of_gateStatus h.gate
    exact ⟨e,he,hstatus,heq ▸ hw.run⟩
  · exact ⟨m,leaving_known h.leaving,hw.tasks⟩
  · exact ⟨n',t,congrArg some hid.symm,hid.symm ▸ hn',rfl,htask,hmember,hopen,hw.dependencies⟩

theorem warranted_of_honest (h : Passes db call m n t)
    (hhonest : HonestSuccess call (TransitionCall.crossed m n t.taskId) db
      (casCursor db (call.crossedCursor m n t.taskId) call.currentCursor.stateRevision)) : Warranted db call m t := by
  obtain ⟨n',hn',ht⟩ := h.task
  constructor
  · intro stored hstored
    obtain ⟨stored',-,hstored',-,hrevision,-⟩ := hhonest.advanced
    obtain rfl := some_unique hstored' hstored
    exact hrevision
  · obtain ⟨e,he,-,hrun⟩ := hhonest.evidence
    obtain ⟨e',he',-,heq⟩ := accepted_of_gateStatus h.gate
    obtain rfl := some_unique he he'
    exact heq ▸ hrun
  · obtain ⟨m',hm',htasks⟩ := hhonest.left
    obtain rfl := some_unique hm' (leaving_known h.leaving)
    exact htasks
  · obtain ⟨-,t',-,-,hid,htask',-,-,hdeps⟩ := hhonest.task
    have htask := (candidate_some ht).2.2
    rw [Option.some.inj hid,htask'] at htask
    cases htask
    exact hdeps

/-- A transition is honest exactly when every call that passes the checks also has the
stored revision, evidence of this run, only accepted tasks behind it and accepted
dependencies before it. -/
theorem transition_honest_iff (db : Database) (call : TransitionCall) :
    Honest db call ↔ ∀ m n t, Passes db call m n t → Warranted db call m t := by
  constructor
  · intro h m n t hpasses
    have hexecute := execute_of_passes hpasses
    have hsuccess := h.1 (TransitionCall.crossed m n t.taskId)
    rw [hexecute] at hsuccess
    exact warranted_of_honest hpasses (hsuccess ⟨rfl,rfl,rfl⟩)
  · intro h
    refine ⟨?_,?_⟩
    · intro r hreports
      obtain ⟨m,n,t,hpasses⟩ := passes_of_reports hreports
      rw [execute_of_passes hpasses] at hreports ⊢
      cases hreports.1
      exact honest_of_warranted hpasses (h m n t hpasses)
    · intro hsilent
      rw [unchanged_of_silent hsilent]

/-- Everything is accepted but the first task of the second milestone. -/
def sampleTransition : TransitionCall where
  plan := samplePlan
  runId := "run-1"
  currentCursor := freshCursor .project
  milestoneGateEvidence milestoneId := if milestoneId = "m1" then some ⟨some "ACCEPTED",some "run-1"⟩ else none
  taskStatuses taskId := if taskId = "t1" ∨ taskId = "t3" then some "ACCEPTED" else none
  currentRepoHead := "head-1"
  expectedBoundaryHead := "head-1"
  manualApprovals _ := false
  policyApprovals _ := false

def movedDatabase : Database where
  projectId := "p1"
  revision := some 1
  cursor := some { freshCursor .project with stateRevision := 2 }
  fences := Table.empty
  leases := Table.empty
  intents := Table.empty
  audit := Table.empty
  bindings := []
  pendingLaunches := []

/-- A lost compare-and-swap is reported as a crossing. -/
theorem stale_cursor_is_reported_crossed : ¬ Honest movedDatabase sampleTransition := by
  intro h
  have hreports : ReportsTask (executeCrossMilestoneTransition movedDatabase sampleTransition).2
      (TransitionCall.crossed ⟨"m1","GATE:m1",[],["t1"]⟩ ⟨"m2","GATE:m2",[],["t2","t3"]⟩ "t2") := ⟨rfl,rfl,rfl⟩
  obtain ⟨stored,written,hstored,-,hrevision,-⟩ := (h.1 _ hreports).advanced
  cases hstored
  cases hrevision

end Bdb.Scope
