import Bdb.Scope.Tick

/-! # Which launches are sound

A launch is sound when the selected task is an open task of the selected milestone with its
dependencies accepted, its approvals given and all earlier gates accepted. Within a
milestone every launch is. When a tick crosses to the next milestone, the dependencies and
approvals of the task it selects are not looked at, and there may be no such task at all.
-/
namespace Bdb.Scope

open Continuation (AutoScope ScopeCursor)

variable {plan : CanonicalPlanGraph} {cursor : ScopeCursor} {i : TickInputs} {m n : PlanMilestoneNode}
  {t : PlanTaskNode} {projectId : String} {d : ScopeDecision}

def ContinuesTask (cursor : ScopeCursor) (i : TickInputs) (d : ScopeDecision) : Prop :=
  d.selectedTaskId = cursor.currentTaskId ∧ underWay (currentTaskStatus cursor i) = true

/-- The approvals that the task requires are given. -/
structure Approved (i : TickInputs) (t : PlanTaskNode) : Prop where
  manual : t.requiresManualApproval = true → i.manualApprovals t.taskId = true
  policy : t.requiresPolicyApproval = true → i.policyApprovals t.taskId = true

structure SoundLaunch (plan : CanonicalPlanGraph) (cursor : ScopeCursor) (i : TickInputs) (m : PlanMilestoneNode)
    (t : PlanTaskNode) : Prop where
  milestone : plan.getMilestone m.milestoneId = some m
  task : plan.getTask t.taskId = some t
  member : t.taskId ∈ m.taskIds
  unaccepted : i.accepted t.taskId = false
  dependencies : ∀ dep ∈ t.dependencies, i.accepted dep = true
  approved : Approved i t
  gates : ∀ n ∈ plan.milestonesBefore m.milestoneId, i.gateAccepted n.milestoneId = true
  running : i.stopRequested = false ∧ cursor.stopped = false

/-- A launch of anything but the task under way is sound. -/
def LaunchSound (projectId : String) (plan : CanonicalPlanGraph) (cursor : ScopeCursor) (i : TickInputs) : Prop :=
  (tick projectId plan cursor i).1.action = .launchTask →
    ¬ ContinuesTask cursor i (tick projectId plan cursor i).1 →
    ∃ m t, (tick projectId plan cursor i).1.selectedMilestoneId = some m.milestoneId ∧
      (tick projectId plan cursor i).1.selectedTaskId = some t.taskId ∧ SoundLaunch plan cursor i m t

/-- The tick leaves the milestone for the next one: it is done, its gate is accepted, and
nothing holds the scope back. -/
structure Crosses (plan : CanonicalPlanGraph) (cursor : ScopeCursor) (i : TickInputs) (m n : PlanMilestoneNode) :
    Prop where
  located : Located plan cursor i m
  scope : crossing cursor.scope = true
  tasks : allTasksAccepted i m = true
  gate : i.gateAccepted m.milestoneId = true
  next : nextMilestone plan m = some n
  dependencies : n.dependencies.all i.gateAccepted = true
  idle : underWay (currentTaskStatus cursor i) = false
  running : i.stopRequested = false ∧ cursor.stopped = false
  planned : i.approvedPlanExhausted = false
  ci : (given cursor.currentTaskId).any (· ∈ i.ciWaitingTasks) = false
  backoff : (given cursor.currentTaskId).any (· ∈ i.transientBackoffTasks) = false

def FirstTaskReady (plan : CanonicalPlanGraph) (i : TickInputs) (n : PlanMilestoneNode) : Prop :=
  ∃ t, candidate plan i n.taskIds = some t ∧ t.taskId ≠ "" ∧ (∀ dep ∈ t.dependencies, i.accepted dep = true) ∧
    Approved i t

/-! ## Snapshots -/

theorem pendingDependencies_nil : pendingDependencies i t = [] ↔ ∀ dep ∈ t.dependencies, i.accepted dep = true := by
  unfold pendingDependencies
  rw [List.filter_eq_nil_iff]
  simp

theorem gateAccepted_iff : (i.milestoneGateStatuses m.milestoneId).getD "NOT_REACHED" = "ACCEPTED" ↔
    i.gateAccepted m.milestoneId = true := by
  unfold TickInputs.gateAccepted
  cases h : i.milestoneGateStatuses m.milestoneId with
  | none | some status => simp

theorem nextMilestone_some (h : nextMilestone plan m = some n) :
    given (nextMilestoneId plan m) = some n.milestoneId ∧ plan.getMilestone n.milestoneId = some n := by
  obtain ⟨id,hid,hfound⟩ := Option.bind_eq_some_iff.mp h
  obtain rfl := CanonicalPlanGraph.getMilestone_id hfound
  exact ⟨hid,hfound⟩

theorem nextMilestone_of_id {id : String} (h : given (nextMilestoneId plan m) = some id) :
    ∃ n, nextMilestone plan m = some n ∧ n.milestoneId = id := by
  obtain ⟨hid,-⟩ := given_eq_some.mp h
  obtain ⟨n,hn,rfl⟩ := Option.map_eq_some_iff.mp hid
  obtain ⟨n',hn'⟩ := CanonicalPlanGraph.getMilestone_of_mem (List.mem_of_getElem? hn)
  refine ⟨n',?_,CanonicalPlanGraph.getMilestone_id hn'⟩
  unfold nextMilestone
  rw [h]
  exact hn'

theorem noTask_of_tasks (hknown : plan.getMilestone m.milestoneId = some m) (h : allTasksAccepted i m = true) :
    (snapshot plan cursor i m).nextTaskInMilestoneId = none := by
  unfold allTasksAccepted at h
  have hall := (Bool.and_eq_true_iff.mp h).2
  exact (resolve_taskId hknown).trans (by rw [candidate_none hall]; rfl)

theorem Crosses.clear (h : Crosses plan cursor i m n) : Clear (snapshot plan cursor i m) := by
  have hnone := @noTask_of_tasks plan cursor i m h.located.known h.tasks
  have hactive : activeTask plan (resolveNextRunnableTask plan m.milestoneId i) = none := by
    unfold activeTask
    rw [show (resolveNextRunnableTask plan m.milestoneId i).taskId = none from hnone]
    rfl
  have hindex : plan.indexOf m.milestoneId + 1 < plan.milestones.length := by
    obtain ⟨hid,-⟩ := given_eq_some.mp (nextMilestone_some h.next).1
    obtain ⟨_,helem,-⟩ := Option.map_eq_some_iff.mp hid
    exact (List.getElem?_eq_some_iff.mp helem).1
  refine ⟨?_,h.planned,?_,?_,?_,h.ci,h.backoff⟩
  · simp [snapshot,h.running.1,h.running.2]
  · simp [snapshot,Nat.ne_of_lt hindex]
  all_goals simp [snapshot,hactive]

theorem Crosses.atCrossing (h : Crosses plan cursor i m n) :
    AtCrossing (snapshot plan cursor i m) n.milestoneId := by
  refine ⟨h.idle,h.scope,?_,h.tasks,?_,(nextMilestone_some h.next).1⟩
  · rw [noTask_of_tasks h.located.known h.tasks]
    rfl
  · exact congrArg some (gateAccepted_iff.mpr h.gate)

theorem Crosses.free (h : Crosses plan cursor i m n) :
    (snapshot plan cursor i m).nextMilestoneDependenciesSatisfied = true := by
  change ((nextMilestone plan m).map _).getD true = true
  rw [h.next]
  exact h.dependencies

theorem crosses_of_launched {id : String} (hlocated : Located plan cursor i m) (hclear : Clear (snapshot plan cursor i m))
    (h : AtCrossing (snapshot plan cursor i m) id)
    (hdeps : (snapshot plan cursor i m).nextMilestoneDependenciesSatisfied = true) :
    ∃ n, Crosses plan cursor i m n ∧ n.milestoneId = id := by
  obtain ⟨n,hnext,hid⟩ := nextMilestone_of_id h.next
  have hfree : ((nextMilestone plan m).map fun n => n.dependencies.all i.gateAccepted).getD true = true := hdeps
  rw [hnext] at hfree
  have hstop : (i.stopRequested || cursor.stopped) = false := hclear.stop
  refine ⟨n,⟨hlocated,h.scope,h.tasks,?_,hnext,hfree,h.idle,?_,hclear.plan,hclear.ci,hclear.backoff⟩,hid⟩
  · exact gateAccepted_iff.mp (Option.some.inj h.gate)
  · exact Bool.or_eq_false_iff.mp hstop

/-! ## The three launches -/

theorem approved_of_clear (hclear : Clear (snapshot plan cursor i m)) (htask : plan.getTask t.taskId = some t)
    (hnext : given (resolveNextRunnableTask plan m.milestoneId i).taskId = some t.taskId) : Approved i t := by
  have hactive : activeTask plan (resolveNextRunnableTask plan m.milestoneId i) = some t := by
    unfold activeTask
    rw [hnext]
    exact htask
  have hid := (given_eq_some.mp hnext).1
  constructor
  · intro hrequired
    have hmanual := hclear.manual
    simp only [snapshot,hactive,hid,Option.map_some,Option.getD_some,hrequired,if_true] at hmanual
    simpa using hmanual
  · intro hrequired
    have hpolicy := hclear.policy
    simp only [snapshot,hactive,hid,Option.map_some,Option.getD_some,hrequired,if_true] at hpolicy
    simpa using hpolicy

theorem sound_next {taskId : String} (hlocated : Located plan cursor i m)
    (hclear : Clear (snapshot plan cursor i m))
    (hnext : given (snapshot plan cursor i m).nextTaskInMilestoneId = some taskId)
    (hdeps : (snapshot plan cursor i m).nextTaskDependenciesSatisfied = true) :
    ∃ t, t.taskId = taskId ∧ SoundLaunch plan cursor i m t := by
  have hid := (given_eq_some.mp hnext).1
  have hcandidate := (resolve_taskId (i := i) hlocated.known).symm.trans hid
  obtain ⟨t,ht,rfl⟩ := Option.map_eq_some_iff.mp hcandidate
  obtain ⟨hmember,hopen,htask⟩ := candidate_some ht
  have hready : (resolveNextRunnableTask plan m.milestoneId i).dependenciesSatisfied = true := hdeps
  unfold resolveNextRunnableTask at hready
  simp only [hlocated.known,ht,decide_eq_true_eq] at hready
  have hstop : (i.stopRequested || cursor.stopped) = false := hclear.stop
  exact ⟨t,rfl,hlocated.known,htask,hmember,hopen,pendingDependencies_nil.mp hready,
    approved_of_clear hclear htask hnext,hlocated.before,Bool.or_eq_false_iff.mp hstop⟩

theorem Crosses.firstTask (h : Crosses plan cursor i m n) : (snapshot plan cursor i m).firstTaskInNextMilestoneId =
    (candidate plan i n.taskIds).map (·.taskId) := by
  change ((nextMilestone plan m).bind _) = _
  rw [h.next]
  exact resolve_taskId (nextMilestone_some h.next).2

theorem Crosses.gates (h : Crosses plan cursor i m n) :
    ∀ k ∈ plan.milestonesBefore n.milestoneId, i.gateAccepted k.milestoneId = true := by
  intro k hk
  obtain ⟨hid,-⟩ := given_eq_some.mp (nextMilestone_some h.next).1
  obtain ⟨x,hx,hxid⟩ := Option.map_eq_some_iff.mp hid
  have hle : plan.indexOf n.milestoneId ≤ plan.indexOf m.milestoneId + 1 := hxid ▸ CanonicalPlanGraph.indexOf_le hx
  have hmem : k ∈ plan.milestones.take (plan.indexOf m.milestoneId + 1) :=
    (List.take_subset_take_left plan.milestones hle) hk
  rw [List.take_add_one,CanonicalPlanGraph.getElem_indexOf h.located.known] at hmem
  rcases List.mem_append.mp hmem with hbefore | hlast
  · exact h.located.before k hbefore
  · rw [List.mem_singleton.mp hlast]
    exact h.gate

theorem Crosses.launch (h : Crosses plan cursor i m n) :
    (tick projectId plan cursor i).1.action = .launchTask ∧
      (tick projectId plan cursor i).1.selectedTaskId = given ((candidate plan i n.taskIds).map (·.taskId)) ∧
      (tick projectId plan cursor i).1.selectedMilestoneId = some n.milestoneId := by
  obtain ⟨haction,htask,hmilestone⟩ := evaluate_crossing h.clear h.atCrossing h.free
  rw [tick_of_located h.located]
  refine ⟨haction,?_,hmilestone⟩
  rw [htask,h.firstTask,noTask_of_tasks h.located.known h.tasks]
  unfold orElse
  cases hfirst : given ((candidate plan i n.taskIds).map (·.taskId)) with
  | none => rfl
  | some taskId => exact (given_eq_some.mp hfirst).1

theorem Crosses.sound_iff (h : Crosses plan cursor i m n) :
    LaunchSound projectId plan cursor i ↔ FirstTaskReady plan i n := by
  obtain ⟨haction,hselected,hmilestone⟩ := @Crosses.launch _ _ _ _ _ projectId h
  have hother : ¬ ContinuesTask cursor i (tick projectId plan cursor i).1 := by
    rintro ⟨-,hunder⟩
    rw [h.idle] at hunder
    cases hunder
  constructor
  · intro hsound
    obtain ⟨m',t,-,htask,hready⟩ := hsound haction hother
    rw [hselected] at htask
    obtain ⟨hfirst,hne⟩ := given_eq_some.mp htask
    obtain ⟨t',ht',hid⟩ := Option.map_eq_some_iff.mp hfirst
    -- the plan has one task of this identity
    have hsame := (candidate_some ht').2.2
    rw [hid,hready.task] at hsame
    cases hsame
    exact ⟨t,ht',hne,hready.dependencies,hready.approved⟩
  · rintro ⟨t,ht,hne,hdeps,happroved⟩ - -
    obtain ⟨hmember,hopen,htask⟩ := candidate_some ht
    refine ⟨n,t,hmilestone,?_,(nextMilestone_some h.next).2,htask,hmember,hopen,hdeps,happroved,h.gates,h.running⟩
    rw [hselected,ht]
    exact given_eq_some.mpr ⟨rfl,hne⟩

/-- Every launch is sound exactly when the tick does not cross to a milestone whose first
open task is missing, waits for a dependency or lacks an approval. -/
theorem launch_sound_iff (projectId : String) (plan : CanonicalPlanGraph) (cursor : ScopeCursor) (i : TickInputs) :
    LaunchSound projectId plan cursor i ↔ ∀ m n, Crosses plan cursor i m n → FirstTaskReady plan i n := by
  constructor
  · intro hsound m n hcrosses
    exact hcrosses.sound_iff.mp hsound
  · intro hready haction hother
    obtain ⟨m,hlocated⟩ := located_of_launch haction
    have hdecided : Decided (snapshot plan cursor i m) (tick projectId plan cursor i).1 := by
      rw [tick_of_located hlocated]
      exact evaluate_decided _
    cases hdecided with
    | launched _ hclear hlaunched hlive =>
      cases hlaunched with
      | inProgress hunder htask hmilestone => exact absurd ⟨htask,hunder⟩ hother
      | next hidle hscope hnext hdeps htask hmilestone =>
        obtain ⟨t,rfl,hsound⟩ := sound_next hlocated hclear hnext hdeps
        exact ⟨m,t,hmilestone,htask,hsound⟩
      | crossed hat hdeps htask hmilestone =>
        obtain ⟨n,hcrosses,rfl⟩ := crosses_of_launched hlocated hclear hat hdeps
        exact hcrosses.sound_iff.mpr (hready m n hcrosses) haction hother
    | moved hnot | stayed hnot => exact absurd haction hnot

/-! ## A crossing that is not sound -/

def sampleTask (taskId milestoneId : String) (dependencies : List String) : PlanTaskNode :=
  ⟨taskId,milestoneId,dependencies,false,false,false⟩

/-- The first task of the second milestone depends on its second. -/
def samplePlan : CanonicalPlanGraph where
  planIdentity := "plan:v1"
  planVersion := 1
  milestones := [⟨"m1","GATE:m1",[],["t1"]⟩,⟨"m2","GATE:m2",[],["t2","t3"]⟩]
  tasks := [sampleTask "t1" "m1" [],sampleTask "t2" "m2" ["t3"],sampleTask "t3" "m2" []]

def freshCursor (scope : AutoScope) : ScopeCursor :=
  getOrCreateCursor none "p1" "run-1" scope "plan:v1" 1 false

def sampleInputs (tasks gates : List String) : TickInputs where
  taskStatuses taskId := if taskId ∈ tasks then some "ACCEPTED" else none
  milestoneGateStatuses milestoneId := if milestoneId ∈ gates then some "ACCEPTED" else none
  manualApprovals _ := false
  policyApprovals _ := false
  stopRequested := false
  ciWaitingTasks := []
  transientBackoffTasks := []
  approvedPlanExhausted := false

theorem crossing_launches_unready_task :
    ¬ LaunchSound "p1" samplePlan (freshCursor .project) (sampleInputs ["t1"] ["m1"]) := by
  intro h
  have hselected : (tick "p1" samplePlan (freshCursor .project) (sampleInputs ["t1"] ["m1"])).1.selectedTaskId =
      some "t2" := by decide +kernel
  obtain ⟨m,t,-,htask,hsound⟩ := h (by decide +kernel) (fun hcontinues => by cases hcontinues.2)
  rw [hselected] at htask
  have hnode := hsound.task
  rw [← Option.some.inj htask] at hnode
  cases hnode
  exact absurd (hsound.dependencies "t3" (by decide)) (by decide)

end Bdb.Scope
