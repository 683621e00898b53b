import Bdb.Project.RunCursor

/-! # Halted runs

A run that waits for an operator at a task stays there while that task keeps its
status, as long as no result, approval or requested change of another task is
committed: those rewrite the run as well.
-/
namespace Bdb.Project
open Program

def RunStatus.waitsFor : RunStatus → Option TaskStatus
  | .review => some .review
  | .blocked => some .blocked
  | _ => none

variable {s : RunStatus} {v : TaskStatus} {plan : ProjectPlan} {l : Label} {d e : ExecutionDocument}
    {taskId : String} {m : Memory}

theorem RunStatus.waitsFor_of_halted (h : s.halted = true) : ∃ v, s.waitsFor = some v := by
  cases s with
  | review => exact ⟨.review,rfl⟩
  | blocked => exact ⟨.blocked,rfl⟩
  | _ => cases h

theorem RunStatus.live_of_waitsFor (h : s.waitsFor = some v) : s.live = true ∧ s.halted = true := by
  cases s with
  | review | blocked => exact ⟨rfl,rfl⟩
  | _ => cases h

def HaltInv (d : ExecutionDocument) : Prop :=
  ∀ r, d.activeMilestoneRun = some r → ∀ v, r.status.waitsFor = some v →
    ∃ t, r.currentTaskId = some t ∧ d.taskStatuses.lookup t = some v

theorem haltInv_empty : HaltInv Execution.empty.filled := by
  intro r hr
  cases hr

theorem Change.lookup_kept (h : Change plan l d e) (hl : l.decides = false) {k : String}
    (hk : d.taskStatuses.lookup k = some v) : e.taskStatuses.lookup k = some v := by
  cases h with
  | launch now binding task =>
    change (d.taskStatuses.setdefault binding.taskId .active).lookup k = _
    rw [Dict.lookup_setdefault]
    split
    · rename_i heq
      subst heq
      rw [Dict.get_of_lookup hk]
    · exact hk
  | settle | approve | reopen => cases hl
  | _ => exact hk

theorem Change.lookup_decided : (∀ task attempt status, Change plan (.settle task attempt status) d e →
      e.taskStatuses.lookup task.taskId = some status) ∧
    (∀ taskId, Change plan (.approve taskId) d e → e.taskStatuses.lookup taskId = some .completed) ∧
    (∀ taskId, Change plan (.reopen taskId) d e → e.taskStatuses.lookup taskId = some .active) := by
  refine ⟨?_,?_,?_⟩
  · rintro task attempt status (_ | _)
    change (advanced _ _ _ _ _).taskStatuses.lookup task.taskId = _
    rw [advanced_taskStatuses]
    exact AList.lookup_insert _
  · rintro taskId (_ | _)
    rw [approved_taskStatuses]
    exact AList.lookup_insert _
  · rintro taskId (_ | _)
    rw [changesRequested_taskStatuses]
    exact AList.lookup_insert _

theorem Change.haltInv (h : Change plan l d e) (hd : HaltInv d) : HaltInv e := by
  intro r hr v hv
  obtain ⟨hlive,hhalted⟩ := RunStatus.live_of_waitsFor hv
  have hrun := h.runChange
  generalize e.activeMilestoneRun = active at hrun hr
  generalize e.milestoneRuns = runs at hrun
  cases hrun with
  | kept hidle =>
    obtain ⟨t,ht,hstored⟩ := hd r hr v hv
    refine ⟨t,ht,h.lookup_kept ?_ hstored⟩
    have hnot : liveRun d ≠ none := by simp [liveRun,hr,Option.filter_some,hlive]
    cases hdec : l.decides with
    | false => rfl
    | true => exact absurd (hidle hdec) hnot
  | @settled task attempt status active run _ hrw hcursor hnext hreview hblocked =>
    obtain rfl := Option.some.inj hr
    have hlookup := Change.lookup_decided.1 task attempt status h
    cases hs : run.status with
    | review =>
      obtain rfl := hreview.mp hs
      rw [hs] at hv
      exact ⟨task.taskId,hcursor (by rintro ⟨⟩),hlookup.trans hv⟩
    | blocked =>
      obtain rfl := hblocked.mp hs
      rw [hs] at hv
      exact ⟨task.taskId,hcursor (by rintro ⟨⟩),hlookup.trans hv⟩
    | _ =>
      rw [hs] at hv
      cases hv
  | approved active run hrw hnext hresumed | reopened active run hrw hcursor hresumed =>
    obtain rfl := Option.some.inj hr
    rw [hresumed] at hhalted
    cases hhalted
  | begun runId run hid hnext hresumed =>
    obtain rfl := Option.some.inj hr
    rw [hresumed] at hhalted
    cases hhalted
  | stopped runId run stopped hstored hstatus hmilestone hid hcursor =>
    obtain ⟨old,hold,rfl⟩ := Option.map_eq_some_iff.mp hr
    by_cases hkey : old.milestoneRunId = runId
    · rw [if_pos hkey,hstatus] at hhalted
      cases hhalted
    · rw [if_neg hkey] at hv ⊢
      obtain ⟨t,ht,hlookup⟩ := hd old hold v hv
      exact ⟨t,ht,h.lookup_kept rfl hlookup⟩

/-! ## One change -/

def statusOf (plan : ProjectPlan) (d : ExecutionDocument) (taskId : String) : Option TaskStatus :=
  (d.taskStatuses.lookup taskId).or ((plan.task? taskId).map (·.status))

theorem statusOf_of_lookup (h : d.taskStatuses.lookup taskId = some v) : statusOf plan d taskId = some v := by
  rw [statusOf,h]
  rfl

def HaltedAt (d : ExecutionDocument) (taskId : String) : Prop :=
  ∃ r, d.activeMilestoneRun = some r ∧ r.status.halted = true ∧ r.currentTaskId = some taskId

/-- The changes that do not rewrite the run for the sake of another task. -/
def Label.Spares (taskId : String) (d : ExecutionDocument) : Label → Prop
  | .settle task _ _ => task.taskId = taskId
  | .approve k => k = taskId
  | .reopen k => k = taskId
  | .beginRun => False
  | .stopRun runId => ∀ r, d.activeMilestoneRun = some r → r.milestoneRunId ≠ runId
  | _ => True

theorem Change.haltedAt (h : Change plan l d e) (hi : HaltInv d) (hl : l.Spares taskId d)
    (hstatus : statusOf plan e taskId = statusOf plan d taskId) (hd : HaltedAt d taskId) :
    HaltedAt e taskId := by
  obtain ⟨r,hr,hhalted,ht⟩ := hd
  obtain ⟨v,hv⟩ := RunStatus.waitsFor_of_halted hhalted
  obtain ⟨t,ht',hstored⟩ := hi r hr v hv
  obtain rfl : taskId = t := some_unique ht ht'
  -- whatever status the change stores for the task is the one the run waits for
  have hsame : ∀ w, e.taskStatuses.lookup taskId = some w → w = v := by
    intro w hw
    rw [statusOf_of_lookup hw,statusOf_of_lookup hstored] at hstatus
    exact Option.some.inj hstatus
  have hwaits : v = .review ∨ v = .blocked := by
    cases hs : r.status <;> rw [hs] at hv <;> cases hv
    · exact .inl rfl
    · exact .inr rfl
  have hrun := h.runChange
  unfold HaltedAt
  generalize e.activeMilestoneRun = active at hrun ⊢
  generalize e.milestoneRuns = runs at hrun
  cases hrun with
  | kept hidle => exact ⟨r,hr,hhalted,ht⟩
  | @settled task attempt status active run _ hrw hcursor hnext hreview hblocked =>
    obtain rfl : task.taskId = taskId := hl
    obtain rfl := hsame status (Change.lookup_decided.1 task attempt status h)
    rcases hwaits with rfl | rfl
    · exact ⟨run,rfl,by rw [hreview.mpr rfl]; rfl,hcursor (by rintro ⟨⟩)⟩
    · exact ⟨run,rfl,by rw [hblocked.mpr rfl]; rfl,hcursor (by rintro ⟨⟩)⟩
  | @approved k active run hrw hnext hresumed =>
    obtain rfl : k = taskId := hl
    have hdone := hsame .completed (Change.lookup_decided.2.1 k h)
    rcases hwaits with rfl | rfl <;> cases hdone
  | @reopened k active run hrw hcursor hresumed =>
    obtain rfl : k = taskId := hl
    have hactive := hsame .active (Change.lookup_decided.2.2 k h)
    rcases hwaits with rfl | rfl <;> cases hactive
  | begun runId run hid hnext hresumed => exact hl.elim
  | stopped runId run stopped hstored' hs hmilestone hid hcursor =>
    refine ⟨r,?_,hhalted,ht⟩
    rw [hr,Option.map_some,if_neg (hl r hr)]

theorem Minor.same (h : Minor plan d e) :
    e.activeMilestoneRun = d.activeMilestoneRun ∧ e.taskStatuses = d.taskStatuses := by
  rcases h with h | h
  all_goals cases h; exact ⟨rfl,rfl⟩

theorem minors_same (h : Relation.ReflTransGen (Minor plan) d e) :
    e.activeMilestoneRun = d.activeMilestoneRun ∧ e.taskStatuses = d.taskStatuses := by
  refine invariant_of_steps (I := fun e => e.activeMilestoneRun = d.activeMilestoneRun ∧
    e.taskStatuses = d.taskStatuses) ?_ h ⟨rfl,rfl⟩
  intro s t hst hs
  exact ⟨hst.same.1.trans hs.1,hst.same.2.trans hs.2⟩

/-! ## Every run -/

/-- The calls that leave a run halted at a task: the task keeps its effective status, the
run is not begun or stopped, and no result, approval or requested change of another
task is up for commit. -/
structure Undisturbed (plan : ProjectPlan) (taskId : String) (c : Call) (m : Memory) : Prop where
  site : c.site.plan = some plan
  status : statusOf plan (documentOf (c.run m)) taskId = statusOf plan (documentOf m) taskId
  begins : ∀ p milestoneId runId, c.operation ≠ .beginMilestoneAuto p milestoneId runId
  stops : ∀ p name reason, c.operation = .stopMilestoneAuto p name reason →
    ∀ r, (documentOf m).activeMilestoneRun = some r → r.milestoneRunId ≠ strip name
  results : ∀ task status, c.settles m = some (task,status) → task.taskId = taskId
  approvals : ∀ p k reason, c.operation = .approveReview p k reason →
    (documentOf m).taskStatuses.lookup k = some .review → k = taskId
  changes : ∀ p k reason, c.operation = .requestChanges p k reason →
    (documentOf m).taskStatuses.lookup k = some .review → k = taskId

theorem Undisturbed.spares {c : Call} (hc : Undisturbed plan taskId c m) (hl : c.Permits m l)
    (h : Change plan l (documentOf m) e) : l.Spares taskId (documentOf m) := by
  cases h with
  | settle now raw task attempt acceptance status hs => exact hc.results task status hl.1
  | approve now k acceptance hreview hlast hoverall =>
    obtain ⟨p,reason,hop⟩ := hl
    exact hc.approvals p k reason hop hreview
  | reopen now k hreview =>
    obtain ⟨p,reason,hop⟩ := hl
    exact hc.changes p k reason hop hreview
  | beginRun =>
    obtain ⟨p,milestoneId,runId,hop⟩ := hl
    exact hc.begins p milestoneId runId hop
  | stopRun runId =>
    obtain ⟨p,name,reason,hop,rfl⟩ := hl
    exact hc.stops p name reason hop
  | _ => trivial

theorem Undisturbed.keeps {c : Call} (hc : Undisturbed plan taskId c m)
    (hm : HaltInv (documentOf m) ∧ HaltedAt (documentOf m) taskId) :
    HaltInv (documentOf (c.run m)) ∧ HaltedAt (documentOf (c.run m)) taskId := by
  refine ⟨runCalls_invariant (fun _ _ _ _ _ h => h.haltInv) [c] hm.1,?_⟩
  rcases c.moves m with heq | ⟨plan',hplan',heffect⟩
  · rw [heq]
    exact hm.2
  · obtain rfl : plan = plan' := some_unique hc.site hplan'
    cases heffect with
    | quiet rest =>
      obtain ⟨r,hr,hrest⟩ := hm.2
      exact ⟨r,(minors_same rest).1.trans hr,hrest⟩
    | @main f l hl h rest =>
      obtain ⟨hactive,hstatuses⟩ := minors_same rest
      have hstatus : statusOf plan f taskId = statusOf plan (documentOf m) taskId := by
        rw [← hc.status,statusOf,statusOf,hstatuses]
      obtain ⟨r,hr,hrest⟩ := h.haltedAt hm.1 (hc.spares hl h) hstatus hm.2
      exact ⟨r,hactive.trans hr,hrest⟩

theorem projection_of_halted {r : MilestoneRun} (h : r.status.halted = true) :
    ((milestoneAutoProjection plan d (some r)).status = .blocked ∨
      (milestoneAutoProjection plan d (some r)).status = .reviewRequired) ∧
      (milestoneAutoProjection plan d (some r)).runnableTaskIds = [] := by
  cases hs : r.status with
  | blocked | review => simp [milestoneAutoProjection,hs]
  | _ =>
    rw [hs] at h
    cases h

/-- From every reachable document whose active run waits at a task, the run still waits
there in every state of a run of undisturbed calls, and its projection offers nothing
to run. -/
theorem halted_run_stays (plan : ProjectPlan) (m : Memory) (hm : documentOf m = Execution.empty.filled)
    (calls : List Call) (taskId : String) (hhalted : HaltedAt (documentOf (runCalls calls m)) taskId)
    (later : List Call) (hlater : AllCalls (Undisturbed plan taskId) later (runCalls calls m))
    (before after : List Call) (hsplit : later = before ++ after) :
    ∃ r, (documentOf (runCalls (calls ++ before) m)).activeMilestoneRun = some r ∧
      r.status.halted = true ∧ r.currentTaskId = some taskId ∧
      ((milestoneAutoProjection plan (documentOf (runCalls (calls ++ before) m)) (some r)).status =
          .blocked ∨
        (milestoneAutoProjection plan (documentOf (runCalls (calls ++ before) m)) (some r)).status =
          .reviewRequired) ∧
      (milestoneAutoProjection plan (documentOf (runCalls (calls ++ before) m))
        (some r)).runnableTaskIds = [] := by
  have hstart : HaltInv (documentOf m) := hm ▸ haltInv_empty
  have hinv : HaltInv (documentOf (runCalls calls m)) :=
    runCalls_invariant (fun _ _ _ _ _ h => h.haltInv) calls hstart
  rw [hsplit,allCalls_append] at hlater
  obtain ⟨-,r,hr,hstatus,ht⟩ := runCalls_guarded
    (I := fun n => HaltInv (documentOf n) ∧ HaltedAt (documentOf n) taskId)
    (fun _ _ => Undisturbed.keeps) hlater.1 ⟨hinv,hhalted⟩
  rw [runCalls_append]
  exact ⟨r,hr,hstatus,ht,projection_of_halted hstatus⟩

def haltedCalls : List Call :=
  beginFirst ++ [⟨sampleAmbient,crossSite,.persistBinding (sampleBinding "b1" "t1")⟩,
    ⟨sampleAmbient,crossSite,.recordResult "p1" (sampleResult "b1" "FAIL")⟩]

/-- A manual start of a task of the second milestone. -/
def manualStart : Call := ⟨sampleAmbient,crossSite,.persistBinding (sampleBinding "b2" "t2")⟩

def manualResult : Call := ⟨sampleAmbient,crossSite,.recordResult "p1" (sampleResult "b2" "PASS")⟩

/-- What the halted run and its task look like, and after each of the two calls. -/
def haltView (m : Memory) : Option (RunStatus × Option String) × Option TaskStatus :=
  ((documentOf m).activeMilestoneRun.map (fun r => (r.status,r.currentTaskId)),
    statusOf crossPlan (documentOf m) "t1")

theorem halted_run :
    haltView (runCalls haltedCalls none) = (some (.blocked,some "t1"),some .blocked) ∧
      haltView (manualStart.run (runCalls haltedCalls none)) =
        (some (.blocked,some "t1"),some .blocked) ∧
      haltView (manualResult.run (manualStart.run (runCalls haltedCalls none))) =
        (some (.running,some "t1"),some .blocked) := by
  decide +kernel

theorem haltedAt_of_view {t : Option String} {v : Option TaskStatus}
    (h : haltView m = (some (s,t),v)) (taskId : String) :
    HaltedAt (documentOf m) taskId ↔ s.halted = true ∧ t = some taskId := by
  obtain ⟨r,hr,hpair⟩ := Option.map_eq_some_iff.mp (Prod.mk.inj h).1
  obtain ⟨rfl,rfl⟩ := Prod.mk.inj hpair
  constructor
  · rintro ⟨r',hr',hrest⟩
    obtain rfl : r = r' := some_unique hr hr'
    exact hrest
  · intro hrest
    exact ⟨r,hr,hrest⟩

theorem runCalls_snoc (calls : List Call) (c : Call) (m : Memory) :
    runCalls (calls ++ [c]) m = c.run (runCalls calls m) := by
  rw [runCalls_append]
  rfl

theorem statusOf_of_view {x : Option (RunStatus × Option String)}
    {v : Option TaskStatus} (h : haltView m = (x,v)) :
    statusOf crossPlan (documentOf m) "t1" = v :=
  (Prod.mk.inj h).2

theorem manualStart_undisturbed (h : statusOf crossPlan (documentOf (manualStart.run m)) "t1" =
      statusOf crossPlan (documentOf m) "t1") :
    AllCalls (Undisturbed crossPlan "t1") [manualStart] m := by
  refine ⟨⟨rfl,h,?_,?_,?_,?_,?_⟩,trivial⟩
  · intro p milestoneId runId h
    cases h
  · intro p name reason h
    cases h
  · intro task status h
    cases h
  all_goals
    intro p k reason h
    cases h

theorem halted_run_stays_started :
    HaltedAt (documentOf (runCalls haltedCalls none)) "t1" ∧
      ∃ r, (documentOf (runCalls (haltedCalls ++ [manualStart]) none)).activeMilestoneRun = some r ∧
        r.status.halted = true ∧ r.currentTaskId = some "t1" := by
  obtain ⟨hbefore,hafter,-⟩ := halted_run
  have hhalted := (haltedAt_of_view hbefore "t1").mpr ⟨rfl,rfl⟩
  have hlater := manualStart_undisturbed
    ((statusOf_of_view hafter).trans (statusOf_of_view hbefore).symm)
  obtain ⟨r,hr,hs,ht,-⟩ := halted_run_stays crossPlan none rfl haltedCalls "t1" hhalted [manualStart]
    hlater [manualStart] [] rfl
  exact ⟨hhalted,r,hr,hs,ht⟩

/-- A passed result of another task sets a halted run running again, while the task it
waits at is as blocked as before. -/
theorem other_result_resumes_run :
    HaltedAt (documentOf (runCalls (haltedCalls ++ [manualStart]) none)) "t1" ∧
      statusOf crossPlan (documentOf (runCalls (haltedCalls ++ [manualStart] ++ [manualResult]) none))
          "t1" =
        statusOf crossPlan (documentOf (runCalls (haltedCalls ++ [manualStart]) none)) "t1" ∧
      ¬ HaltedAt
        (documentOf (runCalls (haltedCalls ++ [manualStart] ++ [manualResult]) none)) "t1" := by
  obtain ⟨-,hbefore,hafter⟩ := halted_run
  rw [runCalls_snoc _ manualResult,runCalls_snoc _ manualStart]
  refine ⟨(haltedAt_of_view hbefore "t1").mpr ⟨rfl,rfl⟩,
    (statusOf_of_view hafter).trans (statusOf_of_view hbefore).symm,?_⟩
  intro h
  exact Bool.false_ne_true ((haltedAt_of_view hafter "t1").mp h).1

end Bdb.Project
