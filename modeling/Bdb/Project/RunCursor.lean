import Bdb.Project.Calls

/-! # The cursor of the active run

Results, approvals and requested changes all rewrite the record of the active run. The
cursor they leave belongs to the milestone of the run when it comes from the progress
of that milestone; a result that is not a completion, and requested changes, write the
task they are about instead, whatever its milestone.
-/
namespace Bdb.Project
open Program AList Option

def InMilestone (plan : ProjectPlan) (milestoneId taskId : String) : Prop :=
  ∃ t ∈ plan.milestoneTasks milestoneId, t.taskId = taskId

variable {plan : ProjectPlan} {d : ExecutionDocument} {run : MilestoneRun} {taskId : String}

theorem selectedMilestone_active (h : d.activeMilestoneRun = some run) :
    selectedMilestone plan d (some run.milestoneId) = some run.milestoneId := by
  unfold selectedMilestone
  by_cases hempty : run.milestoneId = ""
  · simp [h,hempty,filter_some]
  · simp [hempty,filter_some]

theorem inMilestone_of_next (hrun : d.activeMilestoneRun = some run)
    (h : (milestoneAutoProgress plan d (some run.milestoneId)).nextTaskId = some taskId) :
    InMilestone plan run.milestoneId taskId := by
  simp only [milestoneAutoProgress,selectedMilestone_active hrun,bind_some] at h
  cases hm : plan.milestone? run.milestoneId with
  | none => simp [hm] at h
  | some milestone =>
    simp only [hm] at h
    have hid : milestone.milestoneId = run.milestoneId := by
      have hfound := List.find?_some hm
      simpa using hfound
    rw [← hid]
    exact milestoneCursor_next h

/-! ## How a change rewrites the run -/

/-- The record of the run after a result, an approval or requested changes. -/
structure Rewrites (plan : ProjectPlan) (d : ExecutionDocument) (active run : MilestoneRun) : Prop where
  current : d.activeMilestoneRun = some active
  id : run.milestoneRunId = (runRecord d active).milestoneRunId
  milestone : run.milestoneId = (runRecord d active).milestoneId

/-- The changes that decide about a task that has a stored status. -/
def Label.decides : Label → Bool
  | .settle _ _ _ => true
  | .approve _ => true
  | .reopen _ => true
  | _ => false

/-- The active run and the stored runs after a change. -/
inductive RunChange (plan : ProjectPlan) (d : ExecutionDocument) :
    Label → Option MilestoneRun → Dict MilestoneRun → Prop
  | kept {l : Label} (idle : l.decides = true → liveRun d = none) :
      RunChange plan d l d.activeMilestoneRun d.milestoneRuns
  | settled {task : ProjectTask} {attempt : AttemptDocument} {status : TaskStatus}
      (active run : MilestoneRun) (live : active.status.live = true) (rewrites : Rewrites plan d active run)
      (cursor : status ≠ .completed → run.currentTaskId = some task.taskId)
      (next : status = .completed → ∀ t, run.currentTaskId = some t → InMilestone plan active.milestoneId t)
      (review : run.status = .review ↔ status = .review)
      (blocked : run.status = .blocked ↔ status = .blocked) :
      RunChange plan d (.settle task attempt status) (some run)
        (d.milestoneRuns.insert active.milestoneRunId run)
  | approved {taskId : String} (active run : MilestoneRun) (rewrites : Rewrites plan d active run)
      (next : ∀ t, run.currentTaskId = some t → InMilestone plan active.milestoneId t)
      (resumed : run.status.halted = false) :
      RunChange plan d (.approve taskId) (some run) (d.milestoneRuns.insert active.milestoneRunId run)
  | reopened {taskId : String} (active run : MilestoneRun) (rewrites : Rewrites plan d active run)
      (cursor : run.currentTaskId = some taskId) (resumed : run.status = .running) :
      RunChange plan d (.reopen taskId) (some run) (d.milestoneRuns.insert active.milestoneRunId run)
  | begun (runId : String) (run : MilestoneRun) (id : run.milestoneRunId = runId)
      (next : ∀ t, run.currentTaskId = some t → InMilestone plan run.milestoneId t)
      (resumed : run.status.halted = false) :
      RunChange plan d .beginRun (some run) (d.milestoneRuns.insert runId run)
  | stopped (runId : String) (run stopped : MilestoneRun) (stored : d.milestoneRuns.lookup runId = some run)
      (status : stopped.status = .stopped) (milestone : stopped.milestoneId = run.milestoneId)
      (id : stopped.milestoneRunId = run.milestoneRunId) (cursor : stopped.currentTaskId = run.currentTaskId) :
      RunChange plan d (.stopRun runId)
        (d.activeMilestoneRun.map (fun r => if r.milestoneRunId = runId then stopped else r))
        (d.milestoneRuns.insert runId stopped)

theorem liveRun_some (h : liveRun d = some run) :
    d.activeMilestoneRun = some run ∧ run.status.live = true := by
  simpa [liveRun,filter_eq_some_iff] using h

variable {now : String} {status : TaskStatus} {progress : MilestoneProgress} {l : Label}
    {active : Option MilestoneRun} {runs : Dict MilestoneRun}

theorem advancedRun_review :
    (advancedRun now taskId status progress run).status = .review ↔ status = .review := by
  cases status with
  | completed => simp only [advancedRun]; split <;> simp
  | _ => simp [advancedRun]

theorem advancedRun_blocked :
    (advancedRun now taskId status progress run).status = .blocked ↔ status = .blocked := by
  cases status with
  | completed => simp only [advancedRun]; split <;> simp
  | _ => simp [advancedRun]

theorem advancedRun_record (now taskId : String) (status : TaskStatus) (progress : MilestoneProgress)
    (run : MilestoneRun) :
    (advancedRun now taskId status progress run).milestoneRunId = run.milestoneRunId ∧
      (advancedRun now taskId status progress run).milestoneId = run.milestoneId := by
  cases status <;> exact ⟨rfl,rfl⟩

theorem advanced_runs (now : String) (plan : ProjectPlan) (taskId : String) (status : TaskStatus)
    (d : ExecutionDocument) :
    (liveRun d = none ∧
      (advanced now plan taskId status d).activeMilestoneRun = d.activeMilestoneRun ∧
      (advanced now plan taskId status d).milestoneRuns = d.milestoneRuns) ∨
    ∃ active run, liveRun d = some active ∧
      run = advancedRun now taskId status (milestoneAutoProgress plan d (some active.milestoneId))
        (runRecord d active) ∧
      (advanced now plan taskId status d).activeMilestoneRun = some run ∧
      (advanced now plan taskId status d).milestoneRuns =
        d.milestoneRuns.insert active.milestoneRunId run := by
  unfold advanced
  split
  · rename_i active hlive
    exact .inr ⟨active,_,hlive,rfl,rfl,rfl⟩
  · rename_i hnone
    exact .inl ⟨hnone,rfl,rfl⟩

theorem approved_runs (now : String) (plan : ProjectPlan) (taskId : String) (d : ExecutionDocument) :
    (liveRun d = none ∧ (approved now plan taskId d).activeMilestoneRun = d.activeMilestoneRun ∧
      (approved now plan taskId d).milestoneRuns = d.milestoneRuns) ∨
    ∃ active run, liveRun d = some active ∧
      run = approvedRun now (milestoneAutoProgress plan
        { d with taskStatuses := d.taskStatuses.insert taskId .completed } (some active.milestoneId))
        (runRecord d active) ∧
      (approved now plan taskId d).activeMilestoneRun = some run ∧
      (approved now plan taskId d).milestoneRuns = d.milestoneRuns.insert active.milestoneRunId run := by
  simp only [approved]
  split
  · rename_i active hlive
    exact .inr ⟨active,_,hlive,rfl,rfl,rfl⟩
  · rename_i hnone
    exact .inl ⟨hnone,rfl,rfl⟩

theorem changesRequested_runs (now taskId : String) (d : ExecutionDocument) :
    (liveRun d = none ∧ (changesRequested now taskId d).activeMilestoneRun = d.activeMilestoneRun ∧
      (changesRequested now taskId d).milestoneRuns = d.milestoneRuns) ∨
    ∃ active run, d.activeMilestoneRun = some active ∧
      run = { runRecord d active with
        status := .running, currentTaskId := some taskId, updatedAt := now } ∧
      (changesRequested now taskId d).activeMilestoneRun = some run ∧
      (changesRequested now taskId d).milestoneRuns =
        d.milestoneRuns.insert active.milestoneRunId run := by
  simp only [changesRequested]
  split
  · rename_i active hactive
    exact .inr ⟨active,_,hactive,rfl,rfl,rfl⟩
  · rename_i hnone
    have hidle : liveRun d = none := by
      rw [liveRun,show d.activeMilestoneRun = none from hnone]
      rfl
    exact .inl ⟨hidle,rfl,rfl⟩

theorem Change.runChange {e : ExecutionDocument}
    (h : Change plan l d e) : RunChange plan d l e.activeMilestoneRun e.milestoneRuns := by
  cases h with
  | settle now raw task attempt acceptance status hs =>
    change RunChange plan d _ (advanced now plan task.taskId status _).activeMilestoneRun
      (advanced now plan task.taskId status _).milestoneRuns
    rcases advanced_runs now plan task.taskId status (settled now raw.executionBindingId attempt
      acceptance task.taskId status d) with ⟨hidle,ha,hr⟩ | ⟨active,run,hlive,rfl,ha,hr⟩
    · rw [ha,hr]
      exact .kept fun _ => hidle
    · obtain ⟨hactive,hstatus⟩ := liveRun_some hlive
      obtain ⟨hid,hmilestone⟩ := advancedRun_record now task.taskId status
        (milestoneAutoProgress plan (settled now raw.executionBindingId attempt acceptance task.taskId
          status d) (some active.milestoneId)) (runRecord d active)
      rw [ha,hr]
      refine .settled active _ hstatus ⟨hactive,hid,hmilestone⟩ ?_ ?_ advancedRun_review advancedRun_blocked
      · intro hne
        cases status <;> first | rfl | exact absurd rfl hne
      · rintro rfl t ht
        exact inMilestone_of_next (d := settled now raw.executionBindingId attempt acceptance task.taskId
          .completed d) hactive ht
  | approve now taskId acceptance =>
    rcases approved_runs now plan taskId d with ⟨hidle,ha,hr⟩ | ⟨active,run,hlive,rfl,ha,hr⟩
    · rw [ha,hr]
      exact .kept fun _ => hidle
    · obtain ⟨hactive,-⟩ := liveRun_some hlive
      rw [ha,hr]
      refine .approved active _ ⟨hactive,rfl,rfl⟩ ?_ ?_
      · intro t ht
        exact inMilestone_of_next (d := { d with taskStatuses := d.taskStatuses.insert taskId .completed })
          hactive ht
      · simp only [approvedRun]
        split <;> rfl
  | reopen now taskId =>
    rcases changesRequested_runs now taskId d with ⟨hidle,ha,hr⟩ | ⟨active,run,hactive,rfl,ha,hr⟩
    · rw [ha,hr]
      exact .kept fun _ => hidle
    · rw [ha,hr]
      exact .reopened active _ ⟨hactive,rfl,rfl⟩ rfl rfl
  | beginRun now projectId runId selected milestoneId hselection hrunnable hfree =>
    refine .begun runId _ rfl ?_ ?_
    · intro t ht
      obtain ⟨m,hm,hin⟩ := milestoneAutoProgress_next ht
      obtain rfl : selected = m := some_unique hselection hm
      exact hin
    · change RunStatus.halted (if _ then _ else _) = false
      split <;> rfl
  | stopRun runId run stopped hstored hended =>
    obtain ⟨hs,hm,hid,hc⟩ := hended
    exact .stopped runId run stopped hstored hs hm hid hc
  | _ => exact .kept nofun

/-! ## The invariant -/

/-- The active run is the stored one of its identifier, and every stored cursor lies in
the milestone of its run. -/
structure RunInv (plan : ProjectPlan) (active : Option MilestoneRun) (runs : Dict MilestoneRun) : Prop where
  keyed : ∀ k r, runs.lookup k = some r → r.milestoneRunId = k
  cursor : ∀ k r, runs.lookup k = some r → ∀ t, r.currentTaskId = some t →
    InMilestone plan r.milestoneId t
  stored : ∀ r, active = some r → runs.lookup r.milestoneRunId = some r

theorem runInv_empty (plan : ProjectPlan) : RunInv plan none ∅ := by
  refine ⟨fun k r h => ?_,fun k r h => ?_,fun r h => ?_⟩
  · simp at h
  · simp at h
  · cases h

theorem RunInv.insert (h : RunInv plan active runs) {key : String} (hid : run.milestoneRunId = key)
    (hcursor : ∀ t, run.currentTaskId = some t → InMilestone plan run.milestoneId t) :
    RunInv plan (some run) (runs.insert key run) := by
  refine ⟨?_,?_,?_⟩
  · intro k r hk
    by_cases hkk : k = key
    · rw [hkk,lookup_insert] at hk
      cases hk
      rw [hid,hkk]
    · rw [lookup_insert_ne hkk] at hk
      exact h.keyed k r hk
  · intro k r hk
    by_cases hkk : k = key
    · rw [hkk,lookup_insert] at hk
      exact Option.some.inj hk ▸ hcursor
    · rw [lookup_insert_ne hkk] at hk
      exact h.cursor k r hk
  · rintro r ⟨⟩
    rw [hid,lookup_insert]

theorem Rewrites.eq {active : MilestoneRun}
    (h : Rewrites plan d active run) (hd : RunInv plan d.activeMilestoneRun d.milestoneRuns) :
    run.milestoneRunId = active.milestoneRunId ∧ run.milestoneId = active.milestoneId := by
  have hrecord : runRecord d active = active := Dict.get_of_lookup (hd.stored active h.current) active
  rw [h.id,h.milestone,hrecord]
  exact ⟨rfl,rfl⟩

def Label.CursorSafe (plan : ProjectPlan) (d : ExecutionDocument) : Label → Prop
  | .settle task _ status => status ≠ .completed → ∀ r, liveRun d = some r →
      InMilestone plan r.milestoneId task.taskId
  | .reopen taskId => ∀ r, d.activeMilestoneRun = some r → InMilestone plan r.milestoneId taskId
  | _ => True

theorem RunChange.runInv (h : RunChange plan d l active runs)
    (hl : l.CursorSafe plan d) (hd : RunInv plan d.activeMilestoneRun d.milestoneRuns) :
    RunInv plan active runs := by
  cases h with
  | kept hidle => exact hd
  | @settled task attempt status active run hlive hrw hcursor hnext hreview hblocked =>
    obtain ⟨hid,hmilestone⟩ := hrw.eq hd
    refine hd.insert hid fun t ht => ?_
    rw [hmilestone]
    by_cases hstatus : status = .completed
    · exact hnext hstatus t ht
    · have hliverun : liveRun d = some active := by
        simp [liveRun,hrw.current,filter_some,hlive]
      obtain rfl : task.taskId = t := some_unique (hcursor hstatus) ht
      exact hl hstatus active hliverun
  | approved active run hrw hnext hresumed =>
    obtain ⟨hid,hmilestone⟩ := hrw.eq hd
    refine hd.insert hid fun t ht => ?_
    rw [hmilestone]
    exact hnext t ht
  | reopened active run hrw hcursor hresumed =>
    obtain ⟨hid,hmilestone⟩ := hrw.eq hd
    refine hd.insert hid fun t ht => ?_
    rw [hmilestone]
    exact some_unique hcursor ht ▸ hl active hrw.current
  | begun runId run hid hnext hresumed => exact hd.insert hid hnext
  | stopped runId run stopped hstored hstatus hmilestone hid hcursor =>
    have hkey : stopped.milestoneRunId = runId := hid.trans (hd.keyed runId run hstored)
    have hnew : RunInv plan (some stopped) (d.milestoneRuns.insert runId stopped) := by
      refine hd.insert hkey fun t ht => ?_
      rw [hmilestone]
      exact hd.cursor runId run hstored t (hcursor ▸ ht)
    refine ⟨hnew.keyed,hnew.cursor,?_⟩
    intro r hr
    obtain ⟨old,hold,rfl⟩ := map_eq_some_iff.mp hr
    by_cases hold' : old.milestoneRunId = runId
    · rw [if_pos hold',hkey,lookup_insert]
    · rw [if_neg hold',lookup_insert_ne hold']
      exact hd.stored old hold

/-! ## Every run -/

/-- The calls that keep the cursor in its milestone: a result that does not complete its
task, and requested changes, are about a task of the milestone of the run. -/
structure CursorSafe (plan : ProjectPlan) (c : Call) (m : Memory) : Prop where
  site : c.site.plan = some plan
  results : ∀ task status, c.settles m = some (task,status) → status ≠ .completed →
    ∀ r, liveRun (documentOf m) = some r → InMilestone plan r.milestoneId task.taskId
  changes : ∀ p taskId reason, c.operation = .requestChanges p taskId reason →
    (documentOf m).taskStatuses.lookup taskId = some .review →
    ∀ r, (documentOf m).activeMilestoneRun = some r → InMilestone plan r.milestoneId taskId

theorem CursorSafe.keeps {c : Call} {m : Memory} (hc : CursorSafe plan c m)
    (hm : RunInv plan (documentOf m).activeMilestoneRun (documentOf m).milestoneRuns) :
    RunInv plan (documentOf (c.run m)).activeMilestoneRun (documentOf (c.run m)).milestoneRuns := by
  refine c.keeps (I := fun d => RunInv plan d.activeMilestoneRun d.milestoneRuns) hc.site ?_ ?_ hm
  · rintro d e (h | h) hd
    all_goals exact h.runChange.runInv trivial hd
  · intro l e hl h
    refine h.runChange.runInv ?_ hm
    cases l with
    | settle task attempt status => exact hc.results task status hl.1
    | reopen taskId =>
      obtain ⟨p,reason,hop⟩ := hl
      cases h with
      | reopen now _ hreview => exact hc.changes p taskId reason hop hreview
    | _ => trivial

/-- From an empty execution document, in every state of a run whose calls are safe, the
cursor of the active run is a task of the milestone of the run. -/
theorem run_cursor_in_milestone (plan : ProjectPlan) (m : Memory)
    (hm : documentOf m = Execution.empty.filled) (calls : List Call)
    (hsafe : AllCalls (CursorSafe plan) calls m) (before after : List Call)
    (hsplit : calls = before ++ after) (r : MilestoneRun) (taskId : String)
    (hr : (documentOf (runCalls before m)).activeMilestoneRun = some r)
    (ht : r.currentTaskId = some taskId) :
    ∃ t ∈ plan.tasks, t.taskId = taskId ∧ t.milestoneId = r.milestoneId := by
  have hstart : RunInv plan (documentOf m).activeMilestoneRun (documentOf m).milestoneRuns := by
    rw [hm]
    exact runInv_empty plan
  rw [hsplit,allCalls_append] at hsafe
  have hinv := runCalls_guarded (I := fun m => RunInv plan (documentOf m).activeMilestoneRun
    (documentOf m).milestoneRuns) (fun _ _ => CursorSafe.keeps) hsafe.1 hstart
  obtain ⟨t,hmem,hid⟩ := hinv.cursor _ r (hinv.stored r hr) taskId ht
  obtain ⟨hplan,hmilestone⟩ := mem_milestoneTasks.mp hmem
  exact ⟨t,hplan,hid,hmilestone⟩

/-- Two milestones with one task each. -/
def crossPlan : ProjectPlan := samplePlan [sampleTask "t1" "m1" .pending [],sampleTask "t2" "m2" .pending []]

def crossSite : Site := sampleSite crossPlan (by decide)

def beginFirst : List Call := [⟨sampleAmbient,crossSite,.beginMilestoneAuto "p1" (some "m1") (some "run1")⟩]

theorem run_cursor_in_milestone_begun :
    ∃ r, (documentOf (runCalls beginFirst none)).activeMilestoneRun = some r ∧
      r.currentTaskId = some "t1" ∧
      ∃ t ∈ crossPlan.tasks, t.taskId = "t1" ∧ t.milestoneId = r.milestoneId := by
  have hrun : (documentOf (runCalls beginFirst none)).activeMilestoneRun.map (·.currentTaskId) =
      some (some "t1") := by decide +kernel
  obtain ⟨r,hr,ht⟩ := map_eq_some_iff.mp hrun
  have hsafe : AllCalls (CursorSafe crossPlan) beginFirst none := by
    refine ⟨⟨rfl,?_,?_⟩,trivial⟩
    · intro task status h
      cases h
    · intro p taskId reason h
      cases h
  exact ⟨r,hr,ht,run_cursor_in_milestone crossPlan none rfl beginFirst hsafe beginFirst [] rfl r "t1" hr ht⟩

/-- The run of the first milestone, and a failed result for a task of the second. -/
def crossCalls : List Call :=
  beginFirst ++ [⟨sampleAmbient,crossSite,.persistBinding (sampleBinding "b2" "t2")⟩,
    ⟨sampleAmbient,crossSite,.recordResult "p1" (sampleResult "b2" "FAIL")⟩]

/-- The cursor of the run is the failed task, which belongs to another milestone. -/
theorem failed_result_moves_cursor :
    ∃ r, (documentOf (runCalls crossCalls none)).activeMilestoneRun = some r ∧
      r.currentTaskId = some "t2" ∧
      ¬ ∃ t ∈ crossPlan.tasks, t.taskId = "t2" ∧ t.milestoneId = r.milestoneId := by
  have hrun : (documentOf (runCalls crossCalls none)).activeMilestoneRun.map
      (fun r => (r.currentTaskId,r.milestoneId)) = some (some "t2","m1") := by decide +kernel
  obtain ⟨r,hr,hpair⟩ := map_eq_some_iff.mp hrun
  obtain ⟨ht,hm⟩ := Prod.mk.inj hpair
  refine ⟨r,hr,ht,?_⟩
  rw [hm]
  decide

end Bdb.Project
