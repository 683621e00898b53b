import Bdb.Project.Calls

/-! # Completed milestones

The set of completed milestones is recomputed when a result is recorded and nowhere
else. It stays the set of milestones whose tasks are all done as long as no approval
closes a milestone and no launch reopens one.
-/
namespace Bdb.Project
open Program List

def MilestonesExact (plan : ProjectPlan) (d : ExecutionDocument) : Prop :=
  ∀ m, m ∈ d.milestonesCompleted ↔
    m ∈ plan.milestones.map (·.milestoneId) ∧ milestoneDone plan d m = true

variable {plan : ProjectPlan} {d e : ExecutionDocument} {m : String} {l : Label}

theorem milestoneDone_iff : milestoneDone plan d m = true ↔ plan.milestoneTasks m ≠ [] ∧
      ∀ t ∈ plan.milestoneTasks m, (effectiveStatus d t).done = true := by
  simp [milestoneDone]

theorem milestoneDone_insert {k : String} {v : TaskStatus} (h : e.taskStatuses = d.taskStatuses.insert k v) :
    milestoneDone plan e m = true ↔ plan.milestoneTasks m ≠ [] ∧ ∀ t ∈ plan.milestoneTasks m,
      (if t.taskId = k then v else effectiveStatus d t).done = true := by
  simp only [milestoneDone_iff,effectiveStatus_insert h]

theorem MilestonesExact.congr (hd : MilestonesExact plan d)
    (hlist : e.milestonesCompleted = d.milestonesCompleted)
    (hdone : ∀ m, milestoneDone plan e m = true ↔ milestoneDone plan d m = true) :
    MilestonesExact plan e := by
  intro m
  rw [hlist,hdone m]
  exact hd m

theorem MilestonesExact.of_statuses
    (hd : MilestonesExact plan d) (hlist : e.milestonesCompleted = d.milestonesCompleted)
    (hstatuses : e.taskStatuses = d.taskStatuses) : MilestonesExact plan e := by
  refine hd.congr hlist fun m => ?_
  simp only [milestoneDone_iff,effectiveStatus,hstatuses]

theorem milestoneDone_insert_open {k : String}
    {v : TaskStatus} (h : e.taskStatuses = d.taskStatuses.insert k v)
    (hbefore : ∀ t ∈ plan.tasks, t.taskId = k → milestoneDone plan d t.milestoneId = false)
    (hafter : ∀ t ∈ plan.tasks, t.taskId = k → milestoneDone plan e t.milestoneId = false) (m : String) :
    milestoneDone plan e m = true ↔ milestoneDone plan d m = true := by
  by_cases hk : ∃ t ∈ plan.milestoneTasks m, t.taskId = k
  · obtain ⟨t,ht,hid⟩ := hk
    obtain ⟨hmem,rfl⟩ := mem_milestoneTasks.mp ht
    rw [hbefore t hmem hid,hafter t hmem hid]
  · rw [milestoneDone_insert h,milestoneDone_iff]
    refine and_congr_right fun _ => forall₂_congr fun t ht => ?_
    have hne : t.taskId ≠ k := fun hid => hk ⟨t,ht,hid⟩
    rw [if_neg hne]

theorem milestoneDone_false_of_task {t : ProjectTask}
    (ht : t ∈ plan.tasks) (hopen : (effectiveStatus d t).done = false) :
    milestoneDone plan d t.milestoneId = false := by
  by_contra hdone
  have hall := (milestoneDone_iff.mp (by simpa using hdone)).2 t (mem_milestoneTasks.mpr ⟨ht,rfl⟩)
  rw [hopen] at hall
  cases hall

/-! ## Recording a result -/

theorem mem_newlyCompleted : m ∈ newlyCompleted plan d ↔ (m ∈ plan.milestones.map (·.milestoneId) ∧
      milestoneDone plan d m = true) ∧ m ∉ d.milestonesCompleted := by
  simp only [newlyCompleted,mem_eraseDups,mem_filter,Bool.and_eq_true,decide_eq_true_eq,
    and_assoc]

theorem mem_withMilestones : m ∈ (withMilestones plan d).milestonesCompleted ↔ m ∈ d.milestonesCompleted ∨
      (m ∈ plan.milestones.map (·.milestoneId) ∧ milestoneDone plan d m = true) := by
  have hperm : m ∈ (withMilestones plan d).milestonesCompleted ↔
      m ∈ d.milestonesCompleted.eraseDups ++ newlyCompleted plan d :=
    (perm_insertionSort _ _).mem_iff
  rw [hperm,mem_append,mem_eraseDups,mem_newlyCompleted]
  by_cases hm : m ∈ d.milestonesCompleted <;> simp [hm]

/-! ## Stored statuses -/

/-- A stored status is never skipped, and every launched task has one. -/
structure StoredInv (d : ExecutionDocument) : Prop where
  statuses : ∀ k s, d.taskStatuses.lookup k = some s → s ≠ .skipped
  launched : ∀ b ∈ d.bindings, ∃ s, d.taskStatuses.lookup (strip b.taskId) = some s

theorem storedInv_empty : StoredInv Execution.empty.filled :=
  ⟨fun k s h => by simp [Execution.filled,Execution.empty] at h,fun _ h => absurd h not_mem_nil⟩

theorem Change.binding_from (h : Change plan l d e) {b : ProjectExecutionBinding} (hb : b ∈ e.bindings) :
    (∃ a ∈ d.bindings, strip b.taskId = strip a.taskId) ∨ l = .launch b.taskId := by
  cases h with
  | launch now binding task =>
    rcases mem_append.mp hb with hb | hb
    · obtain ⟨a,ha,rfl⟩ := mem_map.mp hb
      refine .inl ⟨a,ha,?_⟩
      split <;> rfl
    · obtain rfl := mem_singleton.mp hb
      exact .inr rfl
  | conversation raw bound hstored hsame =>
    obtain ⟨a,ha,rfl⟩ := mem_map.mp hb
    split
    · refine .inl ⟨raw,(binding?_some hstored).1,?_⟩
      rw [hsame.task,strip_strip]
    · exact .inl ⟨a,ha,rfl⟩
  | settle now raw task attempt acceptance status hs =>
    have hb' : b ∈ (settled now raw.executionBindingId attempt acceptance task.taskId status d).bindings :=
      (advanced_bindings now plan task.taskId status _) ▸ hb
    have hkept : List.Forall₂ (fun a b : ProjectExecutionBinding => b.taskId = a.taskId) d.bindings
        (settled now raw.executionBindingId attempt acceptance task.taskId status d).bindings :=
      forall₂_updateFirst (fun _ _ => rfl) fun _ _ => rfl
    obtain ⟨a,ha,hab⟩ := exists_of_forall₂_right hkept hb'
    exact .inl ⟨a,ha,congrArg strip hab⟩
  | approve now taskId =>
    rw [approved_bindings] at hb
    exact .inl ⟨b,hb,rfl⟩
  | reopen now taskId =>
    rw [changesRequested_bindings] at hb
    exact .inl ⟨b,hb,rfl⟩
  | _ => exact .inl ⟨b,hb,rfl⟩

theorem Change.statuses (h : Change plan l d e) : e.taskStatuses = d.taskStatuses ∨
      ∃ k v, e.taskStatuses = d.taskStatuses.insert k v ∧ v ≠ .skipped := by
  cases h with
  | launch now binding task =>
    change d.taskStatuses.setdefault binding.taskId .active = _ ∨ ∃ k v,
      d.taskStatuses.setdefault binding.taskId .active = _ ∧ _
    unfold Dict.setdefault
    split
    · exact .inl rfl
    · exact .inr ⟨_,_,rfl,nofun⟩
  | settle now raw task attempt acceptance status hs =>
    refine .inr ⟨task.taskId,status,advanced_taskStatuses _ _ _ _ _,?_⟩
    have hreached := hs.reached
    rintro rfl
    simp at hreached
  | approve now taskId => exact .inr ⟨taskId,.completed,approved_taskStatuses _ _ _ _,nofun⟩
  | reopen now taskId => exact .inr ⟨taskId,.active,changesRequested_taskStatuses _ _ _,nofun⟩
  | _ => exact .inl rfl

theorem Change.storedInv (h : Change plan l d e) (hw : plan.WellFormed) (hd : StoredInv d) : StoredInv e := by
  have hkept : ∀ k s, d.taskStatuses.lookup k = some s → ∃ s', e.taskStatuses.lookup k = some s' := by
    intro k s hk
    rcases h.statuses with heq | ⟨k',v,heq,-⟩
    · exact ⟨s,heq ▸ hk⟩
    · rw [heq]
      by_cases hkk : k = k'
      · exact ⟨v,hkk ▸ AList.lookup_insert _⟩
      · exact ⟨s,(AList.lookup_insert_ne hkk).trans hk⟩
  refine ⟨?_,?_⟩
  · intro k s hk
    rcases h.statuses with heq | ⟨k',v,heq,hv⟩
    · exact hd.statuses k s (heq ▸ hk)
    · rw [heq] at hk
      by_cases hkk : k = k'
      · rw [hkk,AList.lookup_insert] at hk
        exact Option.some.inj hk ▸ hv
      · rw [AList.lookup_insert_ne hkk] at hk
        exact hd.statuses k s hk
  · intro b hb
    rcases h.binding_from hb with ⟨a,ha,hab⟩ | hl
    · obtain ⟨s,hs⟩ := hd.launched a ha
      exact hab ▸ hkept _ s hs
    · cases h with
      | launch now binding task hversion hknown hnew hready =>
        obtain ⟨hmem,hid⟩ := task?_some hknown
        have htask : b.taskId = binding.taskId := by injection hl with hl; exact hl.symm
        have htrim : strip b.taskId = binding.taskId := by
          rw [htask,← hid]
          exact strip_of_matchesId (hw.taskIds task hmem)
        refine ⟨d.taskStatuses.get binding.taskId .active,?_⟩
        change (d.taskStatuses.setdefault binding.taskId .active).lookup (strip b.taskId) = _
        rw [htrim,Dict.lookup_setdefault,if_pos rfl]
      | _ => cases hl

/-! ## Every change -/

/-- An approval of the last open task of its milestone. -/
def ClosesMilestone (plan : ProjectPlan) (d : ExecutionDocument) (taskId : String) : Prop :=
  d.taskStatuses.lookup taskId = some .review ∧ ∃ task ∈ plan.tasks, task.taskId = taskId ∧
    ∀ other ∈ plan.milestoneTasks task.milestoneId, other.taskId ≠ taskId →
      (effectiveStatus d other).done = true

def ReopensMilestone (plan : ProjectPlan) (d : ExecutionDocument) (taskId : String) : Prop :=
  d.taskStatuses.lookup taskId = none ∧ ∃ task ∈ plan.tasks, task.taskId = taskId ∧
    milestoneDone plan d task.milestoneId = true

/-- The changes that leave the set of completed milestones right. -/
def Label.MilestoneSafe (plan : ProjectPlan) (d : ExecutionDocument) : Label → Prop
  | .launch taskId => ¬ ReopensMilestone plan d taskId
  | .approve taskId => ¬ ClosesMilestone plan d taskId
  | _ => True

theorem MilestonesExact.settled (hd : MilestonesExact plan d)
    (hw : plan.WellFormed) (hi : StoredInv d) {now : String} {raw : ProjectExecutionBinding}
    {task : ProjectTask} {attempt : AttemptDocument} {acceptance : TaskAcceptanceResult}
    {status : TaskStatus} (hs : Settles plan d raw task attempt acceptance status) :
    MilestonesExact plan (withMilestones plan (advanced now plan task.taskId status
      (settled now raw.executionBindingId attempt acceptance task.taskId status d))) := by
  obtain ⟨hmem,hid⟩ := task?_some hs.known
  -- a launched task has a stored status, so being done means being completed
  have hkeeps : (effectiveStatus d task).done = true → status.done = true := by
    intro hdone
    obtain ⟨s,hstored⟩ := hi.launched raw (binding?_some hs.stored).1
    rw [← hid] at hstored
    have hne := hi.statuses _ s hstored
    rw [effectiveStatus_of_lookup hstored] at hdone
    have hcompleted : s = .completed := by cases s <;> simp_all [TaskStatus.done]
    rw [hs.kept ((effectiveStatus_of_lookup hstored).trans hcompleted)]
    rfl
  intro m
  have hstatuses := advanced_taskStatuses now plan task.taskId status
    (Project.settled now raw.executionBindingId attempt acceptance task.taskId status d)
  change m ∈ (withMilestones plan _).milestonesCompleted ↔ _ ∧ milestoneDone plan (advanced _ _ _ _ _) m = true
  rw [mem_withMilestones,advanced_milestonesCompleted]
  change m ∈ d.milestonesCompleted ∨ _ ↔ _
  rw [hd m]
  refine or_iff_right_of_imp fun ⟨hplan,hdone⟩ => ⟨hplan,?_⟩
  rw [milestoneDone_insert hstatuses]
  obtain ⟨hne,hall⟩ := milestoneDone_iff.mp hdone
  refine ⟨hne,fun t ht => ?_⟩
  split
  · rename_i hk
    obtain rfl : t = task := inj_on_of_nodup_map hw.tasksNodup (mem_milestoneTasks.mp ht).1 hmem hk
    exact hkeeps (hall t ht)
  · exact hall t ht

theorem Change.milestonesExact
    (h : Change plan l d e) (hw : plan.WellFormed) (hl : l.MilestoneSafe plan d) (hi : StoredInv d)
    (hd : MilestonesExact plan d) : MilestonesExact plan e := by
  -- a stored review means that the milestone of the task is not done
  have hreview : ∀ {k : String}, d.taskStatuses.lookup k = some .review → ∀ t ∈ plan.tasks,
      t.taskId = k → milestoneDone plan d t.milestoneId = false := by
    intro k hk t ht hid
    refine milestoneDone_false_of_task ht ?_
    rw [effectiveStatus_of_lookup (hid ▸ hk)]
    rfl
  cases h with
  | launch now binding task hversion hknown hnew hready =>
    cases hk : d.taskStatuses.lookup binding.taskId with
    | some s =>
      refine hd.of_statuses rfl ?_
      change d.taskStatuses.setdefault binding.taskId .active = _
      rw [Dict.setdefault,hk]
      rfl
    | none =>
      have hinsert : (launched now binding d).taskStatuses =
          d.taskStatuses.insert binding.taskId .active := by
        change d.taskStatuses.setdefault binding.taskId .active = _
        rw [Dict.setdefault,hk]
        rfl
      refine hd.congr rfl (milestoneDone_insert_open hinsert ?_ ?_)
      · intro t ht hid
        by_contra hdone
        exact hl ⟨hk,t,ht,hid,by simpa using hdone⟩
      · intro t ht hid
        refine milestoneDone_false_of_task ht ?_
        rw [effectiveStatus_insert hinsert,if_pos hid]
        rfl
  | settle now raw task attempt acceptance status hs => exact hd.settled hw hi hs
  | approve now taskId acceptance hk hlast hoverall =>
    have hinsert := approved_taskStatuses now plan taskId d
    refine hd.congr (approved_milestonesCompleted _ _ _ _) (milestoneDone_insert_open hinsert (hreview hk) ?_)
    intro t ht hid
    by_contra hdone
    refine hl ⟨hk,t,ht,hid,fun other hother hne => ?_⟩
    have hall := ((milestoneDone_insert hinsert).mp (by simpa using hdone)).2 other hother
    rwa [if_neg hne] at hall
  | reopen now taskId hk =>
    have hinsert := changesRequested_taskStatuses now taskId d
    refine hd.congr (changesRequested_milestonesCompleted _ _ _)
      (milestoneDone_insert_open hinsert (hreview hk) ?_)
    intro t ht hid
    refine milestoneDone_false_of_task ht ?_
    rw [effectiveStatus_insert hinsert,if_pos hid]
    rfl
  | _ => exact hd.of_statuses rfl rfl

/-! ## Every run -/

/-- The calls of a run that leave the set right: under the plan, no approval of the
last open task of a milestone and no first launch into a milestone that is done. -/
structure MilestoneSafe (plan : ProjectPlan) (c : Call) (m : Memory) : Prop where
  site : c.site.plan = some plan
  approvals : ∀ p taskId reason, c.operation = .approveReview p taskId reason →
    ¬ ClosesMilestone plan (documentOf m) taskId
  launches : ∀ taskId, c.launches m = some taskId → ¬ ReopensMilestone plan (documentOf m) taskId

theorem MilestoneSafe.keeps {c : Call} {m : Memory} (hc : MilestoneSafe plan c m)
    (hm : StoredInv (documentOf m) ∧ MilestonesExact plan (documentOf m)) :
    StoredInv (documentOf (c.run m)) ∧ MilestonesExact plan (documentOf (c.run m)) := by
  have hw := c.site.planWellFormed plan hc.site
  refine c.keeps (I := fun d => StoredInv d ∧ MilestonesExact plan d) hc.site ?_ ?_ hm
  · rintro d e (h | h) ⟨hi,hd⟩
    all_goals exact ⟨h.storedInv hw hi,h.milestonesExact hw trivial hi hd⟩
  · intro l e hl h
    refine ⟨h.storedInv hw hm.1,h.milestonesExact hw ?_ hm.1 hm.2⟩
    cases l with
    | launch taskId => exact hc.launches taskId hl
    | approve taskId =>
      obtain ⟨p,reason,hop⟩ := hl
      exact hc.approvals p taskId reason hop
    | _ => trivial

/-- From an empty execution document, in every state of a run whose calls are safe, the
stored set lists exactly the milestones that are done, unless the plan itself starts
with one that is. -/
theorem milestones_exact_in_safe_runs (plan : ProjectPlan) (m : Memory)
    (hm : documentOf m = Execution.empty.filled)
    (hopen : ∀ x ∈ plan.milestones, milestoneDone plan Execution.empty.filled x.milestoneId = false)
    (calls : List Call) (hsafe : AllCalls (MilestoneSafe plan) calls m) (before after : List Call)
    (hsplit : calls = before ++ after) : MilestonesExact plan (documentOf (runCalls before m)) := by
  have hstart : StoredInv (documentOf m) ∧ MilestonesExact plan (documentOf m) := by
    rw [hm]
    refine ⟨storedInv_empty,fun x => ?_⟩
    constructor
    · intro hx
      exact absurd hx not_mem_nil
    · rintro ⟨hx,hdone⟩
      obtain ⟨y,hy,rfl⟩ := mem_map.mp hx
      rw [hopen y hy] at hdone
      cases hdone
  rw [hsplit,allCalls_append] at hsafe
  exact (runCalls_guarded (fun _ _ => MilestoneSafe.keeps) hsafe.1 hstart).2

/-- A task that is done when its result passes. -/
def plainSite : Site := sampleSite (samplePlan [sampleTask "t1" "m1" .pending []]) oneTask_wellFormed

def plainCalls : List Call :=
  [⟨sampleAmbient,plainSite,.persistBinding (sampleBinding "b1" "t1")⟩,
    ⟨sampleAmbient,plainSite,.recordResult "p1" (sampleResult "b1" "PASS")⟩]

theorem milestones_exact_in_safe_runs_plain :
    AllCalls (MilestoneSafe (samplePlan [sampleTask "t1" "m1" .pending []])) plainCalls none ∧
      MilestonesExact (samplePlan [sampleTask "t1" "m1" .pending []])
        (documentOf (runCalls plainCalls none)) := by
  have hopen : ∀ t ∈ (samplePlan [sampleTask "t1" "m1" .pending []]).tasks,
      milestoneDone (samplePlan [sampleTask "t1" "m1" .pending []]) (documentOf none) t.milestoneId =
        false := by decide
  have hsafe : AllCalls (MilestoneSafe (samplePlan [sampleTask "t1" "m1" .pending []])) plainCalls none := by
    refine ⟨⟨rfl,nofun,?_⟩,⟨rfl,nofun,nofun⟩,trivial⟩
    rintro taskId - ⟨-,task,hmem,-,hdone⟩
    rw [hopen task hmem] at hdone
    cases hdone
  exact ⟨hsafe,milestones_exact_in_safe_runs _ none rfl (by decide) plainCalls hsafe plainCalls [] rfl⟩

def reviewPlan : ProjectPlan := samplePlan [sampleTask "t1" "m1" .pending ["manual: look"]]

def reviewCalls : List Call :=
  let site := sampleSite reviewPlan (by decide)
  [⟨sampleAmbient,site,.persistBinding (sampleBinding "b1" "t1")⟩,
    ⟨sampleAmbient,site,.recordResult "p1" (sampleResult "b1" "PASS")⟩,
    ⟨sampleAmbient,site,.approveReview "p1" "t1" "ok"⟩]

/-- The approval completes the only task of its milestone, which is not recorded. -/
theorem approval_misses_milestone :
    ¬ MilestonesExact reviewPlan (documentOf (runCalls reviewCalls none)) := by
  have hrun : (documentOf (runCalls reviewCalls none)).milestonesCompleted = [] ∧
      milestoneDone reviewPlan (documentOf (runCalls reviewCalls none)) "m1" = true := by decide +kernel
  intro h
  have hmem := (h "m1").mpr ⟨by decide,hrun.2⟩
  rw [hrun.1] at hmem
  exact absurd hmem not_mem_nil

end Bdb.Project
