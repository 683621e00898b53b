import Bdb.Scope.Confinement
import Bdb.Scope.GraphValidation

/-! # The head of the line

The first open task of a milestone is the only one that is ever served. When it waits, the
tasks behind it wait too, though nothing keeps them. Where every task is listed after its
dependencies, the first open task never waits, and no run waits for a dependency.
-/
namespace Bdb.Scope

open List

open Continuation (AutoScope ScopeCursor)

variable {plan : CanonicalPlanGraph} {cursor : ScopeCursor} {i j : TickInputs} {m n : PlanMilestoneNode}
  {t : PlanTaskNode} {projectId : String} {d : ScopeDecision} {inputs : List TickInputs} {taskIds : List String}

/-- A planned task of the milestone that is open. -/
structure Open (plan : CanonicalPlanGraph) (i : TickInputs) (m : PlanMilestoneNode) (t : PlanTaskNode) : Prop where
  listed : t.taskId ∈ m.taskIds
  task : plan.getTask t.taskId = some t
  unaccepted : i.accepted t.taskId = false

/-- An open task with accepted dependencies is served when there is one. -/
def ServesRunnable (plan : CanonicalPlanGraph) (m : PlanMilestoneNode) (i : TickInputs) : Prop :=
  (∃ t, Open plan i m t ∧ pendingDependencies i t = []) →
    ∃ t, Open plan i m t ∧ pendingDependencies i t = [] ∧
      resolveNextRunnableTask plan m.milestoneId i = ⟨some t.taskId,true,[]⟩

/-- Everything that is listed before the task is accepted or not planned. -/
def Leads (plan : CanonicalPlanGraph) (i : TickInputs) (m : PlanMilestoneNode) (t : PlanTaskNode) : Prop :=
  ∃ before after, m.taskIds = before ++ t.taskId :: after ∧
    ∀ id ∈ before, i.accepted id = true ∨ plan.getTask id = none

theorem candidate_leads (h : candidate plan i taskIds = some t) : ∃ before after,
    taskIds = before ++ t.taskId :: after ∧ ∀ id ∈ before, i.accepted id = true ∨ plan.getTask id = none := by
  obtain ⟨before,id,after,hsplit,hid,hbefore⟩ := List.findSome?_eq_some_iff.mp h
  split at hid
  · cases hid
  · rw [CanonicalPlanGraph.getTask_id hid]
    refine ⟨before,after,hsplit,fun v hv => ?_⟩
    have hskipped := hbefore v hv
    split at hskipped
    · rename_i haccepted
      exact .inl haccepted
    · exact .inr hskipped

theorem candidate_of_leads (hopen : Open plan i m t) (h : Leads plan i m t) :
    candidate plan i m.taskIds = some t := by
  obtain ⟨before,after,hsplit,hbefore⟩ := h
  unfold candidate
  rw [hsplit]
  refine List.findSome?_eq_some_iff.mpr ⟨before,t.taskId,after,rfl,?_,fun v hv => ?_⟩
  · rw [hopen.unaccepted]
    exact hopen.task
  · rcases hbefore v hv with haccepted | hnone
    · rw [if_pos haccepted]
    · rw [hnone,ite_self]

theorem open_of_candidate (h : candidate plan i m.taskIds = some t) : Open plan i m t ∧ Leads plan i m t := by
  obtain ⟨hlisted,hopen,htask⟩ := candidate_some h
  exact ⟨⟨hlisted,htask,hopen⟩,candidate_leads h⟩

theorem resolve_candidate (hknown : plan.getMilestone m.milestoneId = some m)
    (h : candidate plan i m.taskIds = some t) : resolveNextRunnableTask plan m.milestoneId i =
      ⟨some t.taskId,pendingDependencies i t = [],pendingDependencies i t⟩ := by
  unfold resolveNextRunnableTask
  rw [hknown]
  simp only [h]

/-- A milestone serves its runnable tasks exactly when its first open task does not wait
while another one could run. -/
theorem servesRunnable_iff (hknown : plan.getMilestone m.milestoneId = some m) : ServesRunnable plan m i ↔
    ∀ t u, Open plan i m t → Leads plan i m t → Open plan i m u → pendingDependencies i u = [] →
      pendingDependencies i t = [] := by
  constructor
  · intro h t u hopen hleads hu hready
    obtain ⟨v,-,-,hserved⟩ := h ⟨u,hu,hready⟩
    rw [resolve_candidate hknown (candidate_of_leads hopen hleads)] at hserved
    exact congrArg Runnable.pending hserved
  · rintro h ⟨u,hu,hready⟩
    cases hc : candidate plan i m.taskIds with
    | none =>
      have hskipped := List.findSome?_eq_none_iff.mp hc u.taskId hu.listed
      rw [hu.unaccepted,hu.task] at hskipped
      cases hskipped
    | some t =>
      obtain ⟨hopen,hleads⟩ := open_of_candidate hc
      have hpending := h t u hopen hleads hu hready
      refine ⟨t,hopen,hpending,?_⟩
      rw [resolve_candidate hknown hc,hpending]
      rfl

/-! ## Plans that list dependencies first -/

def listing (plan : CanonicalPlanGraph) : List String := plan.milestones.flatMap (·.taskIds)

/-- Tasks come after their dependencies, and milestones after theirs. -/
structure InOrder (plan : CanonicalPlanGraph) : Prop where
  tasks : ∀ k < (listing plan).length, ∀ t ∈ ((listing plan)[k]?).bind plan.getTask, ∀ dep ∈ t.dependencies,
    dep ∈ (listing plan).take k
  milestones : ∀ k < plan.milestones.length, ∀ m ∈ plan.milestones[k]?, ∀ dep ∈ m.dependencies,
    ∃ n ∈ plan.milestones.take k, n.milestoneId = dep

/-- The milestones before the cursor are done. -/
def Behind (plan : CanonicalPlanGraph) (i : TickInputs) (k : ℕ) : Prop :=
  ∀ n ∈ plan.milestones.take k, ∀ id ∈ n.taskIds, i.accepted id = true

theorem Behind.mono {k l : ℕ} (h : Behind plan i k) (hle : l ≤ k) : Behind plan i l :=
  fun n hn => h n (take_subset_take_left _ hle hn)

theorem Behind.grows {k : ℕ} (h : Behind plan i k) (hgrows : Grows i j) : Behind plan j k :=
  fun n hn id hid => hgrows.tasks id (h n hn id hid)

theorem leading_ready (hvalid : plan.validateGraph = none) (horder : InOrder plan) (hlocated : Located plan cursor i m)
    (hbehind : Behind plan i (position plan cursor)) (h : candidate plan i m.taskIds = some t) :
    pendingDependencies i t = [] := by
  obtain ⟨hopen,before,after,hsplit,hbefore⟩ := open_of_candidate h
  have hat := CanonicalPlanGraph.getElem_indexOf hlocated.known
  rw [position_located hlocated] at hbehind
  generalize plan.indexOf m.milestoneId = k at hat hbehind
  obtain ⟨hlt,hm⟩ := List.getElem?_eq_some_iff.mp hat
  have hlisting : listing plan = ((plan.milestones.take k).flatMap (·.taskIds) ++ before) ++
      t.taskId :: (after ++ (plan.milestones.drop (k + 1)).flatMap (·.taskIds)) := by
    unfold listing
    conv_lhs => rw [← take_append_drop k plan.milestones,drop_eq_getElem_cons hlt,hm]
    simp [hsplit]
  have hdeps := horder.tasks ((plan.milestones.take k).flatMap (·.taskIds) ++ before).length
    (by rw [hlisting]; simp) t (by rw [hlisting]; simpa using hopen.task)
  rw [hlisting,take_left] at hdeps
  refine pendingDependencies_nil.mpr fun dep hdep => ?_
  rcases mem_append.mp (hdeps dep hdep) with hearlier | hhere
  · obtain ⟨n,hn,hid⟩ := mem_flatMap.mp hearlier
    exact hbehind n hn dep hid
  · rcases hbefore dep hhere with haccepted | hnone
    · exact haccepted
    · obtain ⟨u,hu,hid⟩ := (CanonicalPlanGraph.validateGraph_none.mp hvalid).1.dependencies t
        (mem_of_find?_eq_some hopen.task) dep hdep
      have hmissing := List.find?_eq_none.mp hnone u hu
      simp [hid] at hmissing

/-! ## Runs -/

theorem waits_cases {s : ScopeInputSnapshot} (hscope : crossing s.currentScope = true)
    (h : (evaluateScopeTransition s).action = .waitDependencyPending) :
    ((given s.nextTaskInMilestoneId).isSome = true ∧ s.nextTaskDependenciesSatisfied = false) ∨
      ∃ id, AtCrossing s id ∧ s.nextMilestoneDependenciesSatisfied = false := by
  by_cases hclear : Clear s
  · rw [evaluate_of_clear hclear] at h
    split at h
    · unfold evaluateInProgress at h
      split_ifs at h
    · rename_i hidle
      rw [evaluateBoundary_crossing hscope] at h
      unfold evaluateProject at h
      split at h
      · rename_i taskId hnext
        unfold launchNext at h
        split_ifs at h with hdeps
        · exact .inl ⟨by rw [hnext]; rfl,hdeps⟩
      · rename_i hnone
        split_ifs at h with htasks hgate
        · split at h
          · rename_i id hid
            unfold crossMilestone at h
            split_ifs at h with hdeps
            · exact .inr ⟨id,⟨by simpa using hidle,hscope,hnone,htasks,not_not.mp hgate,hid⟩,hdeps⟩
          · cases h
        · cases h
  · -- the guards before the boundary do not wait for dependencies
    unfold evaluateScopeTransition at h
    split_ifs at h with hstop hplan hdone hmanual hpolicy hci hbackoff
    all_goals first
      | cases h
      | exact absurd ⟨by simpa using hstop,by simpa using hplan,hdone,hmanual,hpolicy,by simpa using hci,
          by simpa using hbackoff⟩ hclear

theorem behind_next (hlocated : Located plan cursor i m) (hbehind : Behind plan i (position plan cursor))
    (h : allTasksAccepted i m = true) : Behind plan i (position plan cursor + 1) := by
  rw [position_located hlocated] at hbehind ⊢
  intro n hn id hid
  rw [take_add_one,CanonicalPlanGraph.getElem_indexOf hlocated.known] at hn
  rcases mem_append.mp hn with hn | hn
  · exact hbehind n hn id hid
  · obtain rfl := mem_singleton.mp hn
    exact all_eq_true.mp (Bool.and_eq_true_iff.mp h).2 id hid

/-- In a plan in order, no located tick waits for a dependency. -/
theorem never_waits (hvalid : plan.validateGraph = none) (horder : InOrder plan)
    (hscope : crossing cursor.scope = true) (hbehind : Behind plan i (position plan cursor)) :
    (tick projectId plan cursor i).1.action ≠ .waitDependencyPending := by
  intro h
  cases hlocate : locate plan cursor i with
  | error e =>
    have hhalts : (tick projectId plan cursor i).1.action = .haltBlocked := by
      unfold tick
      rw [hlocate]
      unfold locate at hlocate
      rw [hvalid] at hlocate
      dsimp only at hlocate
      split at hlocate
      · cases hlocate
        rfl
      · split at hlocate
        · cases hlocate
          rfl
        · cases hlocate
    rw [hhalts] at h
    cases h
  | ok m =>
    have hlocated := locate_ok.mp hlocate
    rw [tick_of_located hlocated] at h
    rcases waits_cases hscope h with ⟨hnext,hdeps⟩ | ⟨id,hat,hdeps⟩
    · have htask := @resolve_taskId plan i m hlocated.known
      change (given (resolveNextRunnableTask plan m.milestoneId i).taskId).isSome = true at hnext
      change (resolveNextRunnableTask plan m.milestoneId i).dependenciesSatisfied = false at hdeps
      cases hc : candidate plan i m.taskIds with
      | none =>
        rw [htask,hc] at hnext
        cases hnext
      | some t =>
        rw [resolve_candidate hlocated.known hc,leading_ready hvalid horder hlocated hbehind hc] at hdeps
        cases hdeps
    · obtain ⟨n,hn,-⟩ := nextMilestone_of_id hat.next
      change ((nextMilestone plan m).map fun n => n.dependencies.all i.gateAccepted).getD true = false at hdeps
      rw [hn] at hdeps
      obtain ⟨dep,hdep,hopen⟩ := all_eq_false.mp hdeps
      obtain ⟨hgiven,hknown⟩ := nextMilestone_some hn
      obtain ⟨n',hn',hid⟩ := Option.map_eq_some_iff.mp (given_eq_some.mp hgiven).1
      have hindex := CanonicalPlanGraph.indexOf_le hn'
      rw [hid] at hindex
      have helem := CanonicalPlanGraph.getElem_indexOf hknown
      obtain ⟨hlt,-⟩ := List.getElem?_eq_some_iff.mp helem
      obtain ⟨p,hp,rfl⟩ := horder.milestones _ hlt n helem dep hdep
      refine hopen ?_
      have hmem := take_subset_take_left plan.milestones hindex hp
      rw [take_add_one,CanonicalPlanGraph.getElem_indexOf hlocated.known] at hmem
      rcases mem_append.mp hmem with hbefore | hhere
      · exact hlocated.before p hbefore
      · obtain rfl := mem_singleton.mp hhere
        exact gateAccepted_iff.mp (Option.some.inj hat.gate)

theorem behind_commit (hbehind : Behind plan i (position plan cursor)) :
    Behind plan i (position plan (commitTick projectId plan cursor i)) := by
  cases ticked projectId plan cursor i with
  | refused _ hcursor =>
    rw [hcursor]
    exact hbehind
  | @located m hlocated hdecided hcursor =>
    have hcrossed : ∀ id, AtCrossing (snapshot plan cursor i m) id →
        (tick projectId plan cursor i).1.selectedMilestoneId = some id →
        Behind plan i (position plan (commitTick projectId plan cursor i)) := by
      intro id hat hselected
      obtain ⟨hid,hne⟩ := given_eq_some.mp hat.next
      obtain ⟨n,hn,rfl⟩ := Option.map_eq_some_iff.mp hid
      refine (behind_next hlocated hbehind hat.tasks).mono ?_
      rw [hcursor,position_of_some (orElse_given hselected hne) hne,position_located hlocated]
      exact CanonicalPlanGraph.indexOf_le hn
    cases hdecided with
    | launched haction hclear hlaunched hlive =>
      cases hlaunched with
      | inProgress _ _ hmilestone => exact position_kept hlocated hcursor (.inr hmilestone) ▸ hbehind
      | next _ _ _ _ _ hmilestone => exact position_kept hlocated hcursor (.inr hmilestone) ▸ hbehind
      | crossed hat _ _ hmilestone => exact hcrossed _ hat hmilestone
    | moved _ hat _ hmilestone => exact hcrossed _ hat hmilestone
    | stayed _ hmilestone => exact position_kept hlocated hcursor hmilestone ▸ hbehind

theorem run_never_waits (hvalid : plan.validateGraph = none) (horder : InOrder plan)
    (hscope : crossing cursor.scope = true) (hgrows : inputs.Pairwise Grows)
    (hbehind : ∀ i ∈ inputs, Behind plan i (position plan cursor)) :
    ∀ d ∈ decisions projectId plan cursor inputs, d.action ≠ .waitDependencyPending := by
  induction inputs generalizing cursor with
  | nil => exact fun _ h => absurd h not_mem_nil
  | cons i rest ih =>
    obtain ⟨hlater,hrest⟩ := pairwise_cons.mp hgrows
    intro d hd
    rcases mem_cons.mp hd with rfl | hd
    · exact never_waits hvalid horder hscope (hbehind i mem_cons_self)
    · refine ih (by rw [commit_scope]; exact hscope) hrest (fun j hj => ?_) d hd
      exact (behind_commit (hbehind i mem_cons_self)).grows (hlater j hj)

/-- A milestone never leaves a runnable task behind a waiting one exactly when its first open
task does not wait while another one could run; and no PROJECT run over a plan in order waits
for a dependency. -/
theorem no_head_of_line_deadlock_iff (plan : CanonicalPlanGraph) (hvalid : plan.validateGraph = none) :
    (∀ m i, plan.getMilestone m.milestoneId = some m → (ServesRunnable plan m i ↔
      ∀ t u, Open plan i m t → Leads plan i m t → Open plan i m u → pendingDependencies i u = [] →
        pendingDependencies i t = [])) ∧
      (InOrder plan → ∀ (projectId runId : String) (inputs : List TickInputs), inputs.Pairwise Grows →
        ∀ d ∈ decisions projectId plan (getOrCreateCursor none projectId runId .project plan.planIdentity
          plan.planVersion true) inputs, d.action ≠ .waitDependencyPending) := by
  refine ⟨fun m i hknown => servesRunnable_iff hknown,fun horder projectId runId inputs hgrows => ?_⟩
  refine run_never_waits hvalid horder rfl hgrows fun i _ n hn => ?_
  -- the run starts at the first milestone, or nowhere
  have hstart : position plan (getOrCreateCursor none projectId runId .project plan.planIdentity
      plan.planVersion true) = 0 ∨ plan.milestones = [] := by
    unfold position currentMilestoneId CanonicalPlanGraph.indexOf
    cases hm : plan.milestones with
    | nil => exact .inr rfl
    | cons m rest => exact .inl (by simp [getOrCreateCursor,orElse,given,findIdx_cons])
  rcases hstart with hzero | hnone
  · rw [hzero] at hn
    cases hn
  · rw [hnone,take_nil] at hn
    cases hn

/-- The second milestone lists a task before the one that it waits for. -/
theorem waiting_head_blocks : ¬ ∀ (plan : CanonicalPlanGraph) (m : PlanMilestoneNode) (i : TickInputs),
    plan.validateGraph = none → plan.getMilestone m.milestoneId = some m → ServesRunnable plan m i := by
  intro h
  have hserves := h samplePlan ⟨"m2","GATE:m2",[],["t2","t3"]⟩ (sampleInputs ["t1"] []) (by decide +kernel) (by decide)
  obtain ⟨t,-,hready,hserved⟩ := hserves ⟨sampleTask "t3" "m2" [],⟨by decide,by decide,by decide⟩,by decide⟩
  cases (congrArg Runnable.dependenciesSatisfied hserved)

def servedPlan : CanonicalPlanGraph where
  planIdentity := "plan:v1"
  planVersion := 1
  milestones := [⟨"m1","GATE:m1",[],["t1"]⟩,⟨"m2","GATE:m2",["m1"],["t3","t2"]⟩]
  tasks := [sampleTask "t1" "m1" [],sampleTask "t2" "m2" ["t3"],sampleTask "t3" "m2" []]

theorem no_head_of_line_deadlock_served : servedPlan.validateGraph = none ∧ ∀ d ∈ decisions "p1" servedPlan
    (getOrCreateCursor none "p1" "run-1" .project servedPlan.planIdentity servedPlan.planVersion true)
    [sampleInputs ["t1"] ["m1"]], d.action ≠ .waitDependencyPending :=
  ⟨by decide +kernel,(no_head_of_line_deadlock_iff servedPlan (by decide +kernel)).2 ⟨by decide,by decide⟩ "p1" "run-1" _
    (pairwise_singleton _ _)⟩

end Bdb.Scope
