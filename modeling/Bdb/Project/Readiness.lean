import Bdb.Project.PlanDiffs

/-! # A validated plan always has a next task

The reader walks the dependencies in depth and so leaves a list in which every task
stands before the tasks it needs. The last unfinished task of that list can be started
as soon as no gate, question, review or blocker stands in the way.
-/
namespace Bdb.Project

open List

/-! ## Dependency order -/

section Order
variable {α : Type} {graph : α → List α}

/-- Every member stands before all it leads to. -/
def DependencyOrder (graph : α → List α) : List α → Prop
  | [] => True
  | a :: rest => (∀ b ∈ graph a, b ∈ rest) ∧ DependencyOrder graph rest

theorem DependencyOrder.exists_last {order : List α} (h : DependencyOrder graph order) {p : α → Prop}
    (hp : ∃ a ∈ order, p a) : ∃ a ∈ order, p a ∧ ∀ b ∈ graph a, ¬ p b := by
  induction order with
  | nil => simp at hp
  | cons a rest ih =>
    by_cases hrest : ∃ b ∈ rest, p b
    · obtain ⟨b,hb,hlast⟩ := ih h.2 hrest
      exact ⟨b,mem_cons_of_mem a hb,hlast⟩
    · obtain ⟨b,hb,hpb⟩ := hp
      rcases mem_cons.mp hb with rfl | hb
      · exact ⟨b,mem_cons_self,hpb,fun c hc hpc => hrest ⟨c,h.1 c hc,hpc⟩⟩
      · exact absurd ⟨b,hb,hpb⟩ hrest

end Order

variable {graph : String → List String} {i : String} {p plan : ProjectPlan} {d : ExecutionDocument}

theorem foldlM_order {step : List String → String → Outcome (List String)}
    (hstep : ∀ {visited i after}, DependencyOrder graph visited → step visited i = .ok after →
      DependencyOrder graph after ∧ i ∈ after ∧ visited ⊆ after)
    {ids visited after : List String} (hvisited : DependencyOrder graph visited)
    (h : ids.foldlM step visited = .ok after) :
    DependencyOrder graph after ∧ ids ⊆ after ∧ visited ⊆ after := by
  induction ids generalizing visited with
  | nil =>
    obtain rfl := pure_ok.mp h
    exact ⟨hvisited,nil_subset _,List.Subset.refl _⟩
  | cons i rest ih =>
    obtain ⟨between,hi,h⟩ := bind_ok.mp h
    obtain ⟨hbetween,hmem,hsub⟩ := hstep hvisited hi
    obtain ⟨hafter,hrest,hsub'⟩ := ih hbetween h
    exact ⟨hafter,cons_subset.mpr ⟨hsub' hmem,hrest⟩,List.Subset.trans hsub hsub'⟩

theorem visit_order {fuel : ℕ} {visiting visited after : List String}
    (hvisited : DependencyOrder graph visited)
    (h : visit graph fuel visiting visited i = .ok after) :
    DependencyOrder graph after ∧ i ∈ after ∧ visited ⊆ after := by
  induction fuel generalizing visiting visited after i with
  | zero => exact absurd h fail_ne_ok
  | succ fuel ih =>
    unfold visit at h
    split_ifs at h with hcycle hdone
    · exact absurd h fail_ne_ok
    · obtain rfl := pure_ok.mp h
      exact ⟨hvisited,hdone,List.Subset.refl _⟩
    · obtain ⟨between,hfold,h⟩ := bind_ok.mp h
      obtain rfl := pure_ok.mp h
      obtain ⟨hbetween,hdeps,hsub⟩ := foldlM_order (fun hv hs => ih hv hs) hvisited hfold
      exact ⟨⟨fun b hb => hdeps hb,hbetween⟩,mem_cons_self,List.Subset.trans hsub (subset_cons_self _ _)⟩

def taskGraph (tasks : List ProjectTask) (i : String) : List String :=
  ((tasks.find? (fun t => t.taskId == i)).map (fun t =>
    t.dependencies.filter (· ∈ tasks.map (·.taskId)))).getD []

variable {u : Unit}

theorem checkCycles_order {tasks : List ProjectTask} (h : checkCycles tasks = .ok u) :
    ∃ order, DependencyOrder (taskGraph tasks) order ∧ tasks.map (·.taskId) ⊆ order := by
  obtain ⟨order,hfold,-⟩ := bind_ok.mp h
  have hstep : ∀ {visited i after}, DependencyOrder (taskGraph tasks) visited →
      visit (taskGraph tasks) ((tasks.map (·.taskId)).length + 1) [] visited i = .ok after →
      DependencyOrder (taskGraph tasks) after ∧ i ∈ after ∧ visited ⊆ after :=
    fun hv hs => visit_order hv hs
  have hempty : DependencyOrder (taskGraph tasks) [] := trivial
  obtain ⟨horder,hall,-⟩ := foldlM_order hstep hempty hfold
  exact ⟨order,horder,hall⟩

/-! ## What the reader establishes about dependencies -/

/-- Every dependency has exactly one kind, and the tasks have an order. -/
structure ProjectPlan.Ordered (p : ProjectPlan) : Prop where
  kinds : ∀ t ∈ p.tasks, ∀ i ∈ t.dependencies, (classifyDependencyTarget p i).isSome = true
  order : ∃ order, DependencyOrder (taskGraph p.tasks) order ∧ p.tasks.map (·.taskId) ⊆ order

theorem checkDependency_kind (h : checkDependency (p.tasks.map (·.taskId)) p.gateIds p.openQuestionIds i = .ok u) :
    (classifyDependencyTarget p i).isSome = true := by
  obtain ⟨_,hsome,h⟩ := bind_ok.mp h
  have hsome := require_ok.mp hsome
  have hone := require_ok.mp h
  unfold classifyDependencyTarget
  simp only [countP_cons,countP_nil] at hsome hone
  generalize decide (i ∈ p.tasks.map (·.taskId)) = inTasks at *
  generalize decide (i ∈ p.gateIds) = inGates at *
  generalize decide (i ∈ p.openQuestionIds) = inQuestions at *
  cases inTasks <;> cases inGates <;> cases inQuestions <;> simp_all

theorem forM_ok {α : Type} {f : α → Outcome Unit} {xs : List α} (h : xs.forM f = .ok u) :
    ∀ x ∈ xs, f x = .ok () := by
  induction xs with
  | nil => exact fun x hx => absurd hx not_mem_nil
  | cons a rest ih =>
    obtain ⟨_,ha,hrest⟩ := bind_ok.mp h
    intro x hx
    rcases mem_cons.mp hx with rfl | hx
    · exact ha
    · exact ih hrest x hx

theorem validateProjectPlan_ordered {rt : Runtime} {document : Json} {expected : Option String}
    (h : validateProjectPlan rt document expected = .ok p) : p.Ordered := by
  have hp := readFrom_of_validated h
  refine ⟨fun t ht i hi => ?_,checkCycles_order hp.acyclic⟩
  exact checkDependency_kind (forM_ok hp.dependencies i (mem_flatMap.mpr ⟨t,ht,hi⟩))

/-! ## Selection with its bounds -/

/-- A stored map of prerequisite statuses is read only within its bound. -/
def boundedStatusMap (key : String) (raw : Dict String) : Outcome Unit :=
  require (raw.size ≤ maxItems) "memory_execution_shape_invalid" ("execution." ++ key ++ " is invalid")

def readPrerequisiteBlockers (plan : ProjectPlan) (d : ExecutionDocument) (task : ProjectTask) :
    Outcome (List Blocker) := do
  boundedStatusMap "gate_statuses" d.gateStatuses
  boundedStatusMap "open_question_statuses" d.openQuestionStatuses
  pure (taskPrerequisiteBlockers plan d task)

def selectAvailable (plan : ProjectPlan) (d : ExecutionDocument) :
    List ProjectTask → Outcome (List ProjectTask)
  | [] => pure []
  | t :: rest =>
    if (effectiveStatus d t).startable then do
      let blockers ← readPrerequisiteBlockers plan d t
      let later ← selectAvailable plan d rest
      pure (if blockers.isEmpty then t :: later else later)
    else selectAvailable plan d rest

def readAvailableTasks (plan : ProjectPlan) (d : ExecutionDocument) : Outcome (List ProjectTask) :=
  selectAvailable plan d plan.tasks

/-- Nothing but the order of the tasks can keep a task from being started. -/
structure Unhindered (plan : ProjectPlan) (d : ExecutionDocument) : Prop where
  gates : ∀ g ∈ plan.gateIds, d.gateStatuses.lookup g = some "passed"
  openQuestions : ∀ q ∈ plan.openQuestionIds, d.openQuestionStatuses.lookup q = some "resolved"
  tasks : ∀ t ∈ plan.tasks, effectiveStatus d t ≠ .review ∧ effectiveStatus d t ≠ .blocked

structure BoundedStatuses (d : ExecutionDocument) : Prop where
  gates : d.gateStatuses.size ≤ maxItems
  openQuestions : d.openQuestionStatuses.size ≤ maxItems

theorem readPrerequisiteBlockers_bounded (h : BoundedStatuses d) (t : ProjectTask) :
    readPrerequisiteBlockers plan d t = .ok (taskPrerequisiteBlockers plan d t) := by
  have hg : boundedStatusMap "gate_statuses" d.gateStatuses = .ok () := require_ok.mpr h.gates
  have hq : boundedStatusMap "open_question_statuses" d.openQuestionStatuses = .ok () :=
    require_ok.mpr h.openQuestions
  simp only [readPrerequisiteBlockers,hg,hq,ok_bind]
  rfl

theorem selectAvailable_bounded (h : BoundedStatuses d) (tasks : List ProjectTask) :
    selectAvailable plan d tasks = .ok (tasks.filter (fun t =>
      (effectiveStatus d t).startable && (taskPrerequisiteBlockers plan d t).isEmpty)) := by
  induction tasks with
  | nil => rfl
  | cons t rest ih =>
    rw [selectAvailable,readPrerequisiteBlockers_bounded h,ih]
    cases hs : (effectiveStatus d t).startable with
    | false => simp [hs]
    | true => by_cases hb : taskPrerequisiteBlockers plan d t = [] <;> simp [hs,hb]

theorem readAvailableTasks_bounded (h : BoundedStatuses d) :
    readAvailableTasks plan d = .ok (availableProjectTasks plan d none) := by
  simp [readAvailableTasks,selectAvailable_bounded h,availableProjectTasks]

/-! ## The next task -/

section Next
variable {plan : ProjectPlan} {d : ExecutionDocument}

variable {i : String}

theorem classify_task (h : classifyDependencyTarget plan i = some .task) : i ∈ plan.tasks.map (·.taskId) := by
  unfold classifyDependencyTarget at h
  split at h <;> simp_all

theorem classify_gate (h : classifyDependencyTarget plan i = some .gate) : i ∈ plan.gateIds := by
  unfold classifyDependencyTarget at h
  split at h <;> simp_all

theorem classify_openQuestion (h : classifyDependencyTarget plan i = some .openQuestion) :
    i ∈ plan.openQuestionIds := by
  unfold classifyDependencyTarget at h
  split at h <;> simp_all

theorem boundedRuntimeStatus_of_lookup {raw : Dict String} {default status : String}
    {allowed : List String} (h : raw.lookup i = some status) (hs : status ∈ allowed) :
    boundedRuntimeStatus raw default allowed i = status := by
  rw [boundedRuntimeStatus,Dict.get_of_lookup h,if_pos hs]

theorem dependencyBlocker_kind {b : Blocker}
    (hkind : (classifyDependencyTarget plan i).isSome = true) (h : dependencyBlocker plan d i = some b) :
    b.kind ∈ ["task","gate","open_question"] := by
  obtain ⟨kind,hkind⟩ := Option.isSome_iff_exists.mp hkind
  simp only [dependencyBlocker,hkind] at h
  cases kind with
  | task | gate | openQuestion =>
    simp only [Option.ite_none_left_eq_some,Option.some_inj] at h
    simp [← h.2]

theorem dependencyBlocker_eq_none (h : Unhindered plan d)
    (hkind : (classifyDependencyTarget plan i).isSome = true)
    (hdone : i ∈ plan.tasks.map (·.taskId) → ∀ t ∈ plan.task? i, (effectiveStatus d t).done = true) :
    dependencyBlocker plan d i = none := by
  unfold dependencyBlocker
  split
  · rename_i htask
    have hmem := classify_task htask
    obtain ⟨t,ht⟩ : ∃ t, plan.task? i = some t := by
      obtain ⟨t,ht,hi⟩ := mem_map.mp hmem
      exact Option.isSome_iff_exists.mp (List.find?_isSome.mpr ⟨t,ht,by simpa using hi⟩)
    rw [ht]
    exact if_pos (hdone hmem t ht)
  · rename_i hgate
    exact if_pos (boundedRuntimeStatus_of_lookup (h.gates i (classify_gate hgate)) (by simp [gateStatusValues]))
  · rename_i hquestion
    exact if_pos (boundedRuntimeStatus_of_lookup (h.openQuestions i (classify_openQuestion hquestion))
      (by simp [openQuestionStatusValues]))
  · rename_i hnone
    rw [hnone] at hkind
    cases hkind

theorem startable_of_unfinished {s : TaskStatus} (hdone : s.done = false) (hreview : s ≠ .review)
    (hblocked : s ≠ .blocked) : s.startable = true := by
  cases s <;> simp_all [TaskStatus.done,TaskStatus.startable]

theorem exists_available (hplan : plan.WellFormed) (hordered : plan.Ordered) (h : Unhindered plan d)
    (hopen : ∃ t ∈ plan.tasks, (effectiveStatus d t).done = false) :
    ∃ t, t ∈ availableProjectTasks plan d none := by
  obtain ⟨order,horder,hall⟩ := hordered.order
  have hfirst : ∃ i ∈ order, ∃ t ∈ plan.tasks, t.taskId = i ∧ (effectiveStatus d t).done = false := by
    obtain ⟨t,ht,hdone⟩ := hopen
    exact ⟨t.taskId,hall (mem_map_of_mem ht),t,ht,rfl,hdone⟩
  obtain ⟨i,-,⟨t,ht,rfl,hdone⟩,hlast⟩ := horder.exists_last hfirst
  obtain ⟨hreview,hblocked⟩ := h.tasks t ht
  have hfound : plan.tasks.find? (fun u => u.taskId == t.taskId) = some t := by
    obtain ⟨u,hu⟩ : ∃ u, plan.task? t.taskId = some u :=
      Option.isSome_iff_exists.mp (List.find?_isSome.mpr ⟨t,ht,by simp⟩)
    obtain ⟨humem,huid⟩ := task?_some hu
    obtain rfl := inj_on_of_nodup_map hplan.tasksNodup humem ht huid
    exact hu
  have hclear : taskPrerequisiteBlockers plan d t = [] := by
    refine filterMap_eq_nil_iff.mpr fun j hj => ?_
    refine dependencyBlocker_eq_none h (hordered.kinds t ht j hj) fun hmem u hu => ?_
    obtain ⟨humem,huid⟩ := task?_some hu
    have hedge : j ∈ taskGraph plan.tasks t.taskId := by
      rw [taskGraph,hfound]
      exact mem_filter.mpr ⟨hj,by simpa using hmem⟩
    by_contra hne
    exact hlast j hedge ⟨u,humem,huid,by simpa using hne⟩
  refine ⟨t,mem_filter.mpr ⟨ht,?_⟩⟩
  simp [startable_of_unfinished hdone hreview hblocked,hclear]

end Next

/-- Task selection never deadlocks: within the bounds of the status maps an unhindered
unfinished plan has an available task, and no reported blocker is of an unknown kind. -/
theorem selection_never_deadlocks (rt : Runtime) (document : Json) (expected : Option String)
    (plan : ProjectPlan) (hplan : validateProjectPlan rt document expected = .ok plan) :
    (∀ d : ExecutionDocument, BoundedStatuses d → Unhindered plan d →
      (∃ t ∈ plan.tasks, (effectiveStatus d t).done = false) →
      ∃ t rest, readAvailableTasks plan d = .ok (t :: rest)) ∧
    (∀ (d : ExecutionDocument) (t : ProjectTask) (blockers : List Blocker), t ∈ plan.tasks →
      readPrerequisiteBlockers plan d t = .ok blockers →
      ∀ b ∈ blockers, b.kind ∈ ["task","gate","open_question"]) := by
  have hordered := validateProjectPlan_ordered hplan
  refine ⟨fun d hbounds h hopen => ?_,fun d t blockers ht hread b hb => ?_⟩
  · obtain ⟨t,ht⟩ := exists_available (validateProjectPlan_ok hplan).1 hordered h hopen
    rw [readAvailableTasks_bounded hbounds]
    cases hlist : availableProjectTasks plan d none with
    | nil => simp [hlist] at ht
    | cons a rest => exact ⟨a,rest,rfl⟩
  · obtain ⟨_,_,hread⟩ := rest₂ hread
    obtain rfl := pure_ok.mp hread
    obtain ⟨i,hi,hblocker⟩ := mem_filterMap.mp hb
    exact dependencyBlocker_kind (hordered.kinds t ht i hi) hblocker

theorem gated_plan : ∃ plan t, validateProjectPlan sampleRuntime (gatedDocument []) (some "p1") = .ok plan ∧
    plan.gateIds = [] ∧ plan.openQuestionIds = [] ∧ plan.tasks = [t] ∧ t.status = .pending := by
  have hrun : (validateProjectPlan sampleRuntime (gatedDocument []) (some "p1")).toOption.map (fun plan =>
      (plan.gateIds,plan.openQuestionIds,plan.tasks.map (·.status))) = some ([],[],[.pending]) := by
    decide +kernel
  obtain ⟨plan,hplan,hseen⟩ := Option.map_eq_some_iff.mp hrun
  obtain ⟨hgates,hseen⟩ := Prod.mk.inj hseen
  obtain ⟨hquestions,hstatuses⟩ := Prod.mk.inj hseen
  obtain ⟨t,htasks,hpending⟩ := map_eq_singleton_iff.mp hstatuses
  exact ⟨plan,t,toOption_eq_some.mp hplan,hgates,hquestions,htasks,hpending⟩

theorem unhindered_of_fresh {t : ProjectTask}
    (hgates : plan.gateIds = []) (hquestions : plan.openQuestionIds = []) (htasks : plan.tasks = [t])
    (hpending : t.status = .pending) (hd : d.taskStatuses = ∅) :
    Unhindered plan d ∧ effectiveStatus d t = .pending := by
  have ht : effectiveStatus d t = .pending := by
    rw [effectiveStatus,hd,hpending]
    rfl
  refine ⟨⟨by simp [hgates],by simp [hquestions],fun u hu => ?_⟩,ht⟩
  rw [htasks,mem_singleton] at hu
  rw [hu,ht]
  decide

theorem selection_never_deadlocks_ready :
    ∃ plan, validateProjectPlan sampleRuntime (gatedDocument []) (some "p1") = .ok plan ∧
      BoundedStatuses Execution.empty.filled ∧ Unhindered plan Execution.empty.filled ∧
      (∃ t ∈ plan.tasks, (effectiveStatus Execution.empty.filled t).done = false) ∧
      ∃ t rest, readAvailableTasks plan Execution.empty.filled = .ok (t :: rest) := by
  obtain ⟨plan,t,hplan,hgates,hquestions,htasks,hpending⟩ := gated_plan
  obtain ⟨hfree,ht⟩ := unhindered_of_fresh (d := Execution.empty.filled) hgates hquestions htasks hpending rfl
  have hbounds : BoundedStatuses Execution.empty.filled := ⟨by decide,by decide⟩
  have hopen : ∃ t ∈ plan.tasks, (effectiveStatus Execution.empty.filled t).done = false :=
    ⟨t,by simp [htasks],by rw [ht]; rfl⟩
  exact ⟨plan,hplan,hbounds,hfree,hopen,
    (selection_never_deadlocks sampleRuntime (gatedDocument []) (some "p1") plan hplan).1 _ hbounds hfree hopen⟩

/-- One gate status more than the bound, of gates no plan names. -/
def crowdedStatuses : Dict String where
  entries := (List.range 513).map (fun n => ⟨String.ofList (List.replicate n 'g'),"passed"⟩)
  nodupKeys := by
    rw [List.NodupKeys,List.keys,map_map]
    refine nodup_range.map fun m n h => ?_
    have hlength := congrArg (fun s : String => s.toList.length) h
    simpa using hlength

def crowdedDocument : ExecutionDocument := { Execution.empty.filled with gateStatuses := crowdedStatuses }

/-- With too many stored statuses an unhindered plan is refused instead of continued. -/
theorem crowded_statuses_refused :
    ∃ plan, validateProjectPlan sampleRuntime (gatedDocument []) (some "p1") = .ok plan ∧
      Unhindered plan crowdedDocument ∧
      (∃ t ∈ plan.tasks, (effectiveStatus crowdedDocument t).done = false) ∧
      ¬ ∃ t rest, readAvailableTasks plan crowdedDocument = .ok (t :: rest) := by
  obtain ⟨plan,t,hplan,hgates,hquestions,htasks,hpending⟩ := gated_plan
  obtain ⟨hfree,ht⟩ := unhindered_of_fresh (d := crowdedDocument) hgates hquestions htasks hpending rfl
  refine ⟨plan,hplan,hfree,⟨t,by simp [htasks],by rw [ht]; rfl⟩,?_⟩
  rintro ⟨u,later,hread⟩
  have hstart : TaskStatus.pending.startable = true := rfl
  rw [readAvailableTasks,htasks,selectAvailable,ht,if_pos hstart] at hread
  obtain ⟨blockers,hblockers,-⟩ := bind_ok.mp hread
  obtain ⟨_,hbound,-⟩ := bind_ok.mp hblockers
  have hsize : crowdedDocument.gateStatuses.size = 513 := by
    simp [crowdedDocument,crowdedStatuses,Dict.size]
  have hle := require_ok.mp hbound
  rw [hsize] at hle
  exact absurd hle (by decide)

end Bdb.Project
