import Bdb.Scope.LaunchSoundness

/-! # Whole runs of a scope

A run is a sequence of ticks from a fresh cursor, each followed by its compare-and-swap,
while tasks and gates become accepted and stay so. The stored cursor is all that a run
remembers, and it keeps a run within its scope.
-/
namespace Bdb.Scope

open List

open Continuation (AutoScope ScopeCursor)

variable {plan : CanonicalPlanGraph} {cursor : ScopeCursor} {i j : TickInputs} {m n : PlanMilestoneNode}
  {t : PlanTaskNode} {projectId : String} {d : ScopeDecision} {inputs : List TickInputs}

/-! ## Runs -/

def commitTick (projectId : String) (plan : CanonicalPlanGraph) (cursor : ScopeCursor) (i : TickInputs) :
    ScopeCursor :=
  (updateCursorCas cursor (tick projectId plan cursor i).2.2 cursor.stateRevision).getD cursor

def runTicks (projectId : String) (plan : CanonicalPlanGraph) (cursor : ScopeCursor) (inputs : List TickInputs) :
    ScopeCursor :=
  inputs.foldl (commitTick projectId plan) cursor

/-- The decisions of a run, in order. -/
def decisions (projectId : String) (plan : CanonicalPlanGraph) : ScopeCursor → List TickInputs → List ScopeDecision
  | _, [] => []
  | cursor, i :: inputs =>
    (tick projectId plan cursor i).1 :: decisions projectId plan (commitTick projectId plan cursor i) inputs

def launches (projectId : String) (plan : CanonicalPlanGraph) (cursor : ScopeCursor) (inputs : List TickInputs) :
    List String :=
  ((decisions projectId plan cursor inputs).filter (fun d => d.action = .launchTask)).filterMap (·.selectedTaskId)

/-- Accepted tasks and accepted gates stay accepted. -/
structure Grows (i j : TickInputs) : Prop where
  tasks : ∀ taskId, i.accepted taskId = true → j.accepted taskId = true
  gates : ∀ milestoneId, i.gateAccepted milestoneId = true → j.gateAccepted milestoneId = true

/-! ## One tick -/

/-- What a tick does to the stored cursor: a refusal only counts the revision, and a located
tick advances it by its decision. -/
inductive Ticked (plan : CanonicalPlanGraph) (cursor : ScopeCursor) (i : TickInputs) (d : ScopeDecision)
    (cursor' : ScopeCursor) : Prop
  | refused (haction : d.action ≠ .launchTask)
      (hcursor : cursor' = { cursor with stateRevision := cursor.stateRevision + 1 })
  | located {m : PlanMilestoneNode} (hlocated : Located plan cursor i m)
      (hdecided : Decided (snapshot plan cursor i m) d)
      (hcursor : cursor' =
        { advanceCursor plan cursor i m d with stateRevision := cursor.stateRevision + 1 })

theorem commitTick_eq : commitTick projectId plan cursor i =
    { (tick projectId plan cursor i).2.2 with
      cursorId := cursor.cursorId, stateRevision := cursor.stateRevision + 1 } := by
  unfold commitTick updateCursorCas
  rw [if_pos rfl]
  rfl

theorem ticked (projectId : String) (plan : CanonicalPlanGraph) (cursor : ScopeCursor) (i : TickInputs) :
    Ticked plan cursor i (tick projectId plan cursor i).1 (commitTick projectId plan cursor i) := by
  rw [commitTick_eq]
  cases hlocate : locate plan cursor i with
  | ok m =>
    have hlocated := locate_ok.mp hlocate
    refine .located hlocated ?_ ?_
    · rw [tick_of_located hlocated]
      exact evaluate_decided _
    · unfold tick
      rw [hlocate]
      rfl
  | error e =>
    refine .refused ?_ ?_
    · intro haction
      obtain ⟨m,hlocated⟩ := located_of_launch haction
      rw [locate_ok.mpr hlocated] at hlocate
      cases hlocate
    · unfold tick
      rw [hlocate]

theorem launches_cons : launches projectId plan cursor (i :: inputs) =
    (if (tick projectId plan cursor i).1.action = .launchTask then
      (tick projectId plan cursor i).1.selectedTaskId.toList else []) ++
      launches projectId plan (commitTick projectId plan cursor i) inputs := by
  unfold launches
  simp only [decisions,filter_cons]
  split
  · rename_i h
    rw [if_pos (by simpa using h)]
    cases hselected : (tick projectId plan cursor i).1.selectedTaskId with
    | none | some taskId => simp [hselected]
  · rename_i h
    rw [if_neg (by simpa using h)]
    rfl

variable {taskId id : String}

theorem mem_launches_cons : taskId ∈ launches projectId plan cursor (i :: inputs) ↔
    ((tick projectId plan cursor i).1.action = .launchTask ∧
      (tick projectId plan cursor i).1.selectedTaskId = some taskId) ∨
      taskId ∈ launches projectId plan (commitTick projectId plan cursor i) inputs := by
  rw [launches_cons,mem_append]
  split
  · rename_i h
    simp [h]
  · rename_i h
    simp [h]

/-! ## Staying in a milestone -/

theorem orElse_same {o : Option String} (h : o = none ∨ o = some id) : orElse o (some id) = some id := by
  rcases h with rfl | rfl
  · rfl
  · exact ite_self _

theorem Located.nonempty (h : Located plan cursor i m) : m.milestoneId ≠ "" :=
  (given_eq_some.mp h.current).2

theorem currentMilestoneId_of_some (h : cursor.currentMilestoneId = some id) (hne : id ≠ "") :
    currentMilestoneId plan cursor = some id := by
  unfold currentMilestoneId orElse
  rw [h,given_eq_some.mpr ⟨rfl,hne⟩]
  rfl

theorem Located.unique (h : Located plan cursor i m) (hcurrent : given (currentMilestoneId plan cursor) = some n.milestoneId)
    (hknown : plan.getMilestone n.milestoneId = some n) : m = n := by
  have hid := h.current.symm.trans hcurrent
  have hfound := h.known
  rw [Option.some.inj hid,hknown] at hfound
  exact (Option.some.inj hfound).symm

theorem Decided.milestone (h : Decided (snapshot plan cursor i m) d) (hscope : crossing cursor.scope = false) :
    d.selectedMilestoneId = none ∨ d.selectedMilestoneId = some m.milestoneId := by
  have hcross : ∀ id, ¬ AtCrossing (snapshot plan cursor i m) id := by
    intro id hat
    have htrue : crossing cursor.scope = true := hat.scope
    rw [hscope] at htrue
    cases htrue
  cases h with
  | launched haction hclear hlaunched hlive =>
    cases hlaunched with
    | inProgress hunder htask hmilestone => exact .inr hmilestone
    | next hidle hscope hnext hdeps htask hmilestone => exact .inr hmilestone
    | crossed hat => exact absurd hat (hcross _)
  | moved haction hat => exact absurd hat (hcross _)
  | stayed haction hmilestone => exact hmilestone

/-! ## TASK -/

theorem candidate_grows {taskIds : List String} (hgrows : Grows i j) (h : candidate plan i taskIds = some t) :
    candidate plan j taskIds = some t ∨ j.accepted t.taskId = true := by
  induction taskIds with
  | nil => cases h
  | cons taskId rest ih =>
    unfold candidate at h ih ⊢
    rw [List.findSome?_cons] at h ⊢
    by_cases haccepted : i.accepted taskId = true
    · rw [if_pos haccepted] at h
      rw [if_pos (hgrows.tasks taskId haccepted)]
      exact ih h
    · rw [if_neg haccepted] at h
      by_cases hlater : j.accepted taskId = true
      · cases hfound : plan.getTask taskId with
        | none =>
          rw [hfound] at h
          rw [if_pos hlater]
          exact ih h
        | some t' =>
          rw [hfound] at h
          cases h
          exact .inr (CanonicalPlanGraph.getTask_id hfound ▸ hlater)
      · rw [if_neg hlater]
        cases hfound : plan.getTask taskId with
        | none =>
          rw [hfound] at h
          exact ih h
        | some t' =>
          rw [hfound] at h
          exact .inl h

theorem Grows.trans {k : TickInputs} (h : Grows i j) (h' : Grows j k) : Grows i k :=
  ⟨fun taskId ha => h'.tasks taskId (h.tasks taskId ha),fun id ha => h'.gates id (h.gates id ha)⟩

/-- A TASK run that has launched a task is bound to it: the task is accepted, or it is the
first open task of the milestone, now and later. -/
structure Bound (plan : CanonicalPlanGraph) (taskId : String) (m : PlanMilestoneNode) (i : TickInputs)
    (cursor : ScopeCursor) : Prop where
  scope : cursor.scope = .task
  task : cursor.currentTaskId = some taskId
  nonempty : taskId ≠ ""
  known : plan.getMilestone m.milestoneId = some m
  milestone : given (currentMilestoneId plan cursor) = some m.milestoneId
  first : ∀ j t, Grows i j → candidate plan j m.taskIds = some t → j.accepted taskId = true ∨ t.taskId = taskId

theorem status_of_task (htask : cursor.currentTaskId = some taskId) (hne : taskId ≠ "") :
    currentTaskStatus cursor i = i.taskStatuses taskId := by
  unfold currentTaskStatus
  rw [htask,given_eq_some.mpr ⟨rfl,hne⟩]
  rfl

theorem candidate_of_next (hknown : plan.getMilestone m.milestoneId = some m)
    (hnext : given (snapshot plan cursor i m).nextTaskInMilestoneId = some taskId) :
    ∃ t, candidate plan i m.taskIds = some t ∧ t.taskId = taskId := by
  have hid := (given_eq_some.mp hnext).1
  exact Option.map_eq_some_iff.mp ((resolve_taskId hknown).symm.trans hid)

theorem Bound.selects (h : Bound plan taskId m i cursor) (hgrows : Grows i j)
    (hlocated : Located plan cursor j m) (hlaunched : Launched (snapshot plan cursor j m) d) :
    d.selectedTaskId = some taskId := by
  cases hlaunched with
  | inProgress hunder htask hmilestone => exact htask.trans h.task
  | next hidle hscope hnext hdeps htask hmilestone =>
    obtain ⟨t,ht,rfl⟩ := candidate_of_next hlocated.known hnext
    rcases h.first j t hgrows ht with haccepted | rfl
    · refine absurd ?_ (hscope h.scope)
      refine (status_of_task h.task h.nonempty).trans ?_
      simpa [TickInputs.accepted] using haccepted
    · exact htask
  | crossed hat hdeps htask hmilestone =>
    have hcross : crossing cursor.scope = true := hat.scope
    rw [h.scope] at hcross
    cases hcross

theorem Decided.launched_of_action {s : ScopeInputSnapshot} (h : Decided s d) (haction : d.action = .launchTask) :
    Launched s d := by
  cases h with
  | launched _ _ hlaunched => exact hlaunched
  | moved hnot | stayed hnot => exact absurd haction hnot

theorem Bound.commit (h : Bound plan taskId m i cursor) (hgrows : Grows i j) :
    ((tick projectId plan cursor j).1.action = .launchTask →
      (tick projectId plan cursor j).1.selectedTaskId = some taskId) ∧
    Bound plan taskId m j (commitTick projectId plan cursor j) := by
  have hfirst : ∀ k t, Grows j k → candidate plan k m.taskIds = some t → k.accepted taskId = true ∨ t.taskId = taskId :=
    fun k t hk => h.first k t (hgrows.trans hk)
  cases ticked projectId plan cursor j with
  | refused haction hcursor =>
    refine ⟨fun hlaunch => absurd hlaunch haction,?_⟩
    rw [hcursor]
    exact ⟨h.scope,h.task,h.nonempty,h.known,h.milestone,hfirst⟩
  | located hlocated hdecided hcursor =>
    obtain rfl := hlocated.unique h.milestone h.known
    have hselects : (tick projectId plan cursor j).1.action = .launchTask →
        (tick projectId plan cursor j).1.selectedTaskId = some taskId :=
      fun haction => h.selects hgrows hlocated (hdecided.launched_of_action haction)
    refine ⟨hselects,?_⟩
    rw [hcursor]
    refine ⟨h.scope,?_,h.nonempty,h.known,?_,hfirst⟩
    · change (if _ then _ else _) = _
      split
      · rename_i haction
        exact hselects haction
      · exact h.task
    · have hstays := orElse_same (hdecided.milestone (by rw [h.scope]; rfl))
      rw [currentMilestoneId_of_some hstays hlocated.nonempty]
      exact given_eq_some.mpr ⟨rfl,hlocated.nonempty⟩

theorem Bound.launches (h : Bound plan taskId m i cursor) (hgrows : (i :: inputs).Pairwise Grows) :
    ∀ other ∈ launches projectId plan cursor inputs, other = taskId := by
  induction inputs generalizing cursor i with
  | nil => exact fun _ hmem => (not_mem_nil hmem).elim
  | cons j rest ih =>
    obtain ⟨hi,hrest⟩ := pairwise_cons.mp hgrows
    obtain ⟨hselects,hbound⟩ := @Bound.commit plan cursor i j m projectId taskId h (hi j mem_cons_self)
    intro other hmem
    rcases mem_launches_cons.mp hmem with ⟨haction,hselected⟩ | hlater
    · exact (some_unique (hselects haction) hselected).symm
    · exact ih hbound hrest other hlater

theorem bound_of_first_launch (hscope : cursor.scope = .task) (hnone : cursor.currentTaskId = none)
    (haction : (tick projectId plan cursor i).1.action = .launchTask) :
    ∃ taskId m, (tick projectId plan cursor i).1.selectedTaskId = some taskId ∧
      Bound plan taskId m i (commitTick projectId plan cursor i) := by
  cases ticked projectId plan cursor i with
  | refused hnot => exact absurd haction hnot
  | @located m hlocated hdecided hcursor =>
    cases hdecided.launched_of_action haction with
    | inProgress hunder =>
      have hidle : currentTaskStatus cursor i = none := by
        unfold currentTaskStatus
        rw [hnone]
        rfl
      have hunder' : underWay (currentTaskStatus cursor i) = true := hunder
      rw [hidle] at hunder'
      cases hunder'
    | next hidle hopen hnext hdeps htask hmilestone =>
      obtain ⟨t,ht,rfl⟩ := candidate_of_next hlocated.known hnext
      refine ⟨t.taskId,m,htask,?_⟩
      rw [hcursor]
      refine ⟨hscope,?_,(given_eq_some.mp hnext).2,hlocated.known,?_,?_⟩
      · exact (if_pos haction).trans htask
      · have hstays := orElse_same (hdecided.milestone (by rw [hscope]; rfl))
        rw [currentMilestoneId_of_some hstays hlocated.nonempty]
        exact given_eq_some.mpr ⟨rfl,hlocated.nonempty⟩
      · intro j t' hgrows ht'
        rcases candidate_grows hgrows ht with hsame | haccepted
        · exact .inr (congrArg PlanTaskNode.taskId (some_unique ht' hsame))
        · exact .inl haccepted
    | crossed hat =>
      have hcross : crossing cursor.scope = true := hat.scope
      rw [hscope] at hcross
      cases hcross

theorem commit_scope : (commitTick projectId plan cursor i).scope = cursor.scope := by
  cases ticked projectId plan cursor i with
  | refused _ hcursor => rw [hcursor]
  | located _ _ hcursor =>
    rw [hcursor]
    rfl

theorem commit_task (haction : (tick projectId plan cursor i).1.action ≠ .launchTask) :
    (commitTick projectId plan cursor i).currentTaskId = cursor.currentTaskId := by
  cases ticked projectId plan cursor i with
  | refused _ hcursor => rw [hcursor]
  | located _ _ hcursor =>
    rw [hcursor]
    exact if_neg haction

theorem task_run_launches_one (hscope : cursor.scope = .task) (hnone : cursor.currentTaskId = none)
    (hgrows : inputs.Pairwise Grows) :
    ∀ a ∈ launches projectId plan cursor inputs, ∀ b ∈ launches projectId plan cursor inputs, a = b := by
  induction inputs generalizing cursor with
  | nil => exact fun _ hmem => (not_mem_nil hmem).elim
  | cons i rest ih =>
    by_cases haction : (tick projectId plan cursor i).1.action = .launchTask
    · obtain ⟨taskId,m,hselected,hbound⟩ := bound_of_first_launch hscope hnone haction
      have hall : ∀ a ∈ launches projectId plan cursor (i :: rest), a = taskId := by
        intro a hmem
        rcases mem_launches_cons.mp hmem with ⟨-,ha⟩ | hlater
        · exact (some_unique hselected ha).symm
        · exact hbound.launches hgrows a hlater
      intro a ha b hb
      rw [hall a ha,hall b hb]
    · have hrest := ih (commit_scope.trans hscope) ((commit_task haction).trans hnone) (pairwise_cons.mp hgrows).2
      intro a ha b hb
      rcases mem_launches_cons.mp ha with ⟨hyes,-⟩ | ha
      · exact absurd hyes haction
      · rcases mem_launches_cons.mp hb with ⟨hyes,-⟩ | hb
        · exact absurd hyes haction
        · exact hrest a ha b hb

/-! ## MILESTONE -/

/-- A MILESTONE run never leaves its milestone. -/
structure Within (plan : CanonicalPlanGraph) (id : Option String) (cursor : ScopeCursor) : Prop where
  scope : cursor.scope = .milestone
  milestone : currentMilestoneId plan cursor = id
  task : ∀ taskId, cursor.currentTaskId = some taskId → ∃ m, id = some m.milestoneId ∧
    plan.getMilestone m.milestoneId = some m ∧ taskId ∈ m.taskIds

def LaunchesIn (plan : CanonicalPlanGraph) (id : Option String) (d : ScopeDecision) : Prop :=
  d.action = .launchTask → d.selectedMilestoneId = id ∧ ∃ m taskId, id = some m.milestoneId ∧
    plan.getMilestone m.milestoneId = some m ∧ d.selectedTaskId = some taskId ∧ taskId ∈ m.taskIds

theorem Within.commit {id : Option String} (h : Within plan id cursor) :
    LaunchesIn plan id (tick projectId plan cursor i).1 ∧ Within plan id (commitTick projectId plan cursor i) := by
  cases ticked projectId plan cursor i with
  | refused haction hcursor =>
    refine ⟨fun hlaunch => absurd hlaunch haction,?_⟩
    rw [hcursor]
    exact ⟨h.scope,h.milestone,h.task⟩
  | @located m hlocated hdecided hcursor =>
    have hid : id = some m.milestoneId := h.milestone.symm.trans (given_eq_some.mp hlocated.current).1
    have hin : LaunchesIn plan id (tick projectId plan cursor i).1 := by
      intro haction
      cases hdecided.launched_of_action haction with
      | inProgress hunder htask hmilestone =>
        refine ⟨hmilestone.trans hid.symm,?_⟩
        cases hcurrent : cursor.currentTaskId with
        | none =>
          -- without a task nothing is under way
          have hunder' : underWay (currentTaskStatus cursor i) = true := hunder
          unfold currentTaskStatus at hunder'
          rw [hcurrent] at hunder'
          cases hunder'
        | some taskId =>
          obtain ⟨n,hn,hknown,hmem⟩ := h.task taskId hcurrent
          exact ⟨n,taskId,hn,hknown,htask.trans hcurrent,hmem⟩
      | next hidle hopen hnext hdeps htask hmilestone =>
        obtain ⟨t,ht,rfl⟩ := candidate_of_next hlocated.known hnext
        exact ⟨hmilestone.trans hid.symm,m,t.taskId,hid,hlocated.known,htask,(candidate_some ht).1⟩
      | crossed hat =>
        have hcross : crossing cursor.scope = true := hat.scope
        rw [h.scope] at hcross
        cases hcross
    refine ⟨hin,?_⟩
    rw [hcursor]
    refine ⟨h.scope,?_,?_⟩
    · have hstays := orElse_same (hdecided.milestone (by rw [h.scope]; rfl))
      rw [currentMilestoneId_of_some hstays hlocated.nonempty]
      exact hid.symm
    · intro taskId htask
      by_cases haction : (tick projectId plan cursor i).1.action = .launchTask
      · obtain ⟨-,n,taskId',hn,hknown,hselected,hmem⟩ := hin haction
        have hsame := (if_pos haction).symm.trans htask
        obtain rfl := some_unique hselected hsame
        exact ⟨n,hn,hknown,hmem⟩
      · exact h.task taskId ((if_neg haction).symm.trans htask)

theorem Within.decisions {id : Option String} (h : Within plan id cursor) :
    ∀ d ∈ decisions projectId plan cursor inputs, LaunchesIn plan id d := by
  induction inputs generalizing cursor with
  | nil => exact fun _ hmem => (not_mem_nil hmem).elim
  | cons i rest ih =>
    obtain ⟨hin,hnext⟩ := @Within.commit plan cursor i projectId id h
    intro d hmem
    rcases mem_cons.mp hmem with rfl | hlater
    · exact hin
    · exact ih hnext d hlater

/-! ## PROJECT -/

def position (plan : CanonicalPlanGraph) (cursor : ScopeCursor) : ℕ :=
  plan.indexOf ((currentMilestoneId plan cursor).getD "")

/-- The positions of a run, from its first cursor to its last. -/
def positions (projectId : String) (plan : CanonicalPlanGraph) : ScopeCursor → List TickInputs → List ℕ
  | cursor, [] => [position plan cursor]
  | cursor, i :: inputs => position plan cursor :: positions projectId plan (commitTick projectId plan cursor i) inputs

theorem position_of_some (h : cursor.currentMilestoneId = some id) (hne : id ≠ "") :
    position plan cursor = plan.indexOf id := by
  unfold position
  rw [currentMilestoneId_of_some h hne]
  rfl

theorem orElse_given {o alternative : Option String} (h : o = some id) (hne : id ≠ "") :
    orElse o alternative = some id := by
  unfold orElse
  rw [h,given_eq_some.mpr ⟨rfl,hne⟩]
  rfl

theorem position_located (h : Located plan cursor i m) : position plan cursor = plan.indexOf m.milestoneId := by
  unfold position
  rw [(given_eq_some.mp h.current).1]
  rfl

theorem position_kept (hlocated : Located plan cursor i m)
    (hcursor : commitTick projectId plan cursor i =
      { advanceCursor plan cursor i m d with stateRevision := cursor.stateRevision + 1 })
    (hsame : d.selectedMilestoneId = none ∨ d.selectedMilestoneId = some m.milestoneId) :
    position plan (commitTick projectId plan cursor i) = position plan cursor := by
  rw [hcursor,position_of_some (orElse_same hsame) hlocated.nonempty,position_located hlocated]

section

variable (hdistinct : (plan.milestones.map (·.milestoneId)).Nodup)

include hdistinct

theorem position_crossed {cursor' : ScopeCursor}
    (hlocated : Located plan cursor i m)
    (hat : AtCrossing (snapshot plan cursor i m) id) (hselected : cursor'.currentMilestoneId = some id) :
    position plan cursor' = position plan cursor + 1 := by
  obtain ⟨hid,hne⟩ := given_eq_some.mp hat.next
  obtain ⟨n,hn,rfl⟩ := Option.map_eq_some_iff.mp hid
  rw [position_of_some hselected hne,CanonicalPlanGraph.indexOf_eq hdistinct hn,position_located hlocated]

theorem position_commit :
    position plan (commitTick projectId plan cursor i) = position plan cursor ∨
      position plan (commitTick projectId plan cursor i) = position plan cursor + 1 := by
  cases ticked projectId plan cursor i with
  | refused _ hcursor =>
    rw [hcursor]
    exact .inl rfl
  | @located m hlocated hdecided hcursor =>
    have hcrosses : ∀ id, AtCrossing (snapshot plan cursor i m) id →
        (tick projectId plan cursor i).1.selectedMilestoneId = some id →
        position plan (commitTick projectId plan cursor i) = position plan cursor + 1 := by
      intro id hat hselected
      refine position_crossed hdistinct hlocated hat ?_
      rw [hcursor]
      exact orElse_given hselected (given_eq_some.mp hat.next).2
    cases hdecided with
    | launched haction hclear hlaunched hlive =>
      cases hlaunched with
      | inProgress _ _ hmilestone => exact .inl (position_kept hlocated hcursor (.inr hmilestone))
      | next _ _ _ _ _ hmilestone => exact .inl (position_kept hlocated hcursor (.inr hmilestone))
      | crossed hat _ _ hmilestone => exact .inr (hcrosses _ hat hmilestone)
    | moved _ hat _ hmilestone => exact .inr (hcrosses _ hat hmilestone)
    | stayed _ hmilestone => exact .inl (position_kept hlocated hcursor hmilestone)

theorem positions_chain :
    (positions projectId plan cursor inputs).IsChain (fun a b => b = a ∨ b = a + 1) := by
  induction inputs generalizing cursor with
  | nil => exact .singleton _
  | cons i rest ih =>
    have hhead : ∀ (c : ScopeCursor) (js : List TickInputs), ∃ more,
        positions projectId plan c js = position plan c :: more := by
      intro c js
      cases js with
      | nil => exact ⟨_,rfl⟩
      | cons j js => exact ⟨_,rfl⟩
    obtain ⟨more,hmore⟩ := hhead (commitTick projectId plan cursor i) rest
    have htail := @ih (commitTick projectId plan cursor i)
    unfold positions
    rw [hmore] at htail ⊢
    exact isChain_cons_cons.mpr ⟨position_commit hdistinct,htail⟩

end

/-! ## Accepted tasks and terminal decisions -/

theorem launch_unaccepted (haction : (tick projectId plan cursor i).1.action = .launchTask)
    (hselected : (tick projectId plan cursor i).1.selectedTaskId = some taskId) : i.accepted taskId = false := by
  cases ticked projectId plan cursor i with
  | refused hnot => exact absurd haction hnot
  | @located m hlocated hdecided hcursor =>
    cases hdecided with
    | launched _ hclear hlaunched hlive =>
      cases hlaunched with
      | inProgress hunder htask hmilestone =>
        have hcurrent := htask.symm.trans hselected
        have hunder' : underWay (currentTaskStatus cursor i) = true := hunder
        by_cases hne : taskId = ""
        · unfold currentTaskStatus at hunder'
          rw [show cursor.currentTaskId = some taskId from hcurrent,hne] at hunder'
          cases hunder'
        · rw [status_of_task hcurrent hne] at hunder'
          unfold TickInputs.accepted
          unfold underWay at hunder'
          rcases of_decide_eq_true hunder' with hstatus | hstatus
          all_goals simp [hstatus]
      | next hidle hopen hnext hdeps htask hmilestone =>
        obtain ⟨t,ht,rfl⟩ := candidate_of_next hlocated.known hnext
        obtain rfl := some_unique htask hselected
        exact (candidate_some ht).2.1
      | crossed hat hdeps htask hmilestone =>
        obtain ⟨n,hcrosses,-⟩ := crosses_of_launched hlocated hclear hat hdeps
        obtain ⟨-,hfirst,-⟩ := @Crosses.launch _ _ _ _ _ projectId hcrosses
        obtain ⟨hid,-⟩ := given_eq_some.mp (hfirst.symm.trans hselected)
        obtain ⟨t,ht,rfl⟩ := Option.map_eq_some_iff.mp hid
        exact (candidate_some ht).2.1
    | moved hnot => exact absurd haction hnot
    | stayed hnot => exact absurd haction hnot

theorem not_launched_of_accepted (haccepted : ∀ i ∈ inputs, i.accepted taskId = true) :
    taskId ∉ launches projectId plan cursor inputs := by
  induction inputs generalizing cursor with
  | nil => exact not_mem_nil
  | cons i rest ih =>
    intro hmem
    rcases mem_launches_cons.mp hmem with ⟨haction,hselected⟩ | hlater
    · have hopen := launch_unaccepted haction hselected
      rw [haccepted i mem_cons_self] at hopen
      cases hopen
    · exact ih (fun j hj => haccepted j (mem_cons_of_mem _ hj)) hlater

theorem commit_stopped (h : cursor.stopped = false) : (commitTick projectId plan cursor i).stopped = false := by
  cases ticked projectId plan cursor i with
  | refused _ hcursor =>
    rw [hcursor]
    exact h
  | located _ _ hcursor =>
    rw [hcursor]
    unfold ScopeCursor.stopped at h ⊢
    refine Bool.or_eq_false_iff.mpr ⟨(Bool.or_eq_false_iff.mp h).1,?_⟩
    change (ScopeAction.value _ == "STOPPED") = false
    generalize (tick projectId plan cursor i).1.action = action
    cases action <;> rfl

theorem run_stopped (h : cursor.stopped = false) : (runTicks projectId plan cursor inputs).stopped = false := by
  induction inputs generalizing cursor with
  | nil => exact h
  | cons i rest ih => exact ih (commit_stopped h)

theorem terminal_again (hrunning : cursor.stopped = false)
    (hterminal : (tick projectId plan cursor i).1.isTerminal = true) :
    (tick projectId plan (commitTick projectId plan cursor i) i).1 = (tick projectId plan cursor i).1 := by
  have hstopped := @commit_stopped plan cursor i projectId hrunning
  cases hlocate : locate plan cursor i with
  | error e =>
    have hsame : commitTick projectId plan cursor i = { cursor with stateRevision := cursor.stateRevision + 1 } := by
      rw [commitTick_eq]
      unfold tick
      rw [hlocate]
    have hlocate' : locate plan (commitTick projectId plan cursor i) i = locate plan cursor i := by
      rw [hsame]
      rfl
    unfold tick
    rw [hlocate',hlocate]
  | ok m =>
    have hlocated := locate_ok.mp hlocate
    cases ticked projectId plan cursor i with
    | refused haction hcursor =>
      have hlocate' : locate plan (commitTick projectId plan cursor i) i = .ok m := by
        rw [hcursor]
        exact hlocate
      rw [tick_of_located (locate_ok.mp hlocate'),tick_of_located hlocated,hcursor]
      rfl
    | @located m' hlocated' hdecided hcursor =>
      obtain rfl := hlocated.unique hlocated'.current hlocated'.known
      cases hdecided with
      | launched _ _ _ hlive =>
        rw [hlive] at hterminal
        cases hterminal
      | moved _ _ _ _ hlive =>
        rw [hlive] at hterminal
        cases hterminal
      | stayed haction hmilestone =>
        have hmilestone' : (commitTick projectId plan cursor i).currentMilestoneId = some m.milestoneId := by
          rw [hcursor]
          exact orElse_same hmilestone
        have hagain : Located plan (commitTick projectId plan cursor i) i m := by
          refine ⟨hlocated.valid,?_,hlocated.known,hlocated.before⟩
          rw [currentMilestoneId_of_some hmilestone' hlocated.nonempty]
          exact given_eq_some.mpr ⟨rfl,hlocated.nonempty⟩
        have htask := commit_task haction
        have hscope := @commit_scope plan cursor i projectId
        have hsnapshot : snapshot plan (commitTick projectId plan cursor i) i m = snapshot plan cursor i m := by
          unfold snapshot currentTaskStatus
          rw [htask,hscope,hstopped,hrunning]
        rw [tick_of_located hagain,tick_of_located hlocated,hsnapshot]

theorem terminal_stays (hrunning : cursor.stopped = false)
    (hterminal : (tick projectId plan cursor i).1.isTerminal = true) (repeats : ℕ) :
    ∀ d ∈ decisions projectId plan (commitTick projectId plan cursor i) (List.replicate repeats i),
      d.action ≠ .launchTask := by
  induction repeats generalizing cursor with
  | zero => exact fun _ hmem => (not_mem_nil hmem).elim
  | succ repeats ih =>
    have hagain := terminal_again hrunning hterminal
    intro d hmem
    rcases mem_cons.mp hmem with rfl | hlater
    · rw [hagain]
      cases ticked projectId plan cursor i with
      | refused haction => exact haction
      | located _ hdecided _ =>
        cases hdecided with
        | launched _ _ _ hlive =>
          rw [hlive] at hterminal
          cases hterminal
        | moved haction => exact haction
        | stayed haction => exact haction
    · refine ih (commit_stopped hrunning) ?_ d hlater
      rw [hagain]
      exact hterminal

/-! ## Confinement -/

/-- A run keeps within its scope: a TASK run launches one task, a MILESTONE run stays in one
milestone, a PROJECT run visits the milestones from the first on, one after the other, an
accepted task is not launched, and a terminal decision is final while the inputs stay. -/
structure Confined (projectId : String) (plan : CanonicalPlanGraph) (cursor : ScopeCursor)
    (inputs : List TickInputs) : Prop where
  task : cursor.scope = .task → ∀ a ∈ launches projectId plan cursor inputs,
    ∀ b ∈ launches projectId plan cursor inputs, a = b
  milestone : cursor.scope = .milestone → ∃ id, ∀ d ∈ decisions projectId plan cursor inputs, LaunchesIn plan id d
  project : cursor.scope = .project → position plan cursor = 0 ∧
    (positions projectId plan cursor inputs).IsChain (fun a b => b = a ∨ b = a + 1)
  accepted : ∀ before i after taskId, inputs = before ++ i :: after → i.accepted taskId = true →
    taskId ∉ launches projectId plan (runTicks projectId plan cursor before) (i :: after)
  terminal : ∀ before i after, inputs = before ++ i :: after →
    (tick projectId plan (runTicks projectId plan cursor before) i).1.isTerminal = true →
    ∀ repeats, ∀ d ∈ decisions projectId plan (runTicks projectId plan cursor (before ++ [i]))
      (List.replicate repeats i), d.action ≠ .launchTask

/-- Every run from a fresh cursor keeps within its scope, a PROJECT run when the milestones
of its plan have distinct identities. -/
theorem run_confined (projectId runId planIdentity : String) (planVersion : ℕ) (explicit : Bool)
    (scope : AutoScope) (plan : CanonicalPlanGraph) (inputs : List TickInputs)
    (hdistinct : scope = .project → (plan.milestones.map (·.milestoneId)).Nodup)
    (hgrows : inputs.Pairwise Grows) :
    Confined projectId plan (getOrCreateCursor none projectId runId scope planIdentity planVersion explicit) inputs := by
  constructor
  · intro hscope
    exact task_run_launches_one hscope rfl hgrows
  · intro hscope
    refine ⟨_,Within.decisions ⟨hscope,rfl,?_⟩⟩
    intro taskId htask
    cases htask
  · intro hscope
    refine ⟨?_,positions_chain (hdistinct hscope)⟩
    unfold position currentMilestoneId orElse CanonicalPlanGraph.indexOf
    cases hplan : plan.milestones with
    | nil => rfl
    | cons first rest => simp [getOrCreateCursor,given,findIdx_cons]
  · rintro before i after taskId rfl haccepted
    refine not_launched_of_accepted ?_
    obtain ⟨hlater,-⟩ := pairwise_cons.mp (pairwise_append.mp hgrows).2.1
    intro j hj
    rcases mem_cons.mp hj with rfl | hj
    · exact haccepted
    · exact (hlater j hj).tasks taskId haccepted
  · rintro before i after rfl hterminal repeats
    have hrun : runTicks projectId plan
        (getOrCreateCursor none projectId runId scope planIdentity planVersion explicit) (before ++ [i]) =
        commitTick projectId plan (runTicks projectId plan
          (getOrCreateCursor none projectId runId scope planIdentity planVersion explicit) before) i := by
      unfold runTicks
      rw [foldl_append]
      rfl
    rw [hrun]
    exact terminal_stays (run_stopped rfl) hterminal repeats

theorem Grows.refl (i : TickInputs) : Grows i i := ⟨fun _ h => h,fun _ h => h⟩

theorem sample_run_confined :
    Confined "p1" samplePlan (freshCursor .project) [sampleInputs [] [],sampleInputs ["t1"] ["m1"]] := by
  refine run_confined "p1" "run-1" "plan:v1" 1 false .project samplePlan _ (fun _ => by decide) ?_
  refine pairwise_pair.mpr ⟨?_,?_⟩
  · intro taskId h
    cases h
  · intro milestoneId h
    cases h

/-- The first milestone comes once more after the second. -/
def repeatingPlan : CanonicalPlanGraph where
  planIdentity := "plan:v1"
  planVersion := 1
  milestones := [⟨"m1","GATE:m1",[],["t1"]⟩,⟨"m2","GATE:m2",[],["t2"]⟩,⟨"m1","GATE:m1",[],["t1"]⟩]
  tasks := [sampleTask "t1" "m1" [],sampleTask "t2" "m2" []]

/-- A valid plan that repeats a milestone sends a PROJECT run back to its first one. -/
theorem repeated_milestone_turns_back : repeatingPlan.validateGraph = none ∧
    (List.replicate 2 (sampleInputs ["t1","t2"] ["m1","m2"])).Pairwise Grows ∧
    ¬ Confined "p1" repeatingPlan (freshCursor .project) (List.replicate 2 (sampleInputs ["t1","t2"] ["m1","m2"])) := by
  refine ⟨by decide +kernel,pairwise_replicate.mpr (.inr (Grows.refl _)),?_⟩
  intro h
  have hpositions : positions "p1" repeatingPlan (freshCursor .project)
      (List.replicate 2 (sampleInputs ["t1","t2"] ["m1","m2"])) = [0,1,0] := by decide +kernel
  have hchain := (h.project rfl).2
  rw [hpositions] at hchain
  exact absurd hchain (by decide)

end Bdb.Scope
