import Bdb.Project.Operations

/-! # What one commit can do to the execution document

Every committed transition is one of a few changes of the execution document. The
changes are stated once with all their guards; the invariants are proved from them and
never look at the transitions again.
-/
namespace Bdb.Project
open Relation

/-- The same launch, with its identity, group, generation and status kept. -/
structure SameLaunch (a b : ProjectExecutionBinding) : Prop where
  id : b.executionBindingId = a.executionBindingId
  project : b.projectId = strip a.projectId
  task : b.taskId = strip a.taskId
  version : b.planVersion = strip a.planVersion
  generation : b.generation = max 1 a.generation
  superseded : b.superseded = a.superseded
  status : b.status = .active
  stored : a.status.legal = true → a.status = .active
  subject : resultSubject b = (resultSubject a).map strip

/-- The result that ends a binding. -/
structure Settles (plan : ProjectPlan) (d : ExecutionDocument) (raw : ProjectExecutionBinding)
    (task : ProjectTask) (attempt : AttemptDocument) (acceptance : TaskAcceptanceResult)
    (status : TaskStatus) : Prop where
  stored : d.binding? raw.executionBindingId = some raw
  active : raw.isActive = true
  known : plan.task? (strip raw.taskId) = some task
  version : strip raw.planVersion = plan.planVersion
  current : d.currentBinding = none ∨ d.currentBinding = some raw.executionBindingId
  binding : attempt.attempt.executionBindingId = raw.executionBindingId
  fresh : attempt.isStale = false
  outcome : status = .completed ↔ attempt.attempt.resultStatus = .pass
  reached : status ∈ [TaskStatus.completed,.review,.blocked,.active]
  kept : effectiveStatus d task = .completed → status = .completed
  subject : acceptance.taskId = task.taskId

/-- What a change is about. -/
inductive Label where
  | launch (taskId : String)
  | records
  | conversation
  | restore
  | checkpoint
  | stale (attempt : AttemptDocument)
  | settle (task : ProjectTask) (attempt : AttemptDocument) (status : TaskStatus)
  | beginRun
  | stopRun (runId : String)
  | approve (taskId : String)
  | reopen (taskId : String)
  | pointer

/-- One change of the execution document under a plan. -/
inductive Change (plan : ProjectPlan) : Label → ExecutionDocument → ExecutionDocument → Prop
  | launch {d : ExecutionDocument} (now : String) (binding : ProjectExecutionBinding)
      (task : ProjectTask) (version : binding.planVersion = plan.planVersion)
      (known : plan.task? binding.taskId = some task)
      (new : d.binding? binding.executionBindingId = none)
      (ready : taskPrerequisiteBlockers plan d task = []) :
      Change plan (.launch binding.taskId) d (launched now binding d)
  | records {d : ExecutionDocument} (handoffs : Dict LaunchHandoff)
      (outbox : Dict ProjectLaunchOutboxRecord) :
      Change plan .records d { d with launchHandoffs := handoffs, launchOutbox := outbox }
  | conversation {d : ExecutionDocument} (raw bound : ProjectExecutionBinding)
      (stored : d.binding? raw.executionBindingId = some raw) (same : SameLaunch raw bound) :
      Change plan .conversation d { d with bindings := d.bindings.map (fun b =>
        if b.executionBindingId == raw.executionBindingId then bound else b) }
  | restore {d : ExecutionDocument} (raw : ProjectExecutionBinding) (task : ProjectTask)
      (stored : d.binding? raw.executionBindingId = some raw)
      (known : plan.task? (strip raw.taskId) = some task) (opened : (effectiveStatus d task).done = false) :
      Change plan .restore d { d with currentTaskId := some (some (strip raw.taskId)),
                                      currentBindingId := some (some raw.executionBindingId) }
  | checkpoint {d : ExecutionDocument} (checkpoints : Dict ExecutionCheckpoint) :
      Change plan .checkpoint d { d with checkpoints := checkpoints }
  | stale {d : ExecutionDocument} (attempt : AttemptDocument) (late : attempt.isStale = true) :
      Change plan (.stale attempt) d { d with attempts := d.attempts ++ [attempt], staleResult := true }
  | settle {d : ExecutionDocument} (now : String) (raw : ProjectExecutionBinding) (task : ProjectTask)
      (attempt : AttemptDocument) (acceptance : TaskAcceptanceResult) (status : TaskStatus)
      (settles : Settles plan d raw task attempt acceptance status) :
      Change plan (.settle task attempt status) d (withMilestones plan (advanced now plan task.taskId status
        (settled now raw.executionBindingId attempt acceptance task.taskId status d)))
  | beginRun {d : ExecutionDocument} (now projectId runId selected : String) (milestoneId : Option String)
      (selection : (milestoneAutoProgress plan d milestoneId).milestoneId = some selected)
      (runnable : (milestoneAutoProgress plan d milestoneId).status = .runnable ∨
        (milestoneAutoProgress plan d milestoneId).status = .milestoneCompleted)
      (free : ∀ r ∈ liveRun d, r.milestoneId = selected) :
      Change plan .beginRun d (started (startedRun now projectId runId selected plan
        (milestoneAutoProgress plan d milestoneId) (d.milestoneRuns.lookup runId))
        (d.milestoneRuns.lookup runId) d)
  | stopRun {d : ExecutionDocument} (runId : String) (run stopped : MilestoneRun)
      (stored : d.milestoneRuns.lookup runId = some run)
      (ended : stopped.status = .stopped ∧ stopped.milestoneId = run.milestoneId ∧
        stopped.milestoneRunId = run.milestoneRunId ∧ stopped.currentTaskId = run.currentTaskId) :
      Change plan (.stopRun runId) d { d with
        milestoneRuns := d.milestoneRuns.insert runId stopped,
        activeMilestoneRun := d.activeMilestoneRun.map (fun r =>
          if r.milestoneRunId = runId then stopped else r) }
  | approve {d : ExecutionDocument} (now taskId : String) (acceptance : TaskAcceptanceResult)
      (review : d.taskStatuses.lookup taskId = some .review)
      (last : d.acceptanceResults.reverse.find? (fun a => a.taskId == taskId) = some acceptance)
      (overall : acceptance.overall = .reviewRequired) :
      Change plan (.approve taskId) d (approved now plan taskId d)
  | reopen {d : ExecutionDocument} (now taskId : String)
      (review : d.taskStatuses.lookup taskId = some .review) :
      Change plan (.reopen taskId) d (changesRequested now taskId d)
  | pointer {d : ExecutionDocument} (current : Option String) (reconciled : reconciledTask plan d = current) :
      Change plan .pointer d { d with currentTaskId := some current }

/-- A change of the launch records or of the cursor alone. -/
def Minor (plan : ProjectPlan) (d e : ExecutionDocument) : Prop :=
  Change plan .records d e ∨ Change plan .pointer d e

/-- The effect of one commit or of one call: at most one change that its label
permits, and minor ones after it. -/
inductive Effect (plan : ProjectPlan) (P : Label → Prop) (d e : ExecutionDocument) : Prop
  | quiet (rest : ReflTransGen (Minor plan) d e)
  | main {f : ExecutionDocument} {l : Label} (permitted : P l) (change : Change plan l d f)
      (rest : ReflTransGen (Minor plan) f e)

namespace Effect

variable {plan : ProjectPlan} {P P' : Label → Prop} {d e f : ExecutionDocument}

theorem refl : Effect plan P d d := .quiet ReflTransGen.refl

theorem single {l : Label} (hl : P l) (h : Change plan l d e) : Effect plan P d e :=
  .main hl h ReflTransGen.refl

theorem minor (h : Effect plan P d e) (hm : Minor plan e f) : Effect plan P d f := by
  cases h with
  | quiet rest => exact .quiet (rest.tail hm)
  | main hl hc rest => exact .main hl hc (rest.tail hm)

theorem mono (h : Effect plan P d e) (hP : ∀ l, P l → P' l) : Effect plan P' d e := by
  cases h with
  | quiet rest => exact .quiet rest
  | main hl hc rest => exact .main (hP _ hl) hc rest

end Effect

/-! ## Reading a stored binding -/

theorem upper_strip_text (rt : Runtime) {s : BindingStatus} (h : s.legal = true) :
    rt.upper (strip s.text) = s.text := by
  cases s with
  | other t => cases h
  | _ => rfl

theorem ofText_text {s : BindingStatus} (h : s.legal = true) : BindingStatus.ofText s.text = s := by
  cases s with
  | other t => cases h
  | _ => rfl

variable {b : ProjectExecutionBinding}

variable {d : ExecutionDocument} {bindingId projectId : String} {amb : Ambient}
  {s t : ProjectMemoryState} {binding : ProjectExecutionBinding}

theorem binding?_some (h : d.binding? bindingId = some b) : b ∈ d.bindings ∧ b.executionBindingId = bindingId := by
  have hid := List.find?_some h
  exact ⟨List.mem_of_find?_eq_some h,by simpa using hid⟩

theorem storedBinding_ok (h : storedBinding d bindingId = .ok b) :
    d.binding? b.executionBindingId = some b ∧ b.executionBindingId = bindingId := by
  have hfound : d.binding? bindingId = some b := need_ok.mp h
  have hid := (binding?_some hfound).2
  exact ⟨hid.symm ▸ hfound,hid⟩

variable {rt : Runtime}

theorem active_of_bindingFromDict {raw : ProjectExecutionBinding}
    (h : bindingFromDict rt raw = .ok b) (hb : b.status = .active) (hl : raw.status.legal = true) :
    raw.status = .active := by
  obtain ⟨-,-,-,-,-,-,hs⟩ := bindingFromDict_ok h
  rw [upper_strip_text rt hl,ofText_text hl] at hs
  exact hs.symm.trans hb

/-! ## Events leave the document alone -/

theorem appendEvents_document {events : List EventText}
    (h : appendEvents amb projectId events s = .ok t) :
    t.document = s.document := by
  induction events generalizing s with
  | nil =>
    obtain rfl : s = t := pure_ok.mp h
    rfl
  | cons e rest ih =>
    obtain ⟨u,hu,ht⟩ := bind_ok.mp h
    exact (ih ht).trans (appendEvent_document hu)

theorem appendLaunchEvents_document {generation : Int}
    (h : appendLaunchEvents amb binding generation s = .ok t) : t.document = s.document := by
  obtain ⟨u,hu,ht⟩ := bind_ok.mp h
  exact (appendEvent_document ht).trans (appendEvent_document hu)

/-! ## Launches -/

theorem requirePrerequisites_ok {plan : ProjectPlan} {task : ProjectTask}
    (h : requirePrerequisites plan d task = .ok ()) : taskPrerequisiteBlockers plan d task = [] := by
  simp only [requirePrerequisites] at h
  split at h
  · rename_i hempty
    exact List.isEmpty_iff.mp hempty
  · cases h

theorem existingBinding_none (h : existingBinding rt d binding = .ok none) : d.binding? binding.executionBindingId = none := by
  unfold existingBinding at h
  cases hb : d.binding? binding.executionBindingId with
  | none => rfl
  | some b =>
    simp only [hb,bind_ok,require_ok,exists_and_left,exists_const] at h
    obtain ⟨-,h⟩ := h
    cases hc : bindingFromDict rt b with
    | error e => simp [hc] at h
    | ok c => simp [hc] at h

section Refinement
variable {amb : Ambient} {plan : ProjectPlan} {s t : ProjectMemoryState}

variable {binding : ProjectExecutionBinding} {r : Unit} {task : ProjectTask}
    {now bindingId conversationId projectId attemptId reason : String} {project : ProjectRecord}
    {result : Fields}

theorem persistBinding_effect {r : ProjectExecutionBinding} (hv : binding.planVersion = plan.planVersion)
    (h : persistBindingTransition amb plan binding s = .ok (t,r)) :
    Effect plan (· = .launch binding.taskId) s.document t.document := by
  obtain ⟨d,hd,h⟩ := bind_ok.mp h
  obtain ⟨task,htask,h⟩ := of_need h
  obtain ⟨existing,he,h⟩ := bind_ok.mp h
  cases existing with
  | some stored =>
    cases pure_ok.mp h
    exact Effect.refl
  | none =>
    obtain ⟨u,hpre,h⟩ := bind_ok.mp h
    obtain ⟨updated,hev,h⟩ := bind_ok.mp h
    cases pure_ok.mp h
    rw [appendLaunchEvents_document hev,ProjectMemoryState.document_withDocument,executionDocument_eq hd]
    rw [executionDocument_eq hd] at he hpre
    exact Effect.single rfl (Change.launch amb.now binding task hv htask
      (existingBinding_none he) (requirePrerequisites_ok hpre))

variable {d e : ExecutionDocument}

theorem launchBinding_effect {r : ProjectExecutionBinding}
    (hv : binding.planVersion = plan.planVersion)
    (htask : plan.task? binding.taskId = some task)
    (h : launchBinding amb plan binding task d = .ok (e,r)) :
    Effect plan (· = .launch binding.taskId) d e := by
  obtain ⟨existing,he,h⟩ := bind_ok.mp h
  cases existing with
  | some stored =>
    cases pure_ok.mp h
    exact Effect.refl
  | none =>
    obtain ⟨u,hpre,h⟩ := bind_ok.mp h
    cases pure_ok.mp h
    exact Effect.single rfl (Change.launch amb.now binding task hv htask
      (existingBinding_none he) (requirePrerequisites_ok hpre))

variable {prompt launchId digest runId taskId : String} {request : LaunchRequest} {rt : Runtime}
    {raw : ProjectExecutionBinding} {failureCode : Json}

theorem withOutbox_eq {r : ProjectLaunchOutboxRecord}
    (h : withOutbox now project plan prompt request d = .ok (e,r)) :
    e = { d with launchHandoffs := d.launchHandoffs, launchOutbox := e.launchOutbox } := by
  unfold withOutbox at h
  split at h
  · obtain ⟨_,_,h⟩ := rest₂ h
    cases pure_ok.mp h
    rfl
  · cases pure_ok.mp h
    rfl

theorem withHandoff_eq (now : String) (request : LaunchRequest) (d : ExecutionDocument) :
    withHandoff now request d = { d with launchHandoffs := (withHandoff now request d).launchHandoffs } := by
  unfold withHandoff
  split <;> rfl

theorem prepareLaunch_effect {r : ProjectExecutionBinding × ProjectLaunchOutboxRecord}
    (hv : request.binding.planVersion = plan.planVersion)
    (h : prepareLaunchTransition amb project plan prompt request s = .ok (t,r)) :
    Effect plan (· = .launch request.binding.taskId) s.document t.document := by
  obtain ⟨d,hd,h⟩ := bind_ok.mp h
  obtain ⟨task,htask,h⟩ := of_need h
  obtain ⟨⟨bound,stored⟩,hb,h⟩ := bind_ok.mp h
  obtain ⟨⟨posted,record⟩,ho,h⟩ := bind_ok.mp h
  obtain ⟨updated,hev,h⟩ := bind_ok.mp h
  cases pure_ok.mp h
  rw [appendLaunchEvents_document hev,ProjectMemoryState.document_withDocument,← executionDocument_eq hd]
  refine (launchBinding_effect hv htask hb).minor (.inl ?_)
  rw [withHandoff_eq,withOutbox_eq ho]
  exact Change.records _ _

theorem sameLaunch_of_bindingFromDict {b : ProjectExecutionBinding} (h : bindingFromDict rt raw = .ok b)
    (hid : raw.executionBindingId = bindingId) (hsafe : matchesId 0 127 bindingId = true)
    (hb : b.status = .active) : SameLaunch raw { b with conversationId := some conversationId } := by
  obtain ⟨hi,hp,hv,ht,hg,hs,-⟩ := bindingFromDict_ok h
  have hsubject : resultSubject b = (resultSubject raw).map strip := bindingFromDict_subject h
  refine ⟨?_,hp,ht,hv,hg,hs,hb,active_of_bindingFromDict h hb,hsubject⟩
  change b.executionBindingId = raw.executionBindingId
  rw [hi,hid]
  exact strip_of_matchesId hsafe

theorem bindConversation_effect {r : ProjectExecutionBinding} (hsafe : matchesId 0 127 bindingId = true)
    (h : bindConversationTransition amb project plan bindingId conversationId s = .ok (t,r)) :
    Effect plan (· = .conversation) s.document t.document := by
  obtain ⟨d,hd,h⟩ := bind_ok.mp h
  obtain ⟨raw,hraw,h⟩ := bind_ok.mp h
  obtain ⟨current,hcur,h⟩ := bind_ok.mp h
  obtain ⟨u,hact,h⟩ := bind_ok.mp h
  obtain ⟨_,h⟩ := rest_ok h
  split at h
  · cases pure_ok.mp h
    exact Effect.refl
  · obtain ⟨updated,hev,h⟩ := bind_ok.mp h
    cases pure_ok.mp h
    obtain ⟨hstored,hid⟩ := storedBinding_ok hraw
    rw [appendEvent_document hev,ProjectMemoryState.document_withDocument,← executionDocument_eq hd,← hid]
    exact Effect.single rfl (Change.conversation raw _ hstored
      (sameLaunch_of_bindingFromDict hcur hid hsafe (require_ok.mp hact).2.2.1))

theorem restoreCurrentBinding_effect {r : ProjectExecutionBinding}
    (h : restoreCurrentBindingTransition rt projectId plan bindingId s = .ok (t,r)) :
    Effect plan (· = .restore) s.document t.document := by
  obtain ⟨d,hd,h⟩ := bind_ok.mp h
  obtain ⟨raw,hraw,h⟩ := bind_ok.mp h
  obtain ⟨binding,hb,h⟩ := bind_ok.mp h
  obtain ⟨_,_,h⟩ := rest₂ h
  obtain ⟨task,htask,h⟩ := of_need h
  obtain ⟨u,hopen,h⟩ := bind_ok.mp h
  cases pure_ok.mp h
  obtain ⟨hstored,hid⟩ := storedBinding_ok hraw
  obtain ⟨-,-,-,ht,-⟩ := bindingFromDict_ok hb
  have hknown : plan.task? r.taskId = some task := htask
  rw [ht] at hknown
  rw [ProjectMemoryState.document_withDocument,← executionDocument_eq hd,← hid,ht]
  refine Effect.single rfl (Change.restore raw task hstored hknown ?_)
  simpa using require_ok.mp hopen

theorem markHandoffPending_effect
    {r : LaunchHandoff} (h : markHandoffPendingTransition now projectId binding s = .ok (t,r)) :
    Effect plan (· = .records) s.document t.document := by
  obtain ⟨d,hd,h⟩ := bind_ok.mp h
  split at h
  · obtain ⟨_,_,h⟩ := rest₂ h
    cases pure_ok.mp h
    exact Effect.refl
  · cases pure_ok.mp h
    rw [ProjectMemoryState.document_withDocument,← executionDocument_eq hd]
    exact Effect.single rfl (Change.records _ d.launchOutbox)

theorem markHandoffSent_effect {r : LaunchHandoff}
    (h : markHandoffSentTransition amb projectId plan bindingId launchId conversationId s = .ok (t,r)) :
    Effect plan (· = .records) s.document t.document := by
  obtain ⟨d,hd,h⟩ := bind_ok.mp h
  obtain ⟨_,h⟩ := rest_ok h
  split at h
  · cases pure_ok.mp h
    exact Effect.refl
  · obtain ⟨_,_,_,h⟩ := rest₃ h
    obtain ⟨_,_,h⟩ := rest₂ h
    cases pure_ok.mp h
    rw [ProjectMemoryState.document_withDocument,← executionDocument_eq hd]
    exact Effect.single rfl (Change.records _ d.launchOutbox)

theorem markOutbox_effect {target : OutboxStatus}
    {movable : OutboxStatus → Bool} {r : ProjectLaunchOutboxRecord}
    (h : markOutboxTransition now launchId target movable s = .ok (t,r)) :
    Effect plan (· = .records) s.document t.document := by
  obtain ⟨d,hd,h⟩ := bind_ok.mp h
  obtain ⟨_,_,h⟩ := rest₂ h
  split at h
  · cases pure_ok.mp h
    rw [ProjectMemoryState.document_withDocument,← executionDocument_eq hd]
    exact Effect.single rfl (Change.records d.launchHandoffs _)
  · cases pure_ok.mp h
    exact Effect.refl

theorem recordCheckpoint_effect {checkpoint r : ExecutionCheckpoint}
    (h : recordCheckpointTransition amb projectId plan binding checkpoint s = .ok (t,r)) :
    Effect plan (· = .checkpoint) s.document t.document := by
  obtain ⟨d,hd,h⟩ := bind_ok.mp h
  obtain ⟨_,_,_,h⟩ := rest₃ h
  obtain ⟨updated,hev,h⟩ := bind_ok.mp h
  cases pure_ok.mp h
  rw [appendEvent_document hev,ProjectMemoryState.document_withDocument,← executionDocument_eq hd]
  exact Effect.single rfl (Change.checkpoint _)

/-! ## Results -/

theorem validateBindingTransition_ok {c n : BindingStatus} (h : validateBindingTransition c n = .ok ()) :
    c.legal = true := by
  unfold validateBindingTransition at h
  split at h
  · cases h
  · rename_i hl
    simpa using hl

/-- An attempt of a binding under the digest of its result. -/
structure Carries (bindingId digest : String) (a : AttemptDocument) : Prop where
  binding : a.attempt.executionBindingId = bindingId
  digest : a.attempt.resultDigest = digest
  version : a.attempt.identityVersion = some identityVersionV2

theorem attemptDocument_ok {summary : String}
     {status : ResultStatus}
    {a : AttemptDocument} (h : attemptDocument amb project bindingId binding result attemptId digest status
      summary failureCode = .ok a) :
    a.attempt.resultStatus = status ∧ Carries bindingId digest a := by
  simp only [attemptDocument,bind_ok,pure_ok] at h
  obtain ⟨e,-,v,-,p,-,m,-,x,-,rfl⟩ := h
  exact ⟨rfl,rfl,rfl,rfl⟩

theorem taskStatusOf_completed {overall : ResultStatus} {ok : Bool} :
    taskStatusOf overall failureCode ok = .completed ↔ overall = .pass := by
  cases overall with
  | pass | reviewRequired | unknown => simp [taskStatusOf]
  | fail | staleResult => simp only [taskStatusOf]; split <;> simp

theorem taskStatusOf_mem (overall : ResultStatus) (failureCode : Json) (ok : Bool) :
    taskStatusOf overall failureCode ok ∈ [TaskStatus.completed,.review,.blocked,.active] := by
  cases overall with
  | pass | reviewRequired | unknown => simp [taskStatusOf]
  | fail | staleResult => simp only [taskStatusOf]; split <;> simp

theorem acceptanceOverall_ne_stale (ok : Bool) (criteria : List CriterionResult) :
    acceptanceOverall ok criteria ≠ .staleResult := by
  unfold acceptanceOverall
  split
  · simp
  · split
    · simp
    · split <;> simp

theorem verdict_ok {v : Verdict} (h : verdict amb project plan task result attemptId = .ok v) :
    v.acceptance.taskId = task.taskId ∧ v.overall ≠ .staleResult ∧
      (v.taskStatus = .completed ↔ v.overall = .pass) ∧
      v.taskStatus ∈ [TaskStatus.completed,.review,.blocked,.active] := by
  simp only [verdict,bind_ok,pure_ok] at h
  obtain ⟨val,-,items,-,ex,-,rfl⟩ := h
  refine ⟨rfl,?_,taskStatusOf_completed,taskStatusOf_mem _ _ _⟩
  change (if ex ∈ successful then _ else _) ≠ _
  split
  · exact acceptanceOverall_ne_stale _ _
  · simp

theorem staleReason_none (h : staleReason project plan d binding result = none) :
    binding.planVersion = plan.planVersion ∧ binding.superseded = false ∧ binding.status = .active ∧
      (d.currentBinding = none ∨ d.currentBinding = some binding.executionBindingId) := by
  unfold staleReason at h
  iterate 5
    split at h
    · cases h
  split at h
  · cases h
  · rename_i hs
    simp only [Bool.or_eq_true,not_or,bne_iff_ne,ne_eq,not_not,Bool.not_eq_true] at hs
    obtain ⟨⟨⟨⟨⟨-,-⟩,hv⟩,hsup⟩,hst⟩,hcur⟩ := hs
    refine ⟨hv,hsup,hst,?_⟩
    cases hc : d.currentBinding with
    | none => exact .inl rfl
    | some c =>
      simp only [hc,Option.any_some,bne_eq_false_iff_eq] at hcur
      exact .inr (congrArg some hcur)

theorem recordFresh_change {r : Recorded} (hsafe : matchesId 0 127 bindingId = true)
    (hraw : storedBinding d bindingId = .ok raw) (hb : bindingFromDict amb.runtime raw = .ok binding)
    (hfresh : staleReason project plan d binding result = none)
    (htask : plan.task? binding.taskId = some task)
    (h : recordFresh amb project plan bindingId raw binding task result attemptId digest d s = .ok (t,r)) :
    ∃ v attempt, verdict amb project plan task result attemptId = .ok v ∧
      Carries bindingId digest attempt ∧
      Change plan (.settle task attempt v.taskStatus) d t.document := by
  obtain ⟨v,hverdict,h⟩ := bind_ok.mp h
  obtain ⟨attempt,hattempt,h⟩ := bind_ok.mp h
  obtain ⟨u,hvalid,h⟩ := bind_ok.mp h
  obtain ⟨u,hkeep,h⟩ := bind_ok.mp h
  obtain ⟨updated,hev,h⟩ := bind_ok.mp h
  cases pure_ok.mp h
  obtain ⟨hstored,hid⟩ := storedBinding_ok hraw
  obtain ⟨hi,-,hv,ht,-,hsup,-⟩ := bindingFromDict_ok hb
  obtain ⟨hversion,hsuper,hactive,hcurrent⟩ := staleReason_none hfresh
  obtain ⟨hastatus,hcarries⟩ := attemptDocument_ok hattempt
  obtain ⟨hsubject,hnotstale,hpass,hmem⟩ := verdict_ok hverdict
  have hrawid : binding.executionBindingId = raw.executionBindingId := by
    rw [hi,hid]
    exact strip_of_matchesId hsafe
  have hrawactive : raw.status = .active :=
    active_of_bindingFromDict hb hactive (validateBindingTransition_ok hvalid)
  refine ⟨v,attempt,hverdict,hcarries,?_⟩
  rw [appendEvents_document hev,ProjectMemoryState.document_withDocument,← hid]
  refine Change.settle amb.now raw task attempt v.acceptance v.taskStatus ?_
  refine ⟨hstored,?_,ht ▸ htask,hv ▸ hversion,hrawid ▸ hcurrent,hcarries.binding.trans hid.symm,?_,?_,hmem,?_,
    hsubject⟩
  · simp [ProjectExecutionBinding.isActive,hrawactive,← hsup,hsuper]
  · simp [AttemptDocument.isStale,hastatus,hnotstale]
  · rw [hastatus]
    exact hpass
  · intro hcompleted
    by_contra hne
    exact require_ok.mp hkeep ⟨hcompleted,hne⟩

/-- The changes a submitted result may make. -/
def Submits (amb : Ambient) (project : ProjectRecord) (plan : ProjectPlan) (bindingId : String)
    (result : Fields) (s : ProjectMemoryState) : Label → Prop
  | .stale attempt => ∃ x, examine amb.runtime project plan bindingId result s = .ok x ∧
      (∃ reason, x.kind = .stale reason) ∧ Carries bindingId x.digest attempt
  | .settle task attempt status => ∃ x attemptId v,
      examine amb.runtime project plan bindingId result s = .ok x ∧ x.kind = .fresh task ∧
      attemptIdOf amb result = .ok attemptId ∧
      verdict amb project plan task result attemptId = .ok v ∧ v.taskStatus = status ∧
      Carries bindingId x.digest attempt
  | _ => False

theorem recordResult_effect {r : Recorded} (hsafe : matchesId 0 127 bindingId = true)
    (h : recordResultTransition amb project plan bindingId result s = .ok (t,r)) :
    Effect plan (Submits amb project plan bindingId result s) s.document t.document := by
  obtain ⟨x,hx,h⟩ := bind_ok.mp h
  obtain ⟨digestV1,hex⟩ := examine_ok hx
  cases hkind : x.kind with
  | replay stored =>
    simp only [hkind] at h
    obtain ⟨_,h⟩ := rest_ok h
    cases pure_ok.mp h
    exact Effect.refl
  | stale reason =>
    simp only [hkind] at h
    obtain ⟨_,h⟩ := rest_ok h
    obtain ⟨attempt,hattempt,h⟩ := bind_ok.mp h
    obtain ⟨updated,hev,h⟩ := bind_ok.mp h
    cases pure_ok.mp h
    obtain ⟨hstatus,hcarries⟩ := attemptDocument_ok hattempt
    have hlabel : Submits amb project plan bindingId result s (.stale attempt) :=
      ⟨x,hx,⟨reason,hkind⟩,hcarries⟩
    rw [appendEvent_document hev,ProjectMemoryState.document_withDocument,executionDocument_eq hex.document]
    refine Effect.single hlabel (Change.stale attempt ?_)
    simp [AttemptDocument.isStale,hstatus]
  | fresh task =>
    simp only [hkind] at h
    obtain ⟨attemptId,hid,h⟩ := bind_ok.mp h
    obtain ⟨-,hfresh,htask⟩ := classify_fresh (hkind ▸ hex.kind)
    obtain ⟨v,attempt,hv,hcarries,hchange⟩ := recordFresh_change hsafe hex.raw hex.binding hfresh htask h
    have hlabel : Submits amb project plan bindingId result s (.settle task attempt v.taskStatus) :=
      ⟨x,attemptId,v,hx,hkind,hid,hv,rfl,hcarries⟩
    rw [← executionDocument_eq hex.document]
    exact Effect.single hlabel hchange

/-! ## Runs, reviews and the cursor -/

theorem beginMilestoneAuto_effect {selected : String} {milestoneId : Option String}
    (hsel : (milestoneAutoProgress plan s.document milestoneId).milestoneId = some selected)
    (hrun : (milestoneAutoProgress plan s.document milestoneId).status = .runnable ∨
      (milestoneAutoProgress plan s.document milestoneId).status = .milestoneCompleted)
    (h : beginMilestoneAutoTransition amb projectId plan (milestoneAutoProgress plan s.document milestoneId)
      selected runId s = .ok (t,r)) : Effect plan (· = .beginRun) s.document t.document := by
  obtain ⟨d,hd,h⟩ := bind_ok.mp h
  obtain ⟨u,hfree,h⟩ := bind_ok.mp h
  obtain ⟨_,h⟩ := rest_ok h
  rw [executionDocument_eq hd] at hfree h
  have hlive : ∀ r ∈ liveRun s.document, r.milestoneId = selected := by
    intro r hr
    by_contra hne
    exact require_ok.mp hfree ⟨r,hr,hne⟩
  have hchange := Change.beginRun amb.now projectId runId selected milestoneId hsel hrun hlive
  cases hex : s.document.milestoneRuns.lookup runId with
  | some existing =>
    simp only [hex] at h hchange
    cases pure_ok.mp h
    rw [ProjectMemoryState.document_withDocument]
    exact Effect.single rfl hchange
  | none =>
    simp only [hex] at h hchange
    obtain ⟨logged,hev,h⟩ := bind_ok.mp h
    cases pure_ok.mp h
    rw [appendEvent_document hev,ProjectMemoryState.document_withDocument]
    exact Effect.single rfl hchange

theorem stopMilestoneAuto_effect
    (h : stopMilestoneAutoTransition amb projectId plan runId reason s = .ok (t,r)) :
    Effect plan (· = .stopRun runId) s.document t.document := by
  obtain ⟨d,hd,h⟩ := bind_ok.mp h
  obtain ⟨run,hrun,h⟩ := of_need h
  obtain ⟨_,h⟩ := rest_ok h
  obtain ⟨updated,hev,h⟩ := bind_ok.mp h
  cases pure_ok.mp h
  rw [appendEvent_document hev,ProjectMemoryState.document_withDocument,← executionDocument_eq hd]
  exact Effect.single rfl (Change.stopRun runId run _ hrun ⟨rfl,rfl,rfl,rfl⟩)

theorem approveReview_effect (h : approveReviewTransition amb projectId plan taskId reason s = .ok (t,r)) :
    Effect plan (· = .approve taskId) s.document t.document := by
  obtain ⟨d,hd,h⟩ := bind_ok.mp h
  obtain ⟨u,hreview,h⟩ := bind_ok.mp h
  obtain ⟨acceptance,hlast,h⟩ := of_need h
  obtain ⟨u,hoverall,h⟩ := bind_ok.mp h
  obtain ⟨_,_,h⟩ := rest₂ h
  obtain ⟨updated,hev,h⟩ := bind_ok.mp h
  cases pure_ok.mp h
  rw [appendEvent_document hev,ProjectMemoryState.document_withDocument,← executionDocument_eq hd]
  exact Effect.single rfl (Change.approve amb.now taskId acceptance (require_ok.mp hreview)
    hlast (require_ok.mp hoverall))

theorem requestChanges_effect (h : requestChangesTransition amb projectId plan taskId reason s = .ok (t,r)) :
    Effect plan (· = .reopen taskId) s.document t.document := by
  obtain ⟨d,hd,h⟩ := bind_ok.mp h
  obtain ⟨u,hreview,h⟩ := bind_ok.mp h
  obtain ⟨_,h⟩ := rest_ok h
  obtain ⟨updated,hev,h⟩ := bind_ok.mp h
  cases pure_ok.mp h
  rw [appendEvent_document hev,ProjectMemoryState.document_withDocument,← executionDocument_eq hd]
  exact Effect.single rfl (Change.reopen amb.now taskId (require_ok.mp hreview))

theorem setPointer_minor {current : Option String} (hcur : reconciledTask plan s.document = current)
    (h : setPointerTransition current s = .ok (t,r)) : Minor plan s.document t.document := by
  obtain ⟨d,hd,h⟩ := bind_ok.mp h
  cases pure_ok.mp h
  rw [ProjectMemoryState.document_withDocument,executionDocument_eq hd]
  exact .inr (Change.pointer current hcur)

theorem requestProjectReview_document
    (h : requestProjectReviewTransition amb projectId plan reason s = .ok (t,r)) :
    t.document = s.document := by
  obtain ⟨updated,hev,h⟩ := bind_ok.mp h
  cases pure_ok.mp h
  exact appendEvent_document hev

end Refinement

theorem reconcileBindings_fails {r : Unit} :
    reconcileBindingsTransition amb projectId s ≠ .ok (t,r) := by
  intro h
  obtain ⟨_,h⟩ := rest_ok h
  obtain ⟨updated,hev,-⟩ := bind_ok.mp h
  obtain ⟨u,htype,-⟩ := bind_ok.mp hev
  exact absurd (require_ok.mp htype) (by decide)

end Bdb.Project
