import Bdb.Base.Sha256
import Bdb.Project.Changes

/-! # Calls refine changes

An operation of the coordinator, whatever its arguments and however it ends, moves the
execution document by at most one change that its kind permits. An invariant of the
changes is therefore an invariant of every run.
-/
namespace Bdb.Project
open Relation
open Program

/-! ## What a call is about -/

/-- A submitted result with the authority and the state it meets. -/
structure Submission where
  project : ProjectRecord
  plan : ProjectPlan
  bindingId : String
  state : ProjectMemoryState
  found : Examined

/-- What is known about a result before anything is written. -/
def submission (amb : Ambient) (site : Site) (projectId : String) (result : Fields) (m : Memory) :
    Outcome Submission := do
  let (project,plan) ← site.authority projectId
  let bindingId ← identifier (result.get "execution_binding_id") "execution_binding_id"
  let state ← readState projectId m
  let found ← examine amb.runtime project plan bindingId result state
  pure ⟨project,plan,bindingId,state,found⟩

variable {result : Fields} {s : Submission} {c : Call} {plan : ProjectPlan} {C : Call → Memory → Prop}

variable {projectId : String} {m : Memory}

theorem submission_ok {amb : Ambient} {site : Site} (h : submission amb site projectId result m = .ok s) :
    site.authority projectId = .ok (s.project,s.plan) ∧
      identifier (result.get "execution_binding_id") "execution_binding_id" = .ok s.bindingId ∧
      readState projectId m = .ok s.state ∧
      examine amb.runtime s.project s.plan s.bindingId result s.state = .ok s.found := by
  obtain ⟨⟨project,plan⟩,hauth,h⟩ := bind_ok.mp h
  obtain ⟨bindingId,hid,h⟩ := bind_ok.mp h
  obtain ⟨state,hread,h⟩ := bind_ok.mp h
  obtain ⟨x,hx,h⟩ := bind_ok.mp h
  obtain rfl := pure_ok.mp h
  exact ⟨hauth,hid,hread,hx⟩

def settlement (amb : Ambient) (site : Site) (projectId : String) (result : Fields) (m : Memory) :
    Outcome (Option (ProjectTask × TaskStatus)) := do
  let s ← submission amb site projectId result m
  match s.found.kind with
  | .fresh task => do
    let attemptId ← attemptIdOf amb result
    let v ← verdict amb s.project s.plan task result attemptId
    pure (some (task,v.taskStatus))
  | .replay _ => pure none
  | .stale _ => pure none

namespace Call

def launches (c : Call) (m : Memory) : Option String :=
  match c.operation with
  | .start p request => (newBinding c.ambient c.site p request m).toOption.map (·.taskId)
  | .persistBinding b => some b.taskId
  | .prepareLaunch request => some request.binding.taskId
  | _ => none

def settles (c : Call) (m : Memory) : Option (ProjectTask × TaskStatus) :=
  match c.operation with
  | .recordResult p result => (settlement c.ambient c.site p result m).toOption.join
  | _ => none

def Records (c : Call) (m : Memory) (a : AttemptDocument) : Prop :=
  ∃ p result s, c.operation = .recordResult p result ∧
    submission c.ambient c.site p result m = .ok s ∧ Carries s.bindingId s.found.digest a

def Permits (c : Call) (m : Memory) : Label → Prop
  | .launch taskId => c.launches m = some taskId
  | .stale attempt => c.Records m attempt
  | .settle task attempt status => c.settles m = some (task,status) ∧ c.Records m attempt
  | .beginRun => ∃ p milestoneId runId, c.operation = .beginMilestoneAuto p milestoneId runId
  | .stopRun runId => ∃ p name reason, c.operation = .stopMilestoneAuto p name reason ∧ runId = strip name
  | .approve taskId => ∃ p reason, c.operation = .approveReview p taskId reason
  | .reopen taskId => ∃ p reason, c.operation = .requestChanges p taskId reason
  | _ => True

end Call

/-! ## Every operation -/

def Moves (site : Site) (P : Label → Prop) (d e : ExecutionDocument) : Prop :=
  e = d ∨ ∃ plan, site.plan = some plan ∧ Effect plan P d e

theorem document_of_readState {s : ProjectMemoryState}
    (h : readState projectId m = .ok s) : s.document = documentOf m := by
  obtain ⟨rfl,-⟩ := readState_eq h
  cases m <;> rfl

section Actions
variable {amb : Ambient} {site : Site} {P : Label → Prop} {m : Memory}

abbrev MovesFrom (site : Site) (P : Label → Prop) (m n : Memory) : Prop :=
  Moves site P (documentOf m) (documentOf n)

variable {projectId : String}

variable {plan : ProjectPlan} {binding : ProjectExecutionBinding}

theorem ends_transact {α : Type} {operation : Transition α} (hplan : site.plan = some plan)
    (hop : ∀ s t a, readState projectId m = .ok s → operation s = .ok (t,a) →
      Effect plan P s.document t.document) :
    Ends (transact projectId operation) m (MovesFrom site P m) := by
  refine ends_commit (.inl rfl) fun n a h => ?_
  obtain ⟨current,updated,hread,hrun,-,rfl,-⟩ := executionTransaction_ok h
  have heffect := hop current updated a hread hrun
  rw [document_of_readState hread] at heffect
  exact .inr ⟨plan,hplan,heffect⟩

theorem bindingAuthority_ok {project : ProjectRecord}
    (h : bindingAuthority site binding = .ok (project,plan)) :
    site.plan = some plan ∧ binding.planVersion = plan.planVersion ∧
      binding.projectId = site.project.projectId ∧ project = site.project := by
  obtain ⟨_,h⟩ := rest_ok h
  obtain ⟨⟨p,q⟩,hauth,h⟩ := bind_ok.mp h
  obtain ⟨hmatch,h⟩ := of_require h
  cases pure_ok.mp h
  obtain ⟨hv,-⟩ := hmatch
  obtain ⟨rfl,hid,hplan⟩ := Site.authority_ok hauth
  exact ⟨hplan,hv,hid.symm,rfl⟩

theorem ends_persistBinding (hP : P (.launch binding.taskId)) :
    Ends (persistBinding amb site binding) m (MovesFrom site P m) := by
  refine ends_bind_lift (.inl rfl) fun ⟨project,plan⟩ hauth => ?_
  obtain ⟨hplan,hv,-⟩ := bindingAuthority_ok hauth
  exact ends_transact hplan fun _ _ _ _ h => (persistBinding_effect hv h).mono fun _ hl => hl ▸ hP

theorem ends_reconcile {d : ExecutionDocument} (hm : Moves site P d (documentOf m)) :
    Ends (reconcile site projectId) m (fun n => Moves site P d (documentOf n)) := by
  refine ends_bind_lift hm fun ⟨project,plan⟩ hauth => ?_
  obtain ⟨-,-,hplan⟩ := Site.authority_ok hauth
  refine ends_bind_observe hm fun state hread => ?_
  refine ends_bind_lift hm fun x hx => ?_
  simp only
  split
  · exact ends_pure _ hm
  · refine ends_bind ?_ (fun _ _ ht => ends_pure _ ht)
    refine ends_commit hm fun n a h => ?_
    obtain ⟨current,updated,hcur,hrun,-,rfl,-⟩ := executionTransaction_ok h
    obtain rfl : state = current := Except.ok.inj (hread.symm.trans hcur)
    have hminor : Minor plan state.document updated.document :=
      setPointer_minor (by rw [executionDocument_eq hx]) hrun
    rw [document_of_readState hread] at hminor
    refine .inr ⟨plan,hplan,?_⟩
    rcases hm with heq | ⟨plan',hplan',heffect⟩
    · rw [heq] at hminor
      exact Effect.refl.minor hminor
    · obtain rfl : plan = plan' := some_unique hplan hplan'
      exact heffect.minor hminor

theorem ends_recordResult {result : Fields} (hP : ∀ s, submission amb site projectId result m = .ok s →
      ∀ l, Submits amb s.project s.plan s.bindingId result s.state l → P l) :
    Ends (recordResult amb site projectId result) m (MovesFrom site P m) := by
  refine ends_bind_lift (.inl rfl) fun ⟨project,plan⟩ hauth => ?_
  obtain ⟨-,-,hplan⟩ := Site.authority_ok hauth
  refine ends_bind_lift (.inl rfl) fun bindingId hid => ?_
  refine ends_bind (ends_transact hplan fun s t a hread h => ?_) ?_
  · obtain ⟨x,hx,-⟩ := bind_ok.mp h
    have hsub : submission amb site projectId result m = .ok ⟨project,plan,bindingId,s,x⟩ :=
      bind_ok.mpr ⟨(project,plan),hauth,bind_ok.mpr ⟨bindingId,hid,bind_ok.mpr ⟨s,hread,
        bind_ok.mpr ⟨x,hx,rfl⟩⟩⟩⟩
    exact (recordResult_effect (identifier_ok hid).2.2 h).mono fun l hl => hP _ hsub l hl
  · rintro ⟨attempt,stale⟩ t ht
    cases stale with
    | some reason => exact ends_throw _ ht
    | none => exact ends_bind (ends_reconcile ht) (fun _ _ hn => ends_pure _ hn)

theorem ends_beginMilestoneAuto {milestoneId runId : Option String} (hP : P .beginRun) :
    Ends (beginMilestoneAuto amb site projectId milestoneId runId) m (MovesFrom site P m) := by
  refine ends_bind_lift (.inl rfl) fun ⟨project,plan⟩ hauth => ?_
  obtain ⟨-,-,hplan⟩ := Site.authority_ok hauth
  refine ends_bind_observe (.inl rfl) fun state hread => ?_
  simp only
  split
  · rename_i hstatus
    refine ends_bind_lift (.inl rfl) fun d hd => ?_
    refine ends_bind_lift (.inl rfl) fun id hid => ?_
    refine ends_bind ?_ (fun _ _ ht => ends_observe _ ht)
    refine ends_transact hplan fun s t a hs h => ?_
    obtain rfl : state = s := Except.ok.inj (hread.symm.trans hs)
    have heffect := beginMilestoneAuto_effect (milestoneAutoProgress_selected hstatus) hstatus h
    exact heffect.mono fun _ hl => hl ▸ hP
  · exact ends_throw _ (.inl rfl)

end Actions

theorem Call.permits_of_submits {p : String} (hop : c.operation = .recordResult p result)
    (hs : submission c.ambient c.site p result m = .ok s) {l : Label}
    (hl : Submits c.ambient s.project s.plan s.bindingId result s.state l) : c.Permits m l := by
  obtain ⟨-,-,-,hfound⟩ := submission_ok hs
  cases l with
  | stale attempt =>
    obtain ⟨x,hx,-,hcarries⟩ := hl
    obtain rfl : s.found = x := Except.ok.inj (hfound.symm.trans hx)
    exact ⟨p,result,s,hop,hs,hcarries⟩
  | settle task attempt status =>
    obtain ⟨x,attemptId,v,hx,hkind,hid,hv,rfl,hcarries⟩ := hl
    obtain rfl : s.found = x := Except.ok.inj (hfound.symm.trans hx)
    refine ⟨?_,p,result,s,hop,hs,hcarries⟩
    have hsettle : settlement c.ambient c.site p result m = .ok (some (task,v.taskStatus)) := by
      refine bind_of hs ?_
      simp only [hkind]
      refine bind_of hid ?_
      exact bind_of hv rfl
    simp only [Call.settles,hop,hsettle]
    rfl
  | _ => exact hl.elim

theorem Call.moves (c : Call) (m : Memory) : MovesFrom c.site (c.Permits m) m (c.run m) := by
  change Ends (c.operation.action c.ambient c.site) m (MovesFrom c.site (c.Permits m) m)
  cases hop : c.operation with
  | start p r =>
    refine Ends.discard (ends_bind_observe (.inl rfl) fun b hb => ends_persistBinding ?_)
    simp [Call.Permits,Call.launches,hop,hb,Except.toOption]
  | persistBinding b =>
    refine Ends.discard (ends_persistBinding ?_)
    simp [Call.Permits,Call.launches,hop]
  | prepareLaunch r =>
    have hP : c.Permits m (.launch r.binding.taskId) := by simp [Call.Permits,Call.launches,hop]
    refine Ends.discard (ends_bind_lift (.inl rfl) fun authority hauth => ?_)
    obtain ⟨project,plan⟩ := authority
    obtain ⟨hplan,hv,-⟩ := bindingAuthority_ok hauth
    refine ends_bind_lift (.inl rfl) fun prompt _ => ?_
    exact ends_transact hplan fun _ _ _ _ h => (prepareLaunch_effect hv h).mono fun _ hl => hl ▸ hP
  | bindConversation p b owner =>
    refine Ends.discard (ends_bind_lift (.inl rfl) fun owner _ => ?_)
    refine ends_bind_lift (.inl rfl) fun id hid => ?_
    refine ends_bind_lift (.inl rfl) fun authority hauth => ?_
    obtain ⟨project,plan⟩ := authority
    obtain ⟨-,-,hplan⟩ := Site.authority_ok hauth
    exact ends_transact hplan fun _ _ _ _ h =>
      (bindConversation_effect (identifier_ok hid).2.2 h).mono fun _ hl => hl ▸ trivial
  | restoreCurrentBinding p b =>
    refine Ends.discard (ends_bind_lift (.inl rfl) fun id _ => ?_)
    refine ends_bind_lift (.inl rfl) fun authority hauth => ?_
    obtain ⟨project,plan⟩ := authority
    obtain ⟨-,-,hplan⟩ := Site.authority_ok hauth
    exact ends_transact hplan fun _ _ _ _ h =>
      (restoreCurrentBinding_effect h).mono fun _ hl => hl ▸ trivial
  | markLaunchHandoffPending p b =>
    refine Ends.discard (ends_bind_lift (.inl rfl) fun authority hauth => ?_)
    obtain ⟨project,plan⟩ := authority
    obtain ⟨-,-,hplan⟩ := Site.authority_ok hauth
    refine ends_bind_lift (.inl rfl) fun _ _ => ?_
    exact ends_transact hplan fun _ _ _ _ h => (markHandoffPending_effect h).mono fun _ hl => hl ▸ trivial
  | markLaunchHandoffSent p b l owner =>
    refine Ends.discard (ends_bind_lift (.inl rfl) fun id _ => ?_)
    refine ends_bind_lift (.inl rfl) fun owner _ => ?_
    refine ends_bind_lift (.inl rfl) fun authority hauth => ?_
    obtain ⟨project,plan⟩ := authority
    obtain ⟨-,-,hplan⟩ := Site.authority_ok hauth
    exact ends_transact hplan fun _ _ _ _ h => (markHandoffSent_effect h).mono fun _ hl => hl ▸ trivial
  | markOutboxPublished p l | markOutboxAcknowledged p l =>
    refine Ends.discard (ends_bind_lift (.inl rfl) fun authority hauth => ?_)
    obtain ⟨project,plan⟩ := authority
    obtain ⟨-,-,hplan⟩ := Site.authority_ok hauth
    exact ends_transact hplan fun _ _ _ _ h => (markOutbox_effect h).mono fun _ hl => hl ▸ trivial
  | recordCheckpoint p b r =>
    refine Ends.discard (ends_bind_observe (.inl rfl) fun binding _ => ?_)
    refine ends_bind_lift (.inl rfl) fun checkpoint _ => ?_
    refine ends_bind_lift (.inl rfl) fun authority hauth => ?_
    obtain ⟨project,plan⟩ := authority
    obtain ⟨-,-,hplan⟩ := Site.authority_ok hauth
    exact ends_transact hplan fun _ _ _ _ h => (recordCheckpoint_effect h).mono fun _ hl => hl ▸ trivial
  | recordResult p r =>
    exact Ends.discard (ends_recordResult fun s hs l hl => Call.permits_of_submits hop hs hl)
  | beginMilestoneAuto p i r => exact Ends.discard (ends_beginMilestoneAuto ⟨p,i,r,hop⟩)
  | stopMilestoneAuto p r reason =>
    refine Ends.discard (ends_bind_lift (.inl rfl) fun authority hauth => ?_)
    obtain ⟨project,plan⟩ := authority
    obtain ⟨-,-,hplan⟩ := Site.authority_ok hauth
    refine ends_bind_lift (.inl rfl) fun id hid => ?_
    obtain ⟨⟨name,hname,htrim⟩,-⟩ := identifier_ok hid
    cases hname
    have hP : c.Permits m (.stopRun id) := ⟨p,r,reason,hop,htrim⟩
    refine ends_bind (ends_transact hplan fun _ _ _ _ h => ?_) (fun _ _ ht => ends_observe _ ht)
    exact (stopMilestoneAuto_effect h).mono fun _ hl => hl ▸ hP
  | approveReview p t r =>
    have hP : c.Permits m (.approve t) := ⟨p,r,hop⟩
    refine ends_bind_lift (.inl rfl) fun authority hauth => ?_
    obtain ⟨project,plan⟩ := authority
    obtain ⟨-,-,hplan⟩ := Site.authority_ok hauth
    refine ends_bind (ends_transact hplan fun _ _ _ _ h => ?_) fun _ _ ht => ?_
    · exact (approveReview_effect h).mono fun _ hl => hl ▸ hP
    · exact ends_bind (ends_reconcile ht) (fun _ _ hn => ends_pure _ hn)
  | requestChanges p t r =>
    have hP : c.Permits m (.reopen t) := ⟨p,r,hop⟩
    refine ends_bind_lift (.inl rfl) fun authority hauth => ?_
    obtain ⟨project,plan⟩ := authority
    obtain ⟨-,-,hplan⟩ := Site.authority_ok hauth
    refine ends_bind (ends_transact hplan fun _ _ _ _ h => ?_) fun _ _ ht => ?_
    · exact (requestChanges_effect h).mono fun _ hl => hl ▸ hP
    · exact ends_bind (ends_reconcile ht) (fun _ _ hn => ends_pure _ hn)
  | reconcile p => exact Ends.discard (ends_reconcile (.inl rfl))
  | requestProjectReview p r =>
    refine ends_bind_lift (.inl rfl) fun authority hauth => ?_
    obtain ⟨project,plan⟩ := authority
    obtain ⟨-,-,hplan⟩ := Site.authority_ok hauth
    refine ends_bind_lift (.inl rfl) fun text _ => ?_
    exact ends_transact hplan fun _ _ _ _ h => requestProjectReview_document h ▸ Effect.refl
  | reconcileProjectBindings p =>
    refine ends_bind_lift (.inl rfl) fun authority hauth => ?_
    obtain ⟨project,plan⟩ := authority
    obtain ⟨-,-,hplan⟩ := Site.authority_ok hauth
    exact ends_transact hplan fun _ _ _ _ h => absurd h reconcileBindings_fails

/-! ## Every run -/

variable {I : ExecutionDocument → Prop}

theorem Effect.invariant {P : Label → Prop}
    (hstep : ∀ l d e, P l ∨ l = .records ∨ l = .pointer → Change plan l d e → I d → I e)
    {d e : ExecutionDocument} (h : Effect plan P d e) (hd : I d) : I e := by
  have hminor : ∀ d e, Minor plan d e → I d → I e := by
    rintro d e (hc | hc)
    · exact hstep .records d e (.inr (.inl rfl)) hc
    · exact hstep .pointer d e (.inr (.inr rfl)) hc
  cases h with
  | quiet rest => exact invariant_of_steps hminor rest hd
  | main hl hc rest => exact invariant_of_steps hminor rest (hstep _ _ _ (.inl hl) hc hd)

theorem runCalls_invariant
    (hstep : ∀ plan l d e, plan.WellFormed → Change plan l d e → I d → I e) (calls : List Call)
    (hm : I (documentOf m)) : I (documentOf (runCalls calls m)) := by
  induction calls generalizing m with
  | nil => exact hm
  | cons c rest ih =>
    refine ih ?_
    rcases c.moves m with heq | ⟨plan,hplan,heffect⟩
    · rw [heq]
      exact hm
    · exact heffect.invariant (fun l d e _ => hstep plan l d e (c.site.planWellFormed plan hplan)) hm

theorem runCalls_related {T : ExecutionDocument → ExecutionDocument → Prop}
    (hrefl : ∀ d, T d d) (htrans : ∀ d e f, T d e → T e f → T d f)
    (hstep : ∀ plan l d e, plan.WellFormed → Change plan l d e → I d → I e)
    (hrel : ∀ plan l d e, plan.WellFormed → Change plan l d e → I d → T d e) (calls : List Call)
    (hm : I (documentOf m)) : T (documentOf m) (documentOf (runCalls calls m)) := by
  refine (runCalls_invariant (I := fun e => I e ∧ T (documentOf m) e) ?_ calls ⟨hm,hrefl _⟩).2
  rintro plan l d e hw hchange ⟨hd,ht⟩
  exact ⟨hstep plan l d e hw hchange hd,htrans _ _ _ ht (hrel plan l d e hw hchange hd)⟩

theorem runCalls_append (xs ys : List Call) (m : Memory) :
    runCalls (xs ++ ys) m = runCalls ys (runCalls xs m) := List.foldl_append

/-! ## Runs under a condition -/

def AllCalls (C : Call → Memory → Prop) : List Call → Memory → Prop
  | [], _ => True
  | c :: rest, m => C c m ∧ AllCalls C rest (c.run m)

theorem allCalls_append {xs ys : List Call} :
    AllCalls C (xs ++ ys) m ↔ AllCalls C xs m ∧ AllCalls C ys (runCalls xs m) := by
  induction xs generalizing m with
  | nil => exact (iff_of_eq (true_and _)).symm
  | cons c rest ih =>
    change C c m ∧ AllCalls C (rest ++ ys) (c.run m) ↔ (C c m ∧ AllCalls C rest (c.run m)) ∧ _
    rw [ih,and_assoc]
    rfl

theorem runCalls_guarded {I : Memory → Prop}
    (hstep : ∀ c m, C c m → I m → I (c.run m)) {calls : List Call}
    (hcalls : AllCalls C calls m) (hm : I m) : I (runCalls calls m) := by
  induction calls generalizing m with
  | nil => exact hm
  | cons c rest ih => exact ih hcalls.2 (hstep c m hcalls.1 hm)

theorem Call.keeps (hplan : c.site.plan = some plan) (hminor : ∀ d e, Minor plan d e → I d → I e)
    (hmain : ∀ l e, c.Permits m l → Change plan l (documentOf m) e → I e) (hm : I (documentOf m)) :
    I (documentOf (c.run m)) := by
  rcases c.moves m with heq | ⟨plan',hplan',heffect⟩
  · rw [heq]
    exact hm
  · obtain rfl : plan = plan' := some_unique hplan hplan'
    cases heffect with
    | quiet rest => exact invariant_of_steps hminor rest hm
    | main hl hc rest => exact invariant_of_steps hminor rest (hmain _ _ hl hc)

/-! ## A small project

Two milestones, ASCII texts only: the setting of the concrete runs below.
-/

def sampleRuntime : Runtime where
  upperTable c := [c]
  lowerTable c := [c]
  repr _ := ""
  fromIsoFormat s :=
    let cs := s.toList
    if "+00:00".toList.isSuffixOf cs then some (.utc (String.ofList (cs.take (cs.length - 6)) ++ "Z"))
    else some (.utc s)
  sha256 := Sha256.sha256

def sampleAmbient : Ambient :=
  ⟨sampleRuntime,"2026-01-01T00:00:00.000000Z","0123456789abcdef0123456789abcdef",
    "01234567-89ab-cdef-0123-456789abcdef"⟩

def sampleTask (taskId milestoneId : String) (status : TaskStatus) (criteria : List String) : ProjectTask :=
  ⟨taskId,milestoneId,"Task","Work",status,[],criteria,[],[],[],[],[],[],[]⟩

def samplePlan (tasks : List ProjectTask) : ProjectPlan :=
  { projectId := "p1", projectName := "Project", planVersion := "1",
    milestones := [⟨"m1","First","Work",.pending⟩,⟨"m2","Second","Work",.pending⟩], tasks := tasks,
    currentTaskId := none, supersedesVersion := none, createdAt := none, revisionReason := none,
    revisionSummary := none, planningContext := none }

def sampleProject : ProjectRecord :=
  { projectId := "p1", repoAlias := "repo", projectStatus := "active", planImported := true,
    planVersion := some "1", totalTasks := 2, completedTasks := 0, currentMilestone := none,
    currentTask := none, idSafe := by decide, aliasSafe := by decide }

def sampleSite (plan : ProjectPlan) (h : plan.WellFormed) : Site :=
  ⟨sampleProject,some plan,fun _ hp => Option.some.inj hp ▸ h⟩

theorem oneTask_wellFormed : (samplePlan [sampleTask "t1" "m1" .pending []]).WellFormed := by
  decide

def sampleBinding (bindingId taskId : String) : ProjectExecutionBinding :=
  ⟨bindingId,"p1","1",taskId,"launch-" ++ bindingId,"corr","command","repo","unknown",
    "2026-01-01T00:00:00.000000Z",.active,false,1,none,none⟩

def sampleResult (bindingId validation : String) : Fields :=
  [("execution_binding_id",.str bindingId),("command_id",.str "command"),
    ("correlation_id",.str "corr"),("execution_status",.str "PASS"),
    ("validation_status",.str validation)]

end Bdb.Project
