import Bdb.Project.Lifecycle
import Bdb.Project.Progress
import Bdb.Project.ResultIdentity

/-! # Project authority and field checks of the execution coordinator

The catalog record and the current plan decide what an operation may do. Every field
read from a request or from a stored record passes the same few checks.
-/
namespace Bdb.Project

/-- What validation guarantees about a plan that execution relies on. -/
structure ProjectPlan.WellFormed (p : ProjectPlan) : Prop where
  version : strip p.planVersion = p.planVersion
  taskIds : ∀ t ∈ p.tasks, matchesId 0 95 t.taskId = true
  tasksNodup : (p.tasks.map (·.taskId)).Nodup
  milestoneIds : ∀ m ∈ p.milestones, matchesId 0 95 m.milestoneId = true
  milestonesNodup : (p.milestones.map (·.milestoneId)).Nodup
  taskMilestones : ∀ t ∈ p.tasks, t.milestoneId ∈ p.milestones.map (·.milestoneId)

instance (p : ProjectPlan) : Decidable p.WellFormed :=
  decidable_of_iff (strip p.planVersion = p.planVersion ∧
      (∀ t ∈ p.tasks, matchesId 0 95 t.taskId = true) ∧ (p.tasks.map (·.taskId)).Nodup ∧
      (∀ m ∈ p.milestones, matchesId 0 95 m.milestoneId = true) ∧
      (p.milestones.map (·.milestoneId)).Nodup ∧
      ∀ t ∈ p.tasks, t.milestoneId ∈ p.milestones.map (·.milestoneId))
    ⟨fun ⟨v,ti,tn,mi,mn,tm⟩ => ⟨v,ti,tn,mi,mn,tm⟩,fun ⟨v,ti,tn,mi,mn,tm⟩ => ⟨v,ti,tn,mi,mn,tm⟩⟩

/-- A catalog record, with the fields that execution reads or updates. -/
structure ProjectRecord where
  projectId : String
  repoAlias : String
  projectStatus : String
  planImported : Bool
  planVersion : Option String
  totalTasks : ℕ
  completedTasks : ℕ
  currentMilestone : Option String
  currentTask : Option String
  idSafe : matchesId 0 95 projectId = true
  aliasSafe : matchesAlias repoAlias = true

/-- The catalog entry and the current plan of one project. -/
structure Site where
  project : ProjectRecord
  plan : Option ProjectPlan
  planWellFormed : ∀ p ∈ plan, p.WellFormed

/-- The project and its plan, as every operation looks them up first. -/
def Site.authority (site : Site) (projectId : String) : Outcome (ProjectRecord × ProjectPlan) := do
  require (site.project.projectId = projectId) "project_not_found"
    "project is not in the canonical catalog"
  let plan ← need site.plan "project_plan_required" "project execution requires an imported plan"
  pure (site.project,plan)

theorem Site.authority_ok {site : Site} {projectId : String} {project : ProjectRecord}
    {plan : ProjectPlan} (h : site.authority projectId = .ok (project,plan)) :
    project = site.project ∧ site.project.projectId = projectId ∧ site.plan = some plan := by
  simp only [Site.authority,bind_ok,require_ok,need_ok,pure_ok,exists_and_left,exists_const,
    Prod.mk.injEq] at h
  obtain ⟨hid,p,hp,rfl,rfl⟩ := h
  exact ⟨rfl,hid,hp⟩

/-! ## Field checks -/

def executionText (value : Json) (field : String) (maxLength : ℕ) (required : Bool) : Outcome String :=
  boundedText "execution_field_invalid" "execution_field_too_large" value field maxLength required

def identifier (value : Json) (field : String) : Outcome String := do
  let v ← executionText value field 128 true
  require (matchesId 0 127 v = true) "execution_identity_invalid" (field ++ " has an unsafe format")
  pure v

def statusText (rt : Runtime) (value : Json) (field : String) : Outcome String :=
  rt.upper <$> executionText value field 32 true

def conversation (value : Json) (field : String) : Outcome String := do
  let v ← executionText value field 128 true
  require (matchesId 7 127 v = true) "execution_conversation_invalid" (field ++ " has an unsafe format")
  pure v

def parseCheckpointTime (rt : Runtime) (value : String) : Outcome Unit := do
  let text ← executionText (.str value) "last_progress_at" 64 true
  match rt.fromIsoFormat text with
  | none => fail "checkpoint_time_invalid" "last_progress_at must be an ISO-8601 timestamp"
  | some .naive => fail "checkpoint_time_invalid" "last_progress_at must include timezone"
  | some (.utc _) => pure ()

variable {value : Json} {field v : String} {rt : Runtime} {b c : ProjectExecutionBinding}

theorem identifier_ok (h : identifier value field = .ok v) :
    (∃ s, value = .str s ∧ v = strip s) ∧ v.length ≤ 128 ∧ matchesId 0 127 v = true := by
  simp only [identifier,executionText,bind_ok,require_ok,pure_ok,exists_and_left,exists_const] at h
  obtain ⟨w,hw,hid,rfl⟩ := h
  obtain ⟨s,hs,hv,-,hlen⟩ := boundedText_ok hw
  exact ⟨⟨s,hs,hv⟩,hlen,hid⟩

theorem executionText_ok {maxLength : ℕ} {required : Bool}
    (h : executionText value field maxLength required = .ok v) :
    ∃ s, value = .str s ∧ v = strip s ∧ (required = true → v ≠ "") ∧ v.length ≤ maxLength :=
  boundedText_ok h

/-! ## Stored records -/

def optionalConversation (value : Option String) (field : String) : Outcome (Option String) :=
  match value with
  | some s => some <$> conversation (.str s) field
  | none => pure none

/-- An absent or empty end time reads as none. -/
def finishedText (value : Option String) : Outcome (Option String) :=
  match value with
  | some s => if s = "" then pure none else some <$> executionText (.str s) "finished_at" 64 false
  | none => pure none

def bindingFromDict (rt : Runtime) (b : ProjectExecutionBinding) : Outcome ProjectExecutionBinding := do
  let executionBindingId ← identifier (.str b.executionBindingId) "execution_binding_id"
  let projectId ← identifier (.str b.projectId) "project_id"
  let planVersion ← executionText (.str b.planVersion) "plan_version" 32 true
  let taskId ← identifier (.str b.taskId) "task_id"
  let launchId ← identifier (.str b.launchId) "launch_id"
  let correlationId ← identifier (.str b.correlationId) "correlation_id"
  let commandId ← identifier (.str b.commandId) "command_id"
  let repoAlias ← executionText (.str b.repoAlias) "repo_alias" 64 true
  let head ← executionText (.str b.expectedRepoHeadBefore) "expected_repo_head_before" 128 true
  let createdAt ← executionText (.str b.createdAt) "created_at" 64 true
  let status ← statusText rt (.str b.status.text) "status"
  let conversationId ← optionalConversation b.conversationId "conversation_id"
  let finishedAt ← finishedText b.finishedAt
  pure ⟨executionBindingId,projectId,planVersion,taskId,launchId,correlationId,commandId,repoAlias,
    head,createdAt,BindingStatus.ofText status,b.superseded,max 1 b.generation,conversationId,
    finishedAt⟩

def attemptFromDict (rt : Runtime) (a : ProjectExecutionAttempt) : Outcome ProjectExecutionAttempt := do
  let attemptId ← identifier (.str a.attemptId) "attempt_id"
  let projectId ← identifier (.str a.projectId) "project_id"
  let planVersion ← executionText (.str a.planVersion) "plan_version" 32 true
  let taskId ← identifier (.str a.taskId) "task_id"
  let executionBindingId ← identifier (.str a.executionBindingId) "execution_binding_id"
  let commandId ← identifier (.str a.commandId) "command_id"
  let startedAt ← executionText (.str a.startedAt) "started_at" 64 true
  let headBefore ← executionText (.str a.headBefore) "head_before" 128 true
  let executionStatus ← statusText rt (.str a.executionStatus) "execution_status"
  let validationStatus ← statusText rt (.str a.validationStatus) "validation_status"
  let promotionStatus ← statusText rt (.str a.promotionStatus) "promotion_status"
  let _ ← statusText rt (.str a.resultStatus.text) "result_status"
  let summary ← executionText (.str a.resultSummary) "result_summary" 4000 false
  let evidence ← a.evidenceRefs.mapM (fun r => executionText (.str r) "evidence_ref" 512 true)
  let digest ← executionText (.str a.resultDigest) "result_digest" 128 true
  pure ⟨some ((a.identityVersion.filter (· ≠ "")).getD identityVersionV1),attemptId,projectId,
    planVersion,taskId,executionBindingId,commandId,startedAt,a.finishedAt,headBefore,a.headAfter,
    executionStatus,validationStatus,promotionStatus,a.resultStatus,summary,evidence,a.failureCode,
    digest⟩

theorem bindingFromDict_ok (h : bindingFromDict rt b = .ok c) :
    c.executionBindingId = strip b.executionBindingId ∧ c.projectId = strip b.projectId ∧
      c.planVersion = strip b.planVersion ∧ c.taskId = strip b.taskId ∧
      c.generation = max 1 b.generation ∧ c.superseded = b.superseded ∧
      c.status = BindingStatus.ofText (rt.upper (strip b.status.text)) := by
  simp only [bindingFromDict,statusText,bind_ok,pure_ok] at h
  obtain ⟨i,hi,p,hp,v,hv,t,ht,l,-,co,-,cm,-,r,-,hd,-,cr,-,st,hst,cv,-,fi,-,rfl⟩ := h
  obtain ⟨⟨i',hi',rfl⟩,-⟩ := identifier_ok hi
  obtain ⟨⟨p',hp',rfl⟩,-⟩ := identifier_ok hp
  obtain ⟨v',hv',rfl,-⟩ := executionText_ok hv
  obtain ⟨⟨t',ht',rfl⟩,-⟩ := identifier_ok ht
  cases hi'
  cases hp'
  cases hv'
  cases ht'
  refine ⟨rfl,rfl,rfl,rfl,rfl,rfl,?_⟩
  cases hx : executionText (.str b.status.text) "status" 32 true with
  | error e => simp [hx] at hst
  | ok s =>
    obtain ⟨s',hs',rfl,-⟩ := executionText_ok hx
    cases hs'
    simp only [hx,Except.map_ok,Except.ok.injEq] at hst
    exact congrArg BindingStatus.ofText hst.symm

theorem bindingFromDict_subject (h : bindingFromDict rt b = .ok c) : resultSubject c = (resultSubject b).map strip := by
  simp only [bindingFromDict,bind_ok,pure_ok] at h
  obtain ⟨i,hi,p,hp,v,hv,t,ht,l,-,co,hco,cm,hcm,r,hr,hd,-,cr,-,st,-,cv,-,fi,-,rfl⟩ := h
  obtain ⟨⟨_,hi',rfl⟩,-⟩ := identifier_ok hi
  obtain ⟨⟨_,hp',rfl⟩,-⟩ := identifier_ok hp
  obtain ⟨_,hv',rfl,-⟩ := executionText_ok hv
  obtain ⟨⟨_,ht',rfl⟩,-⟩ := identifier_ok ht
  obtain ⟨⟨_,hco',rfl⟩,-⟩ := identifier_ok hco
  obtain ⟨⟨_,hcm',rfl⟩,-⟩ := identifier_ok hcm
  obtain ⟨_,hr',rfl,-⟩ := executionText_ok hr
  cases hi'
  cases hp'
  cases hv'
  cases ht'
  cases hco'
  cases hcm'
  cases hr'
  rfl

end Bdb.Project
