import Bdb.Project.Operations
import Bdb.Project.PlanDocument

/-! # The plan history of a project

Every plan version is one immutable file; a pointer names the current one. An update is
previewed against the current plan and the completed tasks, then applied in three
separate writes: the plan file, the pointer and one transaction of the project memory.
-/
namespace Bdb.Project
open Program

/-- The files of one project: its plans by version, the pointer and the memory. -/
structure ProjectStore where
  plans : Dict Json
  currentPointer : Option Json
  memory : Memory

def planDigest (rt : Runtime) (plan : ProjectPlan) : String := Evidence.semanticDigest rt plan.toDict

/-! ## Differences between plans -/

inductive DiffKind where
  | added
  | removed
  | modified
  | unchanged
deriving DecidableEq

structure PlanDiffItem where
  kind : DiffKind
  subject : String
  subjectId : String
  before : Option Fields
  after : Option Fields
deriving DecidableEq

structure PlanDiff where
  milestones : List PlanDiffItem
  tasks : List PlanDiffItem
  dependencies : List PlanDiffItem
  acceptanceCriteria : List PlanDiffItem
  currentTask : List PlanDiffItem
deriving DecidableEq

/-- The items of a document by identifier. -/
def itemMap (items : List (String × Fields)) : Dict Fields :=
  items.foldl (fun d item => d.insert item.1 item.2) ∅

def sortedList (value : Json) : Json :=
  match value with
  | .arr xs => strings (sortedTexts (xs.filterMap (fun x => match x with
    | .str s => some s
    | _ => none)))
  | j => j

def normalizedItem (item : Fields) : Fields :=
  item.map (fun p => if p.1 ∈ ["dependencies","acceptance_criteria"] then (p.1,sortedList p.2) else p)

def diffById (old new : List (String × Fields)) (subject : String) : List PlanDiffItem :=
  let before := itemMap (old.map (fun item => (item.1,normalizedItem item.2)))
  let after := itemMap (new.map (fun item => (item.1,normalizedItem item.2)))
  (sortedTexts after.keys).map (fun i =>
    ⟨if before.lookup i = none then .added
      else if before.lookup i ≠ after.lookup i then .modified else .unchanged,
      subject,i,before.lookup i,after.lookup i⟩) ++
  (sortedTexts (before.keys.filter (fun i => i ∉ after.keys))).map (fun i =>
    ⟨.removed,subject,i,before.lookup i,none⟩)

def diffByList (old new : ProjectPlan) (subject key : String) (list : ProjectTask → List String) :
    List PlanDiffItem :=
  (sortedTexts ((old.tasks ++ new.tasks).map (·.taskId)).dedup).filterMap (fun i =>
    match old.task? i, new.task? i with
    | some before, some after =>
      let a := sortedTexts (list before)
      let b := sortedTexts (list after)
      some ⟨if a = b then .unchanged else .modified,subject,i,some [(key,strings a)],some [(key,strings b)]⟩
    | _, _ => none)

def semanticPlanDiff (old new : ProjectPlan) : PlanDiff :=
  { milestones := diffById (old.milestones.map (fun m => (m.milestoneId,m.toDict)))
      (new.milestones.map (fun m => (m.milestoneId,m.toDict))) "milestone",
    tasks := diffById (old.tasks.map (fun t => (t.taskId,t.toDict)))
      (new.tasks.map (fun t => (t.taskId,t.toDict))) "task",
    dependencies := diffByList old new "dependency" "dependencies" (·.dependencies),
    acceptanceCriteria := diffByList old new "acceptance_criteria" "acceptance_criteria"
      (·.acceptanceCriteria),
    currentTask := [⟨if old.currentTaskId = new.currentTaskId then .unchanged else .modified,
      "current_task","current_task_id",some [("current_task_id",nullableText old.currentTaskId)],
      some [("current_task_id",nullableText new.currentTaskId)]⟩] }

/-! ## Protection of completed tasks -/

/-- What keeps a completed task from being replaced by the candidate's version of it. -/
def taskProtection (task : ProjectTask) (candidate : Option ProjectTask) : List String :=
  match candidate with
  | none => ["completed_task_removed:" ++ task.taskId]
  | some c =>
    (if c.status ≠ .completed then ["completed_task_downgrade:" ++ task.taskId] else []) ++
    (if c.milestoneId ≠ task.milestoneId ∨ c.title ≠ task.title ∨ c.description ≠ task.description ∨
        sortedTexts c.acceptanceCriteria ≠ sortedTexts task.acceptanceCriteria ∨
        sortedTexts c.dependencies ≠ sortedTexts task.dependencies
      then ["completed_task_meaning_changed:" ++ task.taskId] else [])

def completedProtection (old new : ProjectPlan) (executionCompleted : List String) : List String :=
  (old.tasks.filter (fun t => t.status == .completed || decide (t.taskId ∈ executionCompleted))).flatMap
    (fun t => taskProtection t (new.task? t.taskId))

/-- The tasks whose stored status is completed or skipped. -/
def storedDone (s : ProjectMemoryState) : List String :=
  ((s.execution.taskStatuses.getD ∅).entries.filter (fun e => e.2.done)).map (·.1)

/-! ## Gates and open questions of the current plan -/

/-- One status per identifier of the new plan; a stored one counts only for an
identifier that the previous plan had as the same kind. -/
def carriedStatuses (ids oldIds : List String) (raw : Dict String) (default : String)
    (allowed : List String) : Dict String :=
  Dict.ofKeys (sortedTexts ids.dedup) (fun i =>
    if i ∈ oldIds then boundedRuntimeStatus raw default allowed i else default)

def synchronizePrerequisiteStatuses (plan : ProjectPlan) (previous : Option ProjectPlan)
    (execution : Execution) : Execution :=
  { execution with
    gateStatuses := some (carriedStatuses plan.gateIds ((previous.map (·.gateIds)).getD [])
      (execution.gateStatuses.getD ∅) "pending" gateStatusValues),
    openQuestionStatuses := some (carriedStatuses plan.openQuestionIds
      ((previous.map (·.openQuestionIds)).getD []) (execution.openQuestionStatuses.getD ∅) "open"
      openQuestionStatusValues) }

/-! ## The files -/

section Files
variable (rt : Runtime) (projectId : String)

def pointerSchema : String := "bdb-project-current-plan-v1"

def currentPlan (st : ProjectStore) : Outcome (Option ProjectPlan) :=
  match st.currentPointer with
  | none => pure none
  | some pointer => do
    require (pointer.fields.get "schema" = .str pointerSchema ∧
        pointer.fields.get "project_id" = .str projectId) "plan_pointer_invalid"
      "current plan pointer schema differs"
    let v ← version (pointer.fields.get "plan_version")
    let document ← need (st.plans.lookup v) "plan_missing" "current plan file is missing"
    let plan ← validateProjectPlan rt document (some projectId)
    require (pointer.fields.get "plan_digest" = .str (planDigest rt plan)) "plan_digest_mismatch"
      "current plan digest differs"
    pure (some plan)

def boundedFile (document : Json) : Outcome Unit :=
  require (Json.byteLength (Json.canonicalText document) ≤ maxMemoryBytes) "memory_too_large"
    "project memory document exceeds its bound"

def writeImmutablePlan (plan : ProjectPlan) (st : ProjectStore) : Outcome (ProjectStore × Unit) := do
  let v ← version (.str plan.planVersion)
  match st.plans.lookup v with
  | some document => do
    let existing ← validateProjectPlan rt document (some projectId)
    require (planDigest rt existing = planDigest rt plan) "plan_version_conflict"
      "immutable plan version already contains different bytes"
    pure (st,())
  | none => do
    boundedFile (.obj plan.toDict)
    pure ({ st with plans := st.plans.insert v (.obj plan.toDict) },())

def pointerTo (v : String) (plan : ProjectPlan) : Fields :=
  [("schema",.str pointerSchema),("project_id",.str projectId),("plan_version",.str v),
    ("plan_digest",.str (planDigest rt plan))]

def activatePointer (plan : ProjectPlan) (st : ProjectStore) : Outcome (ProjectStore × Unit) := do
  let v ← version (.str plan.planVersion)
  boundedFile (.obj (pointerTo rt projectId v plan))
  pure ({ st with currentPointer := some (.obj (pointerTo rt projectId v plan)) },())

end Files

def memoryTransaction {α : Type} (projectId : String) (operation : Transition α) (st : ProjectStore) :
    Outcome (ProjectStore × α) := do
  let (m,a) ← executionTransaction projectId operation st.memory
  pure ({ st with memory := m },a)

/-! ## Previews -/

structure PlanUpdatePreview where
  projectId : String
  accepted : Bool
  reasonCode : Option String
  currentVersion : Option String
  nextVersion : String
  currentPlanDigest : Option String
  candidatePlanDigest : String
  diff : PlanDiff
  completedProtection : List String
deriving DecidableEq

def refusal (currentNumber nextNumber : ℕ) (supersedes : Option ℕ) (protection : List String) :
    Option String :=
  if nextNumber ≠ currentNumber + 1 then some "plan_successor_required"
  else if supersedes ≠ some currentNumber then some "plan_supersedes_mismatch"
  else if protection ≠ [] then some "completed_task_reconciliation_required"
  else none

def supersededNumber (fits : Bool) (supersedes : Option String) : Outcome (Option ℕ) :=
  match supersedes with
  | some v => if fits then some <$> planVersionNumber (.str v) else pure none
  | none => pure none

section Updates
variable (amb : Ambient) (projectId : String)

def previewUpdate (candidate : ProjectPlan) (st : ProjectStore) : Outcome PlanUpdatePreview := do
  let candidate ← validateProjectPlan amb.runtime (.obj candidate.toDict) (some projectId)
  let current ← currentPlan amb.runtime projectId st
  match current with
  | none => do
    let number ← planVersionNumber (.str candidate.planVersion)
    pure ⟨projectId,number == 1,if number = 1 then none else some "plan_initial_version_invalid",none,
      number.repr,none,planDigest amb.runtime candidate,semanticPlanDiff candidate candidate,[]⟩
  | some current => do
    let currentNumber ← planVersionNumber (.str current.planVersion)
    let nextNumber ← planVersionNumber (.str candidate.planVersion)
    let state ← readState projectId st.memory
    let protection := completedProtection current candidate (storedDone state)
    let supersedes ← supersededNumber (nextNumber == currentNumber + 1) candidate.supersedesVersion
    let reason := refusal currentNumber nextNumber supersedes protection
    pure ⟨projectId,reason.isNone,reason,some currentNumber.repr,nextNumber.repr,
      some (planDigest amb.runtime current),planDigest amb.runtime candidate,
      semanticPlanDiff current candidate,protection⟩

/-! ## Applying an update -/

def textOr (value : Option String) (default : String) : String := (value.filter (· ≠ "")).getD default

def initialPlan (plan : ProjectPlan) (v : String) : ProjectPlan :=
  { plan with
    projectId := projectId, planVersion := v, supersedesVersion := none,
    createdAt := some (textOr plan.createdAt amb.now),
    revisionReason := some (textOr plan.revisionReason "initial"),
    revisionSummary := some (textOr plan.revisionSummary "Initial project plan") }

def successorPlan (candidate : ProjectPlan) (v supersedes : String) : ProjectPlan :=
  { candidate with
    projectId := projectId, planVersion := v, supersedesVersion := some supersedes,
    createdAt := some (textOr candidate.createdAt amb.now),
    revisionReason := some (textOr candidate.revisionReason "plan update"),
    revisionSummary := some (textOr candidate.revisionSummary "Updated project plan") }

def recordedEvent : Option ProjectPlan → String
  | none => "PLAN_IMPORTED"
  | some _ => "PLAN_UPDATED"

def recordedSummary (plan : ProjectPlan) : Option ProjectPlan → String
  | none => "Zaimportowano plan v" ++ plan.planVersion
  | some current => "Zaktualizowano plan v" ++ current.planVersion ++ " → v" ++ plan.planVersion ++ ": " ++
      plan.revisionReason.getD "None"

/-- The transition that brings the memory to a new plan and logs it. -/
def recordTransition (plan : ProjectPlan) (current : Option ProjectPlan) : Transition Unit := fun state => do
  let updated ← appendEvent amb projectId (recordedEvent current) (recordedSummary plan current)
    (.ofPlan (some plan.planVersion))
    { state with execution := synchronizePrerequisiteStatuses plan current state.execution }
  pure (updated,())

/-- The three writes of a new plan. -/
def publish (plan : ProjectPlan) (current : Option ProjectPlan) : Program ProjectStore ProjectPlan := do
  commit (writeImmutablePlan amb.runtime projectId plan)
  commit (activatePointer amb.runtime projectId plan)
  commit (memoryTransaction projectId (recordTransition amb projectId plan current))
  pure plan

def ensureInitialPlan (plan : ProjectPlan) : Program ProjectStore ProjectPlan := do
  let number ← lift (planVersionNumber (.str plan.planVersion))
  lift (require (number = 1) "plan_initial_version_invalid" "the first plan must be v1")
  let current ← observe (currentPlan amb.runtime projectId)
  lift (require (current = none) "plan_already_exists" "project already has a current plan")
  publish amb projectId (initialPlan amb projectId plan number.repr) none

def applySuccessor (candidate current : ProjectPlan) (check : PlanUpdatePreview) :
    Program ProjectStore ProjectPlan := do
  lift (require (check.currentPlanDigest = some (planDigest amb.runtime current)) "plan_current_changed"
    "current plan changed after preview")
  let v ← lift (version (.str candidate.planVersion))
  let supersedes ← lift (version (.str current.planVersion))
  publish amb projectId (successorPlan amb projectId candidate v supersedes) (some current)

/-- The preview an update is checked against: the given one, else a new one. -/
def checkedPreview (candidate : ProjectPlan) (preview : Option PlanUpdatePreview) (st : ProjectStore) :
    Outcome PlanUpdatePreview :=
  match preview with
  | some check => pure check
  | none => previewUpdate amb projectId candidate st

def applyUpdate (candidate : ProjectPlan) (preview : Option PlanUpdatePreview) :
    Program ProjectStore ProjectPlan := do
  let candidate ← lift (validateProjectPlan amb.runtime (.obj candidate.toDict) (some projectId))
  let check ← observe (checkedPreview amb projectId candidate preview)
  lift (require (check.projectId = projectId ∧
      check.candidatePlanDigest = planDigest amb.runtime candidate) "plan_preview_mismatch"
    "plan preview does not match the candidate bytes")
  lift (require (check.accepted = true) (textOr check.reasonCode "plan_update_rejected")
    "plan update is not accepted")
  let current ← observe (currentPlan amb.runtime projectId)
  match current with
  | none => ensureInitialPlan amb projectId candidate
  | some plan => applySuccessor amb projectId candidate plan check

end Updates

end Bdb.Project
