import Bdb.Base.Dict
import Bdb.Base.PyText

/-! # Project plans

Milestones, tasks and the planning context of one immutable plan version. The
planning context stays a document: execution only reads the identifiers of its
gates and open questions, the digest covers all of it.
-/
namespace Bdb.Project

inductive TaskStatus where
  | pending
  | active
  | review
  | completed
  | blocked
  | skipped
deriving DecidableEq

namespace TaskStatus

def text : TaskStatus → String
  | .pending => "pending"
  | .active => "active"
  | .review => "review"
  | .completed => "completed"
  | .blocked => "blocked"
  | .skipped => "skipped"

def all : List TaskStatus := [.pending,.active,.review,.completed,.blocked,.skipped]

def ofText (s : String) : Option TaskStatus := all.find? (fun t => t.text == s)

def done : TaskStatus → Bool
  | .completed => true
  | .skipped => true
  | _ => false

/-- A pending or active task may be picked up when nothing blocks it. -/
def startable : TaskStatus → Bool
  | .pending => true
  | .active => true
  | _ => false

end TaskStatus

/-- The rich task fields that a document carries only when they are given. -/
inductive OptionalField where
  | deliverables
  | verification
  | tests
  | decisionIds
  | specificationIds
  | riskIds
deriving DecidableEq

namespace OptionalField

def key : OptionalField → String
  | .deliverables => "deliverables"
  | .verification => "verification"
  | .tests => "tests"
  | .decisionIds => "decision_ids"
  | .specificationIds => "specification_ids"
  | .riskIds => "risk_ids"

def all : List OptionalField :=
  [.deliverables,.verification,.tests,.decisionIds,.specificationIds,.riskIds]

end OptionalField

structure ProjectTask where
  taskId : String
  milestoneId : String
  title : String
  description : String
  status : TaskStatus
  dependencies : List String
  acceptanceCriteria : List String
  deliverables : List String
  verification : List String
  tests : List String
  decisionIds : List String
  specificationIds : List String
  riskIds : List String
  optionalFields : List OptionalField
deriving DecidableEq

def ProjectTask.optional (t : ProjectTask) : OptionalField → List String
  | .deliverables => t.deliverables
  | .verification => t.verification
  | .tests => t.tests
  | .decisionIds => t.decisionIds
  | .specificationIds => t.specificationIds
  | .riskIds => t.riskIds

def strings (xs : List String) : Json := .arr (xs.map .str)

def ProjectTask.toDict (t : ProjectTask) : Fields :=
  [("id",.str t.taskId),("milestone_id",.str t.milestoneId),("title",.str t.title),
    ("description",.str t.description),("status",.str t.status.text),
    ("dependencies",strings t.dependencies),
    ("acceptance_criteria",strings t.acceptanceCriteria)] ++
  (OptionalField.all.filter (fun f => !(t.optional f).isEmpty || decide (f ∈ t.optionalFields))).map
    (fun f => (f.key,strings (t.optional f)))

structure ProjectMilestone where
  milestoneId : String
  title : String
  description : String
  status : TaskStatus
deriving DecidableEq

def ProjectMilestone.toDict (m : ProjectMilestone) : Fields :=
  [("id",.str m.milestoneId),("title",.str m.title),("description",.str m.description),
    ("status",.str m.status.text)]

def projectPlanSchema : String := "bdb-project-plan-v1"

structure ProjectPlan where
  projectId : String
  projectName : String
  planVersion : String
  milestones : List ProjectMilestone
  tasks : List ProjectTask
  currentTaskId : Option String
  supersedesVersion : Option String
  createdAt : Option String
  revisionReason : Option String
  revisionSummary : Option String
  planningContext : Option Fields
deriving DecidableEq

def optionalText (key : String) (value : Option String) : Fields :=
  match value with
  | some s => [(key,.str s)]
  | none => []

def nullableText (value : Option String) : Json :=
  match value with
  | some s => .str s
  | none => .null

/-- The identifiers of one kind of planning record, such as gates. -/
def contextRecordIds (context : Option Fields) (key : String) : List String :=
  (((context.getD []).get key).elements.toOption.getD []).filterMap (fun item =>
    match item.fields.get "id" with
    | .str s => some s
    | _ => none)

namespace ProjectPlan

def toDict (p : ProjectPlan) : Fields :=
  [("schema",.str projectPlanSchema),("project_id",.str p.projectId),
    ("project_name",.str p.projectName),("plan_version",.str p.planVersion),
    ("milestones",.arr (p.milestones.map (fun m => .obj m.toDict))),
    ("tasks",.arr (p.tasks.map (fun t => .obj t.toDict))),
    ("current_task_id",nullableText p.currentTaskId)] ++
  optionalText "supersedes_version" p.supersedesVersion ++
  optionalText "created_at" p.createdAt ++
  optionalText "revision_reason" p.revisionReason ++
  optionalText "revision_summary" p.revisionSummary ++
  match p.planningContext with
  | some context => [("planning_context",.obj context)]
  | none => []

def task? (p : ProjectPlan) (taskId : String) : Option ProjectTask :=
  p.tasks.find? (fun t => t.taskId == taskId)

def milestone? (p : ProjectPlan) (milestoneId : String) : Option ProjectMilestone :=
  p.milestones.find? (fun m => m.milestoneId == milestoneId)

def currentTask (p : ProjectPlan) : Option ProjectTask := p.currentTaskId.bind p.task?

def currentMilestone (p : ProjectPlan) : Option ProjectMilestone :=
  p.currentTask.bind (fun t => p.milestone? t.milestoneId)

def milestoneTasks (p : ProjectPlan) (milestoneId : String) : List ProjectTask :=
  p.tasks.filter (fun t => t.milestoneId == milestoneId)

def gateIds (p : ProjectPlan) : List String := contextRecordIds p.planningContext "gates"

def openQuestionIds (p : ProjectPlan) : List String := contextRecordIds p.planningContext "open_questions"

end ProjectPlan

inductive DependencyKind where
  | task
  | gate
  | openQuestion
deriving DecidableEq

def DependencyKind.text : DependencyKind → String
  | .task => "task"
  | .gate => "gate"
  | .openQuestion => "open_question"

/-- The namespace of a dependency target, when it belongs to exactly one. -/
def classifyDependencyTarget (p : ProjectPlan) (target : String) : Option DependencyKind :=
  match decide (target ∈ p.tasks.map (·.taskId)), decide (target ∈ p.gateIds),
      decide (target ∈ p.openQuestionIds) with
  | true, false, false => some .task
  | false, true, false => some .gate
  | false, false, true => some .openQuestion
  | _, _, _ => none

theorem task?_some {p : ProjectPlan} {taskId : String} {t : ProjectTask}
    (h : p.task? taskId = some t) : t ∈ p.tasks ∧ t.taskId = taskId := by
  unfold ProjectPlan.task? at h
  have hid := List.find?_some h
  exact ⟨List.mem_of_find?_eq_some h,by simpa using hid⟩

end Bdb.Project
