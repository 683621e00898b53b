import Bdb.Project.Records

/-! # Project memory: the stored state and its transactions

One document holds the event log, the operator's collections and the execution
mapping of a project. A transaction reads it, checks its bounds, applies one
transition and writes the result with the next revision.
-/
namespace Bdb.Project

def maxMemoryBytes : ℕ := 4 * 1024 * 1024
def maxExecutionBytes : ℕ := 512 * 1024
def maxEvents : ℕ := 2048
def maxItems : ℕ := 512

/-- What one operation takes from its surroundings: a clock reading, fresh random
names and the language runtime. -/
structure Ambient where
  runtime : Runtime
  now : String
  uuid : String
  launchUuid : String

structure ProjectEvent where
  eventId : String
  projectId : String
  eventType : String
  timestamp : String
  humanSummary : String
  taskId : Option String
  milestoneId : Option String
  planVersion : Option String
  gitHead : Option String
  correlationId : Option String
  prerequisiteId : Option String
  prerequisiteKind : Option String
deriving DecidableEq

def ProjectEvent.toDict (e : ProjectEvent) : Fields :=
  [("schema",.str "bdb-project-event-v1"),("event_id",.str e.eventId),("project_id",.str e.projectId),
    ("event_type",.str e.eventType),("timestamp",.str e.timestamp),
    ("human_summary",.str e.humanSummary)] ++
  optionalText "task_id" e.taskId ++ optionalText "milestone_id" e.milestoneId ++
  optionalText "plan_version" e.planVersion ++ optionalText "git_head" e.gitHead ++
  optionalText "correlation_id" e.correlationId ++
  optionalText "prerequisite_id" e.prerequisiteId ++
  optionalText "prerequisite_kind" e.prerequisiteKind

structure DecisionRecord where
  decisionId : String
  projectId : String
  title : String
  decision : String
  reason : String
  status : String
  createdAt : String
  relatedTaskIds : List String
  relatedPlanVersion : Option String
  supersedesDecisionId : Option String
deriving DecidableEq

def DecisionRecord.toDict (d : DecisionRecord) : Fields :=
  [("schema",.str "bdb-project-decision-v1"),("decision_id",.str d.decisionId),
    ("project_id",.str d.projectId),("title",.str d.title),("decision",.str d.decision),
    ("reason",.str d.reason),("status",.str d.status),("created_at",.str d.createdAt),
    ("related_task_ids",strings d.relatedTaskIds),
    ("related_plan_version",nullableText d.relatedPlanVersion),
    ("supersedes_decision_id",nullableText d.supersedesDecisionId)]

structure InboxItem where
  inboxId : String
  projectId : String
  title : String
  description : String
  createdAt : String
  status : String
deriving DecidableEq

def InboxItem.toDict (i : InboxItem) : Fields :=
  [("schema",.str "bdb-project-inbox-v1"),("inbox_id",.str i.inboxId),("project_id",.str i.projectId),
    ("title",.str i.title),("description",.str i.description),("created_at",.str i.createdAt),
    ("status",.str i.status)]

structure RiskRecord where
  riskId : String
  projectId : String
  title : String
  description : String
  severity : String
  status : String
  createdAt : String
deriving DecidableEq

def RiskRecord.toDict (r : RiskRecord) : Fields :=
  [("schema",.str "bdb-project-risk-v1"),("risk_id",.str r.riskId),("project_id",.str r.projectId),
    ("title",.str r.title),("description",.str r.description),("severity",.str r.severity),
    ("status",.str r.status),("created_at",.str r.createdAt)]

structure DebtRecord where
  debtId : String
  projectId : String
  title : String
  description : String
  createdAt : String
  status : String
  relatedTaskIds : List String
  suggestedReviewMilestone : Option String
deriving DecidableEq

def DebtRecord.toDict (d : DebtRecord) : Fields :=
  [("schema",.str "bdb-project-debt-v1"),("debt_id",.str d.debtId),("project_id",.str d.projectId),
    ("title",.str d.title),("description",.str d.description),("created_at",.str d.createdAt),
    ("status",.str d.status),("related_task_ids",strings d.relatedTaskIds),
    ("suggested_review_milestone",nullableText d.suggestedReviewMilestone)]

structure AttentionItem where
  attentionId : String
  projectId : String
  type : String
  title : String
  description : String
  createdAt : String
  status : String
deriving DecidableEq

def AttentionItem.toDict (a : AttentionItem) : Fields :=
  [("schema",.str "bdb-project-attention-v1"),("attention_id",.str a.attentionId),
    ("project_id",.str a.projectId),("type",.str a.type),("title",.str a.title),
    ("description",.str a.description),("created_at",.str a.createdAt),("status",.str a.status)]

structure Checkpoint where
  checkpointId : String
  projectId : String
  createdAt : String
  label : String
  planVersion : Option String
  gitHead : Option String
  completedTaskIds : List String
  currentTaskId : Option String
  activeDecisionIds : List String
  openBlockerIds : List String
  humanSummary : Option String
deriving DecidableEq

def Checkpoint.toDict (c : Checkpoint) : Fields :=
  [("schema",.str "bdb-project-checkpoint-v1"),("checkpoint_id",.str c.checkpointId),
    ("project_id",.str c.projectId),("created_at",.str c.createdAt),("label",.str c.label),
    ("plan_version",nullableText c.planVersion),("git_head",nullableText c.gitHead),
    ("completed_task_ids",strings c.completedTaskIds),
    ("current_task_id",nullableText c.currentTaskId),
    ("active_decision_ids",strings c.activeDecisionIds),
    ("open_blocker_ids",strings c.openBlockerIds),("human_summary",nullableText c.humanSummary)]

structure ProjectMemoryState where
  projectId : String
  events : List ProjectEvent
  decisions : List DecisionRecord
  inbox : List InboxItem
  risks : List RiskRecord
  technicalDebt : List DebtRecord
  attention : List AttentionItem
  checkpoints : List Checkpoint
  execution : Execution
  revision : ℕ
deriving DecidableEq

namespace ProjectMemoryState

/-- The state of a project whose memory file does not exist yet. -/
def fresh (projectId : String) : ProjectMemoryState :=
  ⟨projectId,[],[],[],[],[],[],[],Execution.empty,1⟩

def toDict (s : ProjectMemoryState) : Fields :=
  [("schema",.str "bdb-vnext-project-memory-v1"),("project_id",.str s.projectId),
    ("revision",.int s.revision),
    ("events",.arr (s.events.map (fun e => .obj e.toDict))),
    ("decisions",.arr (s.decisions.map (fun d => .obj d.toDict))),
    ("inbox",.arr (s.inbox.map (fun i => .obj i.toDict))),
    ("risks",.arr (s.risks.map (fun r => .obj r.toDict))),
    ("technical_debt",.arr (s.technicalDebt.map (fun d => .obj d.toDict))),
    ("attention",.arr (s.attention.map (fun a => .obj a.toDict))),
    ("checkpoints",.arr (s.checkpoints.map (fun c => .obj c.toDict))),
    ("execution",.obj s.execution.toDict)]

def bytes (s : ProjectMemoryState) : ℕ := Json.byteLength (Json.canonicalText (.obj s.toDict))

instance (s : ProjectMemoryState) (n : ℕ) : Decidable (s.bytes ≤ n) := Json.decidableTextLe (.obj s.toDict) n

def document (s : ProjectMemoryState) : ExecutionDocument := s.execution.filled

end ProjectMemoryState

/-! ## Reading -/

def zeroPad (width n : ℕ) : String :=
  String.ofList (List.replicate (width - n.repr.length) '0' ++ n.repr.toList)

def eventId (projectId : String) (index : ℕ) : String := projectId ++ ":e" ++ zeroPad 6 index

/-- The events of a project form one append-only sequence. -/
def eventsInOrder (projectId : String) (events : List ProjectEvent) : Bool :=
  (events.zipIdx 1).all (fun p => p.1.projectId == projectId && p.1.eventId == eventId projectId p.2)

def boundedCollection (key : String) (length : ℕ) : Outcome Unit :=
  require (length ≤ maxItems * 4) "memory_shape_invalid" (key ++ " is outside its bound")

def stateFromDict (projectId : String) (s : ProjectMemoryState) : Outcome ProjectMemoryState := do
  boundedCollection "events" s.events.length
  boundedCollection "decisions" s.decisions.length
  boundedCollection "inbox" s.inbox.length
  boundedCollection "risks" s.risks.length
  boundedCollection "technical_debt" s.technicalDebt.length
  boundedCollection "attention" s.attention.length
  boundedCollection "checkpoints" s.checkpoints.length
  require (s.execution.bytes ≤ maxExecutionBytes) "memory_execution_shape_invalid"
    "execution state is outside its bound"
  require (eventsInOrder projectId s.events = true) "memory_event_order_invalid"
    "project events must form one append-only sequence"
  require (1 ≤ s.revision) "memory_revision_invalid" "revision must be an integer >= 1"
  pure s

def readState (projectId : String) (memory : Option ProjectMemoryState) :
    Outcome ProjectMemoryState :=
  match memory with
  | none => .ok (ProjectMemoryState.fresh projectId)
  | some s => do
    require (s.bytes ≤ maxMemoryBytes) "memory_too_large" "project memory exceeds its bound"
    require (s.projectId = projectId) "memory_schema_invalid"
      "project memory schema or project identity differs"
    stateFromDict projectId s

/-! ## Writing -/

def writeState (s : ProjectMemoryState) : Outcome Unit :=
  require (s.bytes ≤ maxMemoryBytes) "memory_too_large" "project memory document exceeds its bound"

abbrev Transition (α : Type) := ProjectMemoryState → Outcome (ProjectMemoryState × α)

variable {α : Type}

/-- Commits one transition under the next revision. -/
def writeTransaction (projectId : String) (operation : Transition α) (expectedRevision : Option ℕ)
    (memory : Option ProjectMemoryState) : Outcome (Option ProjectMemoryState × α) := do
  let current ← readState projectId memory
  require (∀ r ∈ expectedRevision, current.revision = r) "stale_revision_rejected"
    ("expected revision " ++ (expectedRevision.getD 0).repr ++ ", but current revision is " ++
      current.revision.repr)
  let (updated,result) ← operation current
  require (updated.projectId = projectId) "memory_project_mismatch" "transition changed project identity"
  let final := { updated with revision := current.revision + 1 }
  writeState final
  pure (some final,result)

def executionTransaction (projectId : String) (operation : Transition α)
    (memory : Option ProjectMemoryState) : Outcome (Option ProjectMemoryState × α) :=
  writeTransaction projectId operation none memory

/-- What the reader checks of a stored state besides its size and owner. -/
structure Accepted (projectId : String) (s : ProjectMemoryState) : Prop where
  events : s.events.length ≤ maxItems * 4
  decisions : s.decisions.length ≤ maxItems * 4
  inbox : s.inbox.length ≤ maxItems * 4
  risks : s.risks.length ≤ maxItems * 4
  technicalDebt : s.technicalDebt.length ≤ maxItems * 4
  attention : s.attention.length ≤ maxItems * 4
  checkpoints : s.checkpoints.length ≤ maxItems * 4
  execution : s.execution.bytes ≤ maxExecutionBytes
  inOrder : eventsInOrder projectId s.events = true
  revision : 1 ≤ s.revision

variable {projectId : String} {s t : ProjectMemoryState} {memory : Option ProjectMemoryState}

theorem stateFromDict_ok : stateFromDict projectId s = .ok t ↔ s = t ∧ Accepted projectId s := by
  simp only [stateFromDict,boundedCollection,bind_ok,require_ok,pure_ok,exists_and_left,exists_const]
  constructor
  · rintro ⟨h1,h2,h3,h4,h5,h6,h7,h8,h9,h10,rfl⟩
    exact ⟨rfl,h1,h2,h3,h4,h5,h6,h7,h8,h9,h10⟩
  · rintro ⟨rfl,h1,h2,h3,h4,h5,h6,h7,h8,h9,h10⟩
    exact ⟨h1,h2,h3,h4,h5,h6,h7,h8,h9,h10,rfl⟩

theorem readState_some : readState projectId (some s) = .ok t ↔
      s = t ∧ s.bytes ≤ maxMemoryBytes ∧ s.projectId = projectId ∧ Accepted projectId s := by
  simp only [readState,bind_ok,require_ok,stateFromDict_ok,exists_and_left,exists_const]
  constructor
  · rintro ⟨hsize,hid,rfl,hacc⟩
    exact ⟨rfl,hsize,hid,hacc⟩
  · rintro ⟨rfl,hsize,hid,hacc⟩
    exact ⟨hsize,hid,rfl,hacc⟩

theorem accepted_fresh (projectId : String) : Accepted projectId (ProjectMemoryState.fresh projectId) := by
  refine ⟨?_,?_,?_,?_,?_,?_,?_,?_,rfl,le_rfl⟩
  case refine_8 =>
    change Execution.empty.bytes ≤ maxExecutionBytes
    decide
  all_goals exact Nat.zero_le _

theorem readState_eq (h : readState projectId memory = .ok s) :
    s = memory.getD (ProjectMemoryState.fresh projectId) ∧ s.projectId = projectId ∧
      Accepted projectId s := by
  cases memory with
  | none =>
    obtain rfl : ProjectMemoryState.fresh projectId = s := Except.ok.inj h
    exact ⟨rfl,rfl,accepted_fresh projectId⟩
  | some t =>
    obtain ⟨rfl,-,hid,hacc⟩ := readState_some.mp h
    exact ⟨rfl,hid,hacc⟩

def tooLarge : Failure := ⟨"memory_too_large","project memory document exceeds its bound",[]⟩

variable {operation : Transition α} {a : α} {amb : Ambient} {eventType summary : String}
    {subject : EventSubject}

theorem executionTransaction_run
    (hread : readState projectId memory = .ok s) (hop : operation s = .ok (t,a))
    (hid : t.projectId = projectId) :
    executionTransaction projectId operation memory = .error tooLarge ∨
      ({ t with revision := s.revision + 1 }.bytes ≤ maxMemoryBytes ∧
        executionTransaction projectId operation memory =
          .ok (some { t with revision := s.revision + 1 },a)) := by
  have hnone : ∀ r ∈ (none : Option ℕ), s.revision = r := nofun
  by_cases hsize : { t with revision := s.revision + 1 }.bytes ≤ maxMemoryBytes
  · refine .inr ⟨hsize,?_⟩
    simp only [executionTransaction,writeTransaction,hread,ok_bind,hop,writeState,require,if_pos hnone,
      if_pos hid,if_pos hsize]
    rfl
  · left
    simp only [executionTransaction,writeTransaction,hread,ok_bind,hop,writeState,require,if_pos hnone,
      if_pos hid,if_neg hsize,fail,error_bind]
    rfl

theorem executionTransaction_ok {after : Option ProjectMemoryState}
    (h : executionTransaction projectId operation memory = .ok (after,a)) :
    ∃ current updated, readState projectId memory = .ok current ∧
      operation current = .ok (updated,a) ∧ updated.projectId = projectId ∧
      after = some { updated with revision := current.revision + 1 } ∧
      { updated with revision := current.revision + 1 }.bytes ≤ maxMemoryBytes := by
  simp only [executionTransaction,writeTransaction,writeState,bind_ok,require_ok,pure_ok,Prod.exists,
    Prod.mk.injEq,exists_and_left,exists_const] at h
  obtain ⟨current,hread,-,updated,b,hop,hid,hsize,hafter,rfl⟩ := h
  exact ⟨current,updated,hread,hop,hid,hafter.symm,hsize⟩

/-! ## The execution document -/

/-- The bounds every reader of the execution document checks. -/
def executionDocument (s : ProjectMemoryState) : Outcome ExecutionDocument := do
  let d := s.execution.filled
  require (d.schema.getD projectExecutionSchema = projectExecutionSchema) "execution_schema_invalid"
    "project execution state schema differs"
  require (d.bindings.length ≤ 512) "execution_shape_invalid" "execution.bindings is invalid"
  require (d.attempts.length ≤ 512) "execution_shape_invalid" "execution.attempts is invalid"
  require (d.acceptanceResults.length ≤ 512) "execution_shape_invalid"
    "execution.acceptance_results is invalid"
  require (d.taskStatuses.size ≤ 2048) "execution_shape_invalid" "execution.task_statuses is invalid"
  require (d.milestoneRuns.size ≤ 128) "execution_shape_invalid" "execution.milestone_runs is invalid"
  require (d.checkpoints.size ≤ 512) "execution_shape_invalid" "execution.checkpoints is invalid"
  require (d.gateStatuses.size ≤ 512) "execution_shape_invalid" "execution.gate_statuses is invalid"
  require (d.openQuestionStatuses.size ≤ 512) "execution_shape_invalid"
    "execution.open_question_statuses is invalid"
  require (d.launchHandoffs.size ≤ 512) "execution_shape_invalid" "execution.launch_handoffs is invalid"
  require (d.launchOutbox.size ≤ 512) "execution_shape_invalid" "execution.launch_outbox is invalid"
  pure d

theorem executionDocument_eq {d : ExecutionDocument} (h : executionDocument s = .ok d) : d = s.document := by
  simp only [executionDocument,bind_ok,require_ok,pure_ok,exists_and_left,exists_const] at h
  obtain ⟨-,-,-,-,-,-,-,-,-,-,-,rfl⟩ := h
  rfl

def ProjectMemoryState.withDocument (s : ProjectMemoryState) (d : ExecutionDocument) :
    ProjectMemoryState :=
  { s with execution := d.toExecution }

@[simp] theorem ProjectMemoryState.document_withDocument (s : ProjectMemoryState)
    (d : ExecutionDocument) : (s.withDocument d).document = d := by
  simp [ProjectMemoryState.document,ProjectMemoryState.withDocument]

@[simp] theorem ProjectMemoryState.document_revision (s : ProjectMemoryState) (n : ℕ) :
    { s with revision := n }.document = s.document := rfl

/-! ## Events -/

def eventTypes : List String :=
  ["PROJECT_CREATED","PLAN_IMPORTED","PLAN_UPDATED","TASK_STARTED","TASK_REVIEW","TASK_COMPLETED",
    "TASK_BLOCKED","DECISION_ADDED","DECISION_SUPERSEDED","INBOX_ITEM_ADDED","INBOX_ITEM_RESOLVED",
    "RISK_ADDED","RISK_RESOLVED","TECH_DEBT_ADDED","TECH_DEBT_RESOLVED","ATTENTION_ADDED",
    "ATTENTION_RESOLVED","CHECKPOINT_CREATED","HANDOFF_CREATED","EXECUTION_BOUND",
    "EXECUTION_STARTED","EXECUTION_COMPLETED","TASK_REVIEW_ACCEPTED",
    "TASK_REVIEW_CHANGES_REQUESTED","EXECUTION_STALE_RESULT","EXECUTION_REPLAYED",
    "EXECUTION_CONVERSATION_BOUND","EXECUTION_CHECKPOINT","MILESTONE_COMPLETED",
    "MILESTONE_AUTO_STARTED","MILESTONE_AUTO_STOPPED","MILESTONE_AUTO_COMPLETED",
    "PROJECT_REVIEW_REQUESTED","GATE_PASSED","GATE_REOPENED","OPEN_QUESTION_RESOLVED",
    "OPEN_QUESTION_REOPENED"]

/-- The bindings of an event to its subject. -/
structure EventSubject where
  taskId : Option String
  milestoneId : Option String
  planVersion : Option String
  gitHead : Option String
  correlationId : Option String
  prerequisiteId : Option String
  prerequisiteKind : Option String

namespace EventSubject

def nothing : EventSubject := ⟨none,none,none,none,none,none,none⟩

def ofTask (taskId planVersion : String) (correlationId : Option String) : EventSubject :=
  { nothing with taskId := some taskId, planVersion := some planVersion, correlationId := correlationId }

def ofMilestone (milestoneId planVersion : String) (correlationId : Option String) : EventSubject :=
  { nothing with milestoneId := some milestoneId, planVersion := some planVersion,
                 correlationId := correlationId }

def ofPlan (planVersion : Option String) : EventSubject := { nothing with planVersion := planVersion }

end EventSubject

def memoryText (value : Json) (field : String) (maxLength : ℕ) : Outcome String :=
  boundedText "memory_field_invalid" "memory_field_too_large" value field maxLength true

def optionalMemoryText (value : Option String) (field : String) (maxLength : ℕ) :
    Outcome (Option String) :=
  match value with
  | some s => some <$> memoryText (.str s) field maxLength
  | none => pure none

def appendEvent (amb : Ambient) (projectId eventType summary : String) (subject : EventSubject)
    (s : ProjectMemoryState) : Outcome ProjectMemoryState := do
  require (eventType ∈ eventTypes) "event_type_invalid" "event_type is unsupported"
  let summary ← memoryText (.str summary) "human_summary" 2000
  require (s.events.length < maxEvents) "event_log_bounded" "project event log reached its bound"
  let prerequisiteId ← optionalMemoryText subject.prerequisiteId "prerequisite_id" 96
  require (subject.prerequisiteKind ∈ [none,some "gate",some "open_question"])
    "prerequisite_kind_invalid" "prerequisite kind is unsupported"
  pure { s with events := s.events ++ [⟨eventId projectId (s.events.length + 1),projectId,eventType,
    amb.now,summary,subject.taskId,subject.milestoneId,subject.planVersion,subject.gitHead,
    subject.correlationId,prerequisiteId,subject.prerequisiteKind⟩] }

theorem appendEvent_ok (h : appendEvent amb projectId eventType summary subject s = .ok t) :
    ∃ e : ProjectEvent, t = { s with events := s.events ++ [e] } ∧ e.eventType = eventType ∧
      e.projectId = projectId ∧ e.eventId = eventId projectId (s.events.length + 1) ∧
      e.planVersion = subject.planVersion ∧ s.events.length < maxEvents := by
  simp only [appendEvent,bind_ok,require_ok,pure_ok,exists_and_left,exists_const] at h
  obtain ⟨-,v,-,hroom,p,-,-,rfl⟩ := h
  exact ⟨_,rfl,rfl,rfl,rfl,rfl,hroom⟩

theorem appendEvent_document (h : appendEvent amb projectId eventType summary subject s = .ok t) :
    t.document = s.document := by
  obtain ⟨e,rfl,-⟩ := appendEvent_ok h
  rfl

end Bdb.Project
