import Bdb.Project.Authority

/-! # Bindings and launches

A launch binds one task to one execution. Persisting a binding and preparing a launch
share the same rule: the new binding takes the next generation of its task and every
active binding of that task is superseded in the same transaction.
-/
namespace Bdb.Project

def planTask (plan : ProjectPlan) (taskId : String) : Outcome ProjectTask :=
  need (plan.task? taskId) "task_not_found" "execution task does not exist"

def storedBinding (d : ExecutionDocument) (bindingId : String) : Outcome ProjectExecutionBinding :=
  need (d.binding? bindingId) "execution_binding_not_found" "execution binding does not exist"

def requirePrerequisites (plan : ProjectPlan) (d : ExecutionDocument) (task : ProjectTask) :
    Outcome Unit :=
  let blockers := taskPrerequisiteBlockers plan d task
  if blockers.isEmpty then .ok ()
  else .error ⟨"execution_prerequisites_blocked","task prerequisites are not satisfied",
    [("task_id",.str task.taskId),("blocking_dependencies",.arr (blockers.map Blocker.toJson))]⟩

def maxGeneration (bs : List ProjectExecutionBinding) : Int := ((bs.map (·.generation)).max?).getD 0

/-! ## Creating a binding -/

structure BindingRequest where
  taskId : Option String
  expectedRepoHeadBefore : String
  launchId : Option String
  correlationId : Option String
  commandId : Option String

def selectTask (plan : ProjectPlan) (d : ExecutionDocument) (taskId : Option String) :
    Outcome (Option String) :=
  let named := taskId.filter (· ≠ "") <|> d.currentTask.filter (· ≠ "") <|> plan.currentTaskId
  match named with
  | some t => .ok (some t)
  | none =>
    match availableProjectTasks plan d none with
    | [] => .ok none
    | [t] => .ok (some t.taskId)
    | ts => .error ⟨"task_selection_required",
        "multiple execution tasks are runnable; choose one explicitly",
        [("task_ids",strings (ts.map (·.taskId)))]⟩

def resumableBinding (d : ExecutionDocument) (bs : List ProjectExecutionBinding) :
    Option ProjectExecutionBinding :=
  (d.currentBinding.filter (· ≠ "")).bind (fun id =>
    (bs.filter ProjectExecutionBinding.isActive).find? (fun b => b.executionBindingId == id))

def freshBinding (amb : Ambient) (project : ProjectRecord) (plan : ProjectPlan)
    (request : BindingRequest) (taskId : String) (generation : Int) :
    Outcome ProjectExecutionBinding := do
  let head ← executionText (.str request.expectedRepoHeadBefore) "expected_repo_head_before" 128 true
  require (head = "unknown" ∨ matchesHead head = true) "repo_head_invalid"
    "expected_repo_head_before is not a Git object identity"
  pure ⟨"binding-" ++ amb.uuid,project.projectId,plan.planVersion,taskId,
    (request.launchId.filter (· ≠ "")).getD amb.launchUuid,
    (request.correlationId.filter (· ≠ "")).getD ("corr-" ++ amb.uuid),
    (request.commandId.filter (· ≠ "")).getD ("command-" ++ amb.uuid),project.repoAlias,head,amb.now,
    .active,false,generation,none,none⟩

def newBinding (amb : Ambient) (site : Site) (projectId : String) (request : BindingRequest)
    (memory : Option ProjectMemoryState) : Outcome ProjectExecutionBinding := do
  let (project,plan) ← site.authority projectId
  let state ← readState projectId memory
  let d ← executionDocument state
  let selected ← selectTask plan d request.taskId
  let task ← need (selected.bind plan.task?) "task_not_found" "execution task does not exist"
  require (¬ (effectiveStatus d task).done = true) "task_already_complete"
    "completed task cannot start a new binding"
  requirePrerequisites plan d task
  let bs := d.bindings.filter (ProjectExecutionBinding.sameGroup task.taskId plan.planVersion)
  match resumableBinding d bs with
  | some b => bindingFromDict amb.runtime b
  | none => freshBinding amb project plan request task.taskId (maxGeneration bs + 1)

/-! ## Persisting a binding -/

def bindingAuthority (site : Site) (binding : ProjectExecutionBinding) :
    Outcome (ProjectRecord × ProjectPlan) := do
  let _ ← identifier (.str binding.projectId) "project_id"
  let (project,plan) ← site.authority binding.projectId
  require (binding.planVersion = plan.planVersion ∧ binding.repoAlias = project.repoAlias)
    "execution_binding_stale" "binding no longer matches current project authority"
  pure (project,plan)

/-- The stored binding of the same identity, which must describe the same launch. -/
def existingBinding (rt : Runtime) (d : ExecutionDocument) (binding : ProjectExecutionBinding) :
    Outcome (Option ProjectExecutionBinding) :=
  match d.binding? binding.executionBindingId with
  | none => .ok none
  | some existing => do
    require (Evidence.semanticDigest rt existing.toDict = Evidence.semanticDigest rt binding.toDict)
      "execution_binding_conflict" "binding identity already contains different bytes"
    some <$> bindingFromDict rt existing

def supersedeGroup (now taskId planVersion : String) (bs : List ProjectExecutionBinding) :
    List ProjectExecutionBinding :=
  bs.map (fun b => if b.sameGroup taskId planVersion && b.isActive then supersede now b else b)

def persisted (d : ExecutionDocument) (binding : ProjectExecutionBinding) : ProjectExecutionBinding :=
  { binding with
    status := .active, superseded := false,
    generation := max binding.generation
      (maxGeneration (d.bindings.filter (ProjectExecutionBinding.sameGroup binding.taskId
        binding.planVersion)) + 1) }

/-- The document after a launch: the earlier bindings of the task are superseded and
the cursors point at the new one. -/
def launched (now : String) (binding : ProjectExecutionBinding) (d : ExecutionDocument) :
    ExecutionDocument :=
  { d with
    bindings := supersedeGroup now binding.taskId binding.planVersion d.bindings ++ [persisted d binding],
    taskStatuses := d.taskStatuses.setdefault binding.taskId .active,
    currentTaskId := some (some binding.taskId),
    currentBindingId := some (some binding.executionBindingId) }

def appendLaunchEvents (amb : Ambient) (binding : ProjectExecutionBinding) (generation : Int)
    (s : ProjectMemoryState) : Outcome ProjectMemoryState := do
  let subject := EventSubject.ofTask binding.taskId binding.planVersion (some binding.correlationId)
  let suffix := binding.taskId ++ " (gen=" ++ generation.repr ++ ")"
  let bound ← appendEvent amb binding.projectId "EXECUTION_BOUND"
    ("Powiązano wykonanie z zadaniem " ++ suffix) subject s
  appendEvent amb binding.projectId "EXECUTION_STARTED" ("Rozpoczęto próbę zadania " ++ suffix)
    subject bound

def persistBindingTransition (amb : Ambient) (plan : ProjectPlan) (binding : ProjectExecutionBinding) :
    Transition ProjectExecutionBinding := fun state => do
  let d ← executionDocument state
  let task ← planTask plan binding.taskId
  let existing ← existingBinding amb.runtime d binding
  match existing with
  | some stored => pure (state,stored)
  | none => do
    requirePrerequisites plan d task
    let updated ← appendLaunchEvents amb binding (persisted d binding).generation
      (state.withDocument (launched amb.now binding d))
    pure (updated,persisted d binding)

/-! ## Preparing a launch -/

def handoffFromDict (h : LaunchHandoff) : Outcome LaunchHandoff := do
  let projectId ← identifier (.str h.projectId) "launch_handoff.project_id"
  let executionBindingId ← identifier (.str h.executionBindingId) "launch_handoff.execution_binding_id"
  let taskId ← identifier (.str h.taskId) "launch_handoff.task_id"
  let launchId ← identifier (.str h.launchId) "launch_handoff.launch_id"
  let updatedAt ← executionText (.str h.updatedAt) "launch_handoff.updated_at" 64 true
  let conversationId ← optionalConversation h.conversationId "launch_handoff.conversation_id"
  pure ⟨projectId,executionBindingId,taskId,launchId,h.status,updatedAt,conversationId⟩

def outboxFromDict (o : ProjectLaunchOutboxRecord) : Outcome ProjectLaunchOutboxRecord := do
  let launchId ← identifier (.str o.launchId) "launch_id"
  let executionBindingId ← identifier (.str o.executionBindingId) "execution_binding_id"
  let projectId ← identifier (.str o.projectId) "project_id"
  let planVersion ← executionText (.str o.planVersion) "plan_version" 32 true
  let taskId ← identifier (.str o.taskId) "task_id"
  let correlationId ← identifier (.str o.correlationId) "correlation_id"
  let commandId ← identifier (.str o.commandId) "command_id"
  let repoAlias ← executionText (.str o.repoAlias) "repo_alias" 64 true
  let prompt ← executionText (.str o.prompt) "prompt" 100000 true
  let createdAt ← executionText (.str o.createdAt) "created_at" 64 true
  let updatedAt ← executionText (.str o.updatedAt) "updated_at" 64 true
  let expiresAt ← executionText (.str o.expiresAt) "expires_at" 64 true
  pure ⟨launchId,executionBindingId,projectId,planVersion,taskId,correlationId,commandId,repoAlias,
    prompt,o.autoSend,o.status,createdAt,updatedAt,expiresAt,o.expectedRepoHeadBefore⟩

structure LaunchRequest where
  projectId : String
  binding : ProjectExecutionBinding
  prompt : String
  autoSend : Bool
  expiresAt : String

def pendingHandoff (now projectId : String) (binding : ProjectExecutionBinding) : LaunchHandoff :=
  ⟨projectId,binding.executionBindingId,binding.taskId,binding.launchId,.pending,now,none⟩

def outboxRecord (now : String) (project : ProjectRecord) (plan : ProjectPlan) (prompt : String)
    (request : LaunchRequest) : ProjectLaunchOutboxRecord :=
  let b := request.binding
  ⟨b.launchId,b.executionBindingId,project.projectId,plan.planVersion,b.taskId,b.correlationId,
    b.commandId,project.repoAlias,prompt,request.autoSend,.pending,now,now,request.expiresAt,
    some b.expectedRepoHeadBefore⟩

def withOutbox (now : String) (project : ProjectRecord) (plan : ProjectPlan) (prompt : String)
    (request : LaunchRequest) (d : ExecutionDocument) :
    Outcome (ExecutionDocument × ProjectLaunchOutboxRecord) :=
  match d.launchOutbox.lookup request.binding.launchId with
  | some stored => do
    let record ← outboxFromDict stored
    require (record.projectId = request.projectId ∧
        record.executionBindingId = request.binding.executionBindingId ∧
        record.taskId = request.binding.taskId)
      "launch_outbox_conflict" "launch outbox identity already contains different bytes"
    pure (d,record)
  | none =>
    let record := outboxRecord now project plan prompt request
    pure ({ d with launchOutbox := d.launchOutbox.insert request.binding.launchId record },record)

def withHandoff (now : String) (request : LaunchRequest) (d : ExecutionDocument) : ExecutionDocument :=
  if request.autoSend then
    { d with launchHandoffs := d.launchHandoffs.setdefault request.binding.executionBindingId
               (pendingHandoff now request.projectId request.binding) }
  else d

def launchBinding (amb : Ambient) (plan : ProjectPlan) (binding : ProjectExecutionBinding)
    (task : ProjectTask) (d : ExecutionDocument) :
    Outcome (ExecutionDocument × ProjectExecutionBinding) := do
  let existing ← existingBinding amb.runtime d binding
  match existing with
  | some stored => pure (d,stored)
  | none => do
    requirePrerequisites plan d task
    pure (launched amb.now binding d,persisted d binding)

def prepareLaunchTransition (amb : Ambient) (project : ProjectRecord) (plan : ProjectPlan)
    (prompt : String) (request : LaunchRequest) :
    Transition (ProjectExecutionBinding × ProjectLaunchOutboxRecord) := fun state => do
  let d ← executionDocument state
  let task ← planTask plan request.binding.taskId
  let (bound,stored) ← launchBinding amb plan request.binding task d
  let (posted,record) ← withOutbox amb.now project plan prompt request bound
  let updated ← appendLaunchEvents amb request.binding stored.generation
    (state.withDocument (withHandoff amb.now request posted))
  pure (updated,stored,record)

/-! ## Conversations and cursors -/

def activeFor (projectId planVersion : String) (b : ProjectExecutionBinding) : Prop :=
  b.projectId = projectId ∧ b.planVersion = planVersion ∧ b.status = .active ∧ b.superseded = false

instance (projectId planVersion : String) (b : ProjectExecutionBinding) :
    Decidable (activeFor projectId planVersion b) := by
  unfold activeFor
  infer_instance

def bindConversationTransition (amb : Ambient) (project : ProjectRecord) (plan : ProjectPlan)
    (bindingId conversationId : String) : Transition ProjectExecutionBinding := fun state => do
  let d ← executionDocument state
  let raw ← storedBinding d bindingId
  let current ← bindingFromDict amb.runtime raw
  require (activeFor project.projectId plan.planVersion current) "execution_binding_stale"
    "execution binding is not active"
  require (current.conversationId = none ∨ current.conversationId = some conversationId)
    "execution_conversation_mismatch" "execution binding is owned by another conversation"
  if current.conversationId = some conversationId then pure (state,current)
  else do
    let bound := { current with conversationId := some conversationId }
    let bindings := d.bindings.map (fun b => if b.executionBindingId == bindingId then bound else b)
    let updated ← appendEvent amb project.projectId "EXECUTION_CONVERSATION_BOUND"
      ("Powiązano rozmowę z zadaniem " ++ current.taskId)
      (.ofTask current.taskId current.planVersion (some current.correlationId))
      (state.withDocument { d with bindings := bindings })
    pure (updated,bound)

def restoreCurrentBindingTransition (rt : Runtime) (projectId : String) (plan : ProjectPlan)
    (bindingId : String) : Transition ProjectExecutionBinding := fun state => do
  let d ← executionDocument state
  let raw ← storedBinding d bindingId
  let binding ← bindingFromDict rt raw
  require (activeFor projectId plan.planVersion binding) "execution_binding_stale"
    "execution binding is not active"
  require (d.currentBinding = none ∨ d.currentBinding = some bindingId) "execution_binding_stale"
    "another binding is the current canonical binding"
  let task ← planTask plan binding.taskId
  require (¬ (effectiveStatus d task).done = true) "task_already_complete"
    "completed task cannot become the current binding"
  pure (state.withDocument { d with currentTaskId := some (some binding.taskId),
                                    currentBindingId := some (some bindingId) },binding)

/-! ## Handoffs and the outbox -/

def markHandoffPendingTransition (now projectId : String) (binding : ProjectExecutionBinding) :
    Transition LaunchHandoff := fun state => do
  let d ← executionDocument state
  match d.launchHandoffs.lookup binding.executionBindingId with
  | some stored => do
    let current ← handoffFromDict stored
    require (current.projectId = projectId ∧ current.executionBindingId = binding.executionBindingId ∧
        current.taskId = binding.taskId ∧ current.launchId = binding.launchId)
      "launch_handoff_conflict" "launch handoff identity already contains different bytes"
    pure (state,current)
  | none =>
    let handoff := pendingHandoff now projectId binding
    pure (state.withDocument { d with
      launchHandoffs := d.launchHandoffs.insert binding.executionBindingId handoff },handoff)

def matchingHandoff (projectId bindingId launchId conversationId : String) (d : ExecutionDocument) :
    Outcome (Option LaunchHandoff) :=
  match d.launchHandoffs.lookup bindingId with
  | none => pure none
  | some stored => do
    let current ← handoffFromDict stored
    require (current.projectId = projectId ∧ current.executionBindingId = bindingId ∧
        current.launchId = launchId ∧
        (current.conversationId = none ∨ current.conversationId = some conversationId))
      "launch_handoff_conflict" "launch handoff identity does not match the canonical request"
    pure (some current)

def markHandoffSentTransition (amb : Ambient) (projectId : String) (plan : ProjectPlan)
    (bindingId launchId conversationId : String) : Transition LaunchHandoff := fun state => do
  let d ← executionDocument state
  let existing ← matchingHandoff projectId bindingId launchId conversationId d
  match existing.filter (fun h => h.status == .sent) with
  | some sent => pure (state,sent)
  | none => do
    let raw ← need (d.binding? bindingId) "execution_binding_not_found"
      "launch handoff binding does not exist"
    let binding ← bindingFromDict amb.runtime raw
    require (activeFor projectId plan.planVersion binding ∧ binding.launchId = launchId)
      "execution_binding_stale" "launch handoff binding is not active"
    require (binding.conversationId = none ∨ binding.conversationId = some conversationId)
      "execution_conversation_mismatch" "launch handoff conversation differs"
    require (d.currentBinding = some bindingId) "execution_binding_stale"
      "launch handoff binding is not the current canonical binding"
    let handoff : LaunchHandoff :=
      ⟨projectId,bindingId,binding.taskId,launchId,.sent,amb.now,some conversationId⟩
    pure (state.withDocument { d with launchHandoffs := d.launchHandoffs.insert bindingId handoff },
      handoff)

/-- Moves an outbox record on, unless it already left the states to move on from. -/
def markOutboxTransition (now launchId : String) (target : OutboxStatus)
    (movable : OutboxStatus → Bool) : Transition ProjectLaunchOutboxRecord := fun state => do
  let d ← executionDocument state
  let raw ← need (d.launchOutbox.lookup launchId) "launch_outbox_not_found"
    ("launch outbox record '" ++ launchId ++ "' does not exist")
  let current ← outboxFromDict raw
  if movable current.status then
    let record := { current with status := target, updatedAt := now }
    pure (state.withDocument { d with launchOutbox := d.launchOutbox.insert launchId record },record)
  else pure (state,current)

def markOutboxPublishedTransition (now launchId : String) : Transition ProjectLaunchOutboxRecord :=
  markOutboxTransition now launchId .published (fun s => s == .pending)

def markOutboxAcknowledgedTransition (now launchId : String) : Transition ProjectLaunchOutboxRecord :=
  markOutboxTransition now launchId .acknowledged (fun s => s != .acknowledged)

/-! ## Checkpoints -/

structure CheckpointRequest where
  status : String
  progressSummary : String
  externalReference : Option String
  lastProgressAt : Option String

def readBinding (rt : Runtime) (site : Site) (projectId bindingId : String)
    (memory : Option ProjectMemoryState) : Outcome ProjectExecutionBinding := do
  let _ ← identifier (.str projectId) "project_id"
  let id ← identifier (.str bindingId) "execution_binding_id"
  let _ ← site.authority projectId
  let state ← readState projectId memory
  let d ← executionDocument state
  let raw ← storedBinding d id
  let binding ← bindingFromDict rt raw
  require (binding.projectId = projectId) "execution_binding_stale"
    "execution binding belongs to another project"
  pure binding

def optionalReference (value : Option String) : Outcome (Option String) :=
  match value with
  | some s => some <$> executionText (.str s) "external_reference" 512 true
  | none => pure none

def checkpointRecord (amb : Ambient) (binding : ProjectExecutionBinding) (request : CheckpointRequest) :
    Outcome ExecutionCheckpoint := do
  let status ← statusText amb.runtime (.str request.status) "checkpoint_status"
  require (status ∈ ["ACTIVE","WAITING_EXTERNAL","RESUMABLE"]) "checkpoint_status_invalid"
    "checkpoint status is unsupported"
  let reference ← optionalReference request.externalReference
  let summary ← executionText (.str request.progressSummary) "progress_summary" 4000 false
  let last ← executionText (.str ((request.lastProgressAt.filter (· ≠ "")).getD amb.now))
    "last_progress_at" 64 true
  parseCheckpointTime amb.runtime last
  pure ⟨binding.executionBindingId,binding.projectId,binding.taskId,binding.planVersion,status,summary,
    reference,last⟩

def recordCheckpointTransition (amb : Ambient) (projectId : String) (plan : ProjectPlan)
    (binding : ProjectExecutionBinding) (checkpoint : ExecutionCheckpoint) :
    Transition ExecutionCheckpoint := fun state => do
  let d ← executionDocument state
  let raw ← need (d.binding? binding.executionBindingId) "StopIteration" ""
  let current ← bindingFromDict amb.runtime raw
  require (current.status = .active ∧ current.superseded = false) "execution_binding_stale"
    "checkpoint binding is not active"
  let updated ← appendEvent amb projectId "EXECUTION_CHECKPOINT"
    ("Checkpoint " ++ checkpoint.status ++ " dla " ++ binding.taskId)
    (.ofTask binding.taskId plan.planVersion (some binding.correlationId))
    (state.withDocument { d with
      checkpoints := d.checkpoints.insert binding.executionBindingId checkpoint })
  pure (updated,checkpoint)

end Bdb.Project
