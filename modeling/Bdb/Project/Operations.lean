import Bdb.Project.Runs

/-! # Operations of the execution coordinator

Each operation looks up its authority, checks its arguments and commits one
transition; recording a result and deciding a review end with a reconciliation of the
task cursor.
-/
namespace Bdb.Project
open Program

abbrev Memory := Option ProjectMemoryState

abbrev Action (α : Type) := Program Memory α

def transact {α : Type} (projectId : String) (operation : Transition α) : Action α :=
  commit (executionTransaction projectId operation)

section Coordinator
variable (amb : Ambient) (site : Site)

def persistBinding (binding : ProjectExecutionBinding) : Action ProjectExecutionBinding := do
  let (_,plan) ← lift (bindingAuthority site binding)
  transact binding.projectId (persistBindingTransition amb plan binding)

def start (projectId : String) (request : BindingRequest) : Action ProjectExecutionBinding := do
  let binding ← observe (newBinding amb site projectId request)
  persistBinding amb site binding

def prepareLaunch (request : LaunchRequest) :
    Action (ProjectExecutionBinding × ProjectLaunchOutboxRecord) := do
  let (project,plan) ← lift (bindingAuthority site request.binding)
  let prompt ← lift (executionText (.str request.prompt) "prompt" 100000 true)
  transact request.binding.projectId (prepareLaunchTransition amb project plan prompt request)

def bindConversation (projectId executionBindingId conversationId : String) :
    Action ProjectExecutionBinding := do
  let owner ← lift (conversation (.str conversationId) "conversation_id")
  let bindingId ← lift (identifier (.str executionBindingId) "execution_binding_id")
  let (project,plan) ← lift (site.authority projectId)
  transact projectId (bindConversationTransition amb project plan bindingId owner)

def restoreCurrentBinding (projectId executionBindingId : String) : Action ProjectExecutionBinding := do
  let bindingId ← lift (identifier (.str executionBindingId) "execution_binding_id")
  let (_,plan) ← lift (site.authority projectId)
  transact projectId (restoreCurrentBindingTransition amb.runtime projectId plan bindingId)

def markLaunchHandoffPending (projectId : String) (binding : ProjectExecutionBinding) :
    Action LaunchHandoff := do
  let (_,plan) ← lift (site.authority projectId)
  lift (require (binding.projectId = projectId ∧ binding.planVersion = plan.planVersion)
    "launch_handoff_stale" "launch handoff binding is not current project authority")
  transact projectId (markHandoffPendingTransition amb.now projectId binding)

def markLaunchHandoffSent (projectId executionBindingId launchId conversationId : String) :
    Action LaunchHandoff := do
  let bindingId ← lift (identifier (.str executionBindingId) "execution_binding_id")
  let owner ← lift (conversation (.str conversationId) "conversation_id")
  let (_,plan) ← lift (site.authority projectId)
  transact projectId (markHandoffSentTransition amb projectId plan bindingId launchId owner)

def markOutboxPublished (projectId launchId : String) : Action ProjectLaunchOutboxRecord := do
  let _ ← lift (site.authority projectId)
  transact projectId (markOutboxPublishedTransition amb.now launchId)

def markOutboxAcknowledged (projectId launchId : String) : Action ProjectLaunchOutboxRecord := do
  let _ ← lift (site.authority projectId)
  transact projectId (markOutboxAcknowledgedTransition amb.now launchId)

def recordCheckpoint (projectId executionBindingId : String) (request : CheckpointRequest) :
    Action ExecutionCheckpoint := do
  let binding ← observe (readBinding amb.runtime site projectId executionBindingId)
  let checkpoint ← lift (checkpointRecord amb binding request)
  let (_,plan) ← lift (site.authority projectId)
  transact projectId (recordCheckpointTransition amb projectId plan binding checkpoint)

/-- Moves the cursor when it differs and returns the record for the catalog. -/
def reconcile (projectId : String) : Action ProjectRecord := do
  let (project,plan) ← lift (site.authority projectId)
  let state ← observe (readState projectId)
  let d ← lift (executionDocument state)
  let current := reconciledTask plan d
  if d.currentTask = current then pure (reconciledRecord project plan d current)
  else do
    transact projectId (setPointerTransition current)
    pure (reconciledRecord project plan d current)

def recordResult (projectId : String) (result : Fields) : Action ProjectExecutionAttempt := do
  let (project,plan) ← lift (site.authority projectId)
  let bindingId ← lift (identifier (result.get "execution_binding_id") "execution_binding_id")
  let (attempt,stale) ← transact projectId (recordResultTransition amb project plan bindingId result)
  match stale with
  | some reason =>
    throw ⟨"STALE_RESULT","execution result is stale and requires reconciliation",
      [("attempt_id",.str attempt.attemptId),("reason",reason)]⟩
  | none => do
    let _ ← reconcile site projectId
    pure attempt

def beginMilestoneAuto (projectId : String) (milestoneId runId : Option String) :
    Action MilestoneAutoSnapshot := do
  let (_,plan) ← lift (site.authority projectId)
  let state ← observe (readState projectId)
  let progress := milestoneAutoProgress plan state.document milestoneId
  if progress.status = .runnable ∨ progress.status = .milestoneCompleted then do
    let d ← lift (executionDocument state)
    let selected := progress.milestoneId.getD "None"
    let id ← lift (runIdFor amb d selected runId)
    transact projectId (beginMilestoneAutoTransition amb projectId plan progress selected id)
    observe (milestoneAutoSnapshot site projectId (some id))
  else throw ⟨progress.status.text,"milestone AUTO cannot start",progress.toDict⟩

def stopMilestoneAuto (projectId runId reason : String) : Action MilestoneAutoSnapshot := do
  let (_,plan) ← lift (site.authority projectId)
  let id ← lift (identifier (.str runId) "milestone_run_id")
  transact projectId (stopMilestoneAutoTransition amb projectId plan id reason)
  observe (milestoneAutoSnapshot site projectId (some id))

def approveReview (projectId taskId reason : String) : Action Unit := do
  let (_,plan) ← lift (site.authority projectId)
  transact projectId (approveReviewTransition amb projectId plan taskId reason)
  let _ ← reconcile site projectId
  pure ()

def requestChanges (projectId taskId reason : String) : Action Unit := do
  let (_,plan) ← lift (site.authority projectId)
  transact projectId (requestChangesTransition amb projectId plan taskId reason)
  let _ ← reconcile site projectId
  pure ()

def requestProjectReviewTransition (projectId : String) (plan : ProjectPlan) (reason : String) :
    Transition Unit := fun state => do
  let updated ← appendEvent amb projectId "PROJECT_REVIEW_REQUESTED" reason
    (.ofPlan (some plan.planVersion)) state
  pure (updated,())

def requestProjectReview (projectId reason : String) : Action Unit := do
  let (_,plan) ← lift (site.authority projectId)
  let text ← lift (executionText (.str reason) "review_reason" 2000 true)
  transact projectId (requestProjectReviewTransition amb projectId plan text)

def reconcileBindingsTransition (projectId : String) : Transition Unit := fun state => do
  let d ← executionDocument state
  let updated ← appendEvent amb projectId "BINDINGS_RECONCILED"
    ("Zrekoncyliowano powiązania wykonania projektu " ++ projectId) .nothing
    (state.withDocument (reconcileExecutionBindings amb.now d))
  pure (updated,())

def reconcileProjectBindings (projectId : String) : Action Unit := do
  let _ ← lift (site.authority projectId)
  transact projectId (reconcileBindingsTransition amb projectId)

end Coordinator

/-! ## Calls and runs -/

/-- Every operation of the coordinator with its arguments. -/
inductive Operation where
  | start (projectId : String) (request : BindingRequest)
  | persistBinding (binding : ProjectExecutionBinding)
  | prepareLaunch (request : LaunchRequest)
  | bindConversation (projectId bindingId conversationId : String)
  | restoreCurrentBinding (projectId bindingId : String)
  | markLaunchHandoffPending (projectId : String) (binding : ProjectExecutionBinding)
  | markLaunchHandoffSent (projectId bindingId launchId conversationId : String)
  | markOutboxPublished (projectId launchId : String)
  | markOutboxAcknowledged (projectId launchId : String)
  | recordCheckpoint (projectId bindingId : String) (request : CheckpointRequest)
  | recordResult (projectId : String) (result : Fields)
  | beginMilestoneAuto (projectId : String) (milestoneId runId : Option String)
  | stopMilestoneAuto (projectId runId reason : String)
  | approveReview (projectId taskId reason : String)
  | requestChanges (projectId taskId reason : String)
  | reconcile (projectId : String)
  | requestProjectReview (projectId reason : String)
  | reconcileProjectBindings (projectId : String)

/-- Runs an operation for its effect. -/
def Operation.action (amb : Ambient) (site : Site) : Operation → Action Unit
  | .start p r => discard (Project.start amb site p r)
  | .persistBinding b => discard (Project.persistBinding amb site b)
  | .prepareLaunch r => discard (Project.prepareLaunch amb site r)
  | .bindConversation p b c => discard (Project.bindConversation amb site p b c)
  | .restoreCurrentBinding p b => discard (Project.restoreCurrentBinding amb site p b)
  | .markLaunchHandoffPending p b => discard (Project.markLaunchHandoffPending amb site p b)
  | .markLaunchHandoffSent p b l c => discard (Project.markLaunchHandoffSent amb site p b l c)
  | .markOutboxPublished p l => discard (Project.markOutboxPublished amb site p l)
  | .markOutboxAcknowledged p l => discard (Project.markOutboxAcknowledged amb site p l)
  | .recordCheckpoint p b r => discard (Project.recordCheckpoint amb site p b r)
  | .recordResult p r => discard (Project.recordResult amb site p r)
  | .beginMilestoneAuto p m r => discard (Project.beginMilestoneAuto amb site p m r)
  | .stopMilestoneAuto p r s => discard (Project.stopMilestoneAuto amb site p r s)
  | .approveReview p t r => Project.approveReview amb site p t r
  | .requestChanges p t r => Project.requestChanges amb site p t r
  | .reconcile p => discard (Project.reconcile site p)
  | .requestProjectReview p r => Project.requestProjectReview amb site p r
  | .reconcileProjectBindings p => Project.reconcileProjectBindings amb site p

/-- One call: an operation with the surroundings and the authority it meets. -/
structure Call where
  ambient : Ambient
  site : Site
  operation : Operation

def Call.run (c : Call) (m : Memory) : Memory := ((c.operation.action c.ambient c.site).exec m).2

/-- The memory after a sequence of calls, failed ones included. -/
def runCalls (calls : List Call) (m : Memory) : Memory := calls.foldl (fun m c => c.run m) m

def documentOf (m : Memory) : ExecutionDocument := ((m.map (·.execution)).getD Execution.empty).filled

end Bdb.Project
