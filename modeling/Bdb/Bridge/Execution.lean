import Bdb.Base.Crashes
import Bdb.Bridge.ExactReplacement
import Bdb.Bridge.StateHash
import Bdb.Bridge.States

/-! # Execution of a single-file command

A claimed command is planned from the bytes of its target; the plan is recorded, a temp file
is created and filled, it replaces the target, and the effect is recorded. A call that finds
a plan recorded decides from the journal and the files where the earlier call stopped.
-/
namespace Bdb.Bridge

/-! ## Records -/

structure OperationPlan where
  commandId : String
  sessionId : String
  operation : String
  targetPath : String
  profileId : String
  expectedRevision : Int
  expectedStateHash : Option String
  workspaceRevisionBefore : Int
  workspaceStateHashBefore : String
  beforeContent : Bytes
  plannedAfterContent : Bytes
  plannedAfterStateHash : String
deriving DecidableEq

structure OperationEffect where
  commandId : String
  sessionId : String
  targetPath : String
  workspaceRevisionBefore : Int
  workspaceRevisionAfter : Int
  workspaceStateHashBefore : String
  workspaceStateHashAfter : String
  beforeContent : Bytes
  afterContent : Bytes
deriving DecidableEq

def effectFor (plan : OperationPlan) : OperationEffect where
  commandId := plan.commandId
  sessionId := plan.sessionId
  targetPath := plan.targetPath
  workspaceRevisionBefore := plan.workspaceRevisionBefore
  workspaceRevisionAfter := plan.workspaceRevisionBefore + 1
  workspaceStateHashBefore := plan.workspaceStateHashBefore
  workspaceStateHashAfter := plan.plannedAfterStateHash
  beforeContent := plan.beforeContent
  afterContent := plan.plannedAfterContent

/-- A command with its parsed document. -/
structure BridgeCommand where
  commandId : String
  sessionId : String
  document : Outcome Json
  expectedRevision : Option Int
  expectedStateHash : Option String

/-- What a crash leaves: the checkout, the temp file of the plan, and the rows of the command,
its session and its workspace. The worktree's attachment and the foreign paths are found
anew by every call. -/
structure ExecutionWorld where
  checkout : Checkout
  attached : Outcome Unit
  foreign : List String
  temp : Option Bytes
  state : CommandState
  sessionState : SessionState
  revision : Int
  stateHash : String
  plan : Option OperationPlan
  effect : Option OperationEffect

variable (m : WorkspaceManager) (lsFiles : Checkout → List String)

def WorkspaceManager.readExactBytes (c : Checkout) (relative : String) : Outcome Bytes := do
  let p ← m.resolveAllowedPath c relative
  need (c.tree.fileAt p) "missing_file" ("File does not exist: " ++ relative)

/-! ## The recovery decision -/

inductive RecoveryDecision where
  | execute
  | recoverPlannedAfter
  | idempotentReplay
  | diverged
deriving DecidableEq

structure RecoveryAssessment where
  decision : RecoveryDecision
  reasonCode : String
  plan : Option OperationPlan
  effect : Option OperationEffect

def diverged (reasonCode : String) (plan : Option OperationPlan) : RecoveryAssessment :=
  ⟨.diverged,reasonCode,plan,none⟩

def WorkspaceManager.verifyExpectedTemp (w : ExecutionWorld) (plan : OperationPlan) : Outcome (Option Bytes) :=
  if w.foreign ≠ [] then fail "manual_reconciliation_required" "Foreign workspace paths"
  else
    match w.temp with
    | none => .ok none
    | some data => do
      require (data = plan.plannedAfterContent) "manual_reconciliation_required"
        "Expected temp artifact bytes differ from persisted plan"
      let target ← m.readExactBytes w.checkout plan.targetPath
      require (target = plan.beforeContent) "manual_reconciliation_required"
        "Target is no longer in BEFORE state while temp exists"
      pure (some data)

def assessExecuting (w : ExecutionWorld) (plan : OperationPlan) (target : Bytes) (actualState : String) :
    RecoveryAssessment :=
  if w.revision = plan.workspaceRevisionBefore ∧ w.stateHash = plan.workspaceStateHashBefore ∧
      target = plan.beforeContent ∧ actualState = plan.workspaceStateHashBefore then
    match m.verifyExpectedTemp w plan with
    | .error e => diverged e.code (some plan)
    | .ok temp => ⟨.execute,if temp.isSome then "before_with_verified_temp" else "before",some plan,none⟩
  else if w.revision = plan.workspaceRevisionBefore ∧ w.stateHash = plan.workspaceStateHashBefore ∧
      target = plan.plannedAfterContent ∧ actualState = plan.plannedAfterStateHash ∧ w.temp = none ∧ w.effect = none then
    ⟨.recoverPlannedAfter,"planned_after_without_effect",some plan,none⟩
  else diverged "executing_state_diverged" (some plan)

def assessEffect (w : ExecutionWorld) (plan : OperationPlan) (target : Bytes) (actualState : String) :
    RecoveryAssessment :=
  match w.effect with
  | none => diverged "effect_missing" (some plan)
  | some effect =>
    if w.revision = effect.workspaceRevisionAfter ∧ w.stateHash = effect.workspaceStateHashAfter ∧
        target = plan.plannedAfterContent ∧ actualState = effect.workspaceStateHashAfter ∧ w.temp = none then
      ⟨.idempotentReplay,"effect_verified",some plan,some effect⟩
    else ⟨.diverged,"effect_state_diverged",some plan,some effect⟩

def makeRecoveryDecision (w : ExecutionWorld) : RecoveryAssessment :=
  if w.state = .claimed then ⟨.execute,"claimed_new",none,none⟩
  else
    match w.plan with
    | none => diverged "plan_missing" none
    | some plan =>
      if w.foreign ≠ [] then diverged "foreign_workspace_paths" (some plan)
      else
        match m.readExactBytes w.checkout plan.targetPath with
        | .error e => diverged e.code (some plan)
        | .ok target =>
          match m.computeStateHash lsFiles w.checkout with
          | .error e => diverged e.code (some plan)
          | .ok actualState =>
            match w.state with
            | .executing => assessExecuting m w plan target actualState
            | .effectRecorded => assessEffect w plan target actualState
            | _ => diverged "unsupported_command_state" (some plan)

/-! ## The plan -/

/-- A command that is not executed ends in a terminal state, or the call raises. -/
inductive Refusal where
  | terminal (state : CommandState) (code : String)
  | manual (reasonCode : String)
  | raised (e : Failure)

def parseCommand (command : BridgeCommand) : Outcome (Fields × String × String) := do
  match ← command.document with
  | .obj document =>
    match document.lookup "payload" with
    | some (.obj payload) => do
      require (Fields.get document "operation" = .str "replace_exact_and_test") "unsupported_operation"
        "Operation is not supported by GHB0-4"
      match Fields.get payload "profile_id" with
      | .str profileId => do
        require (profileId ∈ ["poc_pytest","shopify_theme_check"]) "policy_denied"
          "payload.profile_id must be one of: poc_pytest, shopify_theme_check"
        pure (payload,"replace_exact_and_test",profileId)
      | _ => fail "policy_denied" "payload.profile_id must be one of: poc_pytest, shopify_theme_check"
    | _ => fail "invalid_payload" "payload must be an object"
  | _ => fail "invalid_payload" "command_json must be an object"

def WorkspaceManager.validatePreplanGate (w : ExecutionWorld) (command : BridgeCommand) : Outcome Unit := do
  w.attached
  require (w.foreign = []) "manual_reconciliation_required" "Unauthorized workspace paths"
  let actual ← m.computeStateHash lsFiles w.checkout
  require (actual = w.stateHash) "manual_reconciliation_required" "Physical workspace state differs from journal before plan"
  require (command.expectedRevision.getD (-1) = w.revision) "stale_revision" "Expected revision differs"
  require (∀ expected ∈ command.expectedStateHash, expected = w.stateHash) "state_mismatch"
    "expected_state_hash does not match journal workspace"

def gateRefusal (e : Failure) : Refusal :=
  if e.code = "stale_revision" then .terminal .staleRevision e.code
  else if e.code = "state_mismatch" then .terminal .stateMismatch e.code
  else if e.code ∈ ["policy_denied","scope_violation","unsafe_path"] then .terminal .policyDenied e.code
  else .manual e.code

def denied (e : Failure) : Refusal := .terminal .policyDenied e.code

def parseRefusal (e : Failure) : Refusal :=
  if e.code ∈ ["policy_denied","unsupported_operation","invalid_payload"] then denied e else .raised e

def refusing {α : Type} (refusal : Failure → Refusal) : Outcome α → Except Refusal α
  | .ok a => .ok a
  | .error e => .error (refusal e)

def WorkspaceManager.preparePlan (w : ExecutionWorld) (command : BridgeCommand) : Except Refusal OperationPlan := do
  let (payload, operation, profileId) ← refusing parseRefusal (parseCommand command)
  refusing gateRefusal (m.validatePreplanGate lsFiles w command)
  match Fields.get payload "path" with
  | .str relativePath => do
    let replacements ← refusing denied (replacementPairs payload)
    let _ ← refusing denied (m.resolveAllowedPath w.checkout relativePath)
    let before ← refusing .raised (m.readExactBytes w.checkout relativePath)
    let beforeText ← refusing .raised (need (decodeUtf8 before) "invalid_payload" "Target file is not strict UTF-8")
    let afterText ← refusing denied (applyExactReplacements beforeText replacements)
    let after := encodeUtf8 afterText
    let plannedAfterStateHash ← refusing .raised (m.computeStateHashWithOverride lsFiles w.checkout relativePath after)
    pure
      { commandId := command.commandId
        sessionId := command.sessionId
        operation := operation
        targetPath := relativePath
        profileId := profileId
        expectedRevision := w.revision
        expectedStateHash := command.expectedStateHash
        workspaceRevisionBefore := w.revision
        workspaceStateHashBefore := w.stateHash
        beforeContent := before
        plannedAfterContent := after
        plannedAfterStateHash := plannedAfterStateHash }
  | _ => .error (.terminal .policyDenied "invalid_payload")

/-! ## Steps -/

/-- The steps between which a call can crash. A look reads what the world holds. -/
inductive ExecutionRequest where
  | look
  | recordOperationPlan (plan : OperationPlan)
  | createTemp (planned : Bytes)
  | fillTemp (content : Bytes)
  | replaceTarget (path : String)
  | recordOperationEffect (effect : OperationEffect)
  | markBlocked
  | terminate (state : CommandState)
  | runProfile (profileId : String)

namespace ExecutionRequest

def Answer : ExecutionRequest → Type
  | .look => ExecutionWorld
  | .fillTemp _ => Unit
  | .runProfile _ => Unit
  | _ => Outcome Unit

end ExecutionRequest

namespace ExecutionWorld

def recordOperationPlan (w : ExecutionWorld) (plan : OperationPlan) : ExecutionWorld × Outcome Unit :=
  match w.plan with
  | some existing =>
    if existing ≠ plan then
      (w,fail "operation_plan_collision" "Different immutable plan already registered for command")
    else if w.state = .executing ∨ w.state = .effectRecorded then (w,.ok ())
    else (w,fail "journal_conflict" "Replayed plan has inconsistent command state")
  | none =>
    if w.state ≠ .claimed then (w,fail "invalid_state_transition" ("Plan requires CLAIMED command, got " ++ w.state.value))
    else if w.revision ≠ plan.workspaceRevisionBefore ∨ w.stateHash ≠ plan.workspaceStateHashBefore then
      (w,fail "journal_conflict" "Plan workspace before-state does not match journal")
    else ({ w with plan := some plan, state := .executing },.ok ())

def createTemp (w : ExecutionWorld) : ExecutionWorld × Outcome Unit :=
  match w.temp with
  | none => ({ w with temp := some [] },.ok ())
  | some _ => (w,fail "journal_corrupt" "Controlled atomic write failure: FileExistsError")

def replaceTarget (w : ExecutionWorld) (path : String) : ExecutionWorld × Outcome Unit :=
  match w.temp, validateRepoRelativePath path with
  | some content, .ok p =>
    ({ w with checkout := { w.checkout with tree := w.checkout.tree.insert p (.file content) }, temp := none },.ok ())
  | _, _ => (w,fail "journal_corrupt" "Controlled atomic write failure: FileNotFoundError")

def recordOperationEffect (w : ExecutionWorld) (effect : OperationEffect) : ExecutionWorld × Outcome Unit :=
  match w.plan with
  | none => (w,fail "journal_conflict" "Operation plan is missing")
  | some plan =>
    if effect ≠ effectFor plan then (w,fail "effect_collision" "Effect immutable fields do not match persisted plan")
    else
      match w.effect with
      | some existing =>
        if existing ≠ effect then (w,fail "effect_collision" "Different immutable effect already registered for command")
        else if w.state ≠ .effectRecorded then
          (w,fail "journal_conflict" "Replayed effect has inconsistent command state")
        else if w.revision ≠ effect.workspaceRevisionAfter ∨ w.stateHash ≠ effect.workspaceStateHashAfter then
          (w,fail "journal_conflict" "Replayed effect has inconsistent workspace after-state")
        else (w,.ok ())
      | none =>
        if w.state ≠ .executing then (w,fail "invalid_state_transition" "New effect requires EXECUTING command")
        else if w.revision ≠ effect.workspaceRevisionBefore ∨ w.stateHash ≠ effect.workspaceStateHashBefore then
          (w,fail "journal_conflict" "Workspace state CAS failed")
        else
          ({ w with
              revision := effect.workspaceRevisionAfter
              stateHash := effect.workspaceStateHashAfter
              effect := some effect
              state := .effectRecorded },.ok ())

def markBlocked (w : ExecutionWorld) : ExecutionWorld × Outcome Unit :=
  let command := if w.state.isTerminal then .ok () else validateCommandTransition w.state .manualReconciliationRequired
  let session := if w.sessionState.isTerminal then .ok () else
    validateSessionTransition w.sessionState .manualReconciliationRequired
  match command, session with
  | .ok _, .ok _ =>
    ({ w with
        state := if w.state.isTerminal then w.state else .manualReconciliationRequired
        sessionState := if w.sessionState.isTerminal then w.sessionState else .manualReconciliationRequired },.ok ())
  | .error e, _ => (w,.error e)
  | .ok _, .error e => (w,.error e)

def terminate (w : ExecutionWorld) (state : CommandState) : ExecutionWorld × Outcome Unit :=
  if w.state ≠ .claimed then (w,fail "journal_conflict" "Command state mismatch")
  else
    match validateCommandTransition .claimed state with
    | .ok _ => ({ w with state := state },.ok ())
    | .error e => (w,.error e)

end ExecutionWorld

def ExecutionRequest.perform : (q : ExecutionRequest) → ExecutionWorld → ExecutionWorld × q.Answer
  | .look, w => (w,w)
  | .recordOperationPlan plan, w => w.recordOperationPlan plan
  | .createTemp _, w => w.createTemp
  | .fillTemp content, w => ({ w with temp := w.temp.map fun _ => content },())
  | .replaceTarget path, w => w.replaceTarget path
  | .recordOperationEffect effect, w => w.recordOperationEffect effect
  | .markBlocked, w => w.markBlocked
  | .terminate state, w => w.terminate state
  | .runProfile _, w => (w,())

abbrev ExecutionScript := Script ExecutionRequest ExecutionRequest.Answer (Outcome String)

/-! ## Calls -/

def manualOutcome : ExecutionScript :=
  .ask .markBlocked fun (blocked : Outcome Unit) =>
    match blocked with
    | .error e => .done (.error e)
    | .ok _ => .done (.ok "manual_reconciliation_required")

def recordEffect (plan : OperationPlan) : ExecutionScript :=
  .ask (.recordOperationEffect (effectFor plan)) fun (recorded : Outcome Unit) =>
    match recorded with
    | .error e => .done (.error e)
    | .ok _ => .ask (.runProfile plan.profileId) fun _ => .done (.ok "effect_recorded")

def promote (plan : OperationPlan) : ExecutionScript :=
  .ask (.replaceTarget plan.targetPath) fun (replaced : Outcome Unit) =>
    match replaced with
    | .error e => .done (.error e)
    | .ok _ => .ask .look fun (w : ExecutionWorld) =>
      match m.readExactBytes w.checkout plan.targetPath with
      | .error e => .done (.error e)
      | .ok target =>
        if target ≠ plan.plannedAfterContent then
          .done (fail "journal_corrupt" "Target bytes differ after atomic replace")
        else
          match m.checkReplaced lsFiles w.checkout plan.plannedAfterStateHash with
          | .error e => .done (.error e)
          | .ok _ => recordEffect plan

def applyPlan (plan : OperationPlan) : ExecutionScript :=
  .ask .look fun (w : ExecutionWorld) =>
    match m.resolveAllowedPath w.checkout plan.targetPath with
    | .error e => .done (.error e)
    | .ok _ =>
      match m.verifyExpectedTemp w plan with
      | .error e => .done (.error e)
      | .ok (some _) => promote m lsFiles plan
      | .ok none => .ask (.createTemp plan.plannedAfterContent) fun (created : Outcome Unit) =>
        match created with
        | .error e => .done (.error e)
        | .ok _ => .ask (.fillTemp plan.plannedAfterContent) fun _ => promote m lsFiles plan

def executeClaimed (w : ExecutionWorld) (command : BridgeCommand) : ExecutionScript :=
  match m.preparePlan lsFiles w command with
  | .error (.terminal state code) => .ask (.terminate state) fun (ended : Outcome Unit) =>
    match ended with
    | .error e => .done (.error e)
    | .ok _ => .done (.ok code)
  | .error (.manual _) => manualOutcome
  | .error (.raised e) => .done (.error e)
  | .ok plan => .ask (.recordOperationPlan plan) fun (recorded : Outcome Unit) =>
    match recorded with
    | .error e => .done (.error e)
    | .ok _ => applyPlan m lsFiles plan

/-- The refusals of an attachment that are left to a person. -/
def attachmentBlocks (e : Failure) : Bool :=
  e.code ∈ ["manual_reconciliation_required","dirty_source_checkout","unknown_base_sha","unsafe_worktree_path","git_error"]

def executeOrRecover (command : BridgeCommand) : ExecutionScript :=
  .ask .look fun (w : ExecutionWorld) =>
    match w.attached with
    | .error e => if attachmentBlocks e then manualOutcome else .done (.error e)
    | .ok _ =>
      let assessment := makeRecoveryDecision m lsFiles w
      match assessment.decision, assessment.plan with
      | .diverged, _ => manualOutcome
      | .idempotentReplay, some plan => .ask (.runProfile plan.profileId) fun _ => .done (.ok "effect_recorded")
      | .recoverPlannedAfter, some plan => recordEffect plan
      | .execute, some plan => applyPlan m lsFiles plan
      | .execute, none => executeClaimed m lsFiles w command
      | _, none => .done (fail "AssertionError" "")

end Bdb.Bridge
