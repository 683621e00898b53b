import Bdb.Bridge.QueueJournal
import Mathlib.Data.Prod.Lex

/-! # Claims and the hand-off between sessions

One command is worked on at a time. It is the first validated command of the open session,
or else of the oldest session that waits with its first command validated. An idle open
session is completed when another session waits.
-/
namespace Bdb.Bridge

namespace CommandState

/-- A later command may be claimed once this one is so far. -/
def isSchedulerDone : CommandState → Bool
  | resultStaged | resultPublished | acknowledged | rejected | expired | policyDenied | staleRevision | stateMismatch |
    manualReconciliationRequired | cancelled => true
  | _ => false

/-- A session may be completed over such a command. -/
def isFinal : CommandState → Bool
  | resultPublished | acknowledged | rejected | expired | policyDenied | staleRevision | stateMismatch | cancelled => true
  | _ => false

end CommandState

/-- The order of a queue: the time of creation, and then the name. -/
def Session.queueKey (s : Session) : String ×ₗ String := toLex (s.createdAt,s.sessionId)

def oldest (sessions : List Session) : Option Session := (sessions.insertionSort (·.queueKey ≤ ·.queueKey)).head?

def firstOf (commands : List Command) : Option Command := (commands.insertionSort (·.sequence ≤ ·.sequence)).head?

namespace Journal

variable (rt : BridgeRuntime) (j : Journal)

/-! ## Claims -/

def openSession : Option Session := oldest (j.sessions.rows.filter isOpen)

def waits (s : Session) : Bool :=
  s.state == .created && j.commands.rows.any fun c => c.sessionId == s.sessionId && c.sequence == 1 && c.state == .validated

def waitingSession : Option Session := oldest (j.sessions.rows.filter j.waits)

def targetSession : Option Session := j.openSession.or j.waitingSession

def manifestExpired (sessionId : String) (now : DateTime) : Outcome Bool :=
  match j.manifests.get sessionId with
  | some m => isExpired rt m.expiresAt now
  | none => .ok false

def validatedCommand (sessionId : String) : Option Command :=
  firstOf (j.commands.rows.filter fun c => c.sessionId == sessionId && c.state == .validated)

/-- All commands before it exist, and none of them is waiting or worked on. -/
def predecessorsDone (c : Command) : Bool :=
  let predecessors := j.commands.rows.filter fun p => p.sessionId == c.sessionId && decide (p.sequence < c.sequence)
  predecessors.length == c.sequence - 1 && predecessors.all (·.state.isSchedulerDone)

/-- A waiting session is activated by the claim of its first command. -/
def activate (target : Session) : Outcome Journal :=
  if target.state = .created then do
    validateSessionTransition target.state .active
    require (j.otherOpen target.sessionId = none) "journal_conflict" "Another session is already active or completing"
    pure (j.withSessionState target.sessionId .active)
  else .ok j

def claimOf (target : Session) (c : Command) : Outcome (Journal × Option Command) := do
  let j ← j.activate target
  validateCommandTransition .validated .claimed
  require (j.otherWorker c.commandId = none) "journal_conflict" "Another command is already active/worker"
  pure (j.withCommandState c.commandId .claimed,some { c with state := .claimed })

def claimNextCommand (now : String) : Outcome (Journal × Option Command) := do
  let nowDt ← parseStrictUtcTimestamp rt now "now"
  if j.hasBlockingIngestionIssues then pure (j,none)
  else if j.worker.isSome then pure (j,none)
  else
    match j.targetSession with
    | none => pure (j,none)
    | some target =>
      if ← j.manifestExpired rt target.sessionId nowDt then pure (j,none)
      else
        match j.validatedCommand target.sessionId with
        | none => pure (j,none)
        | some c => if j.predecessorsDone c then j.claimOf target c else pure (j,none)

/-! ## Finalization -/

inductive BlockingReason where
  | serviceRunning
  | noCommands
  | manualCommand
  | unresolvedCommands
  | outboxUnsettled
  | blockingIssue
deriving DecidableEq

def serviceActive : Bool := j.around.services.any fun s => s.state == .running || s.state == .stopping

def commandsOf (sessionId : String) : List Command := j.commands.rows.filter (·.sessionId == sessionId)

def blockingReasons (sessionId : String) (includeServiceState : Bool) : List BlockingReason :=
  let commands := j.commandsOf sessionId
  (if includeServiceState && j.serviceActive then [.serviceRunning] else []) ++
  (if commands.isEmpty then [.noCommands] else []) ++
  (if commands.any (·.state == .manualReconciliationRequired) then [.manualCommand] else []) ++
  (if commands.any (fun c => !c.state.isFinal) then [.unresolvedCommands] else []) ++
  (if j.around.outbox.any (fun o => o.sessionId == sessionId && o.state != .published) then [.outboxUnsettled] else []) ++
  if j.issues.rows.any (fun i => i.sessionId == some sessionId && i.blocking) then [.blockingIssue] else []

def refuseReasons (reasons : List BlockingReason) : Outcome Unit := do
  require (.serviceRunning ∉ reasons) "instance_already_running" "Session finalization requires service OFFLINE"
  require (reasons = []) "manual_reconciliation_required" "Session finalization blocked"

def lifecycleAccepted (w : WorkspaceLifecycle) (now : String) : Bool :=
  let hash := w.expectedStateHash.toList
  w.baseSha.toList.length == 40 && w.baseSha.toList.all isHex &&
  hash.length == 71 && hash.take 7 == "sha256:".toList &&
  (hash.drop 7).all (fun c => c.isDigit || "abcdef".toList.contains c) &&
  decide (20 ≤ now.toList.length) && now.toList.getLast? == some 'Z' &&
  j.around.lifecycles.rows.all (fun other => other.workspacePath != w.workspacePath)

def ensurePreserve (sessionId now : String) : Outcome Journal := do
  let w ← need (j.around.workspaces.get sessionId) "journal_conflict" "Session has no registered workspace"
  let keep : WorkspaceLifecycle :=
    ⟨sessionId,w.workspacePath,rt.runtime.lower w.baseSha,w.revision,w.stateHash,true,.preserved⟩
  match j.around.lifecycles.get sessionId with
  | some existing => do
    require (existing.workspacePath = w.workspacePath ∧ rt.runtime.lower existing.baseSha = rt.runtime.lower w.baseSha ∧
        existing.expectedRevision = w.revision ∧ existing.expectedStateHash = w.stateHash)
      "journal_conflict" "Workspace lifecycle identity conflicts with finalized workspace"
    require (existing.state ≠ .removed) "journal_conflict" "Finalized session workspace is already removed"
    pure { j with around := { j.around with
      lifecycles := j.around.lifecycles.put { existing with preserve := true, state := .preserved } } }
  | none =>
    if j.lifecycleAccepted keep now then
      match j.around.lifecycles.insert keep with
      | some lifecycles => pure { j with around := { j.around with lifecycles := lifecycles } }
      | none => integrityError "UNIQUE constraint failed: workspace_lifecycle.session_id"
    else integrityError "constraint failed: workspace_lifecycle"

def finalizeActive (sessionId now : String) (includeServiceState : Bool) : Outcome Journal := do
  refuseReasons (j.blockingReasons sessionId includeServiceState)
  validateSessionTransition .active .completing
  let j := j.withSessionState sessionId .completing
  refuseReasons (j.blockingReasons sessionId includeServiceState)
  validateSessionTransition .completing .completed
  let j := j.withSessionState sessionId .completed
  j.ensurePreserve rt sessionId now

def finalize (sessionId : String) (lockHeld : Bool) (now : String) : Outcome Journal := do
  validateSessionId sessionId
  require (lockHeld = true) "instance_lock_failed" "Session finalization requires the shared instance lock"
  let s ← need (j.sessions.get sessionId) "journal_conflict" ("Session not found: " ++ sessionId)
  if s.state = .completed then do
    require (.serviceRunning ∉ j.blockingReasons sessionId true) "instance_already_running" "service is running or stopping"
    j.ensurePreserve rt sessionId now
  else do
    require (s.state = .active) "invalid_state_transition" ("Session finalization requires ACTIVE, got " ++ s.state.value)
    j.finalizeActive rt sessionId now true

/-! ## Hand-off -/

/-- Exactly this service runs, and none is stopping. -/
def servedBy (serviceInstanceId : String) : Bool :=
  match j.around.services.filter fun s => s.state == .running || s.state == .stopping with
  | [s] => s.instanceId == serviceInstanceId && s.state == .running
  | _ => false

def firstUnexpired (now : DateTime) : List Session → Outcome (Option Session)
  | [] => .ok none
  | s :: rest =>
    match j.manifests.get s.sessionId with
    | none => firstUnexpired now rest
    | some m => do
      if ← isExpired rt m.expiresAt now then firstUnexpired now rest
      else pure (some s)

def handoffCandidate (now : DateTime) : Outcome (Option Session) :=
  j.firstUnexpired rt now ((j.sessions.rows.filter j.waits).insertionSort (·.queueKey ≤ ·.queueKey))

def activeSession : Option Session := oldest (j.sessions.rows.filter (·.state == .active))

def handoffReadySession (serviceInstanceId now : String) : Outcome (Journal × Option (String × String)) := do
  require (serviceInstanceId ≠ "") "invalid_payload" "service_instance_id must be a non-empty string"
  let nowDt ← parseStrictUtcTimestamp rt now "now"
  if !j.servedBy serviceInstanceId then pure (j,none)
  else if j.hasBlockingIngestionIssues then pure (j,none)
  else
    match j.activeSession with
    | none => pure (j,none)
    | some active =>
      match ← j.handoffCandidate rt nowDt with
      | none => pure (j,none)
      | some waiting =>
        if j.blockingReasons active.sessionId false ≠ [] then pure (j,none)
        else do
          let j ← j.finalizeActive rt active.sessionId now false
          pure (j,some (active.sessionId,waiting.sessionId))

/-- What one scheduling of the service does. -/
def claimNext (serviceInstanceId now : String) : Journal × Outcome (Option Command) :=
  match j.claimNextCommand rt now with
  | .error e => (j,.error e)
  | .ok (j, some c) => (j,.ok (some c))
  | .ok (j, none) =>
    match j.handoffReadySession rt serviceInstanceId now with
    | .error e => (j,.error e)
    | .ok (j, none) => (j,.ok none)
    | .ok (j, some _) =>
      match j.claimNextCommand rt now with
      | .error e => (j,.error e)
      | .ok (j, claimed) => (j,.ok claimed)

end Journal

end Bdb.Bridge
