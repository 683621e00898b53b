import Bdb.Continuation.SendIntent

/-! # Re-entry records

The natural end of an executor session leaves a durable re-entry record for its packet. The
record moves through its liveness states by guarded writes, each one transaction with the
project revision and an audit event, in the same database as the leases and the intents.
-/
namespace Bdb.Session

open Bdb.Continuation

inductive SessionLivenessState where
  | sessionActive
  | turnEnded
  | sessionUnavailable
  | continuationPending
  | reentryPrepared
  | reentryInProgress
  | operatorCheckpoint
  | reentryConfirmed
  | reentryFailed
  | reentryBlocked
deriving DecidableEq

namespace SessionLivenessState

def value : SessionLivenessState → String
  | sessionActive => "SESSION_ACTIVE"
  | turnEnded => "TURN_ENDED"
  | sessionUnavailable => "SESSION_UNAVAILABLE"
  | continuationPending => "CONTINUATION_PENDING"
  | reentryPrepared => "REENTRY_PREPARED"
  | reentryInProgress => "REENTRY_IN_PROGRESS"
  | operatorCheckpoint => "OPERATOR_CHECKPOINT"
  | reentryConfirmed => "REENTRY_CONFIRMED"
  | reentryFailed => "REENTRY_FAILED"
  | reentryBlocked => "REENTRY_BLOCKED"

def terminal (s : SessionLivenessState) : Bool := s = reentryConfirmed ∨ s = reentryFailed ∨ s = reentryBlocked

end SessionLivenessState

inductive ReentryChannel where
  | existingConversationVerified
  | officialNewConversationCapabilityVerified
  | operatorAssistedCheckpointRequired
deriving DecidableEq

def ReentryChannel.value : ReentryChannel → String
  | existingConversationVerified => "EXISTING_CONVERSATION_VERIFIED"
  | officialNewConversationCapabilityVerified => "OFFICIAL_NEW_CONVERSATION_CAPABILITY_VERIFIED"
  | operatorAssistedCheckpointRequired => "OPERATOR_ASSISTED_CHECKPOINT_REQUIRED"

/-- A stored record. The columns copied from the packet are read from it. -/
structure SessionReentryRecord (rt : Runtime) where
  reentryId : String
  projectId : String
  packet : ContinuationPacket rt
  payload : String
  bindingGeneration : ℕ
  livenessState : SessionLivenessState
  selectedChannel : Option ReentryChannel
  conversationId : Option String
  conversationBindingProof : Option String
  checkpointId : Option String
  trace : List String
  effectCount : ℕ
  stateRevision : ℕ
  lastReason : String
  createdAt : DateTime
  updatedAt : DateTime

/-- The columns of an execution binding that a re-entry reads. -/
structure ExecutionBinding where
  executionBindingId : String
  generation : ℕ
  conversationId : Option String
  status : String
  taskId : String
  expectedRepoHeadBefore : String

structure Checkpoint where
  checkpointId : String
  label : String
  planVersion : ℕ
  gitHead : String
  currentTaskId : String
  activeDecisionIds : List String
  openBlockerIds : List String
  humanSummary : String
  createdAt : DateTime

variable {rt : Runtime}

/-- The database of the continuations with the tables of the re-entries. -/
structure SessionStore (rt : Runtime) where
  base : Database
  reentries : Table (SessionReentryRecord rt) (·.reentryId)
  executionBindings : Table ExecutionBinding (·.executionBindingId)
  checkpoints : Table Checkpoint (·.checkpointId)

def reentryIdOf (p : ContinuationPacket rt) : String :=
  let raw := List.intercalate [Char.ofNat 0]
    [p.projectId.toList,p.continuationId.toList,p.packetDigest.toList,(naturalText p.scopeEpoch).toList]
  "session-reentry-" ++ String.ofList ((rt.sha256 raw).toList.take 40)

namespace SessionStore

/-! ## Transactions -/

def recordFor (s : SessionStore rt) (p : ContinuationPacket rt) : Option (SessionReentryRecord rt) :=
  s.reentries.find fun r => r.packet.continuationId == p.continuationId && r.packet.packetDigest == p.packetDigest &&
    r.packet.scopeEpoch == p.scopeEpoch

def readCheckpoint (s : SessionStore rt) (checkpointId : String) : Option (SessionReentryRecord rt) :=
  if checkpointId = "" then none else s.reentries.find fun r => r.checkpointId == some checkpointId

/-- The generation of the binding of the packet, unless it is missing, stale or over. -/
def readBinding (s : SessionStore rt) (p : ContinuationPacket rt) : Option ℕ := do
  let row ← s.executionBindings.get p.executionBindingId
  guard (row.taskId = p.currentTaskId)
  guard (row.expectedRepoHeadBefore = p.expectedRepoHeadBefore)
  guard (rt.upper row.status ∉ ["FAILED","SUPERSEDED","CANCELLED"])
  pure row.generation

def reentryEvent (r : SessionReentryRecord rt) (eventType reason : String) (now : DateTime) (revision : ℕ) :
    AuditEvent where
  eventId := .scope ("ev-session-reentry-" ++ r.reentryId ++ "-s" ++ naturalText r.stateRevision)
  revision := revision
  eventType := eventType
  humanSummary := "Session re-entry " ++ r.reentryId ++ ": " ++ reason
  taskId := some r.packet.currentTaskId
  payload := [("schema",.str "bdb-session-reentry-v1"),("session_liveness_version",.str "v1"),
    ("reentry_id",.str r.reentryId),("continuation_id",.str r.packet.continuationId),
    ("packet_digest",.str r.packet.packetDigest),("scope_epoch",.int r.packet.scopeEpoch),
    ("binding_generation",.int r.bindingGeneration),("liveness_state",.str r.livenessState.value),
    ("selected_channel",textOrNull (r.selectedChannel.map (·.value))),("reason",.str reason),
    ("trace",.arr (r.trace.map .str))]
  timestamp := now

/-- The project revision and the audit event of a write. An event whose identity is taken is
left out. -/
def logged (s : SessionStore rt) (r : SessionReentryRecord rt) (eventType reason : String) (now : DateTime) :
    Outcome (SessionStore rt) := do
  let bumped ← s.base.bumpProjectRevision
  let event := reentryEvent r eventType reason now (bumped.revision.getD 0)
  pure { s with base := { bumped with audit := (bumped.audit.insert event).getD bumped.audit } }

def pendingRecord (projectId : String) (p : ContinuationPacket rt) (payload : String) (generation : ℕ)
    (now : DateTime) : SessionReentryRecord rt where
  reentryId := reentryIdOf p
  projectId := projectId
  packet := p
  payload := payload
  bindingGeneration := generation
  livenessState := .continuationPending
  selectedChannel := none
  conversationId := none
  conversationBindingProof := none
  checkpointId := none
  trace := ["SESSION_END","TURN_ENDED","CONTINUATION_PENDING"]
  effectCount := 0
  stateRevision := 1
  lastReason := "natural executor turn ended"
  createdAt := now
  updatedAt := now

/-- The record of a packet, created when there is none. The inner failure is an answer. -/
def createOrRead (s : SessionStore rt) (p : ContinuationPacket rt) (payload : String) (now : DateTime) :
    Outcome (SessionStore rt × Outcome (SessionReentryRecord rt)) := do
  s.base.ensureProject
  match s.recordFor p with
  | some existing =>
    if existing.payload ≠ payload then
      pure (s,fail "REENTRY_IDENTITY_COLLISION" "the durable re-entry identity already has a different payload")
    else pure (s,.ok existing)
  | none =>
    match s.readBinding p with
    | none =>
      pure (s,fail "BINDING_NOT_FOUND" "canonical execution binding is missing, stale, or terminal")
    | some generation => do
      let r := pendingRecord s.base.projectId p payload generation now
      require (1 ≤ generation ∧ 1 ≤ p.stateRevision) "IntegrityError" "CHECK constraint failed: session_reentries"
      let reentries ← need (s.reentries.insert r) "IntegrityError"
        "UNIQUE constraint failed: session_reentries.reentry_id"
      let done ← logged { s with reentries := reentries } r "SESSION_REENTRY_PENDING" "CONTINUATION_PENDING" now
      pure (done,.ok r)

def persistConversationBinding (s : SessionStore rt) (p : ContinuationPacket rt) (b : ExactConversationBinding)
    (expectedGeneration : ℕ) : Outcome (SessionStore rt) := do
  require (b.isExact rt = true) "GUESSED_CONVERSATION_IDENTITY" "conversation binding is not identity-verifiable"
  let row ← need (s.executionBindings.get p.executionBindingId) "BINDING_NOT_FOUND"
    "canonical execution binding is missing"
  require (row.generation = expectedGeneration) "BINDING_GENERATION_DIVERGED"
    "canonical execution binding generation changed during re-entry"
  match row.conversationId with
  | some current =>
    require (current = b.conversationId) "CONVERSATION_BINDING_CONFLICT"
      "canonical execution binding has a different conversation identity"
    pure s
  | none =>
    pure { s with
      executionBindings := s.executionBindings.put { row with conversationId := some b.conversationId } }

def checkpointOf (r : SessionReentryRecord rt) (now : DateTime) : Checkpoint where
  checkpointId := "checkpoint-" ++ r.reentryId
  label := "OPERATOR_ASSISTED_REENTRY"
  planVersion := r.packet.planVersion
  gitHead := r.packet.expectedRepoHeadBefore
  currentTaskId := r.packet.currentTaskId
  activeDecisionIds := ["reentry:" ++ r.reentryId]
  openBlockerIds := ["conversation_identity_unavailable"]
  humanSummary := "Prepared canonical continuation requires one operator-authorized handoff; no prompt or task reconstruction is required."
  createdAt := now

/-- A guarded write of a record. An argument the call leaves out is none. -/
structure Transition where
  state : SessionLivenessState
  reason : String
  trace : List String
  expectedStates : List SessionLivenessState
  channel : Option ReentryChannel := none
  binding : Option ExactConversationBinding := none
  effectCount : Option Int := none
  checkpoint : Bool := false
  now : DateTime

/-- The record after the write. -/
def Transition.apply (w : Transition) (r : SessionReentryRecord rt) : SessionReentryRecord rt :=
  { r with
    livenessState := w.state
    selectedChannel := w.channel.or r.selectedChannel
    conversationId := (w.binding.map (·.conversationId)).or r.conversationId
    conversationBindingProof := (w.binding.map (·.bindingProof)).or r.conversationBindingProof
    checkpointId := if w.checkpoint then some ("checkpoint-" ++ r.reentryId) else r.checkpointId
    trace := r.trace ++ w.trace
    effectCount := (w.effectCount.map Int.toNat).getD r.effectCount
    stateRevision := r.stateRevision + 1
    lastReason := String.ofList (w.reason.toList.take 256)
    updatedAt := w.now }

def Transition.Expects (w : Transition) (r : SessionReentryRecord rt) : Prop :=
  r.livenessState ∈ w.expectedStates ∧ ¬ (r.livenessState.terminal = true ∧ w.state ≠ r.livenessState)

instance (w : Transition) (r : SessionReentryRecord rt) : Decidable (w.Expects r) := instDecidableAnd

/-- The conversation of a write is stored with the execution binding. -/
def bindConversation (s : SessionStore rt) (w : Transition) (r : SessionReentryRecord rt) :
    Outcome (SessionStore rt) :=
  match w.binding with
  | some b => s.persistConversationBinding r.packet b r.bindingGeneration
  | none => .ok s

/-- The checkpoint row of a write; one that is there already is kept. -/
def createCheckpoint (s : SessionStore rt) (w : Transition) (r : SessionReentryRecord rt) : SessionStore rt :=
  if w.checkpoint then
    { s with checkpoints := (s.checkpoints.insert (checkpointOf r w.now)).getD s.checkpoints }
  else s

def transition (s : SessionStore rt) (reentryId : String) (w : Transition) :
    Outcome (SessionStore rt × Option (SessionReentryRecord rt)) := do
  s.base.ensureProject
  match s.reentries.get reentryId with
  | none => pure (s,none)
  | some current =>
    if ¬ w.Expects current then pure (s,some current)
    else do
      let bound ← s.bindConversation w current
      let kept := bound.createCheckpoint w current
      require (∀ item ∈ w.trace, item ≠ "") "INVALID_TRACE_STEP" "re-entry trace steps must be non-empty strings"
      require (∀ n ∈ w.effectCount, 0 ≤ n) "INVALID_EFFECT_COUNT" "re-entry effect count cannot be negative"
      let r := w.apply current
      let done ← logged { kept with reentries := kept.reentries.put r } r "SESSION_REENTRY_STATE" w.reason w.now
      pure (done,some r)

def existingIntent (s : SessionStore rt) (r : SessionReentryRecord rt) : Option SendStatus :=
  let rows := s.base.intents.rows.filter fun i =>
    i.continuationId == r.packet.continuationId && i.scopeEpoch == r.packet.scopeEpoch
  (rows.find? fun i => rows.all fun j => j.stateRevision ≤ i.stateRevision).map (·.status)

/-- A transaction that raises leaves the store as it was. -/
def commit {α : Type} (s : SessionStore rt) (o : Outcome (SessionStore rt × α)) : SessionStore rt × Outcome α :=
  match o with
  | .ok (t,a) => (t,.ok a)
  | .error f => (s,.error f)

end SessionStore

/-! ## Requests -/

open SessionStore

/-- Everything a call does at once. The look at the intent is made by a call that has read
the clock; the statement itself does not use the reading. -/
inductive SessionRequest (rt : Runtime) where
  | send (q : SendRequest rt)
  | createOrRead (p : ContinuationPacket rt) (payload : String) (now : DateTime)
  | readCheckpoint (checkpointId : String)
  | existingIntent (r : SessionReentryRecord rt) (now : DateTime)
  | transition (reentryId : String) (w : Transition)

namespace SessionRequest

def Answer : SessionRequest rt → Type
  | .send q => q.Answer
  | .createOrRead _ _ _ => Outcome (Outcome (SessionReentryRecord rt))
  | .readCheckpoint _ => Option (SessionReentryRecord rt)
  | .existingIntent _ _ => Option SendStatus
  | .transition _ _ => Outcome (Option (SessionReentryRecord rt))

def perform : (q : SessionRequest rt) → SessionStore rt → SessionStore rt × q.Answer
  | .send q, s => ({ s with base := (q.perform s.base).1 },(q.perform s.base).2)
  | .createOrRead p payload now, s => s.commit (s.createOrRead p payload now)
  | .readCheckpoint checkpointId, s => (s,s.readCheckpoint checkpointId)
  | .existingIntent r _, s => (s,s.existingIntent r)
  | .transition reentryId w, s => s.commit (s.transition reentryId w)

end SessionRequest

end Bdb.Session
