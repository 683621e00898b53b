import Bdb.Base.Interleaving
import Bdb.Continuation.Lease

/-! # Durable send intents

A message is sent into an existing chat only through a stored intent. The transactions of
the coordinator are the requests of its clients to the database; a call is a program over
them, so that other clients may act, and the caller may crash, between any two.
-/
namespace Bdb.Continuation

open Step Json

variable {rt : Runtime}

/-! ## Bindings, observations and proofs -/

def textDigest (rt : Runtime) (cs : List Char) : String := "sha256:" ++ rt.sha256 cs

def bindingProofOf (rt : Runtime) (conversationId : String) : String :=
  textDigest rt ("existing-chat:" ++ conversationId).toList

structure ExactConversationBinding where
  conversationId : String
  bindingProof : String
  source : String
  verified : Bool

def ExactConversationBinding.isExact (rt : Runtime) (b : ExactConversationBinding) : Bool :=
  b.verified && b.source == "canonical" && b.conversationId != "" &&
    b.bindingProof == bindingProofOf rt b.conversationId

structure DomPreconditions where
  conversationId : Option String
  composerPresent : Bool
  composerEnabled : Bool

/-- Negative evidence about one attempt: what was observed, and in which conversation. -/
structure NoDeliveryProof where
  intentId : String
  conversationId : String
  observedEffectCount : Int
  probeId : String
  probeComplete : Bool
  proofType : String

def NoDeliveryProof.valid (proof : NoDeliveryProof) : Bool :=
  proof.proofType == "NO_DELIVERY_CONFIRMED" && proof.probeComplete && proof.observedEffectCount == 0 &&
    proof.conversationId != "" && proof.probeId != ""

structure SendAck where
  intentId : String
  continuationId : String
  packetDigest : String
  executionBindingId : String
  conversationId : String

structure SendIntentResult where
  accepted : Bool
  reasonCode : String
  message : String
  intent : Option SendIntentRecord
  evidence : Option StructuredSendEvidence
  mutated : Bool
  idempotent : Bool

namespace SendIntentResult

def invalid (code message : String) : SendIntentResult := ⟨false,code,message,none,none,false,false⟩

def rejected (code message : String) (r : SendIntentRecord) : SendIntentResult :=
  ⟨false,code,message,some r,none,false,false⟩

def repeated (code message : String) (r : SendIntentRecord) : SendIntentResult :=
  ⟨true,code,message,some r,none,false,true⟩

def written (code message : String) (r : SendIntentRecord) : SendIntentResult :=
  ⟨true,code,message,some r,none,true,false⟩

def failedClosed (code what : String) (f : Failure) : SendIntentResult :=
  invalid code (what ++ " failed closed: " ++ f.message)

end SendIntentResult

open SendIntentResult

/-! ## Identity of an intent -/

def intentKeyFor (p : ContinuationPacket rt) (lease : ContinuationLeaseRecord) (payload : String)
    (binding : Option ExactConversationBinding) (intentGeneration : ℕ) : String :=
  textDigest rt (text (canon (.obj
    [("continuation_id",.str p.continuationId),
      ("conversation_binding_id",textOrNull (binding.map (·.conversationId))),
      ("conversation_binding_proof",textOrNull (binding.map (·.bindingProof))),
      ("execution_binding_id",.str p.executionBindingId),
      ("expected_repo_head_before",.str p.expectedRepoHeadBefore),("intent_generation",.int intentGeneration),
      ("lease_generation",.int lease.generation),("lease_id",.str lease.leaseId),
      ("message_digest",.str (textDigest rt payload.toList)),("packet_digest",.str p.packetDigest),
      ("project_id",.str p.projectId),("run_id",.str p.runId),("scope_epoch",.int p.scopeEpoch),
      ("task_id",.str p.currentTaskId)])))

/-- The first forty digits of the key's digest. -/
def intentIdOf (key : String) : String := "send-intent-" ++ String.ofList ((key.toList.drop 7).take 40)

def packetMatches (r : SendIntentRecord) (p : ContinuationPacket rt) : Bool :=
  r.projectId == p.projectId && r.continuationId == p.continuationId && r.packetDigest == p.packetDigest &&
    r.scopeEpoch == p.scopeEpoch && r.runId == p.runId && r.taskId == p.currentTaskId &&
    r.executionBindingId == p.executionBindingId && r.expectedRepoHeadBefore == p.expectedRepoHeadBefore

def domCheck (rt : Runtime) (r : SendIntentRecord) (dom : DomPreconditions) : Outcome Unit := do
  require (r.conversationBindingId.getD "" ≠ "" ∧ r.conversationBindingProof.getD "" ≠ "")
    "MISSING_CONVERSATION_BINDING" "same-chat send requires an exact conversation binding"
  require (r.conversationBindingProof = r.conversationBindingId.map (bindingProofOf rt))
    "GUESSED_CONVERSATION_IDENTITY" "conversation identity proof is not canonical"
  require (dom.conversationId = r.conversationBindingId) "CONVERSATION_BINDING_MISMATCH"
    "DOM conversation does not equal the exact binding"
  require (dom.composerPresent = true) "MISSING_COMPOSER" "composer is not present; no click or send is allowed"
  require (dom.composerEnabled = true) "COMPOSER_DISABLED" "composer is disabled; no click or send is allowed"

/-! ## Shared steps of the transactions -/

namespace Database

def requireProject (db : Database) : Outcome Unit :=
  require (db.revision.isSome = true) "PROJECT_NOT_FOUND" ("project '" ++ db.projectId ++ "' does not exist")

def liveLeaseCheck (db : Database) (p : ContinuationPacket rt) (token : String) (now : DateTime)
    (boundary : EffectBoundary) : Outcome ContinuationLeaseRecord := do
  require (tokenDigest rt token ≠ "") "OWNER_TOKEN_INVALID" "opaque owner token is missing"
  let lease ← need (db.leaseFor p.resourceId) "LEASE_NOT_FOUND" "continuation lease does not exist"
  require (lease.ownerTokenHash = some (tokenDigest rt token)) "STALE_LEASE_OWNER"
    "lease owner token is no longer current"
  require (lease.status = .claimed) "LEASE_NOT_CLAIMED" "physical send requires a claimed continuation lease"
  require (now < lease.expiresAt) "LEASE_EXPIRED" "continuation lease has expired"
  require (lease.continuationId = p.continuationId ∧ lease.packetDigest = p.packetDigest)
    "LEASE_IDENTITY_MISMATCH" "lease identity does not match packet"
  db.checkBoundary p.scopeEpoch boundary
  pure lease

/-- The compare-and-set update of an intent row: none when the row does not have the
revision that was read or a status of the test. -/
def updateIntent (db : Database) (read : SendIntentRecord) (test : SendStatus → Bool)
    (f : SendIntentRecord → SendIntentRecord) : Option Database :=
  match db.intents.get read.intentId with
  | some row =>
    if test row.status = true ∧ row.stateRevision = read.stateRevision then
      some { db with intents := db.intents.put (f row) }
    else none
  | none => none

def intentEvent (db : Database) (r : SendIntentRecord) (eventType reason : String) (now : DateTime) :
    AuditEvent where
  eventId := .intent r.intentId r.stateRevision
  revision := db.nextEventRevision
  eventType := eventType
  humanSummary := "Send intent " ++ r.intentId ++ ": " ++ reason
  taskId := some r.taskId
  payload := [("send_intent_version",.str "v1"),("intent_id",.str r.intentId),
    ("intent_key",.str r.intentKey),("continuation_id",.str r.continuationId),
    ("packet_digest",.str r.packetDigest),("status",.str r.status.text),("reason",.str reason)]
  timestamp := now

end Database

/-- The second record has the identity of the first: only its progress may differ. -/
def SameIntent (r r' : SendIntentRecord) : Prop :=
  r' = { r with status := r'.status, stateRevision := r'.stateRevision, updatedAt := r'.updatedAt,
                physicalAttemptedAt := r'.physicalAttemptedAt, confirmedAt := r'.confirmedAt,
                acknowledgedAt := r'.acknowledgedAt, deliveryEvidence := r'.deliveryEvidence,
                uncertaintyReason := r'.uncertaintyReason }

/-- What differs between the writes of an intent. The identity of an intent is never
written, and every write counts the revision up. -/
structure IntentWrite where
  test : SendStatus → Bool
  change : SendIntentRecord → SendIntentRecord
  lostCode : String
  lostMessage : String
  readbackMessage : String
  eventType : String
  reason : String
  keepsIdentity : ∀ r, SameIntent r (change r)
  countsRevision : ∀ r, (change r).stateRevision = r.stateRevision + 1

def anyStatus (_ : SendStatus) : Bool := true

def writeIntent (db : Database) (read : SendIntentRecord) (w : IntentWrite) (now : DateTime) :
    Step SendIntentResult (Database × SendIntentRecord) := do
  let updated ← needOr (db.updateIntent read w.test w.change) (rejected w.lostCode w.lostMessage read)
  let bumped ← orRaise updated.bumpProjectRevision
  let stored ← orRaise (need (bumped.intents.get read.intentId) "INTENT_READBACK_FAILED" w.readbackMessage)
  let done ← orRaise (bumped.appendEvent (bumped.intentEvent stored w.eventType w.reason now))
  pure (done,stored)

def terminalSend (s : SendStatus) : Bool := s = .acknowledged ∨ s = .cancelled ∨ s = .fenced

def fenceable (s : SendStatus) : Bool :=
  s = .prepared ∨ s = .sendAllowed ∨ s = .uncertain ∨ s = .reconciliationRequired

def fenceChange (reason : String) (now : DateTime) (r : SendIntentRecord) : SendIntentRecord :=
  { r with status := .fenced, stateRevision := r.stateRevision + 1, updatedAt := now,
           uncertaintyReason := some (String.ofList (reason.toList.take 256)) }

/-- Fences an intent inside a transaction. Final and attempted intents are left alone, and
so is a row that the update does not match. -/
def fenceOnConn {ρ : Type} (db : Database) (read : Option SendIntentRecord) (reason : String)
    (now : DateTime) : Step ρ (Database × Option SendIntentRecord) :=
  match read with
  | none => pure (db,none)
  | some r =>
    if terminalSend r.status = true ∨ r.status = .physicalSendAttempted then pure (db,some r)
    else
      match db.updateIntent r fenceable (fenceChange reason now) with
      | none => pure (db,some r)
      | some updated => do
        let bumped ← orRaise updated.bumpProjectRevision
        match bumped.intents.get r.intentId with
        | none => pure (bumped,none)
        | some stored => do
          let done ← orRaise (bumped.appendEvent (bumped.intentEvent stored "SEND_INTENT_FENCED" reason now))
          pure (done,some stored)

/-- The stored intent a transaction works on. -/
def readIntent (db : Database) (intentId : String) : Step SendIntentResult SendIntentRecord := do
  orRaise db.requireProject
  needOr (db.intents.get intentId) (invalid "INTENT_NOT_FOUND" "send intent does not exist")

/-! ## Transactions -/

structure PrepareArgs (rt : Runtime) where
  packet : ContinuationPacket rt
  authority : ContinuationAuthoritySnapshot
  token : String
  payload : String
  binding : Option ExactConversationBinding
  generation : ℕ
  key : String
  now : DateTime

def preparedIntent (a : PrepareArgs rt) (lease : ContinuationLeaseRecord) (projectId : String) :
    SendIntentRecord where
  intentId := intentIdOf a.key
  intentKey := a.key
  projectId := projectId
  continuationId := a.packet.continuationId
  packetDigest := a.packet.packetDigest
  leaseId := lease.leaseId
  leaseOwnerTokenHash := tokenDigest rt a.token
  leaseGeneration := lease.generation
  scopeEpoch := a.packet.scopeEpoch
  runId := a.packet.runId
  taskId := a.packet.currentTaskId
  executionBindingId := a.packet.executionBindingId
  expectedRepoHeadBefore := a.packet.expectedRepoHeadBefore
  conversationBindingId := a.binding.map (·.conversationId)
  conversationBindingProof := a.binding.map (·.bindingProof)
  messageDigest := textDigest rt a.payload.toList
  payload := a.payload
  intentGeneration := a.generation
  stateRevision := 1
  status := .prepared
  preparedAt := a.now
  updatedAt := a.now
  physicalAttemptedAt := none
  confirmedAt := none
  acknowledgedAt := none
  deliveryEvidence := none
  uncertaintyReason := none

/-- A new intent row with its constraints: distinct keys, an existing binding and a
positive lease generation. -/
def Database.insertIntent (db : Database) (r : SendIntentRecord) : Outcome Database := do
  require (1 ≤ r.leaseGeneration) "IntegrityError" "CHECK constraint failed: lease_generation >= 1"
  require (r.executionBindingId ∈ db.bindings) "IntegrityError" "FOREIGN KEY constraint failed"
  let intents ← need (db.intents.insert r) "IntegrityError" "UNIQUE constraint failed: send_intents.intent_id"
  pure { db with intents := intents }

def prepareIntent (a : PrepareArgs rt) (db : Database) : Database × Outcome SendIntentResult :=
  transaction (failedClosed "PREPARE_TRANSACTION_FAILED" "send intent prepare") db do
    orRaise db.requireProject
    orAnswer invalid (validatePacket a.packet a.authority a.now)
    let lease ← orAnswer invalid (db.liveLeaseCheck a.packet a.token a.now .queueClaim)
    match db.intents.find (fun r => r.intentKey == a.key) with
    | some existing =>
      if existing.intentId ≠ intentIdOf a.key ∨ existing.payload ≠ a.payload then
        answer (rejected "INTENT_KEY_COLLISION" "logical send intent identity collided" existing)
      else
        answer (repeated "ALREADY_PREPARED" "duplicate prepare returned the existing durable intent" existing)
    | none => do
      let inserted ← orRaise (db.insertIntent (preparedIntent a lease db.projectId))
      let bumped ← orRaise inserted.bumpProjectRevision
      let stored ← orRaise (need (bumped.intents.get (intentIdOf a.key)) "INTENT_READBACK_FAILED"
        "prepared send intent was not readable")
      let done ← orRaise (bumped.appendEvent (bumped.intentEvent stored "SEND_INTENT_PREPARED" "PREPARED" a.now))
      pure (done,written "PREPARED" "durable send intent prepared" stored)

/-- Fences by identity alone: neither the packet nor the owner of the intent is compared. -/
def fenceIntent (intentId reason : String) (now : DateTime) (db : Database) :
    Database × Outcome (Option SendIntentRecord) :=
  transaction (fun _ => db.intents.get intentId) db do
    orRaise db.requireProject
    fenceOnConn db (db.intents.get intentId) reason now

structure SendArgs (rt : Runtime) where
  intentId : String
  packet : ContinuationPacket rt
  token : String
  now : DateTime

def ownIntent (a : SendArgs rt) (db : Database) (ownerMessage : String) :
    Step SendIntentResult SendIntentRecord := do
  let r ← readIntent db a.intentId
  answerUnless (packetMatches r a.packet = true)
    (rejected "STALE_AUTHORITY" "packet does not match durable send intent" r)
  answerUnless (r.leaseOwnerTokenHash = tokenDigest rt a.token) (rejected "STALE_INTENT_OWNER" ownerMessage r)
  pure r

def underLease (a : SendArgs rt) (db : Database) (r : SendIntentRecord)
    (go : Step SendIntentResult (Database × SendIntentResult)) :
    Step SendIntentResult (Database × SendIntentResult) :=
  match db.liveLeaseCheck a.packet a.token a.now .dispatchSend with
  | .ok _ => go
  | .error f => do
    let (done,fenced) ← fenceOnConn db (some r) f.code a.now
    pure (done,rejected f.code f.message (fenced.getD r))

def allowWrite (now : DateTime) : IntentWrite where
  test s := s = .prepared
  change r := { r with status := .sendAllowed, stateRevision := r.stateRevision + 1, updatedAt := now }
  lostCode := "SEND_ALLOWED_CAS_LOST"
  lostMessage := "send intent allow CAS lost"
  readbackMessage := "SEND_ALLOWED intent was not readable"
  eventType := "SEND_INTENT_ALLOWED"
  reason := "SEND_ALLOWED"
  keepsIdentity _ := rfl
  countsRevision _ := rfl

def allowIntent (a : SendArgs rt) (db : Database) : Database × Outcome SendIntentResult :=
  transaction (failedClosed "SEND_ALLOWED_TRANSACTION_FAILED" "send intent allow") db do
    let r ← ownIntent a db "send intent owner token is not current"
    answerUnless (r.status ≠ .sendAllowed) (repeated "SEND_ALLOWED" "physical send was already allowed" r)
    answerUnless (r.status = .prepared) (rejected "INTENT_NOT_SENDABLE"
      ("intent state '" ++ r.status.text ++ "' cannot enter SEND_ALLOWED") r)
    underLease a db r do
      let (done,stored) ← writeIntent db r (allowWrite a.now) a.now
      pure (done,written "SEND_ALLOWED" "DOM and authority preconditions validated" stored)

def beginWrite (now : DateTime) : IntentWrite where
  test s := s = .sendAllowed
  change r :=
    { r with status := .physicalSendAttempted, stateRevision := r.stateRevision + 1, updatedAt := now,
             physicalAttemptedAt := some now }
  lostCode := "PHYSICAL_ATTEMPT_CAS_LOST"
  lostMessage := "physical attempt CAS lost"
  readbackMessage := "physical-attempt intent was not readable"
  eventType := "PHYSICAL_SEND_ATTEMPTED"
  reason := "PHYSICAL_SEND_ATTEMPTED"
  keepsIdentity _ := rfl
  countsRevision _ := rfl

/-- Statuses at or past the physical send boundary. -/
def attemptedOrLater (s : SendStatus) : Bool :=
  s = .physicalSendAttempted ∨ s = .uncertain ∨ s = .reconciliationRequired ∨ s = .sendConfirmed ∨
    s = .acknowledged

def beginIntent (a : SendArgs rt) (db : Database) : Database × Outcome SendIntentResult :=
  transaction (failedClosed "PHYSICAL_ATTEMPT_TRANSACTION_FAILED" "physical attempt") db do
    let r ← ownIntent a db "send intent owner token is not current"
    answerUnless (attemptedOrLater r.status = false) (rejected "PHYSICAL_SEND_ALREADY_ATTEMPTED"
      "physical send must not be repeated without a no-delivery proof" r)
    answerUnless (r.status = .sendAllowed) (rejected "INTENT_NOT_ALLOWED"
      ("intent state '" ++ r.status.text ++ "' is not SEND_ALLOWED") r)
    underLease a db r do
      let (done,stored) ← writeIntent db r (beginWrite a.now) a.now
      pure (done,written "PHYSICAL_SEND_ATTEMPTED" "physical send boundary was durably entered" stored)

def uncertainWrite (reason : String) (now : DateTime) : IntentWrite where
  test s := s = .physicalSendAttempted
  change r :=
    { r with status := .uncertain, stateRevision := r.stateRevision + 1, updatedAt := now,
             uncertaintyReason := some reason }
  lostCode := "UNCERTAINTY_CAS_LOST"
  lostMessage := "uncertainty transition CAS lost"
  readbackMessage := "uncertain intent was not readable"
  eventType := "SEND_DELIVERY_UNCERTAIN"
  reason := reason
  keepsIdentity _ := rfl
  countsRevision _ := rfl

def markUncertainIntent (rt : Runtime) (intentId token reason : String) (now : DateTime) (db : Database) :
    Database × Outcome SendIntentResult :=
  transaction (failedClosed "UNCERTAINTY_TRANSACTION_FAILED" "uncertainty transition") db do
    answerUnless (tokenDigest rt token ≠ "")
      (invalid "OWNER_TOKEN_INVALID" "uncertain transition requires the opaque owner token")
    let r ← readIntent db intentId
    answerUnless (r.leaseOwnerTokenHash = tokenDigest rt token)
      (rejected "STALE_INTENT_OWNER" "uncertain transition owner token is not current" r)
    answerUnless (r.status ≠ .uncertain ∧ r.status ≠ .reconciliationRequired)
      (repeated "UNCERTAIN" "delivery remains uncertain" r)
    answerUnless (r.status = .physicalSendAttempted)
      (rejected "NOT_PHYSICAL_ATTEMPTED" "only a physical-attempted intent can become uncertain" r)
    let (done,stored) ← writeIntent db r (uncertainWrite (boundedReason reason) now) now
    -- the write is reported as a call that was not accepted
    pure (done,⟨false,"UNCERTAIN_DELIVERY","delivery is uncertain; blind resend is forbidden",some stored,
      none,true,false⟩)

def confirmWrite (evidence : StructuredSendEvidence) (now : DateTime) : IntentWrite where
  test := anyStatus
  change r :=
    { r with status := .sendConfirmed, stateRevision := r.stateRevision + 1, updatedAt := now,
             confirmedAt := some now, deliveryEvidence := some evidence, uncertaintyReason := none }
  lostCode := "CONFIRM_CAS_LOST"
  lostMessage := "send confirmation CAS lost"
  readbackMessage := "confirmed intent was not readable"
  eventType := "SEND_CONFIRMED"
  reason := "SEND_CONFIRMED"
  keepsIdentity _ := rfl
  countsRevision _ := rfl

def StructuredSendEvidence.positive (e : StructuredSendEvidence) : Bool :=
  e.structured && !e.focusOnly && !e.composerEmptyOnly && e.evidenceType == "STRUCTURED_DOM_MESSAGE"

/-- The evidence names the intent, its continuation, its binding, its conversation and its
message. -/
def evidenceMatches (r : SendIntentRecord) (e : StructuredSendEvidence) : Bool :=
  e.intentId == r.intentId && e.continuationId == r.continuationId && e.packetDigest == r.packetDigest &&
    e.executionBindingId == r.executionBindingId && some e.conversationId == r.conversationBindingId &&
    e.messageDigest == r.messageDigest && e.visibleMessageId != ""

/-- Statuses of an attempt whose delivery is open. -/
def awaitingEvidence (s : SendStatus) : Bool :=
  s = .physicalSendAttempted ∨ s = .uncertain ∨ s = .reconciliationRequired

def confirmIntent (a : SendArgs rt) (evidence : StructuredSendEvidence) (db : Database) :
    Database × Outcome SendIntentResult :=
  transaction (failedClosed "CONFIRM_TRANSACTION_FAILED" "send confirmation") db do
    answerUnless (tokenDigest rt a.token ≠ "")
      (invalid "OWNER_TOKEN_INVALID" "confirmation requires the opaque owner token")
    let r ← ownIntent a db "confirmation owner token is not current"
    answerUnless (evidence.positive = true) (rejected "NON_POSITIVE_SEND_EVIDENCE"
      "focus, composer-empty, timeout, or generic UI is not send confirmation" r)
    answerUnless (evidenceMatches r evidence = true) (rejected "SEND_EVIDENCE_MISMATCH"
      "structured send evidence does not match intent identity" r)
    if r.status = .sendConfirmed ∨ r.status = .acknowledged then
      if r.deliveryEvidence = some evidence then
        answer ⟨true,"SEND_CONFIRMED","send confirmation replay is idempotent",some r,some evidence,false,true⟩
      else
        answer (rejected "CONFIRMATION_CONFLICT" "a different confirmation cannot replace durable evidence" r)
    else do
      answerUnless (awaitingEvidence r.status = true) (rejected "NOT_CONFIRMABLE"
        ("intent state '" ++ r.status.text ++ "' cannot be confirmed") r)
      let (done,stored) ← writeIntent db r (confirmWrite evidence a.now) a.now
      pure (done,⟨true,"SEND_CONFIRMED","structured send evidence confirmed delivery",some stored,
        some evidence,true,false⟩)

/-- The source does not look at the row count of this update; it matches the row just read. -/
def reconcileWrite (now : DateTime) : IntentWrite where
  test := anyStatus
  change r :=
    { r with status := .reconciliationRequired, stateRevision := r.stateRevision + 1, updatedAt := now,
             uncertaintyReason := some "NO_DETERMINISTIC_DELIVERY_PROOF" }
  lostCode := "UNCERTAIN_DELIVERY"
  lostMessage := "delivery remains uncertain; no resend was attempted"
  readbackMessage := "reconciled intent was not readable"
  eventType := "SEND_RECONCILIATION_REQUIRED"
  reason := "NO_DETERMINISTIC_DELIVERY_PROOF"
  keepsIdentity _ := rfl
  countsRevision _ := rfl

def requireReconciliation (intentId : String) (read : SendIntentRecord) (now : DateTime) (db : Database) :
    Database × Outcome SendIntentResult :=
  transaction (failedClosed "RECONCILE_TRANSACTION_FAILED" "reconciliation") db do
    let r ← readIntent db intentId
    answerUnless (r.status = .uncertain ∨ r.status = .physicalSendAttempted)
      (rejected "NO_DELIVERY_PROOF_REQUIRED" "safe retry requires deterministic no-delivery proof" read)
    let (done,stored) ← writeIntent db r (reconcileWrite now) now
    pure (done,rejected "UNCERTAIN_DELIVERY" "delivery remains uncertain; no resend was attempted" stored)

def retryWrite (now : DateTime) : IntentWrite where
  test := anyStatus
  change r :=
    { r with status := .sendAllowed, stateRevision := r.stateRevision + 1, updatedAt := now,
             uncertaintyReason := some "NO_DELIVERY_PROVEN_RETRY_ALLOWED" }
  lostCode := "RECONCILE_CAS_LOST"
  lostMessage := "no-delivery reconciliation CAS lost"
  readbackMessage := "reconciled intent was not readable"
  eventType := "SEND_RECONCILED_NO_DELIVERY"
  reason := "NO_DELIVERY_PROVEN_RETRY_ALLOWED"
  keepsIdentity _ := rfl
  countsRevision _ := rfl

def retryIntent (intentId : String) (now : DateTime) (db : Database) : Database × Outcome SendIntentResult :=
  transaction (failedClosed "RECONCILE_TRANSACTION_FAILED" "reconciliation") db do
    let r ← readIntent db intentId
    answerUnless (r.status ≠ .sendConfirmed ∧ r.status ≠ .acknowledged)
      (repeated "ALREADY_CONFIRMED" "confirmed delivery cannot be retried" r)
    answerUnless (awaitingEvidence r.status = true) (rejected "NOT_RECONCILABLE"
      ("intent state '" ++ r.status.text ++ "' is not awaiting reconciliation") r)
    let (done,stored) ← writeIntent db r (retryWrite now) now
    pure (done,written "RETRY_ALLOWED" "retry is allowed by deterministic no-delivery proof" stored)

def ackWrite (now : DateTime) : IntentWrite where
  test s := s = .sendConfirmed
  change r :=
    { r with status := .acknowledged, stateRevision := r.stateRevision + 1, updatedAt := now,
             acknowledgedAt := some now }
  lostCode := "ACK_CAS_LOST"
  lostMessage := "acknowledgement CAS lost"
  readbackMessage := "acknowledged intent was not readable"
  eventType := "SEND_ACKNOWLEDGED"
  reason := "ACKNOWLEDGED"
  keepsIdentity _ := rfl
  countsRevision _ := rfl

def ackIntent (intentId : String) (now : DateTime) (db : Database) : Database × Outcome SendIntentResult :=
  transaction (failedClosed "ACK_TRANSACTION_FAILED" "acknowledgement") db do
    let r ← readIntent db intentId
    answerUnless (r.status ≠ .acknowledged)
      (repeated "ALREADY_ACKNOWLEDGED" "acknowledgement replay is idempotent" r)
    answerUnless (r.status = .sendConfirmed) (rejected "NOT_CONFIRMED" "intent changed before acknowledgement" r)
    let (done,stored) ← writeIntent db r (ackWrite now) now
    pure (done,written "ACKNOWLEDGED" "send intent acknowledged" stored)

/-- Here too the row count is not looked at. -/
def cancelWrite (reason : String) (now : DateTime) : IntentWrite where
  test := anyStatus
  change r :=
    { r with status := .cancelled, stateRevision := r.stateRevision + 1, updatedAt := now,
             uncertaintyReason := some reason }
  lostCode := "CANCELLED"
  lostMessage := "send intent cancelled"
  readbackMessage := "cancelled intent was not readable"
  eventType := "SEND_INTENT_CANCELLED"
  reason := reason
  keepsIdentity _ := rfl
  countsRevision _ := rfl

def cancelIntent (rt : Runtime) (intentId token reason : String) (now : DateTime) (db : Database) :
    Database × Outcome SendIntentResult :=
  transaction (failedClosed "CANCEL_TRANSACTION_FAILED" "cancel") db do
    answerUnless (tokenDigest rt token ≠ "")
      (invalid "OWNER_TOKEN_INVALID" "cancel requires the opaque owner token")
    let r ← readIntent db intentId
    answerUnless (r.leaseOwnerTokenHash = tokenDigest rt token)
      (rejected "STALE_INTENT_OWNER" "cancel owner token is not current" r)
    answerUnless (r.status ≠ .cancelled) (repeated "ALREADY_CANCELLED" "cancel replay is idempotent" r)
    answerUnless (fenceable r.status = true) (rejected "NOT_CANCELLABLE"
      ("intent state '" ++ r.status.text ++ "' cannot be cancelled") r)
    let (done,stored) ← writeIntent db r (cancelWrite (boundedReason reason) now) now
    pure (done,written "CANCELLED" "send intent cancelled" stored)

/-! ## Requests to the database -/

/-- Everything a client does at once. The physical send itself touches no row. -/
inductive SendRequest (rt : Runtime) where
  | lease (call : LeaseCall rt) (now : DateTime)
  | readLease (resourceId : String)
  | readIntent (intentId : String)
  | prepare (args : PrepareArgs rt)
  | fence (intentId reason : String) (now : DateTime)
  | allow (args : SendArgs rt)
  | begin (args : SendArgs rt)
  | physicalSend (intentId : String)
  | markUncertain (intentId token reason : String) (now : DateTime)
  | confirm (args : SendArgs rt) (evidence : StructuredSendEvidence)
  | requireReconciliation (intentId : String) (read : SendIntentRecord) (now : DateTime)
  | retry (intentId : String) (proof : NoDeliveryProof) (now : DateTime)
  | acknowledge (intentId : String) (now : DateTime)
  | cancel (intentId token reason : String) (now : DateTime)
  | stop (q : StopRequest)
  | resume (q : Database.ResumeRequest)
  | elsewhere (e : Database.Elsewhere)

namespace SendRequest

def Answer : SendRequest rt → Type
  | .lease _ _ => Outcome ContinuationLeaseResult
  | .readLease _ => Option ContinuationLeaseRecord
  | .readIntent _ => Option SendIntentRecord
  | .fence _ _ _ => Outcome (Option SendIntentRecord)
  | .physicalSend _ => Unit
  | .stop _ => Outcome (StopFenceRecord × Bool)
  | .resume _ => Outcome ScopeCursor
  | .elsewhere _ => Unit
  | _ => Outcome SendIntentResult

def perform : (q : SendRequest rt) → Database → Database × q.Answer
  | .lease call now, db => call.perform now db
  | .readLease resourceId, db => (db,db.leaseFor resourceId)
  | .readIntent intentId, db => (db,db.intents.get intentId)
  | .prepare args, db => prepareIntent args db
  | .fence intentId reason now, db => fenceIntent intentId reason now db
  | .allow args, db => allowIntent args db
  | .begin args, db => beginIntent args db
  | .physicalSend _, db => (db,())
  | .markUncertain intentId token reason now, db => markUncertainIntent rt intentId token reason now db
  | .confirm args evidence, db => confirmIntent args evidence db
  | .requireReconciliation intentId read now, db => Continuation.requireReconciliation intentId read now db
  | .retry intentId _ now, db => retryIntent intentId now db
  | .acknowledge intentId now, db => ackIntent intentId now db
  | .cancel intentId token reason now, db => cancelIntent rt intentId token reason now db
  | .stop q, db => db.stop q
  | .resume q, db => db.resume q
  | .elsewhere e, db => (db.elsewhere e,())

end SendRequest

/-! ## Calls -/

abbrev SendScript (rt : Runtime) (α : Type) := Script (SendRequest rt) SendRequest.Answer α

abbrev SendProgram (rt : Runtime) := SendScript rt (Outcome SendIntentResult)

def reply (r : SendIntentResult) : SendProgram rt := .done (.ok r)

structure PrepareCall (rt : Runtime) where
  packet : ContinuationPacket rt
  authority : ContinuationAuthoritySnapshot
  token : String
  payload : String
  binding : Option ExactConversationBinding
  intentGeneration : Option Int
  now : DateTime

def prepareChecks (c : PrepareCall rt) : Outcome Unit := do
  validatePacket c.packet c.authority c.now
  require (c.payload ≠ "") "PAYLOAD_REQUIRED" "durable send intent requires a non-empty payload"
  require (byteLength c.payload.toList ≤ 65536) "PAYLOAD_TOO_LARGE"
    "send intent payload exceeds the bounded size"
  require (tokenDigest rt c.token ≠ "") "OWNER_TOKEN_INVALID"
    "prepare requires the opaque lease owner token"
  require (∀ b ∈ c.binding, b.isExact rt = true) "GUESSED_CONVERSATION_IDENTITY"
    "conversation binding is not identity-verifiable"

/-- The checks on the lease that was read before the transaction, and the arguments the
transaction then gets: the key takes the lease generation from this read. -/
def prepareArgs (c : PrepareCall rt) (read : Option ContinuationLeaseRecord) : Outcome (PrepareArgs rt) := do
  let lease ← need read "LEASE_NOT_FOUND" "a claimed NX-026 lease is required before preparing a send"
  require (lease.ownerTokenHash = some (tokenDigest rt c.token) ∧ lease.status = .claimed)
    "STALE_LEASE_OWNER" "send intent owner is not the current claimed lease"
  require (c.now < lease.expiresAt) "LEASE_EXPIRED" "send intent cannot be prepared after lease expiry"
  let generation := c.intentGeneration.getD lease.generation
  require (1 ≤ generation) "INVALID_INTENT_GENERATION" "intent_generation must be a positive integer"
  pure ⟨c.packet,c.authority,c.token,c.payload,c.binding,generation.toNat,
    intentKeyFor c.packet lease c.payload c.binding generation.toNat,c.now⟩

def prepare (c : PrepareCall rt) : SendProgram rt :=
  match prepareChecks c with
  | .error f => reply (invalid f.code f.message)
  | .ok _ => .ask (.readLease c.packet.resourceId) fun read =>
    match prepareArgs c read with
    | .error f => reply (invalid f.code f.message)
    | .ok args => .ask (.prepare args) .done

structure SendCall (rt : Runtime) where
  intentId : String
  packet : ContinuationPacket rt
  authority : ContinuationAuthoritySnapshot
  token : String
  dom : DomPreconditions
  now : DateTime

def SendCall.args (c : SendCall rt) : SendArgs rt := ⟨c.intentId,c.packet,c.token,c.now⟩

/-- The common beginning of the two calls before a send: a packet that is not valid fences
the intent, and the chat on screen is checked on the intent as it is read. -/
def throughDom (c : SendCall rt) (go : SendProgram rt) : SendProgram rt :=
  match validatePacket c.packet c.authority c.now with
  | .error f => .ask (.fence c.intentId f.code c.now) fun fenced =>
    match fenced with
    | .error e => .done (.error e)
    | .ok r => reply ⟨false,f.code,f.message,r,none,false,false⟩
  | .ok _ => .ask (.readIntent c.intentId) fun read =>
    match read with
    | none => reply (invalid "INTENT_NOT_FOUND" "send intent does not exist")
    | some r =>
      match domCheck rt r c.dom with
      | .error f => reply (rejected f.code f.message r)
      | .ok _ => go

def allowSend (c : SendCall rt) : SendProgram rt := throughDom c (.ask (.allow c.args) .done)

def beginPhysicalSend (c : SendCall rt) : SendProgram rt := throughDom c (.ask (.begin c.args) .done)

def markUncertain (intentId token reason : String) (now : DateTime) : SendProgram rt :=
  .ask (.markUncertain intentId token reason now) .done

def confirm (a : SendArgs rt) (evidence : StructuredSendEvidence) : SendProgram rt :=
  .ask (.confirm a evidence) .done

def reconcile (a : SendArgs rt) (evidence : Option StructuredSendEvidence) (proof : Option NoDeliveryProof) :
    SendProgram rt :=
  .ask (.readIntent a.intentId) fun read =>
    match read with
    | none => reply (invalid "INTENT_NOT_FOUND" "send intent does not exist")
    | some r =>
      if ¬ packetMatches r a.packet = true then
        reply (rejected "STALE_AUTHORITY" "packet does not match durable send intent" r)
      else if r.leaseOwnerTokenHash ≠ tokenDigest rt a.token then
        reply (rejected "STALE_INTENT_OWNER" "reconciliation owner token is not current" r)
      else
        match evidence, proof with
        | some e, _ => confirm a e
        | none, none => .ask (.requireReconciliation a.intentId r a.now) .done
        | none, some pr =>
          if pr.intentId ≠ a.intentId ∨ pr.valid = false then
            .ask (.requireReconciliation a.intentId r a.now) .done
          else .ask (.retry a.intentId pr a.now) .done

/-- What the browser does with a physical send: it fails, or it reports evidence. -/
abbrev PhysicalSend := SendIntentRecord → Except String StructuredSendEvidence

/-- One attempt: allow, begin, send, and confirm or mark uncertain. The clock may be read
anew for each part. -/
def sendOnce (c : SendCall rt) (beginAt endAt : DateTime) (physicalSend : PhysicalSend) : SendProgram rt :=
  (allowSend c).bind fun allowed =>
    match allowed with
    | .error e => .done (.error e)
    | .ok allowed =>
      if allowed.accepted = false then reply allowed
      else (beginPhysicalSend { c with now := beginAt }).bind fun attempted =>
        match attempted with
        | .error e => .done (.error e)
        | .ok attempted =>
          if attempted.accepted = false then reply attempted
          else
            match attempted.intent with
            | none => reply (invalid "INTENT_READBACK_FAILED" "physical attempt did not return an intent")
            | some intent => .ask (.physicalSend c.intentId) fun _ =>
              match physicalSend intent with
              | .error why => markUncertain c.intentId c.token why endAt
              | .ok evidence => confirm ⟨c.intentId,c.packet,c.token,endAt⟩ evidence

/-- The acknowledgement names the intent, its continuation, its binding and its
conversation. -/
def ackMatches (r : SendIntentRecord) (a : SendArgs rt) (ack : SendAck) : Bool :=
  ack.intentId == r.intentId && r.intentId == a.intentId && ack.continuationId == r.continuationId &&
    r.continuationId == a.packet.continuationId && ack.packetDigest == r.packetDigest &&
    r.packetDigest == a.packet.packetDigest && ack.executionBindingId == r.executionBindingId &&
    r.executionBindingId == a.packet.executionBindingId && some ack.conversationId == r.conversationBindingId

def ack (a : SendArgs rt) (acknowledgement : SendAck) (ackAt : DateTime) : SendProgram rt :=
  .ask (.readIntent a.intentId) fun read =>
    match read with
    | none => reply (invalid "INTENT_NOT_FOUND" "send intent does not exist")
    | some r =>
      if ackMatches r a acknowledgement = false then
        reply (rejected "WRONG_ACK" "acknowledgement identity does not match the durable intent" r)
      else if r.leaseOwnerTokenHash ≠ tokenDigest rt a.token then
        reply (rejected "STALE_INTENT_OWNER" "acknowledgement owner token is not current" r)
      else if r.status = .acknowledged then
        reply (repeated "ALREADY_ACKNOWLEDGED" "acknowledgement replay is idempotent" r)
      else if r.status ≠ .sendConfirmed then
        reply (rejected "NOT_CONFIRMED" "only SEND_CONFIRMED intent can be acknowledged" r)
      else
        .ask (.lease (.complete a.packet a.token) a.now) fun completed =>
          match completed with
          | .error e => .done (.error e)
          | .ok completed =>
            if completed.accepted = false then reply (rejected "LEASE_COMPLETION_FAILED" completed.message r)
            else .ask (.acknowledge a.intentId ackAt) .done

def cancel (intentId token reason : String) (now : DateTime) : SendProgram rt :=
  .ask (.cancel intentId token reason now) .done

/-- The calls of any client, with the other writers of the database. -/
inductive ClientCall (rt : Runtime) where
  | lease (call : LeaseCall rt) (now : DateTime)
  | prepare (c : PrepareCall rt)
  | allowSend (c : SendCall rt)
  | beginPhysicalSend (c : SendCall rt)
  | markUncertain (intentId token reason : String) (now : DateTime)
  | confirm (a : SendArgs rt) (evidence : StructuredSendEvidence)
  | reconcile (a : SendArgs rt) (evidence : Option StructuredSendEvidence) (proof : Option NoDeliveryProof)
  | sendOnce (c : SendCall rt) (beginAt endAt : DateTime) (physicalSend : PhysicalSend)
  | ack (a : SendArgs rt) (acknowledgement : SendAck) (ackAt : DateTime)
  | cancel (intentId token reason : String) (now : DateTime)
  | stop (q : StopRequest)
  | resume (q : Database.ResumeRequest)
  | elsewhere (e : Database.Elsewhere)

/-- What a client asks for, its own result left out. -/
def ClientCall.program : ClientCall rt → SendScript rt Unit
  | .lease call now => .ask (.lease call now) fun _ => .done ()
  | .prepare c => (Continuation.prepare c).bind fun _ => .done ()
  | .allowSend c => (Continuation.allowSend c).bind fun _ => .done ()
  | .beginPhysicalSend c => (Continuation.beginPhysicalSend c).bind fun _ => .done ()
  | .markUncertain intentId token reason now =>
    (Continuation.markUncertain intentId token reason now).bind fun _ => .done ()
  | .confirm a evidence => (Continuation.confirm a evidence).bind fun _ => .done ()
  | .reconcile a evidence proof => (Continuation.reconcile a evidence proof).bind fun _ => .done ()
  | .sendOnce c beginAt endAt physicalSend =>
    (Continuation.sendOnce c beginAt endAt physicalSend).bind fun _ => .done ()
  | .ack a acknowledgement ackAt => (Continuation.ack a acknowledgement ackAt).bind fun _ => .done ()
  | .cancel intentId token reason now =>
    (Continuation.cancel intentId token reason now).bind fun _ => .done ()
  | .stop q => .ask (.stop q) fun _ => .done ()
  | .resume q => .ask (.resume q) fun _ => .done ()
  | .elsewhere e => .ask (.elsewhere e) fun _ => .done ()

abbrev SendSystem (rt : Runtime) := Shared Database (@SendRequest.Answer rt) Unit

abbrev SendMove (rt : Runtime) := Move (ClientCall rt)

namespace SendSystem

def next (s : SendSystem rt) (m : SendMove rt) : SendSystem rt :=
  Shared.next SendRequest.perform ClientCall.program s m

def run (s : SendSystem rt) (moves : List (SendMove rt)) : SendSystem rt :=
  Shared.run SendRequest.perform ClientCall.program s moves

/-- No lease and no intent exists at the start. -/
def begin (db : Database) : SendSystem rt :=
  Shared.begin { db with leases := Table.empty, intents := Table.empty, audit := Table.empty }

end SendSystem

/-! ## A small conversation -/

def sampleBinding : ExactConversationBinding :=
  ⟨"chat-1",bindingProofOf sampleRuntime "chat-1","canonical",true⟩

def samplePrepare (intentGeneration : Option Int) : PrepareCall sampleRuntime :=
  ⟨samplePacket,sampleAuthority,sampleToken,"hello",some sampleBinding,intentGeneration,sampleTime 1⟩

def sampleSendCall (intentId : String) (now : DateTime) : SendCall sampleRuntime :=
  ⟨intentId,samplePacket,sampleAuthority,sampleToken,⟨some "chat-1",true,true⟩,now⟩

end Bdb.Continuation
