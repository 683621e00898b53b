import Bdb.Base.Sha256
import Bdb.Base.Transaction
import Bdb.Continuation.Database

/-! # Continuation leases

At most one owner works on a continuation. A lease row is created available, claimed with
a fresh owner token of which only the digest is stored, renewed, released, completed or
abandoned by that token, and reclaimed with a new token once it has expired. Every call is
one transaction.
-/
namespace Bdb.Continuation

open Step

structure LeaseCoordinator where
  leaseSeconds : ℕ
  enforceStopFence : Bool
  secondsPositive : 0 < leaseSeconds

structure ContinuationLeaseResult where
  accepted : Bool
  reasonCode : String
  message : String
  lease : Option ContinuationLeaseRecord
  ownerToken : Option String
  mutated : Bool
  idempotent : Bool

namespace ContinuationLeaseResult

def invalid (code message : String) : ContinuationLeaseResult := ⟨false,code,message,none,none,false,false⟩

def rejected (code message : String) (lease : ContinuationLeaseRecord) : ContinuationLeaseResult :=
  ⟨false,code,message,some lease,none,false,false⟩

def repeated (code message : String) (lease : ContinuationLeaseRecord) : ContinuationLeaseResult :=
  ⟨true,code,message,some lease,none,false,true⟩

/-- The answer of a call that failed closed on a broken constraint. -/
def failedClosed (code what : String) (f : Failure) : ContinuationLeaseResult :=
  invalid code (what ++ " failed closed: " ++ f.message)

end ContinuationLeaseResult

open ContinuationLeaseResult

variable {rt : Runtime}

def ContinuationPacket.resourceId (p : ContinuationPacket rt) : String :=
  p.continuationId ++ "|" ++ p.packetDigest ++ "|epoch:" ++ naturalText p.scopeEpoch

def leaseIdFor (rt : Runtime) (projectId resourceId : String) : String :=
  let hash := rt.sha256 (projectId.toList ++ [Char.ofNat 0] ++ resourceId.toList)
  "continuation-lease-" ++ String.ofList (hash.toList.take 40)

/-! ## Rows and checks -/

def Database.leaseFor (db : Database) (resourceId : String) : Option ContinuationLeaseRecord :=
  db.leases.find (fun l => l.resourceId == resourceId)

def packetMatchesRecord (p : ContinuationPacket rt) (l : ContinuationLeaseRecord) : Bool :=
  l.continuationId == p.continuationId && l.packetDigest == p.packetDigest && l.runId == p.runId &&
    l.scopeEpoch == p.scopeEpoch && l.taskId == p.currentTaskId &&
    l.executionBindingId == p.executionBindingId

def availableLease (projectId : String) (p : ContinuationPacket rt) (now : DateTime) :
    ContinuationLeaseRecord where
  leaseId := leaseIdFor rt projectId p.resourceId
  resourceId := p.resourceId
  continuationId := p.continuationId
  packetDigest := p.packetDigest
  runId := p.runId
  scopeEpoch := p.scopeEpoch
  taskId := p.currentTaskId
  executionBindingId := p.executionBindingId
  ownerId := none
  ownerTokenHash := none
  generation := 0
  acquiredAt := now
  expiresAt := now
  stateRevision := 1
  status := .available
  lastTransitionReason := some "INITIALIZED"
  completedAt := none
  abandonedAt := none

def stopCheck (co : LeaseCoordinator) (db : Database) (authority : ContinuationAuthoritySnapshot)
    (p : ContinuationPacket rt) (boundary : EffectBoundary) : Outcome Unit := do
  require (authority.stopRequested = false) "STOP_CANONICAL"
    "live authority reports a canonical STOP request"
  require (rt.upper authority.status ∉ ["STOPPED","COMPLETED"]) "STOP_CANONICAL"
    ("live authority status '" ++ rt.upper authority.status ++ "' blocks continuation")
  if co.enforceStopFence then db.checkBoundary p.scopeEpoch boundary else pure ()

/-- The checks before a lease may be given or used: the packet is valid, the project
exists, and nothing stops the continuation. The source validates the packet a second time
inside the transaction, with the same arguments. -/
def enter (co : LeaseCoordinator) (db : Database) (p : ContinuationPacket rt)
    (authority : ContinuationAuthoritySnapshot) (now : DateTime) (boundary : EffectBoundary) :
    Step ContinuationLeaseResult Unit := do
  orRaise db.ensureProject
  orAnswer invalid (validatePacket p authority now)
  orAnswer invalid (stopCheck co db authority p boundary)

def Database.insertAvailable (db : Database) (p : ContinuationPacket rt) (now : DateTime) :
    Outcome (Database × ContinuationLeaseRecord) := do
  let leases ← need (db.leases.insert (availableLease db.projectId p now)) "IntegrityError"
    "UNIQUE constraint failed: leases.lease_id"
  let db' : Database := { db with leases := leases }
  let l ← need (db'.leaseFor p.resourceId) "LEASE_INSERT_READBACK_FAILED"
    "new continuation lease was not readable"
  pure (db',l)

/-- The compare-and-set update of a lease row: none when no row passes the test at the
revision that was read. -/
def Database.updateLease (db : Database) (read : ContinuationLeaseRecord)
    (test : ContinuationLeaseRecord → Bool) (f : ContinuationLeaseRecord → ContinuationLeaseRecord) :
    Option Database :=
  match db.leases.get read.leaseId with
  | some row =>
    if test row = true ∧ row.stateRevision = read.stateRevision then
      some { db with leases := db.leases.put (f row) }
    else none
  | none => none

def leaseEvent (db : Database) (l : ContinuationLeaseRecord) (eventType reason : String) (now : DateTime) :
    AuditEvent where
  eventId := .lease l.leaseId l.stateRevision
  revision := db.nextEventRevision
  eventType := eventType
  humanSummary := "Continuation lease " ++ l.leaseId ++ ": " ++ reason
  taskId := some l.taskId
  payload := [("lease_version",.str "v1"),("lease_id",.str l.leaseId),
    ("continuation_id",.str l.continuationId),("packet_digest",.str l.packetDigest),
    ("scope_epoch",.int l.scopeEpoch),("generation",.int l.generation),
    ("status",.str l.status.text),("reason",.str reason)]
  timestamp := now

def Database.appendLeaseEvent (db : Database) (l : ContinuationLeaseRecord) (eventType reason : String)
    (now : DateTime) : Outcome Database :=
  match db.appendEvent (leaseEvent db l eventType reason now) with
  | .ok db' => .ok db'
  | .error _ => fail "LEASE_AUDIT_CONFLICT" "continuation lease audit event identity conflicted"

/-- What differs between the writes of the calls. A write never moves a row to another
lease and counts its revision up. -/
structure LeaseWrite where
  test : ContinuationLeaseRecord → Bool
  change : ContinuationLeaseRecord → ContinuationLeaseRecord
  lostCode : String
  lostMessage : String
  eventType : String
  reason : String
  readbackCode : String
  readbackMessage : String
  keepsLease : ∀ l, (change l).leaseId = l.leaseId
  keepsResource : ∀ l, (change l).resourceId = l.resourceId
  countsRevision : ∀ l, (change l).stateRevision = l.stateRevision + 1

def writeLease (db : Database) (p : ContinuationPacket rt) (read : ContinuationLeaseRecord) (w : LeaseWrite)
    (now : DateTime) : Step ContinuationLeaseResult (Database × ContinuationLeaseRecord) := do
  let updated ← needOr (db.updateLease read w.test w.change) (invalid w.lostCode w.lostMessage)
  let bumped ← orRaise updated.bumpProjectRevision
  let stored ← orRaise (need (bumped.leaseFor p.resourceId) w.readbackCode w.readbackMessage)
  let done ← orRaise (bumped.appendLeaseEvent stored w.eventType w.reason now)
  pure (done,stored)

/-! ## Claim and reclaim -/

def claimWrite (rt : Runtime) (ownerId token : String) (now expires : DateTime) : LeaseWrite where
  test l := l.status = .available ∨ l.status = .released ∨ l.status = .expired
  change l :=
    { l with status := .claimed, acquiredAt := now, expiresAt := expires, ownerId := some ownerId,
             ownerTokenHash := some (tokenDigest rt token), generation := max 1 (l.generation + 1),
             stateRevision := l.stateRevision + 1, lastTransitionReason := some "CLAIMED",
             completedAt := none, abandonedAt := none }
  lostCode := "CLAIM_CAS_LOST"
  lostMessage := "AVAILABLE -> CLAIMED compare-and-set lost"
  eventType := "CONTINUATION_LEASE_CLAIMED"
  reason := "CLAIMED"
  readbackCode := "LEASE_CLAIM_READBACK_FAILED"
  readbackMessage := "claimed lease was not readable"
  keepsLease _ := rfl
  keepsResource _ := rfl
  countsRevision _ := rfl

/-- The decision on a lease row that was found or just created. -/
def claimRecord (co : LeaseCoordinator) (db : Database) (p : ContinuationPacket rt)
    (l : ContinuationLeaseRecord) (ownerId token : String) (now : DateTime) :
    Step ContinuationLeaseResult (Database × ContinuationLeaseResult) :=
  if ¬ packetMatchesRecord p l = true then
    pure (db,invalid "LEASE_IDENTITY_MISMATCH" "stored lease identity differs from packet")
  else if l.status = .completed then
    pure (db,rejected "COMPLETED_CONTINUATION" "completed continuation cannot be claimed" l)
  else if l.status = .abandoned then
    pure (db,rejected "ABANDONED_CONTINUATION" "abandoned continuation cannot be claimed" l)
  else if l.status = .claimed then
    if now < l.expiresAt then pure (db,rejected "LEASE_HELD" "continuation is already claimed" l)
    else
      pure (db,rejected "EXPIRED_RECLAIM_REQUIRED"
        "expired continuation requires explicit deterministic reclaim" l)
  else if l.status = .active then
    pure (db,rejected "LEASE_NOT_CLAIMABLE" ("lease status '" ++ l.status.text ++ "' is not claimable") l)
  else do
    let expires ← orRaise (now.plus (co.leaseSeconds * 1000000))
    let (done,claimed) ← writeLease db p l (claimWrite rt ownerId token now expires) now
    pure (done,⟨true,"CLAIMED","continuation lease claimed",some claimed,some token,true,false⟩)

/-- The token is the fresh random one a successful claim hands out. -/
def claim (co : LeaseCoordinator) (p : ContinuationPacket rt) (authority : ContinuationAuthoritySnapshot)
    (ownerId token : String) (now : DateTime) (db : Database) : Database × Outcome ContinuationLeaseResult :=
  transaction (failedClosed "CLAIM_TRANSACTION_FAILED" "continuation claim") db do
    answerUnless (strip ownerId ≠ "") (invalid "OWNER_ID_REQUIRED" "claim requires a non-empty owner id")
    orAnswer invalid (validatePacket p authority now)
    enter co db p authority now .queueClaim
    match db.leaseFor p.resourceId with
    | some l => claimRecord co db p l ownerId token now
    | none => do
      let (db',l) ← orRaise (db.insertAvailable p now)
      claimRecord co db' p l ownerId token now

def reclaimWrite (rt : Runtime) (ownerId token reason : String) (read : ContinuationLeaseRecord)
    (now expires : DateTime) : LeaseWrite where
  test l := l.status = .claimed ∧ l.expiresAt = read.expiresAt
  change l :=
    { l with status := .claimed, acquiredAt := now, expiresAt := expires, ownerId := some ownerId,
             ownerTokenHash := some (tokenDigest rt token), generation := l.generation + 1,
             stateRevision := l.stateRevision + 1,
             lastTransitionReason := some ("RECLAIM:" ++ boundedReason reason),
             completedAt := none, abandonedAt := none }
  lostCode := "RECLAIM_CAS_LOST"
  lostMessage := "expired lease reclaim compare-and-set lost"
  eventType := "CONTINUATION_LEASE_RECLAIMED"
  reason := boundedReason reason
  readbackCode := "LEASE_RECLAIM_READBACK_FAILED"
  readbackMessage := "reclaimed lease was not readable"
  keepsLease _ := rfl
  keepsResource _ := rfl
  countsRevision _ := rfl

def reclaim (co : LeaseCoordinator) (p : ContinuationPacket rt) (authority : ContinuationAuthoritySnapshot)
    (ownerId token reason : String) (now : DateTime) (db : Database) :
    Database × Outcome ContinuationLeaseResult :=
  transaction (failedClosed "RECLAIM_TRANSACTION_FAILED" "continuation reclaim") db do
    answerUnless (strip ownerId ≠ "") (invalid "OWNER_ID_REQUIRED" "reclaim requires a non-empty owner id")
    answerUnless (strip reason ≠ "") (invalid "RECLAIM_REASON_REQUIRED" "reclaim requires an explicit reason")
    orAnswer invalid (validatePacket p authority now)
    enter co db p authority now .queueClaim
    let l ← needOr (db.leaseFor p.resourceId)
      (invalid "LEASE_NOT_FOUND" "no continuation lease exists to reclaim")
    answerUnless (l.status ≠ .completed)
      (rejected "COMPLETED_CONTINUATION" "completed continuation cannot be reclaimed" l)
    answerUnless (l.status ≠ .abandoned)
      (rejected "ABANDONED_CONTINUATION" "abandoned continuation cannot be reclaimed" l)
    answerUnless (l.status = .claimed)
      (rejected "LEASE_NOT_EXPIRED" "only a claimed lease can be reclaimed" l)
    answerUnless (l.expiresAt ≤ now)
      (rejected "PRE_EXPIRY_RECLAIM" "lease has not expired at the supplied virtual clock" l)
    let expires ← orRaise (now.plus (co.leaseSeconds * 1000000))
    let (done,reclaimed) ← writeLease db p l (reclaimWrite rt ownerId token reason l now expires) now
    pure (done,⟨true,"RECLAIMED","expired continuation lease reclaimed",some reclaimed,some token,true,false⟩)

/-! ## Calls of the owner -/

def ownerDigest (rt : Runtime) (token message : String) : Step ContinuationLeaseResult String := do
  answerUnless (tokenDigest rt token ≠ "") (invalid "OWNER_TOKEN_INVALID" message)
  pure (tokenDigest rt token)

def ownedRow (db : Database) (p : ContinuationPacket rt) (hash foreignMessage : String) :
    Step ContinuationLeaseResult ContinuationLeaseRecord := do
  let l ← needOr (db.leaseFor p.resourceId)
    (invalid "LEASE_NOT_FOUND" "continuation lease does not exist")
  answerUnless (l.ownerTokenHash = some hash) (rejected "FOREIGN_OWNER_TOKEN" foreignMessage l)
  pure l

/-- The test of an owner's write: the row is claimed by the digest. -/
def claimedBy (hash : String) (l : ContinuationLeaseRecord) : Bool :=
  l.status = .claimed ∧ l.ownerTokenHash = some hash

def renewWrite (hash : String) (expires : DateTime) : LeaseWrite where
  test := claimedBy hash
  change l :=
    { l with expiresAt := expires, stateRevision := l.stateRevision + 1,
             lastTransitionReason := some "RENEWED" }
  lostCode := "RENEW_CAS_LOST"
  lostMessage := "lease renew compare-and-set lost"
  eventType := "CONTINUATION_LEASE_RENEWED"
  reason := "RENEWED"
  readbackCode := "LEASE_RENEW_READBACK_FAILED"
  readbackMessage := "renewed lease was not readable"
  keepsLease _ := rfl
  keepsResource _ := rfl
  countsRevision _ := rfl

def renew (co : LeaseCoordinator) (p : ContinuationPacket rt) (authority : ContinuationAuthoritySnapshot)
    (token : String) (now : DateTime) (db : Database) : Database × Outcome ContinuationLeaseResult :=
  transaction (failedClosed "RENEW_TRANSACTION_FAILED" "continuation renew") db do
    orAnswer invalid (validatePacket p authority now)
    let hash ← ownerDigest rt token "renew requires the opaque owner token"
    enter co db p authority now .queueClaim
    let l ← ownedRow db p hash "renew rejected for a foreign owner token"
    answerUnless (l.status = .claimed)
      (rejected "LEASE_NOT_CLAIMED" "only a claimed lease can be renewed" l)
    answerUnless (now < l.expiresAt)
      (rejected "LATE_RENEW_AFTER_EXPIRY" "late renew cannot revive an expired lease" l)
    let expires ← orRaise (now.plus (co.leaseSeconds * 1000000))
    let (done,renewed) ← writeLease db p l (renewWrite hash expires) now
    pure (done,⟨true,"RENEWED","continuation lease renewed",some renewed,none,true,false⟩)

def releaseWrite (hash reason : String) : LeaseWrite where
  test := claimedBy hash
  change l :=
    { l with status := .available, ownerId := none, ownerTokenHash := none,
             stateRevision := l.stateRevision + 1,
             lastTransitionReason := some ("RELEASE:" ++ reason), expiresAt := l.acquiredAt }
  lostCode := "RELEASE_CAS_LOST"
  lostMessage := "lease release compare-and-set lost"
  eventType := "CONTINUATION_LEASE_RELEASED"
  reason := reason
  readbackCode := "LEASE_RELEASE_READBACK_FAILED"
  readbackMessage := "released lease was not readable"
  keepsLease _ := rfl
  keepsResource _ := rfl
  countsRevision _ := rfl

def release (p : ContinuationPacket rt) (token reason : String) (now : DateTime) (db : Database) :
    Database × Outcome ContinuationLeaseResult :=
  transaction (failedClosed "RELEASE_TRANSACTION_FAILED" "continuation release") db do
    let hash ← ownerDigest rt token "release requires the opaque owner token"
    orRaise db.ensureProject
    let l ← ownedRow db p hash "release rejected for a foreign owner token"
    answerUnless (l.status ≠ .available)
      (repeated "ALREADY_AVAILABLE" "continuation lease is already available" l)
    answerUnless (l.status ≠ .completed ∧ l.status ≠ .abandoned)
      (rejected "TERMINAL_LEASE" ("terminal lease cannot be released from " ++ l.status.text) l)
    answerUnless (l.status = .claimed)
      (rejected "LEASE_NOT_CLAIMED" "only a claimed lease can be released" l)
    answerUnless (now < l.expiresAt) (rejected "EXPIRED_LEASE" "expired owner cannot release a lease" l)
    let (done,released) ←
      writeLease db p l (releaseWrite hash (nonEmptyOr (boundedReason reason) "RELEASED")) now
    pure (done,⟨true,"RELEASED","continuation lease released",some released,none,true,false⟩)

def completeWrite (hash : String) (now : DateTime) : LeaseWrite where
  test := claimedBy hash
  change l :=
    { l with status := .completed, stateRevision := l.stateRevision + 1,
             lastTransitionReason := some "COMPLETED", completedAt := some now }
  lostCode := "COMPLETE_CAS_LOST"
  lostMessage := "lease completion compare-and-set lost"
  eventType := "CONTINUATION_LEASE_COMPLETED"
  reason := "COMPLETED"
  readbackCode := "LEASE_COMPLETE_READBACK_FAILED"
  readbackMessage := "completed lease was not readable"
  keepsLease _ := rfl
  keepsResource _ := rfl
  countsRevision _ := rfl

def complete (p : ContinuationPacket rt) (token : String) (now : DateTime) (db : Database) :
    Database × Outcome ContinuationLeaseResult :=
  transaction (failedClosed "COMPLETE_TRANSACTION_FAILED" "continuation completion") db do
    let hash ← ownerDigest rt token "complete requires the opaque owner token"
    orRaise db.ensureProject
    let l ← ownedRow db p hash "complete rejected for a foreign owner token"
    answerUnless (l.status ≠ .completed)
      (repeated "ALREADY_COMPLETED" "continuation completion is idempotent" l)
    answerUnless (l.status = .claimed)
      (rejected "LEASE_NOT_CLAIMED" "only a claimed lease can be completed" l)
    answerUnless (now < l.expiresAt) (rejected "EXPIRED_LEASE" "expired owner cannot complete a lease" l)
    let (done,completed) ← writeLease db p l (completeWrite hash now) now
    pure (done,⟨true,"COMPLETED","continuation lease completed",some completed,none,true,false⟩)

def abandonWrite (hash reason : String) (now : DateTime) : LeaseWrite where
  test := claimedBy hash
  change l :=
    { l with status := .abandoned, stateRevision := l.stateRevision + 1,
             lastTransitionReason := some ("ABANDON:" ++ reason), abandonedAt := some now }
  lostCode := "ABANDON_CAS_LOST"
  lostMessage := "lease abandon compare-and-set lost"
  eventType := "CONTINUATION_LEASE_ABANDONED"
  reason := reason
  readbackCode := "LEASE_ABANDON_READBACK_FAILED"
  readbackMessage := "abandoned lease was not readable"
  keepsLease _ := rfl
  keepsResource _ := rfl
  countsRevision _ := rfl

def abandon (p : ContinuationPacket rt) (token reason : String) (now : DateTime) (db : Database) :
    Database × Outcome ContinuationLeaseResult :=
  transaction (failedClosed "ABANDON_TRANSACTION_FAILED" "continuation abandon") db do
    let hash ← ownerDigest rt token "abandon requires the opaque owner token"
    orRaise db.ensureProject
    let l ← ownedRow db p hash "abandon rejected for a foreign owner token"
    answerUnless (l.status ≠ .abandoned)
      (repeated "ALREADY_ABANDONED" "continuation abandon is idempotent" l)
    answerUnless (l.status ≠ .completed)
      (rejected "TERMINAL_LEASE" "completed lease cannot be abandoned" l)
    answerUnless (l.status = .claimed)
      (rejected "LEASE_NOT_CLAIMED" "only a claimed lease can be abandoned" l)
    answerUnless (now < l.expiresAt) (rejected "EXPIRED_LEASE" "expired owner cannot abandon a lease" l)
    let (done,abandoned) ←
      writeLease db p l (abandonWrite hash (nonEmptyOr (boundedReason reason) "ABANDONED") now) now
    pure (done,⟨true,"ABANDONED","continuation lease abandoned",some abandoned,none,true,false⟩)

/-- Checks everything again right before an effect; writes nothing. -/
def authorizeEffect (co : LeaseCoordinator) (p : ContinuationPacket rt)
    (authority : ContinuationAuthoritySnapshot) (token : String) (now : DateTime) (db : Database) :
    Database × Outcome ContinuationLeaseResult :=
  transaction (failedClosed "EFFECT_AUTHORIZATION_FAILED" "effect authorization") db do
    orAnswer invalid (validatePacket p authority now)
    let hash ← ownerDigest rt token "effect authorization requires the opaque owner token"
    enter co db p authority now .dispatchSend
    let l ← needOr (db.leaseFor p.resourceId)
      (invalid "LEASE_NOT_FOUND" "continuation lease does not exist")
    answerUnless (packetMatchesRecord p l = true)
      (rejected "LEASE_IDENTITY_MISMATCH" "stored lease identity differs from packet" l)
    answerUnless (l.ownerTokenHash = some hash)
      (rejected "FOREIGN_OWNER_TOKEN" "effect rejected for a foreign owner token" l)
    answerUnless (l.status = .claimed)
      (rejected "LEASE_NOT_CLAIMED" "effect requires a live claimed lease" l)
    answerUnless (now < l.expiresAt) (rejected "EXPIRED_LEASE" "effect rejected after lease expiry" l)
    pure (db,⟨true,"EFFECT_ALLOWED","continuation effect is authorized",some l,none,false,false⟩)

/-! ## Calls -/

inductive LeaseCall (rt : Runtime) where
  | claim (co : LeaseCoordinator) (p : ContinuationPacket rt) (authority : ContinuationAuthoritySnapshot)
      (ownerId token : String)
  | reclaim (co : LeaseCoordinator) (p : ContinuationPacket rt) (authority : ContinuationAuthoritySnapshot)
      (ownerId token reason : String)
  | renew (co : LeaseCoordinator) (p : ContinuationPacket rt) (authority : ContinuationAuthoritySnapshot)
      (token : String)
  | release (p : ContinuationPacket rt) (token reason : String)
  | complete (p : ContinuationPacket rt) (token : String)
  | abandon (p : ContinuationPacket rt) (token reason : String)
  | authorizeEffect (co : LeaseCoordinator) (p : ContinuationPacket rt)
      (authority : ContinuationAuthoritySnapshot) (token : String)

namespace LeaseCall

def packet : LeaseCall rt → ContinuationPacket rt
  | .claim _ p _ _ _ => p
  | .reclaim _ p _ _ _ _ => p
  | .renew _ p _ _ => p
  | .release p _ _ => p
  | .complete p _ => p
  | .abandon p _ _ => p
  | .authorizeEffect _ p _ _ => p

/-- The token a call hands out when it is accepted. -/
def issues : LeaseCall rt → Option String
  | .claim _ _ _ _ token => some token
  | .reclaim _ _ _ _ token _ => some token
  | _ => none

def shows : LeaseCall rt → Option String
  | .renew _ _ _ token => some token
  | .release _ token _ => some token
  | .complete _ token => some token
  | .abandon _ token _ => some token
  | .authorizeEffect _ _ _ token => some token
  | _ => none

def perform (now : DateTime) (db : Database) :
    LeaseCall rt → Database × Outcome ContinuationLeaseResult
  | .claim co p authority ownerId token => Continuation.claim co p authority ownerId token now db
  | .reclaim co p authority ownerId token reason =>
    Continuation.reclaim co p authority ownerId token reason now db
  | .renew co p authority token => Continuation.renew co p authority token now db
  | .release p token reason => Continuation.release p token reason now db
  | .complete p token => Continuation.complete p token now db
  | .abandon p token reason => Continuation.abandon p token reason now db
  | .authorizeEffect co p authority token => Continuation.authorizeEffect co p authority token now db

end LeaseCall

/-! ## A small continuation

A packet of one task, valid for an hour, with the live facts it was issued for: the
setting of the concrete runs below.
-/

def sampleRuntime : Runtime where
  upperTable c := [c]
  lowerTable c := [c]
  repr _ := ""
  fromIsoFormat _ := none
  sha256 := Sha256.sha256

instance : NeZero dateTimeLimit := ⟨by decide⟩

/-- Seconds after the start of 2026. -/
def sampleTime (seconds : ℕ) : DateTime := Fin.ofNat dateTimeLimit ((63902822400 + seconds) * 1000000)

def sampleContent : PacketContent where
  projectId := "p1"
  planIdentity := "plan-1"
  planVersion := 1
  planDigest := "sha256:1111111111111111111111111111111111111111111111111111111111111111"
  scope := .milestone
  runId := "run-1"
  scopeEpoch := 1
  currentMilestoneId := "m1"
  currentTaskId := "t1"
  executionBindingId := "b1"
  expectedRepoHeadBefore := "0123456789abcdef0123456789abcdef01234567"
  stateRevision := 1
  stateDigest := "sha256:2222222222222222222222222222222222222222222222222222222222222222"
  allowedNextAction := .launchTask
  budgetSummary := []
  evidenceRefs := []
  issuedAt := sampleTime 0
  expiresAt := sampleTime 3600
  continuationGeneration := 1
  attemptId := none
  expectedTree := none
  conversationBindingPolicy := some "EXISTING_CHAT_ONLY"

theorem sampleContent_digest : sampleContent.computeDigest sampleRuntime =
    "sha256:f187185e28bc578e07d6e5e123fdf8b1d146665cfe81f1f508371792cc4d0909" := by decide +kernel

def samplePacket : ContinuationPacket sampleRuntime :=
  { sampleContent with
    continuationId := "sha256:f187185e28bc578e07d6e5e123fdf8b1d146665cfe81f1f508371792cc4d0909"
    packetDigest := "sha256:f187185e28bc578e07d6e5e123fdf8b1d146665cfe81f1f508371792cc4d0909"
    idAddressed := sampleContent_digest.symm
    digestAddressed := sampleContent_digest.symm
    epochPositive := le_refl 1
    issuedBeforeExpiry := by decide }

def sampleAuthority : ContinuationAuthoritySnapshot where
  projectId := "p1"
  planIdentity := "plan-1"
  planVersion := 1
  planDigest := "sha256:1111111111111111111111111111111111111111111111111111111111111111"
  scope := .milestone
  runId := "run-1"
  scopeEpoch := 1
  currentMilestoneId := some "m1"
  currentTaskId := some "t1"
  executionBindingId := some "b1"
  expectedRepoHeadBefore := "0123456789abcdef0123456789abcdef01234567"
  stateRevision := 1
  stateDigest := "sha256:2222222222222222222222222222222222222222222222222222222222222222"
  allowedNextAction := .launchTask
  budgetSummary := []
  evidenceRefs := []
  status := "ACTIVE"
  taskStatus := "IN_PROGRESS"
  stopRequested := false
  planApproved := true
  attemptId := none
  expectedTree := none
  conversationBindingPolicy := "EXISTING_CHAT_ONLY"

def sampleCursor : ScopeCursor where
  cursorId := "cur-p1"
  runId := "run-1"
  scope := .milestone
  scopeEpoch := 1
  currentMilestoneId := some "m1"
  currentTaskId := some "t1"
  lastAcceptedTaskId := none
  lastAcceptedGate := none
  planIdentity := "plan:v1"
  planVersion := 1
  stateRevision := 1
  disposition := "INITIALIZED"
  status := "ACTIVE"
  stopRequestedAt := none
  stopReason := none
  scopeSelectionExplicit := false

def sampleDatabase : Database where
  projectId := "p1"
  revision := some 1
  cursor := some sampleCursor
  fences := Table.empty
  leases := Table.empty
  intents := Table.empty
  audit := Table.empty
  bindings := ["b1"]
  pendingLaunches := []

def sampleCoordinator : LeaseCoordinator := ⟨30,true,by decide⟩

def sampleToken : String := "owner-token-of-the-sample-0001"

end Bdb.Continuation
