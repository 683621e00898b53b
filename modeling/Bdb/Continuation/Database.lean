import Bdb.Base.Table
import Bdb.Continuation.Packet

/-! # The project database

One project's rows of the memory database that continuations depend on: the project
revision, the scope cursor, the recorded STOP fences, the continuation leases, the send
intents and the append-only audit events. STOP and resume are single transactions.
-/
namespace Bdb.Continuation

/-! ## Rows -/

structure ScopeCursor where
  cursorId : String
  runId : String
  scope : AutoScope
  scopeEpoch : ℕ
  currentMilestoneId : Option String
  currentTaskId : Option String
  lastAcceptedTaskId : Option String
  lastAcceptedGate : Option String
  planIdentity : String
  planVersion : ℕ
  stateRevision : ℕ
  disposition : String
  status : String
  stopRequestedAt : Option DateTime
  stopReason : Option String
  scopeSelectionExplicit : Bool
deriving DecidableEq

structure StopFenceRecord where
  fenceId : String
  runId : String
  scope : AutoScope
  scopeEpoch : ℕ
  cursorId : String
  stopRequestedAt : DateTime
  stopReason : String
  actorClass : String
  priorDisposition : String
  sourceStateRevision : ℕ
  committedRevision : ℕ
  cancelledWorkIds : List String
deriving DecidableEq

inductive LeaseStatus where
  | available
  | claimed
  | released
  | expired
  | active
  | completed
  | abandoned
deriving DecidableEq

def LeaseStatus.text : LeaseStatus → String
  | .available => "AVAILABLE"
  | .claimed => "CLAIMED"
  | .released => "RELEASED"
  | .expired => "EXPIRED"
  | .active => "ACTIVE"
  | .completed => "COMPLETED"
  | .abandoned => "ABANDONED"

structure ContinuationLeaseRecord where
  leaseId : String
  resourceId : String
  continuationId : String
  packetDigest : String
  runId : String
  scopeEpoch : ℕ
  taskId : String
  executionBindingId : String
  ownerId : Option String
  ownerTokenHash : Option String
  generation : ℕ
  acquiredAt : DateTime
  expiresAt : DateTime
  stateRevision : ℕ
  status : LeaseStatus
  lastTransitionReason : Option String
  completedAt : Option DateTime
  abandonedAt : Option DateTime
deriving DecidableEq

inductive SendStatus where
  | prepared
  | sendAllowed
  | physicalSendAttempted
  | sendConfirmed
  | acknowledged
  | uncertain
  | reconciliationRequired
  | cancelled
  | fenced
deriving DecidableEq

def SendStatus.text : SendStatus → String
  | .prepared => "PREPARED"
  | .sendAllowed => "SEND_ALLOWED"
  | .physicalSendAttempted => "PHYSICAL_SEND_ATTEMPTED"
  | .sendConfirmed => "SEND_CONFIRMED"
  | .acknowledged => "ACKNOWLEDGED"
  | .uncertain => "UNCERTAIN"
  | .reconciliationRequired => "RECONCILIATION_REQUIRED"
  | .cancelled => "CANCELLED"
  | .fenced => "FENCED"

structure StructuredSendEvidence where
  intentId : String
  continuationId : String
  packetDigest : String
  executionBindingId : String
  conversationId : String
  messageDigest : String
  visibleMessageId : String
  evidenceType : String
  structured : Bool
  focusOnly : Bool
  composerEmptyOnly : Bool
deriving DecidableEq

/-- A stored send intent. An empty evidence document is none. -/
structure SendIntentRecord where
  intentId : String
  intentKey : String
  projectId : String
  continuationId : String
  packetDigest : String
  leaseId : String
  leaseOwnerTokenHash : String
  leaseGeneration : ℕ
  scopeEpoch : ℕ
  runId : String
  taskId : String
  executionBindingId : String
  expectedRepoHeadBefore : String
  conversationBindingId : Option String
  conversationBindingProof : Option String
  messageDigest : String
  payload : String
  intentGeneration : ℕ
  stateRevision : ℕ
  status : SendStatus
  preparedAt : DateTime
  updatedAt : DateTime
  physicalAttemptedAt : Option DateTime
  confirmedAt : Option DateTime
  acknowledgedAt : Option DateTime
  deliveryEvidence : Option StructuredSendEvidence
  uncertaintyReason : Option String
deriving DecidableEq

/-- The identity of an audit event: a lease or an intent at one of its revisions, or the
random identity of a STOP or a resume. -/
inductive EventId where
  | lease (leaseId : String) (stateRevision : ℕ)
  | intent (intentId : String) (stateRevision : ℕ)
  | scope (suffix : String)
deriving DecidableEq

structure AuditEvent where
  eventId : EventId
  revision : ℕ
  eventType : String
  humanSummary : String
  taskId : Option String
  payload : Fields
  timestamp : DateTime

/-- The rows of one project. The revision is missing when the project is not registered. -/
structure Database where
  projectId : String
  revision : Option ℕ
  cursor : Option ScopeCursor
  fences : Table StopFenceRecord (·.fenceId)
  leases : Table ContinuationLeaseRecord (·.leaseId)
  intents : Table SendIntentRecord (·.intentId)
  audit : Table AuditEvent (·.eventId)
  bindings : List String
  pendingLaunches : List String

/-! ## Texts -/

def naturalText (n : ℕ) : String := String.ofList (Nat.toDigits 10 n)

/-- Words joined by single blanks, at most 256 characters. -/
def boundedReason (reason : String) : String :=
  let words := (reason.toList.splitOnP isSpace).filter (fun w => !w.isEmpty)
  String.ofList ((List.intercalate [' '] words).take 256)

def nonEmptyOr (text default : String) : String := if text = "" then default else text

variable (rt : Runtime)

def tokenDigest (token : String) : String :=
  if token.length < 20 then "" else rt.sha256 token.toList

theorem sha256_of_tokenDigest {rt : Runtime} {t u : String} (h : tokenDigest rt t = tokenDigest rt u)
    (ht : tokenDigest rt t ≠ "") : rt.sha256 t.toList = rt.sha256 u.toList := by
  have hu : tokenDigest rt u ≠ "" := h ▸ ht
  unfold tokenDigest at h ht hu
  split at ht
  · exact absurd rfl ht
  · split at hu
    · exact absurd rfl hu
    · simpa [*] using h

/-! ## Shared steps of a transaction -/

namespace Database

/-- The project row gets its next revision. -/
def bumpProjectRevision (db : Database) : Outcome Database :=
  match db.revision with
  | some n => .ok { db with revision := some (n + 1) }
  | none => fail "PROJECT_NOT_FOUND" ("project '" ++ db.projectId ++ "' does not exist")

def nextEventRevision (db : Database) : ℕ := (db.audit.rows.map (·.revision)).foldl max 0 + 1

/-- Appends an audit event; a taken identity breaks the primary key. -/
def appendEvent (db : Database) (e : AuditEvent) : Outcome Database :=
  match db.audit.insert e with
  | some audit => .ok { db with audit := audit }
  | none => fail "IntegrityError" "UNIQUE constraint failed: audit_events.event_id"

def ensureProject (db : Database) : Outcome Unit :=
  require (db.revision.isSome = true) "PROJECT_NOT_FOUND"
    ("canonical PM v2 project '" ++ db.projectId ++ "' does not exist")

/-- What other parts of the program may write meanwhile: the cursor, the bindings and the
pending launches. -/
structure Elsewhere where
  cursor : Option ScopeCursor
  bindings : List String
  pendingLaunches : List String

def elsewhere (db : Database) (e : Elsewhere) : Database :=
  { db with cursor := e.cursor, bindings := e.bindings, pendingLaunches := e.pendingLaunches }

theorem bumpProjectRevision_ok {db db' : Database} (h : db.bumpProjectRevision = .ok db') :
    ∃ n, db.revision = some n ∧ db' = { db with revision := some (n + 1) } := by
  unfold bumpProjectRevision at h
  cases hn : db.revision with
  | none => simp [hn] at h
  | some n =>
    rw [hn] at h
    cases h
    exact ⟨n,rfl,rfl⟩

theorem appendEvent_ok {db db' : Database} {e : AuditEvent} (h : db.appendEvent e = .ok db') :
    ∃ audit, db.audit.insert e = some audit ∧ db' = { db with audit := audit } := by
  unfold appendEvent at h
  cases hi : db.audit.insert e with
  | none => simp [hi] at h
  | some audit =>
    rw [hi] at h
    cases h
    exact ⟨audit,rfl,rfl⟩

end Database

/-! ## Effect boundaries -/

inductive EffectBoundary where
  | orchestratorTickLaunch
  | queueClaim
  | dispatchSend
deriving DecidableEq

def EffectBoundary.value : EffectBoundary → String
  | .orchestratorTickLaunch => "ORCHESTRATOR_TICK_LAUNCH"
  | .queueClaim => "QUEUE_CLAIM"
  | .dispatchSend => "DISPATCH_SEND"

def ScopeCursor.stopped (c : ScopeCursor) : Bool := c.status == "STOPPED" || c.disposition == "STOPPED"

def Database.fenceOf (db : Database) (epoch : ℕ) : Option StopFenceRecord :=
  db.fences.find (fun f => f.scopeEpoch == epoch)

/-- The boundary guard: the cursor exists and is not stopped, the request is of the
current epoch, and no fence is recorded for it. -/
def Database.checkBoundary (db : Database) (epoch : ℕ) (boundary : EffectBoundary) : Outcome Unit :=
  match db.cursor with
  | none => fail "CURSOR_NOT_FOUND" ("No canonical cursor found for project '" ++ db.projectId ++ "'")
  | some c => do
    let blocked := "Effect boundary '" ++ boundary.value ++ "' blocked: "
    require (c.stopped = false) "STOP_FENCE_ACTIVE" (blocked ++ "project '" ++ db.projectId ++
      "' is durably STOPPED (epoch " ++ naturalText c.scopeEpoch ++ ")")
    require (epoch = c.scopeEpoch) "STALE_SCOPE_EPOCH" (blocked ++ "request epoch " ++ naturalText epoch ++
      " does not match canonical epoch " ++ naturalText c.scopeEpoch)
    require (db.fenceOf epoch = none) "STOP_FENCE_RECORDED" (blocked ++ "fence record exists for epoch " ++
      naturalText epoch)

/-! ## STOP and resume -/

def SendIntentRecord.stop (now : DateTime) (r : SendIntentRecord) : SendIntentRecord :=
  if r.status = .prepared ∨ r.status = .sendAllowed then
    { r with status := .fenced, stateRevision := r.stateRevision + 1, updatedAt := now,
             uncertaintyReason := some "STOP_FENCE" }
  else r

theorem SendIntentRecord.stop_intentId (now : DateTime) (r : SendIntentRecord) :
    (r.stop now).intentId = r.intentId := by
  unfold stop
  split <;> rfl

structure StopRequest where
  expectedEpoch : Option ℕ
  reason : String
  actorClass : String
  fenceSuffix : String
  eventSuffix : String
  now : DateTime

theorem StopRequest.stop_intentId (q : StopRequest) (r : SendIntentRecord) :
    (r.stop q.now).intentId = r.intentId :=
  SendIntentRecord.stop_intentId q.now r

namespace Database

def insertFence (db : Database) (f : StopFenceRecord) : Option (Table StopFenceRecord (·.fenceId)) :=
  if (db.fenceOf f.scopeEpoch).isSome then none else db.fences.insert f

def stopFence (db : Database) (c : ScopeCursor) (q : StopRequest) : StopFenceRecord where
  fenceId := "fence-" ++ db.projectId ++ "-ep" ++ naturalText c.scopeEpoch ++ "-" ++ q.fenceSuffix
  runId := c.runId
  scope := c.scope
  scopeEpoch := c.scopeEpoch
  cursorId := c.cursorId
  stopRequestedAt := q.now
  stopReason := q.reason
  actorClass := q.actorClass
  priorDisposition := c.disposition
  sourceStateRevision := c.stateRevision
  committedRevision := c.stateRevision + 1
  cancelledWorkIds := (db.intents.rows.filter
    (fun r => r.status = .prepared ∨ r.status = .sendAllowed)).map (fun r => "send-intent:" ++ r.intentId)

def stopEvent (c : ScopeCursor) (f : StopFenceRecord) (q : StopRequest) : AuditEvent where
  eventId := .scope ("ev-stop-" ++ q.eventSuffix)
  revision := f.committedRevision
  eventType := "SCOPE_STOPPED"
  humanSummary := "Scope stopped at epoch " ++ naturalText c.scopeEpoch ++ ": " ++ q.reason
  taskId := c.currentTaskId
  payload := [("run_id",.str c.runId),("scope",.str c.scope.value),("epoch",.int c.scopeEpoch),
    ("prior_disposition",.str c.disposition),("source_state_revision",.int c.stateRevision),
    ("committed_revision",.int f.committedRevision),("actor_class",.str q.actorClass),
    ("reason",.str q.reason),("cancelled_work_ids",.arr (f.cancelledWorkIds.map .str))]
  timestamp := q.now

/-- Commits a durable STOP fence. The flag tells a replay. Cancelling a pending launch
breaks the status constraint of the outbox, so STOP fails while one is pending. -/
def executeStop (db : Database) (q : StopRequest) : Outcome (Database × StopFenceRecord × Bool) := do
  let c ← need db.cursor "CURSOR_NOT_FOUND"
    ("Cannot stop project '" ++ db.projectId ++ "': cursor not found")
  match (if c.stopped then db.fenceOf c.scopeEpoch else none) with
  | some f => pure (db,f,true)
  | none =>
    require (∀ e ∈ q.expectedEpoch, e = c.scopeEpoch) "STALE_STOP_EPOCH" ("Cannot stop epoch " ++
      naturalText (q.expectedEpoch.getD 0) ++ ": canonical active epoch is " ++ naturalText c.scopeEpoch)
    require (db.pendingLaunches = []) "IntegrityError" "CHECK constraint failed: launch_outbox.status"
    let f := db.stopFence c q
    match db.insertFence f with
    | none =>
      -- the write is rolled back, and the fence of the epoch is returned when there is one
      match db.fenceOf c.scopeEpoch with
      | some g => pure (db,g,true)
      | none => fail "IntegrityError" "UNIQUE constraint failed: stop_fences.fence_id"
    | some fences =>
      let stopped : Database :=
        { db with
          intents := db.intents.change (·.stop q.now) q.stop_intentId
          fences := fences
          cursor := some { c with stateRevision := c.stateRevision + 1, disposition := "STOPPED",
                                  status := "STOPPED", stopRequestedAt := some q.now,
                                  stopReason := some q.reason } }
      let done ← stopped.appendEvent (stopEvent c f q)
      pure (done,f,false)

structure ResumeRequest where
  expectedPriorEpoch : Option ℕ
  newRunId : Option String
  actorClass : String
  eventSuffix : String
  now : DateTime

def resumeEvent (c : ScopeCursor) (runId : String) (q : ResumeRequest) : AuditEvent where
  eventId := .scope ("ev-resume-" ++ q.eventSuffix)
  revision := c.stateRevision + 1
  eventType := "SCOPE_RESUMED"
  humanSummary := "Scope resumed into new epoch " ++ naturalText (c.scopeEpoch + 1) ++ " (from epoch " ++
    naturalText c.scopeEpoch ++ ")"
  taskId := c.currentTaskId
  payload := [("run_id",.str runId),("prior_epoch",.int c.scopeEpoch),
    ("new_epoch",.int (c.scopeEpoch + 1 : ℕ)),("source_state_revision",.int c.stateRevision),
    ("committed_revision",.int (c.stateRevision + 1 : ℕ)),("actor_class",.str q.actorClass)]
  timestamp := q.now

def executeResume (db : Database) (q : ResumeRequest) : Outcome (Database × ScopeCursor) := do
  let c ← need db.cursor "CURSOR_NOT_FOUND"
    ("Cannot resume project '" ++ db.projectId ++ "': cursor not found")
  require (∀ e ∈ q.expectedPriorEpoch, e = c.scopeEpoch) "STALE_RESUME_EPOCH" ("Cannot resume from epoch " ++
    naturalText (q.expectedPriorEpoch.getD 0) ++ ": current epoch is " ++ naturalText c.scopeEpoch)
  let runId := nonEmptyOr (q.newRunId.getD "") c.runId
  let resumed : ScopeCursor :=
    { c with runId := runId, scopeEpoch := c.scopeEpoch + 1, stateRevision := c.stateRevision + 1,
             disposition := if c.disposition = "WAITING_FOR_PLAN" then "WAITING_FOR_PLAN" else "INITIALIZED",
             status := "ACTIVE", stopRequestedAt := none, stopReason := none }
  let done ← ({ db with cursor := some resumed } : Database).appendEvent (resumeEvent c runId q)
  pure (done,resumed)

/-- Commits a successful transaction. -/
def commit {α : Type} (db : Database) (o : Outcome (Database × α)) : Database × Outcome α :=
  match o with
  | .ok (db', a) => (db',.ok a)
  | .error f => (db,.error f)

def stop (db : Database) (q : StopRequest) : Database × Outcome (StopFenceRecord × Bool) :=
  db.commit (db.executeStop q)

def resume (db : Database) (q : ResumeRequest) : Database × Outcome ScopeCursor :=
  db.commit (db.executeResume q)

theorem stop_cases (db : Database) (q : StopRequest) :
    (db.stop q).1 = db ∨ ∃ c fences audit, db.cursor = some c ∧
      db.fences.insert (db.stopFence c q) = some fences ∧ db.fenceOf c.scopeEpoch = none ∧
      db.audit.insert (stopEvent c (db.stopFence c q) q) = some audit ∧
      (db.stop q).1 =
        { db with
          intents := db.intents.change (·.stop q.now) q.stop_intentId
          fences := fences
          cursor := some { c with stateRevision := c.stateRevision + 1, disposition := "STOPPED",
                                  status := "STOPPED", stopRequestedAt := some q.now,
                                  stopReason := some q.reason }
          audit := audit } := by
  unfold stop commit
  split
  · rename_i db' a h
    unfold executeStop at h
    obtain ⟨c,hc,h⟩ := of_need h
    split at h
    · cases pure_ok.mp h
      exact .inl rfl
    · obtain ⟨_,_,h⟩ := rest₂ h
      dsimp only at h
      split at h
      · split at h
        · cases pure_ok.mp h
          exact .inl rfl
        · cases h
      · rename_i fences hfences
        obtain ⟨done,hdone,h⟩ := bind_ok.mp h
        obtain ⟨audit,haudit,rfl⟩ := appendEvent_ok hdone
        cases pure_ok.mp h
        unfold insertFence at hfences
        split at hfences
        · cases hfences
        · rename_i hnew
          exact .inr ⟨c,fences,audit,hc,hfences,by simpa [stopFence] using hnew,haudit,rfl⟩
  · exact .inl rfl

theorem resume_cases (db : Database) (q : ResumeRequest) :
    (db.resume q).1 = db ∨ ∃ c c' audit, db.cursor = some c ∧ c'.scopeEpoch = c.scopeEpoch + 1 ∧
      (∃ runId, db.audit.insert (resumeEvent c runId q) = some audit) ∧
      (db.resume q).1 = { db with cursor := some c', audit := audit } := by
  unfold resume commit
  split
  · rename_i db' a h
    unfold executeResume at h
    obtain ⟨c,hc,h⟩ := of_need h
    obtain ⟨_,h⟩ := rest_ok h
    dsimp only at h
    obtain ⟨done,hdone,h⟩ := bind_ok.mp h
    obtain ⟨audit,haudit,rfl⟩ := appendEvent_ok hdone
    cases pure_ok.mp h
    exact .inr ⟨c,_,audit,hc,rfl,⟨_,haudit⟩,rfl⟩
  · exact .inl rfl

end Database

end Bdb.Continuation
