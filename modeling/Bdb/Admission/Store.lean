import Bdb.Base.Interleaving
import Bdb.Base.PyText

/-! # Admission of submissions

The canonical store admits a submission in one write transaction, behind a switch that is a row of the same database.
A browser keeps its submissions in an outbox, which is another database: there an entry is read and changed by
separate statements, and each of them is committed by itself.
-/
namespace Bdb.Admission

/-! ## Requests -/

/-- What a submission asks for. -/
structure Payload where
  submissionKey : String
  intentRevision : String
  intent : Fields
  conversationBinding : Fields
  consumerBinding : Fields
  taskId : Option String
  expectedIntentRevisionId : Option String
deriving DecidableEq

/-- A submission, with the digest its caller claims for it. -/
structure SubmissionRequest where
  payload : Payload
  requestDigest : Option String
deriving DecidableEq

structure Digests where
  request : Payload → String
  /-- The task identifier of a submission key. -/
  task : String → String
  intent : String → Fields → String
  revision : String → String → String → String

variable (dg : Digests)

def optionText : Option String → Json
  | some s => .str s
  | none => .null

def SubmissionRequest.validatedDigest (r : SubmissionRequest) : Outcome String :=
  let computed := dg.request r.payload
  match r.requestDigest with
  | none => .ok computed
  | some claimed =>
    if claimed = computed then .ok computed
    else .error ⟨"digest_mismatch","claimed request digest does not match canonical request bytes",
      [("claimed",.str claimed),("computed",.str computed)]⟩

/-! ## Tables -/

/-- An accepted submission is bound to one task and one intent revision of it, a tombstone to neither. -/
inductive Disposition where
  | accepted (taskId intentRevisionId : String)
  | tombstoned (reason : String)
deriving DecidableEq

structure Submission where
  submissionKey : String
  requestDigest : String
  disposition : Disposition
deriving DecidableEq

structure Task where
  taskId : String
  submissionKey : String
  intentRevisionId : String
  intentRevision : String
  intentDigest : String
  conversationBinding : Fields
  consumerBinding : Fields
deriving DecidableEq

structure IntentRevision where
  intentRevisionId : String
  taskId : String
  intentRevision : String
  intentDigest : String
  intent : Fields
deriving DecidableEq

structure ConsumerBinding where
  submissionKey : String
  conversationBinding : Fields
  consumerBinding : Fields
deriving DecidableEq

inductive AdmissionOutcome where
  | published
  | replay
deriving DecidableEq

structure Receipt where
  submissionKey : String
  requestDigest : String
  disposition : Disposition
  outcome : AdmissionOutcome
deriving DecidableEq

inductive OutboxState where
  | pending
  | sent
  | acked
deriving DecidableEq

structure OutboxEntry where
  submissionKey : String
  requestDigest : String
  payload : Payload
  state : OutboxState
  receipt : Option Receipt
deriving DecidableEq

/-- The canonical tables with the switch, and the outbox. -/
structure Databases where
  submissions : List Submission
  tasks : List Task
  intentRevisions : List IntentRevision
  consumerBindings : List ConsumerBinding
  admissionEnabled : Bool
  outbox : List OutboxEntry
deriving DecidableEq

def Databases.opened (admissionEnabled : Bool) : Databases := ⟨[],[],[],[],admissionEnabled,[]⟩

/-! ## Transactions of the canonical store -/

/-- Where a call is made to fail. -/
inductive Fault where
  | none
  | busy
  | beforeCommit
  | afterCommit
deriving DecidableEq

namespace Databases

variable (db : Databases)

def existing (submissionKey : String) : Option Submission :=
  db.submissions.find? (·.submissionKey == submissionKey)

def task (taskId : String) : Option Task := db.tasks.find? (·.taskId == taskId)

def insertSubmission (x : Submission) : Option Databases :=
  if ∀ y ∈ db.submissions, y.submissionKey ≠ x.submissionKey then
    some { db with submissions := db.submissions ++ [x] }
  else none

def insertTask (x : Task) : Option Databases :=
  if ∀ y ∈ db.tasks, y.taskId ≠ x.taskId ∧ y.submissionKey ≠ x.submissionKey then
    some { db with tasks := db.tasks ++ [x] }
  else none

def insertIntentRevision (x : IntentRevision) : Option Databases :=
  if ∀ y ∈ db.intentRevisions, y.intentRevisionId ≠ x.intentRevisionId ∧ y.taskId ≠ x.taskId then
    some { db with intentRevisions := db.intentRevisions ++ [x] }
  else none

def insertConsumerBinding (x : ConsumerBinding) : Option Databases :=
  if ∀ y ∈ db.consumerBindings, y.submissionKey ≠ x.submissionKey then
    some { db with consumerBindings := db.consumerBindings ++ [x] }
  else none

end Databases

def Submission.receipt (x : Submission) (outcome : AdmissionOutcome) : Receipt :=
  ⟨x.submissionKey,x.requestDigest,x.disposition,outcome⟩

def Payload.task (p : Payload) : String := p.taskId.getD (dg.task p.submissionKey)

def Payload.intentDigest (p : Payload) : String := dg.intent p.intentRevision p.intent

def Payload.revision (p : Payload) : String := dg.revision (p.task dg) p.intentRevision (p.intentDigest dg)

/-- The four rows of an accepted submission. A broken constraint undoes all of them. -/
def Databases.insertAccepted (p : Payload) (requestDigest : String) (db : Databases) : Option Databases := do
  let taskId := p.task dg
  let intentDigest := p.intentDigest dg
  let intentRevisionId := p.revision dg
  let db ← db.insertSubmission ⟨p.submissionKey,requestDigest,.accepted taskId intentRevisionId⟩
  let db ← db.insertTask
    ⟨taskId,p.submissionKey,intentRevisionId,p.intentRevision,intentDigest,p.conversationBinding,p.consumerBinding⟩
  let db ← db.insertIntentRevision ⟨intentRevisionId,taskId,p.intentRevision,intentDigest,p.intent⟩
  db.insertConsumerBinding ⟨p.submissionKey,p.conversationBinding,p.consumerBinding⟩

def checkExisting (x : Submission) (requestDigest : String) : Outcome Receipt :=
  if x.requestDigest ≠ requestDigest then
    .error ⟨"submission_conflict","submission key is already bound to a different canonical request",
      [("submission_key",.str x.submissionKey),("stored_digest",.str x.requestDigest),("received_digest",.str requestDigest)]⟩
  else
    match x.disposition with
    | .tombstoned _ => fail "tombstone_conflict" "effectful tombstone is retained for this submission key"
    | .accepted _ _ => .ok (x.receipt .replay)

def checkTask (p : Payload) (t : Option Task) : Outcome Unit :=
  match t with
  | some t =>
    if p.expectedIntentRevisionId ≠ some t.intentRevisionId then
      .error ⟨"stale_intent_revision","request expected an intent revision other than the current Task revision",
        [("task_id",.str (p.task dg)),("expected",optionText p.expectedIntentRevisionId),("current",.str t.intentRevisionId)]⟩
    else fail "task_conflict" "Task identity is already owned by another submission"
  | none =>
    if p.expectedIntentRevisionId ≠ none then
      .error ⟨"stale_intent_revision","expected intent revision cannot be satisfied for a new Task",
        [("expected",optionText p.expectedIntentRevisionId)]⟩
    else .ok ()

def Databases.admission (r : SubmissionRequest) (fault : Fault) (db : Databases) : Outcome (Databases × Receipt) := do
  let requestDigest ← r.validatedDigest dg
  require (fault ≠ .busy) "database_busy" "vNext Control DB is busy"
  require (db.admissionEnabled = true) "admission_disabled" "vNext admission is disabled by the kill switch"
  match db.existing r.payload.submissionKey with
  | some x =>
    let receipt ← checkExisting x requestDigest
    return (db,receipt)
  | none =>
    checkTask dg r.payload (db.task (r.payload.task dg))
    let db' ← need (db.insertAccepted dg r.payload requestDigest) "admission_conflict"
      "atomic admission encountered a uniqueness conflict"
    require (fault ≠ .beforeCommit) "simulated_crash_before_commit" "fault injected before transaction commit"
    return (db',⟨r.payload.submissionKey,requestDigest,.accepted (r.payload.task dg) (r.payload.revision dg),.published⟩)

def Databases.admitRequest (r : SubmissionRequest) (fault : Fault) (db : Databases) : Databases × Outcome Receipt :=
  match db.admission dg r fault with
  | .error e => (db,.error e)
  | .ok (db',receipt) =>
    if fault = .afterCommit ∧ receipt.outcome = .published then
      (db',fail "simulated_response_loss_after_commit" "fault injected after durable commit")
    else (db',.ok receipt)

def Databases.burial (r : SubmissionRequest) (reason : String) (busy : Bool) (db : Databases) :
    Outcome (Databases × Receipt) := do
  require (strip reason ≠ "" ∧ reason.length ≤ 256) "invalid_tombstone" "tombstone reason must be bounded and non-empty"
  let digest ← r.validatedDigest dg
  require (busy = false) "database_busy" "vNext Control DB is busy"
  match db.existing r.payload.submissionKey with
  | some x =>
    require (x.requestDigest = digest) "submission_conflict" "tombstone key is already bound to another digest"
    match x.disposition with
    | .tombstoned _ => return (db,x.receipt .replay)
    | .accepted _ _ => fail "tombstone_conflict" "an accepted submission cannot be rewritten as a tombstone"
  | none =>
    let row : Submission := ⟨r.payload.submissionKey,digest,.tombstoned reason⟩
    let db' ← need (db.insertSubmission row) "sqlite_write_failed" "M3a tombstone could not commit"
    return (db',row.receipt .published)

def Databases.tombstone (r : SubmissionRequest) (reason : String) (busy : Bool) (db : Databases) :
    Databases × Outcome Receipt :=
  match db.burial dg r reason busy with
  | .error e => (db,.error e)
  | .ok (db',receipt) => (db',.ok receipt)

/-! ## Statements of the outbox -/

namespace Databases

variable (db : Databases)

def row (submissionKey : String) : Option OutboxEntry := db.outbox.find? (·.submissionKey == submissionKey)

/-- The transaction that keeps a submission before it is sent. -/
def prepare (p : Payload) (requestDigest : String) (maxEntries : ℕ) : Databases × Outcome OutboxEntry :=
  match db.row p.submissionKey with
  | some e =>
    if e.requestDigest = requestDigest then (db,.ok e)
    else (db,fail "submission_conflict" "outbox key is bound to a different canonical digest")
  | none =>
    if maxEntries ≤ db.outbox.length then (db,fail "outbox_quota" "Browser outbox quota is full")
    else
      let e : OutboxEntry := ⟨p.submissionKey,requestDigest,p,.pending,none⟩
      ({ db with outbox := db.outbox ++ [e] },.ok e)

def updateEntry (submissionKey : String) (f : OutboxEntry → OutboxEntry) : Databases :=
  { db with outbox := db.outbox.map fun e => if e.submissionKey = submissionKey then f e else e }

/-- The entry becomes sent, whatever it is now. -/
def setSent (submissionKey : String) : Databases := db.updateEntry submissionKey fun e => { e with state := .sent }

def setAcked (submissionKey : String) (receipt : Receipt) : Databases :=
  db.updateEntry submissionKey fun e => { e with state := .acked, receipt := some receipt }

end Databases

/-! ## Requests to the databases -/

/-- A statement that is committed by itself, or a whole write transaction. -/
inductive AdmissionRequest where
  | killSwitch
  | existing (submissionKey : String)
  | admitRequest (r : SubmissionRequest) (fault : Fault)
  | tombstone (r : SubmissionRequest) (reason : String) (busy : Bool)
  | setIntake (enabled : Bool)
  | prepare (p : Payload) (requestDigest : String) (maxEntries : ℕ)
  | row (submissionKey : String)
  | setSent (submissionKey : String)
  | setAcked (submissionKey : String) (receipt : Receipt)

namespace AdmissionRequest

def Answer : AdmissionRequest → Type
  | killSwitch => Bool
  | existing _ => Option Submission
  | admitRequest _ _ => Outcome Receipt
  | tombstone _ _ _ => Outcome Receipt
  | setIntake _ => Unit
  | prepare _ _ _ => Outcome OutboxEntry
  | row _ => Option OutboxEntry
  | setSent _ => Unit
  | setAcked _ _ => Unit

def perform : (q : AdmissionRequest) → Databases → Databases × q.Answer
  | killSwitch, db => (db,db.admissionEnabled)
  | existing key, db => (db,db.existing key)
  | admitRequest r fault, db => db.admitRequest dg r fault
  | tombstone r reason busy, db => db.tombstone dg r reason busy
  | setIntake enabled, db => ({ db with admissionEnabled := enabled },())
  | prepare p digest maxEntries, db => db.prepare p digest maxEntries
  | row key, db => (db,db.row key)
  | setSent key, db => (db.setSent key,())
  | setAcked key receipt, db => (db.setAcked key receipt,())

end AdmissionRequest

abbrev AdmissionScript := Script AdmissionRequest AdmissionRequest.Answer

def ask (q : AdmissionRequest) : AdmissionScript q.Answer := Script.request q

/-! ## Calls -/

/-- What a call gives back. -/
inductive Result where
  | failed (e : Failure)
  | receipt (r : Receipt)
  | missing
  | intake (enabled : Bool)

def failing (code message : String) : Result := .failed ⟨code,message,[]⟩

inductive CrashPoint where
  | none
  | afterOutboxBeforeSend
  | afterSendBeforeAck
deriving DecidableEq

/-- Admission by the authority: the switch is read before the transaction, and again inside of it. -/
def admitRequest (r : SubmissionRequest) (fault : Fault) : AdmissionScript (Outcome Receipt) := do
  let enabled : Bool ← ask .killSwitch
  if enabled then ask (.admitRequest r fault)
  else return fail "admission_disabled" "vNext admission is disabled by the kill switch"

def lookup (submissionKey requestDigest : String) : AdmissionScript Result := do
  match ← ask (.existing submissionKey) with
  | none => return .missing
  | some x =>
    if x.requestDigest ≠ requestDigest then
      return .failed ⟨"submission_conflict","canonical lookup found a different digest for the same key",
        [("stored_digest",.str x.requestDigest),("received_digest",.str requestDigest)]⟩
    else return .receipt (x.receipt .replay)

def markSent (submissionKey : String) : AdmissionScript (Outcome Unit) := do
  match ← ask (.row submissionKey) with
  | none => return fail "outbox_missing" "submission has no durable outbox entry"
  | some e =>
    if e.state = .acked then return .ok ()
    else
      ask (.setSent submissionKey)
      return .ok ()

def markAcked (submissionKey : String) (receipt : Receipt) : AdmissionScript Result := do
  if receipt.submissionKey ≠ submissionKey then
    return failing "ack_identity_mismatch" "canonical ACK key differs from outbox key"
  else
    match ← ask (.row submissionKey) with
    | none => return failing "outbox_missing" "cannot acknowledge a missing outbox entry"
    | some e =>
      if e.requestDigest ≠ receipt.requestDigest then
        return failing "ack_digest_mismatch" "canonical ACK digest differs from outbox digest"
      else
        ask (.setAcked submissionKey receipt)
        return .receipt receipt

def recover (submissionKey : String) : AdmissionScript Result := do
  match ← ask (.row submissionKey) with
  | none => return failing "anchor_lost" "Browser cannot recover a submission without its durable outbox anchor"
  | some e =>
    match e.receipt with
    | some receipt => return .receipt receipt
    | none =>
      match ← lookup e.payload.submissionKey e.requestDigest with
      | .receipt receipt => markAcked submissionKey receipt
      | other => return other

def deliver (r : SubmissionRequest) (submissionKey : String) (crash : CrashPoint) (busy : Bool) : AdmissionScript Result := do
  match ← markSent submissionKey with
  | .error e => return .failed e
  | .ok _ =>
    if crash = .afterOutboxBeforeSend then
      return failing "simulated_browser_crash_before_send" "fault injected after durable outbox write"
    else
      match ← admitRequest r (if busy then .busy else .none) with
      | .error e => return .failed e
      | .ok receipt =>
        if crash = .afterSendBeforeAck then
          return failing "ack_lost" "Native transport lost the ACK after canonical admission"
        else markAcked submissionKey receipt

def submit (r : SubmissionRequest) (crash : CrashPoint) (busy : Bool) (maxEntries : ℕ) : AdmissionScript Result :=
  match r.validatedDigest dg with
  | .error e => return .failed e
  | .ok requestDigest => do
    match ← ask (.prepare r.payload requestDigest maxEntries) with
    | .error e => return .failed e
    | .ok prepared =>
      match prepared.state with
      | .acked =>
        match prepared.receipt with
        | some receipt => return .receipt receipt
        | none => return failing "outbox_corrupt" "ACKED outbox entry has no receipt"
      | .sent =>
        -- an earlier send may have been admitted while its acknowledgement was lost
        match ← recover r.payload.submissionKey with
        | .missing => deliver r r.payload.submissionKey crash busy
        | other => return other
      | .pending => deliver r r.payload.submissionKey crash busy

def retry (submissionKey : String) (busy : Bool) : AdmissionScript Result := do
  match ← ask (.row submissionKey) with
  | none => return failing "anchor_lost" "Browser cannot retry without a durable submission anchor"
  | some e =>
    match ← recover submissionKey with
    | .missing => deliver ⟨e.payload,some e.requestDigest⟩ submissionKey .none busy
    | other => return other

def answered : Outcome Receipt → Result
  | .error e => .failed e
  | .ok receipt => .receipt receipt

def setIntake (enabled busy : Bool) : AdmissionScript Result := do
  if busy then return failing "database_busy" "vNext Control DB is busy"
  else
    ask (.setIntake enabled)
    return .intake enabled

inductive AdmissionCall where
  | submit (r : SubmissionRequest) (crash : CrashPoint) (busy : Bool) (maxEntries : ℕ)
  | recover (submissionKey : String)
  | retry (submissionKey : String) (busy : Bool)
  | admitRequest (r : SubmissionRequest) (fault : Fault)
  | tombstone (r : SubmissionRequest) (reason : String) (busy : Bool)
  | lookup (submissionKey requestDigest : String)
  | setIntake (enabled busy : Bool)

def AdmissionCall.script : AdmissionCall → AdmissionScript Result
  | .submit r crash busy maxEntries => Admission.submit dg r crash busy maxEntries
  | .recover key => Admission.recover key
  | .retry key busy => Admission.retry key busy
  | .admitRequest r fault => do return answered (← Admission.admitRequest r fault)
  | .tombstone r reason busy => do return answered (← ask (.tombstone r reason busy))
  | .lookup key digest => Admission.lookup key digest
  | .setIntake enabled busy => Admission.setIntake enabled busy

/-- The databases, what was done to them, and the calls under way. -/
abbrev AdmissionState := Shared Databases AdmissionRequest.Answer Result

def admissionRun (enabled : Bool) (moves : List (Move AdmissionCall)) : AdmissionState :=
  Shared.run (AdmissionRequest.perform dg) (AdmissionCall.script dg) (Shared.begin (.opened enabled)) moves

end Bdb.Admission
