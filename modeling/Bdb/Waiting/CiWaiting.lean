import Bdb.Base.Interleaving
import Bdb.Base.JsonText
import Bdb.Base.Sha256

/-! # Waiting for a CI run

A task waits for one CI run at a time. Its wait record is read, the provider is asked for an
observation, and the observation is written: other controllers may act in between. The
observation goes into the history before it is judged, and only the judgements that change
the record commit.
-/
namespace Bdb.Waiting

/-- Seconds as floating-point numbers, with operations that may round. -/
class Timestamps (T : Type) extends LinearOrder T where
  zero : T
  plus : T → T → T
  minus : T → T → T
  times : T → T → T
  power : T → ℕ → T
  /-- The reading that comes back from the text of this one. -/
  stored : T → T
  isoformat : T → String
  oneDecimal : T → String

instance : Timestamps ℤ where
  zero := 0
  plus := (· + ·)
  minus := (· - ·)
  times := (· * ·)
  power := (· ^ ·)
  stored := id
  isoformat := toString
  oneDecimal := toString

/-! ## Observations -/

inductive CIStatus where
  | queued
  | inProgress
  | success
  | failure
  | cancelled
  | timedOut
  | unknown
deriving DecidableEq

namespace CIStatus

def value : CIStatus → String
  | queued => "QUEUED"
  | inProgress => "IN_PROGRESS"
  | success => "SUCCESS"
  | failure => "FAILURE"
  | cancelled => "CANCELLED"
  | timedOut => "TIMED_OUT"
  | unknown => "UNKNOWN"

def isPending (s : CIStatus) : Bool := s ∈ [queued,inProgress]

def isTerminal (s : CIStatus) : Bool := s ∈ [success,failure,cancelled,timedOut]

theorem isPending_not_terminal {s : CIStatus} (h : s.isPending = true) : s.isTerminal = false := by
  cases s <;> simp_all [isPending,isTerminal]

end CIStatus

structure CIObservation where
  version : String
  projectId : String
  runId : String
  taskId : String
  provider : String
  workflow : String
  ciRunId : String
  ciRunUrl : Option String
  expectedHead : String
  observedHead : String
  status : CIStatus
  observedAt : String
  pollId : String
  evidenceDigest : String
  rawDetails : Fields
deriving DecidableEq

/-- What a provider is asked for. -/
structure FetchObservation where
  projectId : String
  runId : String
  taskId : String
  provider : String
  workflow : String
  ciRunId : String
  expectedHead : String
  pollCount : ℕ
  currentTimeIso : String

def ciObservationVersion : String := "1.0.0"

/-- The first sixteen digits of a hash, after a tag. -/
def shortDigest (tag seed : String) : String := tag ++ String.ofList ((Sha256.sha256 seed.toList).toList.take 16)

def createCiObservation (asked : FetchObservation) (ciRunUrl : Option String) (observedHead : String)
    (status : CIStatus) (observedAt : String) (rawDetails : Fields) : CIObservation :=
  let pollId := shortDigest "poll-" (asked.projectId ++ ":" ++ asked.taskId ++ ":" ++ asked.ciRunId ++ ":" ++
    toString asked.pollCount ++ ":" ++ observedAt)
  let payload : Json := .obj [
    ("version",.str ciObservationVersion),
    ("project_id",.str asked.projectId),
    ("run_id",.str asked.runId),
    ("task_id",.str asked.taskId),
    ("provider",.str asked.provider),
    ("workflow",.str asked.workflow),
    ("ci_run_id",.str asked.ciRunId),
    ("ci_run_url",ciRunUrl.elim .null .str),
    ("expected_head",.str asked.expectedHead),
    ("observed_head",.str observedHead),
    ("status",.str status.value),
    ("poll_id",.str pollId),
    ("raw_details",.obj rawDetails)]
  { version := ciObservationVersion
    projectId := asked.projectId
    runId := asked.runId
    taskId := asked.taskId
    provider := asked.provider
    workflow := asked.workflow
    ciRunId := asked.ciRunId
    ciRunUrl := ciRunUrl
    expectedHead := asked.expectedHead
    observedHead := observedHead
    status := status
    observedAt := observedAt
    pollId := pollId
    evidenceDigest := "sha256:" ++ Sha256.sha256 (Json.text (Json.canon payload))
    rawDetails := rawDetails }

inductive Fetched where
  | observation (obs : CIObservation)
  | timedOut (message : String)
  | raised

/-- A provider may answer whatever it is asked for with any observation, or raise. -/
abbrev CIProviderAdapter := FetchObservation → Fetched

/-- The answer of the synthetic provider, whose script says only a status and a head. -/
def FakeCIProvider (status : CIStatus) (observedHead : String) : CIProviderAdapter := fun asked =>
  .observation (createCiObservation asked
    (some ("https://ci.example.com/" ++ asked.provider ++ "/" ++ asked.workflow ++ "/" ++ asked.ciRunId))
    observedHead status asked.currentTimeIso [])

/-! ## Records -/

/-- The project and the task that the calls are about. -/
structure WaitKey where
  projectId : String
  taskId : String

/-- The last observed status is absent until something is observed. -/
structure CIWaitRecord (T : Type) where
  waitId : String
  projectId : String
  runId : String
  taskId : String
  provider : String
  workflow : String
  ciRunId : String
  ciRunUrl : Option String
  expectedHead : String
  status : CIStatus
  lastObservedStatus : Option CIStatus
  lastObservedHead : Option String
  lastObservedAt : Option String
  nextPollAt : Option T
  pollCount : ℕ
  unchangedCount : ℕ
  currentIntervalSeconds : T
  deadlineAt : T
  evidenceDigest : Option String
  continuationEmitted : ℕ
deriving DecidableEq

structure ObservationRow where
  pollId : String
  waitId : String
  projectId : String
  taskId : String
  provider : String
  workflow : String
  ciRunId : String
  observedHead : String
  status : CIStatus
  evidenceDigest : String
  observedAt : String
deriving DecidableEq

/-- What a run is known by. -/
structure CIIdentity where
  provider : String
  workflow : String
  ciRunId : String
  head : String
deriving DecidableEq

def CIWaitRecord.identity {T : Type} (w : CIWaitRecord T) : CIIdentity :=
  ⟨w.provider,w.workflow,w.ciRunId,w.expectedHead⟩

def CIObservation.identity (o : CIObservation) : CIIdentity := ⟨o.provider,o.workflow,o.ciRunId,o.observedHead⟩

/-! ## The database

A connection whose first write was refused stays in a transaction that it began but does not
hold; what it reads next it goes on seeing, and it can write only while that is what is
committed.
-/

structure Rows (T : Type) where
  wait : Option (CIWaitRecord T)
  history : List ObservationRow

/-- The uncommitted history rows of the connection that holds the write lock. -/
structure Writer where
  connection : ℕ
  rows : List ObservationRow
deriving DecidableEq

inductive Session (T : Type) where
  | idle
  | begun
  | reading (wait : Option (CIWaitRecord T)) (version : ℕ)

structure Database (T : Type) where
  rows : Rows T
  version : ℕ
  writer : Option Writer
  sessions : ℕ → Session T

inductive DatabaseError where
  | locked
  | integrity
deriving DecidableEq

variable {T : Type}

namespace Database

/-- A database without a wait record that nobody is writing to. -/
def fresh (history : List ObservationRow) : Database T := ⟨⟨none,history⟩,0,none,fun _ => .idle⟩

def writable (db : Database T) (c : ℕ) : Option (List ObservationRow) :=
  match db.writer with
  | some w => if w.connection = c then some w.rows else none
  | none =>
    match db.sessions c with
    | .reading _ version => if version = db.version then some [] else none
    | _ => some []

/-- The first write of a transaction is refused. -/
def refuse (db : Database T) (c : ℕ) : Database T :=
  { db with sessions := Function.update db.sessions c (match db.sessions c with
    | .idle => .begun
    | s => s) }

/-- The transaction stays open. -/
def hold (db : Database T) (c : ℕ) (rows : List ObservationRow) : Database T :=
  { db with
    writer := some ⟨c,rows⟩
    sessions := Function.update db.sessions c .idle }

def commit (db : Database T) (c : ℕ) (wait : Option (CIWaitRecord T)) (rows : List ObservationRow) : Database T :=
  { rows := ⟨wait,db.rows.history ++ rows⟩
    version := db.version + 1
    writer := none
    sessions := Function.update db.sessions c .idle }

/-- The record as the connection sees it. -/
def getWaitRecord (db : Database T) (c : ℕ) : Database T × Option (CIWaitRecord T) :=
  match db.sessions c with
  | .idle => (db,db.rows.wait)
  | .begun => ({ db with sessions := Function.update db.sessions c (.reading db.rows.wait db.version) },db.rows.wait)
  | .reading wait _ => (db,wait)

def updated (db : Database T) (waitId : String) (f : CIWaitRecord T → CIWaitRecord T) : Option (CIWaitRecord T) :=
  db.rows.wait.map fun w => if w.waitId = waitId then f w else w

def write (db : Database T) (c : ℕ) (wait : Option (CIWaitRecord T)) : Database T × Except DatabaseError Unit :=
  match db.writable c with
  | none => (db.refuse c,.error .locked)
  | some rows => (db.commit c wait rows,.ok ())

end Database

end Bdb.Waiting
