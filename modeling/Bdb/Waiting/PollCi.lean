import Bdb.Waiting.CiWaiting

/-! # Registering and polling

A call is a program over the requests that a controller makes to the database: the read of
the record, and the write that follows what was read. The provider answers between the two.
-/
namespace Bdb.Waiting

open Timestamps Database

/-! ## Dispositions -/

inductive SemanticKind where
  | failure
  | waiting
  | policyPause
  | humanCheckpoint
deriving DecidableEq

inductive FailureClass where
  | projectRepairable
  | transientInfrastructure
  | ciWaiting
  | testInfraFailure
  | transportUncertain
  | environmentRepairable
  | sourceDivergence
  | policyViolation
  | securityViolation
  | dataCorruption
  | externalActionRequired
  | ambiguousFailure
  | phaseScopeViolation
  | earlyImplementation
deriving DecidableEq

inductive PollAction where
  | unknown
  | alreadyCompleted
  | alreadyFailed
  | timeout
  | pollDueLater
  | providerTimeout
  | waiting
  | wrongHeadRejected
  | wrongProviderRejected
  | wrongWorkflowRejected
  | staleRunRejected
  | continues
  | classifyFailure
deriving DecidableEq

def PollAction.isRejection (a : PollAction) : Bool :=
  a ∈ [.wrongHeadRejected,.wrongProviderRejected,.wrongWorkflowRejected,.staleRunRejected]

structure CIPollDisposition (T : Type) where
  action : PollAction
  observation : Option CIObservation
  semanticKind : SemanticKind
  failureClass : Option FailureClass
  nextPollInSeconds : Option T
  reason : String

/-- A database error, the provider's own error, or a record that is gone after its write. -/
inductive Raised where
  | database (e : DatabaseError)
  | provider
  | assertion
deriving DecidableEq

variable {T : Type} [Timestamps T]

structure CIWaitingController (T : Type) where
  connection : ℕ
  basePollInterval : T
  maxPollInterval : T
  backoffMultiplier : T
  defaultTimeoutSeconds : T

/-! ## Requests -/

inductive CIRequest (T : Type) where
  | getWaitRecord
  | register (row : CIWaitRecord T)
  | expire (wait : CIWaitRecord T) (now : T)
  | postpone (wait : CIWaitRecord T) (nextPollAt : T)
  | record (wait : CIWaitRecord T) (obs : CIObservation) (now : T)

/-- A request of a controller, over its connection. -/
structure ControllerRequest (T : Type) where
  controller : CIWaitingController T
  request : CIRequest T

abbrev CIRequest.Answer : CIRequest T → Type
  | .getWaitRecord => Option (CIWaitRecord T)
  | .register _ => Except DatabaseError Unit
  | .expire _ _ => Except DatabaseError Unit
  | .postpone _ _ => Except DatabaseError Unit
  | .record _ _ _ => Except DatabaseError (CIPollDisposition T)

abbrev ControllerRequest.Answer (q : ControllerRequest T) : Type := q.request.Answer

/-- `ON CONFLICT(project_id, task_id) DO UPDATE`: the row keeps its id and what was last seen. -/
def CIWaitRecord.upsert (row : CIWaitRecord T) : Option (CIWaitRecord T) → CIWaitRecord T
  | none => row
  | some w => { w with
      runId := row.runId
      provider := row.provider
      workflow := row.workflow
      ciRunId := row.ciRunId
      ciRunUrl := row.ciRunUrl
      expectedHead := row.expectedHead
      status := .queued
      lastObservedStatus := none
      nextPollAt := row.nextPollAt
      pollCount := 0
      unchangedCount := 0
      deadlineAt := row.deadlineAt
      continuationEmitted := 0 }

namespace CIWaitingController

variable (key : WaitKey) (ctl : CIWaitingController T) (wait : CIWaitRecord T) (obs : CIObservation) (now : T)

def observationRow : ObservationRow where
  pollId := obs.pollId
  waitId := wait.waitId
  projectId := key.projectId
  taskId := key.taskId
  provider := obs.provider
  workflow := obs.workflow
  ciRunId := obs.ciRunId
  observedHead := obs.observedHead
  status := obs.status
  evidenceDigest := obs.evidenceDigest
  observedAt := obs.observedAt

def newUnchanged : ℕ :=
  if 0 < wait.pollCount ∧ some obs.status = wait.lastObservedStatus then wait.unchangedCount + 1 else 0

def interval : T :=
  min ctl.maxPollInterval
    (times ctl.basePollInterval (power ctl.backoffMultiplier (min (newUnchanged wait obs) 3)))

/-- What a pending observation sets. -/
def waitingOn (w : CIWaitRecord T) : CIWaitRecord T :=
  { w with
    status := obs.status
    lastObservedStatus := some obs.status
    lastObservedHead := some obs.observedHead
    lastObservedAt := some obs.observedAt
    nextPollAt := some (stored (plus now (ctl.interval wait obs)))
    pollCount := wait.pollCount + 1
    unchangedCount := newUnchanged wait obs
    currentIntervalSeconds := ctl.interval wait obs
    evidenceDigest := some obs.evidenceDigest }

def succeeded (w : CIWaitRecord T) : CIWaitRecord T :=
  { w with
    status := .success
    lastObservedStatus := some .success
    lastObservedHead := some obs.observedHead
    lastObservedAt := some obs.observedAt
    nextPollAt := none
    pollCount := wait.pollCount + 1
    continuationEmitted := 1
    evidenceDigest := some obs.evidenceDigest }

/-- What any other observation sets, an unknown status among them. -/
def ended (w : CIWaitRecord T) : CIWaitRecord T :=
  { w with
    status := obs.status
    lastObservedStatus := some obs.status
    lastObservedHead := some obs.observedHead
    lastObservedAt := some obs.observedAt
    nextPollAt := none
    pollCount := wait.pollCount + 1
    evidenceDigest := some obs.evidenceDigest }

/-- The first of the four comparisons of a success that fails. -/
def rejection : Option (PollAction × FailureClass × String) :=
  if obs.observedHead ≠ wait.expectedHead then
    some (.wrongHeadRejected,.sourceDivergence,
      "SUCCESS reported for mismatched HEAD (" ++ obs.observedHead ++ " != expected " ++ wait.expectedHead ++ ")")
  else if obs.provider ≠ wait.provider then
    some (.wrongProviderRejected,.policyViolation,
      "SUCCESS reported for unexpected provider (" ++ obs.provider ++ " != expected " ++ wait.provider ++ ")")
  else if obs.workflow ≠ wait.workflow then
    some (.wrongWorkflowRejected,.policyViolation,
      "SUCCESS reported for unexpected workflow (" ++ obs.workflow ++ " != expected " ++ wait.workflow ++ ")")
  else if obs.ciRunId ≠ wait.ciRunId then
    some (.staleRunRejected,.sourceDivergence,
      "SUCCESS reported for stale run ID (" ++ obs.ciRunId ++ " != expected " ++ wait.ciRunId ++ ")")
  else none

/-- The insert into the history, and what follows the status of the observation. A rejection
returns with the transaction open, and so does a poll id that is there already. -/
def recordObservation (db : Database T) : Database T × Except DatabaseError (CIPollDisposition T) :=
  match db.writable ctl.connection with
  | none => (db.refuse ctl.connection,.error .locked)
  | some pending =>
    if obs.pollId ∈ (db.rows.history ++ pending).map (·.pollId) then
      (db.hold ctl.connection pending,.error .integrity)
    else
      let rows := pending ++ [observationRow key wait obs]
      if obs.status.isPending = true then
        (db.commit ctl.connection (db.updated wait.waitId (ctl.waitingOn wait obs now)) rows,
          .ok ⟨.waiting,some obs,.waiting,some .ciWaiting,some (ctl.interval wait obs),
            "CI run is " ++ obs.status.value ++ "; waiting for next poll in " ++
              oneDecimal (ctl.interval wait obs) ++ "s"⟩)
      else if obs.status = .success then
        match rejection wait obs with
        | some (action,failureClass,reason) =>
          (db.hold ctl.connection rows,.ok ⟨action,some obs,.failure,some failureClass,none,reason⟩)
        | none =>
          (db.commit ctl.connection (db.updated wait.waitId (succeeded wait obs)) rows,
            .ok ⟨.continues,some obs,.waiting,none,none,
              "CI run succeeded matching exact provider, workflow, run ID, and expected HEAD"⟩)
      else
        (db.commit ctl.connection (db.updated wait.waitId (ended wait obs)) rows,
          .ok ⟨.classifyFailure,some obs,.failure,some .projectRepairable,none,
            "CI run ended in terminal failure: " ++ obs.status.value⟩)

end CIWaitingController

open CIWaitingController

def ControllerRequest.perform (key : WaitKey) : (q : ControllerRequest T) → Database T → Database T × q.Answer
  | ⟨ctl,.getWaitRecord⟩, db => db.getWaitRecord ctl.connection
  | ⟨ctl,.register row⟩, db => db.write ctl.connection (some (row.upsert db.rows.wait))
  | ⟨ctl,.expire wait _⟩, db =>
    db.write ctl.connection (db.updated wait.waitId fun w => { w with status := .timedOut })
  | ⟨ctl,.postpone wait nextPollAt⟩, db =>
    db.write ctl.connection (db.updated wait.waitId fun w => { w with nextPollAt := some nextPollAt })
  | ⟨ctl,.record wait obs now⟩, db => recordObservation key ctl wait obs now db

/-! ## Calls -/

structure RegisterCiWait (T : Type) where
  runId : String
  provider : String
  workflow : String
  ciRunId : String
  expectedHead : String
  ciRunUrl : Option String
  timeoutSeconds : Option T
  now : T

structure PollCi (T : Type) where
  now : T
  force : Bool
  adapter : CIProviderAdapter

inductive CICall (T : Type) where
  | registerCiWait (ctl : CIWaitingController T) (args : RegisterCiWait T)
  | pollCi (ctl : CIWaitingController T) (args : PollCi T)

inductive CIResult (T : Type) where
  | registered (wait : CIWaitRecord T)
  | polled (d : CIPollDisposition T)
  | raised (e : Raised)

abbrev CIProgram (T : Type) := Script (ControllerRequest T) ControllerRequest.Answer (CIResult T)

def timeoutOr (t : Option T) (default : T) : T :=
  match t with
  | some t => if t = zero then default else t
  | none => default

def waitRow (key : WaitKey) (ctl : CIWaitingController T) (args : RegisterCiWait T) : CIWaitRecord T where
  waitId := shortDigest "ciw-" (key.projectId ++ ":" ++ key.taskId ++ ":" ++ args.ciRunId)
  projectId := key.projectId
  runId := args.runId
  taskId := key.taskId
  provider := args.provider
  workflow := args.workflow
  ciRunId := args.ciRunId
  ciRunUrl := args.ciRunUrl
  expectedHead := args.expectedHead
  status := .queued
  lastObservedStatus := none
  lastObservedHead := none
  lastObservedAt := none
  nextPollAt := some (stored args.now)
  pollCount := 0
  unchangedCount := 0
  currentIntervalSeconds := ctl.basePollInterval
  deadlineAt := stored (plus args.now (timeoutOr args.timeoutSeconds ctl.defaultTimeoutSeconds))
  evidenceDigest := none
  continuationEmitted := 0

/-- The read after the write of a registration. -/
def loadRegistered (ctl : CIWaitingController T) : Except DatabaseError Unit → CIProgram T
  | .error e => .done (.raised (.database e))
  | .ok () => .ask ⟨ctl,.getWaitRecord⟩ fun loaded : Option (CIWaitRecord T) =>
    match loaded with
    | some w => .done (.registered w)
    | none => .done (.raised .assertion)

def registerCiWait (key : WaitKey) (ctl : CIWaitingController T) (args : RegisterCiWait T) : CIProgram T :=
  .ask ⟨ctl,.getWaitRecord⟩ fun existing : Option (CIWaitRecord T) =>
    match existing.filter (·.status.isPending) with
    | some w => .done (.registered w)
    | none => .ask ⟨ctl,.register (waitRow key ctl args)⟩ (loadRegistered ctl)

def answerAfter (d : CIPollDisposition T) : Except DatabaseError Unit → CIProgram T
  | .error e => .done (.raised (.database e))
  | .ok () => .done (.polled d)

def answerOf : Except DatabaseError (CIPollDisposition T) → CIProgram T
  | .error e => .done (.raised (.database e))
  | .ok d => .done (.polled d)

def fetchObservation (wait : CIWaitRecord T) (now : T) : FetchObservation where
  projectId := wait.projectId
  runId := wait.runId
  taskId := wait.taskId
  provider := wait.provider
  workflow := wait.workflow
  ciRunId := wait.ciRunId
  expectedHead := wait.expectedHead
  pollCount := wait.pollCount + 1
  currentTimeIso := isoformat now

/-- The third stage: the observation is fetched, and written. -/
def fetchAndRecord (ctl : CIWaitingController T) (args : PollCi T) (wait : CIWaitRecord T) : CIProgram T :=
  match args.adapter (fetchObservation wait args.now) with
  | .raised => .done (.raised .provider)
  | .timedOut message =>
    .ask ⟨ctl,.postpone wait (stored (plus args.now ctl.basePollInterval))⟩
      (answerAfter ⟨.providerTimeout,none,.failure,some .transientInfrastructure,some ctl.basePollInterval,
        "Provider API transient timeout: " ++ message⟩)
  | .observation obs => .ask ⟨ctl,.record wait obs args.now⟩ answerOf

def notDue (args : PollCi T) (wait : CIWaitRecord T) : Option T :=
  match wait.nextPollAt with
  | some next => if args.force = false ∧ args.now < next then some (max zero (minus next args.now)) else none
  | none => none

def pollRecord (ctl : CIWaitingController T) (args : PollCi T) (wait : CIWaitRecord T) : CIProgram T :=
  if wait.status.isTerminal = true then
    if wait.status = .success then
      .done (.polled ⟨.alreadyCompleted,none,.waiting,none,none,
        "CI run previously completed successfully; duplicate continuation suppressed"⟩)
    else
      .done (.polled ⟨.alreadyFailed,none,.failure,some .projectRepairable,none,
        "CI run previously ended in terminal failure: " ++ wait.status.value⟩)
  else if wait.deadlineAt < args.now then
    .ask ⟨ctl,.expire wait args.now⟩
      (answerAfter ⟨.timeout,none,.failure,some .projectRepairable,none,
        "CI wait deadline exceeded (" ++ oneDecimal (minus args.now wait.deadlineAt) ++ "s past deadline)"⟩)
  else
    match notDue args wait with
    | some remaining =>
      .done (.polled ⟨.pollDueLater,none,.waiting,some .ciWaiting,some remaining,
        "Poll not due yet (" ++ oneDecimal remaining ++ "s remaining in schedule)"⟩)
    | none => fetchAndRecord ctl args wait

def pollCi (ctl : CIWaitingController T) (args : PollCi T) : CIProgram T :=
  .ask ⟨ctl,.getWaitRecord⟩ fun wait : Option (CIWaitRecord T) =>
    match wait with
    | none => .done (.polled ⟨.unknown,none,.failure,some .ambiguousFailure,none,
        "No active CI wait record found for task"⟩)
    | some wait => pollRecord ctl args wait

def CICall.program (key : WaitKey) : CICall T → CIProgram T
  | .registerCiWait ctl args => Bdb.Waiting.registerCiWait key ctl args
  | .pollCi ctl args => Bdb.Waiting.pollCi ctl args

end Bdb.Waiting
