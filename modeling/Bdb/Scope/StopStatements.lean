import Bdb.Base.Interleaving
import Bdb.Scope.Tick

/-! # STOP, resume and ticks, statement by statement

Every client reads the cursor in one statement and writes it in a later one. The writes of
STOP and of a resume name the revision that was read, but only a tick looks at whether its
write has found it.
-/
namespace Bdb.Scope

open Continuation (ScopeCursor StopFenceRecord StopRequest SendIntentRecord EffectBoundary Database naturalText nonEmptyOr)
open Continuation.Database (ResumeRequest stopEvent resumeEvent)

/-! ## The statements -/

/-- The row of the cursor is changed when it still has the revision. -/
def updateAt (db : Database) (revision : ℕ) (f : ScopeCursor → ScopeCursor) : Database :=
  { db with cursor := db.cursor.map fun c => if c.stateRevision = revision then f c else c }

/-- An update at the revision finds its row. -/
def matchesAt (db : Database) (revision : ℕ) : Bool := db.cursor.any (fun c => c.stateRevision = revision)

inductive StopWritten where
  | committed (fence : StopFenceRecord) (matched : Bool)
  | fenceTaken

def stopCursor (read : ScopeCursor) (q : StopRequest) (c : ScopeCursor) : ScopeCursor :=
  { c with stateRevision := read.stateRevision + 1, disposition := "STOPPED", status := "STOPPED",
           stopRequestedAt := some q.now, stopReason := some q.reason }

/-- The transaction of STOP, from the row that was read. The number of updated cursors is not
looked at. A fence that is already there rolls it back. -/
def writeStop (db : Database) (read : ScopeCursor) (q : StopRequest) : Outcome (Database × StopWritten) := do
  require (db.pendingLaunches = []) "IntegrityError" "CHECK constraint failed: launch_outbox.status"
  let f := db.stopFence read q
  match db.insertFence f with
  | none => pure (db,.fenceTaken)
  | some fences =>
    let fenced : Database :=
      { db with
        intents := db.intents.change (·.stop q.now) q.stop_intentId
        fences := fences }
    let done ← (updateAt fenced read.stateRevision (stopCursor read q)).appendEvent (stopEvent read f q)
    pure (done,.committed f (matchesAt db read.stateRevision))

def resumeRunId (read : ScopeCursor) (q : ResumeRequest) : String := nonEmptyOr (q.newRunId.getD "") read.runId

def resumeCursor (read : ScopeCursor) (q : ResumeRequest) (c : ScopeCursor) : ScopeCursor :=
  { c with runId := resumeRunId read q, scopeEpoch := read.scopeEpoch + 1, stateRevision := read.stateRevision + 1,
           disposition := if read.disposition = "WAITING_FOR_PLAN" then "WAITING_FOR_PLAN" else "INITIALIZED",
           status := "ACTIVE", stopRequestedAt := none, stopReason := none }

/-- The transaction of a resume; it too does not look at the number of updated cursors. -/
def writeResume (db : Database) (read : ScopeCursor) (q : ResumeRequest) : Outcome (Database × Bool) := do
  let done ← (updateAt db read.stateRevision (resumeCursor read q)).appendEvent
    (resumeEvent read (resumeRunId read q) q)
  pure (done,matchesAt db read.stateRevision)

/-- What the clients ask of the database. The write of a resume also says when its row was
read. -/
inductive StopStatement where
  | readCursor
  | insertCursor (c : ScopeCursor)
  | casCursor (c : ScopeCursor) (expectedRevision : ℕ)
  | guardFence (epoch : ℕ)
  | stopFence (read : ScopeCursor)
  | stopWrite (read : ScopeCursor) (q : StopRequest)
  | resumeWrite (read : ScopeCursor) (readAt : ℕ) (q : ResumeRequest)

/-- The database, and the number of statements performed on it. -/
structure StopStore where
  db : Database
  performed : ℕ

namespace StopStatement

/-- A read also tells how many statements came before it. -/
def Answer : StopStatement → Type
  | .readCursor => Option ScopeCursor × ℕ
  | .insertCursor _ => Outcome Unit
  | .casCursor _ _ => Bool
  | .guardFence _ => Option StopFenceRecord
  | .stopFence _ => Option StopFenceRecord
  | .stopWrite _ _ => Outcome StopWritten
  | .resumeWrite _ _ _ => Outcome Bool

def on (db : Database) (performed : ℕ) : (q : StopStatement) → Database × q.Answer
  | .readCursor => (db,(db.cursor,performed))
  | .insertCursor c =>
    match db.cursor with
    | none => ({ db with cursor := some c },.ok ())
    | some _ => (db,fail "IntegrityError" "UNIQUE constraint failed: scope_cursors.cursor_id")
  | .casCursor c expected =>
    match db.cursor.bind (fun stored => updateCursorCas stored c expected) with
    | some updated => ({ db with cursor := some updated },true)
    | none => (db,false)
  | .guardFence epoch => (db,db.fenceOf epoch)
  | .stopFence read => (db,db.fenceOf read.scopeEpoch)
  | .stopWrite read q => db.commit (writeStop db read q)
  | .resumeWrite read _ q => db.commit (writeResume db read q)

def perform (q : StopStatement) (s : StopStore) : StopStore × q.Answer :=
  (⟨(q.on s.db s.performed).1,s.performed + 1⟩,(q.on s.db s.performed).2)

end StopStatement

/-! ## The clients -/

abbrev StopScript (α : Type) := Script StopStatement StopStatement.Answer α

inductive ClientResult where
  | ticked (stored : Outcome Bool)
  | stopped (r : Outcome (StopFenceRecord × Bool))
  | resumed (r : Outcome ScopeCursor)
  | guarded (r : Outcome Unit)

def storeTick (projectId : String) (plan : CanonicalPlanGraph) (i : TickInputs) (read : ScopeCursor) :
    StopScript ClientResult :=
  .ask (.casCursor (tick projectId plan read i).2.2 read.stateRevision) fun stored => .done (.ticked (.ok stored))

def tickProgram (projectId : String) (plan : CanonicalPlanGraph) (i : TickInputs) (fresh : ScopeCursor) :
    StopScript ClientResult :=
  .ask .readCursor fun row =>
    match row.1 with
    | some read => storeTick projectId plan i read
    | none => .ask (.insertCursor fresh) fun created =>
      match created with
      | .ok _ => storeTick projectId plan i fresh
      | .error f => .done (.ticked (.error f))

def stopWriteProgram (read : ScopeCursor) (q : StopRequest) : StopScript ClientResult :=
  match require (∀ e ∈ q.expectedEpoch, e = read.scopeEpoch) "STALE_STOP_EPOCH" ("Cannot stop epoch " ++
    naturalText (q.expectedEpoch.getD 0) ++ ": canonical active epoch is " ++ naturalText read.scopeEpoch) with
  | .error f => .done (.stopped (.error f))
  | .ok _ => .ask (.stopWrite read q) fun written =>
    match written with
    | .error f => .done (.stopped (.error f))
    | .ok (.committed fence _) => .done (.stopped (.ok (fence,false)))
    | .ok .fenceTaken => .ask (.stopFence read) fun fence =>
      .done (.stopped (need (fence.map (fun f => (f,true))) "IntegrityError"
        "UNIQUE constraint failed: stop_fences.fence_id"))

def stopProgram (projectId : String) (q : StopRequest) : StopScript ClientResult :=
  .ask .readCursor fun row =>
    match row.1 with
    | none => .done (.stopped (fail "CURSOR_NOT_FOUND" ("Cannot stop project '" ++ projectId ++ "': cursor not found")))
    | some read =>
      if read.stopped then .ask (.stopFence read) fun fence =>
        match fence with
        | some f => .done (.stopped (.ok (f,true)))
        | none => stopWriteProgram read q
      else stopWriteProgram read q

def resumeProgram (projectId : String) (q : ResumeRequest) : StopScript ClientResult :=
  .ask .readCursor fun row =>
    match row.1 with
    | none => .done (.resumed (fail "CURSOR_NOT_FOUND" ("Cannot resume project '" ++ projectId ++ "': cursor not found")))
    | some read =>
      match require (∀ e ∈ q.expectedPriorEpoch, e = read.scopeEpoch) "STALE_RESUME_EPOCH" ("Cannot resume from epoch " ++
        naturalText (q.expectedPriorEpoch.getD 0) ++ ": current epoch is " ++ naturalText read.scopeEpoch) with
      | .error f => .done (.resumed (.error f))
      | .ok _ => .ask (.resumeWrite read row.2 q) fun written =>
        match written with
        | .error f => .done (.resumed (.error f))
        | .ok _ => .done (.resumed (.ok (resumeCursor read q read)))

def guardCursor (projectId : String) (read : ScopeCursor) (epoch : ℕ) (boundary : EffectBoundary) : Outcome Unit := do
  let blocked := "Effect boundary '" ++ boundary.value ++ "' blocked: "
  require (read.stopped = false) "STOP_FENCE_ACTIVE" (blocked ++ "project '" ++ projectId ++
    "' is durably STOPPED (epoch " ++ naturalText read.scopeEpoch ++ ")")
  require (epoch = read.scopeEpoch) "STALE_SCOPE_EPOCH" (blocked ++ "request epoch " ++ naturalText epoch ++
    " does not match canonical epoch " ++ naturalText read.scopeEpoch)

def guardProgram (projectId : String) (epoch : ℕ) (boundary : EffectBoundary) : StopScript ClientResult :=
  .ask .readCursor fun row =>
    match row.1 with
    | none => .done (.guarded (fail "CURSOR_NOT_FOUND" ("No canonical cursor found for project '" ++ projectId ++ "'")))
    | some read =>
      match guardCursor projectId read epoch boundary with
      | .error f => .done (.guarded (.error f))
      | .ok _ => .ask (.guardFence epoch) fun (fence : Option StopFenceRecord) =>
        .done (.guarded (require (fence = none) "STOP_FENCE_RECORDED" ("Effect boundary '" ++ boundary.value ++
          "' blocked: fence record exists for epoch " ++ naturalText epoch)))

inductive StopClient where
  | tick (plan : CanonicalPlanGraph) (i : TickInputs) (runId : String) (scope : Continuation.AutoScope)
      (planIdentity : String) (planVersion : ℕ) (scopeSelectionExplicit : Bool)
  | stop (q : StopRequest)
  | resume (q : ResumeRequest)
  | check (epoch : ℕ) (boundary : EffectBoundary)

def StopClient.program (projectId : String) : StopClient → StopScript ClientResult
  | .tick plan i runId scope planIdentity planVersion explicit =>
    tickProgram projectId plan i (getOrCreateCursor none projectId runId scope planIdentity planVersion explicit)
  | .stop q => stopProgram projectId q
  | .resume q => resumeProgram projectId q
  | .check epoch boundary => guardProgram projectId epoch boundary

abbrev StopEntry := Entry StopStatement.Answer

abbrev StopRun := Shared StopStore StopStatement.Answer ClientResult

/-! ## Alone

A STOP or a resume that has the database to itself is the transaction of the continuation
database.
-/

theorem updateAt_of_cursor {db : Database} {c : ScopeCursor} (h : db.cursor = some c) (f : ScopeCursor → ScopeCursor) :
    updateAt db c.stateRevision f = { db with cursor := some (f c) } := by
  simp [updateAt,h]

theorem writeStop_taken {db done : Database} {read : ScopeCursor} {q : StopRequest}
    (h : writeStop db read q = .ok (done,.fenceTaken)) : done = db := by
  obtain ⟨_,h⟩ := rest_ok h
  dsimp only at h
  split at h
  · cases pure_ok.mp h
    rfl
  · obtain ⟨_,h⟩ := rest_ok h
    cases pure_ok.mp h

end Bdb.Scope
