import Bdb.Continuation.Lease

/-! # When STOP commits

STOP should be available in every state of the database that the schema allows. The store
opens its connections without a row factory, and the outbox has no status for a cancelled
launch, so STOP commits only in some of them. This module says in which.
-/
namespace Bdb.Continuation

open Table

/-- How a connection hands out rows: as tuples, which is the default, or by column name. -/
inductive RowFactory where
  | tuple
  | named
deriving DecidableEq

/-- The two ways to ask for STOP: through the store, which opens its own connection, and
through an orchestrator on a connection that its caller has opened. -/
inductive StopEntry where
  | store
  | orchestrator (rows : RowFactory)
deriving DecidableEq

def StopEntry.rows : StopEntry → RowFactory
  | store => .tuple
  | orchestrator rows => rows

namespace Database

/-- The cursor row is read first, and then its columns by their names. -/
def executeStopOn (rows : RowFactory) (db : Database) (q : StopRequest) :
    Outcome (Database × StopFenceRecord × Bool) := do
  let _ ← need db.cursor "CURSOR_NOT_FOUND" ("Cannot stop project '" ++ db.projectId ++ "': cursor not found")
  require (rows = .named) "TypeError" "tuple indices must be integers or slices, not str"
  db.executeStop q

def requestStop (entry : StopEntry) (db : Database) (q : StopRequest) :
    Database × Outcome (StopFenceRecord × Bool) :=
  db.commit (db.executeStopOn entry.rows q)

end Database

variable {db done : Database} {c : ScopeCursor} {q : StopRequest} {entry : StopEntry} {f : StopFenceRecord}
  {replay : Bool}

/-- An intent that STOP fences. -/
def stoppable (r : SendIntentRecord) : Bool := r.status = .prepared ∨ r.status = .sendAllowed

/-- The state that STOP leaves: the epoch is fenced, the cursor is stopped, nothing waits,
and another STOP returns the fence and changes nothing. -/
structure StopTaken (entry : StopEntry) (epoch : ℕ) (db : Database) (f : StopFenceRecord) : Prop where
  fence : db.fenceOf epoch = some f
  cursor : ∃ c, db.cursor = some c ∧ c.scopeEpoch = epoch ∧ c.status = "STOPPED" ∧ c.disposition = "STOPPED"
  launches : db.pendingLaunches = []
  intents : ∀ r ∈ db.intents.rows, stoppable r = false
  again : ∀ q, db.requestStop entry q = (db,.ok (f,true))

def StopCommits (entry : StopEntry) (epoch : ℕ) (db : Database) (q : StopRequest) : Prop :=
  ∃ done f replay, db.requestStop entry q = (done,.ok (f,replay)) ∧ StopTaken entry epoch done f

/-- STOP records a fence: no launch is pending, the epoch has none and is the one to stop,
and the drawn identities are new. -/
structure StopRecords (db : Database) (c : ScopeCursor) (q : StopRequest) : Prop where
  launches : db.pendingLaunches = []
  epoch : ∀ e ∈ q.expectedEpoch, e = c.scopeEpoch
  unfenced : db.fenceOf c.scopeEpoch = none
  fenceId : db.fences.get (db.stopFence c q).fenceId = none
  eventId : db.audit.get (Database.stopEvent c (db.stopFence c q) q).eventId = none

/-- Nothing is left to do: the epoch is stopped in every respect. -/
structure FullyStopped (db : Database) (c : ScopeCursor) : Prop where
  status : c.status = "STOPPED"
  disposition : c.disposition = "STOPPED"
  fenced : (db.fenceOf c.scopeEpoch).isSome = true
  launches : db.pendingLaunches = []
  intents : ∀ r ∈ db.intents.rows, stoppable r = false

/-- Rows are read by name, and STOP can be recorded or was taken already. -/
def StopReady (entry : StopEntry) (db : Database) (c : ScopeCursor) (q : StopRequest) : Prop :=
  entry.rows = .named ∧ (StopRecords db c q ∨ FullyStopped db c)

/-! ## One STOP -/

theorem requestStop_named (hrows : entry.rows = .named) (hcursor : db.cursor = some c) :
    db.requestStop entry q = db.stop q := by
  unfold Database.requestStop Database.executeStopOn Database.stop
  rw [hcursor,hrows]
  rfl

theorem rows_of_requestStop (h : db.requestStop entry q = (done,.ok (f,replay))) :
    entry.rows = .named := by
  unfold Database.requestStop Database.commit at h
  split at h
  · rename_i db' a hok
    unfold Database.executeStopOn at hok
    obtain ⟨_,hok⟩ := rest_ok hok
    obtain ⟨hrows,_⟩ := of_require hok
    exact hrows
  · cases h

theorem stop_ok (hcursor : db.cursor = some c) (h : db.stop q = (done,.ok (f,replay))) :
    (done = db ∧ db.fenceOf c.scopeEpoch = some f) ∨ StopRecords db c q := by
  unfold Database.stop Database.commit at h
  split at h
  · rename_i db' a hok
    cases h
    unfold Database.executeStop at hok
    obtain ⟨c',hc,hok⟩ := of_need hok
    obtain rfl : c' = c := some_unique hc hcursor
    split at hok
    · rename_i g hg
      cases pure_ok.mp hok
      split at hg
      · exact .inl ⟨rfl,hg⟩
      · cases hg
    · obtain ⟨hepoch,hok⟩ := of_require hok
      obtain ⟨hlaunches,hok⟩ := of_require hok
      dsimp only at hok
      split at hok
      · split at hok
        · rename_i g hg
          cases pure_ok.mp hok
          exact .inl ⟨rfl,hg⟩
        · cases hok
      · rename_i fences hfences
        obtain ⟨_,hevent,_⟩ := bind_ok.mp hok
        obtain ⟨audit,haudit,_⟩ := Database.appendEvent_ok hevent
        unfold Database.insertFence at hfences
        split at hfences
        · cases hfences
        · rename_i hnew
          exact .inr ⟨hlaunches,hepoch,by simpa [Database.stopFence] using hnew,
            (insert_some hfences).1,(insert_some haudit).1⟩
  · cases h

theorem stop_again (hcursor : db.cursor = some c) (hstopped : c.stopped = true)
    (hfence : db.fenceOf c.scopeEpoch = some f) (q : StopRequest) : db.stop q = (db,.ok (f,true)) := by
  unfold Database.stop Database.executeStop
  rw [hcursor]
  simp only [need,bind,Except.bind,hstopped,if_true,hfence]
  rfl

theorem stoppable_stop (now : DateTime) (r : SendIntentRecord) : stoppable (r.stop now) = false := by
  unfold SendIntentRecord.stop
  split
  · simp [stoppable]
  · rename_i h
    simpa [stoppable] using h

theorem stop_records (hcursor : db.cursor = some c) (h : StopRecords db c q) :
    ∃ fences audit, db.fences.insert (db.stopFence c q) = some fences ∧
      db.audit.insert (Database.stopEvent c (db.stopFence c q) q) = some audit ∧
      db.stop q =
        ({ db with
           intents := db.intents.change (·.stop q.now) q.stop_intentId
           fences := fences
           cursor := some { c with stateRevision := c.stateRevision + 1, disposition := "STOPPED",
                                   status := "STOPPED", stopRequestedAt := some q.now,
                                   stopReason := some q.reason }
           audit := audit },.ok (db.stopFence c q,false)) := by
  obtain ⟨fences,hfences⟩ := insert_of_new h.fenceId
  obtain ⟨audit,haudit⟩ := insert_of_new h.eventId
  refine ⟨fences,audit,hfences,haudit,?_⟩
  have hnew : db.insertFence (db.stopFence c q) = some fences := by
    unfold Database.insertFence
    rw [show (db.stopFence c q).scopeEpoch = c.scopeEpoch from rfl,h.unfenced]
    exact hfences
  have hreplay : (if c.stopped then db.fenceOf c.scopeEpoch else none) = none := by
    rw [h.unfenced,ite_self]
  unfold Database.stop Database.executeStop
  rw [hcursor]
  simp only [need,bind,Except.bind,hreplay,require,if_pos h.epoch,if_pos h.launches,hnew,
    Database.appendEvent,haudit]
  rfl

theorem stopTaken_of_stop {epoch : ℕ} (hrows : entry.rows = .named) (hcursor : done.cursor = some c)
    (hepoch : c.scopeEpoch = epoch) (hstatus : c.status = "STOPPED") (hdisposition : c.disposition = "STOPPED")
    (hfence : done.fenceOf epoch = some f) (hlaunches : done.pendingLaunches = [])
    (hintents : ∀ r ∈ done.intents.rows, stoppable r = false) : StopTaken entry epoch done f := by
  subst hepoch
  refine ⟨hfence,⟨c,hcursor,rfl,hstatus,hdisposition⟩,hlaunches,hintents,?_⟩
  intro q
  rw [requestStop_named hrows hcursor]
  exact stop_again hcursor (by simp [ScopeCursor.stopped,hstatus]) hfence q

def sampleStopRequest : StopRequest := ⟨none,"External STOP requested","operator","0f3a41c2","77c2be10",sampleTime 1⟩

def pendingDatabase : Database := { sampleDatabase with pendingLaunches := ["launch-1"] }

end Bdb.Continuation
