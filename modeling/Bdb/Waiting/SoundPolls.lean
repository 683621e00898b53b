import Bdb.Waiting.PollSteps

/-! # One continuation for one CI run

The write of a poll does not look at the record again, a failure is not compared with it, a
rejected observation keeps its transaction open, and a registration forgets what was emitted.
Runs in which none of these matters continue once for each CI run.
-/
namespace Bdb.Waiting

open CIWaitingController Database

variable {T : Type}

abbrev CIEntry (T : Type) := Entry (ControllerRequest.Answer (T := T))

/-! ## Reading the log -/

/-- The run that a poll has answered `CONTINUE` for. -/
def continued : CIEntry T → Option CIIdentity
  | ⟨⟨_,.record wait _ _⟩,answer⟩ =>
    match answer with
    | Except.ok d => if d.action = .continues then some wait.identity else none
    | Except.error _ => none
  | _ => none

def continuations (log : List (CIEntry T)) : List CIIdentity := log.filterMap continued

theorem continuations_append (log : List (CIEntry T)) (e : CIEntry T) :
    continuations (log ++ [e]) = continuations log ++ (continued e).toList := by
  unfold continuations
  rw [List.filterMap_append]
  cases he : continued e <;> simp [he]

theorem continuations_quiet {e : CIEntry T} (h : continued e = none) : continuations (log ++ [e]) = continuations log := by
  rw [continuations_append,h,Option.toList_none,List.append_nil]

def rejectedPoll : CIEntry T → Option String
  | ⟨⟨_,.record _ obs _⟩,answer⟩ =>
    match answer with
    | Except.ok d => if d.action.isRejection = true then some obs.pollId else none
    | Except.error _ => none
  | _ => none

def rejectedPolls (log : List (CIEntry T)) : List String := log.filterMap rejectedPoll

def pollError : CIEntry T → Option DatabaseError
  | ⟨⟨_,.expire _ _⟩,answer⟩ =>
    match answer with
    | Except.ok _ => none
    | Except.error e => some e
  | ⟨⟨_,.postpone _ _⟩,answer⟩ =>
    match answer with
    | Except.ok _ => none
    | Except.error e => some e
  | ⟨⟨_,.record _ _ _⟩,answer⟩ =>
    match answer with
    | Except.ok _ => none
    | Except.error e => some e
  | _ => none

/-! ## What is promised -/

/-- The record's own run was observed, or its deadline has passed. -/
def EndedBy [Timestamps T] (before : CIWaitRecord T) : CIRequest T → Prop
  | .record _ obs _ => obs.identity = before.identity
  | .expire _ now => before.deadlineAt < now
  | _ => False

/-- Another connection's transaction was left open by a rejected observation. -/
def HeldByRejected (db : Database T) (log : List (CIEntry T)) (c : ℕ) : Prop :=
  ∃ holder ∈ db.writer, holder.connection ≠ c ∧ ∃ r ∈ holder.rows, r.pollId ∈ rejectedPolls log

def RepeatsRejected (log : List (CIEntry T)) : CIRequest T → Prop
  | .record _ obs _ => obs.pollId ∈ rejectedPolls log
  | _ => False

/-- The database raises because of an observation that was rejected before. -/
def CausedByRejected (db : Database T) (log : List (CIEntry T)) (q : ControllerRequest T) : DatabaseError → Prop
  | .locked => HeldByRejected db log q.controller.connection
  | .integrity => RepeatsRejected log q.request

/-- A record reaches a terminal status for its own reasons, a rejected observation leaves it as
it is, and later polls work. -/
structure Sound [Timestamps T] (key : WaitKey) (db : Database T) (log : List (CIEntry T))
    (q : ControllerRequest T) : Prop where
  ends : ∀ w, (q.perform key db).1.rows.wait = some w → w.status.isTerminal = true →
    db.rows.wait.map (·.status) ≠ some w.status → ∃ before, db.rows.wait = some before ∧ EndedBy before q.request
  rejects : ∀ pollId, rejectedPoll ⟨q,(q.perform key db).2⟩ = some pollId →
    (q.perform key db).1.rows.wait = db.rows.wait
  works : ∀ e, pollError ⟨q,(q.perform key db).2⟩ = some e → ¬ CausedByRejected db log q e

/-! ## The condition -/

/-- What is stored at the moment of a write, against what the write rests on. -/
def StillRight [Timestamps T] (db : Database T) (log : List (CIEntry T)) : CIRequest T → Prop
  | .getWaitRecord => True
  | .register row => row.identity ∉ continuations log
  | .expire wait _ => ∀ w, db.rows.wait = some w → w.deadlineAt ≤ wait.deadlineAt
  | .postpone _ _ => True
  | .record wait obs _ => ∀ w, db.rows.wait = some w →
    if obs.status = .success then
      obs.identity = wait.identity → w.identity = wait.identity ∧ w.status.isTerminal = false
    else if obs.status.isTerminal = true then w.identity = obs.identity
    else w.status.isTerminal = false

def CIRequest.isPollWrite : CIRequest T → Bool
  | .getWaitRecord => false
  | .register _ => false
  | _ => true

def Careful [Timestamps T] (db : Database T) (log : List (CIEntry T)) (q : ControllerRequest T) : Prop :=
  StillRight db log q.request ∧ (q.request.isPollWrite = true → ¬ HeldByRejected db log q.controller.connection) ∧
    ¬ RepeatsRejected log q.request

instance [Timestamps T] (db : Database T) (log : List (CIEntry T)) : (q : CIRequest T) → Decidable (StillRight db log q)
  | .getWaitRecord => .isTrue trivial
  | .register row => inferInstanceAs (Decidable (row.identity ∉ continuations log))
  | .expire wait _ => inferInstanceAs (Decidable (∀ w ∈ db.rows.wait, w.deadlineAt ≤ wait.deadlineAt))
  | .postpone _ _ => .isTrue trivial
  | .record wait obs _ => inferInstanceAs (Decidable (∀ w ∈ db.rows.wait,
      if obs.status = .success then
        obs.identity = wait.identity → w.identity = wait.identity ∧ w.status.isTerminal = false
      else if obs.status.isTerminal = true then w.identity = obs.identity
      else w.status.isTerminal = false))

instance (db : Database T) (log : List (CIEntry T)) (c : ℕ) : Decidable (HeldByRejected db log c) :=
  inferInstanceAs (Decidable (∃ holder ∈ db.writer, holder.connection ≠ c ∧ ∃ r ∈ holder.rows, r.pollId ∈ rejectedPolls log))

instance (log : List (CIEntry T)) : (q : CIRequest T) → Decidable (RepeatsRejected log q)
  | .getWaitRecord => .isFalse not_false
  | .register _ => .isFalse not_false
  | .expire _ _ => .isFalse not_false
  | .postpone _ _ => .isFalse not_false
  | .record _ obs _ => inferInstanceAs (Decidable (obs.pollId ∈ rejectedPolls log))

instance [Timestamps T] (db : Database T) (log : List (CIEntry T)) (q : ControllerRequest T) :
    Decidable (Careful db log q) :=
  inferInstanceAs (Decidable (_ ∧ _ ∧ _))

end Bdb.Waiting
