import Bdb.Waiting.Returned

/-! # Careful runs continue once

The invariant: a record that is not at its end is about a run that nobody has continued for.
Every write rests on a record that its client was shown, which has the id of the stored one.
-/
namespace Bdb.Waiting

open CIWaitingController Database Shared Script

variable {T : Type} {db db' : Database T} {log known : List (CIEntry T)} {w : CIWaitRecord T}

/-! ## Shown records -/

def shown : CIEntry T → Option (CIWaitRecord T)
  | ⟨⟨_,.getWaitRecord⟩,answer⟩ => answer
  | _ => none

def Seen (known : List (CIEntry T)) (w : CIWaitRecord T) : Prop := ∃ e ∈ known, shown e = some w

theorem seen_of_read (known : List (CIEntry T)) (ctl : CIWaitingController T) (w : CIWaitRecord T) :
    Seen (known ++ [⟨⟨ctl,.getWaitRecord⟩,some w⟩]) w :=
  ⟨_,List.mem_append_right _ (List.mem_singleton_self _),rfl⟩

theorem Seen.mono (h : Seen known w) (hsub : known.Sublist log) : Seen log w := by
  obtain ⟨e,he,hw⟩ := h
  exact ⟨e,hsub.subset he,hw⟩

variable {e : CIEntry T} {f : CIWaitRecord T → CIWaitRecord T} {waitId : String} {c : ℕ}
    {ctl : CIWaitingController T} {p : Database T × Except DatabaseError (CIPollDisposition T)}

theorem seen_append (h : Seen (log ++ [e]) w) : Seen log w ∨ shown e = some w := by
  obtain ⟨e',he',hw⟩ := h
  rcases List.mem_append.mp he' with he' | he'
  · exact .inl ⟨e',he',hw⟩
  · exact .inr (List.mem_singleton.mp he' ▸ hw)

def StoredId (db : Database T) (w : CIWaitRecord T) : Prop := ∃ stored, db.rows.wait = some stored ∧ stored.waitId = w.waitId

theorem KeepsId.storedId (h : KeepsId db db') (hw : StoredId db w) : StoredId db' w := by
  obtain ⟨stored,hstored,hid⟩ := hw
  obtain ⟨stored',hstored',hid'⟩ := h stored hstored
  exact ⟨stored',hstored',hid'.trans hid⟩

/-! ## What the clients know -/

section Programs

variable [Timestamps T] {key : WaitKey}

/-- A write rests on a record that its client was shown, and a deadline is not written before
it has passed. -/
def Justified (known : List (CIEntry T)) (q : ControllerRequest T) : Prop :=
  match q.request with
  | .getWaitRecord => True
  | .register row => row.status = .queued
  | .expire wait now => Seen known wait ∧ wait.deadlineAt < now
  | .postpone wait _ => Seen known wait
  | .record wait _ _ => Seen known wait

theorem answerAfter_informed (d : CIPollDisposition T) (answer : Except DatabaseError Unit) :
    Informed Justified known (answerAfter d answer) := by
  cases answer with
  | error e | ok u => trivial

theorem answerOf_informed (answer : Except DatabaseError (CIPollDisposition T)) :
    Informed Justified known (answerOf answer) := by
  cases answer with
  | error e | ok d => trivial

variable {ctl : CIWaitingController T}

theorem pollRecord_informed {args : PollCi T} (h : Seen known w) :
    Informed Justified known (pollRecord ctl args w) := by
  unfold pollRecord
  split
  · split <;> trivial
  · split
    · rename_i hdeadline
      exact ⟨⟨h,hdeadline⟩,fun answer => answerAfter_informed _ answer⟩
    · split
      · trivial
      · unfold fetchAndRecord
        split
        · trivial
        · exact ⟨h,fun answer => answerAfter_informed _ answer⟩
        · exact ⟨h,fun answer => answerOf_informed answer⟩

theorem loadRegistered_informed (answer : Except DatabaseError Unit) :
    Informed Justified known (loadRegistered ctl answer) := by
  cases answer with
  | error e => trivial
  | ok u =>
    refine ⟨trivial,?_⟩
    intro loaded
    cases loaded with
    | none => trivial
    | some w => trivial

theorem program_informed (call : CICall T) : Informed Justified [] (call.program key) := by
  cases call with
  | registerCiWait ctl args =>
    refine ⟨trivial,?_⟩
    intro existing
    dsimp only
    split
    · trivial
    · exact ⟨rfl,fun answer => loadRegistered_informed answer⟩
  | pollCi ctl args =>
    refine ⟨trivial,?_⟩
    intro wait
    cases wait with
    | none => trivial
    | some w => exact pollRecord_informed (seen_of_read [] ctl w)

end Programs

/-! ## The invariant -/

structure Waits (db : Database T) (log : List (CIEntry T)) : Prop where
  once : (continuations log).Nodup
  waiting : ∀ w, db.rows.wait = some w → w.status.isTerminal = false → w.identity ∉ continuations log
  seen : ∀ w, Seen log w → StoredId db w
  reading : ∀ c w version, db.sessions c = .reading (some w) version → StoredId db w

theorem waits_fresh (history : List ObservationRow) : Waits (fresh history : Database T) [] := by
  refine ⟨List.nodup_nil,?_,?_,?_⟩
  · intro w hw
    cases hw
  · intro w h
    obtain ⟨e,he,-⟩ := h
    cases he
  · intro c w version h
    cases h

/-- The part of the invariant that is about continuations, after a step. -/
def KeepsOnce (log : List (CIEntry T)) (e : CIEntry T) (wait : Option (CIWaitRecord T)) : Prop :=
  (continuations (log ++ [e])).Nodup ∧
    ∀ w, wait = some w → w.status.isTerminal = false → w.identity ∉ continuations (log ++ [e])

theorem Waits.quiet {wait : Option (CIWaitRecord T)} (h : Waits db log) (hquiet : continued e = none)
    (hwait : ∀ w, wait = some w → w.status.isTerminal = false → w.identity ∉ continuations log) :
    KeepsOnce log e wait := by
  unfold KeepsOnce
  rw [continuations_quiet hquiet]
  exact ⟨h.once,hwait⟩

theorem Waits.updated (h : Waits db log) (hf : ∀ w, db.rows.wait = some w → (f w).status.isTerminal = false →
      w.status.isTerminal = false ∧ (f w).identity = w.identity) :
    ∀ w, db.updated waitId f = some w → w.status.isTerminal = false → w.identity ∉ continuations log := by
  intro w hw hterminal
  obtain ⟨before,hbefore,⟨-,rfl⟩ | rfl⟩ := updated_some hw
  · obtain ⟨hopen,hidentity⟩ := hf before hbefore hterminal
    rw [hidentity]
    exact h.waiting before hbefore hopen
  · exact h.waiting w hbefore hterminal

theorem Waits.write {wait : Option (CIWaitRecord T)} (h : Waits db log) (hquiet : continued e = none)
    (hwait : ∀ w, wait = some w → w.status.isTerminal = false → w.identity ∉ continuations log) :
    KeepsOnce log e (db.write c wait).1.rows.wait := by
  rcases write_cases db c wait with ⟨-,heq⟩ | ⟨rows,-,heq⟩
  · rw [heq]
    exact h.quiet hquiet h.waiting
  · rw [heq]
    exact h.quiet hquiet hwait

theorem reaches_of_updated
    (hw : db.updated waitId f = some w) (hreached : db.rows.wait.map (·.status) ≠ some w.status) :
    ∃ before, db.rows.wait = some before ∧ w = f before := by
  obtain ⟨before,hbefore,⟨-,rfl⟩ | rfl⟩ := updated_some hw
  · exact ⟨before,hbefore,rfl⟩
  · rw [hbefore] at hreached
    exact absurd rfl hreached

theorem reaches_of_write {new : Option (CIWaitRecord T)} (hw : (db.write c new).1.rows.wait = some w)
    (hreached : db.rows.wait.map (·.status) ≠ some w.status) : new = some w := by
  rcases write_cases db c new with ⟨-,heq⟩ | ⟨rows,-,heq⟩
  · rw [heq,refuse_rows] at hw
    rw [hw] at hreached
    exact absurd rfl hreached
  · rw [heq] at hw
    exact hw

variable [Timestamps T] {key : WaitKey} {q : ControllerRequest T} {wait stored : CIWaitRecord T} {obs : CIObservation}
  {now : T}

/-! ## What the condition says -/

section

variable (h : StillRight db log (.record wait obs now)) (hstored : db.rows.wait = some stored)

include h hstored

theorem StillRight.opened (hstatus : obs.status.isTerminal = false) : stored.status.isTerminal = false := by
  have hnow := h stored hstored
  rw [if_neg (by rintro heq; rw [heq] at hstatus; cases hstatus),if_neg (by rw [hstatus]; exact Bool.false_ne_true)] at hnow
  exact hnow

theorem StillRight.succeeds (hstatus : obs.status = .success) (hidentity : obs.identity = wait.identity) :
    stored.identity = wait.identity ∧ stored.status.isTerminal = false := by
  have hnow := h stored hstored
  rw [if_pos hstatus] at hnow
  exact hnow hidentity

theorem StillRight.ends
    (hstatus : obs.status ≠ .success) (hterminal : obs.status.isTerminal = true) : stored.identity = obs.identity := by
  have hnow := h stored hstored
  rw [if_neg hstatus,if_pos hterminal] at hnow
  exact hnow

end

theorem not_continues_of_isRejection {a : PollAction} (h : a.isRejection = true) : a ≠ .continues := by
  rintro rfl
  cases h

/-! ## One step -/

theorem Waits.recorded (h : Waits db log) (hseen : Seen log wait)
    (hright : StillRight db log (.record wait obs now)) (hp : Recorded db wait obs ctl now p) :
    KeepsOnce log ⟨⟨ctl,.record wait obs now⟩,p.2⟩ p.1.rows.wait := by
  cases hp with
  | refused hnone | repeated hrows hmem => exact h.quiet rfl h.waiting
  | pending hstatus hd =>
    refine h.quiet ?_ (h.updated ?_)
    · simp [continued,hd]
    · intro w hw _
      exact ⟨hright.opened hw (CIStatus.isPending_not_terminal hstatus),rfl⟩
  | rejected hstatus hidentity hd =>
    refine h.quiet ?_ h.waiting
    simp [continued,not_continues_of_isRejection hd]
  | @succeeded rows d hstatus hidentity hd =>
    -- the stored record is still open, so nobody has continued for its run; now it is at its end
    obtain ⟨stored,hstored,hid⟩ := h.seen wait hseen
    obtain ⟨hsame,hopen⟩ := hright.succeeds hstored hstatus hidentity
    have hnew := h.waiting stored hstored hopen
    have hcontinued : continued ⟨⟨ctl,.record wait obs now⟩,Except.ok d⟩ = some wait.identity := by
      simp [continued,hd]
    refine ⟨?_,?_⟩
    · rw [continuations_append,hcontinued,← hsame]
      exact List.concat_eq_append ▸ h.once.concat hnew
    · intro w hw hterminal
      rw [commit_wait,updated_of_id hstored hid] at hw
      cases hw
      cases hterminal
  | ended hpending hstatus hd =>
    refine h.quiet ?_ (h.updated ?_)
    · simp [continued,hd]
    · intro w hw hterminal
      exact ⟨hright.opened hw hterminal,rfl⟩

theorem Waits.keepsOnce (h : Waits db log) (hjust : Justified known q) (hsub : known.Sublist log)
    (hright : StillRight db log q.request) :
    KeepsOnce log ⟨q,(q.perform key db).2⟩ (q.perform key db).1.rows.wait := by
  obtain ⟨ctl,q⟩ := q
  cases q with
  | getWaitRecord =>
    simp only [ControllerRequest.perform,getWaitRecord_rows]
    exact h.quiet rfl h.waiting
  | register row =>
    refine h.write rfl ?_
    rintro w hw -
    cases hw
    cases db.rows.wait with
    | none => exact hright
    | some before => exact hright
  | expire wait now =>
    refine h.write rfl (h.updated ?_)
    rintro w - hterminal
    cases hterminal
  | postpone wait nextPollAt => exact h.write rfl (h.updated fun w _ hterminal => ⟨hterminal,rfl⟩)
  | record wait obs now =>
    exact h.recorded (hjust.mono hsub) hright (recorded_recordObservation key ctl wait obs now db)

theorem Waits.shown_storedId (h : Waits db log) (hw : shown ⟨q,(q.perform key db).2⟩ = some w) : StoredId db w := by
  obtain ⟨ctl,q⟩ := q
  cases q with
  | getWaitRecord =>
    change (db.getWaitRecord ctl.connection).2 = some w at hw
    rcases getWaitRecord_seen db ctl.connection with hstored | ⟨version,hreading⟩
    · exact ⟨w,hstored.symm.trans hw,rfl⟩
    · rw [hw] at hreading
      exact h.reading _ w version hreading
  | register row | expire wait now | postpone wait nextPollAt | record wait obs now => cases hw

theorem Waits.step (h : Waits db log) (hjust : Justified known q) (hsub : known.Sublist log)
    (hcareful : Careful db log q) : Waits (q.perform key db).1 (log ++ [⟨q,(q.perform key db).2⟩]) := by
  have hkeeps := perform_keepsId key db q
  have honce : KeepsOnce log ⟨q,(q.perform key db).2⟩ (q.perform key db).1.rows.wait := h.keepsOnce hjust hsub hcareful.1
  refine ⟨honce.1,honce.2,?_,?_⟩
  · intro w hw
    rcases seen_append hw with hold | hnew
    · exact hkeeps.storedId (h.seen w hold)
    · exact hkeeps.storedId (h.shown_storedId hnew)
  · intro c w version hw
    rcases perform_reading hw with hold | hnow
    · exact hkeeps.storedId (h.reading c w version hold)
    · exact hkeeps.storedId ⟨w,hnow.symm,rfl⟩

/-! ## What a careful step does -/

theorem StillRight.recorded_ends (hright : StillRight db log (.record wait obs now))
    (hp : Recorded db wait obs ctl now p) (hw : p.1.rows.wait = some w) (hterminal : w.status.isTerminal = true)
    (hreached : db.rows.wait.map (·.status) ≠ some w.status) :
    ∃ before, db.rows.wait = some before ∧ obs.identity = before.identity := by
  have hsame : db.rows.wait ≠ some w := by
    intro h
    rw [h] at hreached
    exact hreached rfl
  cases hp with
  | refused hnone | repeated hrows hmem => exact absurd hw hsame
  | pending hstatus hd =>
    obtain ⟨before,hbefore,rfl⟩ := reaches_of_updated hw hreached
    exact absurd (CIStatus.isPending_not_terminal hstatus) (by rw [show obs.status.isTerminal = true from hterminal]; exact nofun)
  | rejected hstatus hidentity hd => exact absurd hw hsame
  | succeeded hstatus hidentity hd =>
    obtain ⟨before,hbefore,rfl⟩ := reaches_of_updated hw hreached
    exact ⟨before,hbefore,hidentity.trans (hright.succeeds hbefore hstatus hidentity).1.symm⟩
  | ended hpending hstatus hd =>
    obtain ⟨before,hbefore,rfl⟩ := reaches_of_updated hw hreached
    exact ⟨before,hbefore,(hright.ends hbefore hstatus hterminal).symm⟩

theorem StillRight.sound_ends (hright : StillRight db log q.request) (hjust : Justified known q)
    (hw : (q.perform key db).1.rows.wait = some w) (hterminal : w.status.isTerminal = true)
    (hreached : db.rows.wait.map (·.status) ≠ some w.status) :
    ∃ before, db.rows.wait = some before ∧ EndedBy before q.request := by
  obtain ⟨ctl,q⟩ := q
  cases q with
  | getWaitRecord =>
    simp only [ControllerRequest.perform,getWaitRecord_rows] at hw
    rw [hw] at hreached
    exact absurd rfl hreached
  | register row =>
    have hnew := reaches_of_write hw hreached
    cases hnew
    have hqueued : (row.upsert db.rows.wait).status = .queued := by
      cases db.rows.wait with
      | none => exact hjust
      | some before => rfl
    rw [hqueued] at hterminal
    cases hterminal
  | expire wait now =>
    obtain ⟨before,hbefore,rfl⟩ := reaches_of_updated (reaches_of_write hw hreached) hreached
    exact ⟨before,hbefore,(hright before hbefore).trans_lt hjust.2⟩
  | postpone wait nextPollAt =>
    obtain ⟨before,hbefore,rfl⟩ := reaches_of_updated (reaches_of_write hw hreached) hreached
    rw [hbefore] at hreached
    exact absurd rfl hreached
  | record wait obs now =>
    exact hright.recorded_ends (recorded_recordObservation key ctl wait obs now db) hw hterminal hreached

theorem Careful.works (h : Careful db log q) {e : DatabaseError} (he : pollError ⟨q,(q.perform key db).2⟩ = some e) :
    ¬ CausedByRejected db log q e := by
  obtain ⟨ctl,q⟩ := q
  obtain ⟨-,hunheld,hnew⟩ := h
  cases e with
  | integrity => exact hnew
  | locked =>
    cases q with
    | getWaitRecord => cases he
    | register row => cases he
    | expire wait now => exact hunheld rfl
    | postpone wait nextPollAt => exact hunheld rfl
    | record wait obs now => exact hunheld rfl

theorem rejects_keeps {pollId : String} (hrejected : rejectedPoll ⟨q,(q.perform key db).2⟩ = some pollId) :
    (q.perform key db).1.rows.wait = db.rows.wait := by
  obtain ⟨ctl,q⟩ := q
  cases q with
  | getWaitRecord | register row | expire wait now | postpone wait nextPollAt => cases hrejected
  | record wait obs now =>
    have hrecorded := recorded_recordObservation key ctl wait obs now db
    simp only [ControllerRequest.perform] at hrejected ⊢
    generalize recordObservation key ctl wait obs now db = p at hrecorded hrejected
    cases hrecorded with
    | refused h => rfl
    | repeated h hid => rfl
    | pending hstatus hd => simp [rejectedPoll,hd,PollAction.isRejection] at hrejected
    | rejected hstatus hidentity hd => rfl
    | succeeded hstatus hidentity hd => simp [rejectedPoll,hd,PollAction.isRejection] at hrejected
    | ended hpending hstatus hd => simp [rejectedPoll,hd,PollAction.isRejection] at hrejected

theorem Careful.sound (h : Careful db log q) (hjust : Justified known q) : Sound key db log q where
  ends _ hw hterminal hreached := h.1.sound_ends hjust hw hterminal hreached
  rejects _ hrejected := rejects_keeps hrejected
  works _ he := h.works he

/-- The run that calls of controllers on one task make of an empty table. -/
def pollRun (key : WaitKey) (history : List ObservationRow) (moves : List (Move (CICall T))) : CIRun T :=
  run (ControllerRequest.perform key) (CICall.program key) (begin (fresh history)) moves

def AlongPolls (key : WaitKey) (P : CIRun T → Move (CICall T) → Prop) (history : List ObservationRow)
    (moves : List (Move (CICall T))) : Prop :=
  Along (next (ControllerRequest.perform key) (CICall.program key)) P (begin (fresh history)) moves

def sampleKey : WaitKey := ⟨"p1","T1"⟩

def sampleController (connection : ℕ) : CIWaitingController ℤ := ⟨connection,15,120,2,3600⟩

def sampleRegistration : RegisterCiWait ℤ := ⟨"run-1","github","ci.yml","101","head-1",none,none,0⟩

def samplePoll (status : CIStatus) (now : ℤ) : PollCi ℤ := ⟨now,false,FakeCIProvider status "head-1"⟩

def onePoll : List (Move (CICall ℤ)) :=
  [.start (.registerCiWait (sampleController 0) sampleRegistration),.advance 0,.advance 0,.advance 0,
    .start (.pollCi (sampleController 0) (samplePoll .success 20)),.advance 1,.advance 1]

/-- Another reads the record before the first has written its observation. -/
def twoPolls : List (Move (CICall ℤ)) :=
  [.start (.registerCiWait (sampleController 0) sampleRegistration),.advance 0,.advance 0,.advance 0,
    .start (.pollCi (sampleController 0) (samplePoll .success 20)),
    .start (.pollCi (sampleController 1) (samplePoll .success 21)),.advance 1,.advance 2,.advance 1,.advance 2]

end Bdb.Waiting
