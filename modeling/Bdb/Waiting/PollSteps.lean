import Bdb.Waiting.PollCi

/-! # What a request does

A refused write leaves the rows alone, and so does a write that a transaction keeps open. A
write that commits sets the record, which never changes its id.
-/
namespace Bdb.Waiting

open CIWaitingController Database

variable {T : Type} {db : Database T} {c : ℕ} {wait w : CIWaitRecord T} {rows : List ObservationRow}
  {new : Option (CIWaitRecord T)}

namespace Database

@[simp] theorem refuse_rows : (db.refuse c).rows = db.rows := rfl

@[simp] theorem hold_rows : (db.hold c rows).rows = db.rows := rfl

@[simp] theorem commit_wait : (db.commit c new rows).rows.wait = new := rfl

@[simp] theorem getWaitRecord_rows : (db.getWaitRecord c).1.rows = db.rows := by
  unfold getWaitRecord
  split <;> rfl

theorem getWaitRecord_seen (db : Database T) (c : ℕ) : (db.getWaitRecord c).2 = db.rows.wait ∨
    ∃ version, db.sessions c = .reading (db.getWaitRecord c).2 version := by
  unfold getWaitRecord
  split
  · exact .inl rfl
  · exact .inl rfl
  · rename_i wait version hsession
    exact .inr ⟨version,hsession⟩

theorem write_cases (db : Database T) (c : ℕ) (new : Option (CIWaitRecord T)) :
    (db.writable c = none ∧ db.write c new = (db.refuse c,.error .locked)) ∨
      ∃ rows, db.writable c = some rows ∧ db.write c new = (db.commit c new rows,.ok ()) := by
  unfold write
  cases hrows : db.writable c with
  | none => exact .inl ⟨rfl,rfl⟩
  | some rows => exact .inr ⟨rows,rfl,rfl⟩

variable {waitId : String} {f : CIWaitRecord T → CIWaitRecord T}

theorem updated_some (h : db.updated waitId f = some w) :
    ∃ before, db.rows.wait = some before ∧ (before.waitId = waitId ∧ w = f before ∨ w = before) := by
  obtain ⟨before,hbefore,hw⟩ := Option.map_eq_some_iff.mp h
  refine ⟨before,hbefore,?_⟩
  split at hw
  · rename_i hid
    exact .inl ⟨hid,hw.symm⟩
  · exact .inr hw.symm

theorem updated_of_id (h : db.rows.wait = some w)
    (hid : w.waitId = waitId) : db.updated waitId f = some (f w) := by
  unfold updated
  rw [h,Option.map_some,if_pos hid]

theorem reading_cases {db' : Database T} {c' : ℕ} {seen : Option (CIWaitRecord T)} {version : ℕ}
    (hdb : db' = db.refuse c ∨ db' = (db.getWaitRecord c).1 ∨ ∃ session, db'.sessions =
      Function.update db.sessions c session ∧ session = .idle) (h : db'.sessions c' = .reading seen version) :
    db.sessions c' = .reading seen version ∨ seen = db.rows.wait := by
  by_cases hc : c' = c
  · subst hc
    rcases hdb with rfl | rfl | ⟨session,hsessions,rfl⟩
    · simp only [refuse,Function.update_self] at h
      split at h
      · cases h
      · exact .inl h
    · unfold getWaitRecord at h
      split at h
      · rename_i hsession
        exact .inl h
      · simp only [Function.update_self] at h
        cases h
        exact .inr rfl
      · exact .inl h
    · rw [hsessions,Function.update_self] at h
      cases h
  · rcases hdb with rfl | rfl | ⟨session,hsessions,rfl⟩
    · simp only [refuse,Function.update_of_ne hc] at h
      exact .inl h
    · unfold getWaitRecord at h
      split at h
      · exact .inl h
      · simp only [Function.update_of_ne hc] at h
        exact .inl h
      · exact .inl h
    · rw [hsessions,Function.update_of_ne hc] at h
      exact .inl h

end Database

/-! ## Frames -/

/-- The record of the first stays, under its id, in the second. -/
def KeepsId (db db' : Database T) : Prop :=
  ∀ w, db.rows.wait = some w → ∃ w', db'.rows.wait = some w' ∧ w'.waitId = w.waitId

theorem keepsId_of_eq {db' : Database T} (h : db'.rows.wait = db.rows.wait) : KeepsId db db' :=
  fun w hw => ⟨w,h.trans hw,rfl⟩

variable {f : CIWaitRecord T → CIWaitRecord T} {waitId : String} {c' version : ℕ}
    {seen : Option (CIWaitRecord T)}

theorem keepsId_commit (hf : ∀ w, (f w).waitId = w.waitId) :
    KeepsId db (db.commit c (db.updated waitId f) rows) := by
  intro w hw
  refine ⟨if w.waitId = waitId then f w else w,?_,?_⟩
  · rw [commit_wait]
    unfold updated
    rw [hw]
    rfl
  · split
    · exact hf w
    · rfl

theorem keepsId_write (hf : ∀ w, (f w).waitId = w.waitId) :
    KeepsId db (db.write c (db.updated waitId f)).1 := by
  rcases write_cases db c (db.updated waitId f) with ⟨-,heq⟩ | ⟨rows,-,heq⟩
  · rw [heq]
    exact keepsId_of_eq rfl
  · rw [heq]
    exact keepsId_commit hf

theorem reading_write (h : (db.write c new).1.sessions c' = .reading seen version) :
    db.sessions c' = .reading seen version ∨ seen = db.rows.wait := by
  rcases write_cases db c new with ⟨-,heq⟩ | ⟨rows,-,heq⟩
  · rw [heq] at h
    exact reading_cases (.inl rfl) h
  · rw [heq] at h
    exact reading_cases (c := c) (.inr (.inr ⟨_,rfl,rfl⟩)) h

/-! ## The write of an observation -/

variable {obs : CIObservation}

theorem rejection_eq_none : rejection wait obs = none ↔ obs.identity = wait.identity := by
  unfold rejection CIObservation.identity CIWaitRecord.identity
  constructor
  · intro h
    split at h
    · cases h
    · split at h
      · cases h
      · split at h
        · cases h
        · split at h
          · cases h
          · simp_all
  · intro h
    simp only [CIIdentity.mk.injEq] at h
    obtain ⟨hprovider,hworkflow,hrun,hhead⟩ := h
    simp [hprovider,hworkflow,hrun,hhead]

theorem isRejection_of_rejection {action : PollAction} {failureClass : FailureClass} {reason : String}
    (h : rejection wait obs = some (action,failureClass,reason)) : action.isRejection = true := by
  unfold rejection at h
  split at h
  · cases h
    rfl
  · split at h
    · cases h
      rfl
    · split at h
      · cases h
        rfl
      · split at h
        · cases h
          rfl
        · cases h

variable [Timestamps T] {key : WaitKey} {ctl : CIWaitingController T} {now : T}

variable (ctl wait obs now db) in
/-- Everything that the write of an observation can do. -/
inductive Recorded : Database T × Except DatabaseError (CIPollDisposition T) → Prop
  | refused (h : db.writable ctl.connection = none) : Recorded (db.refuse ctl.connection,.error .locked)
  | repeated {pending : List ObservationRow} (h : db.writable ctl.connection = some pending)
      (hid : obs.pollId ∈ (db.rows.history ++ pending).map (·.pollId)) :
      Recorded (db.hold ctl.connection pending,.error .integrity)
  | pending {rows : List ObservationRow} {d : CIPollDisposition T} (hstatus : obs.status.isPending = true)
      (hd : d.action = .waiting) :
      Recorded (db.commit ctl.connection (db.updated wait.waitId (ctl.waitingOn wait obs now)) rows,.ok d)
  | rejected {rows : List ObservationRow} {d : CIPollDisposition T} (hstatus : obs.status = .success)
      (hidentity : obs.identity ≠ wait.identity) (hd : d.action.isRejection = true) :
      Recorded (db.hold ctl.connection rows,.ok d)
  | succeeded {rows : List ObservationRow} {d : CIPollDisposition T} (hstatus : obs.status = .success)
      (hidentity : obs.identity = wait.identity) (hd : d.action = .continues) :
      Recorded (db.commit ctl.connection (db.updated wait.waitId (succeeded wait obs)) rows,.ok d)
  | ended {rows : List ObservationRow} {d : CIPollDisposition T} (hpending : obs.status.isPending ≠ true)
      (hstatus : obs.status ≠ .success) (hd : d.action = .classifyFailure) :
      Recorded (db.commit ctl.connection (db.updated wait.waitId (ended wait obs)) rows,.ok d)

theorem recorded_recordObservation (key : WaitKey) (ctl : CIWaitingController T) (wait : CIWaitRecord T)
    (obs : CIObservation) (now : T) (db : Database T) :
    Recorded db wait obs ctl now (recordObservation key ctl wait obs now db) := by
  unfold recordObservation
  split
  · rename_i hrows
    exact .refused hrows
  · rename_i pending hrows
    split
    · rename_i hid
      exact .repeated hrows hid
    · dsimp only
      split
      · rename_i hstatus
        exact .pending hstatus rfl
      · rename_i hpending
        split
        · rename_i hstatus
          split
          · rename_i action failureClass reason hreject
            refine .rejected hstatus ?_ (isRejection_of_rejection hreject)
            intro hidentity
            rw [rejection_eq_none.mpr hidentity] at hreject
            cases hreject
          · rename_i hnone
            exact .succeeded hstatus (rejection_eq_none.mp hnone) rfl
        · rename_i hstatus
          exact .ended hpending hstatus rfl

/-! ## Any request -/

theorem perform_keepsId (key : WaitKey) (db : Database T) (q : ControllerRequest T) : KeepsId db (q.perform key db).1 := by
  obtain ⟨ctl,q⟩ := q
  cases q with
  | getWaitRecord => exact keepsId_of_eq (congrArg Rows.wait getWaitRecord_rows)
  | register row =>
    intro w hw
    simp only [ControllerRequest.perform]
    rcases write_cases db ctl.connection (some (row.upsert db.rows.wait)) with ⟨-,heq⟩ | ⟨rows,-,heq⟩
    · rw [heq]
      exact ⟨w,hw,rfl⟩
    · rw [heq,hw]
      exact ⟨_,rfl,rfl⟩
  | expire wait now | postpone wait nextPollAt => exact keepsId_write fun w => rfl
  | record wait obs now =>
    have hrecorded := recorded_recordObservation key ctl wait obs now db
    simp only [ControllerRequest.perform]
    generalize recordObservation key ctl wait obs now db = p at hrecorded
    cases hrecorded with
    | refused h => exact keepsId_of_eq rfl
    | repeated h hid => exact keepsId_of_eq rfl
    | pending hstatus hd => exact keepsId_commit fun w => rfl
    | rejected hstatus hidentity hd => exact keepsId_of_eq rfl
    | succeeded hstatus hidentity hd => exact keepsId_commit fun w => rfl
    | ended hpending hstatus hd => exact keepsId_commit fun w => rfl

theorem perform_reading {q : ControllerRequest T}
    (h : (q.perform key db).1.sessions c' = .reading seen version) :
    db.sessions c' = .reading seen version ∨ seen = db.rows.wait := by
  obtain ⟨ctl,q⟩ := q
  cases q with
  | getWaitRecord => exact reading_cases (.inr (.inl rfl)) h
  | register row | expire wait now | postpone wait nextPollAt => exact reading_write h
  | record wait obs now =>
    have hrecorded := recorded_recordObservation key ctl wait obs now db
    simp only [ControllerRequest.perform] at h
    generalize recordObservation key ctl wait obs now db = p at hrecorded h
    revert h
    cases hrecorded with
    | refused _ => exact reading_cases (.inl rfl)
    | repeated _ _ => exact reading_cases (c := ctl.connection) (.inr (.inr ⟨_,rfl,rfl⟩))
    | pending _ _ => exact reading_cases (c := ctl.connection) (.inr (.inr ⟨_,rfl,rfl⟩))
    | rejected _ _ _ => exact reading_cases (c := ctl.connection) (.inr (.inr ⟨_,rfl,rfl⟩))
    | succeeded _ _ _ => exact reading_cases (c := ctl.connection) (.inr (.inr ⟨_,rfl,rfl⟩))
    | ended _ _ _ => exact reading_cases (c := ctl.connection) (.inr (.inr ⟨_,rfl,rfl⟩))

end Bdb.Waiting
