import Bdb.Recovery.TransientRecovery

/-! # Retries stay within their bounds

Every call of an operation was paid for, at or after its eligible time, and for a repeatable
operation that failed transiently. The only call too many is that of a request whose mark
was lost in a crash and that is executed again.
-/
namespace Bdb.Recovery

open Budget Floats List Table

variable {F : Type} {ctl : RecoveryController F} {b b' : RetryBooks F} {log : List (RetryEntry F)} {e : RetryEntry F}

/-! ## What is counted -/

def calledFor (p : TransientRetryRecord F → Bool) : RetryEntry F → Bool
  | ⟨.operationFn r _,_⟩ => p r
  | _ => false

def spent (b : RetryBooks F) (taskId : String) : Int := (b.ledgers.get taskId).elim 0 (·.transientRetryCount)

def TransientRetryRecord.origin (r : TransientRetryRecord F) : TransientRetryRecord F :=
  { r with status := .scheduled, executionCount := 0, resultDigest := none, updatedAt := r.createdAt }

def Scheduled (log : List (RetryEntry F)) (r : TransientRetryRecord F) : Prop :=
  ∃ op : TransientOperation, op.repeatable = true ∧ op.operationId = r.operationId ∧ op.taskId = r.taskId ∧
    ⟨.insertRetry op .transientInfrastructure r.origin,.ok ()⟩ ∈ log

/-! ## What the statements change -/

variable {r : TransientRetryRecord F} {taskId : String} {row : LedgerRow}

theorem Scheduled.append (h : Scheduled log r) : Scheduled (log ++ [e]) r := by
  obtain ⟨op,hop,hid,htask,hmem⟩ := h
  exact ⟨op,hop,hid,htask,mem_append_left _ hmem⟩

/-- A request that calls an operation. -/
def Calls (e : RetryEntry F) : Prop := calledFor (fun _ => true) e = true

theorem calledFor_quiet (he : ¬ Calls e) (p : TransientRetryRecord F → Bool) : calledFor p e = false := by
  obtain ⟨q,a⟩ := e
  cases q with
  | operationFn r now => exact absurd rfl he
  | _ => rfl

theorem countP_quiet (he : ¬ Calls e) (p : TransientRetryRecord F → Bool) :
    (log ++ [e]).countP (calledFor p) = log.countP (calledFor p) := by
  rw [countP_append,countP_singleton,calledFor_quiet he]
  simp

theorem spent_createLedger (b : RetryBooks F) (c : Creation) (taskId : String) :
    spent (b.createLedger c).1 taskId = spent b taskId := by
  unfold RetryBooks.createLedger
  split
  · rfl
  · split
    · rename_i ledgers hinsert
      have hnew := (insert_some hinsert).1
      have hget := get_insert hinsert taskId
      unfold spent
      change Option.elim (ledgers.get taskId) _ _ = _
      rw [hget]
      split
      · rename_i htask
        rw [← htask,hnew]
        rfl
      · rfl
    · rfl

theorem get_createLedger {c : Creation} (h : b.ledgers.get taskId ≠ none) :
    (b.createLedger c).1.ledgers.get taskId ≠ none := by
  unfold RetryBooks.createLedger
  split
  · exact h
  · split
    · rename_i ledgers hinsert
      change ledgers.get taskId ≠ none
      rw [get_insert hinsert taskId]
      split
      · exact Option.some_ne_none _
      · exact h
    · exact h

theorem retries_createLedger (b : RetryBooks F) (c : Creation) : (b.createLedger c).1.retries = b.retries := by
  unfold RetryBooks.createLedger
  split
  · rfl
  · split <;> rfl

theorem get_spend (b : RetryBooks F) (u : TransientUpdate) (taskId other : String) :
    (b.spend taskId u).ledgers.get other =
      (b.ledgers.get other).map fun row => if row.taskId = taskId then u.apply row else row := by
  simp only [RetryBooks.spend,get_change]

theorem spent_spend {u : TransientUpdate} (h : b.ledgers.get taskId = some row) (other : String) :
    spent (b.spend taskId u) other = if other = taskId then u.count else spent b other := by
  unfold spent
  rw [get_spend]
  split
  · rename_i hother
    subst hother
    rw [h]
    simp [key_of_get h,TransientUpdate.apply]
  · rename_i hother
    cases hget : b.ledgers.get other with
    | none => rfl
    | some row' =>
      have hkey : row'.taskId ≠ taskId := by
        rw [key_of_get hget]
        exact hother
      simp [hkey]

/-! ## The limits -/

variable [Floats F]

/-- The clock reading is not before the time the record is eligible. -/
def Eligible (r : TransientRetryRecord F) (now : F) : Prop :=
  ∃ t, timestamp r.eligibleAt = .ok t ∧ lt now t = false

/-- The limits of the calls of operations in a log. -/
structure Bounded (ctl : RecoveryController F) (log : List (RetryEntry F)) : Prop where
  once : ∀ id, log.countP (calledFor fun r => r.retryRequestId = id) ≤ 1
  budget : ∀ taskId, log.countP (calledFor fun r => r.taskId = taskId) ≤ ctl.policy.maxAttempts
  eligible : ∀ r now, ⟨.operationFn r now,()⟩ ∈ log → Eligible r now
  scheduled : ∀ before r now after, log = before ++ ⟨.operationFn r now,()⟩ :: after → Scheduled before r

/-- What every request keeps. -/
structure Booked (ctl : RecoveryController F) (b : RetryBooks F) (log : List (RetryEntry F)) : Prop where
  within : ∀ taskId, spent b taskId ≤ ctl.policy.maxAttempts
  paid : ∀ taskId, (log.countP (calledFor fun r => r.taskId = taskId) : Int) ≤ spent b taskId
  funded : ∀ r ∈ b.retries.rows, b.ledgers.get r.taskId ≠ none
  origins : ∀ r ∈ b.retries.rows, Scheduled log r
  eligible : ∀ r now, ⟨.operationFn r now,()⟩ ∈ log → Eligible r now
  scheduled : ∀ before r now after, log = before ++ ⟨.operationFn r now,()⟩ :: after → Scheduled before r

/-! ## What each request keeps -/

section

variable (h : Booked ctl b log)

include h

theorem Booked.quiet (he : ¬ Calls e) (hwithin : ∀ taskId, spent b' taskId ≤ ctl.policy.maxAttempts)
    (hspent : ∀ taskId, spent b taskId ≤ spent b' taskId)
    (hfunded : ∀ r ∈ b'.retries.rows, b'.ledgers.get r.taskId ≠ none)
    (horigins : ∀ r ∈ b'.retries.rows, Scheduled (log ++ [e]) r) : Booked ctl b' (log ++ [e]) where
  within := hwithin
  paid := by
    intro taskId
    rw [countP_quiet he]
    exact (h.paid taskId).trans (hspent taskId)
  funded := hfunded
  origins := horigins
  eligible := by
    intro r now hmem
    rcases mem_append.mp hmem with hmem | hmem
    · exact h.eligible r now hmem
    · exact absurd (mem_singleton.mp hmem ▸ rfl) he
  scheduled := by
    intro before r now after hsplit
    rcases split_concat hsplit with ⟨-,hlast,-⟩ | ⟨rest,-,hlog⟩
    · exact absurd (hlast ▸ rfl) he
    · exact h.scheduled before r now rest hlog

theorem Booked.read (he : ¬ Calls e) :
    Booked ctl b (log ++ [e]) :=
  h.quiet he h.within (fun _ => le_rfl) h.funded fun r hr => (h.origins r hr).append

theorem Booked.createLedger (c : Creation) :
    Booked ctl (b.createLedger c).1 (log ++ [⟨.createLedger c,(b.createLedger c).2⟩]) := by
  refine h.quiet (by rintro ⟨⟩) ?_ ?_ ?_ ?_
  · intro taskId
    rw [spent_createLedger]
    exact h.within taskId
  · intro taskId
    rw [spent_createLedger]
  · intro r hr
    rw [retries_createLedger] at hr
    exact get_createLedger (h.funded r hr)
  · intro r hr
    rw [retries_createLedger] at hr
    exact (h.origins r hr).append

theorem Booked.insertRetry {op : TransientOperation}
    (hop : op.repeatable = true) (hid : op.operationId = r.operationId) (htask : op.taskId = r.taskId)
    (horigin : r.origin = r) (hledger : b.ledgers.get r.taskId ≠ none) :
    Booked ctl (b.insertRetry r).1 (log ++ [⟨.insertRetry op .transientInfrastructure r,(b.insertRetry r).2⟩]) := by
  unfold RetryBooks.insertRetry
  split
  · rename_i retries hinsert
    refine h.quiet (by rintro ⟨⟩) h.within (fun _ => le_rfl) ?_ ?_
    · intro r' hr'
      rcases (mem_insert hinsert).mp hr' with hr' | rfl
      · exact h.funded r' hr'
      · exact hledger
    · intro r' hr'
      rcases (mem_insert hinsert).mp hr' with hr' | rfl
      · exact (h.origins r' hr').append
      · refine ⟨op,hop,hid,htask,?_⟩
        rw [horigin]
        exact mem_append_right _ (mem_singleton_self _)
  · exact h.quiet (by rintro ⟨⟩) h.within (fun _ => le_rfl) h.funded fun r' hr' => (h.origins r' hr').append

theorem Booked.mark (m : RetryBooks.Mark) :
    Booked ctl (b.mark m) (log ++ [⟨.mark m,()⟩]) := by
  have hsame : ∀ r ∈ (b.mark m).retries.rows, ∃ r₀ ∈ b.retries.rows, r.taskId = r₀.taskId ∧ r.origin = r₀.origin ∧
      r.operationId = r₀.operationId := by
    intro r hr
    obtain ⟨r₀,hr₀,rfl⟩ := mem_map.mp hr
    refine ⟨r₀,hr₀,?_⟩
    split <;> exact ⟨rfl,rfl,rfl⟩
  refine h.quiet (by rintro ⟨⟩) h.within (fun _ => le_rfl) ?_ ?_
  · intro r hr
    obtain ⟨r₀,hr₀,htask,-,-⟩ := hsame r hr
    rw [htask]
    exact h.funded r₀ hr₀
  · intro r hr
    obtain ⟨r₀,hr₀,htask,horigin,hid⟩ := hsame r hr
    obtain ⟨op,hop,hopid,hoptask,hmem⟩ := (h.origins r₀ hr₀).append
    exact ⟨op,hop,hopid.trans hid.symm,hoptask.trans htask.symm,horigin ▸ hmem⟩

theorem Booked.spend {u : TransientUpdate}
    (hrow : b.ledgers.get taskId = some row) (hlimit : row.transientRetryCount < ctl.policy.maxAttempts)
    (hcount : u.count = row.transientRetryCount + 1) :
    Booked ctl (b.spend taskId u) (log ++ [⟨.spend taskId u,()⟩]) ∧
      ((log ++ [(⟨.spend taskId u,()⟩ : RetryEntry F)]).countP (calledFor fun r => r.taskId = taskId) : Int) <
        spent (b.spend taskId u) taskId := by
  have hold : spent b taskId = row.transientRetryCount := by
    unfold spent
    rw [hrow]
    rfl
  have hpaid := h.paid taskId
  have he : ¬ Calls (⟨.spend taskId u,()⟩ : RetryEntry F) := by rintro ⟨⟩
  refine ⟨h.quiet he ?_ ?_ ?_ fun r hr => (h.origins r hr).append,?_⟩
  · intro other
    rw [spent_spend hrow]
    split
    · omega
    · exact h.within other
  · intro other
    rw [spent_spend hrow]
    split
    · rename_i hother
      rw [hother]
      omega
    · exact le_rfl
  · intro r hr
    rw [get_spend]
    have hfunded := h.funded r hr
    cases hget : b.ledgers.get r.taskId with
    | none => exact absurd hget hfunded
    | some row' => exact Option.some_ne_none _
  · rw [countP_quiet he,spent_spend hrow,if_pos rfl]
    omega

theorem Booked.operationFn {now : F}
    (hpaid : (log.countP (calledFor fun r' => r'.taskId = r.taskId) : Int) < spent b r.taskId)
    (heligible : Eligible r now) (hscheduled : Scheduled log r) :
    Booked ctl b (log ++ [⟨.operationFn r now,()⟩]) where
  within := h.within
  paid := by
    intro taskId
    rw [countP_append,countP_singleton]
    have hother := h.paid taskId
    by_cases htask : r.taskId = taskId
    · subst htask
      simp [calledFor]
      omega
    · simp [calledFor,htask]
      exact hother
  funded := h.funded
  origins := fun r' hr' => (h.origins r' hr').append
  eligible := by
    intro r' now' hmem
    rcases mem_append.mp hmem with hmem | hmem
    · exact h.eligible r' now' hmem
    · cases mem_singleton.mp hmem
      exact heligible
  scheduled := by
    intro before r' now' after hsplit
    rcases split_concat hsplit with ⟨hbefore,hlast,-⟩ | ⟨rest,-,hlog⟩
    · cases hlast
      rw [hbefore]
      exact hscheduled
    · exact h.scheduled before r' now' rest hlog

end

/-! ## What the calls keep -/

open RetryRequest (perform)

theorem retryLedger_keeps {now : String} {runId : Option String} {f : LedgerRow → RetryScript F}
    (h : Booked ctl b log)
    (hf : ∀ b' log' row, Booked ctl b' log' → b'.ledgers.get taskId = some row →
      (∀ r, Scheduled log r → Scheduled log' r) → (f row).Throughout perform (Booked ctl) b' log') :
    (getOrCreateLedger ctl taskId runId now f).Throughout perform (Booked ctl) b log := by
  refine ⟨h,?_⟩
  have hread : Booked ctl b (log ++ [⟨.loadLedger taskId,b.ledgers.get taskId⟩]) := h.read (by rintro ⟨⟩)
  simp only [perform]
  cases hrow : b.ledgers.get taskId with
  | some row =>
    rw [hrow] at hread
    exact hf b _ row hread hrow fun r hr => hr.append
  | none =>
    rw [hrow] at hread
    refine ⟨hread,?_⟩
    have hcreated := hread.createLedger ⟨shortDigest "bl-" (ctl.projectId ++ ":" ++ taskId),taskId,runId,now⟩
    simp only [perform]
    rcases hc : b.createLedger ⟨shortDigest "bl-" (ctl.projectId ++ ":" ++ taskId),taskId,runId,now⟩ with ⟨b',o⟩
    rw [hc] at hcreated
    cases o with
    | error err => exact hcreated
    | ok u =>
      refine ⟨hcreated,?_⟩
      have hloaded : Booked ctl b' (_ ++ [⟨.loadLedger taskId,b'.ledgers.get taskId⟩]) := hcreated.read (by rintro ⟨⟩)
      simp only [perform]
      cases hrow' : b'.ledgers.get taskId with
      | none =>
        rw [hrow'] at hloaded
        exact hloaded
      | some row =>
        rw [hrow'] at hloaded
        exact hf b' _ row hloaded hrow' fun r hr => hr.append.append.append

theorem retryRecord_ok {a : ScheduleArgs F} {nowIso fingerprint evidence : String}
    (h : retryRecord ctl a nowIso fingerprint evidence row = .ok r) :
    r.origin = r ∧ r.operationId = a.operation.operationId ∧ r.taskId = a.operation.taskId := by
  obtain ⟨_,_,h⟩ := rest₂ h
  cases pure_ok.mp h
  exact ⟨rfl,rfl,rfl⟩

theorem insertOnce_keeps {a : ScheduleArgs F} (h : Booked ctl b log)
    (hclass : a.failureClass = .transientInfrastructure) (hop : a.operation.repeatable = true)
    (hr : r.origin = r ∧ r.operationId = a.operation.operationId ∧ r.taskId = a.operation.taskId)
    (hledger : b.ledgers.get a.operation.taskId ≠ none) :
    (insertOnce a r).Throughout perform (Booked ctl) b log := by
  obtain ⟨horigin,hid,htask⟩ := hr
  refine ⟨h,?_⟩
  have hfound : Booked ctl b (log ++ [⟨.findRetry r.retryRequestId,b.retries.get r.retryRequestId⟩]) := h.read (by rintro ⟨⟩)
  simp only [perform]
  cases hget : b.retries.get r.retryRequestId with
  | some existing =>
    rw [hget] at hfound
    exact ⟨hfound,hfound.read (by rintro ⟨⟩)⟩
  | none =>
    rw [hget] at hfound
    refine ⟨hfound,?_⟩
    have hinserted := hfound.insertRetry hop hid.symm htask.symm horigin (by rwa [htask])
    rw [hclass]
    simp only [perform]
    rcases hi : b.insertRetry r with ⟨b',o⟩
    rw [hi] at hinserted
    cases o <;> exact hinserted

theorem scheduleRetry_keeps (a : ScheduleArgs F) (h : Booked ctl b log) :
    (scheduleRetry ctl a).Throughout perform (Booked ctl) b log := by
  unfold scheduleRetry
  split
  · exact h
  · rename_i nowIso hnow
    split
    · exact h
    · split
      · exact h
      · rename_i hclass
        split
        · exact h
        · rename_i hop
          split
          · exact h
          · rename_i fingerprint evidence hdigests
            refine retryLedger_keeps h ?_
            intro b' log' row h' hrow hscheduled
            split
            · exact h'
            · split
              · exact h'
              · rename_i r hr
                exact insertOnce_keeps h' (not_not.mp hclass) (by simpa using hop) (retryRecord_ok hr)
                  (by rw [hrow]; exact Option.some_ne_none row)

theorem executeOperation_keeps {a : ExecuteArgs F} (h : Booked ctl b log)
    (hpaid : (log.countP (calledFor fun r' => r'.taskId = r.taskId) : Int) < spent b r.taskId)
    (heligible : Eligible r a.now) (hscheduled : Scheduled log r) :
    (executeOperation a r).Throughout perform (Booked ctl) b log := by
  have hcalled := h.operationFn hpaid heligible hscheduled
  refine ⟨h,?_⟩
  cases a.operation with
  | returns | raises message => exact ⟨hcalled,hcalled.mark _⟩
  | interrupted => exact hcalled

theorem consumeAndExecute_keeps {a : ExecuteArgs F} (h : Booked ctl b log)
    (heligible : Eligible r a.now) (hscheduled : Scheduled log r) :
    (consumeAndExecute ctl a r r.taskId).Throughout perform (Booked ctl) b log := by
  refine retryLedger_keeps h ?_
  intro b' log' row h' hrow hlater
  split
  · exact ⟨h',h'.mark _⟩
  · exact h'
  · rename_i u hu
    obtain ⟨hlimit,hcount⟩ := transientUpdate_ok hu
    obtain ⟨hspent,hpaid⟩ := h'.spend hrow hlimit hcount
    exact ⟨h',executeOperation_keeps hspent hpaid heligible (hlater r hscheduled).append⟩

theorem executeRetry_keeps (a : ExecuteArgs F) (h : Booked ctl b log) :
    (executeRetry ctl a).Throughout perform (Booked ctl) b log := by
  refine ⟨h,?_⟩
  have hloaded : Booked ctl b (log ++ [⟨.findRetry a.retryRequestId,b.retries.get a.retryRequestId⟩]) := h.read (by rintro ⟨⟩)
  simp only [perform]
  cases hget : b.retries.get a.retryRequestId with
  | none =>
    rw [hget] at hloaded
    exact hloaded
  | some r =>
    rw [hget] at hloaded
    have hfound := hloaded.read (e := ⟨.findRetry a.retryRequestId,some r⟩) (by rintro ⟨⟩)
    refine ⟨hloaded,?_⟩
    simp only [perform,hget]
    split
    · exact hfound
    · split
      · exact hfound
      · rename_i t ht
        split
        · exact hfound
        · rename_i hnow
          have hscheduled := hfound.origins r (get_eq_some.mp hget).1
          exact consumeAndExecute_keeps hfound ⟨t,ht,by simpa using hnow⟩ hscheduled

theorem empty_booked : Booked ctl (.empty : RetryBooks F) [] where
  within := fun _ => Int.natCast_nonneg _
  paid := fun _ => le_rfl
  funded := fun _ hr => absurd hr not_mem_nil
  origins := fun _ hr => absurd hr not_mem_nil
  eligible := fun _ _ h => absurd h not_mem_nil
  scheduled := fun _ _ _ _ h => absurd h.symm (by simp)

theorem call_keeps (c : RetryCall F) (b : RetryBooks F) (log : List (RetryEntry F)) (h : Booked ctl b log) :
    (c.program ctl).Throughout perform (Booked ctl) b log := by
  cases c with
  | scheduleRetry a => exact scheduleRetry_keeps a h
  | executeRetry a => exact executeRetry_keeps a h

end Bdb.Recovery
