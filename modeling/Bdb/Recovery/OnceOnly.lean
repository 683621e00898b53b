import Bdb.Recovery.BoundedRetries

/-! # Each request at most once

An execution calls the operation exactly when its record is not marked, its delay has passed
and an attempt is left, and the crash comes no earlier than the call. So a request is called
twice exactly when it is executed again after a crash has lost its mark.
-/
namespace Bdb.Recovery

open Budget Floats List
open RetryRequest (perform)

variable {F : Type} [Floats F] {ctl : RecoveryController F} {b : RetryBooks F} {log : List (RetryEntry F)}
  {a : ExecuteArgs F}

/-- The execution passes every check before the call of the operation. -/
def WouldCall (ctl : RecoveryController F) (b : RetryBooks F) (a : ExecuteArgs F) : Prop :=
  ∃ r, b.retries.get a.retryRequestId = some r ∧ r.suppressed = false ∧ Eligible r a.now ∧
    spent b r.taskId < ctl.policy.maxAttempts ∧ ∃ text, isoformat a.now = .ok text

/-! ## The requests of a call -/

def Silent (entries : List (RetryEntry F)) : Prop := ∀ e ∈ entries, ¬ Calls e

omit [Floats F] in
theorem silent_nil : Silent ([] : List (RetryEntry F)) := fun _ he => absurd he not_mem_nil

variable {entries : List (RetryEntry F)} {cut : Option ℕ}
  {s : Logged (RetryBooks F) (RetryRequest.Answer (F := F))}

omit [Floats F] in
theorem Silent.cons {e : RetryEntry F} (h : Silent entries) (he : ¬ Calls e) :
    Silent (e :: entries) := by
  intro e' he'
  rcases mem_cons.mp he' with rfl | he'
  · exact he
  · exact h e' he'

omit [Floats F] in
theorem getOrCreateLedger_silent {taskId now : String} {runId : Option String} {f : LedgerRow → RetryScript F}
    (hf : ∀ b' row, b'.ledgers.get taskId = some row → spent b' taskId = spent b taskId →
      Silent ((f row).trace perform b')) :
    Silent ((getOrCreateLedger ctl taskId runId now f).trace perform b) := by
  refine Silent.cons ?_ (by rintro ⟨⟩)
  simp only [perform]
  cases hrow : b.ledgers.get taskId with
  | some row => exact hf b row hrow rfl
  | none =>
    refine Silent.cons ?_ (by rintro ⟨⟩)
    simp only [perform]
    have hspent := spent_createLedger b ⟨shortDigest "bl-" (ctl.projectId ++ ":" ++ taskId),taskId,runId,now⟩ taskId
    rcases hc : b.createLedger ⟨shortDigest "bl-" (ctl.projectId ++ ":" ++ taskId),taskId,runId,now⟩ with ⟨b',o⟩
    rw [hc] at hspent
    cases o with
    | error err => exact silent_nil
    | ok u =>
      refine Silent.cons ?_ (by rintro ⟨⟩)
      simp only [perform]
      cases hrow' : b'.ledgers.get taskId with
      | none => exact silent_nil
      | some row => exact hf b' row hrow' hspent

variable (ctl) in
theorem scheduleRetry_silent (s : ScheduleArgs F) : Silent ((scheduleRetry ctl s).trace perform b) := by
  have hinsert : ∀ (r : TransientRetryRecord F) (b : RetryBooks F), Silent ((insertOnce s r).trace perform b) := by
    intro r b
    refine Silent.cons ?_ (by rintro ⟨⟩)
    simp only [perform]
    cases b.retries.get r.retryRequestId with
    | some existing => exact Silent.cons silent_nil (by rintro ⟨⟩)
    | none =>
      refine Silent.cons ?_ (by rintro ⟨⟩)
      simp only [perform]
      rcases b.insertRetry r with ⟨b',o⟩
      cases o <;> exact silent_nil
  unfold scheduleRetry
  split
  · exact silent_nil
  · split
    · exact silent_nil
    · split
      · exact silent_nil
      · split
        · exact silent_nil
        · split
          · exact silent_nil
          · refine getOrCreateLedger_silent ?_
            intro b' row _ _
            split
            · exact silent_nil
            · split
              · exact silent_nil
              · exact hinsert _ b'

omit [Floats F] in
theorem executeOperation_trace (b : RetryBooks F) (r : TransientRetryRecord F) :
    ∃ rest, (executeOperation a r).trace perform b = ⟨.operationFn r a.now,()⟩ :: rest ∧ Silent rest := by
  refine ⟨_,rfl,?_⟩
  cases a.operation with
  | returns | raises message => exact Silent.cons silent_nil (by rintro ⟨⟩)
  | interrupted => exact silent_nil

theorem transientUpdate_of {row : LedgerRow} {text : String}
    (hlimit : row.transientRetryCount < ctl.policy.maxAttempts) (htext : isoformat a.now = .ok text) :
    ∃ u, transientUpdate ctl.policy.budget row (isoformat a.now) = .ok u := by
  refine ⟨_,bind_of (Step.answerUnless_of hlimit _) (bind_ok.mpr ⟨text,?_,rfl⟩)⟩
  exact Step.orRaise_ok.mpr htext

theorem executeRetry_calls (h : Booked ctl b log) (hcall : WouldCall ctl b a) :
    ∃ r first rest, b.retries.get a.retryRequestId = some r ∧ first.length = 4 ∧ Silent first ∧ Silent rest ∧
      (executeRetry ctl a).trace perform b = first ++ ⟨.operationFn r a.now,()⟩ :: rest := by
  obtain ⟨r,hget,hmark,⟨t,ht,hnow⟩,hspent,text,htext⟩ := hcall
  cases hrow : b.ledgers.get r.taskId with
  | none => exact absurd hrow (h.funded r (Table.get_eq_some.mp hget).1)
  | some row =>
    have hcount : spent b r.taskId = row.transientRetryCount := by
      unfold spent
      rw [hrow]
      rfl
    obtain ⟨u,hu⟩ := transientUpdate_of (hcount ▸ hspent) htext
    obtain ⟨rest,htrace,hrest⟩ := executeOperation_trace (a := a) (b.spend r.taskId u) r
    refine ⟨r,[⟨.findRetry a.retryRequestId,some r⟩,⟨.findRetry a.retryRequestId,some r⟩,
      ⟨.loadLedger r.taskId,some row⟩,⟨.spend r.taskId u,()⟩],rest,hget,rfl,?_,hrest,?_⟩
    · refine Silent.cons (Silent.cons (Silent.cons (Silent.cons silent_nil ?_) ?_) ?_) ?_
      all_goals rintro ⟨⟩
    · rw [cons_append,cons_append,cons_append,cons_append,nil_append,← htrace]
      simp only [executeRetry,consumeAndExecute,getOrCreateLedger,Script.trace_ask,perform,hget,hmark,ht,hnow,hrow,hu,
        Bool.false_eq_true,if_false]

theorem executeRetry_silent (hcall : ¬ WouldCall ctl b a) : Silent ((executeRetry ctl a).trace perform b) := by
  refine Silent.cons ?_ (by rintro ⟨⟩)
  simp only [perform]
  cases hget : b.retries.get a.retryRequestId with
  | none => exact silent_nil
  | some r =>
    refine Silent.cons ?_ (by rintro ⟨⟩)
    simp only [perform,hget]
    split
    · exact silent_nil
    · rename_i hmark
      split
      · exact silent_nil
      · rename_i t ht
        split
        · exact silent_nil
        · rename_i hnow
          refine getOrCreateLedger_silent ?_
          intro b' row hrow hspent
          split
          · exact Silent.cons silent_nil (by rintro ⟨⟩)
          · exact silent_nil
          · rename_i u hu
            refine absurd ⟨r,hget,by simpa using hmark,⟨t,ht,by simpa using hnow⟩,?_,?_⟩ hcall
            · have hcount : spent b' r.taskId = row.transientRetryCount := by
                unfold spent
                rw [hrow]
                rfl
              rw [← hspent,hcount]
              exact (transientUpdate_ok hu).1
            · obtain ⟨_,hu⟩ := rest_ok hu
              obtain ⟨text,htext,-⟩ := bind_ok.mp hu
              exact ⟨text,Step.orRaise_ok.mp htext⟩

/-! ## Runs -/

def Once (log : List (RetryEntry F)) : Prop := ∀ id, log.countP (calledFor fun r => r.retryRequestId = id) ≤ 1

def Called (log : List (RetryEntry F)) (id : String) : Prop :=
  ∃ r now, ⟨.operationFn r now,()⟩ ∈ log ∧ r.retryRequestId = id

/-- An execution that calls the operation of a request called before: the crash that cut the
earlier execution off has lost its mark. -/
def CallsAgain (ctl : RecoveryController F) (s : Logged (RetryBooks F) (RetryRequest.Answer (F := F)))
    (e : Attempt (RetryCall F)) : Prop :=
  ∃ a, e.call = .executeRetry a ∧ Called s.log a.retryRequestId ∧ WouldCall ctl s.store a ∧ Reaches 5 e.cut

omit [Floats F] in
theorem countP_silent (h : Silent entries) (p : TransientRetryRecord F → Bool) :
    entries.countP (calledFor p) = 0 := by
  refine countP_eq_zero.mpr ?_
  intro e he
  rw [calledFor_quiet (h e he)]
  exact Bool.false_ne_true

omit [Floats F] in
theorem Silent.sublist {entries' : List (RetryEntry F)} (h : Silent entries) (hsub : entries'.Sublist entries) :
    Silent entries' := fun e he => h e (hsub.subset he)

omit [Floats F] in
theorem countP_called {id : String} :
    log.countP (calledFor fun r => r.retryRequestId = id) = 0 ↔ ¬ Called log id := by
  rw [countP_eq_zero]
  constructor
  · rintro h ⟨r,now,hmem,hid⟩
    exact h _ hmem (decide_eq_true hid)
  · rintro h ⟨q,answer⟩ hmem hcalled
    cases q with
    | operationFn r now => exact h ⟨r,now,hmem,of_decide_eq_true hcalled⟩
    | _ => cases hcalled

theorem countP_execute (h : Booked ctl b log) (hcall : WouldCall ctl b a) (hcut : Reaches 5 cut)
    (id : String) :
    (((executeRetry ctl a).cutOff perform cut b).2).countP (calledFor fun r => r.retryRequestId = id) =
      if a.retryRequestId = id then 1 else 0 := by
  obtain ⟨r,first,rest,hget,hlength,hfirst,hrest,htrace⟩ := executeRetry_calls h hcall
  have hkey : r.retryRequestId = a.retryRequestId := Table.key_of_get hget
  have hone : ∀ later, Silent later → (first ++ ⟨.operationFn r a.now,()⟩ :: later).countP
      (calledFor fun r' => r'.retryRequestId = id) = if a.retryRequestId = id then 1 else 0 := by
    intro later hlater
    rw [countP_append,countP_silent hfirst,countP_cons,countP_silent hlater]
    simp [calledFor,hkey]
  cases cut with
  | none =>
    change ((executeRetry ctl a).trace perform b).countP _ = _
    rw [htrace]
    exact hone rest hrest
  | some n =>
    obtain ⟨m,rfl⟩ : ∃ m, n = first.length + (m + 1) := ⟨n - 5,by have := hcut n rfl; omega⟩
    rw [Script.cutOff_some,htrace,take_length_add_append,take_succ_cons]
    exact hone _ (hrest.sublist (take_sublist m rest))

theorem execute_silent (h : Booked ctl b log) (hcall : ¬ (WouldCall ctl b a ∧ Reaches 5 cut)) :
    Silent (((executeRetry ctl a).cutOff perform cut b).2) := by
  by_cases hwould : WouldCall ctl b a
  · obtain ⟨r,first,rest,-,hlength,hfirst,-,htrace⟩ := executeRetry_calls h hwould
    cases cut with
    | none => exact absurd ⟨hwould,fun k hk => absurd hk (by simp)⟩ hcall
    | some n =>
      have hshort : n ≤ first.length := by
        have hn : ¬ Reaches 5 (some n) := fun hcut => hcall ⟨hwould,hcut⟩
        simp [Reaches] at hn
        omega
      rw [Script.cutOff_some,htrace,take_append_of_le_length hshort]
      exact hfirst.sublist (take_sublist n first)
  · exact (executeRetry_silent hwould).sublist (Script.cutOff_sublist cut _ b)

theorem booked_next (e : Attempt (RetryCall F)) (h : Booked ctl s.store s.log) :
    Booked ctl (Logged.next perform (RetryCall.program ctl) s e).store
      (Logged.next perform (RetryCall.program ctl) s e).log :=
  (call_keeps e.call s.store s.log h).cutOff e.cut

theorem once_next (e : Attempt (RetryCall F)) (h : Booked ctl s.store s.log) (hs : Once s.log) :
    Once (Logged.next perform (RetryCall.program ctl) s e).log ↔ ¬ CallsAgain ctl s e := by
  have hlog : (Logged.next perform (RetryCall.program ctl) s e).log =
      s.log ++ ((e.call.program ctl).cutOff perform e.cut s.store).2 := rfl
  unfold Once
  rw [hlog]
  cases hc : e.call with
  | scheduleRetry a =>
    have hsilent := (scheduleRetry_silent ctl (b := s.store) a).sublist
      (Script.cutOff_sublist e.cut (Recovery.scheduleRetry ctl a) s.store)
    constructor
    · rintro - ⟨a',ha',-⟩
      rw [hc] at ha'
      cases ha'
    · intro _ id
      rw [countP_append,RetryCall.program,countP_silent hsilent]
      exact hs id
  | executeRetry a =>
    constructor
    · rintro honce ⟨a',ha',hcalled,hcall,hcut⟩
      rw [hc] at ha'
      cases ha'
      have hid := honce a.retryRequestId
      have hbefore := mt countP_called.mp (not_not.mpr hcalled)
      rw [countP_append,RetryCall.program,countP_execute h hcall hcut,if_pos rfl] at hid
      omega
    · intro hagain id
      have hid := hs id
      rw [countP_append,RetryCall.program]
      by_cases hcalls : WouldCall ctl s.store a ∧ Reaches 5 e.cut
      · rw [countP_execute h hcalls.1 hcalls.2]
        split
        · rename_i heq
          have hnew : ¬ Called s.log id := fun hcalled => hagain ⟨a,hc,heq ▸ hcalled,hcalls⟩
          rw [countP_called.mpr hnew]
        · exact hid
      · rw [countP_silent (execute_silent h hcalls)]
        exact hid

theorem once_of_next (e : Attempt (RetryCall F))
    (h : Once (Logged.next perform (RetryCall.program ctl) s e).log) : Once s.log := by
  intro id
  have hid := h id
  rw [show (Logged.next perform (RetryCall.program ctl) s e).log =
    s.log ++ ((e.call.program ctl).cutOff perform e.cut s.store).2 from rfl,countP_append] at hid
  omega

/-- The retries of every run stay within their limits, but for the requests that are called
once more after a crash has lost their mark. -/
theorem retries_bounded_iff (ctl : RecoveryController F) (attempts : List (Attempt (RetryCall F))) :
    Bounded ctl (retryRun ctl attempts).log ↔
      Along (Logged.next perform (RetryCall.program ctl)) (fun s e => ¬ CallsAgain ctl s e) ⟨.empty,[]⟩ attempts := by
  have hbooked : Booked ctl (retryRun ctl attempts).store (retryRun ctl attempts).log :=
    Logged.run_keeps call_keeps empty_booked attempts
  have honce : Once (retryRun ctl attempts).log ↔ _ :=
    along_iff_of_invariant (I := fun s : Logged (RetryBooks F) (RetryRequest.Answer (F := F)) => Once s.log)
      (fun s e h => booked_next e h) (fun s e h => once_next e h) (fun s e => once_of_next e)
      (empty_booked : Booked ctl _ _) (fun id => Nat.zero_le _)
  rw [← honce]
  constructor
  · exact fun h => h.once
  · intro h
    refine ⟨h,?_,hbooked.eligible,hbooked.scheduled⟩
    intro taskId
    have hpaid := hbooked.paid taskId
    have hwithin := hbooked.within taskId
    omega

/-! ## A mark that is lost -/

def sampleController : RecoveryController ℤ := ⟨"p1",⟨3,[2,10,30],0⟩⟩

def sampleSchedule : ScheduleArgs ℤ where
  runId := "r1"
  operation := ⟨"query","T1","CONNECTOR_QUERY",true,none⟩
  failureClass := .transientInfrastructure
  fingerprintDigest := .ok "fp1:0"
  evidenceDigest := .ok "sha256:0"
  now := 0
  createdAt := "0"

def sampleRequestId : String := shortDigest "ret-" "p1:r1:T1:query:1:fp1:0"

def sampleExecute (now : ℤ) : ExecuteArgs ℤ := ⟨sampleRequestId,.returns,now,toString now⟩

/-- The first execution crashes after the call of the operation. -/
def lostMark : List (Attempt (RetryCall ℤ)) :=
  [⟨.scheduleRetry sampleSchedule,none⟩,⟨.executeRetry (sampleExecute 2),some 5⟩,
    ⟨.executeRetry (sampleExecute 3),none⟩]

theorem lost_mark_calls_again : ¬ Bounded sampleController (retryRun sampleController lostMark).log := by
  intro h
  have htwice : (retryRun sampleController lostMark).log.countP
      (calledFor fun r => r.retryRequestId = sampleRequestId) = 2 := by decide +kernel
  have honce := h.once sampleRequestId
  omega

end Bdb.Recovery
