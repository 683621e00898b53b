import Bdb.Project.Calls

/-! # Stale results and completed tasks

A result that is found stale leaves one stale attempt, the flag and one event behind,
and nothing else. A task that is stored as completed stays so for ever.
-/
namespace Bdb.Project
open Program

/-! ## Submitting a result -/

/-- What the caller sees once the transaction is over. -/
def answer (site : Site) (projectId : String) : Recorded → Action ProjectExecutionAttempt
  | (attempt,some reason) =>
    throw ⟨"STALE_RESULT","execution result is stale and requires reconciliation",
      [("attempt_id",.str attempt.attemptId),("reason",reason)]⟩
  | (attempt,none) => do
    let _ ← reconcile site projectId
    pure attempt

variable {amb : Ambient} {site : Site} {projectId : String} {result : Fields} {m : Memory} {s : Submission}

theorem exec_recordResult (h : submission amb site projectId result m = .ok s) :
    (recordResult amb site projectId result).exec m =
      match executionTransaction projectId
        (recordResultTransition amb s.project s.plan s.bindingId result) m with
      | .ok (n,r) => (answer site projectId r).exec n
      | .error e => (.error e,m) := by
  obtain ⟨hauth,hid,-,-⟩ := submission_ok h
  simp only [recordResult,lift,exec_bind,exec_observe,hauth,hid,transact,exec_commit]
  cases executionTransaction projectId
    (recordResultTransition amb s.project s.plan s.bindingId result) m with
  | error e => rfl
  | ok p =>
    obtain ⟨n,attempt,stale⟩ := p
    cases stale <;> rfl

def lateState (s : ProjectMemoryState) (d : ExecutionDocument) (attempt : AttemptDocument)
    (event : ProjectEvent) : ProjectMemoryState :=
  { s with
    execution := { d with attempts := d.attempts ++ [attempt], staleResult := true }.toExecution,
    events := s.events ++ [event], revision := s.revision + 1 }

theorem recordResult_stale
     {reason : StaleReason}
    (hs : submission amb site projectId result m = .ok s) (hk : s.found.kind = .stale reason) :
    (∃ e, (recordResult amb site projectId result).exec m = (.error e,m)) ∨
      ∃ attempt event, attempt.isStale = true ∧ Carries s.bindingId s.found.digest attempt ∧
        event.eventType = "EXECUTION_STALE_RESULT" ∧
        (recordResult amb site projectId result).exec m =
          (.error ⟨"STALE_RESULT","execution result is stale and requires reconciliation",
            [("attempt_id",.str attempt.attempt.attemptId),("reason",.str reason.text)]⟩,
          some (lateState s.state (documentOf m) attempt event)) := by
  obtain ⟨-,-,hread,hx⟩ := submission_ok hs
  rw [exec_recordResult hs]
  cases ht : executionTransaction projectId
      (recordResultTransition amb s.project s.plan s.bindingId result) m with
  | error e => exact .inl ⟨e,rfl⟩
  | ok p =>
    right
    obtain ⟨n,r⟩ := p
    obtain ⟨current,updated,hcur,hrun,-,rfl,-⟩ := executionTransaction_ok ht
    obtain rfl : s.state = current := Except.ok.inj (hread.symm.trans hcur)
    obtain ⟨x,hx',hrun⟩ := bind_ok.mp hrun
    obtain rfl : s.found = x := Except.ok.inj (hx.symm.trans hx')
    simp only [hk] at hrun
    obtain ⟨_,hrun⟩ := rest_ok hrun
    obtain ⟨attempt,hattempt,hrun⟩ := bind_ok.mp hrun
    obtain ⟨logged,hev,hrun⟩ := bind_ok.mp hrun
    obtain ⟨rfl,rfl⟩ := Prod.mk.inj (pure_ok.mp hrun)
    obtain ⟨hstatus,hcarries⟩ := attemptDocument_ok hattempt
    obtain ⟨event,rfl,htype,-⟩ := appendEvent_ok hev
    refine ⟨attempt,event,by simp [AttemptDocument.isStale,hstatus],hcarries,htype,?_⟩
    obtain ⟨digestV1,hex⟩ := examine_ok hx
    rw [← document_of_readState hread,← executionDocument_eq hex.document]
    rfl

/-! ## Completed tasks -/

theorem Change.completed_kept {plan : ProjectPlan} {l : Label} {d e : ExecutionDocument}
    (h : Change plan l d e) {taskId : String} (hd : d.taskStatuses.lookup taskId = some .completed) :
    e.taskStatuses.lookup taskId = some .completed := by
  have hinsert : ∀ (k : String) (v : TaskStatus), (k = taskId → v = .completed) →
      (d.taskStatuses.insert k v).lookup taskId = some .completed := by
    intro k v hv
    by_cases hk : taskId = k
    · subst hk
      rw [AList.lookup_insert,hv rfl]
    · rw [AList.lookup_insert_ne hk,hd]
  cases h with
  | launch now binding task =>
    change (d.taskStatuses.setdefault binding.taskId .active).lookup taskId = _
    rw [Dict.lookup_setdefault]
    split
    · rename_i hk
      subst hk
      rw [Dict.get_of_lookup hd]
    · exact hd
  | settle now raw task attempt acceptance status hs =>
    change (advanced now plan task.taskId status _).taskStatuses.lookup taskId = _
    rw [advanced_taskStatuses]
    -- the downgrade guard reads the stored status of the same task
    refine hinsert task.taskId status fun hk => hs.kept (effectiveStatus_of_lookup ?_)
    rw [hk]
    exact hd
  | approve now k acceptance =>
    rw [approved_taskStatuses]
    exact hinsert k .completed fun _ => rfl
  | reopen now k hreview =>
    rw [changesRequested_taskStatuses]
    refine hinsert k .active fun hk => ?_
    rw [hk,hd] at hreview
    cases hreview
  | _ => exact hd

/-- A stale result changes only the attempt it adds, the flag, one event and the
revision; and a completed task stays completed in every run. -/
theorem stale_results_are_inert :
    (∀ (amb : Ambient) (site : Site) (projectId : String) (result : Fields) (m : Memory) (s : Submission)
      (reason : StaleReason), submission amb site projectId result m = .ok s →
        s.found.kind = .stale reason →
      (∃ e, (recordResult amb site projectId result).exec m = (.error e,m)) ∨
        ∃ attempt event e, attempt.isStale = true ∧ event.eventType = "EXECUTION_STALE_RESULT" ∧
          (recordResult amb site projectId result).exec m =
            (.error e,some (lateState s.state (documentOf m) attempt event))) ∧
    (∀ (calls : List Call) (m : Memory) (taskId : String),
      (documentOf m).taskStatuses.lookup taskId = some .completed →
        (documentOf (runCalls calls m)).taskStatuses.lookup taskId = some .completed) := by
  refine ⟨?_,?_⟩
  · intro amb site projectId result m s reason hs hk
    rcases recordResult_stale hs hk with hrefused | ⟨attempt,event,hlate,-,htype,hexec⟩
    · exact .inl hrefused
    · exact .inr ⟨attempt,event,_,hlate,htype,hexec⟩
  · intro calls m taskId hd
    exact runCalls_invariant (fun _ _ _ _ _ h => h.completed_kept) calls hd

def launchedSite : Site := sampleSite (samplePlan [sampleTask "t1" "m1" .pending []]) oneTask_wellFormed

/-- One launch, waiting for its result. -/
def launchedMemory : Memory :=
  some ((ProjectMemoryState.fresh "p1").withDocument
    (launched "now" (sampleBinding "b1" "t1") Execution.empty.filled))

def strayResult : Fields := [("execution_binding_id",.str "b1"),("command_id",.str "other")]

def completedMemory : Memory :=
  some ((ProjectMemoryState.fresh "p1").withDocument
    { Execution.empty.filled with taskStatuses := (∅ : Dict TaskStatus).insert "t1" .completed })

theorem stale_results_are_inert_stray :
    (∃ s, submission sampleAmbient launchedSite "p1" strayResult launchedMemory = .ok s ∧
      s.found.kind = .stale .identityMismatch ∧
      ((∃ e, (recordResult sampleAmbient launchedSite "p1" strayResult).exec launchedMemory =
          (.error e,launchedMemory)) ∨
        ∃ attempt event e, attempt.isStale = true ∧ event.eventType = "EXECUTION_STALE_RESULT" ∧
          (recordResult sampleAmbient launchedSite "p1" strayResult).exec launchedMemory =
            (.error e,some (lateState s.state (documentOf launchedMemory) attempt event)))) ∧
    (documentOf (runCalls [⟨sampleAmbient,launchedSite,.approveReview "p1" "t1" "ok"⟩]
      completedMemory)).taskStatuses.lookup "t1" = some .completed := by
  refine ⟨?_,stale_results_are_inert.2 _ completedMemory "t1" rfl⟩
  have hkind : (submission sampleAmbient launchedSite "p1" strayResult launchedMemory).toOption.map
      (·.found.kind) = some (.stale .identityMismatch) := by decide +kernel
  obtain ⟨s,hs,hk⟩ := Option.map_eq_some_iff.mp hkind
  have hsub := toOption_eq_some.mp hs
  exact ⟨s,hsub,hk,stale_results_are_inert.1 _ _ _ _ _ s _ hsub hk⟩

end Bdb.Project
