import Bdb.Base.Runs
import Bdb.Base.Sha256
import Bdb.Scope.UntilStoppedSteps

/-! # Runs of the controller

One plan is approved at a time, launches are legal, STOP is left by a resume alone and a
failed start leaves nothing. A scope that waits for a plan goes on waiting until a
successor is approved, in every run in which no STOP of a waiting scope is resumed: STOP
overwrites what a resume looks at.
-/
namespace Bdb.Scope

open List

open Continuation (AutoScope ScopeCursor StopFenceRecord StopRequest Database)
open Continuation.Database (ResumeRequest)

variable {rt : Runtime} {s : ControllerState} {op : ScopeOperation}

def Stopped (s : ControllerState) : Prop := ∃ c, s.db.cursor = some c ∧ c.stopped = true

def Waiting (s : ControllerState) : Prop := ∃ c, s.db.cursor = some c ∧ waiting c = true

def StoppedWaiting (s : ControllerState) : Prop :=
  ∃ c f, s.db.cursor = some c ∧ c.stopped = true ∧ s.db.fenceOf c.scopeEpoch = some f ∧
    f.priorDisposition = "WAITING_FOR_PLAN"

def Approves (rt : Runtime) (s : ControllerState) (op : ScopeOperation) : Prop :=
  ∃ name approvedBy now o, op = .approveSuccessor name approvedBy now ∧
    (s.approveSuccessor rt name approvedBy now).2 = .ok o ∧ o.success = true

def KeepsWaiting (s : ControllerState) : ScopeOperation → Prop
  | .resume q => StoppedWaiting s → ∃ e ∈ q.expectedPriorEpoch, some e ≠ s.db.cursor.map (·.scopeEpoch)
  | _ => True

/-! ## The invariant -/

structure ControllerInv (rt : Runtime) (s : ControllerState) : Prop where
  admitted : Admitted rt s.admissions
  started : s.db.cursor = none → s.admissions.rows = []
  own : ∀ c, s.db.cursor = some c → OwnCursor c

theorem ControllerInv.stored {c : ScopeCursor} {admissions : Admissions} {explanation : Option DecisionExplanation}
    (hc : OwnCursor c) (hin : Admitted rt admissions) :
    ControllerInv rt ⟨{ s.db with cursor := some c },explanation,admissions⟩ where
  admitted := hin
  started h := by cases h
  own c' hc' := by
    cases hc'
    exact hc

theorem stop_inv (h : ControllerInv rt s) (q : StopRequest) : ControllerInv rt { s with db := (s.db.stop q).1 } := by
  rcases Continuation.Database.stop_cases s.db q with hsame | ⟨c,fences,audit,hc,-,-,-,hdone⟩
  · rw [hsame]
    exact h
  · rw [hdone]
    refine .stored (s := { s with db := { s.db with intents := _, fences := fences, audit := audit } }) ?_ h.admitted
    have hown := h.own c hc
    refine ⟨hown.scope,hown.explicit,?_⟩
    intro hwaiting
    exact absurd hwaiting (by simp [waiting])

theorem executeResume_ok {db done : Database} {q : ResumeRequest} {c : ScopeCursor} (h : db.executeResume q = .ok (done,c)) :
    ∃ old audit, db.cursor = some old ∧ (∀ e ∈ q.expectedPriorEpoch, e = old.scopeEpoch) ∧
      c.scope = old.scope ∧ c.scopeSelectionExplicit = old.scopeSelectionExplicit ∧ c.status = "ACTIVE" ∧
      (c.disposition = if old.disposition = "WAITING_FOR_PLAN" then "WAITING_FOR_PLAN" else "INITIALIZED") ∧
      done = { db with cursor := some c, audit := audit } := by
  obtain ⟨old,hold,h⟩ := of_need h
  obtain ⟨hepoch,h⟩ := of_require h
  dsimp only at h
  obtain ⟨db',hdone,h⟩ := bind_ok.mp h
  obtain ⟨audit,-,rfl⟩ := Continuation.Database.appendEvent_ok hdone
  cases pure_ok.mp h
  exact ⟨old,audit,hold,hepoch,rfl,rfl,rfl,rfl,rfl⟩

theorem resume_state (s : ControllerState) (q : ResumeRequest) :
    (s.db.resume q).1 = s.db ∨ ∃ done c, s.db.executeResume q = .ok (done,c) ∧ (s.db.resume q).1 = done := by
  unfold Continuation.Database.resume Continuation.Database.commit
  split
  · rename_i done c h
    exact .inr ⟨done,c,h,rfl⟩
  · exact .inl rfl

theorem resume_inv (h : ControllerInv rt s) (q : ResumeRequest) : ControllerInv rt { s with db := (s.db.resume q).1 } := by
  rcases resume_state s q with hsame | ⟨done,c,hdone,hstate⟩
  · rw [hsame]
    exact h
  · obtain ⟨old,audit,hold,-,hscope,hexplicit,hstatus,-,rfl⟩ := executeResume_ok hdone
    rw [hstate]
    refine .stored (s := { s with db := { s.db with audit := audit } }) ?_ h.admitted
    have hown := h.own old hold
    refine ⟨hscope.trans hown.scope,hexplicit.trans hown.explicit,?_⟩
    intro hwaiting
    rcases waiting_iff.mp hwaiting with hwrong | hdisposition
    · rw [hstatus] at hwrong
      exact absurd hwrong (by decide)
    · exact hdisposition

variable {i : UntilStoppedInputs} {plan : Option PlanSubmission}

theorem evaluate_inv (h : ControllerInv rt s) : ControllerInv rt (s.evaluate rt i plan).1 := by
  rcases evaluate_cases rt s i plan h.own with hsame | ⟨cursor,stored,explanation,-,-,-,hstored,hstate⟩
  · rw [hsame]
    exact h
  · rw [hstate]
    exact .stored hstored h.admitted

theorem tick_inv {stamps : StopStamps} (h : ControllerInv rt s) :
    ControllerInv rt (s.tick rt i plan stamps).1 := by
  rcases tick_cases rt s i plan stamps with ⟨hsame,-⟩ | heval | ⟨q,⟨hstop,-⟩ | heval⟩
  · rw [hsame]
    exact h
  · rw [heval]
    exact evaluate_inv h
  · rw [hstop]
    exact stop_inv h q
  · rw [heval]
    exact evaluate_inv (stop_inv h q)

theorem perform_inv (h : ControllerInv rt s) (op : ScopeOperation) : ControllerInv rt (s.perform rt op) := by
  cases op with
  | start args =>
    change ControllerInv rt (s.start rt args).1
    rcases start_cases s args h.started h.admitted with hsame | ⟨-,cursor,admissions,-,hcursor,hin,hstate⟩
    · rw [hsame]
      exact h
    · rw [hstate]
      exact .stored hcursor hin
  | presentSuccessor p predecessor suffix now =>
    change ControllerInv rt (s.presentSuccessor rt p predecessor suffix now).1
    rcases presentSuccessor_cases s p predecessor suffix now h.admitted with hsame | ⟨⟨cursor,hcursor⟩,admissions,hin,hstate⟩
    · rw [hsame]
      exact h
    · rw [hstate]
      refine ⟨hin,?_,h.own⟩
      intro hnone
      change s.db.cursor = none at hnone
      rw [hcursor] at hnone
      cases hnone
  | approveSuccessor name approvedBy now =>
    change ControllerInv rt (s.approveSuccessor rt name approvedBy now).1
    rcases approveSuccessor_cases s name approvedBy now h.admitted h.own with
      hsame | ⟨cursor,stored,admissions,-,-,hstored,hin,-,hstate⟩
    · rw [hsame]
      exact h
    · rw [hstate]
      exact .stored hstored hin
  | tick i plan stamps => exact tick_inv h
  | stop q => exact stop_inv h q
  | resume q => exact resume_inv h q

/-! ## STOP is kept -/

theorem stop_keeps_stopped (h : Stopped s) (q : StopRequest) : Stopped { s with db := (s.db.stop q).1 } := by
  rcases Continuation.Database.stop_cases s.db q with hsame | ⟨c,fences,audit,-,-,-,-,hdone⟩
  · rw [hsame]
    exact h
  · rw [hdone]
    exact ⟨_,rfl,rfl⟩

theorem evaluate_stopped (h : Stopped s) : (s.evaluate rt i plan).1 = s := by
  obtain ⟨c,hc,hstopped⟩ := h
  unfold ControllerState.evaluate
  rw [hc]
  dsimp only
  rw [if_pos hstopped]

theorem stopped_kept (hinv : ControllerInv rt s) (h : Stopped s) (hop : ∀ q, op ≠ .resume q) :
    Stopped (s.perform rt op) := by
  obtain ⟨c,hc,hstopped⟩ := h
  have hs : Stopped s := ⟨c,hc,hstopped⟩
  cases op with
  | start args =>
    change Stopped (s.start rt args).1
    rcases start_cases s args hinv.started hinv.admitted with hsame | ⟨hnone,-⟩
    · rw [hsame]
      exact hs
    · rw [hc] at hnone
      cases hnone
  | presentSuccessor p predecessor suffix now =>
    change Stopped (s.presentSuccessor rt p predecessor suffix now).1
    rcases presentSuccessor_cases s p predecessor suffix now hinv.admitted with hsame | ⟨-,admissions,-,hstate⟩
    · rw [hsame]
      exact hs
    · rw [hstate]
      exact hs
  | approveSuccessor name approvedBy now =>
    change Stopped (s.approveSuccessor rt name approvedBy now).1
    rcases approveSuccessor_cases s name approvedBy now hinv.admitted hinv.own with hsame | ⟨cursor,_,_,hcursor,hactive,-⟩
    · rw [hsame]
      exact hs
    · rw [hc] at hcursor
      cases hcursor
      rw [hstopped] at hactive
      cases hactive
  | tick i plan stamps =>
    change Stopped (s.tick rt i plan stamps).1
    rcases tick_cases rt s i plan stamps with ⟨hsame,-⟩ | heval | ⟨q,⟨hstop,-⟩ | heval⟩
    · rw [hsame]
      exact hs
    · rw [heval,evaluate_stopped hs]
      exact hs
    · rw [hstop]
      exact stop_keeps_stopped hs q
    · rw [heval,evaluate_stopped (stop_keeps_stopped hs q)]
      exact stop_keeps_stopped hs q
  | stop q => exact stop_keeps_stopped hs q
  | resume q => exact absurd rfl (hop q)

/-! ## Waiting is kept -/

/-- The scope waits for a plan, or STOP has interrupted its waiting. -/
def Held (s : ControllerState) : Prop := Waiting s ∨ StoppedWaiting s

theorem stop_held (hinv : ControllerInv rt s) (h : Held s) (q : StopRequest) : Held { s with db := (s.db.stop q).1 } := by
  rcases Continuation.Database.stop_cases s.db q with hsame | ⟨c,fences,audit,hc,hinsert,hfree,-,hdone⟩
  · rw [hsame]
    exact h
  · rw [hdone]
    rcases h with ⟨c',hc',hwaiting⟩ | ⟨c',f,hc',-,hfence,-⟩
    · obtain rfl : c = c' := some_unique hc hc'
      -- the new fence is the first of its epoch, and it has the disposition of the cursor
      refine .inr ⟨_,s.db.stopFence c q,rfl,rfl,?_,(hinv.own c hc).waiting hwaiting⟩
      have hfind := Table.find_insert hinsert (fun f => f.scopeEpoch == c.scopeEpoch)
      refine hfind.trans ?_
      rw [show s.db.fences.find (fun f => f.scopeEpoch == c.scopeEpoch) = none from hfree]
      simp [Database.stopFence]
    · obtain rfl : c = c' := some_unique hc hc'
      rw [hfree] at hfence
      cases hfence

theorem evaluate_held (hinv : ControllerInv rt s) (h : Held s) : Held (s.evaluate rt i plan).1 := by
  rcases evaluate_cases rt s i plan hinv.own with hsame | ⟨cursor,_,_,hcursor,hactive,hnot,-⟩
  · rw [hsame]
    exact h
  · rcases h with ⟨c,hc,hwaiting⟩ | ⟨c,_,hc,hstopped,-⟩
    · obtain rfl : cursor = c := some_unique hcursor hc
      rw [hwaiting] at hnot
      cases hnot
    · obtain rfl : cursor = c := some_unique hcursor hc
      rw [hstopped] at hactive
      cases hactive

theorem held_cursor (h : Held s) : ∃ c, s.db.cursor = some c := by
  rcases h with ⟨c,hc,-⟩ | ⟨c,_,hc,-⟩
  all_goals exact ⟨c,hc⟩

theorem resume_held (hinv : ControllerInv rt s) (h : Held s) {q : ResumeRequest} (hkeeps : KeepsWaiting s (.resume q)) :
    Held { s with db := (s.db.resume q).1 } := by
  rcases resume_state s q with hsame | ⟨done,c,hdone,hstate⟩
  · rw [hsame]
    exact h
  · obtain ⟨old,audit,hold,hepoch,-,-,-,hdisposition,rfl⟩ := executeResume_ok hdone
    rw [hstate]
    rcases h with ⟨c',hc',hwaiting⟩ | hinterrupted
    · obtain rfl : old = c' := some_unique hold hc'
      refine .inl ⟨c,rfl,waiting_iff.mpr (.inr ?_)⟩
      rw [hdisposition,if_pos ((hinv.own old hold).waiting hwaiting)]
    · obtain ⟨e,he,hne⟩ := hkeeps hinterrupted
      rw [hold] at hne
      exact absurd (congrArg some (hepoch e he)) hne

theorem held_kept (hinv : ControllerInv rt s) (h : Held s) (hkeeps : KeepsWaiting s op) (hop : ¬ Approves rt s op) :
    Held (s.perform rt op) := by
  cases op with
  | start args =>
    change Held (s.start rt args).1
    rcases start_cases s args hinv.started hinv.admitted with hsame | ⟨hnone,-⟩
    · rw [hsame]
      exact h
    · obtain ⟨c,hc⟩ := held_cursor h
      rw [hc] at hnone
      cases hnone
  | presentSuccessor p predecessor suffix now =>
    change Held (s.presentSuccessor rt p predecessor suffix now).1
    rcases presentSuccessor_cases s p predecessor suffix now hinv.admitted with hsame | ⟨-,admissions,-,hstate⟩
    · rw [hsame]
      exact h
    · rw [hstate]
      exact h
  | approveSuccessor name approvedBy now =>
    change Held (s.approveSuccessor rt name approvedBy now).1
    rcases approveSuccessor_cases s name approvedBy now hinv.admitted hinv.own with
      hsame | ⟨_,_,_,-,-,-,-,⟨o,ho,hsuccess⟩,-⟩
    · rw [hsame]
      exact h
    · exact absurd ⟨name,approvedBy,now,o,rfl,ho,hsuccess⟩ hop
  | tick i plan stamps =>
    change Held (s.tick rt i plan stamps).1
    rcases tick_cases rt s i plan stamps with ⟨hsame,-⟩ | heval | ⟨q,⟨hstop,-⟩ | heval⟩
    · rw [hsame]
      exact h
    · rw [heval]
      exact evaluate_held hinv h
    · rw [hstop]
      exact stop_held hinv h q
    · rw [heval]
      exact evaluate_held (stop_inv hinv q) (stop_held hinv h q)
  | stop q => exact stop_held hinv h q
  | resume q => exact resume_held hinv h hkeeps

/-! ## Whole runs -/

/-- A project without a cursor, fences or admissions. -/
def freshController (db : Database) : ControllerState := ⟨{ db with cursor := none, fences := Table.empty },none,Table.empty⟩

def controllerRun (rt : Runtime) (db : Database) (ops : List ScopeOperation) : ControllerState :=
  ops.foldl (ControllerState.perform rt) (freshController db)

/-- What the controller promises of a run. -/
structure UntilStoppedSafe (rt : Runtime) (db : Database) (ops : List ScopeOperation) : Prop where
  oneApproved : (approvedRows (controllerRun rt db ops).admissions).length ≤ 1
  digests : ∀ a ∈ (controllerRun rt db ops).admissions.rows, a.record.planDigest = computedPlanDigest rt a.plan
  launches : ∀ done i plan stamps rest r, ops = done ++ .tick i plan stamps :: rest →
    ((controllerRun rt db done).tick rt i plan stamps).2 = .ok r → r.decision.action = .launchTask →
    LegalLaunch rt (controllerRun rt db done) i r.decision.selectedTaskId
  stopped : ∀ done op rest, ops = done ++ op :: rest → Stopped (controllerRun rt db done) →
    Stopped (controllerRun rt db (done ++ [op])) ∨ ∃ q, op = .resume q
  waiting : ∀ before after, ops = before ++ after → Waiting (controllerRun rt db before) →
    (∀ done op rest, after = done ++ op :: rest → ¬ Approves rt (controllerRun rt db (before ++ done)) op) →
    Waiting (controllerRun rt db ops) ∨ Stopped (controllerRun rt db ops)
  failedStart : ∀ done args rest f, ops = done ++ .start args :: rest →
    ((controllerRun rt db done).start rt args).2 = .error f →
    controllerRun rt db (done ++ [.start args]) = controllerRun rt db done

variable {db : Database} {ops : List ScopeOperation}

theorem controllerRun_append (rt : Runtime) (db : Database) (done : List ScopeOperation) (op : ScopeOperation) :
    controllerRun rt db (done ++ [op]) = (controllerRun rt db done).perform rt op := by
  unfold controllerRun
  rw [foldl_append]
  rfl

theorem fresh_inv (db : Database) : ControllerInv rt (freshController db) where
  admitted := ⟨Nat.zero_le _,fun _ h => absurd h not_mem_nil⟩
  started _ := rfl
  own c hc := by cases hc

theorem run_controllerInv (ops : List ScopeOperation) : ControllerInv rt (controllerRun rt db ops) :=
  List.foldlRecOn ops _ (fresh_inv db) fun _ hs op _ => perform_inv hs op

theorem held_run {before after : List ScopeOperation}
    (h : Along (ControllerState.perform rt) KeepsWaiting (freshController db) (before ++ after))
    (hheld : Held (controllerRun rt db before))
    (hnone : ∀ done op rest, after = done ++ op :: rest → ¬ Approves rt (controllerRun rt db (before ++ done)) op) :
    Held (controllerRun rt db (before ++ after)) := by
  induction after using List.reverseRecOn with
  | nil =>
    rw [append_nil]
    exact hheld
  | append_singleton after op ih =>
    rw [← append_assoc] at h ⊢
    have hbefore : Held (controllerRun rt db (before ++ after)) := by
      refine ih h.left ?_
      rintro done op' rest rfl
      exact hnone done op' (rest ++ [op]) (by rw [append_assoc,cons_append])
    rw [controllerRun_append]
    exact held_kept (run_controllerInv _) hbefore (h.at rfl) (hnone after op [] rfl)

/-- The controller keeps its promises in every run in which no STOP of a waiting scope is
resumed. -/
theorem until_stopped_safe (rt : Runtime) (db : Database) (ops : List ScopeOperation)
    (h : Along (ControllerState.perform rt) KeepsWaiting (freshController db) ops) : UntilStoppedSafe rt db ops where
  oneApproved := (run_controllerInv ops).admitted.approved
  digests := (run_controllerInv ops).admitted.digests
  launches _ _ _ _ _ _ _ hok hlaunch := tick_launch hok hlaunch
  stopped := by
    intro done op rest _ hstopped
    by_cases hresume : ∃ q, op = .resume q
    · exact .inr hresume
    · rw [controllerRun_append]
      exact .inl (stopped_kept (run_controllerInv done) hstopped fun q hq => hresume ⟨q,hq⟩)
  waiting := by
    rintro before after rfl hwaiting hnone
    rcases held_run h (.inl hwaiting) hnone with hheld | ⟨c,_,hc,hstopped,-⟩
    · exact .inl hheld
    · exact .inr ⟨c,hc,hstopped⟩
  failedStart := by
    intro done args rest f _ hfailed
    rw [controllerRun_append]
    have hinv : ControllerInv rt (controllerRun rt db done) := run_controllerInv done
    rcases start_cases (controllerRun rt db done) args hinv.started hinv.admitted with hsame | ⟨-,_,_,hok,-⟩
    · exact hsame
    · rw [hok] at hfailed
      cases hfailed

/-! ## A plan that is exhausted -/

def controllerRuntime : Runtime where
  upperTable c := [c.toUpper]
  lowerTable c := [c.toLower]
  repr _ := ""
  fromIsoFormat _ := none
  sha256 := Sha256.sha256

def bareDatabase : Database where
  projectId := "p1"
  revision := some 1
  cursor := none
  fences := Table.empty
  leases := Table.empty
  intents := Table.empty
  audit := Table.empty
  bindings := []
  pendingLaunches := []

def onePlan : PlanSubmission := ⟨⟨"plan:v1",1,[⟨"m1","g1",[],["t1"]⟩],[⟨"t1","m1",[],false,false,false⟩]⟩,none⟩

def sampleStart : ScopeOperation := .start ⟨onePlan,"run-1",.scope .untilStopped,true,true,"operator","0a","2026-01-01T00:00:00Z"⟩

def statusInputs (task gate : String) : UntilStoppedInputs where
  taskStatuses _ := some task
  milestoneGateStatuses _ := some gate
  manualApprovals _ := false
  policyApprovals _ := false
  manualPause := false
  policyPause := false
  realBlocker := false
  blockerReason := "REAL_BLOCKER"
  stopRequested := false

def tickTime : DateTime := ⟨63902822400000000,sampleMicros_lt⟩

def sampleTick (task gate : String) : ScopeOperation := .tick (statusInputs task gate) none ⟨"0b","0c",tickTime⟩

def sampleStopOp : ScopeOperation := .stop ⟨none,"pause","operator","0d","0e",tickTime⟩

def sampleResumeOp : ScopeOperation := .resume ⟨none,none,"operator","0f",tickTime⟩

/-- A STOP that is resumed, a launch, and exhaustion. -/
def exhaustingOps : List ScopeOperation :=
  [sampleStart,sampleStopOp,sampleResumeOp,sampleTick "NOT_STARTED" "NOT_REACHED",sampleTick "ACCEPTED" "ACCEPTED"]

theorem stoppedWaiting_of_fences (h : StoppedWaiting s) : ∃ f ∈ s.db.fences.rows, f.priorDisposition = "WAITING_FOR_PLAN" := by
  obtain ⟨c,f,-,-,hfence,hprior⟩ := h
  exact ⟨f,Table.mem_of_find hfence,hprior⟩

theorem sample_until_stopped : UntilStoppedSafe controllerRuntime bareDatabase exhaustingOps ∧
    (controllerRun controllerRuntime bareDatabase exhaustingOps).db.cursor.map waiting = some true := by
  refine ⟨until_stopped_safe _ _ _ ⟨trivial,trivial,?_,trivial,trivial,trivial⟩,by decide +kernel⟩
  -- the fence of the only STOP was set before the first tick
  intro hinterrupted
  obtain ⟨f,hf,hprior⟩ := stoppedWaiting_of_fences hinterrupted
  have hall : ((controllerRun controllerRuntime bareDatabase [sampleStart,sampleStopOp]).db.fences.rows.all
      (fun f => f.priorDisposition ≠ "WAITING_FOR_PLAN")) = true := by decide +kernel
  have hno := all_eq_true.mp hall f hf
  simp [hprior] at hno

/-- The plan is exhausted, and then the scope is stopped and resumed. -/
def resumedWaiting : List ScopeOperation := [sampleStart,sampleTick "ACCEPTED" "ACCEPTED",sampleStopOp,sampleResumeOp]

theorem resume_forgets_waiting : ¬ UntilStoppedSafe controllerRuntime bareDatabase resumedWaiting := by
  intro h
  have hbefore : (controllerRun controllerRuntime bareDatabase [sampleStart,sampleTick "ACCEPTED" "ACCEPTED"]).db.cursor.map waiting =
      some true := by decide +kernel
  have hafter : (controllerRun controllerRuntime bareDatabase resumedWaiting).db.cursor.map
      (fun c => waiting c || c.stopped) = some false := by decide +kernel
  obtain ⟨c,hc,hwaiting⟩ := Option.map_eq_some_iff.mp hbefore
  obtain ⟨d,hd,hnot⟩ := Option.map_eq_some_iff.mp hafter
  obtain ⟨hnotWaiting,hnotStopped⟩ := Bool.or_eq_false_iff.mp hnot
  have hkept := h.waiting [sampleStart,sampleTick "ACCEPTED" "ACCEPTED"] [sampleStopOp,sampleResumeOp] rfl ⟨c,hc,hwaiting⟩ (by
    -- neither operation is an approval
    rintro done op rest hsplit ⟨name,approvedBy,now,o,rfl,-⟩
    have hmem : ScopeOperation.approveSuccessor name approvedBy now ∈ [sampleStopOp,sampleResumeOp] := by
      rw [hsplit]
      exact mem_append_right _ mem_cons_self
    rcases mem_cons.mp hmem with hstop | hmem
    · cases hstop
    · cases mem_singleton.mp hmem)
  rcases hkept with ⟨c',hc',hw⟩ | ⟨c',hc',hs⟩
  · rw [hd] at hc'
    cases hc'
    rw [hnotWaiting] at hw
    cases hw
  · rw [hd] at hc'
    cases hc'
    rw [hnotStopped] at hs
    cases hs

end Bdb.Scope
