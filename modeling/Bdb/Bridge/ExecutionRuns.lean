import Bdb.Bridge.Execution
import Bdb.Bridge.PredictedHash

/-! # Restarts of a single-file command

A planned command goes through four stages: claimed, planned with or without its complete
temp file, replaced, and recorded. Every call leaves one of them, unless its crash falls
between the creation and the filling of the temp file, and a call that is not cut off ends
in the last.
-/
namespace Bdb.Bridge

open ExecutionRequest (perform)

variable {m : WorkspaceManager} {lsFiles : Checkout → List String} {command : BridgeCommand} {w w₀ : ExecutionWorld}
  {plan : OperationPlan} {p : RepoPath} {c : Checkout}

abbrev ExecutionLog := List (Entry ExecutionRequest.Answer)

/-! ## A planned command -/

/-- What the plan of a command has found, and the hash that its result will have. -/
structure Planned (m : WorkspaceManager) (lsFiles : Checkout → List String) (w₀ : ExecutionWorld) (plan : OperationPlan)
    (p : RepoPath) : Prop where
  attached : w₀.attached = .ok ()
  foreign : w₀.foreign = []
  effect : w₀.effect = none
  resolved : m.resolveAllowedPath w₀.checkout plan.targetPath = .ok p
  before : w₀.checkout.tree.fileAt p = some plan.beforeContent
  hashBefore : m.computeStateHash lsFiles w₀.checkout = .ok plan.workspaceStateHashBefore
  revision : w₀.revision = plan.workspaceRevisionBefore
  stateHash : w₀.stateHash = plan.workspaceStateHashBefore
  hashAfter : m.computeStateHash lsFiles (w₀.checkout.withFile p plan.plannedAfterContent) = .ok plan.plannedAfterStateHash

def executingWorld (w₀ : ExecutionWorld) (plan : OperationPlan) (c : Checkout) (temp : Option Bytes) : ExecutionWorld :=
  { w₀ with checkout := c, temp := temp, state := .executing, plan := some plan }

def recordedWorld (w₀ : ExecutionWorld) (plan : OperationPlan) (p : RepoPath) : ExecutionWorld :=
  { w₀ with
    checkout := w₀.checkout.withFile p plan.plannedAfterContent
    temp := none
    state := .effectRecorded
    revision := plan.workspaceRevisionBefore + 1
    stateHash := plan.plannedAfterStateHash
    plan := some plan
    effect := some (effectFor plan) }

/-- A checkout that the plan can be applied to: the one it was made for, or its result when
that is the same. -/
inductive Source (w₀ : ExecutionWorld) (plan : OperationPlan) (p : RepoPath) : Checkout → Prop where
  | original : Source w₀ plan p w₀.checkout
  | again (hcontent : plan.beforeContent = plan.plannedAfterContent)
      (hhash : plan.workspaceStateHashBefore = plan.plannedAfterStateHash) :
      Source w₀ plan p (w₀.checkout.withFile p plan.plannedAfterContent)

/-- Where a call may find the command. -/
inductive Stage (w₀ : ExecutionWorld) (plan : OperationPlan) (p : RepoPath) : ExecutionWorld → Prop where
  | claimed : Stage w₀ plan p w₀
  | planned {c : Checkout} (hc : Source w₀ plan p c) {temp : Option Bytes}
      (htemp : temp = none ∨ temp = some plan.plannedAfterContent) : Stage w₀ plan p (executingWorld w₀ plan c temp)
  | replaced : Stage w₀ plan p (executingWorld w₀ plan (w₀.checkout.withFile p plan.plannedAfterContent) none)
  | recorded : Stage w₀ plan p (recordedWorld w₀ plan p)

/-- The last request created the temp file, and its content is not there yet. -/
def Unfilled (log : ExecutionLog) : Prop :=
  ∃ first planned, log = first ++ [⟨.createTemp planned,Except.ok ()⟩] ∧ planned ≠ []

def StageOrUnfilled (w₀ : ExecutionWorld) (plan : OperationPlan) (p : RepoPath) (w : ExecutionWorld) (log : ExecutionLog) :
    Prop := Stage w₀ plan p w ∨ Unfilled log

/-! ## Reads -/

theorem fileAt_withFile (c : Checkout) (p : RepoPath) (content : Bytes) :
    (c.withFile p content).tree.fileAt p = some content := by
  unfold Checkout.withFile Tree.fileAt
  rw [AList.lookup_insert]

theorem withFile_withFile (c : Checkout) (p : RepoPath) (content : Bytes) :
    (c.withFile p content).withFile p content = c.withFile p content := by
  unfold Checkout.withFile
  rw [AList.insert_insert]

theorem readExactBytes_of {relative : String} {content : Bytes} (hp : m.resolveAllowedPath c relative = .ok p)
    (hfile : c.tree.fileAt p = some content) : m.readExactBytes c relative = .ok content := by
  unfold WorkspaceManager.readExactBytes
  rw [hp,ok_bind,hfile]
  rfl

namespace Planned

variable (h : Planned m lsFiles w₀ plan p)
include h

theorem resolved_source (hc : Source w₀ plan p c) : m.resolveAllowedPath c plan.targetPath = .ok p := by
  cases hc with
  | original | again _ _ => exact h.resolved

theorem read_source (hc : Source w₀ plan p c) : m.readExactBytes c plan.targetPath = .ok plan.beforeContent := by
  refine readExactBytes_of (h.resolved_source hc) ?_
  cases hc with
  | original => exact h.before
  | again hcontent _ =>
    rw [fileAt_withFile,hcontent]

theorem hash_source (hc : Source w₀ plan p c) : m.computeStateHash lsFiles c = .ok plan.workspaceStateHashBefore := by
  cases hc with
  | original => exact h.hashBefore
  | again _ hhash => rw [hhash,h.hashAfter]

omit h in
theorem withFile_source (hc : Source w₀ plan p c) :
    c.withFile p plan.plannedAfterContent = w₀.checkout.withFile p plan.plannedAfterContent := by
  cases hc with
  | original => rfl
  | again _ _ => exact withFile_withFile _ _ _

theorem read_result :
    m.readExactBytes (w₀.checkout.withFile p plan.plannedAfterContent) plan.targetPath = .ok plan.plannedAfterContent :=
  readExactBytes_of h.resolved (fileAt_withFile _ _ _)

theorem validated : validateRepoRelativePath plan.targetPath = .ok p := by
  obtain ⟨q,hq,hrest⟩ := bind_ok.mp h.resolved
  obtain ⟨_,hrest⟩ := rest_ok hrest
  rw [hq,pure_ok.mp hrest]

/-! ## Steps -/

theorem verify_none (c : Checkout) : m.verifyExpectedTemp (executingWorld w₀ plan c none) plan = .ok none := by
  unfold WorkspaceManager.verifyExpectedTemp executingWorld
  simp [h.foreign]

theorem verify_some (hc : Source w₀ plan p c) :
    m.verifyExpectedTemp (executingWorld w₀ plan c (some plan.plannedAfterContent)) plan =
      .ok (some plan.plannedAfterContent) := by
  unfold WorkspaceManager.verifyExpectedTemp executingWorld
  simp only [h.foreign,ne_eq,not_true_eq_false,if_false,require_of,ok_bind,h.read_source hc]
  rfl

theorem replace_source (hc : Source w₀ plan p c) :
    (executingWorld w₀ plan c (some plan.plannedAfterContent)).replaceTarget plan.targetPath =
      (executingWorld w₀ plan (w₀.checkout.withFile p plan.plannedAfterContent) none,.ok ()) := by
  unfold ExecutionWorld.replaceTarget
  rw [h.validated,← withFile_source hc]
  rfl

theorem record_replaced :
    (executingWorld w₀ plan (w₀.checkout.withFile p plan.plannedAfterContent) none).recordOperationEffect (effectFor plan) =
      (recordedWorld w₀ plan p,.ok ()) := by
  unfold ExecutionWorld.recordOperationEffect
  simp [executingWorld,recordedWorld,effectFor,h.effect,h.revision,h.stateHash]

theorem checkReplaced_result :
    m.checkReplaced lsFiles (w₀.checkout.withFile p plan.plannedAfterContent) plan.plannedAfterStateHash = .ok () :=
  gate_iff.mpr h.hashAfter

/-! ## Programs -/

variable {log : ExecutionLog}

theorem recordEffect_concludes :
    (recordEffect plan).Concludes perform (StageOrUnfilled w₀ plan p) (· = recordedWorld w₀ plan p)
      (executingWorld w₀ plan (w₀.checkout.withFile p plan.plannedAfterContent) none) log := by
  refine ⟨.inl .replaced,?_⟩
  simp only [perform,h.record_replaced]
  exact ⟨.inl .recorded,.inl .recorded,rfl⟩

theorem promote_concludes (hc : Source w₀ plan p c) :
    (promote m lsFiles plan).Concludes perform (StageOrUnfilled w₀ plan p) (· = recordedWorld w₀ plan p)
      (executingWorld w₀ plan c (some plan.plannedAfterContent)) log := by
  refine ⟨.inl (.planned hc (.inr rfl)),?_⟩
  simp only [perform,h.replace_source hc]
  refine ⟨.inl .replaced,?_⟩
  simp only [perform]
  rw [show (executingWorld w₀ plan (w₀.checkout.withFile p plan.plannedAfterContent) none).checkout =
    w₀.checkout.withFile p plan.plannedAfterContent from rfl,h.read_result]
  simp only [ne_eq,not_true_eq_false,if_false,h.checkReplaced_result]
  exact h.recordEffect_concludes

theorem applyPlan_concludes (hc : Source w₀ plan p c) {temp : Option Bytes}
    (htemp : temp = none ∨ temp = some plan.plannedAfterContent) :
    (applyPlan m lsFiles plan).Concludes perform (StageOrUnfilled w₀ plan p) (· = recordedWorld w₀ plan p)
      (executingWorld w₀ plan c temp) log := by
  refine ⟨.inl (.planned hc htemp),?_⟩
  simp only [perform]
  rw [show (executingWorld w₀ plan c temp).checkout = c from rfl,h.resolved_source hc]
  rcases htemp with rfl | rfl
  · simp only [h.verify_none c]
    refine ⟨.inl (.planned hc (.inl rfl)),?_⟩
    have hcreate : (executingWorld w₀ plan c none).createTemp = (executingWorld w₀ plan c (some []),.ok ()) := rfl
    simp only [perform,hcreate]
    constructor
    · -- an empty temp file is the complete one of an empty plan
      by_cases hempty : plan.plannedAfterContent = []
      · exact .inl (.planned hc (.inr (congrArg some hempty.symm)))
      · exact .inr ⟨log ++ [⟨.look,executingWorld w₀ plan c none⟩],plan.plannedAfterContent,rfl,hempty⟩
    · exact h.promote_concludes hc
  · simp only [h.verify_some hc]
    exact h.promote_concludes hc

/-! ## Decisions -/

theorem assess_executing {temp : Option Bytes} {target : Bytes} {actual : String}
    (hread : m.readExactBytes c plan.targetPath = .ok target) (hhash : m.computeStateHash lsFiles c = .ok actual) :
    makeRecoveryDecision m lsFiles (executingWorld w₀ plan c temp) =
      assessExecuting m (executingWorld w₀ plan c temp) plan target actual := by
  unfold makeRecoveryDecision
  simp only [executingWorld,h.foreign,hread,hhash]
  simp

theorem decide_source (hc : Source w₀ plan p c) {temp : Option Bytes}
    (htemp : temp = none ∨ temp = some plan.plannedAfterContent) :
    ∃ reason, makeRecoveryDecision m lsFiles (executingWorld w₀ plan c temp) = ⟨.execute,reason,some plan,none⟩ := by
  rw [h.assess_executing (h.read_source hc) (h.hash_source hc)]
  unfold assessExecuting
  rw [if_pos ⟨h.revision,h.stateHash,rfl,rfl⟩]
  rcases htemp with rfl | rfl
  · rw [h.verify_none c]
    exact ⟨_,rfl⟩
  · rw [h.verify_some hc]
    exact ⟨_,rfl⟩

theorem decide_replaced :
    (∃ reason, makeRecoveryDecision m lsFiles
        (executingWorld w₀ plan (w₀.checkout.withFile p plan.plannedAfterContent) none) =
      ⟨.recoverPlannedAfter,reason,some plan,none⟩) ∨
      Source w₀ plan p (w₀.checkout.withFile p plan.plannedAfterContent) := by
  by_cases hsame : plan.plannedAfterContent = plan.beforeContent ∧
      plan.plannedAfterStateHash = plan.workspaceStateHashBefore
  · exact .inr (.again hsame.1.symm hsame.2.symm)
  · refine .inl ⟨"planned_after_without_effect",?_⟩
    rw [h.assess_executing h.read_result h.hashAfter]
    unfold assessExecuting
    rw [if_neg fun hbefore => hsame ⟨hbefore.2.2.1,hbefore.2.2.2⟩,
      if_pos ⟨h.revision,h.stateHash,rfl,rfl,rfl,h.effect⟩]

theorem decide_recorded :
    makeRecoveryDecision m lsFiles (recordedWorld w₀ plan p) =
      ⟨.idempotentReplay,"effect_verified",some plan,some (effectFor plan)⟩ := by
  unfold makeRecoveryDecision
  rw [if_neg (by simp [recordedWorld])]
  simp only [recordedWorld,h.foreign,h.read_result,h.hashAfter,ne_eq,not_true_eq_false,if_false]
  unfold assessEffect
  simp [effectFor]

end Planned

/-! ## From the claim to the plan -/

/-- A claimed command that passes its checks, with nothing of it done yet. -/
structure Claimed (m : WorkspaceManager) (lsFiles : Checkout → List String) (command : BridgeCommand) (w₀ : ExecutionWorld)
    (plan : OperationPlan) : Prop where
  state : w₀.state = .claimed
  temp : w₀.temp = none
  noPlan : w₀.plan = none
  noEffect : w₀.effect = none
  attached : w₀.attached = .ok ()
  prepared : m.preparePlan lsFiles w₀ command = .ok plan

theorem refusing_ok {α : Type} {refusal : Failure → Refusal} {x : Outcome α} {a : α} :
    refusing refusal x = .ok a ↔ x = .ok a := by
  cases x <;> simp [refusing]

theorem gate_ok (h : m.validatePreplanGate lsFiles w command = .ok ()) :
    w.foreign = [] ∧ m.computeStateHash lsFiles w.checkout = .ok w.stateHash := by
  obtain ⟨_,h⟩ := rest_ok h
  obtain ⟨u,hforeign,h⟩ := bind_ok.mp h
  obtain ⟨actual,hactual,h⟩ := bind_ok.mp h
  obtain ⟨u,hsame,-⟩ := bind_ok.mp h
  exact ⟨require_ok.mp hforeign,require_ok.mp hsame ▸ hactual⟩

theorem preparePlan_ok (h : m.preparePlan lsFiles w command = .ok plan) :
    ∃ p, m.resolveAllowedPath w.checkout plan.targetPath = .ok p ∧ w.checkout.tree.fileAt p = some plan.beforeContent ∧
      m.computeStateHash lsFiles w.checkout = .ok w.stateHash ∧ w.foreign = [] ∧
      plan.workspaceRevisionBefore = w.revision ∧ plan.workspaceStateHashBefore = w.stateHash ∧
      m.computeStateHashWithOverride lsFiles w.checkout plan.targetPath plan.plannedAfterContent =
        .ok plan.plannedAfterStateHash := by
  obtain ⟨⟨payload,operation,profileId⟩,-,h⟩ := bind_ok.mp h
  obtain ⟨u,hgate,h⟩ := bind_ok.mp h
  obtain ⟨hforeign,hhash⟩ := gate_ok (refusing_ok.mp hgate)
  cases hpath : Fields.get payload "path" with
  | str relativePath =>
    simp only [hpath] at h
    obtain ⟨_,h⟩ := rest_ok h
    obtain ⟨p,hp,h⟩ := bind_ok.mp h
    obtain ⟨before,hbefore,h⟩ := bind_ok.mp h
    obtain ⟨_,_,h⟩ := rest₂ h
    obtain ⟨hash,hpredicted,h⟩ := bind_ok.mp h
    cases h
    rw [refusing_ok] at hp hbefore hpredicted
    obtain ⟨q,hq,hneed⟩ := bind_ok.mp hbefore
    cases hp.symm.trans hq
    exact ⟨p,hp,need_ok.mp hneed,hhash,hforeign,rfl,rfl,hpredicted⟩
  | _ => simp only [hpath] at h; cases h

theorem computeStateHashWithOverride_ok {relative hash : String} {content : Bytes}
    (hp : m.resolveAllowedPath c relative = .ok p)
    (h : m.computeStateHashWithOverride lsFiles c relative content = .ok hash) :
    ∃ bytes, m.predictedBytes lsFiles c ((∅ : Overrides).insert p (some content)) = .ok bytes ∧ stateHashOf bytes = hash ∧
      m.normalizeOverrides c [(relative,some content)] = .ok ((∅ : Overrides).insert p (some content)) := by
  have hnorm : m.normalizeOverrides c [(relative,some content)] = .ok ((∅ : Overrides).insert p (some content)) := by
    unfold WorkspaceManager.normalizeOverrides
    rw [hp]
    rfl
  rw [computeStateHashWithOverride_eq,WorkspaceManager.computeStateHashWithOverrides,hnorm,ok_bind] at h
  cases hbytes : m.predictedBytes lsFiles c ((∅ : Overrides).insert p (some content)) with
  | error e =>
    rw [hbytes] at h
    cases h
  | ok bytes =>
    rw [hbytes] at h
    exact ⟨bytes,rfl,Except.ok.inj h,hnorm⟩

/-- The change that the plan makes was foreseen by git's report. -/
def PlanForeseen (m : WorkspaceManager) (w₀ : ExecutionWorld) (plan : OperationPlan) : Prop :=
  ∀ p, m.resolveAllowedPath w₀.checkout plan.targetPath = .ok p →
    Foreseen m w₀.checkout ((∅ : Overrides).insert p (some plan.plannedAfterContent))
      (w₀.checkout.withFile p plan.plannedAfterContent)

theorem Claimed.planned (h : Claimed m lsFiles command w₀ plan) (hgit : ListsReported lsFiles)
    (hforeseen : PlanForeseen m w₀ plan) : ∃ p, Planned m lsFiles w₀ plan p := by
  obtain ⟨p,hp,hbefore,hhash,hforeign,hrevision,hstate,hpredicted⟩ := preparePlan_ok h.prepared
  obtain ⟨bytes,hbytes,hdigest,hnorm⟩ := computeStateHashWithOverride_ok hp hpredicted
  refine ⟨p,h.attached,hforeign,h.noEffect,hp,hbefore,hstate ▸ hhash,hrevision.symm,hstate.symm,?_⟩
  have hlater := (bytes_foreseen_iff hgit (changedTo_withFile w₀.checkout p plan.plannedAfterContent)
    (normalizeOverrides_allowed hnorm) hbytes).mpr (hforeseen p hp)
  unfold WorkspaceManager.computeStateHash
  rw [hlater,← hdigest]
  rfl

/-! ## Calls -/

theorem Claimed.decide (h : Claimed m lsFiles command w₀ plan) :
    makeRecoveryDecision m lsFiles w₀ = ⟨.execute,"claimed_new",none,none⟩ := if_pos h.state

section

variable (h : Claimed m lsFiles command w₀ plan) (hplanned : Planned m lsFiles w₀ plan p)

include h hplanned

theorem Claimed.record :
    w₀.recordOperationPlan plan = (executingWorld w₀ plan w₀.checkout none,.ok ()) := by
  unfold ExecutionWorld.recordOperationPlan
  rw [h.noPlan]
  simp [h.state,hplanned.revision,hplanned.stateHash,executingWorld,h.temp]

theorem executeOrRecover_concludes (hw : Stage w₀ plan p w) (log : ExecutionLog) :
    (executeOrRecover m lsFiles command).Concludes perform (StageOrUnfilled w₀ plan p) (· = recordedWorld w₀ plan p) w log := by
  refine ⟨.inl hw,?_⟩
  simp only [perform]
  cases hw with
  | claimed =>
    rw [h.attached]
    simp only [h.decide,executeClaimed,h.prepared]
    refine ⟨.inl .claimed,?_⟩
    simp only [perform,h.record hplanned]
    exact hplanned.applyPlan_concludes .original (.inl rfl)
  | @planned c hc temp htemp =>
    rw [show (executingWorld w₀ plan c temp).attached = w₀.attached from rfl,h.attached]
    obtain ⟨reason,hdecide⟩ := hplanned.decide_source hc htemp
    simp only [hdecide]
    exact hplanned.applyPlan_concludes hc htemp
  | replaced =>
    rw [show (executingWorld w₀ plan (w₀.checkout.withFile p plan.plannedAfterContent) none).attached = w₀.attached from rfl,
      h.attached]
    rcases hplanned.decide_replaced with ⟨reason,hdecide⟩ | hsource
    · simp only [hdecide]
      exact hplanned.recordEffect_concludes
    · obtain ⟨reason,hdecide⟩ := hplanned.decide_source hsource (.inl rfl)
      simp only [hdecide]
      exact hplanned.applyPlan_concludes hsource (.inl rfl)
  | recorded =>
    rw [show (recordedWorld w₀ plan p).attached = w₀.attached from rfl,h.attached]
    simp only [hplanned.decide_recorded]
    exact ⟨.inl .recorded,.inl .recorded,rfl⟩

theorem decision_of_stage
    (hw : Stage w₀ plan p w) : (makeRecoveryDecision m lsFiles w).decision ≠ .diverged := by
  cases hw with
  | claimed =>
    rw [h.decide]
    nofun
  | planned hc htemp =>
    obtain ⟨reason,hdecide⟩ := hplanned.decide_source hc htemp
    rw [hdecide]
    nofun
  | replaced =>
    rcases hplanned.decide_replaced with ⟨reason,hdecide⟩ | hsource
    · rw [hdecide]
      nofun
    · obtain ⟨reason,hdecide⟩ := hplanned.decide_source hsource (.inl rfl)
      rw [hdecide]
      nofun
  | recorded =>
    rw [hplanned.decide_recorded]
    nofun

end

/-! ## Runs -/

abbrev ExecutionState := Logged ExecutionWorld ExecutionRequest.Answer

def nextExecution (m : WorkspaceManager) (lsFiles : Checkout → List String) (command : BridgeCommand) :
    ExecutionState → Attempt Unit → ExecutionState :=
  Logged.next perform fun _ => executeOrRecover m lsFiles command

/-- The crash of the call falls between the creation and the filling of the temp file. -/
def TearsTemp (m : WorkspaceManager) (lsFiles : Checkout → List String) (command : BridgeCommand) (s : ExecutionState)
    (a : Attempt Unit) : Prop :=
  Unfilled ((executeOrRecover m lsFiles command).cutOff perform a.cut s.store).2

/-- What a run of calls leaves. -/
def worldAfter (m : WorkspaceManager) (lsFiles : Checkout → List String) (command : BridgeCommand) (w₀ : ExecutionWorld)
    (attempts : List (Attempt Unit)) : ExecutionWorld :=
  (attempts.foldl (nextExecution m lsFiles command) ⟨w₀,[]⟩).store

/-- The run, and a last call that is not cut off. -/
def worldAtEnd (m : WorkspaceManager) (lsFiles : Checkout → List String) (command : BridgeCommand) (w₀ : ExecutionWorld)
    (attempts : List (Attempt Unit)) : ExecutionWorld :=
  worldAfter m lsFiles command w₀ (attempts ++ [Attempt.mk () none])

/-- What is promised of a run: no decision finds the command diverged, and a last call that is
not cut off ends with the planned bytes in the target and the effect recorded once. -/
structure CrashSafe (m : WorkspaceManager) (lsFiles : Checkout → List String) (command : BridgeCommand)
    (w₀ : ExecutionWorld) (plan : OperationPlan) (attempts : List (Attempt Unit)) : Prop where
  decided : ∀ done rest, attempts = done ++ rest →
    (makeRecoveryDecision m lsFiles (worldAfter m lsFiles command w₀ done)).decision ≠ .diverged
  target : m.readExactBytes (worldAtEnd m lsFiles command w₀ attempts).checkout plan.targetPath = .ok plan.plannedAfterContent
  effect : (worldAtEnd m lsFiles command w₀ attempts).effect = some (effectFor plan)
  revision : (worldAtEnd m lsFiles command w₀ attempts).revision = w₀.revision + 1
  state : (worldAtEnd m lsFiles command w₀ attempts).state = .effectRecorded

theorem run_stage (h : Claimed m lsFiles command w₀ plan) (hplanned : Planned m lsFiles w₀ plan p)
    {attempts : List (Attempt Unit)}
    (hwhole : Along (nextExecution m lsFiles command) (fun s a => ¬ TearsTemp m lsFiles command s a) ⟨w₀,[]⟩ attempts) :
    Stage w₀ plan p (worldAfter m lsFiles command w₀ attempts) := by
  refine hwhole.invariant (I := fun s : ExecutionState => Stage w₀ plan p s.store) ?_ .claimed
  intro s a hs htears
  have hcall := (executeOrRecover_concludes h hplanned hs []).throughout.cutOff a.cut
  rw [List.nil_append] at hcall
  exact hcall.resolve_right htears

def createsLast (log : ExecutionLog) : Bool :=
  match log.getLast? with
  | some ⟨.createTemp _,_⟩ => true
  | _ => false

theorem Unfilled.createsLast {log : ExecutionLog} (h : Unfilled log) : createsLast log = true := by
  obtain ⟨first,planned,rfl,-⟩ := h
  unfold Bridge.createsLast
  rw [List.getLast?_append_cons]
  rfl

def sampleCommand : BridgeCommand where
  commandId := "c1"
  sessionId := "s1"
  document := .ok (.obj [("operation",.str "replace_exact_and_test"),("payload",.obj [("path",.str "src/a.py"),
    ("old",.str "y"),("new",.str "z"),("profile_id",.str "poc_pytest")])])
  expectedRevision := some 0
  expectedStateHash := none

def sampleExecution : ExecutionWorld where
  checkout := sampleCheckout [121]
  attached := .ok ()
  foreign := []
  temp := none
  state := .claimed
  sessionState := .active
  revision := 0
  stateHash := (sampleManager.computeStateHash listedTexts (sampleCheckout [121])).toOption.getD ""
  plan := none
  effect := none

theorem sample_claimed : ∃ plan, Claimed sampleManager listedTexts sampleCommand sampleExecution plan ∧
    plan.targetPath = "src/a.py" ∧ plan.plannedAfterContent = [122] := by
  have hplan : (sampleManager.preparePlan listedTexts sampleExecution sampleCommand).toOption.map
      (fun plan => (plan.targetPath,plan.plannedAfterContent)) = some ("src/a.py",[122]) := by decide +kernel
  obtain ⟨plan,hplan,hfields⟩ := Option.map_eq_some_iff.mp hplan
  have hprepared : sampleManager.preparePlan listedTexts sampleExecution sampleCommand = .ok plan := by
    cases h : sampleManager.preparePlan listedTexts sampleExecution sampleCommand with
    | error e =>
      rw [h] at hplan
      cases hplan
    | ok found =>
      rw [h] at hplan
      exact congrArg Except.ok (Option.some.inj hplan)
  exact ⟨plan,⟨rfl,rfl,rfl,rfl,rfl,hprepared⟩,Prod.mk.inj hfields⟩

end Bdb.Bridge
