import Bdb.Scope.UntilStopped

/-! # What one call of the controller does

One lemma for each operation says which parts of the state it changes, and the decision of
a tick is read back: when it launches, the task is one the approved plan allows.
-/
namespace Bdb.Scope

open Continuation (AutoScope ScopeCursor StopFenceRecord StopRequest Database)
open Continuation.Database (ResumeRequest)
open Step List

variable {rt : Runtime} {s : ControllerState} {cursor c : ScopeCursor} {i : UntilStoppedInputs} {graph : CanonicalPlanGraph}
  {plan : Option PlanSubmission} {v : Verdict}

/-! ## Launches -/

/-- The task may run in the milestone: it is listed there and known to the plan, its
dependencies are terminal, all gates before the milestone are accepted and its approvals
are given. -/
structure Allowed (rt : Runtime) (graph : CanonicalPlanGraph) (i : UntilStoppedInputs) (before : List PlanMilestoneNode)
    (m : PlanMilestoneNode) (task : PlanTaskNode) : Prop where
  listed : task.taskId ∈ m.taskIds
  known : graph.getTask task.taskId = some task
  unfinished : i.taskTerminal rt task.taskId = false
  dependencies : ∀ dep ∈ task.dependencies, i.taskTerminal rt dep = true
  gates : ∀ n ∈ before, i.gateApproved rt n.milestoneId = true
  manual : task.requiresManualApproval = true → i.manualApprovals task.taskId = true
  policy : task.requiresPolicyApproval = true → i.policyApprovals task.taskId = true

theorem taskVerdict_launch {milestoneId taskId : String}
    (h : (taskVerdict rt cursor graph i milestoneId taskId).decision.action = .launchTask) :
    (taskVerdict rt cursor graph i milestoneId taskId).decision.selectedTaskId = some taskId ∧
      ∃ task, graph.getTask taskId = some task ∧ (∀ dep ∈ task.dependencies, i.taskTerminal rt dep = true) ∧
        (task.requiresManualApproval = true → i.manualApprovals taskId = true) ∧
        (task.requiresPolicyApproval = true → i.policyApprovals taskId = true) := by
  unfold taskVerdict at h ⊢
  cases htask : graph.getTask taskId with
  | none =>
    rw [htask] at h
    cases h
  | some task =>
    rw [htask] at h
    dsimp only at h ⊢
    split at h
    · cases h
    · rename_i hpending
      split at h
      · cases h
      · rename_i hmanual
        split at h
        · cases h
        · rename_i hpolicy
          rw [if_neg hpending,if_neg hmanual,if_neg hpolicy]
          refine ⟨rfl,task,rfl,?_,?_,?_⟩
          · intro dep hdep
            have hnone := filter_eq_nil_iff.mp (not_not.mp hpending) dep hdep
            simpa using hnone
          · intro hrequired
            by_contra hmissing
            exact hmanual (.inr ⟨hrequired,by simpa using hmissing⟩)
          · intro hrequired
            by_contra hmissing
            exact hpolicy (.inr ⟨hrequired,by simpa using hmissing⟩)

variable {m : PlanMilestoneNode} {before : List PlanMilestoneNode} {p : PlanSubmission}
    {r : UntilStoppedResult}

theorem gateVerdict_ne_launch (h : gateVerdict rt i m = some v) : v.decision.action ≠ .launchTask := by
  unfold gateVerdict at h
  split at h
  · cases h
  · split at h
    all_goals
      cases h
      nofun

theorem milestoneVerdict_launch
    (h : milestoneVerdict rt cursor graph i before m = some v) (hlaunch : v.decision.action = .launchTask) :
    ∃ task, v.decision.selectedTaskId = some task.taskId ∧ Allowed rt graph i before m task := by
  unfold milestoneVerdict at h
  split at h
  · cases h
    cases hlaunch
  · split at h
    · cases h
      cases hlaunch
    · rename_i hgates
      split at h
      · rename_i taskId hfound
        cases h
        obtain ⟨hselected,task,htask,hdeps,hmanual,hpolicy⟩ := taskVerdict_launch hlaunch
        obtain rfl := CanonicalPlanGraph.getTask_id htask
        refine ⟨task,hselected,mem_of_find?_eq_some hfound,htask,?_,hdeps,?_,hmanual,hpolicy⟩
        · simpa using List.find?_some hfound
        · intro n hn
          by_contra hmissing
          exact hgates (any_eq_true.mpr ⟨n,hn,by simpa using hmissing⟩)
      · exact absurd hlaunch (gateVerdict_ne_launch h)

variable {rest : List PlanMilestoneNode} {digest admissionId suffix now : String}
    {f : PlanAdmission → PlanAdmission} {approvedBy : Option String}

theorem traverse_launch (h : traverse rt cursor graph i before rest = some v)
    (hlaunch : v.decision.action = .launchTask) : ∃ earlier m later task, before ++ rest = earlier ++ m :: later ∧
      v.decision.selectedTaskId = some task.taskId ∧ Allowed rt graph i earlier m task := by
  induction rest generalizing before with
  | nil => cases h
  | cons m rest ih =>
    unfold traverse at h
    split at h
    · rename_i v' hv'
      cases h
      obtain ⟨task,hselected,hallowed⟩ := milestoneVerdict_launch hv' hlaunch
      exact ⟨before,m,rest,task,rfl,hselected,hallowed⟩
    · obtain ⟨earlier,n,later,task,hsplit,hresult⟩ := ih h
      refine ⟨earlier,n,later,task,?_,hresult⟩
      rw [← hsplit,append_assoc]
      rfl

theorem validatePlan_ok (h : validatePlan rt p = .ok digest) :
    p.graph.validateGraph = none ∧ digest = computedPlanDigest rt p.graph := by
  unfold validatePlan at h
  split at h
  · cases h
  · rename_i hvalid
    obtain ⟨_,_,h⟩ := rest₂ h
    exact ⟨hvalid,(pure_ok.mp h).symm⟩

/-- A launch that the approved plan allows. The plan in hand has the identity, the version
and the digest of the approved one. -/
structure LegalLaunch (rt : Runtime) (s : ControllerState) (i : UntilStoppedInputs) (taskId : Option String) : Prop where
  legal : ∃ approved graph earlier m later task, s.approvedPlan = some approved ∧
    graph.planIdentity = approved.record.planIdentity ∧ graph.planVersion = approved.record.planVersion ∧
    computedPlanDigest rt graph = approved.record.planDigest ∧ graph.validateGraph = none ∧
    graph.milestones = earlier ++ m :: later ∧ taskId = some task.taskId ∧ Allowed rt graph i earlier m task

theorem planVerdict_launch {approved : PlanAdmission}
    (h : (planVerdict rt cursor approved i p).decision.action = .launchTask) (happroved : s.approvedPlan = some approved) :
    LegalLaunch rt s i (planVerdict rt cursor approved i p).decision.selectedTaskId := by
  unfold planVerdict at h ⊢
  cases hvalid : validatePlan rt p with
  | error f =>
    rw [hvalid] at h
    cases h
  | ok digest =>
    obtain ⟨hgraph,hdigest⟩ := validatePlan_ok hvalid
    rw [hvalid] at h
    dsimp only at h ⊢
    split at h
    · cases h
    · rename_i hsame
      split at h
      · cases h
      · rename_i hblocker
        split at h
        · cases h
        · rename_i hexhausted
          rw [if_neg hsame,if_neg hblocker,if_neg hexhausted]
          cases htraverse : traverse rt cursor p.graph i [] p.graph.milestones with
          | none =>
            rw [htraverse] at h
            cases h
          | some v =>
            rw [htraverse] at h
            obtain ⟨earlier,m,later,task,hsplit,hselected,hallowed⟩ := traverse_launch htraverse h
            obtain ⟨hidentity,-⟩ := not_not.mp hsame
            simp only [sameIdentity,decide_eq_true_eq] at hidentity
            exact ⟨approved,p.graph,earlier,m,later,task,happroved,hidentity.1.symm,hidentity.2.1.symm,
              hdigest.symm.trans hidentity.2.2.symm,hgraph,hsplit,hselected,hallowed⟩

theorem verdict_launch (h : (verdict rt s cursor i plan).decision.action = .launchTask) :
    LegalLaunch rt s i (verdict rt s cursor i plan).decision.selectedTaskId := by
  unfold verdict at h ⊢
  cases happroved : s.approvedPlan with
  | none =>
    rw [happroved] at h
    cases h
  | some approved =>
    rw [happroved] at h
    exact planVerdict_launch h happroved

/-! ## Exhaustion -/

def Coherent (v : Verdict) : Prop := v.planExhausted = true ↔ v.decision.action = .haltWaitingForPlan

/-- A decision about a task or a gate. -/
def Plain (v : Verdict) : Prop := v.planExhausted = false ∧ v.decision.action ≠ .haltWaitingForPlan

theorem Plain.coherent (h : Plain v) : Coherent v := by
  obtain ⟨hfalse,hne⟩ := h
  constructor
  · intro htrue
    rw [hfalse] at htrue
    cases htrue
  · exact fun heq => absurd heq hne

theorem blockedVerdict_plain (reason explanation : String) (taskId milestoneId : Option String) :
    Plain (blockedVerdict reason explanation taskId milestoneId) := ⟨rfl,nofun⟩

theorem waitingVerdict_coherent (explanation : String) (milestoneId : Option String) :
    Coherent (waitingVerdict explanation milestoneId) := ⟨fun _ => rfl,fun _ => rfl⟩

theorem taskVerdict_plain (milestoneId taskId : String) : Plain (taskVerdict rt cursor graph i milestoneId taskId) := by
  unfold taskVerdict
  split
  · exact blockedVerdict_plain _ _ _ _
  · dsimp only
    split
    · exact ⟨rfl,nofun⟩
    · split
      · exact ⟨rfl,nofun⟩
      · split
        all_goals exact ⟨rfl,nofun⟩

theorem milestoneVerdict_plain (h : milestoneVerdict rt cursor graph i before m = some v) : Plain v := by
  unfold milestoneVerdict at h
  split at h
  · cases h
    exact blockedVerdict_plain _ _ _ _
  · split at h
    · cases h
      exact blockedVerdict_plain _ _ _ _
    · split at h
      · cases h
        exact taskVerdict_plain _ _
      · unfold gateVerdict at h
        split at h
        · cases h
        · split at h
          · cases h
            exact blockedVerdict_plain _ _ _ _
          · cases h
            exact ⟨rfl,nofun⟩

theorem traverse_plain (h : traverse rt cursor graph i before rest = some v) : Plain v := by
  induction rest generalizing before with
  | nil => cases h
  | cons m rest ih =>
    unfold traverse at h
    split at h
    · rename_i v' hv'
      cases h
      exact milestoneVerdict_plain hv'
    · exact ih h

variable (rt i) in
theorem verdict_coherent (s : ControllerState) (cursor : ScopeCursor) (plan : Option PlanSubmission) :
    Coherent (verdict rt s cursor i plan) := by
  unfold verdict
  split
  · exact waitingVerdict_coherent _ _
  · unfold planVerdict
    split
    · exact (blockedVerdict_plain _ _ _ _).coherent
    · split
      · exact (blockedVerdict_plain _ _ _ _).coherent
      · split
        · exact (blockedVerdict_plain _ _ _ _).coherent
        · split
          · exact waitingVerdict_coherent _ _
          · cases htraverse : traverse rt cursor _ i [] _ with
            | none => exact waitingVerdict_coherent _ _
            | some v => exact (traverse_plain htraverse).coherent

/-! ## The cursor of the controller -/

/-- A cursor of this scope, whose waiting is told by its disposition. -/
structure OwnCursor (c : ScopeCursor) : Prop where
  scope : c.scope = .untilStopped
  explicit : c.scopeSelectionExplicit = true
  waiting : Bdb.Scope.waiting c = true → c.disposition = "WAITING_FOR_PLAN"

theorem waiting_iff : waiting c = true ↔ c.status = "WAITING_FOR_PLAN" ∨ c.disposition = "WAITING_FOR_PLAN" := by
  simp [waiting]

theorem storedTask_waiting {d : ScopeDecision} (h : (storedTask cursor d).2 = "WAITING_FOR_PLAN") :
    d.action = .haltWaitingForPlan := by
  unfold storedTask at h
  split at h
  · assumption
  all_goals simp at h

theorem decidedCursor_own {p : Option PlanAdmissionRecord} (hcursor : OwnCursor cursor) (hv : Coherent v) :
    OwnCursor (decidedCursor cursor v.decision p v.planExhausted) := by
  refine ⟨hcursor.scope,hcursor.explicit,?_⟩
  intro hwaiting
  rcases waiting_iff.mp hwaiting with hstatus | hdisposition
  · have hexhausted := hv.mpr (storedTask_waiting hstatus)
    change (if v.planExhausted = true then _ else _) = _
    rw [if_pos hexhausted]
  · exact hdisposition

theorem updateCursorCas_own {updated stored : ScopeCursor} {n : ℕ} (h : updateCursorCas cursor updated n = some stored)
    (hupdated : OwnCursor updated) : OwnCursor stored := by
  unfold updateCursorCas at h
  split at h
  · cases h
    exact ⟨hupdated.scope,hupdated.explicit,hupdated.waiting⟩
  · cases h

theorem persistDecision_cases (s : ControllerState) (p : Option PlanAdmissionRecord) (hcursor : OwnCursor cursor) (hv : Coherent v) :
    (persistDecision s cursor v p).1 = s ∨ ∃ stored explanation, OwnCursor stored ∧
      (persistDecision s cursor v p).1 = { s with db := { s.db with cursor := some stored }, explanation := explanation } := by
  unfold persistDecision
  dsimp only
  split
  · exact .inl rfl
  · split
    · exact .inl rfl
    · rename_i stored hstored
      exact .inr ⟨stored,_,updateCursorCas_own hstored (decidedCursor_own hcursor hv),rfl⟩

theorem persistDecision_decision {p : Option PlanAdmissionRecord}
    (h : (persistDecision s cursor v p).2 = .ok r) : r.decision = v.decision := by
  unfold persistDecision at h
  dsimp only at h
  split at h
  · cases h
    rfl
  · split at h
    · cases h
    · cases h
      rfl

/-! ## Ticks -/

variable (rt) in
theorem evaluate_cases (s : ControllerState) (i : UntilStoppedInputs) (plan : Option PlanSubmission)
    (hown : ∀ c, s.db.cursor = some c → OwnCursor c) :
    (s.evaluate rt i plan).1 = s ∨ ∃ cursor stored explanation, s.db.cursor = some cursor ∧ cursor.stopped = false ∧
      waiting cursor = false ∧ OwnCursor stored ∧
      (s.evaluate rt i plan).1 = { s with db := { s.db with cursor := some stored }, explanation := explanation } := by
  unfold ControllerState.evaluate
  cases hcursor : s.db.cursor with
  | none => exact .inl rfl
  | some cursor =>
    have hc := hown cursor hcursor
    dsimp only
    split
    · exact .inl rfl
    · rename_i hstopped
      rw [if_neg (not_not.mpr ⟨hc.scope,hc.explicit⟩)]
      split
      · exact .inl rfl
      · rename_i hwaiting
        rcases persistDecision_cases s (s.approvedPlan.map (·.record)) hc (verdict_coherent rt i s cursor plan) with
          hsame | ⟨stored,explanation,hstored,hstate⟩
        · exact .inl hsame
        · exact .inr ⟨cursor,stored,explanation,rfl,by simpa using hstopped,by simpa using hwaiting,hstored,hstate⟩

theorem evaluate_launch (h : (s.evaluate rt i plan).2 = .ok r)
    (hlaunch : r.decision.action = .launchTask) : LegalLaunch rt s i r.decision.selectedTaskId := by
  unfold ControllerState.evaluate at h
  split at h
  · cases h
  · split at h
    · cases h
      cases hlaunch
    · split at h
      · rw [persistDecision_decision h] at hlaunch
        cases hlaunch
      · split at h
        · cases h
          cases hlaunch
        · have hdecision := persistDecision_decision h
          rw [hdecision] at hlaunch ⊢
          exact verdict_launch hlaunch

theorem LegalLaunch.of_admissions {t : ControllerState} {taskId : Option String} (h : LegalLaunch rt s i taskId)
    (hsame : t.admissions = s.admissions) : LegalLaunch rt t i taskId := by
  obtain ⟨approved,graph,earlier,m,later,task,happroved,hrest⟩ := h.legal
  refine ⟨approved,graph,earlier,m,later,task,?_,hrest⟩
  unfold ControllerState.approvedPlan
  rw [hsame]
  exact happroved

def tickStop (cursor : ScopeCursor) (stamps : StopStamps) : StopRequest :=
  ⟨some cursor.scopeEpoch,"UNTIL_STOPPED STOP requested","operator",stamps.fenceSuffix,stamps.eventSuffix,stamps.now⟩

variable (rt) in
theorem tick_cases (s : ControllerState) (i : UntilStoppedInputs) (plan : Option PlanSubmission) (stamps : StopStamps) :
    ((s.tick rt i plan stamps).1 = s ∧ ∃ f, (s.tick rt i plan stamps).2 = .error f) ∨
      s.tick rt i plan stamps = s.evaluate rt i plan ∨
      ∃ q, ((s.tick rt i plan stamps).1 = { s with db := (s.db.stop q).1 } ∧ ∃ f, (s.tick rt i plan stamps).2 = .error f) ∨
        s.tick rt i plan stamps = ({ s with db := (s.db.stop q).1 } : ControllerState).evaluate rt i plan := by
  unfold ControllerState.tick
  cases hcursor : s.db.cursor with
  | none => exact .inl ⟨rfl,_,rfl⟩
  | some cursor =>
    dsimp only
    split
    · refine .inr (.inr ⟨tickStop cursor stamps,?_⟩)
      rcases hstop : s.db.stop (tickStop cursor stamps) with ⟨db,o⟩
      unfold tickStop at hstop
      rw [hstop]
      cases o with
      | error f => exact .inl ⟨rfl,f,rfl⟩
      | ok p => exact .inr rfl
    · exact .inr (.inl rfl)

theorem tick_launch {stamps : StopStamps} (h : (s.tick rt i plan stamps).2 = .ok r)
    (hlaunch : r.decision.action = .launchTask) : LegalLaunch rt s i r.decision.selectedTaskId := by
  rcases tick_cases rt s i plan stamps with ⟨-,f,hf⟩ | heval | ⟨q,⟨-,f,hf⟩ | heval⟩
  · rw [hf] at h
    cases h
  · rw [heval] at h
    exact evaluate_launch h hlaunch
  · rw [hf] at h
    cases h
  · rw [heval] at h
    exact (evaluate_launch h hlaunch).of_admissions rfl

/-! ## Admissions -/

/-- One approved plan at most, and every stored digest is that of the stored plan. -/
structure Admitted (rt : Runtime) (t : Admissions) : Prop where
  approved : (approvedRows t).length ≤ 1
  digests : ∀ a ∈ t.rows, a.record.planDigest = computedPlanDigest rt a.plan

variable {t t' : Admissions} {a : PlanAdmission}

theorem indexed_ok (h : indexed t = .ok t') : t' = t ∧ (approvedRows t).length ≤ 1 := by
  obtain ⟨hcount,h⟩ := of_require h
  exact ⟨(pure_ok.mp h).symm,hcount⟩

theorem insertAdmission_ok (h : insertAdmission t a = .ok t') :
    t'.rows = t.rows ++ [a] ∧ (approvedRows t').length ≤ 1 := by
  obtain ⟨_,h⟩ := rest_ok h
  obtain ⟨inserted,hinserted,h⟩ := of_need h
  obtain ⟨rfl,hcount⟩ := indexed_ok h
  exact ⟨(Table.insert_some hinserted).2,hcount⟩

variable {hf : ∀ a, (f a).record.admissionId = a.record.admissionId}

theorem mem_changeWhere {p : AdmissionStatus → Bool}
    (h : a ∈ (changeWhere t admissionId p f hf).rows) :
    ∃ b ∈ t.rows, a = b ∨ a = f b := by
  obtain ⟨b,hb,rfl⟩ := mem_map.mp h
  refine ⟨b,hb,?_⟩
  split
  · exact .inr rfl
  · exact .inl rfl

theorem Admitted.changeWhere {p : AdmissionStatus → Bool}
    (h : Admitted rt t)
    (hplan : ∀ b, (f b).plan = b.plan ∧ (f b).record.planDigest = b.record.planDigest)
    (hindexed : indexed (Bdb.Scope.changeWhere t admissionId p f hf) = .ok t') : Admitted rt t' := by
  obtain ⟨rfl,hcount⟩ := indexed_ok hindexed
  refine ⟨hcount,?_⟩
  intro a ha
  obtain ⟨b,hb,rfl | rfl⟩ := mem_changeWhere ha
  · exact h.digests a hb
  · rw [(hplan b).1,(hplan b).2]
    exact h.digests b hb

theorem insertOrGetAdmission_ok {status : AdmissionStatus} {predecessor : Option PlanAdmissionRecord}
     {done : ControllerState}
    (h : insertOrGetAdmission rt s p status predecessor approvedBy suffix now = .ok (done,a)) (hs : Admitted rt s.admissions) :
    ∃ admissions, Admitted rt admissions ∧ done = { s with admissions := admissions } := by
  obtain ⟨digest,hdigest,h⟩ := bind_ok.mp h
  obtain ⟨-,hcomputed⟩ := validatePlan_ok hdigest
  split at h
  · split at h
    · obtain ⟨admissions,hindexed,h⟩ := bind_ok.mp h
      obtain ⟨_,h⟩ := rest_ok h
      cases pure_ok.mp h
      refine ⟨admissions,hs.changeWhere ?_ hindexed,rfl⟩
      intro b
      exact ⟨rfl,rfl⟩
    · cases pure_ok.mp h
      exact ⟨s.admissions,hs,rfl⟩
  · obtain ⟨admissions,hinserted,h⟩ := bind_ok.mp h
    cases pure_ok.mp h
    obtain ⟨hrows,hcount⟩ := insertAdmission_ok hinserted
    refine ⟨admissions,⟨hcount,?_⟩,rfl⟩
    intro b hb
    rw [hrows] at hb
    rcases mem_append.mp hb with hb | hb
    · exact hs.digests b hb
    · rw [mem_singleton.mp hb]
      exact hcomputed

theorem insertOrGetAdmission_first
    (hempty : s.admissions.rows = []) (hvalid : validatePlan rt p = .ok digest) :
    ∃ done row, insertOrGetAdmission rt s p .approved none approvedBy suffix now = .ok (done,row) := by
  have hnone : s.admissionFor p.graph.planIdentity p.graph.planVersion digest = none := by
    refine List.find?_eq_none.mpr ?_
    rw [hempty]
    exact fun _ h => absurd h not_mem_nil
  unfold insertOrGetAdmission
  simp only [hvalid,ok_bind,hnone]
  generalize hrow : (PlanAdmission.mk _ p.graph) = row
  have hnew : s.admissions.get row.record.admissionId = none := by
    refine List.find?_eq_none.mpr ?_
    rw [hempty]
    exact fun _ h => absurd h not_mem_nil
  obtain ⟨inserted,hinserted⟩ := Table.insert_of_new hnew
  have hrows := (Table.insert_some hinserted).2
  have hadmitted : insertAdmission s.admissions row = .ok inserted := by
    unfold insertAdmission
    rw [require_of (by rw [hempty]; rfl),ok_bind,hinserted]
    simp only [need,ok_bind,indexed]
    rw [require_of]
    · rfl
    · unfold approvedRows
      rw [hrows,hempty]
      exact length_filter_le _ _
  rw [hadmitted]
  exact ⟨_,row,rfl⟩

/-! ## Starting and successors -/

theorem start_cases (s : ControllerState) (args : StartArgs) (hempty : s.db.cursor = none → s.admissions.rows = [])
    (hs : Admitted rt s.admissions) :
    (s.start rt args).1 = s ∨ s.db.cursor = none ∧ ∃ cursor admissions, (s.start rt args).2 = .ok cursor ∧ OwnCursor cursor ∧
      Admitted rt admissions ∧
      (s.start rt args).1 = { s with db := { s.db with cursor := some cursor }, explanation := none, admissions := admissions } := by
  unfold ControllerState.start
  cases hcheck : checkStart rt args with
  | error f => exact .inl rfl
  | ok digest =>
    dsimp only
    cases hcursor : s.db.cursor with
    | some existing => exact .inl rfl
    | none =>
      dsimp only
      have hvalid : validatePlan rt args.plan = .ok digest := by
        obtain ⟨_,_,h⟩ := bind_ok.mp hcheck
        obtain ⟨_,_,_,h⟩ := rest₃ h
        exact h
      generalize hnew : getOrCreateCursor none s.db.projectId args.runId .untilStopped args.plan.graph.planIdentity
        args.plan.graph.planVersion true = cursor
      generalize hcreated : ({ s with db := { s.db with cursor := some cursor }, explanation := none } : ControllerState) = created
      have hrows : created.admissions.rows = [] := by
        rw [← hcreated]
        exact hempty hcursor
      have hadmitted : Admitted rt created.admissions := by
        rw [← hcreated]
        exact hs
      have hfirst : ∃ done row, insertOrGetAdmission rt created args.plan .approved none (some args.approvedBy)
          args.suffix args.now = .ok (done,row) := insertOrGetAdmission_first hrows hvalid
      obtain ⟨done,row,hdone⟩ := hfirst
      obtain ⟨admissions,hin,hstate⟩ := insertOrGetAdmission_ok hdone hadmitted
      rw [hdone]
      refine .inr ⟨rfl,cursor,admissions,rfl,?_,hin,?_⟩
      · rw [← hnew]
        exact ⟨rfl,rfl,fun hwaiting => absurd hwaiting (by simp [waiting,getOrCreateCursor])⟩
      · dsimp only
        rw [hstate,← hcreated]

theorem settle_cases {ρ : Type} (s : ControllerState) (body : Step ρ (ControllerState × ρ)) :
    (s.settle body).1 = s ∨ ∃ done r, body = .ok (done,r) ∧ s.settle body = (done,.ok r) := by
  unfold ControllerState.settle
  split
  · exact .inr ⟨_,_,rfl,rfl⟩
  all_goals exact .inl rfl

theorem admitOr_ok {α : Type} {o : Outcome α} {b : α} (h : admitOr o = .ok b) : o = .ok b := by
  unfold admitOr at h
  split at h
  · cases h
    rfl
  · split at h
    · cases h
    · cases h

theorem presentSuccessor_cases (s : ControllerState) (p : PlanSubmission) (predecessor : Option PlanAdmissionRecord)
    (suffix now : String) (hs : Admitted rt s.admissions) :
    (s.presentSuccessor rt p predecessor suffix now).1 = s ∨ (∃ cursor, s.db.cursor = some cursor) ∧
      ∃ admissions, Admitted rt admissions ∧
        (s.presentSuccessor rt p predecessor suffix now).1 = { s with admissions := admissions } := by
  unfold ControllerState.presentSuccessor
  rcases settle_cases s (presentSuccessorBody rt s p predecessor suffix now) with hsame | ⟨done,r,hbody,hresult⟩
  · exact .inl hsame
  · obtain ⟨cursor,hcursor,h⟩ := bind_ok.mp hbody
    obtain ⟨_,h⟩ := rest_ok h
    obtain ⟨current,_,h⟩ := bind_ok.mp h
    obtain ⟨_,_,_,h⟩ := rest₃ h
    obtain ⟨pair,hpair,h⟩ := bind_ok.mp h
    cases pure_ok.mp h
    obtain ⟨admissions,hin,hstate⟩ := insertOrGetAdmission_ok (admitOr_ok hpair) hs
    refine .inr ⟨⟨cursor,needOr_ok.mp hcursor⟩,admissions,hin,?_⟩
    rw [hresult]
    exact hstate

theorem approveSuccessor_cases (s : ControllerState) (name : SuccessorName) (approvedBy now : String)
    (hs : Admitted rt s.admissions) (hown : ∀ c, s.db.cursor = some c → OwnCursor c) :
    (s.approveSuccessor rt name approvedBy now).1 = s ∨ ∃ cursor stored admissions, s.db.cursor = some cursor ∧
      cursor.stopped = false ∧ OwnCursor stored ∧ Admitted rt admissions ∧
      (∃ o, (s.approveSuccessor rt name approvedBy now).2 = .ok o ∧ o.success = true) ∧
      (s.approveSuccessor rt name approvedBy now).1 =
        { s with db := { s.db with cursor := some stored }, admissions := admissions } := by
  unfold ControllerState.approveSuccessor
  rcases settle_cases s (approveSuccessorBody rt s name approvedBy now) with hsame | ⟨done,r,hbody,hresult⟩
  · exact .inl hsame
  · obtain ⟨cursor,hcursor,h⟩ := bind_ok.mp hbody
    obtain ⟨_,hstopped,h⟩ := bind_ok.mp h
    obtain ⟨_,h⟩ := rest_ok h
    obtain ⟨current,_,h⟩ := bind_ok.mp h
    obtain ⟨id,_,h⟩ := bind_ok.mp h
    obtain ⟨candidate,_,h⟩ := bind_ok.mp h
    obtain ⟨_,_,h⟩ := rest₂ h
    obtain ⟨superseded,hsuperseded,h⟩ := bind_ok.mp h
    obtain ⟨admissions,hadmissions,h⟩ := bind_ok.mp h
    obtain ⟨updated,hupdated,h⟩ := bind_ok.mp h
    have hfound := needOr_ok.mp hcursor
    have hc := hown cursor hfound
    have hin : Admitted rt superseded := by
      refine hs.changeWhere ?_ (orRaise_ok.mp hsuperseded)
      intro b
      exact ⟨rfl,rfl⟩
    have hout : Admitted rt admissions := by
      refine hin.changeWhere ?_ (orRaise_ok.mp hadmissions)
      intro b
      exact ⟨rfl,rfl⟩
    have hsuccessor : OwnCursor (successorCursor cursor candidate.record) := by
      refine ⟨hc.scope,hc.explicit,?_⟩
      intro hwaiting
      rcases waiting_iff.mp hwaiting with hstatus | hdisposition
      · exact absurd hstatus (by simp [successorCursor])
      · exact hdisposition
    have hpair := pure_ok.mp h
    refine .inr ⟨cursor,updated,admissions,hfound,answerUnless_ok.mp hstopped,
      updateCursorCas_own (needOr_ok.mp hupdated) hsuccessor,hout,?_,?_⟩
    · rw [hresult]
      exact ⟨r,rfl,(Prod.mk.inj hpair).2 ▸ rfl⟩
    · rw [hresult]
      exact (Prod.mk.inj hpair).1.symm

end Bdb.Scope
