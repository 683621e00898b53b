import Bdb.Base.Sha256
import Bdb.Startup.Precedence

/-! # When startup recovery keeps its promises

A candidate is the earliest rule that holds, or it was returned for a blocked re-entry before
the rules from the leases on were tested. Which rows are behind its action follows.
-/
namespace Bdb.Startup

open List

variable {rt : RecoveryRuntime} {data : Canonical} {now : DateTime} {c : Candidate}

/-! ## Ranks -/

theorem NoneOf.snoc {rules : List RecoveryRule} (h : NoneOf rt data now rules) (r : RecoveryRule)
    (hr : ¬ Holds rt data now r) : NoneOf rt data now (rules ++ [r]) := by
  intro q hq
  rcases mem_append.mp hq with hq | hq
  · exact h q hq
  · exact mem_singleton.mp hq ▸ hr

theorem NoneOf.mono {rules rules' : List RecoveryRule} (h : NoneOf rt data now rules) (hsub : rules' ⊆ rules) :
    NoneOf rt data now rules' :=
  fun r hr => h r (hsub hr)

theorem ranks_total (r r' : RecoveryRule) : r = r' ∨ r ∈ ranksBefore r' ∨ r' ∈ ranksBefore r := by
  cases r <;> cases r' <;> decide

theorem Earliest.unique {r r' : RecoveryRule} (h : Earliest rt data now r) (h' : Earliest rt data now r') : r = r' := by
  rcases ranks_total r r' with heq | hlt | hlt
  · exact heq
  · exact absurd h.1 (h'.2 r hlt)
  · exact absurd h'.1 (h.2 r' hlt)

/-! ## The candidate -/

/-- What the action of a candidate that was picked in its turn says about its rule. -/
structure ActionOf (rt : RecoveryRuntime) (data : Canonical) (rule : RecoveryRule) (action : RecoveryAction) : Prop where
  sends : action = .resumeSendIntent ↔ rule = .activeSendIntent ∧ confirmedSends rt data = []
  reentries : action = .resumeSessionReentry ↔ rule = .continuationReentry
  leases : action = .reclaimExpiredContinuationLease ↔ rule = .expiredOrphanLease
  repairs : action = .repairRetest ↔ rule = .repairRetest

/-- The rules that are tested before blocked re-entries. -/
def testedFirst : List RecoveryRule := ranksBefore .activeContinuationLease

inductive Picked (rt : RecoveryRuntime) (data : Canonical) (now : DateTime) (c : Candidate) : Prop
  | inTurn (hrule : Earliest rt data now c.rule) (haction : ActionOf rt data c.rule c.action)
      (hblocked : c.rule ∉ testedFirst → blockedReentries rt data = [])
  | blocked (hfirst : NoneOf rt data now testedFirst) (hblocked : blockedReentries rt data ≠ [])
      (hrule : c.rule = .manualPolicyCheckpoint) (haction : c.action = .manualPolicyCheckpoint)

theorem Picked.first (r : RecoveryRule) (hc : c.rule = r) (hrule : Earliest rt data now r) (hfirst : r ∈ testedFirst)
    (haction : ActionOf rt data c.rule c.action) : Picked rt data now c := by
  subst hc
  exact .inTurn hrule haction fun hlate => absurd hfirst hlate

theorem taskCandidate_rule (h : taskCandidate rt data = some c) :
    c.rule = .currentRunnableTask ∧ ActionOf rt data c.rule c.action := by
  unfold taskCandidate at h
  split at h
  · cases h
  · split at h
    · cases h
      exact ⟨rfl,by constructor <;> simp⟩
    · split at h
      · cases h
        refine ⟨rfl,?_⟩
        constructor <;> dsimp only <;> split <;> simp
      · split at h
        · cases h
          exact ⟨rfl,by constructor <;> simp⟩
        · cases h

theorem lowerCandidate_picked (hbefore : NoneOf rt data now (ranksBefore .ciWaiting))
    (hblocked : blockedReentries rt data = []) : Picked rt data now (lowerCandidate rt data) := by
  unfold lowerCandidate
  split
  · rename_i hci
    exact .inTurn ⟨hci,hbefore⟩ (by constructor <;> simp) fun _ => hblocked
  · rename_i hci
    have hrepairs := hbefore.snoc .ciWaiting hci
    split
    · rename_i hrepair
      exact .inTurn ⟨hrepair,hrepairs⟩ (by constructor <;> simp) fun _ => hblocked
    · rename_i hrepair
      have hplans := hrepairs.snoc .repairRetest hrepair
      split
      · rename_i hplan
        exact .inTurn ⟨hplan,hplans⟩ (by constructor <;> simp) fun _ => hblocked
      · rename_i hplan
        have hmanuals := hplans.snoc .waitingForPlan hplan
        split
        · rename_i hmanual
          exact .inTurn ⟨.inr hmanual,hmanuals⟩ (by constructor <;> simp) fun _ => hblocked
        · rename_i hmanual
          have htasks : NoneOf rt data now (ranksBefore .currentRunnableTask) :=
            hmanuals.snoc .manualPolicyCheckpoint (by rintro (h | h); exacts [h hblocked,hmanual h])
          split
          · rename_i hcomplete
            have hcompletes : NoneOf rt data now (ranksBefore .projectScopeComplete) :=
              htasks.snoc .currentRunnableTask fun h => h.2 hcomplete
            exact .inTurn ⟨hcomplete,hcompletes⟩ (by constructor <;> simp) fun _ => hblocked
          · rename_i hcomplete
            cases htask : taskCandidate rt data with
            | some c =>
              obtain ⟨hrule,haction⟩ := taskCandidate_rule htask
              refine .inTurn ?_ haction fun _ => hblocked
              rw [Option.getD_some,hrule]
              exact ⟨⟨by rw [htask]; rfl,hcomplete⟩,htasks⟩
            | none =>
              have hcompletes : NoneOf rt data now (ranksBefore .projectScopeComplete) := by
                refine htasks.snoc .currentRunnableTask ?_
                rintro ⟨h,-⟩
                rw [htask] at h
                cases h
              have hidles : NoneOf rt data now (ranksBefore .idle) := hcompletes.snoc .projectScopeComplete hcomplete
              exact .inTurn ⟨trivial,hidles⟩ (by constructor <;> simp) fun _ => hblocked

theorem leaseCandidate_picked (hbefore : NoneOf rt data now testedFirst) (hblocked : blockedReentries rt data = [])
    (h : leaseCandidate rt data now = .ok c) : Picked rt data now c := by
  unfold leaseCandidate at h
  obtain ⟨_,h⟩ := rest_ok h
  split at h
  · rename_i hactive
    cases h
    exact .inTurn ⟨hactive,hbefore⟩ (by constructor <;> simp) fun _ => hblocked
  · rename_i hactive
    have hexpireds := hbefore.snoc .activeContinuationLease hactive
    split at h
    · rename_i hexpired
      cases h
      exact .inTurn ⟨hexpired,hexpireds⟩ (by constructor <;> simp) fun _ => hblocked
    · rename_i hexpired
      cases h
      exact lowerCandidate_picked (hexpireds.snoc .expiredOrphanLease hexpired) hblocked

theorem candidate_picked (h : candidate rt data now = .ok c) : Picked rt data now c := by
  unfold candidate at h
  obtain ⟨epoch,hepoch,h⟩ := bind_ok.mp h
  obtain ⟨stop,hstop,h⟩ := bind_ok.mp h
  have hstopped : stopHolds rt data ↔ stop = true := by
    unfold stopHolds
    rw [hepoch]
    change isStopped rt data epoch = .ok true ↔ stop = true
    rw [hstop]
    exact ⟨fun h => Except.ok.inj h,fun h => congrArg Except.ok h⟩
  split at h
  · rename_i hstop'
    cases h
    exact .first .stopped rfl ⟨hstopped.mpr hstop',nofun⟩ (by decide) (by constructor <;> simp)
  · rename_i hstop'
    have hstops : NoneOf rt data now (ranksBefore .stopped) := nofun
    have hfreezes := hstops.snoc .stopped fun hs => hstop' (hstopped.mp hs)
    split at h
    · rename_i hfreeze
      cases h
      exact .first .securityDataCorruptionFreeze rfl ⟨hfreeze,hfreezes⟩ (by decide) (by constructor <;> simp)
    · rename_i hfreeze
      have huncertains := hfreezes.snoc .securityDataCorruptionFreeze hfreeze
      split at h
      · rename_i huncertain
        cases h
        exact .first .deliveryUncertain rfl ⟨huncertain,huncertains⟩ (by decide) (by constructor <;> simp)
      · rename_i huncertain
        have hsends := huncertains.snoc .deliveryUncertain huncertain
        split at h
        · rename_i hsend
          cases h
          refine .first .activeSendIntent rfl ⟨hsend,hsends⟩ (by decide) ?_
          constructor <;> dsimp only <;> split <;> simp_all
        · rename_i hsend
          have hreentries := hsends.snoc .activeSendIntent hsend
          split at h
          · rename_i hpending
            cases h
            exact .first .continuationReentry rfl ⟨hpending,hreentries⟩ (by decide) (by constructor <;> simp)
          · rename_i hpending
            have hoperators := hreentries.snoc .continuationReentry hpending
            split at h
            · rename_i hoperator
              cases h
              exact .first .operatorCheckpoint rfl ⟨hoperator,hoperators⟩ (by decide) (by constructor <;> simp)
            · rename_i hoperator
              have hfirst := hoperators.snoc .operatorCheckpoint hoperator
              split at h
              · rename_i hblocked
                cases h
                exact .blocked hfirst hblocked rfl rfl
              · rename_i hblocked
                exact leaseCandidate_picked hfirst (not_not.mp hblocked) h

/-! ## Promises and condition -/

theorem inTurn_of_noneOf (h : Picked rt data now c) (hfirst : NoneOf rt data now testedFirst)
    (hblocked : blockedReentries rt data ≠ []) : c.rule = .manualPolicyCheckpoint := by
  cases h with
  | blocked _ _ hrule _ => exact hrule
  | inTurn hrule _ hlate =>
    by_cases htested : c.rule ∈ testedFirst
    · exact absurd hrule.1 (hfirst _ htested)
    · exact absurd (hlate htested) hblocked

theorem Picked.rule_eq {r : RecoveryRule} (h : Picked rt data now c) (hr : Earliest rt data now r)
    (hblocked : r ∈ testedFirst ∨ blockedReentries rt data = []) : c.rule = r ∧ ActionOf rt data c.rule c.action := by
  cases h with
  | inTurn hrule haction _ => exact ⟨hrule.unique hr,haction⟩
  | blocked hfirst hne _ _ =>
    rcases hblocked with hfirst' | hnone
    · exact absurd hr.1 (hfirst r hfirst')
    · exact absurd hnone hne

theorem mem_withStatus {field : String} {statuses : List String} {rows : List Fields} {row : Fields}
    (h : row ∈ withStatus rt field statuses rows) : row ∈ rows ∧ projectedStatus rt row field ∈ statuses := by
  obtain ⟨hrow,hstatus⟩ := mem_filter.mp h
  exact ⟨hrow,of_decide_eq_true hstatus⟩

variable {openFailure : Fields → Prop}

theorem Picked.inTurn_of (h : Picked rt data now c) (hearliest : Earliest rt data now c.rule)
    (hcauses : CausesCurrent rt data now openFailure c.action) : InTurn rt data now openFailure where
  blocked hfirst hblocked := by
    have hrule := inTurn_of_noneOf h hfirst hblocked
    rw [hrule] at hearliest
    exact NoneOf.mono hearliest.2 (by decide)
  sends hnone hconfirmed row hrow := by
    obtain ⟨hrule,haction⟩ := h.rule_eq (r := .activeSendIntent) ⟨ne_nil_of_mem hrow,hnone⟩ (.inl (by decide))
    rw [haction.sends.mpr ⟨hrule,hconfirmed⟩] at hcauses
    exact (hcauses row hrow).1
  reentries hnone row hrow := by
    obtain ⟨hrule,haction⟩ := h.rule_eq (r := .continuationReentry) ⟨ne_nil_of_mem hrow,hnone⟩ (.inl (by decide))
    rw [haction.reentries.mpr hrule] at hcauses
    exact (hcauses row hrow).1
  leases hnone hblocked row hrow := by
    obtain ⟨hrule,haction⟩ := h.rule_eq (r := .expiredOrphanLease) ⟨ne_nil_of_mem hrow,hnone⟩ (.inr hblocked)
    rw [haction.leases.mpr hrule] at hcauses
    exact (hcauses row hrow).1
  repairs hnone hblocked := by
    refine ⟨?_,?_⟩
    · intro row hrow
      obtain ⟨hrule,haction⟩ :=
        h.rule_eq (r := .repairRetest) ⟨.inl (ne_nil_of_mem hrow),hnone⟩ (.inr hblocked)
      rw [haction.repairs.mpr hrule] at hcauses
      exact (hcauses.1 row hrow).1
    · intro row hrow
      obtain ⟨hrule,haction⟩ :=
        h.rule_eq (r := .repairRetest) ⟨.inr (ne_nil_of_mem hrow),hnone⟩ (.inr hblocked)
      rw [haction.repairs.mpr hrule] at hcauses
      exact hcauses.2 row hrow

theorem Picked.earliest (h : Picked rt data now c) (hturn : InTurn rt data now openFailure) :
    Earliest rt data now c.rule := by
  cases h with
  | inTurn hrule _ _ => exact hrule
  | blocked hfirst hblocked hrule _ =>
    rw [hrule]
    refine ⟨.inl hblocked,?_⟩
    intro r hr
    have hsplit : r ∈ testedFirst ∨
        r ∈ [.activeContinuationLease,.expiredOrphanLease,.ciWaiting,.repairRetest,RecoveryRule.waitingForPlan] := by
      revert hr
      cases r <;> decide
    rcases hsplit with hearly | hlate
    · exact hfirst r hearly
    · exact hturn.blocked hfirst hblocked r hlate

theorem Picked.causes (h : Picked rt data now c) (hturn : InTurn rt data now openFailure) :
    CausesCurrent rt data now openFailure c.action := by
  cases h with
  | blocked _ _ _ haction =>
    rw [haction]
    trivial
  | inTurn hrule haction hlate =>
    cases hc : c.action with
    | resumeSendIntent =>
      obtain ⟨hsend,hconfirmed⟩ := haction.sends.mp hc
      rw [hsend] at hrule
      intro row hrow
      exact ⟨hturn.sends hrule.2 hconfirmed row hrow,mem_append_left _ (mem_withStatus hrow).2⟩
    | resumeSessionReentry =>
      rw [haction.reentries.mp hc] at hrule
      intro row hrow
      exact ⟨hturn.reentries hrule.2 row hrow,(mem_withStatus hrow).2⟩
    | reclaimExpiredContinuationLease =>
      have hexpired := haction.leases.mp hc
      rw [hexpired] at hrule hlate
      intro row hrow
      exact ⟨hturn.leases hrule.2 (hlate (by decide)) row hrow,(mem_withStatus (mem_filter.mp hrow).1).2⟩
    | repairRetest =>
      have hrepair := haction.repairs.mp hc
      rw [hrepair] at hrule hlate
      obtain ⟨hretries,hfailures⟩ := hturn.repairs hrule.2 (hlate (by decide))
      exact ⟨fun row hrow => ⟨hretries row hrow,(mem_withStatus hrow).2⟩,hfailures⟩
    | _ => trivial

/-! ## Rows of other projects -/

variable {db db' : Tables} {projectId : String}

theorem selectRows_own (h : SameProject projectId db db') (table : String) :
    selectRows db' projectId table = selectRows db projectId table := by
  unfold selectRows
  rw [h table]

theorem snapshot_own (h : SameProject projectId db db') :
    snapshot rt db' projectId = snapshot rt db projectId := by
  have hproject : projectRow db' projectId = projectRow db projectId := by
    unfold projectRow
    rw [h "projects"]
  unfold snapshot
  simp only [hproject,selectRows_own h]

theorem reconcile_own (h : SameProject projectId db db') :
    reconcile rt now db' projectId = reconcile rt now db projectId := by
  unfold reconcile
  rw [snapshot_own h]

/-! ## Readable states -/

/-- The state can be read, and a decision is made on it. -/
structure Readable (rt : RecoveryRuntime) (now : DateTime) (db : Tables) (projectId : String)
    (s : CanonicalRecoverySnapshot) (d : RecoveryDecision) : Prop where
  snapshot : snapshot rt db projectId = .ok s
  decision : reconcile rt now db projectId = .ok d

theorem Readable.candidate {s : CanonicalRecoverySnapshot} {d : RecoveryDecision}
    (h : Readable rt now db projectId s d) :
    ∃ c, candidate rt s.data now = .ok c ∧ d.rule = c.rule ∧ d.action = c.action := by
  have hd := h.decision
  unfold reconcile at hd
  rw [h.snapshot] at hd
  change decisionFromSnapshot rt now s = .ok d at hd
  unfold decisionFromSnapshot at hd
  obtain ⟨c,hc,hd⟩ := bind_ok.mp hd
  obtain ⟨_,hd⟩ := rest_ok hd
  cases hd
  exact ⟨c,hc,rfl,rfl⟩

/-- Startup recovery keeps its promises exactly on the states in which the rules and the rows
are in turn. -/
theorem recovery_obeys_iff {db : Tables} {projectId : String} {s : CanonicalRecoverySnapshot} {d : RecoveryDecision}
    (h : Readable rt now db projectId s d) :
    RecoveryObeys rt s.data now openFailure db projectId d ↔ InTurn rt s.data now openFailure := by
  obtain ⟨c,hc,hrule,haction⟩ := h.candidate
  have hpicked := candidate_picked hc
  constructor
  · intro hobeys
    exact hpicked.inTurn_of (hrule ▸ hobeys.earliest) (haction ▸ hobeys.causes)
  · intro hturn
    exact ⟨hrule ▸ hpicked.earliest hturn,haction ▸ hpicked.causes hturn,fun db' hdb => reconcile_own hdb⟩

/-! ## Three states -/

/-- Case mapping, JSON and timestamps as the rows below need them. -/
def sampleRuntime : RecoveryRuntime where
  runtime :=
    { upperTable := fun c => [c]
      lowerTable := fun c => [c]
      repr := fun j => String.ofList (Json.text j)
      fromIsoFormat := fun s =>
        if "+00:00".toList.isSuffixOf s.toList then some (.utc (String.ofList (s.toList.dropLast.dropLast.dropLast.dropLast.dropLast.dropLast ++ ['Z'])))
        else none
      sha256 := Sha256.sha256 }
  loads := fun s => if s = "\x7b\x7d" then some (.obj []) else if s = "[]" then some (.arr []) else none
  intOfText := fun _ => none

def tableOf (rows : List Fields) : SqlTable := ⟨(rows.headD []).map (·.1),rows⟩

def projectTable : SqlTable := tableOf [[("project_id",.str "p1"),("revision",.int 7),("updated_at",.str "t")]]

def cursorTable (epoch : Int) (runId : String) : SqlTable := tableOf [[
  ("cursor_id",.str "c1"),("project_id",.str "p1"),("run_id",.str runId),("scope",.str "UNTIL_STOPPED"),
  ("scope_epoch",.int epoch),("current_milestone_id",.null),("current_task_id",.null),("state_revision",.int 1),
  ("disposition",.str "RUN_TASK"),("status",.str "ACTIVE")]]

def sendIntentTable (epoch : Int) (runId : String) : SqlTable := tableOf [[
  ("intent_id",.str "i1"),("project_id",.str "p1"),("continuation_id",.str "k1"),("packet_digest",.str "d1"),
  ("scope_epoch",.int epoch),("run_id",.str runId),("execution_binding_id",.str "b1"),("status",.str "PREPARED"),
  ("delivery_evidence_json",.str "\x7b\x7d")]]

def blockedReentryTable : SqlTable := tableOf [[
  ("reentry_id",.str "r1"),("project_id",.str "p1"),("continuation_id",.str "k1"),("packet_digest",.str "d1"),
  ("run_id",.str "run-2"),("scope_epoch",.int 2),("execution_binding_id",.str "b1"),("binding_generation",.int 1),
  ("liveness_state",.str "REENTRY_BLOCKED"),("trace_json",.str "[]"),("effect_count",.int 0)]]

def claimedLeaseTable : SqlTable := tableOf [[
  ("lease_id",.str "l1"),("project_id",.str "p1"),("resource_id",.str "k1"),("status",.str "CLAIMED"),
  ("expires_at",.str "2026-12-31T00:00:00.000000Z"),("lease_kind",.str "CONTINUATION"),("continuation_id",.str "k1"),
  ("packet_digest",.str "d1"),("run_id",.str "run-2"),("scope_epoch",.int 2),("generation",.int 1),
  ("state_revision",.int 1)]]

def databaseOf (tables : List (String × SqlTable)) : Tables := fun name => tables.lookup name

def intentDatabase (epoch : Int) (runId : String) : Tables :=
  databaseOf [("projects",projectTable),("scope_cursors",cursorTable 2 "run-2"),("send_intents",sendIntentTable epoch runId)]

/-- A blocked re-entry beside a lease that nobody may reclaim yet. -/
def blockedDatabase : Tables :=
  databaseOf [("projects",projectTable),("scope_cursors",cursorTable 2 "run-2"),
    ("session_reentries",blockedReentryTable),("leases",claimedLeaseTable)]

def startupTime : DateTime := ⟨63902822400000000,sampleMicros_lt⟩

def checked (db : Tables) (P : CanonicalRecoverySnapshot → RecoveryDecision → Bool) : Bool :=
  match snapshot sampleRuntime db "p1" with
  | .ok s =>
    match decisionFromSnapshot sampleRuntime startupTime s with
    | .ok d => P s d
    | .error _ => false
  | .error _ => false

theorem readable_of_checked {P : CanonicalRecoverySnapshot → RecoveryDecision → Bool}
    (h : checked db P = true) : ∃ s d, Readable sampleRuntime startupTime db "p1" s d ∧ P s d = true := by
  unfold checked at h
  split at h
  · rename_i s hs
    split at h
    · rename_i d hd
      refine ⟨s,d,⟨hs,?_⟩,h⟩
      unfold reconcile
      rw [hs]
      exact hd
    · cases h
  · cases h

/-- An intent of the current epoch is resumed, as promised. -/
theorem current_intent_is_resumed : ∃ s d, Readable sampleRuntime startupTime (intentDatabase 2 "run-2") "p1" s d ∧
    d.action = .resumeSendIntent ∧
    RecoveryObeys sampleRuntime s.data startupTime (fun _ => False) (intentDatabase 2 "run-2") "p1" d := by
  have hchecked : checked (intentDatabase 2 "run-2") (fun s d => decide (d.action = .resumeSendIntent ∧
      (∀ row ∈ activeSends sampleRuntime s.data, OfCurrent s.data row) ∧ s.data.sessionReentries = [] ∧
      s.data.leases = [] ∧ s.data.retries = [] ∧ s.data.failures = [])) = true := by decide +kernel
  obtain ⟨s,d,hread,hd⟩ := readable_of_checked hchecked
  obtain ⟨haction,hsends,hreentries,hleases,hretries,hfailures⟩ := of_decide_eq_true hd
  refine ⟨s,d,hread,haction,(recovery_obeys_iff hread).mpr ⟨?_,fun _ _ => hsends,?_,?_,?_⟩⟩
  · intro _ hblocked
    unfold blockedReentries at hblocked
    rw [hreentries] at hblocked
    exact absurd rfl hblocked
  · intro _ row hrow
    unfold pendingReentries at hrow
    rw [hreentries] at hrow
    cases hrow
  · intro _ _ row hrow
    unfold expiredLeases continuationLeases at hrow
    rw [hleases] at hrow
    cases hrow
  · intro _ _
    refine ⟨?_,?_⟩
    · intro row hrow
      unfold pendingRetries at hrow
      rw [hretries] at hrow
      cases hrow
    · intro row hrow
      unfold repairFailures at hrow
      rw [hfailures] at hrow
      cases hrow

/-- An intent of epoch 1 makes recovery in epoch 2 resume, and a blocked re-entry hides a lease
that ranks before it. -/
theorem old_intent_and_blocked_reentry_break_recovery :
    (∃ s d, Readable sampleRuntime startupTime (intentDatabase 1 "run-1") "p1" s d ∧
      ¬ RecoveryObeys sampleRuntime s.data startupTime (fun _ => True) (intentDatabase 1 "run-1") "p1" d) ∧
    ∃ s d, Readable sampleRuntime startupTime blockedDatabase "p1" s d ∧
      ¬ RecoveryObeys sampleRuntime s.data startupTime (fun _ => True) blockedDatabase "p1" d := by
  have hold : checked (intentDatabase 1 "run-1") (fun s d => decide (d.action = .resumeSendIntent ∧
      ∃ row ∈ activeSends sampleRuntime s.data, ¬ OfCurrent s.data row)) = true := by decide +kernel
  have hhidden : checked blockedDatabase (fun s d => decide (d.rule = .manualPolicyCheckpoint ∧
      activeLeases sampleRuntime s.data startupTime ≠ [])) = true := by decide +kernel
  obtain ⟨s,d,hread,hd⟩ := readable_of_checked hold
  obtain ⟨s',d',hread',hd'⟩ := readable_of_checked hhidden
  obtain ⟨haction,row,hrow,hother⟩ := of_decide_eq_true hd
  obtain ⟨hrule,hlease⟩ := of_decide_eq_true hd'
  refine ⟨⟨s,d,hread,?_⟩,⟨s',d',hread',?_⟩⟩
  · intro hobeys
    have hcauses := hobeys.causes
    rw [haction] at hcauses
    exact hother (hcauses row hrow).1
  · intro hobeys
    have hearliest := hobeys.earliest
    rw [hrule] at hearliest
    exact hearliest.2 .activeContinuationLease (by decide) hlease

end Bdb.Startup
