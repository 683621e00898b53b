import Bdb.Recovery.Evaluation

/-! # Evaluated and consumed budgets

The limits are checked twice: an evaluation reads the wall time and then the counters, a
consumption reads only the counters. Retries and repairs share one status column, and
each writes there what its own counters say.
-/
namespace Bdb.Recovery

open Budget Floats

/-! ## One status for three budgets -/

/-- The repairs leave room, for every fingerprint. -/
structure RepairsBelow (policy : FailureBudgetPolicy) (row : LedgerRow) : Prop where
  total : row.totalRepairCount < policy.maxTotalRepairAttempts
  same : ∀ fp, countValue (row.fingerprintCounts.get fp (.int 0)) < policy.maxSameFingerprintRepairs

structure BudgetsBelow (policy : FailureBudgetPolicy) (row : LedgerRow) : Prop where
  retries : row.transientRetryCount < policy.maxAttempts
  repairs : RepairsBelow policy row

/-- The stored status says whether every budget leaves room; every stored count is a number. -/
structure StatusTruthful (policy : FailureBudgetPolicy) (row : LedgerRow) : Prop where
  active : row.exhaustedStatus = "ACTIVE" ↔ BudgetsBelow policy row
  counts : ∀ fp, ∃ n, row.fingerprintCounts.get fp (.int 0) = .int n

/-- A write finds the counters it was computed from, and no budget but the one it takes from
is exhausted, unless it exhausts that one itself. -/
def Steady (policy : FailureBudgetPolicy) (store : Option LedgerRow) (_ : List LedgerEntry) :
    LedgerRequest → Prop
  | .retry read _ => ∃ row, store = some row ∧ row.transientRetryCount = read.transientRetryCount ∧
      (row.transientRetryCount + 1 < policy.maxAttempts → RepairsBelow policy row)
  | .repair read u => ∃ row, store = some row ∧ row.totalRepairCount = read.totalRepairCount ∧
      row.fingerprintCounts = read.fingerprintCounts ∧
      (row.totalRepairCount + 1 < policy.maxTotalRepairAttempts →
        countValue (row.fingerprintCounts.get u.fingerprint (.int 0)) + 1 < policy.maxSameFingerprintRepairs →
        row.transientRetryCount < policy.maxAttempts ∧ ∀ fp, fp ≠ u.fingerprint →
          countValue (row.fingerprintCounts.get fp (.int 0)) < policy.maxSameFingerprintRepairs)
  | _ => True

def SteadyRun (policy : FailureBudgetPolicy) (moves : List (Move LedgerCall)) : Prop :=
  Along (Shared.next LedgerRequest.perform (LedgerCall.program policy)) (Shared.Admits (Steady policy))
    (Shared.begin none : Ledgers) moves

/-- The status a write stores is the one its own counters give. -/
def StatusComputed (policy : FailureBudgetPolicy) : LedgerRequest → Prop
  | .retry read u => u.count = read.transientRetryCount + 1 ∧
      u.status = if policy.maxAttempts ≤ u.count then "EXHAUSTED" else "ACTIVE"
  | .repair read u => ∃ stored, countOf (read.fingerprintCounts.get u.fingerprint (.int 0)) = .ok stored ∧
      u.total = read.totalRepairCount + 1 ∧
      u.counts = read.fingerprintCounts.insert u.fingerprint (.int (stored + 1)) ∧
      u.status = if repairExhausted policy (stored + 1) u.total then "REPAIR_LOOP_EXHAUSTED" else "ACTIVE"
  | _ => True

variable {policy : FailureBudgetPolicy} {row : LedgerRow}

variable {u : TransientUpdate} {read : LedgerRow}

theorem transientUpdate_status {now : Outcome String}
    (h : transientUpdate policy row now = .ok u) : StatusComputed policy (.retry row u) := by
  obtain ⟨_,_,h⟩ := rest₂ h
  cases pure_ok.mp h
  exact ⟨rfl,rfl⟩

theorem repairUpdate_status {fingerprint : String} {now : Outcome String} {u : RepairUpdate}
    (h : repairUpdate policy row fingerprint now = .ok u) : StatusComputed policy (.repair row u) := by
  obtain ⟨_,h⟩ := rest_ok h
  obtain ⟨stored,hstored,h⟩ := bind_ok.mp h
  obtain ⟨_,_,h⟩ := rest₂ h
  cases pure_ok.mp h
  exact ⟨stored,Step.orRaise_ok.mp hstored,rfl,rfl,rfl⟩

theorem program_status (call : LedgerCall) : (call.program policy).AsksOnly (StatusComputed policy) :=
  program_asks trivial (fun _ => trivial) transientUpdate_status repairUpdate_status
    (fun _ => trivial) (fun _ => trivial) (fun _ _ => trivial) call

theorem StatusTruthful.created (hretries : 0 < policy.maxAttempts) (hsame : 0 < policy.maxSameFingerprintRepairs)
    (htotal : 0 < policy.maxTotalRepairAttempts) (c : Creation) : StatusTruthful policy c.row := by
  refine ⟨iff_of_true rfl ⟨?_,?_,fun fp => ?_⟩,fun fp => ⟨0,rfl⟩⟩
  · exact Int.natCast_pos.mpr hretries
  · exact Int.natCast_pos.mpr htotal
  · exact Int.natCast_pos.mpr hsame

theorem StatusTruthful.retried (h : StatusTruthful policy row)
    (hstatus : StatusComputed policy (.retry read u))
    (hread : row.transientRetryCount = read.transientRetryCount)
    (hothers : row.transientRetryCount + 1 < policy.maxAttempts → RepairsBelow policy row) :
    StatusTruthful policy (u.apply row) := by
  obtain ⟨hcount,hstatus⟩ := hstatus
  refine ⟨?_,h.counts⟩
  change u.status = "ACTIVE" ↔ _
  rw [hstatus]
  split_ifs with hover
  · refine iff_of_false (by simp) fun hbelow => ?_
    have hretries : u.count < policy.maxAttempts := hbelow.retries
    omega
  · refine iff_of_true rfl ⟨?_,?_⟩
    · exact not_le.mp hover
    · obtain ⟨htotal,hsame⟩ := hothers (by omega)
      exact ⟨htotal,hsame⟩

theorem StatusTruthful.repaired {u : RepairUpdate} (h : StatusTruthful policy row)
    (hstatus : StatusComputed policy (.repair read u))
    (htotal : row.totalRepairCount = read.totalRepairCount)
    (hcounts : row.fingerprintCounts = read.fingerprintCounts)
    (hothers : row.totalRepairCount + 1 < policy.maxTotalRepairAttempts →
      countValue (row.fingerprintCounts.get u.fingerprint (.int 0)) + 1 < policy.maxSameFingerprintRepairs →
      row.transientRetryCount < policy.maxAttempts ∧ ∀ fp, fp ≠ u.fingerprint →
        countValue (row.fingerprintCounts.get fp (.int 0)) < policy.maxSameFingerprintRepairs) :
    StatusTruthful policy (u.apply row) := by
  obtain ⟨stored,hstored,hnew,hinsert,hstatus⟩ := hstatus
  have hvalue := countValue_of_countOf hstored
  rw [← hcounts] at hvalue hinsert
  have hget : ∀ fp, u.counts.get fp (.int 0) =
      if fp = u.fingerprint then .int (stored + 1) else row.fingerprintCounts.get fp (.int 0) := by
    intro fp
    rw [hinsert,get_insert_count]
  refine ⟨?_,fun fp => ?_⟩
  · change u.status = "ACTIVE" ↔ _
    rw [hstatus]
    split_ifs with hover
    · refine iff_of_false (by simp) fun hbelow => ?_
      have hlimit : u.total < policy.maxTotalRepairAttempts := hbelow.repairs.total
      have hsame : countValue (u.counts.get u.fingerprint (.int 0)) < policy.maxSameFingerprintRepairs :=
        hbelow.repairs.same u.fingerprint
      rw [hget,if_pos rfl] at hsame
      change stored + 1 < _ at hsame
      simp only [repairExhausted,decide_eq_true_eq] at hover
      omega
    · simp only [repairExhausted,decide_eq_true_eq,not_or,not_le] at hover
      obtain ⟨hsame,hlimit⟩ := hover
      obtain ⟨hretries,hrest⟩ := hothers (by omega) (by omega)
      refine iff_of_true rfl ⟨hretries,hlimit,fun fp => ?_⟩
      change countValue (u.counts.get fp (.int 0)) < _
      rw [hget]
      by_cases hfp : fp = u.fingerprint
      · rw [if_pos hfp]
        exact hsame
      · rw [if_neg hfp]
        exact hrest fp hfp
  · change ∃ n, u.counts.get fp (.int 0) = .int n
    rw [hget]
    split_ifs
    · exact ⟨_,rfl⟩
    · exact h.counts fp

section

variable (hretries : 0 < policy.maxAttempts) (hsame : 0 < policy.maxSameFingerprintRepairs)
  (htotal : 0 < policy.maxTotalRepairAttempts)

include hretries hsame htotal

theorem truthful_step (store : Option LedgerRow) (log : List LedgerEntry)
    (q : LedgerRequest) (h : ∀ row ∈ store, StatusTruthful policy row) (hq : Steady policy store log q)
    (hstatus : StatusComputed policy q) : ∀ row ∈ (q.perform store).1, StatusTruthful policy row := by
  cases q with
  | create c =>
    cases store with
    | none =>
      rintro row ⟨⟩
      exact .created hretries hsame htotal c
    | some row => exact h
  | retry read u =>
    obtain ⟨row,rfl,hread,hothers⟩ := hq
    rintro row' ⟨⟩
    exact (h row rfl).retried hstatus hread hothers
  | repair read u =>
    obtain ⟨row,rfl,hread,hcounts,hothers⟩ := hq
    rintro row' ⟨⟩
    exact (h row rfl).repaired hstatus hread hcounts hothers
  | observe u =>
    cases store with
    | none => exact h
    | some row =>
      rintro row' ⟨⟩
      obtain ⟨hactive,hcounts⟩ := h row rfl
      exact ⟨hactive.trans ⟨fun hb => ⟨hb.retries,hb.repairs.total,hb.repairs.same⟩,
        fun hb => ⟨hb.retries,hb.repairs.total,hb.repairs.same⟩⟩,hcounts⟩
  | _ => exact h

theorem run_truthful {moves : List (Move LedgerCall)} (h : SteadyRun policy moves) :
    ∀ row ∈ (ledgerRun policy moves).store, StatusTruthful policy row := by
  have hlog : ∀ e ∈ (ledgerRun policy moves).log, StatusComputed policy e.1 :=
    Shared.log_asks program_status none moves
  refine Shared.invariant_of_requests
    (I := fun store log => (∀ e ∈ log, StatusComputed policy e.1) → ∀ row ∈ store, StatusTruthful policy row)
    ?_ h (fun _ => nofun) hlog
  intro store log q htruthful hq hall
  have hbefore : ∀ e ∈ log, StatusComputed policy e.1 := fun e he => hall e (List.mem_append_left _ he)
  exact truthful_step hretries hsame htotal store log q (htruthful hbefore) hq
    (hall _ (List.mem_append_right _ (List.mem_singleton.mpr rfl)))

end

/-! ## Evaluation and consumption -/

section Agreement
variable {F : Type} [Floats F] (policy : RepairPolicy F)

def ConsumeAllowed (row : LedgerRow) (fingerprint : String) (now : F) : Prop :=
  ∃ u, repairUpdate policy.budget row fingerprint (isoformat now) = .ok u

def EvaluateAllowed (row : LedgerRow) (failureClass : FailureClass) (fingerprint : String) (now : F) : Prop :=
  ∃ e, evaluateFailure policy row failureClass fingerprint now = .ok e ∧ e.allowed = true

def RepairRoom (row : LedgerRow) (fingerprint : String) : Prop :=
  row.totalRepairCount < policy.maxTotalRepairAttempts ∧
    countValue (row.fingerprintCounts.get fingerprint (.int 0)) < policy.maxSameFingerprintRepairs

variable {policy} {row : LedgerRow} {fingerprint : String} {now : F}

variable {n : Int} {failureClass : FailureClass}

theorem consumeAllowed_iff (hcount : row.fingerprintCounts.get fingerprint (.int 0) = .int n) :
    ConsumeAllowed policy row fingerprint now ↔
      (∃ text, isoformat now = .ok text) ∧ RepairRoom policy row fingerprint := by
  constructor
  · rintro ⟨u,h⟩
    obtain ⟨text,htext,h⟩ := bind_ok.mp h
    obtain ⟨stored,hstored,h⟩ := bind_ok.mp h
    obtain ⟨_,hsame,h⟩ := bind_ok.mp h
    obtain ⟨_,htotal,-⟩ := bind_ok.mp h
    rw [← countValue_of_countOf (Step.orRaise_ok.mp hstored)] at hsame
    exact ⟨⟨text,Step.orRaise_ok.mp htext⟩,Step.answerUnless_ok.mp htotal,Step.answerUnless_ok.mp hsame⟩
  · rintro ⟨⟨text,htext⟩,htotal,hsame⟩
    have hstored : countOf (row.fingerprintCounts.get fingerprint (.int 0)) = .ok n := by
      rw [hcount]
      rfl
    rw [hcount] at hsame
    exact ⟨_,bind_of (Step.orRaise_ok.mpr htext) (bind_of (Step.orRaise_ok.mpr hstored)
      (Step.answerUnless_bind hsame (Step.answerUnless_bind htotal (pure_ok.mpr rfl))))⟩

section

variable (hclass : failureClass.repairAllowed = true)
  (hcount : row.fingerprintCounts.get fingerprint (.int 0) = .int n)

include hclass hcount

theorem evaluateAllowed_iff :
    EvaluateAllowed policy row failureClass fingerprint now ↔
      wallTimeOver policy row now = none ∧ RepairRoom policy row fingerprint := by
  have hrepair : evaluateFailure policy row failureClass fingerprint now =
      evaluateRepair policy row fingerprint now := by
    cases failureClass <;> first | rfl | cases hclass
  rw [EvaluateAllowed,hrepair,evaluateRepair,RepairRoom,hcount]
  cases hwall : wallTimeOver policy row now with
  | some elapsed => simp
  | none =>
    have hvalue : countValue (.int n) = n := rfl
    have hread : countOf (.int n) = .ok n := rfl
    simp only [true_and,hvalue,hread,ok_bind]
    split_ifs with htotal hsame
    · simp [htotal]
    · simp [hsame]
    · simpa using ⟨not_le.mp htotal,not_le.mp hsame⟩

theorem agreement_iff :
    (ConsumeAllowed policy row fingerprint now ↔ EvaluateAllowed policy row failureClass fingerprint now) ↔
      (RepairRoom policy row fingerprint →
        ((∃ text, isoformat now = .ok text) ↔ wallTimeOver policy row now = none)) := by
  rw [consumeAllowed_iff hcount,evaluateAllowed_iff hclass hcount]
  exact and_congr_left_iff

end

end Agreement

/-- In every steady run under positive limits the stored status tells whether all budgets leave
room, and an evaluation agrees with a consumption wherever, with room left, the time can be
written down if and only if the wall time is not over. -/
theorem budgets_agree_in_steady_runs {F : Type} [Floats F] (policy : RepairPolicy F)
    (hretries : 0 < policy.transient.maxAttempts) (hsame : 0 < policy.maxSameFingerprintRepairs)
    (htotal : 0 < policy.maxTotalRepairAttempts) (moves : List (Move LedgerCall))
    (h : SteadyRun policy.budget moves) (row : LedgerRow)
    (hrow : (ledgerRun policy.budget moves).store = some row) :
    (row.exhaustedStatus = "ACTIVE" ↔ BudgetsBelow policy.budget row) ∧
      ∀ (failureClass : FailureClass) (fingerprint : String) (now : F), failureClass.repairAllowed = true →
        ((ConsumeAllowed policy row fingerprint now ↔
            EvaluateAllowed policy row failureClass fingerprint now) ↔
          (RepairRoom policy row fingerprint →
            ((∃ text, isoformat now = .ok text) ↔ wallTimeOver policy row now = none))) := by
  have htruthful := run_truthful hretries hsame htotal h row hrow
  refine ⟨htruthful.active,fun failureClass fingerprint now hclass => ?_⟩
  obtain ⟨n,hn⟩ := htruthful.counts fingerprint
  exact agreement_iff hclass hn

/-! ## A steady run, a late repair, and a status that is overwritten -/

def hourPolicy : RepairPolicy ℤ := ⟨⟨1,[2],0⟩,2,4,3600⟩

def firstRepair : LedgerCall := .consumeRepairAttempt ⟨"bl-1","t1",none,"0"⟩ "fp1:0" (.ok "0")

def onlyRetry : LedgerCall := .consumeTransientRetry ⟨"bl-1","t1",none,"0"⟩ (.ok "0")

theorem onlyRetry_completes : ∃ row log, Script.Completes LedgerRequest.perform (Steady hourPolicy.budget)
    (onlyRetry.program hourPolicy.budget) none [] (some row) log := by
  apply Exists.intro
  apply Exists.intro
  refine .ask trivial (.ask trivial (.ask trivial (.ask ⟨_,rfl,rfl,?_⟩ (.ask trivial (.done _ _ _)))))
  exact fun h => absurd h (by decide)

/-- A connection that is alone takes the only retry. -/
theorem budgets_agree_after_retry : ∃ moves row, SteadyRun hourPolicy.budget moves ∧
    (ledgerRun hourPolicy.budget moves).store = some row ∧
    (row.exhaustedStatus = "ACTIVE" ↔ BudgetsBelow hourPolicy.budget row) ∧
    ((ConsumeAllowed hourPolicy row "fp1:0" 0 ↔ EvaluateAllowed hourPolicy row .projectRepairable "fp1:0" 0) ↔
      (RepairRoom hourPolicy row "fp1:0" →
        ((∃ text, isoformat (0 : ℤ) = .ok text) ↔ wallTimeOver hourPolicy row 0 = none))) := by
  obtain ⟨row,log,hcompletes⟩ := onlyRetry_completes
  obtain ⟨t,⟨moves,halong,rfl⟩,hstore,-⟩ := Shared.reaches_of_call (s := Shared.begin none) onlyRetry hcompletes
  have hagree := budgets_agree_in_steady_runs hourPolicy (by decide) (by decide) (by decide) moves halong row hstore
  exact ⟨moves,row,halong,hstore,hagree.1,hagree.2 .projectRepairable "fp1:0" 0 rfl⟩

def repairMoves : List (Move LedgerCall) :=
  [.start firstRepair,.advance 0,.advance 0,.advance 0,.advance 0,.advance 0]

def mixedMoves : List (Move LedgerCall) :=
  [.start onlyRetry,.advance 0,.advance 0,.advance 0,.advance 0,.advance 0,
    .start firstRepair,.advance 1,.advance 1,.advance 1]

def repairedRow : LedgerRow :=
  ((ledgerRun hourPolicy.budget repairMoves).store).getD (newLedger "" "" none "")

/-- After an hour the repair is consumed and not allowed; a repair after the last retry makes the
status active again. -/
theorem budgets_disagree :
    (ledgerRun hourPolicy.budget repairMoves).store.isSome = true ∧
    ¬ (ConsumeAllowed hourPolicy repairedRow "fp1:0" 4000 ↔
      EvaluateAllowed hourPolicy repairedRow .projectRepairable "fp1:0" 4000) ∧
    ∃ row, (ledgerRun hourPolicy.budget mixedMoves).store = some row ∧ row.exhaustedStatus = "ACTIVE" ∧
      ¬ BudgetsBelow hourPolicy.budget row := by
  refine ⟨by decide +kernel,?_,?_⟩
  · have hcount : repairedRow.fingerprintCounts.get "fp1:0" (.int 0) = .int 1 := by decide +kernel
    rw [agreement_iff (by rfl) hcount]
    intro h
    have hroom : RepairRoom hourPolicy repairedRow "fp1:0" := ⟨by decide +kernel,by decide +kernel⟩
    have hnone := (h hroom).mp ⟨_,rfl⟩
    have hover : (wallTimeOver hourPolicy repairedRow 4000).isSome = true := by decide +kernel
    rw [hnone] at hover
    cases hover
  · have hrun : (ledgerRun hourPolicy.budget mixedMoves).store.map (fun row =>
        (row.exhaustedStatus,row.transientRetryCount)) = some ("ACTIVE",1) := by decide +kernel
    obtain ⟨row,hrow,hseen⟩ := Option.map_eq_some_iff.mp hrun
    obtain ⟨hstatus,hcount⟩ := Prod.mk.inj hseen
    refine ⟨row,hrow,hstatus,fun hbelow => ?_⟩
    have hlimit := hbelow.retries
    rw [hcount] at hlimit
    exact absurd hlimit (by decide)

end Bdb.Recovery
