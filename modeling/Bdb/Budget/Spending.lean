import Mathlib
import Bdb.Base.Interleaving
import Bdb.Budget.Ledger

/-! # Budgets under concurrent consumption

Several connections consume the budgets of one task. Each consumption is a read, a check
and an absolute write, with nothing that ties the write to the read. The budgets hold in
every run in which each write finds the counters as they were read.
-/
namespace Bdb.Budget

open Step List

/-- The row that a call creates when there is none. -/
structure Creation where
  ledgerId : String
  taskId : String
  runId : Option String
  now : String

def Creation.row (c : Creation) : LedgerRow := newLedger c.ledgerId c.taskId c.runId c.now

/-! ## Requests -/

/-- The statements of the calls on the row of one task. A write carries the row it was
computed from. A report is what the caller is told. -/
inductive LedgerRequest where
  | read
  | create (c : Creation)
  | retry (read : LedgerRow) (u : TransientUpdate)
  | repair (read : LedgerRow) (u : RepairUpdate)
  | observe (u : ObservationUpdate)
  | reportRetry (r : BudgetEvaluationResult)
  | reportRepair (fingerprint : String) (r : BudgetEvaluationResult)

namespace LedgerRequest

def Answer : LedgerRequest → Type
  | .read => Option LedgerRow
  | .create _ => Outcome Unit
  | _ => Unit

def perform : (q : LedgerRequest) → Option LedgerRow → Option LedgerRow × q.Answer
  | .read, store => (store,store)
  | .create c, none => (some c.row,.ok ())
  | .create _, some row => (some row,fail "IntegrityError" "UNIQUE constraint failed: budget_ledgers.ledger_id")
  | .retry _ u, store => (store.map u.apply,())
  | .repair _ u, store => (store.map u.apply,())
  | .observe u, store => (store.map u.apply,())
  | .reportRetry _, store => (store,())
  | .reportRepair _ _, store => (store,())

end LedgerRequest

/-! ## Calls -/

abbrev LedgerScript (α : Type) := Script LedgerRequest LedgerRequest.Answer α

def getOrCreateLedger (c : Creation) : LedgerScript (Outcome LedgerRow) :=
  .ask .read fun stored =>
    match stored with
    | some row => .done (.ok row)
    | none => .ask (.create c) fun created =>
      match created with
      | .error f => .done (.error f)
      | .ok _ => .ask .read fun loaded => .done (need loaded "AssertionError" "")

inductive LedgerCall where
  | evaluateFailure (c : Creation)
  | recordFailureObservation (c : Creation) (fingerprint : String) (now : Outcome String)
  | consumeTransientRetry (c : Creation) (now : Outcome String)
  | consumeRepairAttempt (c : Creation) (fingerprint : String) (now : Outcome String)

def onLedger (c : Creation) (f : LedgerRow → LedgerScript Unit) : LedgerScript Unit :=
  (getOrCreateLedger c).bind fun o =>
    match o with
    | .ok row => f row
    | .error _ => .done ()

def consumeRetry (policy : FailureBudgetPolicy) (now : Outcome String) (row : LedgerRow) : LedgerScript Unit :=
  match transientUpdate policy row now with
  | .ok u => .ask (.retry row u) fun _ => .ask (.reportRetry (transientAllowed policy u.count)) .done
  | .error (.answer r) => .ask (.reportRetry r) .done
  | .error (.raised _) => .done ()

def consumeRepair (policy : FailureBudgetPolicy) (fingerprint : String) (now : Outcome String) (row : LedgerRow) :
    LedgerScript Unit :=
  match repairUpdate policy row fingerprint now with
  | .ok u => .ask (.repair row u) fun _ => .ask (.reportRepair fingerprint (repairAllowed policy u)) .done
  | .error (.answer r) => .ask (.reportRepair fingerprint r) .done
  | .error (.raised _) => .done ()

def observeFailure (fingerprint : String) (now : Outcome String) (row : LedgerRow) : LedgerScript Unit :=
  match now with
  | .error _ => .done ()
  | .ok text =>
    match (observation row fingerprint text).1 with
    | some u => .ask (.observe u) .done
    | none => .done ()

def LedgerCall.program (policy : FailureBudgetPolicy) : LedgerCall → LedgerScript Unit
  | .evaluateFailure c => onLedger c fun _ => .done ()
  | .recordFailureObservation c fingerprint now => onLedger c (observeFailure fingerprint now)
  | .consumeTransientRetry c now => onLedger c (consumeRetry policy now)
  | .consumeRepairAttempt c fingerprint now => onLedger c (consumeRepair policy fingerprint now)

abbrev LedgerEntry := Entry LedgerRequest.Answer

abbrev Ledgers := Shared (Option LedgerRow) LedgerRequest.Answer Unit

/-! ## What is counted -/

def retryAllowed : LedgerEntry → Bool
  | ⟨.reportRetry r,_⟩ => r.allowed
  | _ => false

def repairAllowedFor (p : String → Bool) : LedgerEntry → Bool
  | ⟨.reportRepair fingerprint r,_⟩ => p fingerprint && r.allowed
  | _ => false

def wroteRetry : LedgerEntry → Bool
  | ⟨.retry _ _,_⟩ => true
  | _ => false

def wroteRepair (p : String → Bool) : LedgerEntry → Bool
  | ⟨.repair _ u,_⟩ => p u.fingerprint
  | _ => false

/-- The number that a stored count stands for. -/
def countValue : Json → Int
  | .int n => n
  | .bool b => if b then 1 else 0
  | _ => 0

def countsTotal (counts : Dict Json) : Int := (counts.values.map countValue).sum

/-- A write finds the row with the counters that it was computed from. -/
def Undisturbed (store : Option LedgerRow) (_ : List LedgerEntry) : LedgerRequest → Prop
  | .retry read _ => ∃ row, store = some row ∧ row.transientRetryCount = read.transientRetryCount
  | .repair read _ => ∃ row, store = some row ∧ row.totalRepairCount = read.totalRepairCount ∧
      row.fingerprintCounts = read.fingerprintCounts
  | _ => True

/-! ## What the calls write -/

/-- Every write was computed from its row within the limits. -/
def WithinLimits (policy : FailureBudgetPolicy) : LedgerRequest → Prop
  | .retry read u => read.transientRetryCount < policy.maxAttempts ∧ u.count = read.transientRetryCount + 1
  | .repair read u => ∃ stored, countOf (read.fingerprintCounts.get u.fingerprint (.int 0)) = .ok stored ∧
      stored < policy.maxSameFingerprintRepairs ∧ read.totalRepairCount < policy.maxTotalRepairAttempts ∧
      u.total = read.totalRepairCount + 1 ∧
      u.counts = read.fingerprintCounts.insert u.fingerprint (.int (stored + 1))
  | _ => True

variable {policy : FailureBudgetPolicy} {row : LedgerRow} {fingerprint : String} {now : Outcome String}

variable {u : TransientUpdate} {P : LedgerRequest → Prop} {c : Creation} {n : Int} {read : LedgerRow}

theorem transientUpdate_ok (h : transientUpdate policy row now = .ok u) :
    WithinLimits policy (.retry row u) := by
  obtain ⟨_,hlimit,h⟩ := bind_ok.mp h
  obtain ⟨text,_,h⟩ := bind_ok.mp h
  cases pure_ok.mp h
  exact ⟨answerUnless_ok.mp hlimit,rfl⟩

theorem repairUpdate_ok {u : RepairUpdate} (h : repairUpdate policy row fingerprint now = .ok u) :
    u.fingerprint = fingerprint ∧ WithinLimits policy (.repair row u) := by
  obtain ⟨text,_,h⟩ := bind_ok.mp h
  obtain ⟨stored,hstored,h⟩ := bind_ok.mp h
  obtain ⟨_,hsame,h⟩ := bind_ok.mp h
  obtain ⟨_,htotal,h⟩ := bind_ok.mp h
  cases pure_ok.mp h
  exact ⟨rfl,stored,orRaise_ok.mp hstored,answerUnless_ok.mp hsame,answerUnless_ok.mp htotal,rfl,rfl⟩

theorem transientUpdate_answers : Answers (fun r => r.allowed = false) (transientUpdate policy row now) := by
  refine answers_check rfl ?_
  exact answers_bind (answers_orRaise _) fun _ _ => answers_pure _

theorem repairUpdate_answers :
    Answers (fun r => r.allowed = false) (repairUpdate policy row fingerprint now) := by
  refine answers_raise fun _ => ?_
  refine answers_raise fun _ => ?_
  refine answers_check rfl ?_
  exact answers_check rfl (answers_pure _)

theorem asks_onLedger {f : LedgerRow → LedgerScript Unit}
    (hread : P .read) (hcreate : P (.create c)) (hf : ∀ row, (f row).AsksOnly P) : (onLedger c f).AsksOnly P := by
  refine Script.AsksOnly.bind ?_ ?_
  · refine .ask hread fun stored => ?_
    cases stored with
    | some row => exact .done _
    | none =>
      refine .ask hcreate fun created => ?_
      cases created with
      | error e => exact .done _
      | ok _ => exact .ask hread fun _ => .done _
  · intro o
    cases o with
    | ok row => exact hf row
    | error e => exact .done _

theorem program_asks (hread : P .read) (hcreate : ∀ c, P (.create c))
    (hretry : ∀ {row now u}, transientUpdate policy row now = .ok u → P (.retry row u))
    (hrepair : ∀ {row fp now u}, repairUpdate policy row fp now = .ok u → P (.repair row u))
    (hobserve : ∀ u, P (.observe u)) (hretried : ∀ r, P (.reportRetry r))
    (hrepaired : ∀ fp r, P (.reportRepair fp r)) (call : LedgerCall) : (call.program policy).AsksOnly P := by
  cases call with
  | evaluateFailure c => exact asks_onLedger hread (hcreate c) fun _ => .done _
  | recordFailureObservation c fingerprint now =>
    refine asks_onLedger hread (hcreate c) fun row => ?_
    unfold observeFailure
    split
    · exact .done _
    · split
      · exact .ask (hobserve _) fun _ => .done _
      · exact .done _
  | consumeTransientRetry c now =>
    refine asks_onLedger hread (hcreate c) fun row => ?_
    unfold consumeRetry
    split
    · rename_i u hu
      exact .ask (hretry hu) fun _ => .ask (hretried _) fun _ => .done _
    · exact .ask (hretried _) fun _ => .done _
    · exact .done _
  | consumeRepairAttempt c fingerprint now =>
    refine asks_onLedger hread (hcreate c) fun row => ?_
    unfold consumeRepair
    split
    · rename_i u hu
      exact .ask (hrepair hu) fun _ => .ask (hrepaired _ _) fun _ => .done _
    · exact .ask (hrepaired _ _) fun _ => .done _
    · exact .done _

theorem program_within (call : LedgerCall) : (call.program policy).AsksOnly (WithinLimits policy) :=
  program_asks trivial (fun _ => trivial) transientUpdate_ok (fun h => (repairUpdate_ok h).2)
    (fun _ => trivial) (fun _ => trivial) (fun _ _ => trivial) call

/-! ## An allowed answer follows its write -/

section Reports

variable {earns spends : LedgerEntry → Bool}

theorem covered_onLedger {c : Creation} {f : LedgerRow → LedgerScript Unit}
    (hread : ∀ a, earns ⟨.read,a⟩ = false ∧ spends ⟨.read,a⟩ = false)
    (hcreate : ∀ a, earns ⟨.create c,a⟩ = false ∧ spends ⟨.create c,a⟩ = false)
    (hf : ∀ row, (f row).Covered earns spends 0) : (onLedger c f).Covered earns spends 0 := by
  intro stored
  refine ⟨0,by simp [hread],?_⟩
  cases stored with
  | some row => exact hf row
  | none =>
    intro created
    refine ⟨0,by simp [hcreate],?_⟩
    cases created with
    | error e => exact trivial
    | ok _ =>
      intro loaded
      refine ⟨0,by simp [hread],?_⟩
      cases loaded with
      | none => exact trivial
      | some row => exact hf row

theorem covered_observe (hobserve : ∀ u a, earns ⟨.observe u,a⟩ = false ∧ spends ⟨.observe u,a⟩ = false) :
    (observeFailure fingerprint now row).Covered earns spends 0 := by
  unfold observeFailure
  split
  · exact trivial
  · split
    · exact fun a => ⟨0,by simp [hobserve],trivial⟩
    · exact trivial

end Reports

theorem retry_covered (call : LedgerCall) : (call.program policy).Covered wroteRetry retryAllowed 0 := by
  cases call with
  | evaluateFailure c => exact covered_onLedger (fun _ => ⟨rfl,rfl⟩) (fun _ => ⟨rfl,rfl⟩) fun _ => trivial
  | recordFailureObservation c fingerprint now =>
    exact covered_onLedger (fun _ => ⟨rfl,rfl⟩) (fun _ => ⟨rfl,rfl⟩) fun _ => covered_observe fun _ _ => ⟨rfl,rfl⟩
  | consumeTransientRetry c now =>
    refine covered_onLedger (fun _ => ⟨rfl,rfl⟩) (fun _ => ⟨rfl,rfl⟩) fun row => ?_
    unfold consumeRetry
    split
    · exact fun _ => ⟨1,rfl,fun _ => ⟨0,rfl,trivial⟩⟩
    · rename_i r hr
      refine fun a => ⟨0,?_,trivial⟩
      simp [retryAllowed,wroteRetry,of_answers hr transientUpdate_answers]
    · exact trivial
  | consumeRepairAttempt c fingerprint now =>
    refine covered_onLedger (fun _ => ⟨rfl,rfl⟩) (fun _ => ⟨rfl,rfl⟩) fun row => ?_
    unfold consumeRepair
    split
    · exact fun _ => ⟨0,rfl,fun _ => ⟨0,rfl,trivial⟩⟩
    · exact fun _ => ⟨0,rfl,trivial⟩
    · exact trivial

theorem repair_covered (p : String → Bool) (call : LedgerCall) :
    (call.program policy).Covered (wroteRepair p) (repairAllowedFor p) 0 := by
  cases call with
  | evaluateFailure c => exact covered_onLedger (fun _ => ⟨rfl,rfl⟩) (fun _ => ⟨rfl,rfl⟩) fun _ => trivial
  | recordFailureObservation c fingerprint now =>
    exact covered_onLedger (fun _ => ⟨rfl,rfl⟩) (fun _ => ⟨rfl,rfl⟩) fun _ => covered_observe fun _ _ => ⟨rfl,rfl⟩
  | consumeTransientRetry c now =>
    refine covered_onLedger (fun _ => ⟨rfl,rfl⟩) (fun _ => ⟨rfl,rfl⟩) fun row => ?_
    unfold consumeRetry
    split
    · exact fun _ => ⟨0,rfl,fun _ => ⟨0,rfl,trivial⟩⟩
    · exact fun _ => ⟨0,rfl,trivial⟩
    · exact trivial
  | consumeRepairAttempt c fingerprint now =>
    refine covered_onLedger (fun _ => ⟨rfl,rfl⟩) (fun _ => ⟨rfl,rfl⟩) fun row => ?_
    unfold consumeRepair
    split
    · rename_i u hu
      have hsame := (repairUpdate_ok hu).1
      refine fun _ => ⟨if p fingerprint then 1 else 0,?_,fun _ => ⟨0,?_,trivial⟩⟩
      · simp [wroteRepair,repairAllowedFor,hsame]
      · simp [wroteRepair,repairAllowedFor,repairAllowed]
    · rename_i r hr
      refine fun a => ⟨0,?_,trivial⟩
      simp [repairAllowedFor,wroteRepair,of_answers hr repairUpdate_answers]
    · exact trivial

/-! ## Counts -/

theorem sum_kerase (fingerprint : String) (f : Json → Int) (entries : List (Σ _ : String, Json)) :
    ((entries.kerase fingerprint).map (fun e => f e.2)).sum =
      (entries.map (fun e => f e.2)).sum - ((entries.dlookup fingerprint).map f).getD 0 := by
  induction entries with
  | nil => rfl
  | cons e rest ih =>
    by_cases he : fingerprint = e.1
    · rw [kerase_cons_eq he]
      subst he
      rw [dlookup_cons_eq]
      simp
    · rw [kerase_cons_ne he,map_cons,sum_cons,ih]
      obtain ⟨k,v⟩ := e
      rw [dlookup_cons_ne rest ⟨k,v⟩ he,map_cons,sum_cons]
      omega

theorem countsTotal_insert (counts : Dict Json) (n : Int) :
    countsTotal (counts.insert fingerprint (.int n)) =
      countsTotal counts - countValue (counts.get fingerprint (.int 0)) + n := by
  unfold countsTotal Dict.values Dict.get
  rw [AList.entries_insert,map_cons,map_cons,sum_cons,map_map,map_map]
  have hsum := sum_kerase fingerprint countValue counts.entries
  have hlookup : ((counts.entries.dlookup fingerprint).map countValue).getD 0 =
      countValue ((counts.lookup fingerprint).getD (.int 0)) := by
    unfold AList.lookup
    cases counts.entries.dlookup fingerprint <;> rfl
  rw [hlookup] at hsum
  change n + ((counts.entries.kerase fingerprint).map (fun e => countValue e.2)).sum = _
  rw [hsum]
  change _ = (counts.entries.map (fun e => countValue e.2)).sum - _ + n
  omega

theorem countValue_of_countOf {j : Json} (h : countOf j = .ok n) : countValue j = n := by
  cases j with
  | int m | bool b => exact Except.ok.inj h
  | _ => cases h

theorem get_insert_count {counts : Dict Json} {other : String} :
    Dict.get (counts.insert fingerprint (.int n)) other (.int 0) =
      if other = fingerprint then .int n else counts.get other (.int 0) := by
  unfold Dict.get
  by_cases h : other = fingerprint
  · subst h
    rw [AList.lookup_insert,if_pos rfl]
    rfl
  · rw [AList.lookup_insert_ne h,if_neg h]

/-! ## The invariant -/

/-- The row counts the writes, within the limits. -/
structure Tallied (policy : FailureBudgetPolicy) (log : List LedgerEntry) (row : LedgerRow) : Prop where
  retries : row.transientRetryCount = log.countP wroteRetry
  retryLimit : row.transientRetryCount ≤ policy.maxAttempts
  total : row.totalRepairCount = log.countP (wroteRepair (fun _ => true))
  totalLimit : row.totalRepairCount ≤ policy.maxTotalRepairAttempts
  same : ∀ fp, countValue (row.fingerprintCounts.get fp (.int 0)) = log.countP (wroteRepair (fun f => f = fp))
  sameLimit : ∀ fp, countValue (row.fingerprintCounts.get fp (.int 0)) ≤ policy.maxSameFingerprintRepairs
  sum : countsTotal row.fingerprintCounts = row.totalRepairCount

/-- Without a row nothing was written. -/
def Kept (policy : FailureBudgetPolicy) (store : Option LedgerRow) (log : List LedgerEntry) : Prop :=
  match store with
  | none => log.countP wroteRetry = 0 ∧ log.countP (wroteRepair (fun _ => true)) = 0
  | some row => Tallied policy log row

variable {log : List LedgerEntry} {e : LedgerEntry}

/-- An entry that writes no counter changes no count. -/
structure Quiet (e : LedgerEntry) : Prop where
  retry : wroteRetry e = false
  repair : ∀ p, wroteRepair p e = false

theorem Tallied.quiet {row' : LedgerRow} (h : Tallied policy log row) (hquiet : Quiet e)
    (hretries : row'.transientRetryCount = row.transientRetryCount)
    (htotal : row'.totalRepairCount = row.totalRepairCount)
    (hcounts : row'.fingerprintCounts = row.fingerprintCounts) : Tallied policy (log ++ [e]) row' := by
  constructor
  · rw [hretries,h.retries,countP_append]
    simp [hquiet.retry]
  · exact hretries ▸ h.retryLimit
  · rw [htotal,h.total,countP_append]
    simp [hquiet.repair]
  · exact htotal ▸ h.totalLimit
  · intro fp
    rw [hcounts,h.same fp,countP_append]
    simp [hquiet.repair]
  · exact hcounts ▸ h.sameLimit
  · rw [hcounts,htotal]
    exact h.sum

theorem Kept.quiet {store : Option LedgerRow} (h : Kept policy store log) (hquiet : Quiet e) :
    Kept policy store (log ++ [e]) := by
  cases store with
  | none =>
    obtain ⟨hretry,hrepair⟩ := h
    refine ⟨?_,?_⟩
    · rw [countP_append,hretry]
      simp [hquiet.retry]
    · rw [countP_append,hrepair]
      simp [hquiet.repair]
  | some row => exact Tallied.quiet h hquiet rfl rfl rfl

theorem wroteRepair_mono {p : String → Bool} : log.countP (wroteRepair p) ≤ log.countP (wroteRepair (fun _ => true)) := by
  refine countP_mono_left ?_
  rintro ⟨q,a⟩ - h
  cases q with
  | repair read u => rfl
  | _ => cases h

theorem Tallied.created (hretry : log.countP wroteRetry = 0)
    (hrepair : log.countP (wroteRepair (fun _ => true)) = 0) : Tallied policy log c.row := by
  have hnone : ∀ fp, log.countP (wroteRepair (fun f => f = fp)) = 0 := fun fp =>
    Nat.eq_zero_of_le_zero (hrepair ▸ wroteRepair_mono)
  constructor
  · rw [hretry]
    rfl
  · exact Int.natCast_nonneg _
  · rw [hrepair]
    rfl
  · exact Int.natCast_nonneg _
  · intro fp
    rw [hnone fp]
    rfl
  · intro fp
    exact Int.natCast_nonneg _
  · rfl

theorem Tallied.retried {a : LedgerRequest.Answer (.retry read u)}
    (h : Tallied policy log row) (hwithin : WithinLimits policy (.retry read u))
    (hsame : row.transientRetryCount = read.transientRetryCount) :
    Tallied policy (log ++ [⟨.retry read u,a⟩]) (u.apply row) := by
  obtain ⟨hlimit,hcount⟩ := hwithin
  constructor
  · change u.count = _
    rw [hcount,← hsame,h.retries,countP_append]
    rfl
  · change u.count ≤ _
    omega
  · rw [countP_append]
    exact h.total
  · exact h.totalLimit
  · intro fp
    rw [countP_append]
    exact h.same fp
  · exact h.sameLimit
  · exact h.sum

theorem Tallied.repaired {u : RepairUpdate} {a : LedgerRequest.Answer (.repair read u)}
    (h : Tallied policy log row) (hwithin : WithinLimits policy (.repair read u))
    (htotal : row.totalRepairCount = read.totalRepairCount)
    (hcounts : row.fingerprintCounts = read.fingerprintCounts) :
    Tallied policy (log ++ [⟨.repair read u,a⟩]) (u.apply row) := by
  obtain ⟨stored,hstored,hsame,hlimit,hnew,hinsert⟩ := hwithin
  have hvalue := countValue_of_countOf hstored
  rw [← hcounts] at hvalue hinsert
  constructor
  · rw [countP_append]
    exact h.retries
  · exact h.retryLimit
  · change u.total = _
    rw [hnew,← htotal,h.total,countP_append]
    rfl
  · change u.total ≤ _
    omega
  · intro fp
    change countValue (u.counts.get fp (.int 0)) = _
    rw [hinsert,get_insert_count,countP_append]
    by_cases hfp : fp = u.fingerprint
    · rw [if_pos hfp,hfp]
      have hold := h.same u.fingerprint
      rw [hvalue] at hold
      simp [wroteRepair,countValue,hold]
    · rw [if_neg hfp,h.same fp]
      simp [wroteRepair,Ne.symm hfp]
  · intro fp
    change countValue (u.counts.get fp (.int 0)) ≤ _
    rw [hinsert,get_insert_count]
    split
    · change stored + 1 ≤ _
      omega
    · exact h.sameLimit fp
  · change countsTotal u.counts = u.total
    rw [hinsert,countsTotal_insert,hvalue,h.sum,hnew,← htotal]
    omega

theorem kept_step (store : Option LedgerRow) (log : List LedgerEntry) (q : LedgerRequest) (h : Kept policy store log)
    (hq : Undisturbed store log q) (hwithin : WithinLimits policy q) :
    Kept policy (q.perform store).1 (log ++ [⟨q,(q.perform store).2⟩]) := by
  cases q with
  | read => exact h.quiet ⟨rfl,fun _ => rfl⟩
  | create c =>
    cases store with
    | none =>
      obtain ⟨hretry,hrepair⟩ := h
      exact Tallied.quiet (.created hretry hrepair) ⟨rfl,fun _ => rfl⟩ rfl rfl rfl
    | some row =>
      have hkept : Kept policy (some row) log := h
      exact hkept.quiet ⟨rfl,fun _ => rfl⟩
  | retry read u =>
    obtain ⟨row,rfl,hsame⟩ := hq
    exact Tallied.retried h hwithin hsame
  | repair read u =>
    obtain ⟨row,rfl,htotal,hcounts⟩ := hq
    exact Tallied.repaired h hwithin htotal hcounts
  | observe u =>
    cases store with
    | none =>
      have hkept : Kept policy none log := h
      exact hkept.quiet ⟨rfl,fun _ => rfl⟩
    | some row => exact Tallied.quiet h ⟨rfl,fun _ => rfl⟩ rfl rfl rfl
  | reportRetry r | reportRepair fingerprint r => exact h.quiet ⟨rfl,fun _ => rfl⟩

/-! ## Whole runs -/

def ledgerRun (policy : FailureBudgetPolicy) (moves : List (Move LedgerCall)) : Ledgers :=
  Shared.run LedgerRequest.perform (LedgerCall.program policy) (Shared.begin none) moves

/-- Every write of the run finds the counters that it was computed from. -/
def UndisturbedRun (policy : FailureBudgetPolicy) (moves : List (Move LedgerCall)) : Prop :=
  Along (Shared.next LedgerRequest.perform (LedgerCall.program policy)) (Shared.Admits Undisturbed)
    (Shared.begin none : Ledgers) moves

/-- What callers were told is within the budgets, and the stored counts add up. -/
structure WithinBudget (policy : FailureBudgetPolicy) (s : Ledgers) : Prop where
  total : s.log.countP (repairAllowedFor (fun _ => true)) ≤ policy.maxTotalRepairAttempts
  same : ∀ fp, s.log.countP (repairAllowedFor (fun f => f = fp)) ≤ policy.maxSameFingerprintRepairs
  retries : s.log.countP retryAllowed ≤ policy.maxAttempts
  sum : ∀ row ∈ s.store, countsTotal row.fingerprintCounts = row.totalRepairCount

variable {moves : List (Move LedgerCall)}

theorem run_kept (h : UndisturbedRun policy moves) :
    Kept policy (ledgerRun policy moves).store (ledgerRun policy moves).log := by
  -- the programs keep within the limits, so the log does, and then each step keeps the counts
  have hlog : ∀ e ∈ (ledgerRun policy moves).log, WithinLimits policy e.1 := Shared.log_asks program_within none moves
  refine Shared.invariant_of_requests
    (I := fun store log => (∀ e ∈ log, WithinLimits policy e.1) → Kept policy store log) ?_ h ?_ hlog
  · intro store log q hkept hq hall
    have hbefore : ∀ e ∈ log, WithinLimits policy e.1 := fun e he => hall e (mem_append_left _ he)
    exact kept_step store log q (hkept hbefore) hq (hall _ (mem_append_right _ (mem_singleton.mpr rfl)))
  · intro _
    exact ⟨rfl,rfl⟩

theorem retry_reports : (ledgerRun policy moves).log.countP retryAllowed ≤
    (ledgerRun policy moves).log.countP wroteRetry :=
  Shared.spent_le_earned retry_covered none moves

theorem repair_reports (p : String → Bool) : (ledgerRun policy moves).log.countP (repairAllowedFor p) ≤
    (ledgerRun policy moves).log.countP (wroteRepair p) :=
  Shared.spent_le_earned (repair_covered p) none moves

/-- No budget is overspent in any run whose writes find the counters they were computed
from. -/
theorem budget_never_overspent (policy : FailureBudgetPolicy) (moves : List (Move LedgerCall))
    (h : UndisturbedRun policy moves) : WithinBudget policy (ledgerRun policy moves) := by
  have hkept := run_kept h
  have hretry : (ledgerRun policy moves).log.countP retryAllowed ≤ _ := retry_reports
  have hrepair : ∀ p, (ledgerRun policy moves).log.countP (repairAllowedFor p) ≤ _ := repair_reports
  cases hstore : (ledgerRun policy moves).store with
  | none =>
    rw [hstore] at hkept
    obtain ⟨hnoRetry,hnoRepair⟩ := hkept
    have hnone : ∀ p, (ledgerRun policy moves).log.countP (repairAllowedFor p) = 0 := fun p =>
      Nat.eq_zero_of_le_zero ((hrepair p).trans (wroteRepair_mono.trans hnoRepair.le))
    constructor
    · rw [hnone]
      exact Nat.zero_le _
    · intro fp
      rw [hnone]
      exact Nat.zero_le _
    · omega
    · rw [hstore]
      exact nofun
  | some row =>
    rw [hstore] at hkept
    have htallied : Tallied policy (ledgerRun policy moves).log row := hkept
    constructor
    · have hcount := htallied.total
      have hlimit := htallied.totalLimit
      have hle := hrepair (fun _ => true)
      omega
    · intro fp
      have hcount := htallied.same fp
      have hlimit := htallied.sameLimit fp
      have hle := hrepair (fun f => f = fp)
      omega
    · have hcount := htallied.retries
      have hlimit := htallied.retryLimit
      omega
    · intro row' hrow'
      rw [hstore] at hrow'
      cases hrow'
      exact htallied.sum

/-! ## One connection alone, and two in a race -/

def samplePolicy : FailureBudgetPolicy := ⟨1,2,4⟩

def sampleRetry : LedgerCall := .consumeTransientRetry ⟨"bl-1","t1",none,"2026-01-01T00:00:00"⟩ (.ok "2026-01-01T00:00:01")

theorem sample_retry_completes : ∃ store log, Script.Completes LedgerRequest.perform Undisturbed
    (sampleRetry.program samplePolicy) none [] store log ∧ log.countP wroteRetry = 1 := by
  apply Exists.intro
  apply Exists.intro
  apply And.intro
  · exact .ask trivial (.ask trivial (.ask trivial (.ask ⟨_,rfl,rfl⟩ (.ask trivial (.done _ _ _)))))
  · rfl

/-- A connection that is alone retries once. -/
theorem sample_within_budget : ∃ moves, WithinBudget samplePolicy (ledgerRun samplePolicy moves) ∧
    (ledgerRun samplePolicy moves).log.countP wroteRetry = 1 := by
  obtain ⟨store,log,hcompletes,hone⟩ := sample_retry_completes
  obtain ⟨t,⟨moves,halong,rfl⟩,-,hlog⟩ := Shared.reaches_of_call (s := Shared.begin none) sampleRetry hcompletes
  refine ⟨moves,budget_never_overspent samplePolicy moves halong,?_⟩
  exact (congrArg (List.countP wroteRetry) hlog).trans hone

/-- The second connection reads the row before the first one writes it. -/
def racingMoves : List (Move LedgerCall) :=
  [.start sampleRetry,.start sampleRetry,.advance 0,.advance 0,.advance 0,.advance 1,.advance 0,.advance 0,
    .advance 1,.advance 1]

theorem race_overspends_retries : ¬ WithinBudget samplePolicy (ledgerRun samplePolicy racingMoves) := by
  intro h
  have htwo : (ledgerRun samplePolicy racingMoves).log.countP retryAllowed = 2 := by decide +kernel
  have hlimit := h.retries
  rw [htwo] at hlimit
  exact absurd hlimit (by decide)

end Bdb.Budget
