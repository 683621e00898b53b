import Bdb.Base.Dict
import Bdb.Base.Transaction

/-! # The failure budget ledger

One row for each task counts its transient retries and its repairs, the repairs also for
each failure fingerprint. A consumption reads the row, checks the limits of the policy and
then writes the counters it has computed from what it read.
-/
namespace Bdb.Budget

open Step

structure FailureBudgetPolicy where
  maxAttempts : ℕ
  maxSameFingerprintRepairs : ℕ
  maxTotalRepairAttempts : ℕ
deriving DecidableEq

inductive ExhaustionState where
  | notExhausted
  | sameFingerprintExhausted
  | totalRepairExhausted
  | transientRetryExhausted
  | repairLoopExhausted
deriving DecidableEq

structure BudgetEvaluationResult where
  allowed : Bool
  exhaustionState : ExhaustionState
  disposition : String
  remainingTransientAttempts : Int
  remainingSameFingerprintRepairs : Int
  remainingTotalRepairs : Int
  reason : String
deriving DecidableEq

structure LedgerRow where
  ledgerId : String
  taskId : String
  runId : Option String
  totalRepairCount : Int
  transientRetryCount : Int
  repairGeneration : Int
  wallTimeStart : Option String
  jitterSeed : Int
  exhaustedStatus : String
  lastFingerprint : Option String
  fingerprintCounts : Dict Json
  createdAt : String
  updatedAt : String

def newLedger (ledgerId taskId : String) (runId : Option String) (now : String) : LedgerRow where
  ledgerId := ledgerId
  taskId := taskId
  runId := runId
  totalRepairCount := 0
  transientRetryCount := 0
  repairGeneration := 0
  wallTimeStart := none
  jitterSeed := 42
  exhaustedStatus := "ACTIVE"
  lastFingerprint := none
  fingerprintCounts := ∅
  createdAt := now
  updatedAt := now

/-- The first time that is recorded stays. -/
def LedgerRow.wallTimeFrom (row : LedgerRow) (now : String) : String :=
  match row.wallTimeStart with
  | some start => if start = "" then now else start
  | none => now

/-! ## Transient retries -/

def transientRefused : BudgetEvaluationResult where
  allowed := false
  exhaustionState := .transientRetryExhausted
  disposition := "PAUSED"
  remainingTransientAttempts := 0
  remainingSameFingerprintRepairs := 0
  remainingTotalRepairs := 0
  reason := "Transient retry budget already exhausted"

def transientAllowed (policy : FailureBudgetPolicy) (count : Int) : BudgetEvaluationResult where
  allowed := true
  exhaustionState := if count < policy.maxAttempts then .notExhausted else .transientRetryExhausted
  disposition := "AUTO_RETRY_BACKOFF"
  remainingTransientAttempts := policy.maxAttempts - count
  remainingSameFingerprintRepairs := 0
  remainingTotalRepairs := 0
  reason := "Transient attempt " ++ toString count ++ " recorded"

/-- The columns that a transient retry writes. -/
structure TransientUpdate where
  count : Int
  status : String
  now : String

def TransientUpdate.apply (u : TransientUpdate) (row : LedgerRow) : LedgerRow :=
  { row with transientRetryCount := u.count, exhaustedStatus := u.status, updatedAt := u.now }

def transientUpdate (policy : FailureBudgetPolicy) (read : LedgerRow) (now : Outcome String) :
    Step BudgetEvaluationResult TransientUpdate := do
  answerUnless (read.transientRetryCount < policy.maxAttempts) transientRefused
  let text ← orRaise now
  let count := read.transientRetryCount + 1
  pure ⟨count,if policy.maxAttempts ≤ count then "EXHAUSTED" else "ACTIVE",text⟩

/-! ## Repairs -/

/-- A stored count in a comparison: numbers and truth values compare, nothing else does. -/
def countOf : Json → Outcome Int
  | .int n => .ok n
  | .bool b => .ok (if b then 1 else 0)
  | _ => fail "TypeError" "'>=' not supported between these instances"

def sameFingerprintRefused (policy : FailureBudgetPolicy) (total : Int) : BudgetEvaluationResult where
  allowed := false
  exhaustionState := .sameFingerprintExhausted
  disposition := "REPAIR_LOOP_EXHAUSTED"
  remainingTransientAttempts := 0
  remainingSameFingerprintRepairs := 0
  remainingTotalRepairs := max 0 (policy.maxTotalRepairAttempts - total)
  reason := "Same fingerprint repair budget exhausted"

def totalRefused : BudgetEvaluationResult where
  allowed := false
  exhaustionState := .totalRepairExhausted
  disposition := "REPAIR_LOOP_EXHAUSTED"
  remainingTransientAttempts := 0
  remainingSameFingerprintRepairs := 0
  remainingTotalRepairs := 0
  reason := "Total repair budget exhausted"

/-- The columns that a repair writes. -/
structure RepairUpdate where
  fingerprint : String
  same : Int
  total : Int
  generation : Int
  wallTimeStart : String
  status : String
  counts : Dict Json
  now : String

def RepairUpdate.apply (u : RepairUpdate) (row : LedgerRow) : LedgerRow :=
  { row with
    totalRepairCount := u.total
    repairGeneration := u.generation
    wallTimeStart := some u.wallTimeStart
    exhaustedStatus := u.status
    lastFingerprint := some u.fingerprint
    fingerprintCounts := u.counts
    updatedAt := u.now }

def repairExhausted (policy : FailureBudgetPolicy) (same total : Int) : Bool :=
  policy.maxSameFingerprintRepairs ≤ same ∨ policy.maxTotalRepairAttempts ≤ total

def repairAllowed (policy : FailureBudgetPolicy) (u : RepairUpdate) : BudgetEvaluationResult where
  allowed := true
  exhaustionState := if repairExhausted policy u.same u.total then .repairLoopExhausted else .notExhausted
  disposition := "PROCEED_REPAIR"
  remainingTransientAttempts := 0
  remainingSameFingerprintRepairs := policy.maxSameFingerprintRepairs - u.same
  remainingTotalRepairs := policy.maxTotalRepairAttempts - u.total
  reason := "Repair attempt " ++ toString u.total ++ " consumed (same_fp=" ++ toString u.same ++ ")"

def repairUpdate (policy : FailureBudgetPolicy) (read : LedgerRow) (fingerprint : String) (now : Outcome String) :
    Step BudgetEvaluationResult RepairUpdate := do
  let text ← orRaise now
  let stored ← orRaise (countOf (read.fingerprintCounts.get fingerprint (.int 0)))
  answerUnless (stored < policy.maxSameFingerprintRepairs) (sameFingerprintRefused policy read.totalRepairCount)
  answerUnless (read.totalRepairCount < policy.maxTotalRepairAttempts) totalRefused
  let same := stored + 1
  let total := read.totalRepairCount + 1
  pure
    { fingerprint := fingerprint
      same := same
      total := total
      generation := read.repairGeneration + 1
      wallTimeStart := read.wallTimeFrom text
      status := if repairExhausted policy same total then "REPAIR_LOOP_EXHAUSTED" else "ACTIVE"
      counts := read.fingerprintCounts.insert fingerprint (.int same)
      now := text }

/-! ## Observations -/

/-- The columns that an observation writes, those that are given. -/
structure ObservationUpdate where
  wallTimeStart : Option String
  lastFingerprint : Option String
  now : String

def ObservationUpdate.apply (u : ObservationUpdate) (row : LedgerRow) : LedgerRow :=
  { row with
    wallTimeStart := u.wallTimeStart.or row.wallTimeStart
    lastFingerprint := u.lastFingerprint.or row.lastFingerprint
    updatedAt := u.now }

/-- What an observation writes: nothing for a fingerprint that was seen last, unless the
wall time has not been started. The answer tells a fresh failure. -/
def observation (read : LedgerRow) (fingerprint now : String) : Option ObservationUpdate × Bool :=
  let start := if read.wallTimeStart.getD "" = "" then some now else none
  if read.lastFingerprint = some fingerprint then
    (start.map (fun text => ⟨some text,none,now⟩),false)
  else (some ⟨start,some fingerprint,now⟩,true)

end Bdb.Budget
