import Bdb.Base.PyText
import Bdb.Recovery.TransientRecovery

/-! # Whether a failure may be repaired

A failure has a fingerprint made of what is stable in its evidence. Its evaluation reads the
ledger of the task: waiting for CI is always allowed, other classes as long as the attempts,
the repairs and the time of their budget last.
-/
namespace Bdb.Recovery

open Budget Floats

/-! ## Fingerprints -/

def volatileFields : List String :=
  ["timestamp","created_at","updated_at","time","date","random_id","attempt_id","execution_binding_id","run_id",
    "launch_id","retry_generation","generation","nonce","uuid","guid","pid","process_id","thread_id","session_id"]

structure FailureFingerprint where
  fingerprintDigest : String
  failureClass : FailureClass
  ruleId : String
  semanticFeatures : Fields

variable (rt : Runtime)

def isVolatile (key : String) : Bool :=
  key.toList.head? == some '_' || decide (rt.lower key ∈ volatileFields)

mutual
def normalizeSemanticValue : Json → Json
  | .obj fs => .obj (normalizeFields fs)
  | .arr xs => .arr (normalizeItems xs)
  | .null => .null
  | .bool b => .bool b
  | .int n => .int n
  | .str s => .str s
def normalizeFields : Fields → Fields
  | [] => []
  | (k, v) :: rest => if isVolatile rt k then normalizeFields rest else (k,normalizeSemanticValue v) :: normalizeFields rest
def normalizeItems : List Json → List Json
  | [] => []
  | v :: rest => normalizeSemanticValue v :: normalizeItems rest
end

def computeFailureFingerprint (failureClass : FailureClass) (evidence : Fields) (ruleId : String) : FailureFingerprint :=
  let ruleId := if ruleId = "" then "RULE_EXPLICIT" else ruleId
  let semanticData := normalizeFields rt evidence
  let payload : Json := .obj [("version",.str "1.0.0"),("class",.str failureClass.value),("rule_id",.str ruleId),
    ("semantic_data",.obj semanticData)]
  ⟨"fp1:" ++ Sha256.sha256 (Json.text (Json.canon payload)),failureClass,ruleId,semanticData⟩

/-! ## Evaluation -/

structure RepairPolicy (F : Type) where
  transient : TransientRetryPolicy F
  maxSameFingerprintRepairs : ℕ
  maxTotalRepairAttempts : ℕ
  maxTotalRepairWallTimeSeconds : F

def RepairPolicy.budget {F : Type} (p : RepairPolicy F) : FailureBudgetPolicy :=
  ⟨p.transient.maxAttempts,p.maxSameFingerprintRepairs,p.maxTotalRepairAttempts⟩

structure Evaluation where
  allowed : Bool
  disposition : String
  reason : String

variable {F : Type} [Floats F] (policy : RepairPolicy F)

/-- The time since the first failure, when its record can be read and is over the limit. -/
def wallTimeOver (row : LedgerRow) (now : F) : Option F :=
  match row.wallTimeStart with
  | none => none
  | some start =>
    if start = "" then none
    else
      match timestamp (F := F) start with
      | .error _ => none
      | .ok startTs =>
        let elapsed := minus now startTs
        if lt policy.maxTotalRepairWallTimeSeconds elapsed then some elapsed else none

def evaluateRepair (row : LedgerRow) (fingerprintDigest : String) (now : F) : Outcome Evaluation :=
  match wallTimeOver policy row now with
  | some elapsed => .ok ⟨false,"REPAIR_LOOP_EXHAUSTED","Total repair wall time exceeded (" ++ oneDecimal elapsed ++ "s > " ++
      Floats.repr policy.maxTotalRepairWallTimeSeconds ++ "s)"⟩
  | none =>
    if policy.maxTotalRepairAttempts ≤ row.totalRepairCount then
      .ok ⟨false,"REPAIR_LOOP_EXHAUSTED","Total repair attempt budget exhausted (" ++ toString row.totalRepairCount ++ "/" ++
        toString policy.maxTotalRepairAttempts ++ ")"⟩
    else do
      let same ← countOf (row.fingerprintCounts.get fingerprintDigest (.int 0))
      if policy.maxSameFingerprintRepairs ≤ same then
        pure ⟨false,"REPAIR_LOOP_EXHAUSTED","Same-fingerprint repair limit exhausted (" ++ toString same ++ "/" ++
          toString policy.maxSameFingerprintRepairs ++ ")"⟩
      else pure ⟨true,"PROCEED_REPAIR","Repair attempt permitted within budget limits"⟩

def evaluateTransient (row : LedgerRow) : Outcome Evaluation :=
  let maxAttempts := policy.transient.maxAttempts
  let attemptsMade := row.transientRetryCount
  let schedule := policy.transient.initialScheduleSeconds
  if maxAttempts ≤ attemptsMade then
    .ok ⟨false,"PAUSED","Transient retry limit exhausted (" ++ toString attemptsMade ++ "/" ++ toString maxAttempts ++ ")"⟩
  else do
    let _ ← need (pyIndex schedule (min attemptsMade (schedule.length - 1))) "IndexError" "tuple index out of range"
    pure ⟨true,"AUTO_RETRY_BACKOFF","Transient retry allowed (" ++ toString (attemptsMade + 1) ++ "/" ++
      toString maxAttempts ++ ")"⟩

def evaluateFailure (row : LedgerRow) (failureClass : FailureClass) (fingerprintDigest : String) (now : F) :
    Outcome Evaluation :=
  if failureClass = .ciWaiting then
    .ok ⟨true,"AUTO_POLL","CI_WAITING monitored under independent CI polling policy"⟩
  else if failureClass.retryAllowed = false ∧ failureClass.repairAllowed = false then
    .ok ⟨false,"FAIL_CLOSED","Failure class " ++ failureClass.value ++ " does not permit automatic retry or repair"⟩
  else if failureClass = .transientInfrastructure then evaluateTransient policy row
  else evaluateRepair policy row fingerprintDigest now

end Bdb.Recovery
