import Bdb.Startup.Reconcile

/-! # What startup recovery promises

The selected rule is the earliest of the declared precedence whose condition holds, the rows
that make it resume, reclaim or repair are of the current epoch or run and unresolved, and
rows of other projects do not matter.
-/
namespace Bdb.Startup

variable (rt : RecoveryRuntime) (data : Canonical) (now : DateTime)

/-! ## The conditions of the rules -/

def stopHolds : Prop := (do isStopped rt data (← currentEpoch rt data)) = (.ok true : Read Bool)

def Holds : RecoveryRule → Prop
  | .stopped => stopHolds rt data
  | .securityDataCorruptionFreeze => securityCount rt data ≠ 0
  | .deliveryUncertain => uncertainSends rt data ≠ []
  | .activeSendIntent => activeSends rt data ≠ []
  | .continuationReentry => pendingReentries rt data ≠ []
  | .operatorCheckpoint => operatorReentries rt data ≠ []
  | .activeContinuationLease => activeLeases rt data now ≠ []
  | .expiredOrphanLease => expiredLeases rt data now ≠ []
  | .ciWaiting => waitingForCi rt data ≠ []
  | .repairRetest => pendingRetries rt data ≠ [] ∨ repairFailures rt data ≠ []
  | .waitingForPlan => isWaitingForPlan rt data
  | .manualPolicyCheckpoint => blockedReentries rt data ≠ [] ∨ atCheckpoint rt data
  | .currentRunnableTask => (taskCandidate rt data).isSome = true ∧ ¬ scopeComplete rt data
  | .projectScopeComplete => scopeComplete rt data
  | .idle => True

/-- The rules that the table ranks before the given one. -/
def ranksBefore (rule : RecoveryRule) : List RecoveryRule := precedence.takeWhile (· ≠ rule)

def Earliest (rule : RecoveryRule) : Prop := Holds rt data now rule ∧ ∀ r ∈ ranksBefore rule, ¬ Holds rt data now r

/-! ## The rows behind an action -/

def OfCurrent (row : Fields) : Prop :=
  ∃ cursor, data.cursor = some cursor ∧
    (row.get "scope_epoch" ≠ .null ∧ row.get "scope_epoch" = cursor.get "scope_epoch" ∨
      row.get "run_id" ≠ .null ∧ row.get "run_id" = cursor.get "run_id")

instance (row : Fields) : Decidable (OfCurrent data row) :=
  inferInstanceAs (Decidable (∃ cursor ∈ data.cursor,
    (row.get "scope_epoch" ≠ .null ∧ row.get "scope_epoch" = cursor.get "scope_epoch" ∨
      row.get "run_id" ≠ .null ∧ row.get "run_id" = cursor.get "run_id")))

/-- The rows that make recovery choose the action are of the current epoch or run and
unresolved. A failure row names neither epoch nor run nor resolution, so whether it is still
of the current run is a predicate of its own. -/
def CausesCurrent (openFailure : Fields → Prop) : RecoveryAction → Prop
  | .resumeSendIntent => ∀ row ∈ activeSends rt data,
    OfCurrent data row ∧ projectedStatus rt row "status" ∈ sendActive ++ sendUncertain
  | .resumeSessionReentry => ∀ row ∈ pendingReentries rt data,
    OfCurrent data row ∧ projectedStatus rt row "liveness_state" ∈ reentryPending
  | .reclaimExpiredContinuationLease => ∀ row ∈ expiredLeases rt data now,
    OfCurrent data row ∧ projectedStatus rt row "status" ∈ leaseActive
  | .repairRetest =>
    (∀ row ∈ pendingRetries rt data, OfCurrent data row ∧ projectedStatus rt row "status" ∈ ["SCHEDULED","EXECUTING"]) ∧
      ∀ row ∈ repairFailures rt data, openFailure row
  | _ => True

def SameProject (projectId : String) (db db' : Tables) : Prop := ∀ table, db'.own projectId table = db.own projectId table

structure RecoveryObeys (openFailure : Fields → Prop) (db : Tables) (projectId : String) (d : RecoveryDecision) : Prop where
  earliest : Earliest rt data now d.rule
  causes : CausesCurrent rt data now openFailure d.action
  own : ∀ db', SameProject projectId db db' → reconcile rt now db' projectId = reconcile rt now db projectId

/-! ## The condition -/

def NoneOf (rules : List RecoveryRule) : Prop := ∀ r ∈ rules, ¬ Holds rt data now r

/-- A blocked re-entry is not what is left when a rule that ranks before it applies, and the
rows of the rule that applies are current. -/
structure InTurn (openFailure : Fields → Prop) : Prop where
  blocked : NoneOf rt data now (ranksBefore .activeContinuationLease) → blockedReentries rt data ≠ [] →
    NoneOf rt data now [.activeContinuationLease,.expiredOrphanLease,.ciWaiting,.repairRetest,.waitingForPlan]
  sends : NoneOf rt data now (ranksBefore .activeSendIntent) → confirmedSends rt data = [] →
    ∀ row ∈ activeSends rt data, OfCurrent data row
  reentries : NoneOf rt data now (ranksBefore .continuationReentry) → ∀ row ∈ pendingReentries rt data, OfCurrent data row
  leases : NoneOf rt data now (ranksBefore .expiredOrphanLease) → blockedReentries rt data = [] →
    ∀ row ∈ expiredLeases rt data now, OfCurrent data row
  repairs : NoneOf rt data now (ranksBefore .repairRetest) → blockedReentries rt data = [] →
    (∀ row ∈ pendingRetries rt data, OfCurrent data row) ∧ ∀ row ∈ repairFailures rt data, openFailure row

end Bdb.Startup
