import Bdb.Base.Outcome

/-! # States of commands and sessions

A command and a session move along fixed transitions; terminal states are left by none.
-/
namespace Bdb.Bridge

inductive CommandState where
  | discovered
  | validated
  | claimed
  | executing
  | effectRecorded
  | resultStaged
  | resultPublished
  | acknowledged
  | rejected
  | expired
  | policyDenied
  | staleRevision
  | stateMismatch
  | manualReconciliationRequired
  | cancelled
deriving DecidableEq

namespace CommandState

def value : CommandState → String
  | discovered => "discovered"
  | validated => "validated"
  | claimed => "claimed"
  | executing => "executing"
  | effectRecorded => "effect_recorded"
  | resultStaged => "result_staged"
  | resultPublished => "result_published"
  | acknowledged => "acknowledged"
  | rejected => "rejected"
  | expired => "expired"
  | policyDenied => "policy_denied"
  | staleRevision => "stale_revision"
  | stateMismatch => "state_mismatch"
  | manualReconciliationRequired => "manual_reconciliation_required"
  | cancelled => "cancelled"

/-- The states that a state is left for; those of a claimed command include the ones that the
recovery adds. -/
def transitions : CommandState → List CommandState
  | discovered => [validated,rejected,expired]
  | validated => [claimed,policyDenied,staleRevision,stateMismatch,cancelled]
  | claimed => [executing,cancelled,manualReconciliationRequired,staleRevision,stateMismatch,policyDenied]
  | executing => [effectRecorded,resultStaged,cancelled,manualReconciliationRequired]
  | effectRecorded => [resultStaged,manualReconciliationRequired]
  | resultStaged => [resultPublished,manualReconciliationRequired]
  | resultPublished => [acknowledged]
  | _ => []

def isTerminal : CommandState → Bool
  | acknowledged | rejected | expired | policyDenied | staleRevision | stateMismatch | manualReconciliationRequired |
    cancelled => true
  | _ => false

/-- A worker holds the command. -/
def isWorking : CommandState → Bool
  | claimed | executing | effectRecorded => true
  | _ => false

theorem transitions_terminal {s : CommandState} (h : s.isTerminal = true) : s.transitions = [] := by
  cases s <;> first | rfl | cases h

end CommandState

def validateCommandTransition (current new : CommandState) : Outcome Unit :=
  if current.isTerminal then fail "invalid_state_transition" ("Command state " ++ current.value ++ " is terminal")
  else
    require (new ∈ current.transitions) "invalid_state_transition"
      ("Invalid command transition " ++ current.value ++ " -> " ++ new.value)

theorem validateCommandTransition_ok {current new : CommandState} :
    validateCommandTransition current new = .ok () ↔ new ∈ current.transitions := by
  unfold validateCommandTransition
  split
  · rename_i hterminal
    rw [CommandState.transitions_terminal hterminal]
    exact ⟨nofun,nofun⟩
  · exact require_ok

inductive SessionState where
  | created
  | active
  | completing
  | completed
  | aborted
  | manualReconciliationRequired
deriving DecidableEq

namespace SessionState

def value : SessionState → String
  | created => "created"
  | active => "active"
  | completing => "completing"
  | completed => "completed"
  | aborted => "aborted"
  | manualReconciliationRequired => "manual_reconciliation_required"

def transitions : SessionState → List SessionState
  | created => [active,aborted]
  | active => [completing,aborted,manualReconciliationRequired]
  | completing => [completed,aborted,manualReconciliationRequired]
  | _ => []

def isTerminal : SessionState → Bool
  | completed | aborted | manualReconciliationRequired => true
  | _ => false

theorem transitions_terminal {s : SessionState} (h : s.isTerminal = true) : s.transitions = [] := by
  cases s <;> first | rfl | cases h

end SessionState

def validateSessionTransition (current new : SessionState) : Outcome Unit :=
  if current.isTerminal then fail "invalid_state_transition" ("Session state " ++ current.value ++ " is terminal")
  else
    require (new ∈ current.transitions) "invalid_state_transition"
      ("Invalid session transition " ++ current.value ++ " -> " ++ new.value)

theorem validateSessionTransition_ok {current new : SessionState} :
    validateSessionTransition current new = .ok () ↔ new ∈ current.transitions := by
  unfold validateSessionTransition
  split
  · rename_i hterminal
    rw [SessionState.transitions_terminal hterminal]
    exact ⟨nofun,nofun⟩
  · exact require_ok

end Bdb.Bridge
