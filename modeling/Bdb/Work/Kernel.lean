import Bdb.Base.PyText
import Bdb.Base.Table

/-! # The work kernel

A work item moves between ready, running, waiting and finished. Its runs, waits, lease,
resource claims and transition facts are rows of their own tables, and every operation is one
transaction over all of them. Whoever works on an item names the lease and the fence that it
was given; a lease that is taken over gets the next fence.
-/
namespace Bdb.Work

/-- Readings of the clock in seconds, with an addition that may round. -/
class Seconds (T : Type) extends LinearOrder T where
  zero : T
  day : T
  plus : T → T → T

instance : Seconds ℤ where
  zero := 0
  day := 86400
  plus := (· + ·)

inductive WorkDisposition where
  | ready
  | running
  | waiting
  | finished
deriving DecidableEq

inductive RunStatus where
  | active
  | finished
deriving DecidableEq

inductive RunOutcome where
  | succeeded
  | failed
  | cancelled
deriving DecidableEq

inductive EffectCertainty where
  | notAssessed
  | certain
  | possible
  | unknown
deriving DecidableEq

inductive WaitStatus where
  | opened
  | resolved
deriving DecidableEq

/-- A stored lease is active or released; an answer calls an active lease expired when its
time has run out. -/
inductive LeaseState where
  | active
  | released
  | expired
deriving DecidableEq

inductive ClaimState where
  | held
  | released
deriving DecidableEq

inductive FailPoint where
  | beforeTransaction
  | duringTransaction
  | afterCommit
deriving DecidableEq

def WorkDisposition.value : WorkDisposition → String
  | ready => "READY"
  | running => "RUNNING"
  | waiting => "WAITING"
  | finished => "FINISHED"

def RunOutcome.value : RunOutcome → String
  | succeeded => "SUCCEEDED"
  | failed => "FAILED"
  | cancelled => "CANCELLED"

def RunOutcome.ofText (s : String) : Option RunOutcome :=
  [succeeded,failed,cancelled].find? (·.value == s)

def EffectCertainty.value : EffectCertainty → String
  | notAssessed => "NOT_ASSESSED"
  | certain => "CERTAIN"
  | possible => "POSSIBLE"
  | unknown => "UNKNOWN"

def EffectCertainty.ofText (s : String) : Option EffectCertainty :=
  [notAssessed,certain,possible,unknown].find? (·.value == s)

/-! ## Rows -/

structure WorkItem (T : Type) where
  workId : String
  taskId : String
  kind : String
  disposition : WorkDisposition
  stateVersion : ℕ
  createdOrder : ℕ
  updatedOrder : ℕ
  createdAt : T
  updatedAt : T

structure RunRecord where
  runId : String
  workId : String
  status : RunStatus
  outcome : Option RunOutcome
  effectCertainty : EffectCertainty
  leaseId : String
  fence : ℕ
  startedOrder : ℕ
  endedOrder : Option ℕ
deriving DecidableEq

structure WaitRecord where
  waitId : String
  workId : String
  reason : String
  status : WaitStatus
  createdOrder : ℕ
  resolvedOrder : Option ℕ
  resolution : Option String
deriving DecidableEq

structure LeaseRecord (T : Type) where
  leaseId : String
  workId : String
  ownerId : String
  fence : ℕ
  state : LeaseState
  acquiredAt : T
  expiresAt : T

structure ResourceClaim where
  resourceKey : String
  workId : String
  leaseId : String
  fence : ℕ
  state : ClaimState
  claimedOrder : ℕ
deriving DecidableEq

/-- A fact. Its id is the digest of the work, the version, the kind and the payload. -/
structure TransitionFact where
  workId : String
  stateVersion : ℕ
  kind : String
  fromDisposition : Option WorkDisposition
  toDisposition : Option WorkDisposition
  payload : Fields
  createdOrder : ℕ

structure WorkKernelStore (T : Type) where
  sequence : ℕ
  workItems : Table (WorkItem T) (·.workId)
  runs : Table RunRecord (·.runId)
  waits : Table WaitRecord (·.waitId)
  leases : Table (LeaseRecord T) (·.workId)
  resourceClaims : Table ResourceClaim (·.resourceKey)
  transitionFacts : Table TransitionFact fun f => (f.workId,f.stateVersion)

def WorkKernelStore.empty {T : Type} : WorkKernelStore T :=
  ⟨0,Table.empty,Table.empty,Table.empty,Table.empty,Table.empty,Table.empty⟩

/-! ## Bounded texts -/

/-- A first character, then at most so many others. -/
def bounded (first rest : Char → Bool) (most : ℕ) (s : String) : Bool :=
  match s.toList with
  | [] => false
  | c :: cs => first c && cs.all rest && decide (cs.length ≤ most)

def idText (s : String) : Bool :=
  bounded Char.isAlphanum (fun c => c.isAlphanum || "._:/-".contains c) 191 s

def reasonText (s : String) : Bool :=
  bounded Char.isLower (fun c => c.isLower || c.isDigit || "_.:-".contains c) 63 s

def ownerText (s : String) : Bool :=
  bounded Char.isAlphanum (fun c => c.isAlphanum || "._:@/-".contains c) 127 s

def text (value field : String) : Outcome Unit :=
  require (idText value = true) "invalid_identifier" (field ++ " is not a bounded identifier")

def reason (value : String) : Outcome Unit :=
  require (reasonText value = true) "invalid_wait_reason" "reason is not a bounded wait reason"

def owner (value : String) : Outcome Unit :=
  require (ownerText value = true) "invalid_owner" "owner_id is not a bounded owner identifier"

/-! ## Steps of a transaction -/

variable {T : Type} [Seconds T]

open Seconds

/-- A constraint of a table that a write would break. -/
def constraint (p : Prop) [Decidable p] : Outcome Unit :=
  require p "storage_conflict" "M4a database constraint rejected write"

namespace WorkKernelStore

def requireWork (s : WorkKernelStore T) (workId : String) : Outcome (WorkItem T) :=
  need (s.workItems.get workId) "work_not_found" ("WorkItem does not exist: " ++ workId)

def nextOrder (s : WorkKernelStore T) : ℕ := s.sequence + 1

/-- The row under its version, which was read in the same transaction. -/
def bumpWork (s : WorkKernelStore T) (row : WorkItem T) (disposition : WorkDisposition) (order : ℕ) (now : T) :
    WorkKernelStore T :=
  { s with
    sequence := order
    workItems := s.workItems.put
      { row with disposition := disposition, stateVersion := row.stateVersion + 1, updatedOrder := order,
                 updatedAt := now } }

def appendFact (s : WorkKernelStore T) (f : TransitionFact) : Outcome (WorkKernelStore T) := do
  let facts ← need (s.transitionFacts.insert f) "storage_conflict" "M4a database constraint rejected write"
  pure { s with transitionFacts := facts }

def moveFact (row : WorkItem T) (kind : String) (origin target : WorkDisposition) (payload : Fields) (order : ℕ) :
    TransitionFact :=
  ⟨row.workId,row.stateVersion + 1,kind,some origin,some target,payload,order⟩

def requireLease (s : WorkKernelStore T) (workId leaseId : String) (fence : ℤ) (now : T) :
    Outcome (LeaseRecord T) := do
  text leaseId "lease_id"
  require (1 ≤ fence) "invalid_fence" "fence must be a positive integer"
  let l ← need (s.leases.get workId) "lease_missing" "WorkItem has no current lease"
  require (l.leaseId = leaseId) "stale_lease" "worker lease is no longer current"
  require ((l.fence : ℤ) = fence) "stale_fence" "worker fence is no longer current"
  require (l.state = .active) "lease_released" "worker lease is not active"
  require (now < l.expiresAt) "lease_expired" "worker lease has expired"
  pure l

def expectVersion (row : WorkItem T) (expected : ℤ) : Outcome Unit := do
  require (0 ≤ expected) "invalid_state_version" "expected state_version must be a non-negative integer"
  if (row.stateVersion : ℤ) = expected then .ok ()
  else .error ⟨"stale_state_version","WorkItem state_version is stale",
    [("expected",.int expected),("current",.int row.stateVersion)]⟩

def activeRun (s : WorkKernelStore T) (workId : String) : Option RunRecord :=
  s.runs.find fun r => r.workId == workId && r.status == .active

def heldClaim (s : WorkKernelStore T) (workId : String) : Option ResourceClaim :=
  s.resourceClaims.find fun c => c.workId == workId && c.state == .held

end WorkKernelStore

/-- A lease row as it is answered. -/
def LeaseRecord.view (l : LeaseRecord T) (now : T) : LeaseRecord T :=
  { l with state := if l.state ≠ .active then .released else if l.expiresAt ≤ now then .expired else .active }

/-- The ownership that an effect adapter has proved to it before it acts. -/
def WorkKernelStore.assertCurrentLease (s : WorkKernelStore T) (workId leaseId : String) (fence : ℤ) (now : T) :
    Outcome (LeaseRecord T) := do
  text workId "work_id"
  let l ← s.requireLease workId leaseId fence now
  pure (l.view now)

/-! ## Operations -/

/-- What is checked before the transaction, and the transaction. -/
structure Operation (T α : Type) where
  checks : Outcome Unit
  operation : WorkKernelStore T → Outcome (WorkKernelStore T × α)

variable {α : Type}

def Operation.write (o : Operation T α) (failpoint : Option FailPoint) (s : WorkKernelStore T) :
    WorkKernelStore T × Outcome α :=
  match o.checks with
  | .error e => (s,.error e)
  | .ok _ =>
    if failpoint = some .beforeTransaction then
      (s,fail "simulated_crash_before_transaction" "fault injected before M4a transaction")
    else match o.operation s with
      | .error e => (s,.error e)
      | .ok (t,a) => match failpoint with
        | some .duringTransaction =>
          (s,fail "simulated_crash_during_transaction" "fault injected during M4a transaction")
        | some .afterCommit => (t,fail "simulated_response_loss_after_commit" "fault injected after M4a commit")
        | _ => (t,.ok a)

/-- The answer of the authority that owns the tasks; none when it cannot be asked. -/
def validateTask (taskId : String) (known : Option Bool) : Outcome Unit := do
  text taskId "task_id"
  let known ← need known "task_authority_unavailable" "canonical M3 Task authority could not be queried"
  require (known = true) "task_not_found" "WorkItem must bind to an accepted canonical M3 Task"

open WorkKernelStore

def createWorkItem (workId taskId kind : String) (known : Option Bool) (now : T) : Operation T (WorkItem T) where
  checks := do
    text workId "work_id"
    text taskId "task_id"
    text kind "work_kind"
    validateTask taskId known
  operation s :=
    match s.workItems.get workId with
    | some existing =>
      if existing.taskId = taskId ∧ existing.kind = kind then pure (s,existing)
      else fail "work_conflict" "work_id is already bound to another Task or kind"
    | none => do
      let order := s.nextOrder
      let item : WorkItem T := ⟨workId,taskId,kind,.ready,0,order,order,now,now⟩
      let items ← need (s.workItems.insert item) "storage_conflict" "M4a database constraint rejected write"
      let t ← appendFact { s with sequence := order, workItems := items }
        ⟨workId,0,"work_created",none,some .ready,[("task_id",.str taskId),("kind",.str kind)],order⟩
      pure (t,item)

/-- A lease handed to a new holder, with the next fence. -/
def takeOver (l : LeaseRecord T) (leaseId ownerId : String) (ttl now : T) : LeaseRecord T :=
  { l with leaseId := leaseId, ownerId := ownerId, fence := l.fence + 1, state := .active, acquiredAt := now,
           expiresAt := plus now ttl }

def handOver (workId leaseId : String) (fence : ℕ) (c : ResourceClaim) : ResourceClaim :=
  if c.workId = workId ∧ c.state = .held then { c with leaseId := leaseId, fence := fence } else c

theorem handOver_key (workId leaseId : String) (fence : ℕ) (c : ResourceClaim) :
    (handOver workId leaseId fence c).resourceKey = c.resourceKey := by
  unfold handOver
  split <;> rfl

def requireFreeLeaseId (s : WorkKernelStore T) (workId leaseId : String) : Outcome Unit :=
  require (∀ l ∈ s.leases.find fun l => l.leaseId == leaseId, l.workId = workId) "lease_id_conflict"
    "lease_id is bound to another WorkItem"

def acquireLease (workId leaseId ownerId : String) (ttl now : T) : Operation T (LeaseRecord T) where
  checks := do
    text workId "work_id"
    text leaseId "lease_id"
    owner ownerId
    require (zero < ttl ∧ ttl ≤ day) "invalid_lease_ttl" "lease TTL must be positive and bounded"
  operation s := do
    let _ ← s.requireWork workId
    match s.leases.get workId with
    | some l =>
      if l.leaseId = leaseId ∧ l.ownerId = ownerId ∧ l.state = .active ∧ now < l.expiresAt then
        let renewed := { l with expiresAt := max l.expiresAt (plus now ttl) }
        pure ({ s with leases := s.leases.put renewed },renewed.view now)
      else do
        require (¬ (l.state = .active ∧ now < l.expiresAt)) "lease_conflict" "WorkItem already has a valid lease"
        requireFreeLeaseId s workId leaseId
        let taken := takeOver l leaseId ownerId ttl now
        pure ({ s with
          leases := s.leases.put taken
          resourceClaims := s.resourceClaims.change (handOver workId leaseId taken.fence)
            (handOver_key workId leaseId taken.fence) },taken.view now)
    | none => do
      requireFreeLeaseId s workId leaseId
      let l : LeaseRecord T := ⟨leaseId,workId,ownerId,1,.active,now,plus now ttl⟩
      let leases ← need (s.leases.insert l) "storage_conflict" "M4a database constraint rejected write"
      pure ({ s with leases := leases },l.view now)

def releaseLease (workId leaseId : String) (fence : ℤ) (now : T) : Operation T (LeaseRecord T) where
  checks := text workId "work_id"
  operation s := do
    let l ← s.requireLease workId leaseId fence now
    match s.heldClaim workId with
    | some c => .error ⟨"resource_claim_held",
        "WorkItem lease cannot be released while its resource claim is held",[("resource_key",.str c.resourceKey)]⟩
    | none =>
      let released := { l with state := .released }
      pure ({ s with leases := s.leases.put released },released.view now)

def claimResource (workId resourceKey leaseId : String) (fence : ℤ) (now : T) : Operation T ResourceClaim where
  checks := do
    text workId "work_id"
    text resourceKey "resource_key"
  operation s := do
    let work ← s.requireWork workId
    require (work.disposition ≠ .finished) "invalid_transition" "terminal WorkItem cannot claim a resource"
    let l ← s.requireLease workId leaseId fence now
    match s.heldClaim workId with
    | some c =>
      if c.resourceKey = resourceKey ∧ c.leaseId = leaseId ∧ (c.fence : ℤ) = fence then pure (s,c)
      else fail "work_resource_conflict" "WorkItem already holds another resource"
    | none =>
      let order := s.nextOrder
      let claim : ResourceClaim := ⟨resourceKey,workId,leaseId,l.fence,.held,order⟩
      match s.resourceClaims.get resourceKey with
      | some c =>
        if c.state = .held then
          if c.workId = workId ∧ c.leaseId = leaseId ∧ (c.fence : ℤ) = fence then pure (s,c)
          else fail "resource_conflict" "resource is held by another current WorkItem lease"
        else pure ({ s with sequence := order, resourceClaims := s.resourceClaims.put claim },claim)
      | none => do
        let claims ← need (s.resourceClaims.insert claim) "storage_conflict" "M4a database constraint rejected write"
        pure ({ s with sequence := order, resourceClaims := claims },claim)

def releaseResource (workId resourceKey leaseId : String) (fence : ℤ) (now : T) : Operation T ResourceClaim where
  checks := do
    text workId "work_id"
    text resourceKey "resource_key"
  operation s := do
    let _ ← s.requireLease workId leaseId fence now
    let c ← need (s.resourceClaims.get resourceKey) "resource_missing" "resource claim does not exist"
    require (c.workId = workId ∧ c.leaseId = leaseId ∧ (c.fence : ℤ) = fence) "stale_resource_claim"
      "resource claim is no longer current"
    if c.state = .released then pure (s,c)
    else do
      require (∀ r ∈ s.activeRun workId, r.leaseId = leaseId ∧ (r.fence : ℤ) = fence) "resource_reconciliation_required"
        "resource cannot be released while an older fenced Run remains active"
      let released := { c with state := .released }
      pure ({ s with resourceClaims := s.resourceClaims.put released },released)

def startRun (workId runId leaseId : String) (fence expectedStateVersion : ℤ) (now : T) : Operation T RunRecord where
  checks := do
    text workId "work_id"
    text runId "run_id"
  operation s :=
    match s.runs.get runId with
    | some existing => do
      require (existing.workId = workId) "run_id_conflict" "run_id is bound to another WorkItem"
      require (existing.leaseId = leaseId ∧ (existing.fence : ℤ) = fence) "duplicate_run"
        "run_id already exists with a different owner"
      pure (s,existing)
    | none => do
      let row ← s.requireWork workId
      expectVersion row expectedStateVersion
      require (row.disposition = .ready) "invalid_transition" "only READY WorkItems can start a Run"
      let l ← s.requireLease workId leaseId fence now
      require (s.activeRun workId = none) "active_run_conflict" "WorkItem already has an active Run"
      let order := s.nextOrder
      let run : RunRecord := ⟨runId,workId,.active,none,.notAssessed,leaseId,l.fence,order,none⟩
      let runs ← need (s.runs.insert run) "storage_conflict" "M4a database constraint rejected write"
      let t ← (bumpWork { s with runs := runs } row .running order now).appendFact
        (moveFact row "run_started" .ready .running
          [("run_id",.str runId),("lease_id",.str leaseId),("fence",.int l.fence)] order)
      pure (t,run)

def enterWait (workId waitId why leaseId : String) (fence expectedStateVersion : ℤ) (now : T) :
    Operation T WaitRecord where
  checks := do
    text workId "work_id"
    text waitId "wait_id"
    reason why
  operation s :=
    match s.waits.get waitId with
    | some existing => do
      require (existing.workId = workId ∧ existing.reason = why) "wait_id_conflict"
        "wait_id is bound to another WorkItem or reason"
      pure (s,existing)
    | none => do
      let row ← s.requireWork workId
      expectVersion row expectedStateVersion
      require (row.disposition = .running) "invalid_transition" "only RUNNING WorkItems can enter a Wait"
      let _ ← s.requireLease workId leaseId fence now
      let active ← need (s.activeRun workId) "active_run_missing" "RUNNING WorkItem has no active Run"
      require (active.leaseId = leaseId ∧ (active.fence : ℤ) = fence) "run_ownership_mismatch"
        "current lease/fence does not own the active Run"
      let order := s.nextOrder
      let wait : WaitRecord := ⟨waitId,workId,why,.opened,order,none,none⟩
      -- at most one open wait for each item
      constraint (s.waits.find (fun w => w.workId == workId && w.status == .opened) = none)
      let waits ← need (s.waits.insert wait) "storage_conflict" "M4a database constraint rejected write"
      let t ← (bumpWork { s with waits := waits } row .waiting order now).appendFact
        (moveFact row "wait_opened" .running .waiting [("wait_id",.str waitId),("reason",.str why)] order)
      pure (t,wait)

/-- An interrupted run is given to the current holder of the lease. -/
def adoptActiveRun (workId runId leaseId : String) (fence expectedStateVersion : ℤ) (now : T) :
    Operation T RunRecord where
  checks := do
    text workId "work_id"
    text runId "run_id"
  operation s := do
    let row ← s.requireWork workId
    expectVersion row expectedStateVersion
    require (row.disposition = .running) "invalid_transition" "only a RUNNING WorkItem can adopt its active Run"
    let l ← s.requireLease workId leaseId fence now
    let run ← need ((s.runs.get runId).filter fun r => r.workId == workId && r.status == .active)
      "active_run_missing" "restart recovery found no matching active Run"
    if run.leaseId = leaseId ∧ (run.fence : ℤ) = fence then pure (s,run)
    else do
      require ((run.fence : ℤ) < fence) "stale_fence" "Run ownership cannot move to an older or equal foreign fence"
      let order := s.nextOrder
      let adopted := { run with leaseId := leaseId, fence := l.fence }
      let t ← (bumpWork { s with runs := s.runs.put adopted } row .running order now).appendFact
        (moveFact row "run_ownership_adopted" .running .running
          [("run_id",.str runId),("lease_id",.str leaseId),("fence",.int l.fence)] order)
      pure (t,adopted)

def resolveWait (workId waitId leaseId : String) (fence expectedStateVersion : ℤ) (resolution : String) (now : T) :
    Operation T WaitRecord where
  checks := do
    text workId "work_id"
    text waitId "wait_id"
    text resolution "resolution"
  operation s := do
    let existing ← need (s.waits.get waitId) "wait_not_found" "Wait does not exist"
    require (existing.workId = workId) "wait_id_conflict" "wait_id is bound to another WorkItem"
    if existing.status = .resolved then pure (s,existing)
    else do
      let row ← s.requireWork workId
      expectVersion row expectedStateVersion
      require (row.disposition = .waiting) "invalid_transition" "only WAITING WorkItems can resolve a Wait"
      let _ ← s.requireLease workId leaseId fence now
      let order := s.nextOrder
      let resolved := { existing with status := .resolved, resolvedOrder := some order, resolution := some resolution }
      let t ← (bumpWork { s with waits := s.waits.put resolved } row .ready order now).appendFact
        (moveFact row "wait_resolved" .waiting .ready [("wait_id",.str waitId),("resolution",.str resolution)] order)
      pure (t,resolved)

def finishRun (workId runId leaseId : String) (fence expectedStateVersion : ℤ) (outcome effectCertainty : String)
    (now : T) : Operation T RunRecord where
  checks := do
    text workId "work_id"
    text runId "run_id"
    require ((RunOutcome.ofText outcome).isSome = true) "invalid_run_outcome" "Run outcome is unsupported"
    require ((EffectCertainty.ofText effectCertainty).isSome = true) "invalid_effect_certainty"
      "effect certainty is unsupported"
  operation s := do
    let existing ← need ((s.runs.get runId).filter fun r => r.workId == workId) "run_not_found"
      "Run does not belong to the WorkItem"
    if existing.status = .finished then
      if existing.outcome = RunOutcome.ofText outcome ∧
          some existing.effectCertainty = EffectCertainty.ofText effectCertainty then pure (s,existing)
      else fail "run_conflict" "finished Run cannot be rewritten"
    else do
      let row ← s.requireWork workId
      expectVersion row expectedStateVersion
      require (row.disposition = .running ∨ row.disposition = .ready) "invalid_transition"
        "only RUNNING or wait-resumed READY WorkItems can finish a Run"
      let _ ← s.requireLease workId leaseId fence now
      let active ← need (s.activeRun workId) "active_run_missing" "WorkItem has no active Run to finish"
      require (active.runId = runId) "active_run_mismatch" "another Run is active for the WorkItem"
      require (existing.leaseId = leaseId ∧ (existing.fence : ℤ) = fence) "run_ownership_mismatch"
        "current lease/fence does not own the active Run"
      let order := s.nextOrder
      let finished := { existing with
        status := .finished
        outcome := RunOutcome.ofText outcome
        effectCertainty := (EffectCertainty.ofText effectCertainty).getD .notAssessed
        endedOrder := some order }
      let t ← (bumpWork { s with runs := s.runs.put finished } row .finished order now).appendFact
        (moveFact row "run_finished" row.disposition .finished
          [("run_id",.str runId),("outcome",.str outcome),("effect_certainty",.str effectCertainty)] order)
      pure (t,finished)

/-! ## Calls -/

inductive WorkAnswer (T : Type) where
  | work (w : WorkItem T)
  | run (r : RunRecord)
  | wait (w : WaitRecord)
  | lease (l : LeaseRecord T)
  | claim (c : ResourceClaim)

/-- A call of the kernel. Every call reads the clock once. -/
inductive WorkCall (T : Type) where
  | createWorkItem (workId taskId kind : String) (known : Option Bool)
  | acquireLease (workId leaseId ownerId : String) (ttl : T)
  | releaseLease (workId leaseId : String) (fence : ℤ)
  | claimResource (workId resourceKey leaseId : String) (fence : ℤ)
  | releaseResource (workId resourceKey leaseId : String) (fence : ℤ)
  | startRun (workId runId leaseId : String) (fence expectedStateVersion : ℤ)
  | enterWait (workId waitId why leaseId : String) (fence expectedStateVersion : ℤ)
  | adoptActiveRun (workId runId leaseId : String) (fence expectedStateVersion : ℤ)
  | resolveWait (workId waitId leaseId : String) (fence expectedStateVersion : ℤ) (resolution : String)
  | finishRun (workId runId leaseId : String) (fence expectedStateVersion : ℤ) (outcome effectCertainty : String)

def Operation.answering {β : Type} (o : Operation T α) (f : α → β) : Operation T β where
  checks := o.checks
  operation s := (o.operation s).map fun p => (p.1,f p.2)

namespace WorkCall

def operation (c : WorkCall T) (now : T) : Operation T (WorkAnswer T) :=
  match c with
  | createWorkItem workId taskId kind known => (Work.createWorkItem workId taskId kind known now).answering .work
  | acquireLease workId leaseId ownerId ttl => (Work.acquireLease workId leaseId ownerId ttl now).answering .lease
  | releaseLease workId leaseId fence => (Work.releaseLease workId leaseId fence now).answering .lease
  | claimResource workId resourceKey leaseId fence =>
    (Work.claimResource workId resourceKey leaseId fence now).answering .claim
  | releaseResource workId resourceKey leaseId fence =>
    (Work.releaseResource workId resourceKey leaseId fence now).answering .claim
  | startRun workId runId leaseId fence expected => (Work.startRun workId runId leaseId fence expected now).answering .run
  | enterWait workId waitId why leaseId fence expected =>
    (Work.enterWait workId waitId why leaseId fence expected now).answering .wait
  | adoptActiveRun workId runId leaseId fence expected =>
    (Work.adoptActiveRun workId runId leaseId fence expected now).answering .run
  | resolveWait workId waitId leaseId fence expected resolution =>
    (Work.resolveWait workId waitId leaseId fence expected resolution now).answering .wait
  | finishRun workId runId leaseId fence expected outcome certainty =>
    (Work.finishRun workId runId leaseId fence expected outcome certainty now).answering .run

end WorkCall

/-- A call at its clock reading, with the fault its caller injects. -/
structure WorkEvent (T : Type) where
  call : WorkCall T
  now : T
  failpoint : Option FailPoint

def WorkEvent.perform (e : WorkEvent T) (s : WorkKernelStore T) : WorkKernelStore T × Outcome (WorkAnswer T) :=
  (e.call.operation e.now).write e.failpoint s

def WorkKernelStore.next (s : WorkKernelStore T) (e : WorkEvent T) : WorkKernelStore T := (e.perform s).1

/-- The store after calls, from an empty database. -/
def kernelRun (events : List (WorkEvent T)) : WorkKernelStore T := events.foldl next .empty

end Bdb.Work
