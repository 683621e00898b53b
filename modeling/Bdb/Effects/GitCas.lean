import Bdb.Base.Interleaving
import Bdb.Effects.Objects
import Bdb.Shared.Evidence
import Bdb.Work.Kernel

/-! # The prepared git effect

An adapter prepares a commit for a sealed candidate and a single move of one ref to it. The
effect is a row with the lease and the fence it was prepared under. Applying it observes the
ref, proves the ownership and the authorisation, stores that the effect is possible, swaps the
ref and observes it again; each of these is a step of its own.
-/
namespace Bdb.Effects

/-! ## Records -/

inductive EffectState where
  | prepared
  | possible
  | after
  | diverged
  | unknown
deriving DecidableEq

inductive EffectCertainty where
  | before
  | possible
  | after
  | diverged
  | ambiguous
deriving DecidableEq

inductive SafeNextAction where
  | safeToApply
  | observeRequired
  | completeAllowed
  | manualReconciliation
deriving DecidableEq

def EffectCertainty.safeNextAction : EffectCertainty → SafeNextAction
  | before => .safeToApply
  | possible => .observeRequired
  | after => .completeAllowed
  | diverged => .manualReconciliation
  | ambiguous => .manualReconciliation

structure PreparedGitEffect where
  workId : String
  taskId : String
  runId : String
  effectId : String
  candidateId : String
  candidateViewId : String
  candidateTreeDigest : String
  baseViewId : String
  repositoryId : String
  repositoryIdentityDigest : String
  repositoryRoot : String
  objectFormat : String
  targetRef : String
  expectedOldOid : Oid
  preparedTreeOid : Oid
  preparedCommitOid : Oid
  parentCommitOid : Oid
  resourceKey : String
  subjectDigest : String
  intentRevisionId : String
  validationPolicyDigest : String
  checkPlanDigest : String
  obligationIds : List String
  scope : String
  commitMetadata : CommitMetadataPolicy
  state : EffectState
  effectCertainty : EffectCertainty
  observedRefOid : Option Oid
  reason : String
  leaseId : String
  fence : ℕ
deriving DecidableEq

def zeroOid (objectFormat : String) : Oid := String.ofList (List.replicate (if objectFormat = "sha1" then 40 else 64) '0')

namespace PreparedGitEffect

def place (r : PreparedGitEffect) : RefPlace := ⟨r.repositoryIdentityDigest,r.targetRef⟩

/-- The value that the ref is expected to have; the null object stands for an absent ref. -/
def expected (r : PreparedGitEffect) : Option Oid :=
  if r.expectedOldOid = zeroOid r.objectFormat then none else some r.expectedOldOid

/-- The row as it was prepared, whatever was observed since. -/
def identity (r : PreparedGitEffect) : PreparedGitEffect :=
  { r with state := .prepared, effectCertainty := .before, observedRefOid := none, reason := "" }

end PreparedGitEffect

def classification (r : PreparedGitEffect) (observed : Option Oid) : EffectCertainty :=
  if observed = some r.preparedCommitOid then .after else if observed = r.expected then .before else .diverged

def stateOf (r : PreparedGitEffect) : EffectCertainty → EffectState
  | .after => .after
  | .diverged => .diverged
  | .ambiguous => .unknown
  | _ => if r.state = .possible then .possible else .prepared

/-! ## Candidates and their authorisation -/

/-- The planned bytes of a path: a reference to content with its mode, or absence. -/
structure PathBinding where
  path : String
  after : Option (String × ℕ)
deriving DecidableEq

structure CandidateRepoView where
  candidateId : String
  viewId : String
  manifestDigest : String
  candidateTreeDigest : String
  baseViewId : String
  taskId : String
  repositoryId : String
  baseCommitOid : Oid
  baseTreeOid : Oid
  entries : List TreeEntry
  pathBindings : List PathBinding
deriving DecidableEq

structure SealedCandidate where
  sealed : Bool
  manifestDigest : String
  treeDigest : String
deriving DecidableEq

structure CommittedBase where
  viewId : String
  treeOid : Oid
  repositoryIdentityDigest : String
deriving DecidableEq

structure RepositoryResource where
  root : String
  repositoryId : String
  identityDigest : String
  objectFormat : String
deriving DecidableEq

structure Cutover where
  flowId : String
  flowRevisionId : String
  policyDigest : String
  planDigest : String
  scope : String
  targetRefPrefix : String
  active : Bool
deriving DecidableEq

structure Flow where
  flowId : String
  revisionId : String
  policyDigest : String
  planDigest : String
  scope : String
deriving DecidableEq

structure PromotionBinding where
  flowId : String
  flowRevisionId : String
  intact : Bool
deriving DecidableEq

structure Gate where
  schema : String
  authority : String
  mode : String
  decision : String
  allowed : Bool
  effectDigest : String
  subjectDigest : String
  policyDigest : String
  planDigest : String
  flowRevisionId : String
deriving DecidableEq

/-- What the stores of candidates, evidence and policy answer at a moment. -/
structure Authority where
  sealed : String → Option SealedCandidate
  content : String → Option (List UInt8)
  committed : RepositoryResource → Oid → Option CommittedBase
  cutovers : List Cutover
  bindings : String → Option PromotionBinding
  canonical : Bool
  activeFlow : String → Option Flow
  canonicalGate : PreparedGitEffect → String → Gate
  evidenceGate : PreparedGitEffect → String → Gate

def assertCandidate (r : PreparedGitEffect) (current : Option SealedCandidate) : Outcome Unit := do
  let current ← need current "candidate_not_current" "prepared Git effect requires the exact current sealed Candidate"
  require (current.sealed = true ∧ current.manifestDigest = r.candidateViewId ∧ current.treeDigest = r.candidateTreeDigest)
    "candidate_not_current" "prepared Git effect Candidate binding is stale"

def Gate.allows (g : Gate) : Prop := g.decision = "ALLOW" ∧ g.allowed = true

instance (g : Gate) : Decidable g.allows := inferInstanceAs (Decidable (_ ∧ _))

def Gate.matches (g : Gate) (r : PreparedGitEffect) (flow : Flow) : Prop :=
  g.schema = "bdb-vnext-m6c-validation-gate-v1" ∧ g.authority = "devmaster.bdb.vnext.validation.canonical-authority" ∧
    g.mode = "ACTIVE_CANONICAL" ∧ g.allows ∧ g.effectDigest = r.effectId ∧ g.subjectDigest = r.subjectDigest ∧
    g.policyDigest = r.validationPolicyDigest ∧ g.planDigest = r.checkPlanDigest ∧ g.flowRevisionId = flow.revisionId

instance (g : Gate) (r : PreparedGitEffect) (flow : Flow) : Decidable (g.matches r flow) :=
  inferInstanceAs (Decidable (_ ∧ _))

def matchingCutover (a : Authority) (r : PreparedGitEffect) : Outcome (Option Cutover) :=
  match a.cutovers.filter fun c => c.targetRefPrefix.toList.isPrefixOf r.targetRef.toList with
  | [] => .ok none
  | [c] => .ok (some c)
  | _ => fail "m7c_authority_ambiguous" "multiple M7c cutovers cover the exact target ref"

def authorizeCanonical (a : Authority) (r : PreparedGitEffect) (approvalId : String) (cutover : Cutover) : Outcome Gate := do
  require (cutover.active = true) "m7c_authority_paused" "M7c promotion authority is paused for this ref namespace"
  require (a.canonical = true) "m7c_authority_required" "active M7c cutover requires the canonical M6c authority"
  let flow ← need ((a.activeFlow cutover.flowId).filter fun f => f.revisionId = cutover.flowRevisionId) "m7c_policy_stale"
    "active M6c flow differs from the M7c cutover revision"
  require ((flow.policyDigest,flow.planDigest,flow.scope) = (cutover.policyDigest,cutover.planDigest,cutover.scope) ∧
      (r.validationPolicyDigest,r.checkPlanDigest,r.scope) = (flow.policyDigest,flow.planDigest,flow.scope))
    "m7c_policy_stale" "prepared Git effect no longer matches canonical M6c/M7c policy"
  let bound ← need (a.bindings r.effectId) "m7c_authority_required"
    "M7c cutover requires an exact promotion evidence binding"
  require (bound.flowId = cutover.flowId ∧ bound.flowRevisionId = cutover.flowRevisionId) "m7c_binding_stale"
    "M7c binding does not match the active cutover revision"
  require (bound.intact = true) "m7c_binding_corrupt" "M7c capability binding digest is invalid"
  let gate := a.canonicalGate r approvalId
  require (gate.matches r flow) "promotion_not_authorized"
    "M6c canonical validation authority blocked the exact Git effect"
  pure gate

def authorize (a : Authority) (r : PreparedGitEffect) (approvalId : String) : Outcome Gate := do
  match ← matchingCutover a r with
  | some cutover => authorizeCanonical a r approvalId cutover
  | none => do
    let gate := a.evidenceGate r approvalId
    require gate.allows "promotion_not_authorized" "M6a pre-cutover evidence/approval gate blocked the exact Git effect"
    pure gate

/-! ## Ownership -/

structure WorkQuery where
  taskId : String
  activeRun : Option Work.RunRecord
  resourceClaim : Option Work.ResourceClaim
deriving DecidableEq

def OwnsRun (r : PreparedGitEffect) (q : WorkQuery) : Prop :=
  q.taskId = r.taskId ∧ ∃ run ∈ q.activeRun, run.runId = r.runId ∧ run.leaseId = r.leaseId ∧ run.fence = r.fence

def HoldsResource (r : PreparedGitEffect) (q : WorkQuery) : Prop :=
  ∃ c ∈ q.resourceClaim, c.resourceKey = r.resourceKey ∧ c.leaseId = r.leaseId ∧ c.fence = r.fence ∧ c.state = .held

def requireRun (r : PreparedGitEffect) (q : Option WorkQuery) : Outcome WorkQuery := do
  let q ← need (q.filter fun q => q.taskId = r.taskId) "work_binding_mismatch"
    "M7a effect is not bound to the canonical WorkItem"
  let run ← need (q.activeRun.filter fun run => run.runId = r.runId) "active_run_required"
    "Git ref effect requires the exact active Run"
  require (run.leaseId = r.leaseId ∧ run.fence = r.fence) "run_ownership_mismatch" "Git ref effect Run lease/fence changed"
  pure q

def requireClaim (r : PreparedGitEffect) (q : WorkQuery) : Outcome Unit := do
  let c ← need q.resourceClaim "resource_claim_required" "Git ref effect requires its exact held Work Kernel resource claim"
  require (c.resourceKey = r.resourceKey ∧ c.leaseId = r.leaseId ∧ c.fence = r.fence ∧ c.state = .held)
    "resource_claim_required" "Git ref effect requires its exact held Work Kernel resource claim"

/-! ## The shared stores -/

/-- A repository as it can be opened now; its refs can be out of reach for a while. -/
structure OpenedRepository where
  repositoryId : String
  identityDigest : String
  objectFormat : String
  trouble : Option String
deriving DecidableEq

structure EffectWorld (T : Type) where
  kernel : Work.WorkKernelStore T
  clock : T
  effects : Table PreparedGitEffect (·.workId)
  refs : Refs
  objects : GitObjects
  repositories : String → Option OpenedRepository
  authority : Authority

/-- What the adapter works with. -/
structure GitRuntime where
  runtime : Runtime
  names : GitNames
  normalized : CommitMetadataPolicy → Outcome CommitMetadataPolicy
  checkRefFormat : String → Bool
  allowedRefPrefix : String

variable {T : Type} [Work.Seconds T]

namespace EffectWorld

def effect (w : EffectWorld T) (effectId : String) : Option PreparedGitEffect := w.effects.find fun r => r.effectId == effectId

def query (w : EffectWorld T) (workId : String) : Option WorkQuery :=
  (w.kernel.workItems.get workId).map fun row => ⟨row.taskId,w.kernel.activeRun workId,w.kernel.heldClaim workId⟩

def observe (w : EffectWorld T) (r : PreparedGitEffect) : Outcome (Option Oid) := do
  let found ← need (w.repositories r.repositoryRoot) "repository_unavailable" "prepared Git repository cannot be reopened"
  require (found.identityDigest = r.repositoryIdentityDigest ∧ found.objectFormat = r.objectFormat)
    "repository_identity_mismatch" "prepared Git repository identity changed"
  match found.trouble with
  | some code => fail code "Git ref observation failed"
  | none => pure (w.refs.lookup r.place)

def observeRef (w : EffectWorld T) (repository : RepositoryResource) (targetRef : String) : Outcome (Option Oid) :=
  match (w.repositories repository.root).bind (·.trouble) with
  | some code => fail code "Git ref observation failed"
  | none => .ok (w.refs.lookup ⟨repository.identityDigest,targetRef⟩)

def insertEffect (w : EffectWorld T) (r : PreparedGitEffect) : EffectWorld T × Outcome Unit :=
  if ∃ other ∈ w.effects.rows, other.effectId = r.effectId ∨ other.resourceKey = r.resourceKey then
    (w,fail "integrity_error" "UNIQUE constraint failed")
  else
    match w.effects.insert r with
    | none => (w,fail "integrity_error" "UNIQUE constraint failed")
    | some effects => ({ w with effects := effects },.ok ())

def updateEffect (w : EffectWorld T) (p : PreparedGitEffect → Bool) (state : EffectState) (certainty : EffectCertainty)
    (observed : PreparedGitEffect → Option Oid) (reason : PreparedGitEffect → String) : EffectWorld T :=
  { w with
    effects := w.effects.change
      (fun r => if p r = true then
        { r with state := state, effectCertainty := certainty, observedRefOid := observed r, reason := reason r } else r)
      (fun r => by split <;> rfl) }

def persistObservation (w : EffectWorld T) (r : PreparedGitEffect) (certainty : EffectCertainty) (observed : Option Oid)
    (reason : String) : EffectWorld T :=
  w.updateEffect (fun row => row.workId = r.workId ∧ row.effectId = r.effectId) (stateOf r certainty) certainty
    (fun _ => observed) (fun _ => reason)

def markPossible (w : EffectWorld T) (r : PreparedGitEffect) : EffectWorld T × Outcome Unit :=
  if ∃ row ∈ w.effects.rows, row.workId = r.workId ∧ row.effectId = r.effectId ∧ row.effectCertainty = .before then
    (w.updateEffect (fun row => row.workId = r.workId ∧ row.effectId = r.effectId ∧ row.effectCertainty = .before)
      .possible .possible (·.observedRefOid) (·.reason),.ok ())
  else (w,fail "git_effect_state_conflict" "Git effect certainty changed before boundary marker")

end EffectWorld

/-- How a run of git ends: with its answer, refused for another reason, or lost before or after
it acted. -/
inductive CasFate where
  | ran
  | refused
  | lostBefore
  | lostAfter
deriving DecidableEq

def EffectWorld.casUpdate (w : EffectWorld T) (r : PreparedGitEffect) (fate : CasFate) : EffectWorld T × Outcome Bool :=
  let swapped := w.refs.updateRef r.place r.preparedCommitOid r.expected
  match fate with
  | .ran => ({ w with refs := swapped.1 },.ok swapped.2)
  | .refused => (w,.ok false)
  | .lostBefore => (w,fail "git_effect_unknown" "Git operation timed out during exact ref compare-and-swap")
  | .lostAfter =>
    ({ w with refs := swapped.1 },fail "git_effect_unknown" "Git operation timed out during exact ref compare-and-swap")

/-! ## Objects of a candidate -/

variable (g : GitRuntime)

def bindPath (a : Authority) (candidate : CandidateRepoView) (index : List TreeEntry) (plan : PathBinding) :
    Outcome (List TreeEntry) :=
  match plan.after with
  | none => .ok (index.filter fun e => e.path ≠ plan.path)
  | some (ref, mode) => do
    let payload ← need (a.content ref) "candidate_content_unavailable"
      "Candidate after bytes are unavailable for Git object preparation"
    let entry ← need (candidate.entries.find? fun e => e.path = plan.path) "candidate_missing_path"
      ("Candidate RepoView does not contain path: " ++ plan.path)
    require (g.names.blob payload = entry.objectOid) "prepared_blob_mismatch" "Git blob identity differs from sealed Candidate"
    pure (index.filter (fun e => e.path ≠ plan.path) ++
      [⟨plan.path,g.names.blob payload,if mode &&& 0o111 ≠ 0 then "100755" else "100644"⟩])

def sortedEntries (entries : List TreeEntry) : List TreeEntry := entries.insertionSort fun a b => a.path ≤ b.path

def entriesDigest (entries : List TreeEntry) : String :=
  Evidence.semanticDigest g.runtime [("schema",.str "bdb-vnext-candidate-repo-view-v2"),
    ("entries",.arr (entries.map fun e => .arr [.str e.path,.str e.objectOid,.str e.mode]))]

def materializeTree (w : EffectWorld T) (candidate : CandidateRepoView) : EffectWorld T × Outcome Oid :=
  match (do
      let base ← need (w.objects.trees.lookup candidate.baseTreeOid) "git_command_failed"
        "Git command failed during temporary index base load"
      candidate.pathBindings.foldlM (bindPath g w.authority candidate) base : Outcome (List TreeEntry)) with
  | .error e => (w,.error e)
  | .ok index =>
    let written := w.objects.writeTree g.names index
    ({ w with objects := written.1 },do
      require (entriesDigest g candidate.entries = candidate.candidateTreeDigest) "candidate_tree_integrity_failure"
        "sealed Candidate tree digest is inconsistent"
      let entries ← need (written.1.trees.lookup written.2) "git_command_failed"
        "Git command failed during prepared tree verification"
      require (entriesDigest g (sortedEntries entries) = candidate.candidateTreeDigest) "prepared_tree_mismatch"
        "prepared Git tree differs from sealed Candidate tree"
      pure written.2)

def materializeCommit (w : EffectWorld T) (treeOid baseCommitOid : Oid) (metadata : CommitMetadataPolicy) :
    EffectWorld T × Outcome Oid :=
  if baseCommitOid ∈ w.objects.commits then
    let written := w.objects.writeCommit g.names ⟨treeOid,[baseCommitOid],metadata⟩
    ({ w with objects := written.1 },do
      let found ← need (written.1.commits.lookup written.2) "git_command_failed"
        "Git command failed during prepared commit tree verification"
      require (found.tree = treeOid ∧ found.parents = [baseCommitOid]) "prepared_commit_mismatch"
        "prepared commit is not the exact Candidate child commit"
      pure written.2)
  else (w,fail "git_command_failed" "Git command failed during prepared commit write")

end Bdb.Effects
