import Bdb.Effects.GitCas

/-! # Calls of the git effect adapter

Workers prepare, reconcile and apply effects on the shared stores, each call one request at a
time. Outside of them the kernel is called, the clock goes on, refs are moved by others, and
candidates, policies and repositories change.
-/
namespace Bdb.Effects

variable {T : Type} [Work.Seconds T]

/-! ## Requests -/

structure PrepareInput where
  candidate : CandidateRepoView
  repository : RepositoryResource
  workId : String
  runId : String
  targetRef : String
  expectedOldOid : Oid
  metadata : CommitMetadataPolicy
  intentRevisionId : String
  validationPolicyDigest : String
  checkPlanDigest : String
  obligationIds : List String
  scope : String

/-- What happens besides the adapter. -/
inductive Outside (T : Type) where
  | kernel (event : Work.WorkEvent T)
  | tick (now : T)
  | moveRef (place : RefPlace) (value : Option Oid)
  | setAuthority (authority : Authority)
  | setRepositories (repositories : String → Option OpenedRepository)

inductive GitRequest (T : Type) where
  | readWork (workId : String)
  | readEffect (effectId : String)
  | readSealed (candidateId : String)
  | resolveBase (repository : RepositoryResource) (oid : Oid)
  | query (workId : String)
  | assertLease (workId leaseId : String) (fence : ℕ)
  | claimResource (workId resourceKey leaseId : String) (fence : ℕ)
  | observeRef (repository : RepositoryResource) (targetRef : String)
  | observe (r : PreparedGitEffect)
  | materializeTree (candidate : CandidateRepoView)
  | materializeCommit (treeOid baseCommitOid : Oid) (metadata : CommitMetadataPolicy)
  | insert (r : PreparedGitEffect)
  | persist (r : PreparedGitEffect) (certainty : EffectCertainty) (observed : Option Oid) (reason : String)
  | markPossible (r : PreparedGitEffect)
  | authorize (r : PreparedGitEffect) (approvalId : String)
  | bindRepository (r : PreparedGitEffect)
  | cas (r : PreparedGitEffect) (fate : CasFate)
  | outside (o : Outside T)

namespace GitRequest

def Answer : GitRequest T → Type
  | readWork _ => Option PreparedGitEffect
  | readEffect _ => Option PreparedGitEffect
  | readSealed _ => Option SealedCandidate
  | resolveBase _ _ => Option CommittedBase
  | query _ => Option WorkQuery
  | assertLease _ _ _ => Outcome Unit
  | claimResource _ _ _ _ => Outcome Unit
  | observeRef _ _ => Outcome (Option Oid)
  | observe _ => Outcome (Option Oid)
  | materializeTree _ => Outcome Oid
  | materializeCommit _ _ _ => Outcome Oid
  | insert _ => Outcome Unit
  | persist _ _ _ _ => Unit
  | markPossible _ => Outcome Unit
  | authorize _ _ => Outcome Gate
  | bindRepository _ => Outcome Unit
  | cas _ _ => Outcome Bool
  | outside _ => Unit

end GitRequest

def EffectWorld.outside (w : EffectWorld T) : Outside T → EffectWorld T
  | .kernel event => { w with kernel := w.kernel.next event }
  | .tick now => { w with clock := now }
  | .moveRef place value => { w with refs := w.refs.set place value }
  | .setAuthority authority => { w with authority := authority }
  | .setRepositories repositories => { w with repositories := repositories }

def bindRepository (w : EffectWorld T) (r : PreparedGitEffect) : Outcome Unit := do
  let found ← need (w.repositories r.repositoryRoot) "repository_unavailable" "prepared Git repository cannot be reopened"
  require (found.identityDigest = r.repositoryIdentityDigest ∧ found.objectFormat = r.objectFormat)
    "repository_identity_mismatch" "prepared Git repository identity changed"

def GitRequest.perform (g : GitRuntime) : (q : GitRequest T) → EffectWorld T → EffectWorld T × q.Answer
  | readWork workId, w => (w,w.effects.get workId)
  | readEffect effectId, w => (w,w.effect effectId)
  | readSealed candidateId, w => (w,w.authority.sealed candidateId)
  | resolveBase repository oid, w => (w,w.authority.committed repository oid)
  | query workId, w => (w,w.query workId)
  | assertLease workId leaseId fence, w => (w,(w.kernel.assertCurrentLease workId leaseId fence w.clock).map fun _ => ())
  | claimResource workId resourceKey leaseId fence, w =>
    let p := (Work.claimResource workId resourceKey leaseId fence w.clock).write none w.kernel
    ({ w with kernel := p.1 },p.2.map fun _ => ())
  | observeRef repository targetRef, w => (w,w.observeRef repository targetRef)
  | observe r, w => (w,w.observe r)
  | materializeTree candidate, w => Effects.materializeTree g w candidate
  | materializeCommit treeOid baseCommitOid metadata, w => Effects.materializeCommit g w treeOid baseCommitOid metadata
  | insert r, w => w.insertEffect r
  | persist r certainty observed reason, w => (w.persistObservation r certainty observed reason,())
  | markPossible r, w => w.markPossible r
  | authorize r approvalId, w => (w,Effects.authorize w.authority r approvalId)
  | bindRepository r, w => (w,Effects.bindRepository w r)
  | cas r fate, w => w.casUpdate r fate
  | outside o, w => (w.outside o,())

abbrev GitProgram (T : Type) := Script (GitRequest T) GitRequest.Answer (Outcome (Option PreparedGitEffect))

open GitRequest

/-! ## Reconciliation -/

/-- What the adapter goes on with after a part of a call. -/
abbrev Then (T α : Type) := Outcome α → GitProgram T

/-- The observation is stored and the row is read again. -/
def persistObservation (r : PreparedGitEffect) (certainty : EffectCertainty) (observed : Option Oid) (reason : String)
    (k : Then T PreparedGitEffect) : GitProgram T :=
  .ask (.persist r certainty observed reason) fun _ =>
    .ask (.readEffect r.effectId) fun current => k (need current "AssertionError" "")

def reconcile (effectId : String) (k : Then T PreparedGitEffect) : GitProgram T :=
  .ask (.readEffect effectId) fun
    | none => k (fail "git_effect_missing" "prepared Git effect does not exist")
    | some r =>
      .ask (.readSealed r.candidateId) fun current =>
        match assertCandidate r current with
        | .error e => k (.error e)
        | .ok _ =>
          .ask (.observe r) fun
            | .ok observed => persistObservation r (classification r observed) observed "exact_ref_observation" k
            | .error e =>
              if e.code = "git_ref_observation_failed" ∨ e.code = "git_effect_unknown" then
                persistObservation r .ambiguous none e.code k
              else k (.error e)

/-! ## Application -/

def assertActiveRun (r : PreparedGitEffect) (k : Then T Unit) : GitProgram T :=
  .ask (.query r.workId) fun found =>
    match requireRun r found with
    | .error e => k (.error e)
    | .ok q =>
      .ask (.assertLease r.workId r.leaseId r.fence) fun
        | .error e => k (.error ⟨"stale_fence","Git ref effect lease/fence is no longer current",[("cause",.str e.code)]⟩)
        | .ok _ => k (requireClaim r q)

def stop (e : Failure) : GitProgram T := .done (.error e)

/-- What the last observation of a call says. -/
def conclude (final : PreparedGitEffect) (swapped : Bool) : Outcome (Option PreparedGitEffect) :=
  match final.effectCertainty with
  | .after => .ok (some final)
  | .before =>
    if swapped = true then fail "git_reconciliation_required" "successful ref CAS did not reconcile to AFTER"
    else fail "git_ref_update_failed" "Git CAS failed and exact observation proves the old ref remains"
  | .diverged =>
    if swapped = true then fail "git_reconciliation_required" "successful ref CAS did not reconcile to AFTER"
    else fail "git_ref_diverged" "Git CAS lost to a third ref value; automatic retry is prohibited"
  | _ =>
    if swapped = true then fail "git_reconciliation_required" "successful ref CAS did not reconcile to AFTER"
    else fail "git_reconciliation_required" "Git CAS result is ambiguous after exact observation attempt"

/-- The ref is swapped under the stored mark, and observed once more. -/
def swap (possible : PreparedGitEffect) (fate : CasFate) : GitProgram T :=
  .ask (.cas possible fate) fun
    | .error e => stop e
    | .ok swapped => reconcile possible.effectId fun
      | .error e => stop e
      | .ok final => .done (conclude final swapped)

def promote (observed : PreparedGitEffect) (approvalId : String) (fate : CasFate) : GitProgram T :=
  assertActiveRun observed fun
    | .error e => stop e
    | .ok _ => .ask (.readSealed observed.candidateId) fun current =>
      match assertCandidate observed current with
      | .error e => stop e
      | .ok _ => .ask (.authorize observed approvalId) fun
        | .error e => stop e
        | .ok _ => .ask (.bindRepository observed) fun
          | .error e => stop e
          | .ok _ => .ask (.markPossible observed) fun
            | .error e => stop e
            | .ok _ => .ask (.readEffect observed.effectId) fun
              | none => stop ⟨"AssertionError","",[]⟩
              | some possible => assertActiveRun possible fun
                | .error e => stop e
                | .ok _ => swap possible fate

def applyIfSafe (effectId approvalId : String) (fate : CasFate) : GitProgram T :=
  .ask (.readEffect effectId) fun
    | none => stop ⟨"git_effect_missing","prepared Git effect does not exist",[]⟩
    | some _ => reconcile effectId fun
      | .error e => stop e
      | .ok observed =>
        match observed.effectCertainty with
        | .after => .done (.ok (some observed))
        | .before => promote observed approvalId fate
        | .diverged => stop ⟨"git_ref_diverged",
            "target Git ref is neither the expected old OID nor the prepared commit",[]⟩
        | .ambiguous => stop ⟨"git_reconciliation_required","target Git ref cannot be observed exactly",[]⟩
        | .possible => stop ⟨"git_reconciliation_required","Git effect is not proven BEFORE",[]⟩

/-! ## Preparation -/

def gitText (maximum : ℕ) (field value : String) : Outcome Unit :=
  require (value ≠ "" ∧ value.toList.length ≤ maximum ∧ value.toList.all (32 ≤ ·.toNat)) "invalid_git_effect_input"
    (field ++ " must be bounded non-empty text")

def lowerHex (c : Char) : Bool := c.isDigit || ('a' ≤ c && c ≤ 'f')

def gitDigest (field value : String) : Outcome Unit :=
  require (value.toList.take 7 = "sha256:".toList ∧ value.toList.length = 71 ∧ (value.toList.drop 7).all lowerHex = true)
    "invalid_git_effect_input" (field ++ " must be exact lowercase sha256:<64 hex>")

/-- An object name of the format; the null object only where it is allowed. -/
def gitOid (objectFormat field : String) (value : Oid) : Outcome Unit := do
  require (objectFormat = "sha1" ∨ objectFormat = "sha256") "unsupported_object_format"
    "M7a supports only Git sha1/sha256 repositories"
  require (value.toList.length = (zeroOid objectFormat).toList.length ∧ value.toList.all lowerHex = true) "invalid_git_oid"
    (field ++ " is not an exact " ++ objectFormat ++ " OID")

def gitResourceKey (rt : Runtime) (repositoryIdentityDigest targetRef : String) : String :=
  "git-ref:" ++ String.ofList ((Evidence.semanticDigest rt [("schema",.str "bdb-vnext-m7a-git-resource-v1"),
    ("repository_identity_digest",.str repositoryIdentityDigest),("target_ref",.str targetRef)]).toList.drop 7)

def validateInput (g : GitRuntime) (i : PrepareInput) : Outcome CommitMetadataPolicy := do
  gitText 192 "work_id" i.workId
  gitText 192 "run_id" i.runId
  gitText 192 "intent_revision_id" i.intentRevisionId
  gitDigest "validation_policy_digest" i.validationPolicyDigest
  gitDigest "check_plan_digest" i.checkPlanDigest
  gitText 512 "scope" i.scope
  i.obligationIds.forM (gitText 192 "obligation_id")
  require (i.obligationIds ≠ []) "promotion_obligation_missing" "M7a requires at least one M6a obligation"
  let metadata ← g.normalized i.metadata
  gitText 1024 "target_ref" i.targetRef
  require (g.allowedRefPrefix.toList.isPrefixOf i.targetRef.toList = true) "production_ref_forbidden"
    "M7a build-only adapter accepts only isolated vNext refs"
  require (g.checkRefFormat i.targetRef = true) "invalid_target_ref" "target_ref is not a valid full Git ref"
  gitOid i.repository.objectFormat "expected_old_oid" i.expectedOldOid
  require (i.expectedOldOid = zeroOid i.repository.objectFormat ∨ i.expectedOldOid = i.candidate.baseCommitOid)
    "expected_ref_not_candidate_base" "M7a expected old ref must be absent or the exact Candidate base commit"
  pure metadata

def obligationsOf (i : PrepareInput) : List String := i.obligationIds.dedup.insertionSort (· ≤ ·)

/-- The row that a work item has already is the one that is asked for. -/
def sameRequest (i : PrepareInput) (metadata : CommitMetadataPolicy) (r : PreparedGitEffect) : Prop :=
  (r.candidateId,r.candidateViewId,r.repositoryIdentityDigest,r.targetRef,r.expectedOldOid,r.intentRevisionId) =
      (i.candidate.candidateId,i.candidate.viewId,i.repository.identityDigest,i.targetRef,i.expectedOldOid,
        i.intentRevisionId) ∧
    (r.validationPolicyDigest,r.checkPlanDigest,r.obligationIds,r.scope,r.commitMetadata) =
      (i.validationPolicyDigest,i.checkPlanDigest,obligationsOf i,i.scope,metadata)

instance (i : PrepareInput) (metadata : CommitMetadataPolicy) (r : PreparedGitEffect) : Decidable (sameRequest i metadata r) :=
  inferInstanceAs (Decidable (_ ∧ _))

def subjectDigest (rt : Runtime) (candidate : CandidateRepoView) : String :=
  Evidence.semanticDigest rt [("schema",.str "bdb-vnext-m6a-subject-v1"),("subject_kind",.str "CANDIDATE"),
    ("subject_identity",.obj [("candidate_id",.str candidate.candidateId),("view_id",.str candidate.viewId),
      ("manifest_digest",.str candidate.manifestDigest),("candidate_tree_digest",.str candidate.candidateTreeDigest),
      ("base_view_id",.str candidate.baseViewId),("repository_id",.str candidate.repositoryId)])]

def policyDigest (rt : Runtime) (m : CommitMetadataPolicy) : String :=
  Evidence.semanticDigest rt [("schema",.str "bdb-vnext-m7a-commit-metadata-policy-v1"),("message",.str m.message),
    ("author_name",.str m.authorName),("author_email",.str m.authorEmail),("committer_name",.str m.committerName),
    ("committer_email",.str m.committerEmail),("timestamp",.str m.timestamp)]

def effectIdentity (rt : Runtime) (r : PreparedGitEffect) : Fields :=
  [("schema",.str "bdb-vnext-m7a-git-effect-v1"),("work_id",.str r.workId),("task_id",.str r.taskId),("run_id",.str r.runId),
    ("candidate_id",.str r.candidateId),("candidate_view_id",.str r.candidateViewId),
    ("candidate_tree_digest",.str r.candidateTreeDigest),("base_view_id",.str r.baseViewId),
    ("repository_id",.str r.repositoryId),("repository_identity_digest",.str r.repositoryIdentityDigest),
    ("object_format",.str r.objectFormat),("target_ref",.str r.targetRef),("expected_old_oid",.str r.expectedOldOid),
    ("prepared_tree_oid",.str r.preparedTreeOid),("prepared_commit_oid",.str r.preparedCommitOid),
    ("parent_commit_oid",.str r.parentCommitOid),("resource_key",.str r.resourceKey),
    ("subject_digest",.str r.subjectDigest),("intent_revision_id",.str r.intentRevisionId),
    ("validation_policy_digest",.str r.validationPolicyDigest),("check_plan_digest",.str r.checkPlanDigest),
    ("obligation_ids",.arr (r.obligationIds.map .str)),("scope",.str r.scope),
    ("commit_metadata_policy_digest",.str (policyDigest rt r.commitMetadata))]

def preparedRow (g : GitRuntime) (i : PrepareInput) (metadata : CommitMetadataPolicy) (run : Work.RunRecord)
    (observed : Option Oid) (treeOid commitOid : Oid) : PreparedGitEffect :=
  let r : PreparedGitEffect :=
    { workId := i.workId
      taskId := i.candidate.taskId
      runId := i.runId
      effectId := ""
      candidateId := i.candidate.candidateId
      candidateViewId := i.candidate.viewId
      candidateTreeDigest := i.candidate.candidateTreeDigest
      baseViewId := i.candidate.baseViewId
      repositoryId := i.repository.repositoryId
      repositoryIdentityDigest := i.repository.identityDigest
      repositoryRoot := i.repository.root
      objectFormat := i.repository.objectFormat
      targetRef := i.targetRef
      expectedOldOid := i.expectedOldOid
      preparedTreeOid := treeOid
      preparedCommitOid := commitOid
      parentCommitOid := i.candidate.baseCommitOid
      resourceKey := gitResourceKey g.runtime i.repository.identityDigest i.targetRef
      subjectDigest := subjectDigest g.runtime i.candidate
      intentRevisionId := i.intentRevisionId
      validationPolicyDigest := i.validationPolicyDigest
      checkPlanDigest := i.checkPlanDigest
      obligationIds := obligationsOf i
      scope := i.scope
      commitMetadata := metadata
      state := .prepared
      effectCertainty := .before
      observedRefOid := observed
      reason := "prepared_precondition_observed"
      leaseId := run.leaseId
      fence := run.fence }
  { r with effectId := Evidence.semanticDigest g.runtime (effectIdentity g.runtime r) }

def storeEffect (r : PreparedGitEffect) : GitProgram T :=
  .ask (.insert r) fun
    | .ok _ => .ask (.readEffect r.effectId) fun found => .done ((need found "AssertionError" "").map some)
    | .error _ => .ask (.readWork r.workId) fun existing =>
      match existing.filter fun e => e.effectId = r.effectId with
      | some e => .done (.ok (some e))
      | none => stop ⟨"git_effect_storage_conflict","prepared Git effect identity conflicted",[]⟩

def prepareObjects (g : GitRuntime) (i : PrepareInput) (metadata : CommitMetadataPolicy) (run : Work.RunRecord) : GitProgram T :=
  .ask (.observeRef i.repository i.targetRef) fun
    | .error e => stop e
    | .ok observed =>
      if observed ≠ (if i.expectedOldOid = zeroOid i.repository.objectFormat then none else some i.expectedOldOid) then
        stop ⟨"git_ref_precondition_mismatch",
          "target ref does not match the exact expected old OID before preparation",[]⟩
      else .ask (.materializeTree i.candidate) fun
        | .error e => stop e
        | .ok treeOid => .ask (.materializeCommit treeOid i.candidate.baseCommitOid metadata) fun
          | .error e => stop e
          | .ok commitOid => storeEffect (preparedRow g i metadata run observed treeOid commitOid)

def prepareOwned (g : GitRuntime) (i : PrepareInput) (metadata : CommitMetadataPolicy) : GitProgram T :=
  .ask (.query i.workId) fun found =>
    match (do
        let q ← need (found.filter fun q => q.taskId = i.candidate.taskId) "work_binding_mismatch"
          "M7a WorkItem must bind the Candidate Task"
        need (q.activeRun.filter fun run => run.runId = i.runId) "active_run_required"
          "M7a prepare requires the exact active Run" : Outcome Work.RunRecord) with
    | .error e => stop e
    | .ok run => .ask (.assertLease i.workId run.leaseId run.fence) fun
      | .error e => stop e
      | .ok _ =>
        .ask (.claimResource i.workId (gitResourceKey g.runtime i.repository.identityDigest i.targetRef) run.leaseId run.fence)
          fun
          | .error e => stop e
          | .ok _ => prepareObjects g i metadata run

def prepareNew (g : GitRuntime) (i : PrepareInput) (metadata : CommitMetadataPolicy) : GitProgram T :=
  .ask (.readSealed i.candidate.candidateId) fun current =>
    match (do
        let current ← need current "candidate_not_current" "M7a prepare requires a current sealed Candidate"
        require (current.manifestDigest = i.candidate.viewId) "candidate_not_current"
          "CandidateRepoView differs from current sealed Candidate"
        require (i.repository.repositoryId = i.candidate.repositoryId ∧
            (i.repository.objectFormat = "sha1" ∨ i.repository.objectFormat = "sha256"))
          "repository_identity_mismatch" "Candidate and Git repository identity differ" : Outcome Unit) with
    | .error e => stop e
    | .ok _ => .ask (.resolveBase i.repository i.candidate.baseCommitOid) fun base =>
      match (do
          let base ← need base "candidate_base_unavailable"
            "Candidate base commit is unavailable from the prepared Git repository"
          require (base.viewId = i.candidate.baseViewId ∧ base.treeOid = i.candidate.baseTreeOid ∧
              base.repositoryIdentityDigest = i.repository.identityDigest)
            "repository_identity_mismatch" "prepared Git repository does not contain the exact Candidate base" :
          Outcome Unit) with
      | .error e => stop e
      | .ok _ => prepareOwned g i metadata

def prepare (g : GitRuntime) (i : PrepareInput) : GitProgram T :=
  match validateInput g i with
  | .error e => stop e
  | .ok metadata => .ask (.readWork i.workId) fun
    | some existing =>
      if sameRequest i metadata existing then .done (.ok (some existing))
      else stop ⟨"git_effect_identity_conflict","WorkItem is already bound to another exact Git effect",[]⟩
    | none => prepareNew g i metadata

/-! ## Calls -/

inductive GitCall (T : Type) where
  | prepare (i : PrepareInput)
  | reconcile (effectId : String)
  | applyIfSafe (effectId approvalId : String) (fate : CasFate)
  | query (effectId : String)
  | outside (o : Outside T)

def GitCall.program (g : GitRuntime) : GitCall T → GitProgram T
  | .prepare i => Effects.prepare g i
  | .reconcile effectId => Effects.reconcile effectId fun o => .done (o.map some)
  | .applyIfSafe effectId approvalId fate => Effects.applyIfSafe effectId approvalId fate
  | .query effectId => .ask (.readEffect effectId) fun found =>
    .done ((need found "git_effect_missing" "prepared Git effect does not exist").map some)
  | .outside o => .ask (.outside o) fun _ => .done (.ok none)

end Bdb.Effects
