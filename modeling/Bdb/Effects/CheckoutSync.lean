import Bdb.Effects.GitAdapter

/-! # Synchronising a checkout with a promotion

A second adapter brings one checkout from the old tree of a promotion that is done to the new
one. It works on the same stores as the first, with its own rows, each of which has its own work
item, lease and fence.
-/
namespace Bdb.Effects

/-! ## Records -/

structure CheckoutObservation where
  headRef : Option String
  headOid : Option Oid
  indexTreeOid : Option Oid
  trackedMatches : Option Bool
  untrackedPaths : List String
  reason : String
deriving DecidableEq

structure CheckoutSyncEffect where
  workId : String
  taskId : String
  runId : String
  effectId : String
  sourcePromotionEffectId : String
  sourceRef : String
  sourceCommitOid : Oid
  oldCommitOid : Oid
  oldTreeOid : Oid
  newTreeOid : Oid
  repositoryId : String
  repositoryIdentityDigest : String
  checkoutRoot : String
  objectFormat : String
  changedPaths : List (String × String)
  resourceKey : String
  state : EffectState
  effectCertainty : EffectCertainty
  observation : Option CheckoutObservation
  leaseId : String
  fence : ℕ
deriving DecidableEq

namespace CheckoutSyncEffect

/-- The row as it was prepared, whatever was observed since. -/
def identity (r : CheckoutSyncEffect) : CheckoutSyncEffect :=
  { r with state := .prepared, effectCertainty := .before, observation := none }

def place (r : CheckoutSyncEffect) : String × String := (r.repositoryIdentityDigest,r.checkoutRoot)

end CheckoutSyncEffect

/-- What git finds of a checkout; a part that it cannot read is absent. -/
structure Checkout where
  headRef : Option String
  headOid : Oid
  indexTreeOid : Option Oid
  trackedMatches : Option Bool
  untrackedPaths : Option (List String)
deriving DecidableEq

def Checkout.observation (c : Checkout) : CheckoutObservation :=
  match c.indexTreeOid, c.trackedMatches, c.untrackedPaths with
  | none, _, _ => ⟨c.headRef,some c.headOid,none,none,[],"index_tree_unavailable"⟩
  | some tree, none, _ => ⟨c.headRef,some c.headOid,some tree,none,[],"tracked_worktree_unavailable"⟩
  | some tree, some tracked, none => ⟨c.headRef,some c.headOid,some tree,some tracked,[],"untracked_worktree_unavailable"⟩
  | some tree, some tracked, some untracked =>
    ⟨c.headRef,some c.headOid,some tree,some tracked,untracked,"exact_checkout_observation"⟩

def classify (r : CheckoutSyncEffect) (o : CheckoutObservation) : EffectCertainty :=
  if o.reason ≠ "exact_checkout_observation" then .ambiguous
  else if o.headRef ≠ some r.sourceRef ∨ o.headOid ≠ some r.sourceCommitOid ∨ o.trackedMatches ≠ some true ∨
      o.untrackedPaths ≠ [] then .diverged
  else if o.indexTreeOid = some r.newTreeOid then .after
  else if o.indexTreeOid = some r.oldTreeOid then .before
  else .diverged

def checkoutStateOf (r : CheckoutSyncEffect) : EffectCertainty → EffectState
  | .after => .after
  | .diverged => .diverged
  | .ambiguous => .unknown
  | _ => if r.state = .possible then .possible else .prepared

/-! ## The stores of both adapters -/

structure PromotionWorld (T : Type) where
  git : EffectWorld T
  syncs : Table CheckoutSyncEffect (·.workId)
  checkouts : String → Outcome Checkout

variable {T : Type}

namespace PromotionWorld

def insertSync (w : PromotionWorld T) (r : CheckoutSyncEffect) : PromotionWorld T × Outcome Unit :=
  if ∃ other ∈ w.syncs.rows, other.effectId = r.effectId ∨ other.resourceKey = r.resourceKey then
    (w,fail "integrity_error" "UNIQUE constraint failed")
  else
    match w.syncs.insert r with
    | none => (w,fail "integrity_error" "UNIQUE constraint failed")
    | some syncs => ({ w with syncs := syncs },.ok ())

def updateSync (w : PromotionWorld T) (p : CheckoutSyncEffect → Bool) (state : EffectState) (certainty : EffectCertainty)
    (observation : CheckoutSyncEffect → Option CheckoutObservation) : PromotionWorld T :=
  { w with
    syncs := w.syncs.change
      (fun r => if p r = true then { r with state := state, effectCertainty := certainty, observation := observation r } else r)
      (fun r => by split <;> rfl) }

def markSyncPossible (w : PromotionWorld T) (r : CheckoutSyncEffect) : PromotionWorld T × Outcome Unit :=
  if ∃ row ∈ w.syncs.rows, row.workId = r.workId ∧ row.effectId = r.effectId ∧ row.effectCertainty = .before then
    (w.updateSync (fun row => row.workId = r.workId ∧ row.effectId = r.effectId ∧ row.effectCertainty = .before)
      .possible .possible (·.observation),.ok ())
  else (w,fail "checkout_effect_state_conflict" "checkout effect certainty changed before boundary marker")

def setCheckout (w : PromotionWorld T) (root : String) (c : Outcome Checkout) : PromotionWorld T :=
  { w with checkouts := fun other => if other = root then c else w.checkouts other }

end PromotionWorld

/-- How git ends when it reads the new tree: it does what it is asked to, it fails, or it is lost;
then it leaves whatever checkout. -/
inductive SyncFate where
  | ran
  | failed (left : Outcome Checkout)
  | lost (left : Outcome Checkout)

def applyCheckout (w : PromotionWorld T) (r : CheckoutSyncEffect) : SyncFate → PromotionWorld T × Outcome Bool
  | .ran =>
    match w.checkouts r.checkoutRoot with
    | .ok c =>
      if c.indexTreeOid = some r.oldTreeOid ∧ c.trackedMatches = some true then
        (w.setCheckout r.checkoutRoot (.ok { c with indexTreeOid := some r.newTreeOid }),.ok true)
      else (w,.ok false)
    | .error _ => (w,.ok false)
  | .failed left => (w.setCheckout r.checkoutRoot left,.ok false)
  | .lost left => (w.setCheckout r.checkoutRoot left,
      fail "checkout_effect_unknown" "Git operation timed out during exact checkout index/worktree synchronization")

/-! ## The change between two trees -/

def entryAt (entries : List TreeEntry) (path : String) : Option TreeEntry := entries.find? fun e => e.path = path

/-- The status letter of a path, when it changed. -/
def changeAt (old new : List TreeEntry) (path : String) : Option (String × String) :=
  match entryAt old path, entryAt new path with
  | none, none => none
  | none, some _ => some ("A",path)
  | some _, none => some ("D",path)
  | some e, some e' =>
    if (e.objectOid,e.mode) = (e'.objectOid,e'.mode) then none
    else if e.mode.toList.take 3 = e'.mode.toList.take 3 then some ("M",path)
    else some ("T",path)

def changedPaths (old new : List TreeEntry) : List (String × String) :=
  (((old ++ new).map (·.path)).dedup.insertionSort (· ≤ ·)).filterMap (changeAt old new)

structure TreeChange where
  oldTreeOid : Oid
  newTreeOid : Oid
  changed : List (String × String)
deriving DecidableEq

def treeChange (objects : GitObjects) (source : PreparedGitEffect) : Outcome TreeChange := do
  let old ← need (objects.commits.lookup source.parentCommitOid) "git_checkout_command_failed"
    "Git command failed during commit tree resolution"
  let new ← need (objects.commits.lookup source.preparedCommitOid) "git_checkout_command_failed"
    "Git command failed during commit tree resolution"
  require (new.tree = source.preparedTreeOid) "source_promotion_mismatch"
    "M7b source commit tree differs from M7a prepared tree"
  let before ← need (objects.trees.lookup old.tree) "git_checkout_command_failed"
    "Git command failed during checkout changed-path proof"
  let after ← need (objects.trees.lookup new.tree) "git_checkout_command_failed"
    "Git command failed during checkout changed-path proof"
  let changed := changedPaths before after
  require (changed ≠ [] ∨ old.tree = new.tree) "checkout_diff_malformed"
    "non-identical source trees produced no changed-path proof"
  pure ⟨old.tree,new.tree,changed⟩

/-! ## Requests -/

variable [Work.Seconds T]

inductive PromotionRequest (T : Type) where
  | git (q : GitRequest T)
  | readSyncOfWork (workId : String)
  | readSync (effectId : String)
  | treeChange (source : PreparedGitEffect)
  | observeCheckout (root : String)
  | insertSync (r : CheckoutSyncEffect)
  | persistSync (r : CheckoutSyncEffect) (certainty : EffectCertainty) (observation : CheckoutObservation)
  | markSyncPossible (r : CheckoutSyncEffect)
  | sync (r : CheckoutSyncEffect) (fate : SyncFate)
  | setCheckout (root : String) (c : Outcome Checkout)

namespace PromotionRequest

def Answer : PromotionRequest T → Type
  | git q => q.Answer
  | readSyncOfWork _ => Option CheckoutSyncEffect
  | readSync _ => Option CheckoutSyncEffect
  | treeChange _ => Outcome TreeChange
  | observeCheckout _ => Outcome CheckoutObservation
  | insertSync _ => Outcome Unit
  | persistSync _ _ _ => Unit
  | markSyncPossible _ => Outcome Unit
  | sync _ _ => Outcome Bool
  | setCheckout _ _ => Unit

def perform (g : GitRuntime) : (q : PromotionRequest T) → PromotionWorld T → PromotionWorld T × q.Answer
  | git q, w =>
    let p := q.perform g w.git
    ({ w with git := p.1 },p.2)
  | readSyncOfWork workId, w => (w,w.syncs.get workId)
  | readSync effectId, w => (w,w.syncs.find fun r => r.effectId == effectId)
  | treeChange source, w => (w,Effects.treeChange w.git.objects source)
  | observeCheckout root, w => (w,(w.checkouts root).map Checkout.observation)
  | insertSync r, w => w.insertSync r
  | persistSync r certainty observation, w =>
    (w.updateSync (fun row => row.workId = r.workId ∧ row.effectId = r.effectId) (checkoutStateOf r certainty) certainty
      (fun _ => some observation),())
  | markSyncPossible r, w => w.markSyncPossible r
  | sync r fate, w => applyCheckout w r fate
  | setCheckout root c, w => (w.setCheckout root c,())

end PromotionRequest

inductive PromotionAnswer where
  | git (r : Option PreparedGitEffect)
  | sync (r : CheckoutSyncEffect)

abbrev PromotionProgram (T : Type) [Work.Seconds T] :=
  Script (PromotionRequest T) PromotionRequest.Answer (Outcome PromotionAnswer)

abbrev SyncThen (T α : Type) [Work.Seconds T] := Outcome α → PromotionProgram T

/-! ## Reconciliation and application -/

def haltSync (code message : String) : PromotionProgram T := .done (.error ⟨code,message,[]⟩)

def sourcePromotion (effectId : String) (k : SyncThen T PreparedGitEffect) : PromotionProgram T :=
  match gitText 192 "source_promotion_effect_id" effectId with
  | .error e => k (.error e)
  | .ok _ => .ask (.git (.readEffect effectId)) fun found =>
    k (do
      let source ← need found "source_promotion_missing" "M7b source M7a promotion effect does not exist"
      require (source.state = .after ∧ source.effectCertainty = .after) "source_promotion_not_after"
        "checkout synchronization requires already-proven M7a promotion AFTER"
      pure source)

def persistSyncObservation (r : CheckoutSyncEffect) (certainty : EffectCertainty) (observation : CheckoutObservation)
    (k : SyncThen T CheckoutSyncEffect) : PromotionProgram T :=
  .ask (.persistSync r certainty observation) fun _ =>
    .ask (.readSync r.effectId) fun current => k (need current "AssertionError" "")

def reconcileSync (effectId : String) (k : SyncThen T CheckoutSyncEffect) : PromotionProgram T :=
  .ask (.readSync effectId) fun
    | none => k (fail "checkout_effect_missing" "M7b checkout effect does not exist")
    | some r => sourcePromotion r.sourcePromotionEffectId fun
      | .error e => k (.error e)
      | .ok _ => .ask (.observeCheckout r.checkoutRoot) fun
        | .ok observation => persistSyncObservation r (classify r observation) observation k
        | .error e => persistSyncObservation r .ambiguous ⟨none,none,none,none,[],e.code⟩ k

def requireSyncRun (r : CheckoutSyncEffect) (q : Option WorkQuery) : Outcome WorkQuery := do
  let q ← need (q.filter fun q => q.taskId = r.taskId) "work_binding_mismatch"
    "M7b effect is not bound to the canonical WorkItem"
  let run ← need (q.activeRun.filter fun run => run.runId = r.runId) "active_run_required"
    "checkout synchronization requires the exact active Run"
  require (run.leaseId = r.leaseId ∧ run.fence = r.fence) "run_ownership_mismatch"
    "checkout synchronization Run lease/fence changed"
  pure q

def requireSyncClaim (r : CheckoutSyncEffect) (q : WorkQuery) : Outcome Unit := do
  let c ← need q.resourceClaim "resource_claim_required"
    "checkout synchronization requires its exact held Work Kernel resource claim"
  require (c.resourceKey = r.resourceKey ∧ c.leaseId = r.leaseId ∧ c.fence = r.fence ∧ c.state = .held)
    "resource_claim_required" "checkout synchronization requires its exact held Work Kernel resource claim"

def assertSyncRun (r : CheckoutSyncEffect) (k : SyncThen T Unit) : PromotionProgram T :=
  .ask (.git (.query r.workId)) fun found =>
    match requireSyncRun r found with
    | .error e => k (.error e)
    | .ok q =>
      .ask (.git (.assertLease r.workId r.leaseId r.fence)) fun
        | .error e =>
          k (.error ⟨"stale_fence","checkout synchronization lease/fence is no longer current",[("cause",.str e.code)]⟩)
        | .ok _ => k (requireSyncClaim r q)

def concludeSync (final : CheckoutSyncEffect) (synced : Bool) : Outcome PromotionAnswer :=
  match final.effectCertainty with
  | .after => .ok (.sync final)
  | .before =>
    if synced = true then fail "checkout_reconciliation_required" "successful checkout command did not reconcile to AFTER"
    else fail "checkout_sync_failed" "checkout command failed and exact observation proves the old index/worktree remains"
  | .diverged =>
    if synced = true then fail "checkout_reconciliation_required" "successful checkout command did not reconcile to AFTER"
    else fail "checkout_diverged"
      "checkout command left or encountered unexpected local state; automatic retry is prohibited"
  | _ =>
    if synced = true then fail "checkout_reconciliation_required" "successful checkout command did not reconcile to AFTER"
    else fail "checkout_reconciliation_required" "checkout command result is ambiguous after exact observation attempt"

def syncCheckout (possible : CheckoutSyncEffect) (fate : SyncFate) : PromotionProgram T :=
  .ask (.sync possible fate) fun
    | .error e => .done (.error e)
    | .ok synced => reconcileSync possible.effectId fun
      | .error e => .done (.error e)
      | .ok final => .done (concludeSync final synced)

def promoteSync (observed : CheckoutSyncEffect) (fate : SyncFate) : PromotionProgram T :=
  assertSyncRun observed fun
    | .error e => .done (.error e)
    | .ok _ => .ask (.markSyncPossible observed) fun
      | .error e => .done (.error e)
      | .ok _ => .ask (.readSync observed.effectId) fun
        | none => haltSync "AssertionError" ""
        | some possible => assertSyncRun possible fun
          | .error e => .done (.error e)
          | .ok _ => syncCheckout possible fate

def applySyncIfSafe (effectId : String) (fate : SyncFate) : PromotionProgram T :=
  .ask (.readSync effectId) fun
    | none => haltSync "checkout_effect_missing" "M7b checkout effect does not exist"
    | some _ => reconcileSync effectId fun
      | .error e => .done (.error e)
      | .ok observed =>
        match observed.effectCertainty with
        | .after => .done (.ok (.sync observed))
        | .before => promoteSync observed fate
        | .diverged => haltSync "checkout_diverged"
            "local checkout contains unrelated or unexpected state; automatic sync is prohibited"
        | .ambiguous => haltSync "checkout_reconciliation_required" "local checkout cannot be observed exactly"
        | .possible => haltSync "checkout_reconciliation_required" "checkout effect is not proven BEFORE"

/-! ## Preparation -/

def checkoutResourceKey (rt : Runtime) (repositoryIdentityDigest checkoutRoot : String) : String :=
  "git-checkout:" ++ String.ofList ((Evidence.semanticDigest rt [("schema",.str "bdb-vnext-m7b-checkout-resource-v1"),
    ("repository_identity_digest",.str repositoryIdentityDigest),("checkout_root",.str checkoutRoot)]).toList.drop 7)

def syncIdentity (r : CheckoutSyncEffect) : Fields :=
  [("schema",.str "bdb-vnext-m7b-checkout-effect-v1"),("work_id",.str r.workId),("task_id",.str r.taskId),
    ("run_id",.str r.runId),("source_promotion_effect_id",.str r.sourcePromotionEffectId),("source_ref",.str r.sourceRef),
    ("source_commit_oid",.str r.sourceCommitOid),("old_commit_oid",.str r.oldCommitOid),("old_tree_oid",.str r.oldTreeOid),
    ("new_tree_oid",.str r.newTreeOid),("repository_id",.str r.repositoryId),
    ("repository_identity_digest",.str r.repositoryIdentityDigest),("checkout_root",.str r.checkoutRoot),
    ("object_format",.str r.objectFormat),
    ("changed_paths",.arr (r.changedPaths.map fun p => .arr [.str p.1,.str p.2])),("resource_key",.str r.resourceKey),
    ("lease_id",.str r.leaseId),("fence",.int r.fence)]

def provisional (rt : Runtime) (source : PreparedGitEffect) (workId runId : String) (run : Work.RunRecord)
    (change : TreeChange) : CheckoutSyncEffect where
  workId := workId
  taskId := source.taskId
  runId := runId
  effectId := "pending"
  sourcePromotionEffectId := source.effectId
  sourceRef := source.targetRef
  sourceCommitOid := source.preparedCommitOid
  oldCommitOid := source.parentCommitOid
  oldTreeOid := change.oldTreeOid
  newTreeOid := change.newTreeOid
  repositoryId := source.repositoryId
  repositoryIdentityDigest := source.repositoryIdentityDigest
  checkoutRoot := source.repositoryRoot
  objectFormat := source.objectFormat
  changedPaths := change.changed
  resourceKey := checkoutResourceKey rt source.repositoryIdentityDigest source.repositoryRoot
  state := .prepared
  effectCertainty := .before
  observation := none
  leaseId := run.leaseId
  fence := run.fence

def syncRow (rt : Runtime) (r : CheckoutSyncEffect) (certainty : EffectCertainty) (observation : CheckoutObservation) :
    CheckoutSyncEffect :=
  { r with
    effectId := Evidence.semanticDigest rt (syncIdentity r)
    state := if certainty = .after then .after else .prepared
    effectCertainty := certainty
    observation := some observation }

def storeSync (r : CheckoutSyncEffect) : PromotionProgram T :=
  .ask (.insertSync r) fun
    | .ok _ => .ask (.readSync r.effectId) fun found => .done ((need found "AssertionError" "").map .sync)
    | .error _ => .ask (.readSyncOfWork r.workId) fun existing =>
      match existing.filter fun e => e.effectId = r.effectId with
      | some e => .done (.ok (.sync e))
      | none => haltSync "checkout_effect_storage_conflict" "M7b checkout effect identity conflicted"

/-- The checkout is found in the old tree or the new one, its resource is claimed, and the row is
stored. -/
def prepareSyncRow (rt : Runtime) (r : CheckoutSyncEffect) : PromotionProgram T :=
  .ask (.observeCheckout r.checkoutRoot) fun
    | .error e => .done (.error ⟨"checkout_precondition_unknown",
        "M7b could not establish exact local checkout precondition",[("cause",.str e.code)]⟩)
    | .ok observation =>
      if classify r observation = .before ∨ classify r observation = .after then
        .ask (.git (.claimResource r.workId r.resourceKey r.leaseId r.fence)) fun
          | .error e => .done (.error e)
          | .ok _ => storeSync (syncRow rt r (classify r observation) observation)
      else haltSync "checkout_precondition_mismatch"
        "local checkout contains state outside the exact old/new synchronization boundary"

def prepareSyncOwned (rt : Runtime) (source : PreparedGitEffect) (workId runId : String) : PromotionProgram T :=
  .ask (.git (.query workId)) fun found =>
    match (do
        let q ← need (found.filter fun q => q.taskId = source.taskId) "work_binding_mismatch"
          "M7b WorkItem must bind the source promotion Task"
        need (q.activeRun.filter fun run => run.runId = runId) "active_run_required"
          "M7b prepare requires the exact active Run" : Outcome Work.RunRecord) with
    | .error e => .done (.error e)
    | .ok run => .ask (.git (.assertLease workId run.leaseId run.fence)) fun
      | .error e => .done (.error e)
      | .ok _ => .ask (.treeChange source) fun
        | .error e => .done (.error e)
        | .ok change => prepareSyncRow rt (provisional rt source workId runId run change)

def prepareSync (rt : Runtime) (sourceEffectId workId runId : String) : PromotionProgram T :=
  sourcePromotion sourceEffectId fun
    | .error e => .done (.error e)
    | .ok source => .ask (.git (.bindRepository source)) fun
      | .error e => .done (.error e)
      | .ok _ =>
        match (do gitText 192 "work_id" workId; gitText 192 "run_id" runId : Outcome Unit) with
        | .error e => .done (.error e)
        | .ok _ => .ask (.readSyncOfWork workId) fun
          | some existing =>
            if existing.sourcePromotionEffectId = source.effectId ∧ existing.runId = runId then .done (.ok (.sync existing))
            else haltSync "checkout_effect_identity_conflict"
              "WorkItem is already bound to another checkout synchronization effect"
          | none => prepareSyncOwned rt source workId runId

/-! ## Calls -/

inductive PromotionCall (T : Type) where
  | git (c : GitCall T)
  | prepareSync (sourceEffectId workId runId : String)
  | reconcileSync (effectId : String)
  | applySyncIfSafe (effectId : String) (fate : SyncFate)
  | setCheckout (root : String) (c : Outcome Checkout)

/-- A program of the first adapter on the stores of both. -/
def onGit (p : GitProgram T) : PromotionProgram T :=
  (p.lift PromotionRequest.git fun _ a => a).bind fun o => .done (o.map .git)

def PromotionCall.program (g : GitRuntime) : PromotionCall T → PromotionProgram T
  | .git c => onGit (c.program g)
  | .prepareSync sourceEffectId workId runId => Effects.prepareSync g.runtime sourceEffectId workId runId
  | .reconcileSync effectId => Effects.reconcileSync effectId fun o => .done (o.map .sync)
  | .applySyncIfSafe effectId fate => Effects.applySyncIfSafe effectId fate
  | .setCheckout root c => .ask (.setCheckout root c) fun _ => .done (.ok (.git none))

end Bdb.Effects
