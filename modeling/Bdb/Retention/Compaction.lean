import Bdb.Retention.Store

/-! # Snapshots, compaction and its reconciliation

A compaction stores a snapshot and a manifest, archives the events of the sealed segments
as contents, prunes them together with the archivable entities, and commits once the
logical state is seen to be the same. It can be stopped at five boundaries.
-/
namespace Bdb.Retention

open Json

variable (rt : Runtime)

/-! ## The logical state -/

def taskJson : Option String → Json
  | some t => .str t
  | none => .null

def entityJson (e : ManagedEntity) : Json :=
  .obj [("entity_id",.str e.entityId),("entity_type",.str e.entityType),("task_id",taskJson e.taskId),
    ("status",.str e.status),("retention_class",.str e.retentionClass.value),("payload",e.payload)]

namespace RetentionStore

def entitiesOf (s : RetentionStore) (projectId : String) : List ManagedEntity :=
  s.managedEntities.rows.filter fun e => e.projectId == projectId

def logicalEntities (s : RetentionStore) (projectId : String) : List ManagedEntity :=
  ((s.entitiesOf projectId).filter fun e => e.retentionClass == .active || e.retentionClass == .unresolved).insertionSort
    (fun e f => e.entityId ≤ f.entityId)

def computeLogicalStateDigest (s : RetentionStore) (projectId : String) : String :=
  "sha256:" ++ rt.sha256 (canonicalJsonStr (.obj [("project_id",.str projectId),
    ("entities",.arr ((s.logicalEntities projectId).map entityJson))]))

def countOf (s : RetentionStore) (projectId : String) (c : RetentionClass) : ℕ :=
  (s.entitiesOf projectId).countP fun e => e.retentionClass == c

def lastAuditSequence (s : RetentionStore) (projectId : String) : ℕ :=
  match (s.segmentedEvents.rows.filter fun e => e.projectId == projectId).argmax (·.sequenceNumber) with
  | some e => e.sequenceNumber
  | none => 0

def chainDigest (s : RetentionStore) (projectId : String) : String :=
  match (s.auditSegments.rows.filter fun g => g.projectId == projectId).argmax (·.sequenceEnd) with
  | some g => g.segmentDigest
  | none => zeroDigest

def sealedSegments (s : RetentionStore) (projectId : String) : List String :=
  ((projectSegments s.auditSegments.rows projectId).filter (·.isSealed)).map (·.segmentId)

end RetentionStore

/-! ## Snapshots -/

def revisionSuffix (projectId : String) (revision : Int) : String := projectId ++ "-rev" ++ padded 6 revision

def snapshotOf (projectId : String) (revision : Int) (now : String) (s : RetentionStore) : StateSnapshot :=
  let snapshotId := "snap-" ++ revisionSuffix projectId revision
  let stateDigest := s.computeLogicalStateDigest rt projectId
  ⟨snapshotId,projectId,revision,s.lastAuditSequence projectId,s.chainDigest projectId,stateDigest,
    canon (.obj [("snapshot_id",.str snapshotId),("project_id",.str projectId),("revision",.int revision),
      ("state_digest",.str stateDigest),("entities",.arr ((s.entitiesOf projectId).map entityJson))]),now⟩

def RetentionStore.insertSnapshot (snapshot : StateSnapshot) (s : RetentionStore) : Outcome RetentionStore :=
  match s.stateSnapshots.get snapshot.snapshotId with
  | some _ => .ok s
  | none => do
    let snapshots ← integrityError "state_snapshots.snapshot_id" (s.stateSnapshots.insert snapshot)
    pure { s with stateSnapshots := snapshots }

def createSnapshot (projectId : String) (revision : Int) (now : String) : Db StateSnapshot := do
  let snapshot ← Connection.read fun s => .ok (snapshotOf rt projectId revision now s)
  Connection.write (RetentionStore.insertSnapshot snapshot)
  pure snapshot

/-! ## Compaction -/

inductive FaultStage where
  | A
  | B
  | C
  | D
  | E
deriving DecidableEq

def FaultStage.message : FaultStage → String
  | A => "fault_injected_at_stage_A"
  | B => "fault_injected_at_stage_B"
  | C => "fault_injected_at_stage_C"
  | D => "fault_injected_at_stage_D"
  | E => "fault_injected_at_stage_E"

/-- The clock readings of one compaction. -/
structure CompactionClock where
  prepared : String
  snapshot : String
  archived : ℕ → String
  verified : String

structure CompactionAnswer where
  done : Bool
  manifest : Option CompactionManifest
  message : String

namespace RetentionStore

def prepareManifest (m : CompactionManifest) (s : RetentionStore) : Outcome RetentionStore :=
  match s.compactionManifests.get m.compactionId with
  | some old => .ok { s with compactionManifests := s.compactionManifests.put { old with status := .prepared } }
  | none => do
    let manifests ← integrityError "compaction_manifests.compaction_id" (s.compactionManifests.insert m)
    pure { s with compactionManifests := manifests }

def updateManifest (compactionId : String) (f : CompactionManifest → CompactionManifest)
    (hf : ∀ m, (f m).compactionId = m.compactionId) (s : RetentionStore) : RetentionStore :=
  { s with
    compactionManifests := s.compactionManifests.change (fun m => if m.compactionId = compactionId then f m else m) (by
      intro m
      split
      · exact hf m
      · rfl) }

def markArchived (compactionId : String) (refs : List String) (s : RetentionStore) : RetentionStore :=
  s.updateManifest compactionId (fun m => { m with archivedContentRefs := refs, status := .archived }) fun _ => rfl

def markCommitted (compactionId verifiedAt : String) (s : RetentionStore) : RetentionStore :=
  s.updateManifest compactionId (fun m => { m with status := .committed, verifiedAt := some verifiedAt }) fun _ => rfl

def markRolledBack (compactionId : String) (s : RetentionStore) : RetentionStore :=
  s.updateManifest compactionId (fun m => { m with status := .rolledBack }) fun _ => rfl

def eventsOf (s : RetentionStore) (segmentId : String) : List (SegmentedEvent Json) :=
  (s.segmentedEvents.rows.filter fun e => e.segmentId == segmentId).insertionSort
    (fun e f => e.sequenceNumber ≤ f.sequenceNumber)

end RetentionStore

def archivedEventJson (e : SegmentedEvent Json) : Json :=
  .obj [("id",.str e.eventId),("seq",.int e.sequenceNumber),("type",.str e.eventType),("payload",e.payload)]

def segmentBlob (segmentId : String) (events : List (SegmentedEvent Json)) : Json :=
  .obj [("segment_id",.str segmentId),("events",.arr (events.map archivedEventJson))]

/-- Stores the contents of the segments, one after the other. -/
def archiveSegments (archivedAt : ℕ → String) : ℕ → List String → Db (List String)
  | _, [] => pure []
  | n, sid :: rest => do
    let events ← Connection.read fun s => .ok (s.eventsOf sid)
    let ref ← storeContent rt (canonicalJsonStr (segmentBlob sid events)) (archivedAt n)
    let refs ← archiveSegments archivedAt (n + 1) rest
    pure (ref :: refs)

def RetentionStore.prune (projectId : String) (segmentIds : List String) (s : RetentionStore) : RetentionStore :=
  { s with
    managedEntities := s.managedEntities.remove fun e => e.projectId == projectId && e.retentionClass == .archivable
    segmentedEvents := s.segmentedEvents.remove fun e => segmentIds.contains e.segmentId }

def interrupted (manifest : CompactionManifest) (stage : FaultStage) : CompactionAnswer :=
  ⟨false,some manifest,stage.message⟩

def refused (message : String) : CompactionAnswer := ⟨false,none,message⟩

def preparedManifest (projectId : String) (revision : Int) (now : String) (s : RetentionStore) (snapshot : StateSnapshot) :
    CompactionManifest where
  compactionId := "cmp-" ++ revisionSuffix projectId revision
  projectId := projectId
  sourceRevision := revision
  sourceSegments := s.sealedSegments projectId
  sourceDigest := snapshot.prevChainDigest
  snapshotId := snapshot.snapshotId
  snapshotDigest := rt.sha256 (canonicalJsonStr snapshot.snapshotData)
  archivedContentRefs := []
  retainedActiveCount := s.countOf projectId .active
  retainedUnresolvedCount := s.countOf projectId .unresolved
  resultDigest := s.computeLogicalStateDigest rt projectId
  status := .prepared
  createdAt := now
  verifiedAt := none

def executeCompaction (projectId : String) (revision : Int) (faultStage : Option FaultStage) (clock : CompactionClock) :
    Db CompactionAnswer := do
  let before ← Connection.read fun s => .ok s
  let preDigest := before.computeLogicalStateDigest rt projectId
  let snapshot ← createSnapshot rt projectId revision clock.snapshot
  let manifest := preparedManifest rt projectId revision clock.prepared before snapshot
  Connection.write (RetentionStore.prepareManifest manifest)
  if faultStage = some .A then pure (interrupted manifest .A)
  else do
    let refs ← archiveSegments rt clock.archived 0 manifest.sourceSegments
    Connection.write fun s => .ok (s.markArchived manifest.compactionId refs)
    if faultStage = some .B then pure (interrupted manifest .B)
    else do
      let stored ← Connection.read fun s => .ok s
      if ∃ ref ∈ refs, stored.hasContent ref = false then pure (refused "archived_content_missing_in_cas")
      else if faultStage = some .C then pure (interrupted manifest .C)
      else do
        Connection.execute fun s => .ok (s.prune projectId manifest.sourceSegments)
        if faultStage = some .D then pure (interrupted manifest .D)
        else do
          let after ← Connection.read fun s => .ok s
          let postDigest := after.computeLogicalStateDigest rt projectId
          if postDigest ≠ preDigest then
            pure (refused ("logical_digest_parity_failed (" ++ preDigest ++ " != " ++ postDigest ++ ")"))
          else if after.countOf projectId .active ≠ manifest.retainedActiveCount ∨
              after.countOf projectId .unresolved ≠ manifest.retainedUnresolvedCount then
            pure (refused "active_or_unresolved_records_lost_during_compaction")
          else do
            Connection.write fun s => .ok (s.markCommitted manifest.compactionId clock.verified)
            if faultStage = some .E then pure (interrupted manifest .E)
            else
              pure ⟨true,some { manifest with
                archivedContentRefs := refs
                retainedActiveCount := after.countOf projectId .active
                retainedUnresolvedCount := after.countOf projectId .unresolved
                resultDigest := postDigest
                status := .committed
                verifiedAt := some clock.verified },"compaction_committed_with_verified_parity"⟩

/-! ## Reconciliation -/

def reconcileInterruptedCompaction (compactionId : String) : Db (String × String) := do
  let found ← Connection.read fun s => .ok (s.compactionManifests.get compactionId)
  match found with
  | none => pure ("UNKNOWN","no_manifest_found")
  | some m =>
    if m.status = .committed then pure ("COMMITTED","already_verified")
    else do
      Connection.write fun s => .ok (s.markRolledBack compactionId)
      pure ("ROLLED_BACK","rolled_back_to_uncompacted_state")

end Bdb.Retention
