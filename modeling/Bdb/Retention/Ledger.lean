import Bdb.Base.Runs
import Bdb.Retention.Interruption
import Bdb.Retention.Trails

/-! # What compaction must not lose

A ledger beside the store keeps what was registered, pruned and appended. Nothing is lost
when entities of other classes are kept, what is pruned is found under a committed
manifest, and snapshots have their digest and sequence number. A compaction is sound when
its revision is new and the newest event resident, or when repeating it does no harm.
-/
namespace Bdb.Retention

open Json

/-- A connection with its calls' record: the entities as they were last registered, every
entity that was pruned, and the number of events appended when each snapshot was stored. -/
structure Ledger where
  watched : Watched
  registered : String → Option ManagedEntity
  pruned : List ManagedEntity
  marks : String → ℕ

namespace Ledger

def store (l : Ledger) : RetentionStore := l.watched.store

def initial : Ledger := ⟨.initial,fun _ => none,[],fun _ => 0⟩

end Ledger

def RetentionCall.registers : RetentionCall → String → Bool
  | registerEntity _ r _, entityId => r.entityId == entityId
  | _, _ => false

variable (rt : Runtime)

def Ledger.next (l : Ledger) (call : RetentionCall) : Ledger :=
  let w := l.watched.next rt call
  { watched := w
    registered := fun id => if call.registers id then w.store.managedEntities.get id else l.registered id
    pruned := l.pruned ++ l.store.managedEntities.rows.filter fun e => (w.store.managedEntities.get e.entityId).isNone
    marks := fun id => if (l.store.stateSnapshots.get id).isSome then l.marks id
      else match w.store.stateSnapshots.get id with
        | some x => (eventsIn x.projectId w.appended).length
        | none => 0 }

def ledgerRun (calls : List RetentionCall) : Ledger := calls.foldl (Ledger.next rt) .initial

/-! ## What is found where -/

def Snapshotted (x : StateSnapshot) (e : ManagedEntity) : Prop :=
  ∃ fields records, x.snapshotData = canon (.obj (fields ++ [("entities",.arr records)])) ∧ entityJson e ∈ records

def Archives (b : ContentBlob) (e : SegmentedEvent Json) : Prop :=
  ∃ records, b.payload = canonicalJsonStr (.obj [("segment_id",.str e.segmentId),("events",.arr records)]) ∧
    archivedEventJson e ∈ records

def ArchivedUnder (s : RetentionStore) (m : CompactionManifest) (e : SegmentedEvent Json) : Prop :=
  ∃ ref ∈ m.archivedContentRefs, ∃ b, s.contentBlobs.get ref = some b ∧ Archives b e

def EntitySaved (s : RetentionStore) (e : ManagedEntity) : Prop :=
  ∃ m ∈ s.compactionManifests.rows, m.status = .committed ∧
    ∃ x, s.stateSnapshots.get m.snapshotId = some x ∧ Snapshotted x e

def EventSaved (s : RetentionStore) (e : SegmentedEvent Json) : Prop :=
  ∃ m ∈ s.compactionManifests.rows, m.status = .committed ∧ ArchivedUnder s m e

/-- Entities of other classes are kept as they were registered; pruned entities and events are
saved; snapshots are the ones their committed manifests name, and are numbered by the events
appended. -/
structure LosesNothing (l : Ledger) : Prop where
  kept : ∀ id e, l.registered id = some e → e.retentionClass ≠ .archivable → l.store.managedEntities.get id = some e
  entities : ∀ e ∈ l.pruned, EntitySaved l.store e
  events : ∀ e ∈ l.watched.appended, e ∉ l.store.segmentedEvents.rows → EventSaved l.store e
  digests : ∀ m ∈ l.store.compactionManifests.rows, m.status = .committed →
    ∃ x, l.store.stateSnapshots.get m.snapshotId = some x ∧ m.snapshotDigest = rt.sha256 (canonicalJsonStr x.snapshotData)
  sequences : ∀ x ∈ l.store.stateSnapshots.rows, x.lastAuditSequence = l.marks x.snapshotId

/-! ## Sound compactions -/

/-- The texts that are stored as contents, and those that the compaction is going to store. -/
def contentTexts (projectId : String) (s : RetentionStore) : List (List Char) :=
  s.contentBlobs.rows.map (·.payload) ++
    (s.sealedSegments projectId).map fun sid => canonicalJsonStr (segmentBlob sid (s.eventsOf sid))

/-- The digest tells these texts apart. -/
def Distinguished (projectId : String) (s : RetentionStore) : Prop :=
  ∀ x ∈ contentTexts projectId s, ∀ y ∈ contentTexts projectId s, rt.sha256 x = rt.sha256 y → x = y

def NewestResident (projectId : String) (w : Watched) : Prop :=
  ∀ e, (eventsIn projectId w.appended).getLast? = some e → e ∈ w.store.segmentedEvents.rows

def Replaceable (w : Watched) (m : CompactionManifest) : Prop :=
  ∀ e ∈ w.appended, ArchivedUnder w.store m e → e ∈ w.store.segmentedEvents.rows ∨
    ∃ m' ∈ w.store.compactionManifests.rows, m' ≠ m ∧ m'.status = .committed ∧ ArchivedUnder w.store m' e

/-- A revision that was used before: the archivable entities are in its snapshot, and its manifest's
contents can be replaced. -/
def Repeatable (projectId compactionId : String) (w : Watched) (x : StateSnapshot) : Prop :=
  (∀ e ∈ w.store.managedEntities.rows, e.projectId = projectId → e.retentionClass = .archivable → Snapshotted x e) ∧
    ∀ m, w.store.compactionManifests.get compactionId = some m → m.status = .committed → Replaceable w m

/-- A manifest that is committed is not reopened, and nothing is left deleted without a commit. -/
def Uninterrupted (projectId compactionId : String) (s : RetentionStore) : Option FaultStage → Prop
  | none => True
  | some .E => True
  | some .D => (∀ m, s.compactionManifests.get compactionId = some m → m.status ≠ .committed) ∧ ¬ Prunable projectId s
  | some _ => ∀ m, s.compactionManifests.get compactionId = some m → m.status ≠ .committed

/-- The compaction is of a new revision while the newest event is resident, or it repeats one
without harm. -/
def Sound (l : Ledger) : RetentionCall → Prop
  | .executeCompaction projectId revision fault _ =>
    Distinguished rt projectId l.store ∧
      Uninterrupted projectId ("cmp-" ++ revisionSuffix projectId revision) l.store fault ∧
      match l.store.stateSnapshots.get ("snap-" ++ revisionSuffix projectId revision) with
      | none => NewestResident projectId l.watched
      | some x => Repeatable projectId ("cmp-" ++ revisionSuffix projectId revision) l.watched x
  | _ => True

end Bdb.Retention
