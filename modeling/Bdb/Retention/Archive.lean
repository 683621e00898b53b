import Bdb.Retention.Interruption
import Bdb.Retention.Trails

/-! # Archives

An archive has the entities, the segments and the contents of a project, with a digest of
the logical state and a digest of itself. Restoring stores the contents and the entities,
and compares the logical state afterwards.
-/
namespace Bdb.Retention

open Json Connection

/-! ## Exporting -/

structure ArchivedEntity where
  entityId : String
  entityType : String
  taskId : Option String
  status : String
  retentionClass : RetentionClass
  payload : Json
  createdAt : String
  updatedAt : String

structure ArchivedSegment where
  segmentId : String
  sequenceStart : ℕ
  sequenceEnd : ℕ
  eventCount : ℕ
  prevSegmentDigest : String
  segmentDigest : String
  isSealed : Bool
  createdAt : String
  sealedAt : Option String

structure ArchivedBlob where
  contentRef : String
  digest : String
  sizeBytes : ℕ
  payload : List Char

structure Archive where
  archiveVersion : String
  projectId : String
  logicalStateDigest : String
  exportedAt : String
  entities : List ArchivedEntity
  segments : List ArchivedSegment
  blobs : List ArchivedBlob
  archiveDigest : String

variable (rt : Runtime)

def sealedJson : Option String → Json
  | some sealedAt => .str sealedAt
  | none => .null

def ArchivedEntity.json (e : ArchivedEntity) : Json :=
  .obj [("entity_id",.str e.entityId),("entity_type",.str e.entityType),("task_id",taskJson e.taskId),
    ("status",.str e.status),("retention_class",.str e.retentionClass.value),("payload",e.payload),
    ("created_at",.str e.createdAt),("updated_at",.str e.updatedAt)]

def ArchivedSegment.json (g : ArchivedSegment) : Json :=
  .obj [("segment_id",.str g.segmentId),("sequence_start",.int g.sequenceStart),("sequence_end",.int g.sequenceEnd),
    ("event_count",.int g.eventCount),("prev_segment_digest",.str g.prevSegmentDigest),
    ("segment_digest",.str g.segmentDigest),("is_sealed",.int (if g.isSealed then 1 else 0)),
    ("created_at",.str g.createdAt),("sealed_at",sealedJson g.sealedAt)]

def ArchivedBlob.json (b : ArchivedBlob) : Json :=
  .obj [("content_ref",.str b.contentRef),("digest",.str b.digest),("size_bytes",.int b.sizeBytes),
    ("payload",.str (String.ofList b.payload))]

def Archive.contentJson (a : Archive) : Json :=
  .obj [("archive_version",.str a.archiveVersion),("project_id",.str a.projectId),
    ("logical_state_digest",.str a.logicalStateDigest),("exported_at",.str a.exportedAt),
    ("entities",.arr (a.entities.map ArchivedEntity.json)),("segments",.arr (a.segments.map ArchivedSegment.json)),
    ("blobs",.arr (a.blobs.map ArchivedBlob.json))]

def Archive.contentDigest (a : Archive) : String := "sha256:" ++ rt.sha256 (canonicalJsonStr a.contentJson)

def ManagedEntity.archived (e : ManagedEntity) : ArchivedEntity :=
  ⟨e.entityId,e.entityType,e.taskId,e.status,e.retentionClass,e.payload,e.createdAt,e.updatedAt⟩

def AuditSegment.archived (g : AuditSegment) : ArchivedSegment :=
  ⟨g.segmentId,g.sequenceStart,g.sequenceEnd,g.eventCount,g.prevSegmentDigest,g.segmentDigest,g.isSealed,g.createdAt,
    g.sealedAt⟩

def ContentBlob.archived (b : ContentBlob) : ArchivedBlob := ⟨b.contentRef,b.digest,b.sizeBytes,b.payload⟩

def exportArchive (projectId exportedAt : String) (s : RetentionStore) : Archive :=
  let payload : Archive :=
    { archiveVersion := "1.0.0"
      projectId := projectId
      logicalStateDigest := s.computeLogicalStateDigest rt projectId
      exportedAt := exportedAt
      entities := (s.entitiesOf projectId).map ManagedEntity.archived
      segments := (s.auditSegments.rows.filter fun g => g.projectId == projectId).map AuditSegment.archived
      blobs := s.contentBlobs.rows.map ContentBlob.archived
      archiveDigest := "" }
  { payload with archiveDigest := payload.contentDigest rt }

/-! ## Restoring -/

def ArchivedBlob.restored (b : ArchivedBlob) (now : String) : ContentBlob :=
  ⟨b.contentRef,b.digest,b.sizeBytes,b.payload,now⟩

def ArchivedEntity.restored (projectId : String) (e : ArchivedEntity) : ManagedEntity :=
  ⟨e.entityId,projectId,e.entityType,e.taskId,e.status,e.retentionClass,canon e.payload,e.createdAt,e.updatedAt⟩

def RetentionStore.insertEntity (e : ManagedEntity) (s : RetentionStore) : Outcome RetentionStore :=
  match s.managedEntities.get e.entityId with
  | some _ => .ok s
  | none => do
    let entities ← integrityError "managed_entities.entity_id" (s.managedEntities.insert e)
    pure { s with managedEntities := entities }

def restoreBlobs (restoredAt : ℕ → String) : ℕ → List ArchivedBlob → Db Unit
  | _, [] => pure ()
  | n, b :: rest => do
    Connection.execute (RetentionStore.insertBlob (b.restored (restoredAt n)))
    restoreBlobs restoredAt (n + 1) rest

def restoreEntities (projectId : String) : List ArchivedEntity → Db Unit
  | [] => pure ()
  | e :: rest => do
    Connection.execute (RetentionStore.insertEntity (e.restored projectId))
    restoreEntities projectId rest

/-- The scripts that create the tables commit what is pending on the connection. -/
def restoreArchive (a : Archive) (restoredAt : ℕ → String) : Db (Bool × String) := do
  Connection.commit
  restoreBlobs restoredAt 0 a.blobs
  restoreEntities a.projectId a.entities
  Connection.commit
  let s ← Connection.read fun s => .ok s
  let restored := s.computeLogicalStateDigest rt a.projectId
  if restored ≠ a.logicalStateDigest then
    pure (false,"restored_digest_mismatch: expected " ++ a.logicalStateDigest ++ ", got " ++ restored)
  else pure (true,"archive_restored_with_verified_parity")

/-! ## What restoring adds -/

variable {rt} {s t : RetentionStore} {projectId : String}

def restoredBlobs (restoredAt : ℕ → String) : ℕ → List ArchivedBlob → List ContentBlob
  | _, [] => []
  | n, b :: rest => b.restored (restoredAt n) :: restoredBlobs restoredAt (n + 1) rest

def addEntities : List ManagedEntity → RetentionStore → RetentionStore
  | [], s => s
  | e :: rest, s => match RetentionStore.insertEntity e s with
    | .ok t => addEntities rest t
    | .error _ => addEntities rest s

theorem exec_restoreBlobs {α : Type} (restoredAt : ℕ → String) (n : ℕ) (blobs : List ArchivedBlob) (k : Unit → Db α)
    (c : Database) : (restoreBlobs restoredAt n blobs >>= k).exec c =
      match storeAll (restoredBlobs restoredAt n blobs) c.working with
      | (t,.ok _) => (k ()).exec { c with working := t }
      | (t,.error e) => (.error e,{ c with working := t }) := by
  induction blobs generalizing n c with
  | nil => rfl
  | cons b rest ih =>
    unfold restoreBlobs
    rw [bind_assoc,exec_execute]
    simp only [restoredBlobs,storeAll]
    cases RetentionStore.insertBlob (b.restored (restoredAt n)) c.working with
    | error e => rfl
    | ok t => exact ih (n + 1) { c with working := t }

theorem insertEntity_ok (e : ManagedEntity) (s : RetentionStore) :
    (∃ old, s.managedEntities.get e.entityId = some old ∧ RetentionStore.insertEntity e s = .ok s) ∨
      ∃ entities, s.managedEntities.insert e = some entities ∧
        RetentionStore.insertEntity e s = .ok { s with managedEntities := entities } := by
  unfold RetentionStore.insertEntity
  cases hget : s.managedEntities.get e.entityId with
  | some old => exact .inl ⟨old,rfl,rfl⟩
  | none =>
    obtain ⟨entities,hinsert⟩ := Table.insert_of_new (a := e) hget
    refine .inr ⟨entities,hinsert,?_⟩
    dsimp only
    rw [hinsert]
    rfl

theorem exec_restoreEntities {α : Type} (projectId : String) (entities : List ArchivedEntity) (k : Unit → Db α)
    (c : Database) : (restoreEntities projectId entities >>= k).exec c =
      (k ()).exec { c with working := addEntities (entities.map (ArchivedEntity.restored projectId)) c.working } := by
  induction entities generalizing c with
  | nil => rfl
  | cons e rest ih =>
    unfold restoreEntities
    rw [bind_assoc,exec_execute]
    simp only [List.map_cons,addEntities]
    rcases insertEntity_ok (e.restored projectId) c.working with ⟨old,-,hok⟩ | ⟨entities,-,hok⟩
    · rw [hok]
      exact ih c
    · rw [hok]
      exact ih { c with working := { c.working with managedEntities := entities } }

/-- The target with the archive's rows, up to the first content that is refused. -/
def addedTo (a : Archive) (restoredAt : ℕ → String) (s : RetentionStore) : RetentionStore :=
  match storeAll (restoredBlobs restoredAt 0 a.blobs) s with
  | (t,.ok _) => addEntities (a.entities.map (ArchivedEntity.restored a.projectId)) t
  | (t,.error _) => t

/-- No content of the archive has the digest of another one, and the archive's logical state is the
target's once the rows are added. -/
def Fits (rt : Runtime) (a : Archive) (restoredAt : ℕ → String) (s : RetentionStore) : Prop :=
  (storeAll (restoredBlobs restoredAt 0 a.blobs) s).2 = .ok () ∧
    (addedTo a restoredAt s).computeLogicalStateDigest rt a.projectId = a.logicalStateDigest

theorem exec_restoreArchive (a : Archive) (restoredAt : ℕ → String) (c : Database) :
    ∃ r d, (restoreArchive rt a restoredAt).exec c = (r,d) ∧ d.working = addedTo a restoredAt c.working ∧
      (d.committed = c.working ∨ d.committed = d.working) ∧
      (Fits rt a restoredAt c.working → (∃ message, r = .ok (true,message)) ∧ d.committed = d.working) ∧
      (¬ Fits rt a restoredAt c.working → ¬ ∃ message, r = .ok (true,message)) := by
  unfold restoreArchive
  rw [exec_commit,exec_restoreBlobs]
  unfold Fits addedTo
  rcases hstore : storeAll (restoredBlobs restoredAt 0 a.blobs) c.working with ⟨t,o⟩
  rw [fresh_working,hstore]
  cases o with
  | error e =>
    refine ⟨_,_,rfl,rfl,.inl rfl,fun h => (by cases h.1),?_⟩
    rintro - ⟨message,h⟩
    cases h
  | ok _ =>
    dsimp only
    rw [exec_restoreEntities,exec_commit,exec_read]
    dsimp only [Connection.fresh]
    generalize addEntities (a.entities.map (ArchivedEntity.restored a.projectId)) t = u
    by_cases hdigest : u.computeLogicalStateDigest rt a.projectId = a.logicalStateDigest
    · rw [if_neg (not_not.mpr hdigest)]
      exact ⟨_,_,rfl,rfl,.inr rfl,fun _ => ⟨⟨_,rfl⟩,rfl⟩,fun h => absurd ⟨rfl,hdigest⟩ h⟩
    · rw [if_pos hdigest]
      refine ⟨_,_,rfl,rfl,.inr rfl,fun h => absurd h.2 hdigest,?_⟩
      rintro - ⟨message,h⟩
      cases h

/-- An archive is accepted only with its own digest, and otherwise the target is left as it was. -/
def Guarded (rt : Runtime) (a : Archive) (restoredAt : ℕ → String) (c : Database) : Prop :=
  ∃ r d, (restoreArchive rt a restoredAt).exec c = (r,d) ∧
    ((∃ message, r = .ok (true,message)) → a.archiveDigest = a.contentDigest rt) ∧
    ((¬ ∃ message, r = .ok (true,message)) → d = c)

theorem guarded_iff (a : Archive) (restoredAt : ℕ → String) (c : Database) : Guarded rt a restoredAt c ↔
    (Fits rt a restoredAt c.working → a.archiveDigest = a.contentDigest rt) ∧
      (¬ Fits rt a restoredAt c.working → addedTo a restoredAt c.working = c.working ∧ c.committed = c.working) := by
  obtain ⟨r,d,hexec,hworking,hcommitted,hfits,hunfit⟩ := @exec_restoreArchive rt a restoredAt c
  have hguarded : Guarded rt a restoredAt c ↔
      ((∃ message, r = .ok (true,message)) → a.archiveDigest = a.contentDigest rt) ∧
        ((¬ ∃ message, r = .ok (true,message)) → d = c) := by
    unfold Guarded
    rw [hexec]
    constructor
    · rintro ⟨r',d',hsame,h⟩
      cases hsame
      exact h
    · exact fun h => ⟨r,d,rfl,h⟩
  rw [hguarded]
  by_cases hfit : Fits rt a restoredAt c.working
  · obtain ⟨hok,-⟩ := hfits hfit
    exact ⟨fun h => ⟨fun _ => h.1 hok,fun hno => absurd hfit hno⟩,fun h => ⟨fun _ => h.1 hfit,fun hno => absurd hok hno⟩⟩
  · have hno := hunfit hfit
    have hsame : d = c ↔ addedTo a restoredAt c.working = c.working ∧ c.committed = c.working := by
      constructor
      · rintro rfl
        refine ⟨hworking.symm,?_⟩
        rcases hcommitted with h | h
        · exact h
        · exact h
      · rintro ⟨hadded,hpending⟩
        obtain ⟨committed,working⟩ := d
        obtain ⟨committed',working'⟩ := c
        have hw : working = working' := hworking.trans hadded
        have hc : committed = committed' := by
          rcases hcommitted with h | h
          · exact h.trans hpending.symm
          · exact (h.trans hw).trans hpending.symm
        rw [hw,hc]
    rw [hsame]
    exact ⟨fun h => ⟨fun hyes => absurd hyes hfit,fun _ => h.2 hno⟩,fun h => ⟨fun hyes => absurd hyes hno,fun _ => h.2 hfit⟩⟩

end Bdb.Retention
