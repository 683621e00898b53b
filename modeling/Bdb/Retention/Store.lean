import Bdb.Base.Connection
import Bdb.Base.PyText
import Bdb.Base.Sha256
import Bdb.Base.Table
import Mathlib.Data.List.MinMax

/-! # The retention store

Entities carry a retention class, contents are stored under their digest, and the audit
trail of a project is a chain of segments. Each segment keeps a running digest over the
payload digests of its events; a full segment is sealed.
-/
namespace Bdb.Retention

open Json

inductive RetentionClass where
  | active
  | unresolved
  | terminalRecent
  | archivable
  | immutableAudit
  | contentReferenceOnly
deriving DecidableEq

def RetentionClass.value : RetentionClass → String
  | active => "ACTIVE"
  | unresolved => "UNRESOLVED"
  | terminalRecent => "TERMINAL_RECENT"
  | archivable => "ARCHIVABLE"
  | immutableAudit => "IMMUTABLE_AUDIT"
  | contentReferenceOnly => "CONTENT_REFERENCE_ONLY"

/-! ## Rows -/

/-- A payload column holds the canonical text of its value. -/
structure ManagedEntity where
  entityId : String
  projectId : String
  entityType : String
  taskId : Option String
  status : String
  retentionClass : RetentionClass
  payload : Json
  createdAt : String
  updatedAt : String
deriving DecidableEq

structure AuditSegment where
  segmentId : String
  projectId : String
  sequenceStart : ℕ
  sequenceEnd : ℕ
  eventCount : ℕ
  prevSegmentDigest : String
  segmentDigest : String
  isSealed : Bool
  createdAt : String
  sealedAt : Option String
deriving DecidableEq

/-- An event, with its payload as the program keeps it or as any text. -/
structure SegmentedEvent (P : Type) where
  eventId : String
  segmentId : String
  projectId : String
  sequenceNumber : ℕ
  eventType : String
  payload : P
  payloadDigest : String
  createdAt : String
deriving DecidableEq

structure ContentBlob where
  contentRef : String
  digest : String
  sizeBytes : ℕ
  payload : List Char
  createdAt : String
deriving DecidableEq

structure StateSnapshot where
  snapshotId : String
  projectId : String
  revision : Int
  lastAuditSequence : ℕ
  prevChainDigest : String
  stateDigest : String
  snapshotData : Json
  createdAt : String
deriving DecidableEq

inductive CompactionStatus where
  | prepared
  | archived
  | committed
  | rolledBack
deriving DecidableEq

structure CompactionManifest where
  compactionId : String
  projectId : String
  sourceRevision : Int
  sourceSegments : List String
  sourceDigest : String
  snapshotId : String
  snapshotDigest : String
  archivedContentRefs : List String
  retainedActiveCount : ℕ
  retainedUnresolvedCount : ℕ
  resultDigest : String
  status : CompactionStatus
  createdAt : String
  verifiedAt : Option String
deriving DecidableEq

structure RetentionStore where
  managedEntities : Table ManagedEntity (·.entityId)
  contentBlobs : Table ContentBlob (·.contentRef)
  auditSegments : Table AuditSegment (·.segmentId)
  segmentedEvents : Table (SegmentedEvent Json) (·.eventId)
  stateSnapshots : Table StateSnapshot (·.snapshotId)
  compactionManifests : Table CompactionManifest (·.compactionId)

def RetentionStore.empty : RetentionStore :=
  ⟨Table.empty,Table.empty,Table.empty,Table.empty,Table.empty,Table.empty⟩

abbrev Database := Connection RetentionStore

/-- A program over one connection to the store. -/
abbrev Db := Program Database

def integrityError {α : Type} (column : String) (o : Option α) : Outcome α :=
  need o "IntegrityError" ("UNIQUE constraint failed: " ++ column)

/-- A number with leading zeros, its sign included in the width. -/
def padded (width : ℕ) (n : Int) : String :=
  if n < 0 then "-" ++ String.ofList (List.leftpad (width - 1) '0' n.natAbs.repr.toList)
  else String.ofList (List.leftpad width '0' n.natAbs.repr.toList)

variable (rt : Runtime)

def canonicalJsonStr (data : Json) : List Char := text (canon data)

/-! ## Contents -/

/-- The stored content of a text. -/
def blobOf (raw : List Char) (now : String) : ContentBlob :=
  let digest := rt.sha256 raw
  ⟨"cref:" ++ digest ++ ":" ++ (byteLength raw).repr,digest,byteLength raw,raw,now⟩

/-- Nothing happens under a reference that is there; a digest may not have two references. -/
def RetentionStore.insertBlob (b : ContentBlob) (s : RetentionStore) : Outcome RetentionStore :=
  match s.contentBlobs.get b.contentRef with
  | some _ => .ok s
  | none => do
    require (∀ other ∈ s.contentBlobs.rows, other.digest ≠ b.digest) "IntegrityError"
      "UNIQUE constraint failed: content_blobs.digest"
    let blobs ← integrityError "content_blobs.content_ref" (s.contentBlobs.insert b)
    pure { s with contentBlobs := blobs }

def storeContent (raw : List Char) (now : String) : Db String := do
  let blob := blobOf rt raw now
  Connection.write (RetentionStore.insertBlob blob)
  pure blob.contentRef

def RetentionStore.hasContent (s : RetentionStore) (contentRef : String) : Bool :=
  (s.contentBlobs.get contentRef).isSome

/-! ## The audit trail -/

def zeroDigest : String := String.ofList (List.replicate 64 '0')

def extendDigest (segmentDigest payloadDigest : String) : String :=
  rt.sha256 (segmentDigest ++ ":" ++ payloadDigest).toList

def RetentionStore.activeSegment (s : RetentionStore) (projectId : String) : Option AuditSegment :=
  (s.auditSegments.rows.filter fun g => g.projectId == projectId && !g.isSealed).argmax (·.sequenceStart)

def RetentionStore.lastSealed (s : RetentionStore) (projectId : String) : Option AuditSegment :=
  (s.auditSegments.rows.filter fun g => g.projectId == projectId && g.isSealed).argmax (·.sequenceEnd)

def nextSegment (projectId : String) (last : Option AuditSegment) (now : String) : AuditSegment :=
  let start : ℕ := match last with
    | some g => g.sequenceEnd + 1
    | none => 1
  let prev := match last with
    | some g => g.segmentDigest
    | none => zeroDigest
  ⟨"seg-" ++ projectId ++ "-" ++ padded 10 start,projectId,start,start - 1,0,prev,prev,false,now,none⟩

def RetentionStore.insertSegment (g : AuditSegment) (s : RetentionStore) : Outcome RetentionStore := do
  let segments ← integrityError "audit_segments.segment_id" (s.auditSegments.insert g)
  pure { s with auditSegments := segments }

def getOrCreateActiveSegment (projectId now : String) : Db AuditSegment := do
  let s ← Connection.read fun s => .ok s
  match s.activeSegment projectId with
  | some g => pure g
  | none => do
    let g := nextSegment projectId (s.lastSealed projectId) now
    Connection.write (RetentionStore.insertSegment g)
    pure g

def RetentionStore.insertEvent (e : SegmentedEvent Json) (s : RetentionStore) : Outcome RetentionStore := do
  let events ← integrityError "segmented_events.event_id" (s.segmentedEvents.insert e)
  pure { s with segmentedEvents := events }

def RetentionStore.putSegment (g : AuditSegment) (s : RetentionStore) : Outcome RetentionStore :=
  .ok { s with auditSegments := s.auditSegments.put g }

def AuditSegment.sealIf (segmentId now : String) (g : AuditSegment) : AuditSegment :=
  if g.segmentId = segmentId then { g with isSealed := true, sealedAt := some now } else g

theorem AuditSegment.sealIf_id (segmentId now : String) (g : AuditSegment) :
    (g.sealIf segmentId now).segmentId = g.segmentId := by
  unfold sealIf
  split <;> rfl

def sealSegment (segmentId now : String) : Db Unit :=
  Connection.write fun s =>
    .ok { s with auditSegments := s.auditSegments.change (·.sealIf segmentId now) (AuditSegment.sealIf_id segmentId now) }

def eventIdOf (projectId : String) (eventId : Option String) (sequence : ℕ) : String :=
  match eventId with
  | some given => if given = "" then "ev-" ++ projectId ++ "-" ++ padded 10 sequence else given
  | none => "ev-" ++ projectId ++ "-" ++ padded 10 sequence

def eventFor (active : AuditSegment) (projectId eventType : String) (payload : Fields) (eventId : Option String)
    (now : String) : SegmentedEvent Json :=
  let value := canon (.obj payload)
  ⟨eventIdOf projectId eventId (active.sequenceEnd + 1),active.segmentId,projectId,active.sequenceEnd + 1,eventType,value,
    rt.sha256 (text value),now⟩

def extended (active : AuditSegment) (payloadDigest : String) : AuditSegment :=
  { active with
    sequenceEnd := active.sequenceEnd + 1
    eventCount := active.eventCount + 1
    segmentDigest := extendDigest rt active.segmentDigest payloadDigest }

def appendEvent (projectId : String) (maxSegmentEvents : Int) (eventType : String) (payload : Fields)
    (eventId : Option String) (now : String) : Db (ℕ × String) := do
  let active ← getOrCreateActiveSegment projectId now
  let e := eventFor rt active projectId eventType payload eventId now
  Connection.execute (RetentionStore.insertEvent e)
  let updated := extended rt active e.payloadDigest
  Connection.write (RetentionStore.putSegment updated)
  if maxSegmentEvents ≤ updated.eventCount then sealSegment active.segmentId now
  pure (e.sequenceNumber,updated.segmentDigest)

/-! ## Verification -/

def rolling (prev : String) (digests : List String) : String := digests.foldl (extendDigest rt) prev

/-- What is wrong with the resident events of a segment; a segment without any is not
examined. -/
def eventErrors (g : AuditSegment) (digests : List String) : List String :=
  if digests = [] then []
  else
    (if digests.length ≠ g.eventCount then
      ["Segment " ++ g.segmentId ++ " count mismatch: recorded " ++ g.eventCount.repr ++ ", found " ++ digests.length.repr]
    else []) ++
    (if rolling rt g.prevSegmentDigest digests ≠ g.segmentDigest then
      ["Segment " ++ g.segmentId ++ " digest mismatch: recorded " ++ g.segmentDigest ++ ", computed " ++
        rolling rt g.prevSegmentDigest digests]
    else [])

variable {P : Type}

def residentDigests (events : List (SegmentedEvent P)) (segmentId : String) : List String :=
  ((events.filter fun e => e.segmentId == segmentId).insertionSort (fun e f => e.sequenceNumber ≤ f.sequenceNumber)).map
    (·.payloadDigest)

def chainErrors (events : List (SegmentedEvent P)) : String → List AuditSegment → List String
  | _, [] => []
  | expectedPrev, g :: rest =>
    (if g.prevSegmentDigest ≠ expectedPrev then
      ["Segment " ++ g.segmentId ++ " prev_digest mismatch: expected " ++ expectedPrev ++ ", got " ++ g.prevSegmentDigest]
    else []) ++ eventErrors rt g (residentDigests events g.segmentId) ++ chainErrors events g.segmentDigest rest

def projectSegments (segments : List AuditSegment) (projectId : String) : List AuditSegment :=
  (segments.filter fun g => g.projectId == projectId).insertionSort (fun g h => g.sequenceStart ≤ h.sequenceStart)

def verifySegmentChain (projectId : String) (segments : List AuditSegment) (events : List (SegmentedEvent P)) :
    Bool × ℕ × List String :=
  let chain := projectSegments segments projectId
  let errors := chainErrors rt events zeroDigest chain
  (errors.isEmpty,chain.length,errors)

/-! ## Entities -/

/-- The fields of a registration; an entity that exists keeps its project, type, task and
creation time. -/
structure Registration where
  entityId : String
  entityType : String
  taskId : Option String
  status : String
  retentionClass : RetentionClass
  payload : Fields

def RetentionStore.upsertEntity (projectId : String) (r : Registration) (now : String) (s : RetentionStore) :
    Outcome RetentionStore :=
  match s.managedEntities.get r.entityId with
  | some e =>
    let updated : ManagedEntity := { e with
      status := r.status
      retentionClass := r.retentionClass
      payload := canon (.obj r.payload)
      updatedAt := now }
    .ok { s with managedEntities := s.managedEntities.put updated }
  | none => do
    let entities ← integrityError "managed_entities.entity_id" (s.managedEntities.insert
      ⟨r.entityId,projectId,r.entityType,r.taskId,r.status,r.retentionClass,canon (.obj r.payload),now,now⟩)
    pure { s with managedEntities := entities }

def registerEntity (projectId : String) (r : Registration) (now : String) : Db Unit :=
  Connection.write (RetentionStore.upsertEntity projectId r now)

/-! ## The digest of the program -/

def retentionRuntime : Runtime where
  upperTable c := [c]
  lowerTable c := [c]
  repr _ := ""
  fromIsoFormat _ := none
  sha256 := Sha256.sha256

end Bdb.Retention
