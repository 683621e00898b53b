import Bdb.Retention.Archive

/-! # The round trip of an archive

Into an empty database the contents and the entities of an archive are all added, and
nothing else is. So the round trip is complete for a project without an audit trail, up to
the times at which contents are stored.
-/
namespace Bdb.Retention

open Json List Table Connection

variable {rt : Runtime} {s t : RetentionStore} {projectId : String}

/-! ## Adding to what is not there -/

theorem insertBlob_fresh {b : ContentBlob} (hnew : s.contentBlobs.get b.contentRef = none) :
    (∃ blobs, s.contentBlobs.insert b = some blobs ∧ (∀ other ∈ s.contentBlobs.rows, other.digest ≠ b.digest) ∧
        RetentionStore.insertBlob b s = .ok { s with contentBlobs := blobs }) ∨
      (∃ other ∈ s.contentBlobs.rows, other.digest = b.digest) ∧ ∃ e, RetentionStore.insertBlob b s = .error e := by
  unfold RetentionStore.insertBlob
  rw [hnew]
  dsimp only
  by_cases hdigest : ∀ other ∈ s.contentBlobs.rows, other.digest ≠ b.digest
  · obtain ⟨blobs,hinsert⟩ := insert_of_new (a := b) hnew
    refine .inl ⟨blobs,hinsert,hdigest,?_⟩
    rw [hinsert]
    exact require_bind hdigest rfl
  · refine .inr ⟨?_,?_⟩
    · by_contra hnone
      exact hdigest fun other hother hsame => hnone ⟨other,hother,hsame⟩
    · unfold require
      rw [if_neg hdigest]
      exact ⟨_,rfl⟩

theorem get_none_of_nodup {α κ : Type} {key : α → κ} [DecidableEq κ] {t : Table α key} {a : α} {rest : List α}
    (h : ((t.rows ++ a :: rest).map key).Nodup) : t.get (key a) = none := by
  cases hget : t.get (key a) with
  | none => rfl
  | some b =>
    obtain ⟨hb,hkey⟩ := get_eq_some.mp hget
    rw [map_append,nodup_append] at h
    exact absurd hkey (h.2.2 _ (mem_map_of_mem hb) _ mem_cons_self)

theorem storeAll_new (blobs : List ContentBlob) (s : RetentionStore)
    (hrefs : ((s.contentBlobs.rows ++ blobs).map (·.contentRef)).Nodup)
    (hdigests : (s.contentBlobs.rows.map (·.digest)).Nodup) :
    ((storeAll blobs s).2 = .ok () ↔ ((s.contentBlobs.rows ++ blobs).map (·.digest)).Nodup) ∧
      ((storeAll blobs s).2 = .ok () → (storeAll blobs s).1.contentBlobs.rows = s.contentBlobs.rows ++ blobs) := by
  induction blobs generalizing s with
  | nil => simp [storeAll,hdigests]
  | cons b rest ih =>
    have hnew := get_none_of_nodup hrefs
    unfold storeAll
    rcases insertBlob_fresh hnew with ⟨table,hinsert,hother,hok⟩ | ⟨⟨other,hother,hsame⟩,e,herror⟩
    · rw [hok]
      dsimp only
      have hrows := (insert_some hinsert).2
      have hnext := ih { s with contentBlobs := table } (by rw [hrows]; simpa using hrefs) (by
        rw [hrows,map_append,nodup_append]
        refine ⟨hdigests,nodup_singleton _,fun d hd d' hd' => ?_⟩
        obtain ⟨c,hc,rfl⟩ := mem_map.mp hd
        rw [mem_singleton.mp hd']
        exact hother c hc)
      dsimp only at hnext
      rw [hrows] at hnext
      simpa using hnext
    · rw [herror]
      refine ⟨iff_of_false (fun h => by cases h) fun hnodup => ?_,fun h => by cases h⟩
      rw [map_append,nodup_append] at hnodup
      exact hnodup.2.2 _ (mem_map_of_mem hother) _ mem_cons_self hsame

theorem addEntities_new (entities : List ManagedEntity) (s : RetentionStore)
    (hids : ((s.managedEntities.rows ++ entities).map (·.entityId)).Nodup) :
    (addEntities entities s).managedEntities.rows = s.managedEntities.rows ++ entities := by
  induction entities generalizing s with
  | nil => simp [addEntities]
  | cons e rest ih =>
    have hnew := get_none_of_nodup hids
    unfold addEntities
    rcases insertEntity_ok e s with ⟨old,hold,-⟩ | ⟨table,hinsert,hok⟩
    · cases hold.symm.trans hnew
    · rw [hok]
      have hrows := (insert_some hinsert).2
      have hnext := ih { s with managedEntities := table } (by rw [hrows]; simpa using hids)
      dsimp only at hnext ⊢
      rw [hnext,hrows,append_assoc]
      rfl

theorem addEntities_kept (entities : List ManagedEntity) (s : RetentionStore) :
    addEntities entities s = { s with managedEntities := (addEntities entities s).managedEntities } := by
  induction entities generalizing s with
  | nil => rfl
  | cons e rest ih =>
    unfold addEntities
    rcases insertEntity_ok e s with ⟨old,-,hok⟩ | ⟨table,-,hok⟩
    · rw [hok]
      exact ih s
    · rw [hok]
      exact ih { s with managedEntities := table }

theorem addedTo_kept (a : Archive) (restoredAt : ℕ → String) (s : RetentionStore) :
    (addedTo a restoredAt s).auditSegments = s.auditSegments ∧ (addedTo a restoredAt s).segmentedEvents = s.segmentedEvents := by
  unfold addedTo
  rcases hstore : storeAll (restoredBlobs restoredAt 0 a.blobs) s with ⟨t,o⟩
  have hkept := storeAll_kept hstore
  cases o with
  | error e =>
    dsimp only
    rw [hkept]
    exact ⟨rfl,rfl⟩
  | ok _ =>
    dsimp only
    rw [addEntities_kept,hkept]
    exact ⟨rfl,rfl⟩

/-! ## What comes back -/

def RetentionStore.nextSequence (s : RetentionStore) (projectId : String) : ℕ :=
  match s.activeSegment projectId with
  | some g => g.sequenceEnd + 1
  | none => (nextSegment projectId (s.lastSealed projectId) "").sequenceEnd + 1

def AppendsNext (rt : Runtime) (projectId : String) (c : Database) (n : ℕ) : Prop :=
  ∀ most eventType payload eventId now, c.working.segmentedEvents.get (eventIdOf projectId eventId n) = none →
    ∃ digest d, (appendEvent rt projectId most eventType payload eventId now).exec c = (.ok (n,digest),d)

/-- The archive of the project is restored into an empty database, with the same entities, contents,
segments and events, a chain that verifies and the same next number. -/
def RoundTrips (rt : Runtime) (projectId exportedAt : String) (restoredAt : ℕ → String) (s : RetentionStore) : Prop :=
  ∃ message d, (restoreArchive rt (exportArchive rt projectId exportedAt s) restoredAt).exec (.fresh .empty) =
      (.ok (true,message),d) ∧
    (∀ e, e ∈ d.working.managedEntities.rows ↔ e ∈ s.entitiesOf projectId) ∧
    (∀ b, b ∈ d.working.contentBlobs.rows ↔ b ∈ s.contentBlobs.rows) ∧
    (∀ g, g ∈ d.working.auditSegments.rows ↔ g ∈ s.auditSegments.rows ∧ g.projectId = projectId) ∧
    (∀ e, e ∈ d.working.segmentedEvents.rows ↔ e ∈ s.segmentedEvents.rows ∧ e.projectId = projectId) ∧
    (verifySegmentChain rt projectId d.working.auditSegments.rows d.working.segmentedEvents.rows).1 = true ∧
    AppendsNext rt projectId d (s.nextSequence projectId)

/-- The project has no audit trail, and its contents were stored at the times they are restored at.
The last two hold in every database: digests are unique, and payloads are stored canonically. -/
structure Restorable (projectId : String) (restoredAt : ℕ → String) (s : RetentionStore) : Prop where
  segments : ∀ g ∈ s.auditSegments.rows, g.projectId ≠ projectId
  events : ∀ e ∈ s.segmentedEvents.rows, e.projectId ≠ projectId
  times : ∀ p ∈ s.contentBlobs.rows.zipIdx, p.1.createdAt = restoredAt p.2
  digests : (s.contentBlobs.rows.map (·.digest)).Nodup
  payloads : ∀ e ∈ s.entitiesOf projectId, canon e.payload = e.payload

theorem restoredBlobs_archived (restoredAt : ℕ → String) (n : ℕ) (blobs : List ContentBlob) :
    restoredBlobs restoredAt n (blobs.map ContentBlob.archived) =
      (blobs.zipIdx n).map fun p => { p.1 with createdAt := restoredAt p.2 } := by
  induction blobs generalizing n with
  | nil => rfl
  | cons b rest ih =>
    rw [map_cons,restoredBlobs,ih,zipIdx_cons,map_cons]
    rfl

theorem restoredBlobs_refs (restoredAt : ℕ → String) (n : ℕ) (blobs : List ContentBlob) :
    (restoredBlobs restoredAt n (blobs.map ContentBlob.archived)).map (·.contentRef) = blobs.map (·.contentRef) ∧
      (restoredBlobs restoredAt n (blobs.map ContentBlob.archived)).map (·.digest) = blobs.map (·.digest) := by
  induction blobs generalizing n with
  | nil => exact ⟨rfl,rfl⟩
  | cons b rest ih =>
    obtain ⟨hrefs,hdigests⟩ := ih (n + 1)
    exact ⟨congrArg (b.contentRef :: ·) hrefs,congrArg (b.digest :: ·) hdigests⟩

def reread (e : ManagedEntity) : ManagedEntity := { e with payload := canon e.payload }

theorem restored_archived {e : ManagedEntity} (h : e ∈ s.entitiesOf projectId) :
    e.archived.restored projectId = reread e := by
  have hproject := eq_of_beq (mem_filter.mp h).2
  subst hproject
  rfl

theorem restored_entities (s : RetentionStore) (projectId : String) :
    ((s.entitiesOf projectId).map ManagedEntity.archived).map (ArchivedEntity.restored projectId) =
      (s.entitiesOf projectId).map reread := by
  rw [map_map]
  exact map_congr_left fun e he => restored_archived he

theorem addedTo_empty (rt : Runtime) (projectId exportedAt : String) (restoredAt : ℕ → String) (s : RetentionStore) :
    ((storeAll (restoredBlobs restoredAt 0 (exportArchive rt projectId exportedAt s).blobs) .empty).2 = .ok () ↔
        (s.contentBlobs.rows.map (·.digest)).Nodup) ∧
      ((s.contentBlobs.rows.map (·.digest)).Nodup →
        (addedTo (exportArchive rt projectId exportedAt s) restoredAt .empty).contentBlobs.rows =
            s.contentBlobs.rows.zipIdx.map (fun p => { p.1 with createdAt := restoredAt p.2 }) ∧
          (addedTo (exportArchive rt projectId exportedAt s) restoredAt .empty).managedEntities.rows =
            (s.entitiesOf projectId).map reread) := by
  have hblobs : (exportArchive rt projectId exportedAt s).blobs = s.contentBlobs.rows.map ContentBlob.archived := rfl
  obtain ⟨hrefs,hdigests⟩ := restoredBlobs_refs restoredAt 0 s.contentBlobs.rows
  obtain ⟨hiff,hrows⟩ := storeAll_new (restoredBlobs restoredAt 0 (s.contentBlobs.rows.map ContentBlob.archived)) .empty
    (by
      change ((restoredBlobs restoredAt 0 (s.contentBlobs.rows.map ContentBlob.archived)).map (·.contentRef)).Nodup
      rw [hrefs]
      exact s.contentBlobs.unique) nodup_nil
  have hiff : _ ↔ ((restoredBlobs restoredAt 0 (s.contentBlobs.rows.map ContentBlob.archived)).map (·.digest)).Nodup := hiff
  rw [hdigests] at hiff
  refine ⟨hblobs ▸ hiff,fun hnodup => ?_⟩
  have hok := hiff.mpr hnodup
  have hstored := hrows hok
  unfold addedTo
  rw [hblobs]
  rcases hstore : storeAll (restoredBlobs restoredAt 0 (s.contentBlobs.rows.map ContentBlob.archived)) .empty with ⟨t,o⟩
  rw [hstore] at hok hstored
  have hok : o = .ok () := hok
  subst hok
  dsimp only at hstored ⊢
  constructor
  · rw [addEntities_kept]
    refine hstored.trans ?_
    rw [restoredBlobs_archived]
    rfl
  · have hempty : t.managedEntities.rows = [] := by
      rw [storeAll_kept hstore]
      rfl
    have hentities : (exportArchive rt projectId exportedAt s).entities.map
        (ArchivedEntity.restored (exportArchive rt projectId exportedAt s).projectId) =
          (s.entitiesOf projectId).map reread := restored_entities s projectId
    rw [hentities,addEntities_new,hempty,nil_append]
    rw [hempty,nil_append,map_map]
    exact s.managedEntities.unique.sublist (filter_sublist.map _)

theorem argmax_empty {α : Type} {l : List α} {p : α → Bool} {f : α → ℕ} (h : ∀ a ∈ l, p a = false) :
    (l.filter p).argmax f = none := by
  rw [argmax_eq_none,filter_eq_nil_iff]
  exact fun a ha => by simp [h a ha]

theorem no_segments (h : ∀ g ∈ s.auditSegments.rows, g.projectId ≠ projectId) :
    s.activeSegment projectId = none ∧ s.lastSealed projectId = none :=
  ⟨argmax_empty fun g hg => by simp [h g hg],argmax_empty fun g hg => by simp [h g hg]⟩

theorem appends_first {c : Database} (hsegments : c.working.auditSegments.rows = []) : AppendsNext rt projectId c 1 := by
  intro most eventType payload eventId now hnew
  obtain ⟨hactive,hlast⟩ := @no_segments c.working projectId (by rw [hsegments]; simp)
  have hid : c.working.auditSegments.get (nextSegment projectId none now).segmentId = none := by
    refine List.find?_eq_none.mpr ?_
    rw [hsegments]
    simp
  obtain ⟨segments,hsegment⟩ := insert_of_new (a := nextSegment projectId none now) hid
  have hopen : RetentionStore.insertSegment (nextSegment projectId none now) c.working =
      .ok { c.working with auditSegments := segments } := by
    unfold RetentionStore.insertSegment
    rw [hsegment]
    rfl
  obtain ⟨events,hevent⟩ := insert_of_new
    (a := eventFor rt (nextSegment projectId none now) projectId eventType payload eventId now) hnew
  have hinsert : RetentionStore.insertEvent (eventFor rt (nextSegment projectId none now) projectId eventType payload eventId
      now) { c.working with auditSegments := segments } =
      .ok { c.working with auditSegments := segments, segmentedEvents := events } := by
    unfold RetentionStore.insertEvent
    rw [hevent]
    rfl
  unfold appendEvent getOrCreateActiveSegment
  rw [bind_assoc,exec_read]
  dsimp only
  rw [hactive,hlast]
  dsimp only
  rw [bind_assoc,exec_write,hopen]
  dsimp only
  rw [pure_bind,exec_execute,fresh_working,hinsert]
  dsimp only
  rw [exec_write]
  dsimp only [RetentionStore.putSegment]
  split
  · unfold sealSegment
    rw [exec_write]
    exact ⟨_,_,rfl⟩
  · exact ⟨_,_,rfl⟩

theorem entitiesOf_restored {u : RetentionStore} (h : u.managedEntities.rows = s.entitiesOf projectId) :
    u.computeLogicalStateDigest rt projectId = s.computeLogicalStateDigest rt projectId := by
  have hsame : u.entitiesOf projectId = s.entitiesOf projectId := by
    unfold RetentionStore.entitiesOf
    rw [h,RetentionStore.entitiesOf,filter_filter]
    simp
  unfold RetentionStore.computeLogicalStateDigest RetentionStore.logicalEntities
  rw [hsame]

variable {restoredAt : ℕ → String}

theorem Restorable.blobs (h : Restorable projectId restoredAt s) :
    s.contentBlobs.rows.zipIdx.map (fun p => { p.1 with createdAt := restoredAt p.2 }) = s.contentBlobs.rows := by
  have hsame : s.contentBlobs.rows.zipIdx.map (fun p => { p.1 with createdAt := restoredAt p.2 }) =
      s.contentBlobs.rows.zipIdx.map Prod.fst := by
    refine map_congr_left fun p hp => ?_
    rw [← h.times p hp]
  rw [hsame,zipIdx_map_fst]

theorem Restorable.entities (h : Restorable projectId restoredAt s) :
    (s.entitiesOf projectId).map reread = s.entitiesOf projectId := by
  refine (map_congr_left fun e he => ?_).trans (map_id _)
  unfold reread
  rw [h.payloads e he]
  rfl

theorem round_trips_of_restorable {exportedAt : String} (h : Restorable projectId restoredAt s) :
    RoundTrips rt projectId exportedAt restoredAt s := by
  obtain ⟨hok,hadded⟩ := addedTo_empty rt projectId exportedAt restoredAt s
  obtain ⟨hblobs,hentities⟩ := hadded h.digests
  rw [h.blobs] at hblobs
  rw [h.entities] at hentities
  obtain ⟨hsegments,hevents⟩ := addedTo_kept (exportArchive rt projectId exportedAt s) restoredAt .empty
  obtain ⟨r,d,hexec,hworking,-,hfits,-⟩ :=
    @exec_restoreArchive rt (exportArchive rt projectId exportedAt s) restoredAt (.fresh .empty)
  obtain ⟨⟨message,rfl⟩,-⟩ := hfits ⟨hok.mpr h.digests,entitiesOf_restored hentities⟩
  have hworking : d.working = addedTo (exportArchive rt projectId exportedAt s) restoredAt .empty := hworking
  rw [← hworking] at hblobs hentities hsegments hevents
  refine ⟨message,d,hexec,?_,?_,?_,?_,?_,?_⟩
  · rw [hentities]
    exact fun _ => Iff.rfl
  · rw [hblobs]
    exact fun _ => Iff.rfl
  · rw [hsegments]
    exact fun g => iff_of_false (not_mem_nil) fun hg => h.segments g hg.1 hg.2
  · rw [hevents]
    exact fun e => iff_of_false (not_mem_nil) fun he => h.events e he.1 he.2
  · rw [hsegments]
    rfl
  · have hnext : s.nextSequence projectId = 1 := by
      obtain ⟨hactive,hlast⟩ := no_segments h.segments
      unfold RetentionStore.nextSequence
      rw [hactive,hlast]
      rfl
    rw [hnext]
    exact appends_first (by rw [hsegments]; rfl)

theorem restorable_of_round_trips {exportedAt : String}
    (h : RoundTrips rt projectId exportedAt restoredAt s) : Restorable projectId restoredAt s := by
  obtain ⟨message,d,hexec,hentities,hblobs,hsegments,hevents,-,-⟩ := h
  obtain ⟨r,d',hexec',hworking,-,-,hunfit⟩ :=
    @exec_restoreArchive rt (exportArchive rt projectId exportedAt s) restoredAt (.fresh .empty)
  rw [hexec] at hexec'
  cases hexec'
  have hfit : Fits rt (exportArchive rt projectId exportedAt s) restoredAt .empty := by
    by_contra hno
    exact hunfit hno ⟨message,rfl⟩
  have hworking : d.working = addedTo (exportArchive rt projectId exportedAt s) restoredAt .empty := hworking
  obtain ⟨hok,hadded⟩ := addedTo_empty rt projectId exportedAt restoredAt s
  have hdigests := hok.mp hfit.1
  obtain ⟨hrows,hrows'⟩ := hadded hdigests
  obtain ⟨hnosegments,hnoevents⟩ := addedTo_kept (exportArchive rt projectId exportedAt s) restoredAt .empty
  rw [← hworking] at hrows hrows' hnosegments hnoevents
  refine ⟨fun g hg hproject => ?_,fun e he hproject => ?_,fun p hp => ?_,hdigests,fun e he => ?_⟩
  · have hin := (hsegments g).mpr ⟨hg,hproject⟩
    rw [hnosegments] at hin
    cases hin
  · have hin := (hevents e).mpr ⟨he,hproject⟩
    rw [hnoevents] at hin
    cases hin
  · -- a content comes back under its own reference
    have hmem : p.1 ∈ s.contentBlobs.rows := fst_mem_of_mem_zipIdx hp
    have hback := (hblobs { p.1 with createdAt := restoredAt p.2 }).mp (by
      rw [hrows]
      exact mem_map_of_mem hp)
    have hsame : { p.1 with createdAt := restoredAt p.2 } = p.1 := eq_of_key hback hmem rfl
    exact (congrArg ContentBlob.createdAt hsame).symm
  · have hback := (hentities (reread e)).mp (by
      rw [hrows']
      exact mem_map_of_mem he)
    have hsame : reread e = e :=
      eq_of_key (mem_filter.mp hback).1 (mem_filter.mp he).1 rfl
    exact congrArg ManagedEntity.payload hsame

/-- An archive makes the round trip exactly for a project without an audit trail, and a restoration
is guarded exactly where the rows fit under the right digest, or there is nothing to add. -/
theorem archive_round_trip_iff (rt : Runtime) (restoredAt : ℕ → String) :
    (∀ projectId exportedAt s, RoundTrips rt projectId exportedAt restoredAt s ↔ Restorable projectId restoredAt s) ∧
      ∀ a c, Guarded rt a restoredAt c ↔
        (Fits rt a restoredAt c.working → a.archiveDigest = a.contentDigest rt) ∧
          (¬ Fits rt a restoredAt c.working → addedTo a restoredAt c.working = c.working ∧ c.committed = c.working) :=
  ⟨fun _ _ _ => ⟨restorable_of_round_trips,round_trips_of_restorable⟩,fun a c => guarded_iff a restoredAt c⟩

/-! ## What holds in every database -/

/-- Digests are unique, and payloads are stored canonically. -/
structure Stored (s : RetentionStore) : Prop where
  digests : (s.contentBlobs.rows.map (·.digest)).Nodup
  payloads : ∀ e ∈ s.managedEntities.rows, canon e.payload = e.payload

/-! ## An audit trail, and a forged archive -/

def trailStore : RetentionStore :=
  (retentionRun retentionRuntime [.appendEvent "p1" 1000 "NOTE" [] none "2026-01-01T00:00:00+00:00"]).store

def forgedArchive : Archive :=
  { exportArchive retentionRuntime "p1" "2026-01-01T00:00:00+00:00" .empty with archiveDigest := "" }

/-- The trail does not come back, and the forged archive is accepted. -/
theorem trail_lost_and_forgery_accepted :
    ¬ RoundTrips retentionRuntime "p1" "2026-01-01T00:00:00+00:00" (fun _ => "2026-01-01T00:00:00+00:00") trailStore ∧
      ¬ Guarded retentionRuntime forgedArchive (fun _ => "2026-01-01T00:00:00+00:00") (.fresh .empty) := by
  constructor
  · intro h
    have hsegment : ∃ g ∈ trailStore.auditSegments.rows, g.projectId = "p1" := by decide +kernel
    obtain ⟨g,hg,hproject⟩ := hsegment
    exact (restorable_of_round_trips h).segments g hg hproject
  · intro h
    have hfits : Fits retentionRuntime forgedArchive (fun _ => "2026-01-01T00:00:00+00:00") .empty := ⟨rfl,rfl⟩
    have hdigest := congrArg String.toList (((guarded_iff _ _ _).mp h).1 hfits)
    unfold Archive.contentDigest at hdigest
    rw [String.toList_append] at hdigest
    cases hdigest

end Bdb.Retention
