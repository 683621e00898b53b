import Bdb.Retention.Compaction

/-! # What a compaction does at each boundary

The snapshot and the manifest are always stored. Archiving writes contents only; it is
refused when a content's digest is stored under another reference. The logical state is
never touched by the pruning, so that its verification cannot fail.
-/
namespace Bdb.Retention

open Json List Table Connection

variable {rt : Runtime} {s t : RetentionStore} {projectId : String}

/-! ## Updates of the manifests -/

section UpdateManifest

variable {compactionId : String} {f : CompactionManifest → CompactionManifest}
  {hf : ∀ m, (f m).compactionId = m.compactionId}

theorem get_updateManifest (id : String) : (s.updateManifest compactionId f hf).compactionManifests.get id =
    (s.compactionManifests.get id).map fun m => if m.compactionId = compactionId then f m else m := by
  simp only [RetentionStore.updateManifest,get_change]

theorem get_updateManifest_own {m : CompactionManifest} (h : s.compactionManifests.get compactionId = some m) :
    (s.updateManifest compactionId f hf).compactionManifests.get compactionId = some (f m) := by
  rw [get_updateManifest,h,Option.map_some,if_pos (key_of_get h)]

theorem get_updateManifest_other {id : String} (h : id ≠ compactionId) :
    (s.updateManifest compactionId f hf).compactionManifests.get id = s.compactionManifests.get id := by
  rw [get_updateManifest]
  cases hget : s.compactionManifests.get id with
  | none => rfl
  | some m =>
    rw [Option.map_some,if_neg]
    rw [key_of_get hget]
    exact h

end UpdateManifest

variable {m : CompactionManifest} {snapshot : StateSnapshot} {blobs : List ContentBlob} {o : Outcome Unit}

theorem markArchived_manifests {compactionId : String} (refs : List String)
    (h : s.compactionManifests.get compactionId = some m) :
    (s.markArchived compactionId refs).compactionManifests.get compactionId =
        some { m with archivedContentRefs := refs, status := .archived } ∧
      ∀ id ≠ compactionId, (s.markArchived compactionId refs).compactionManifests.get id = s.compactionManifests.get id :=
  ⟨get_updateManifest_own h,fun _ => get_updateManifest_other⟩

theorem markCommitted_manifests {compactionId : String} (verifiedAt : String)
    (h : s.compactionManifests.get compactionId = some m) :
    (s.markCommitted compactionId verifiedAt).compactionManifests.get compactionId =
        some { m with status := .committed, verifiedAt := some verifiedAt } ∧
      ∀ id ≠ compactionId, (s.markCommitted compactionId verifiedAt).compactionManifests.get id = s.compactionManifests.get id :=
  ⟨get_updateManifest_own h,fun _ => get_updateManifest_other⟩

/-! ## The prepared store -/

/-- The tables that a compaction prunes or archives, and the contents, are as they were. -/
structure Untouched (s t : RetentionStore) : Prop where
  entities : t.managedEntities = s.managedEntities
  events : t.segmentedEvents = s.segmentedEvents
  segments : t.auditSegments = s.auditSegments

theorem Untouched.trans {u : RetentionStore} (h : Untouched s t) (h' : Untouched t u) : Untouched s u :=
  ⟨h'.entities.trans h.entities,h'.events.trans h.events,h'.segments.trans h.segments⟩

theorem untouched_updateManifest (compactionId : String) (f : CompactionManifest → CompactionManifest)
    (hf : ∀ m, (f m).compactionId = m.compactionId) (s : RetentionStore) :
    Untouched s (s.updateManifest compactionId f hf) := ⟨rfl,rfl,rfl⟩

theorem insertSnapshot_ok (snapshot : StateSnapshot) (s : RetentionStore) :
    ∃ snapshots, RetentionStore.insertSnapshot snapshot s = .ok { s with stateSnapshots := snapshots } ∧
      ((∃ old, s.stateSnapshots.get snapshot.snapshotId = some old ∧ snapshots = s.stateSnapshots) ∨
        s.stateSnapshots.insert snapshot = some snapshots) := by
  unfold RetentionStore.insertSnapshot
  cases hget : s.stateSnapshots.get snapshot.snapshotId with
  | some old => exact ⟨s.stateSnapshots,rfl,.inl ⟨old,rfl,rfl⟩⟩
  | none =>
    obtain ⟨snapshots,hinsert⟩ := insert_of_new (a := snapshot) hget
    refine ⟨snapshots,?_,.inr hinsert⟩
    dsimp only
    rw [hinsert]
    rfl

theorem prepareManifest_ok (m : CompactionManifest) (s : RetentionStore) :
    ∃ manifests, RetentionStore.prepareManifest m s = .ok { s with compactionManifests := manifests } ∧
      ((∃ old, s.compactionManifests.get m.compactionId = some old ∧
          manifests = s.compactionManifests.put { old with status := .prepared }) ∨
        s.compactionManifests.insert m = some manifests) := by
  unfold RetentionStore.prepareManifest
  cases hget : s.compactionManifests.get m.compactionId with
  | some old => exact ⟨_,rfl,.inl ⟨old,rfl,rfl⟩⟩
  | none =>
    obtain ⟨manifests,hinsert⟩ := insert_of_new (a := m) hget
    refine ⟨manifests,?_,.inr hinsert⟩
    dsimp only
    rw [hinsert]
    rfl

/-- The store once the snapshot and the manifest are written. -/
structure Prepared (s t : RetentionStore) (snapshot : StateSnapshot) (m : CompactionManifest) : Prop where
  untouched : Untouched s t
  blobs : t.contentBlobs = s.contentBlobs
  snapshots : (∃ old, s.stateSnapshots.get snapshot.snapshotId = some old ∧ t.stateSnapshots = s.stateSnapshots) ∨
    s.stateSnapshots.insert snapshot = some t.stateSnapshots
  manifests : (∃ old, s.compactionManifests.get m.compactionId = some old ∧
      t.compactionManifests = s.compactionManifests.put { old with status := .prepared }) ∨
    s.compactionManifests.insert m = some t.compactionManifests

def Pending (t : RetentionStore) (compactionId : String) : Prop :=
  ∃ m, t.compactionManifests.get compactionId = some m ∧ m.status ≠ .committed

theorem Prepared.pending (h : Prepared s t snapshot m)
    (hm : m.status = .prepared) : Pending t m.compactionId := by
  rcases h.manifests with ⟨old,hold,hput⟩ | hinsert
  · have hid : old.compactionId = m.compactionId := key_of_get hold
    refine ⟨{ old with status := .prepared },?_,?_⟩
    · rw [hput]
      exact (get_put (a := { old with status := .prepared }) (hid ▸ hold) _).trans (if_pos hid)
    · exact fun h => by cases h
  · refine ⟨m,?_,?_⟩
    · rw [get_insert hinsert]
      exact if_pos rfl
    · rw [hm]
      exact fun h => by cases h

/-! ## Archiving -/

/-- Stores contents until one is refused. -/
def storeAll : List ContentBlob → RetentionStore → RetentionStore × Outcome Unit
  | [], s => (s,.ok ())
  | b :: rest, s => match RetentionStore.insertBlob b s with
    | .ok t => storeAll rest t
    | .error e => (s,.error e)

/-- The contents of segments, with the clock readings they are stored at. -/
def segmentBlobs (rt : Runtime) (archivedAt : ℕ → String) (s : RetentionStore) : ℕ → List String → List ContentBlob
  | _, [] => []
  | n, sid :: rest =>
    blobOf rt (canonicalJsonStr (segmentBlob sid (s.eventsOf sid))) (archivedAt n) :: segmentBlobs rt archivedAt s (n + 1) rest

theorem insertBlob_untouched {b : ContentBlob} (h : RetentionStore.insertBlob b s = .ok t) :
    t = { s with contentBlobs := t.contentBlobs } := by
  unfold RetentionStore.insertBlob at h
  split at h
  · cases h
    rfl
  · obtain ⟨_,_,h⟩ := rest₂ h
    cases pure_ok.mp h
    rfl

theorem storeAll_untouched (blobs : List ContentBlob) (s : RetentionStore) :
    (storeAll blobs s).1 = { s with contentBlobs := (storeAll blobs s).1.contentBlobs } := by
  induction blobs generalizing s with
  | nil => rfl
  | cons b rest ih =>
    unfold storeAll
    cases hb : RetentionStore.insertBlob b s with
    | error e => rfl
    | ok t =>
      dsimp only
      rw [ih t,insertBlob_untouched hb]

theorem segmentBlobs_congr (archivedAt : ℕ → String) (h : t.segmentedEvents = s.segmentedEvents) (n : ℕ)
    (sids : List String) : segmentBlobs rt archivedAt t n sids = segmentBlobs rt archivedAt s n sids := by
  induction sids generalizing n with
  | nil => rfl
  | cons sid rest ih =>
    unfold segmentBlobs
    rw [ih,RetentionStore.eventsOf,h,RetentionStore.eventsOf]

theorem exec_archiveSegments {α : Type} (archivedAt : ℕ → String) (n : ℕ) (sids : List String)
    (k : List String → Db α) (s : RetentionStore) :
    (archiveSegments rt archivedAt n sids >>= k).exec (.fresh s) =
      match storeAll (segmentBlobs rt archivedAt s n sids) s with
      | (t,.ok _) => (k ((segmentBlobs rt archivedAt s n sids).map (·.contentRef))).exec (.fresh t)
      | (t,.error e) => (.error e,.fresh t) := by
  induction sids generalizing n k s with
  | nil => rfl
  | cons sid rest ih =>
    unfold archiveSegments
    rw [bind_assoc,exec_read]
    dsimp only
    unfold storeContent
    rw [bind_assoc,bind_assoc,exec_write]
    simp only [segmentBlobs,storeAll,Connection.fresh]
    cases hb : RetentionStore.insertBlob _ s with
    | error e => rfl
    | ok t =>
      have hevents : t.segmentedEvents = s.segmentedEvents := by rw [insertBlob_untouched hb]
      dsimp only
      rw [pure_bind,bind_assoc]
      refine (ih (n + 1) _ t).trans ?_
      rw [segmentBlobs_congr archivedAt hevents]
      rfl

theorem insertBlob_stored {b : ContentBlob} (h : RetentionStore.insertBlob b s = .ok t) :
    t.hasContent b.contentRef = true ∧ ∀ ref, s.hasContent ref = true → t.hasContent ref = true := by
  unfold RetentionStore.insertBlob at h
  split at h
  · rename_i old hold
    cases h
    exact ⟨by rw [RetentionStore.hasContent,hold]; rfl,fun _ h => h⟩
  · obtain ⟨_,h⟩ := rest_ok h
    obtain ⟨blobs,hinsert,h⟩ := bind_ok.mp h
    cases pure_ok.mp h
    have hinsert := need_ok.mp hinsert
    unfold RetentionStore.hasContent
    refine ⟨?_,fun ref href => ?_⟩
    · rw [get_insert hinsert,if_pos rfl]
      rfl
    · rw [get_insert hinsert]
      split
      · rfl
      · exact href

theorem storeAll_stored (h : storeAll blobs s = (t,.ok ())) :
    (∀ b ∈ blobs, t.hasContent b.contentRef = true) ∧ ∀ ref, s.hasContent ref = true → t.hasContent ref = true := by
  induction blobs generalizing s with
  | nil =>
    cases h
    exact ⟨fun _ h => (not_mem_nil h).elim,fun _ h => h⟩
  | cons b rest ih =>
    unfold storeAll at h
    cases hb : RetentionStore.insertBlob b s with
    | error e =>
      rw [hb] at h
      cases h
    | ok u =>
      rw [hb] at h
      obtain ⟨hrest,hkept⟩ := ih h
      obtain ⟨hstored,hold⟩ := insertBlob_stored hb
      refine ⟨fun c hc => ?_,fun ref href => hkept ref (hold ref href)⟩
      rcases mem_cons.mp hc with rfl | hc
      · exact hkept _ hstored
      · exact hrest c hc

/-! ## Pruning -/

theorem entitiesOf_prune (sids : List String) (s : RetentionStore) :
    (s.prune projectId sids).entitiesOf projectId =
      (s.entitiesOf projectId).filter fun e => !(e.retentionClass == .archivable) := by
  unfold RetentionStore.entitiesOf RetentionStore.prune Table.remove
  dsimp only
  rw [filter_filter,filter_filter]
  refine filter_congr fun e _ => ?_
  cases e.projectId == projectId <;> simp

theorem filter_prune (projectId : String) (sids : List String) (s : RetentionStore) {p : RetentionClass → Bool} (hp : p .archivable = false) :
    ((s.prune projectId sids).entitiesOf projectId).filter (fun e => p e.retentionClass) =
      (s.entitiesOf projectId).filter fun e => p e.retentionClass := by
  rw [entitiesOf_prune,filter_filter]
  refine filter_congr fun e _ => ?_
  cases hc : e.retentionClass <;> simp [hp]

theorem digest_prune (sids : List String) (s : RetentionStore) :
    (s.prune projectId sids).computeLogicalStateDigest rt projectId = s.computeLogicalStateDigest rt projectId := by
  have hfilter := filter_prune projectId sids s (p := fun c => c == .active || c == .unresolved) rfl
  unfold RetentionStore.computeLogicalStateDigest RetentionStore.logicalEntities
  rw [hfilter]

theorem countOf_prune (sids : List String) (s : RetentionStore) {c : RetentionClass} (hc : c ≠ .archivable) :
    (s.prune projectId sids).countOf projectId c = s.countOf projectId c := by
  have hfilter := filter_prune projectId sids s (p := fun d => d == c) (by simpa using hc.symm)
  unfold RetentionStore.countOf
  rw [countP_eq_length_filter,countP_eq_length_filter,hfilter]

theorem digest_untouched (h : Untouched s t) :
    t.computeLogicalStateDigest rt projectId = s.computeLogicalStateDigest rt projectId := by
  unfold RetentionStore.computeLogicalStateDigest RetentionStore.logicalEntities RetentionStore.entitiesOf
  rw [h.entities]

theorem countOf_untouched (h : Untouched s t) (c : RetentionClass) : t.countOf projectId c = s.countOf projectId c := by
  unfold RetentionStore.countOf RetentionStore.entitiesOf
  rw [h.entities]

/-! ## The boundaries -/

/-- How far a compaction comes, what it leaves and what it answers. -/
inductive Compacts (rt : Runtime) (projectId : String) (clock : CompactionClock) (s : RetentionStore)
    (m : CompactionManifest) (snapshot : StateSnapshot) : Option FaultStage → Except Failure CompactionAnswer → Database → Prop
  | prepared {s₁ : RetentionStore} (h : Prepared s s₁ snapshot m) :
      Compacts rt projectId clock s m snapshot (some .A) (.ok (interrupted m .A)) (.fresh s₁)
  | refused {s₁ t : RetentionStore} {fault : Option FaultStage} {e : Failure} (hfault : fault ≠ some .A)
      (h : Prepared s s₁ snapshot m)
      (hstore : storeAll (segmentBlobs rt clock.archived s 0 m.sourceSegments) s₁ = (t,.error e)) :
      Compacts rt projectId clock s m snapshot fault (.error e) (.fresh t)
  | archived {s₁ t : RetentionStore} {fault : FaultStage} (hfault : fault = .B ∨ fault = .C) (h : Prepared s s₁ snapshot m)
      (hstore : storeAll (segmentBlobs rt clock.archived s 0 m.sourceSegments) s₁ = (t,.ok ())) :
      Compacts rt projectId clock s m snapshot (some fault) (.ok (interrupted m fault))
        (.fresh (t.markArchived m.compactionId ((segmentBlobs rt clock.archived s 0 m.sourceSegments).map (·.contentRef))))
  | pruned {s₁ t u : RetentionStore} (h : Prepared s s₁ snapshot m)
      (hstore : storeAll (segmentBlobs rt clock.archived s 0 m.sourceSegments) s₁ = (t,.ok ()))
      (hu : u = t.markArchived m.compactionId ((segmentBlobs rt clock.archived s 0 m.sourceSegments).map (·.contentRef))) :
      Compacts rt projectId clock s m snapshot (some .D) (.ok (interrupted m .D)) ⟨u,u.prune projectId m.sourceSegments⟩
  | committed {s₁ t u : RetentionStore} {fault : Option FaultStage} {answer : CompactionAnswer}
      (hfault : fault = some .E ∨ fault = none) (h : Prepared s s₁ snapshot m)
      (hstore : storeAll (segmentBlobs rt clock.archived s 0 m.sourceSegments) s₁ = (t,.ok ()))
      (hu : u = t.markArchived m.compactionId ((segmentBlobs rt clock.archived s 0 m.sourceSegments).map (·.contentRef))) :
      Compacts rt projectId clock s m snapshot fault (.ok answer)
        (.fresh ((u.prune projectId m.sourceSegments).markCommitted m.compactionId clock.verified))

theorem storeAll_kept (h : storeAll blobs s = (t,o)) : t = { s with contentBlobs := t.contentBlobs } := by
  have ht := storeAll_untouched blobs s
  rw [h] at ht
  exact ht

theorem storeAll_untouches (h : storeAll blobs s = (t,o)) : Untouched s t := by
  rw [storeAll_kept h]
  exact ⟨rfl,rfl,rfl⟩

theorem executeCompaction_cases (rt : Runtime) (projectId : String) (revision : Int) (fault : Option FaultStage)
    (clock : CompactionClock) (c : Database) :
    Compacts rt projectId clock c.working
      (preparedManifest rt projectId revision clock.prepared c.working
        (snapshotOf rt projectId revision clock.snapshot c.working))
      (snapshotOf rt projectId revision clock.snapshot c.working) fault
      ((executeCompaction rt projectId revision fault clock).exec c).1
      ((executeCompaction rt projectId revision fault clock).exec c).2 := by
  obtain ⟨snapshots,hsnapshot,hsnapshots⟩ :=
    insertSnapshot_ok (snapshotOf rt projectId revision clock.snapshot c.working) c.working
  obtain ⟨manifests,hmanifest,hmanifests⟩ := prepareManifest_ok
    (preparedManifest rt projectId revision clock.prepared c.working
      (snapshotOf rt projectId revision clock.snapshot c.working)) { c.working with stateSnapshots := snapshots }
  unfold executeCompaction
  simp only [exec_read,createSnapshot,bind_assoc,exec_write,hsnapshot,fresh_working,
    pure_bind,hmanifest]
  generalize snapshotOf rt projectId revision clock.snapshot c.working = snapshot at *
  generalize hm : preparedManifest rt projectId revision clock.prepared c.working snapshot = m at *
  have hprepared : Prepared c.working { c.working with stateSnapshots := snapshots, compactionManifests := manifests }
    snapshot m := ⟨⟨rfl,rfl,rfl⟩,rfl,hsnapshots,hmanifests⟩
  generalize ({ c.working with stateSnapshots := snapshots, compactionManifests := manifests } : RetentionStore) = s₁
    at hprepared ⊢
  by_cases hA : fault = some .A
  · subst hA
    exact .prepared hprepared
  · rw [if_neg hA,exec_archiveSegments,segmentBlobs_congr clock.archived hprepared.untouched.events]
    rcases hstore : storeAll (segmentBlobs rt clock.archived c.working 0 m.sourceSegments) s₁ with ⟨t,o⟩
    cases o with
    | error e => exact .refused hA hprepared hstore
    | ok _ =>
      have hstored := (storeAll_stored hstore).1
      have huntouched : Untouched c.working t := hprepared.untouched.trans (storeAll_untouches hstore)
      dsimp only
      generalize hrefs : (segmentBlobs rt clock.archived c.working 0 m.sourceSegments).map (·.contentRef) = refs
      have hpresent : ¬ ∃ ref ∈ refs, (t.markArchived m.compactionId refs).hasContent ref = false := by
        rintro ⟨ref,href,hmissing⟩
        rw [← hrefs] at href
        obtain ⟨b,hb,rfl⟩ := mem_map.mp href
        have hb := hstored b hb
        rw [show (t.markArchived m.compactionId refs).hasContent b.contentRef = t.hasContent b.contentRef from rfl,hb]
          at hmissing
        cases hmissing
      simp only [exec_write,fresh_working]
      by_cases hB : fault = some .B
      · subst hB
        rw [← hrefs]
        exact .archived (.inl rfl) hprepared hstore
      · rw [if_neg hB,exec_read,fresh_working]
        dsimp only
        rw [if_neg hpresent]
        by_cases hC : fault = some .C
        · subst hC
          rw [← hrefs]
          exact .archived (.inr rfl) hprepared hstore
        · rw [if_neg hC,exec_execute,fresh_working]
          dsimp only
          by_cases hD : fault = some .D
          · subst hD
            exact .pruned hprepared hstore (by rw [hrefs]; rfl)
          · -- the logical state is the one from before, and its counts are too
            have hdigest : ((t.markArchived m.compactionId refs).prune projectId m.sourceSegments).computeLogicalStateDigest
                rt projectId = c.working.computeLogicalStateDigest rt projectId := by
              rw [digest_prune,RetentionStore.markArchived,digest_untouched (untouched_updateManifest ..),
                digest_untouched huntouched]
            have hcount : ∀ kind ≠ RetentionClass.archivable,
                ((t.markArchived m.compactionId refs).prune projectId m.sourceSegments).countOf projectId kind =
                  c.working.countOf projectId kind := by
              intro kind hkind
              rw [countOf_prune _ _ hkind,RetentionStore.markArchived,countOf_untouched (untouched_updateManifest ..),
                countOf_untouched huntouched]
            have hactive : m.retainedActiveCount = c.working.countOf projectId .active := by
              rw [← hm]
              rfl
            have hunresolved : m.retainedUnresolvedCount = c.working.countOf projectId .unresolved := by
              rw [← hm]
              rfl
            rw [if_neg hD,exec_read]
            dsimp only
            rw [if_neg (fun hne => hne hdigest),if_neg (by
              rintro (hne | hne)
              · exact hne ((hcount _ (by decide)).trans hactive.symm)
              · exact hne ((hcount _ (by decide)).trans hunresolved.symm)),exec_write]
            dsimp only
            by_cases hE : fault = some .E
            · rw [if_pos hE]
              exact .committed (.inl hE) hprepared hstore (by rw [hrefs])
            · have hnone : fault = none := by
                cases fault with
                | none => rfl
                | some stage => cases stage <;> simp at hA hB hC hD hE
              rw [if_neg hE]
              exact .committed (.inr hnone) hprepared hstore (by rw [hrefs])

/-! ## What a compaction leaves of the tables -/

theorem Untouched.prune (h : Untouched s t) (projectId : String) (sids : List String) :
    Untouched (s.prune projectId sids) (t.prune projectId sids) := by
  constructor
  · unfold RetentionStore.prune
    rw [h.entities]
  · unfold RetentionStore.prune
    rw [h.events]
  · exact h.segments

theorem Prepared.archived {s₁ : RetentionStore}
    (h : Prepared s s₁ snapshot m) (hstore : storeAll blobs s₁ = (t,o)) :
    Untouched s t := h.untouched.trans (storeAll_untouches hstore)

theorem Compacts.effect {clock : CompactionClock}
    {fault : Option FaultStage} {answer : Except Failure CompactionAnswer} {c : Database}
    (h : Compacts rt projectId clock s m snapshot fault answer c) :
    Untouched s c.working ∨ Untouched (s.prune projectId m.sourceSegments) c.working := by
  cases h with
  | prepared h => exact .inl h.untouched
  | refused _ h hstore => exact .inl (h.archived hstore)
  | archived _ h hstore => exact .inl ((h.archived hstore).trans ⟨rfl,rfl,rfl⟩)
  | @pruned s₁ t u h hstore hu =>
    have huntouched : Untouched s u := by
      rw [hu]
      exact (h.archived hstore).trans ⟨rfl,rfl,rfl⟩
    exact .inr (huntouched.prune _ _)
  | @committed s₁ t u fault answer hfault h hstore hu =>
    have huntouched : Untouched s u := by
      rw [hu]
      exact (h.archived hstore).trans ⟨rfl,rfl,rfl⟩
    exact .inr ((huntouched.prune _ _).trans ⟨rfl,rfl,rfl⟩)

end Bdb.Retention
