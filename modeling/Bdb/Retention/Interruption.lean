import Bdb.Retention.CompactionSteps

/-! # Interrupted compactions

A compaction that is interrupted and reconciled is rolled back or committed as a whole,
except in one place: its deletions are not committed at the fourth boundary, and a
reconciliation on the same connection commits them together with the rollback.
-/
namespace Bdb.Retention

open Table

variable {rt : Runtime} {s t : RetentionStore} {projectId : String} {clock : CompactionClock}

/-- The connection that a reconciliation runs on. -/
inductive Restart where
  | sameConnection
  | freshConnection
deriving DecidableEq

def Restart.resume : Restart → Database → Database
  | .sameConnection, c => c
  | .freshConnection, c => c.reopened

def Applied (projectId : String) (s t : RetentionStore) : Prop :=
  t.managedEntities = (s.prune projectId (s.sealedSegments projectId)).managedEntities ∧
    t.segmentedEvents = (s.prune projectId (s.sealedSegments projectId)).segmentedEvents

def Unchanged (s t : RetentionStore) : Prop :=
  t.managedEntities = s.managedEntities ∧ t.segmentedEvents = s.segmentedEvents

/-- The reconciliation answers that the compaction is committed, and it is applied, or that it
is rolled back, and nothing has changed, for the connection and for everybody else. -/
def AllOrNothing (rt : Runtime) (projectId : String) (revision : Int) (stage : FaultStage) (clock : CompactionClock)
    (restart : Restart) (c : Database) : Prop :=
  ∃ status message d,
    (reconcileInterruptedCompaction ("cmp-" ++ revisionSuffix projectId revision)).exec
      (restart.resume ((executeCompaction rt projectId revision (some stage) clock).exec c).2) = (.ok (status,message),d) ∧
    (status = "COMMITTED" ∧ Applied projectId c.working d.committed ∧ Applied projectId c.working d.working ∨
      status = "ROLLED_BACK" ∧ Unchanged c.working d.committed ∧ Unchanged c.working d.working)

/-- There is something that the compaction deletes. -/
def Prunable (projectId : String) (s : RetentionStore) : Prop :=
  (∃ e ∈ s.managedEntities.rows, e.projectId = projectId ∧ e.retentionClass = .archivable) ∨
    ∃ e ∈ s.segmentedEvents.rows, e.segmentId ∈ s.sealedSegments projectId

/-- No content of a sealed segment has the digest of a content stored under another reference. -/
def Storable (rt : Runtime) (projectId : String) (clock : CompactionClock) (s : RetentionStore) : Prop :=
  (storeAll (segmentBlobs rt clock.archived s 0 (s.sealedSegments projectId)) s).2 = .ok ()

/-! ## Contents and pruning -/

theorem insertBlob_congr (h : t.contentBlobs = s.contentBlobs) (b : ContentBlob) :
    (∀ s', RetentionStore.insertBlob b s = .ok s' →
      ∃ t', RetentionStore.insertBlob b t = .ok t' ∧ t'.contentBlobs = s'.contentBlobs) ∧
    ∀ e, RetentionStore.insertBlob b s = .error e → RetentionStore.insertBlob b t = .error e := by
  unfold RetentionStore.insertBlob
  rw [h]
  cases hget : s.contentBlobs.get b.contentRef with
  | some old =>
    refine ⟨fun s' hs' => ⟨t,rfl,?_⟩,fun e he => by cases he⟩
    cases hs'
    exact h
  | none =>
    dsimp only
    cases hdigest : require (∀ other ∈ s.contentBlobs.rows, other.digest ≠ b.digest) "IntegrityError"
        "UNIQUE constraint failed: content_blobs.digest" with
    | error e => exact ⟨fun s' hs' => (by cases hs'),fun e he => he⟩
    | ok u =>
      obtain ⟨blobs,hinsert⟩ := insert_of_new (a := b) hget
      rw [hinsert]
      refine ⟨fun s' hs' => ⟨_,rfl,?_⟩,fun e he => by cases he⟩
      cases hs'
      rfl

theorem storeAll_congr (blobs : List ContentBlob) (h : t.contentBlobs = s.contentBlobs) :
    (storeAll blobs t).2 = (storeAll blobs s).2 := by
  induction blobs generalizing s t with
  | nil => rfl
  | cons b rest ih =>
    unfold storeAll
    obtain ⟨hok,herror⟩ := insertBlob_congr h b
    cases hs : RetentionStore.insertBlob b s with
    | error e => rw [herror e hs]
    | ok s' =>
      obtain ⟨t',ht',hsame⟩ := hok s' hs
      rw [ht']
      exact ih hsame

theorem prune_eq (h : ¬ Prunable projectId s) :
    (s.prune projectId (s.sealedSegments projectId)).managedEntities = s.managedEntities ∧
      (s.prune projectId (s.sealedSegments projectId)).segmentedEvents = s.segmentedEvents := by
  constructor
  · refine remove_eq.mpr fun e he => ?_
    rw [Bool.and_eq_false_iff]
    by_contra hboth
    refine h (.inl ⟨e,he,?_⟩)
    simpa using hboth
  · refine remove_eq.mpr fun e he => ?_
    by_contra hin
    refine h (.inr ⟨e,he,?_⟩)
    simpa using hin

theorem prune_ne (h : Prunable projectId s) :
    ¬ Unchanged s (s.prune projectId (s.sealedSegments projectId)) := by
  rintro ⟨hentities,hevents⟩
  rcases h with ⟨e,he,hproject,hclass⟩ | ⟨e,he,hin⟩
  · have hkept := remove_eq.mp hentities e he
    simp [hproject,hclass] at hkept
  · have hkept := remove_eq.mp hevents e he
    simp [hin] at hkept

/-! ## Reconciliation -/

variable {compactionId : String}

theorem reconcile_pending {c : Database} (h : Pending c.working compactionId) :
    (reconcileInterruptedCompaction compactionId).exec c =
      (.ok ("ROLLED_BACK","rolled_back_to_uncompacted_state"),.fresh (c.working.markRolledBack compactionId)) := by
  obtain ⟨m,hm,hstatus⟩ := h
  unfold reconcileInterruptedCompaction
  rw [Connection.exec_read]
  dsimp only
  rw [hm]
  dsimp only
  rw [if_neg hstatus,Connection.exec_write]
  rfl

theorem reconcile_committed {c : Database} {m : CompactionManifest}
    (hm : c.working.compactionManifests.get compactionId = some m) (hstatus : m.status = .committed) :
    (reconcileInterruptedCompaction compactionId).exec c = (.ok ("COMMITTED","already_verified"),c) := by
  unfold reconcileInterruptedCompaction
  rw [Connection.exec_read]
  dsimp only
  rw [hm]
  dsimp only
  rw [if_pos hstatus]
  rfl

theorem Pending.archived (h : Pending t compactionId) (id : String) (refs : List String) :
    Pending (t.markArchived id refs) compactionId := by
  obtain ⟨m,hm,hstatus⟩ := h
  refine ⟨_,by rw [RetentionStore.markArchived,get_updateManifest,hm]; rfl,?_⟩
  dsimp only
  split
  · exact fun h => by cases h
  · exact hstatus

theorem Pending.stored (h : Pending s compactionId) {blobs : List ContentBlob} {o : Outcome Unit}
    (hstore : storeAll blobs s = (t,o)) : Pending t compactionId := by
  rw [storeAll_kept hstore]
  exact h

/-! ## Exactly where it fails -/

theorem Unchanged.of_untouched (h : Untouched s t) : Unchanged s t := ⟨h.entities,h.events⟩

/-- What a reconciliation has to give for the connection it runs on. -/
def Settles (projectId compactionId : String) (s : RetentionStore) (c : Database) : Prop :=
  ∃ status message d, (reconcileInterruptedCompaction compactionId).exec c = (.ok (status,message),d) ∧
    (status = "COMMITTED" ∧ Applied projectId s d.committed ∧ Applied projectId s d.working ∨
      status = "ROLLED_BACK" ∧ Unchanged s d.committed ∧ Unchanged s d.working)

theorem settles_of_pending (h : Untouched s t) (hpending : Pending t compactionId) :
    Settles projectId compactionId s (.fresh t) := by
  have hkept : Unchanged s (t.markRolledBack compactionId) := .of_untouched (h.trans (untouched_updateManifest ..))
  exact ⟨_,_,_,reconcile_pending hpending,.inr ⟨rfl,hkept,hkept⟩⟩

theorem settles_of_committed {verifiedAt : String} {sids : List String} (h : Untouched s t)
    (hsids : sids = s.sealedSegments projectId) (hpending : Pending t compactionId) :
    Settles projectId compactionId s (.fresh ((t.prune projectId sids).markCommitted compactionId verifiedAt)) := by
  obtain ⟨m,hm,-⟩ := hpending
  have hid : m.compactionId = compactionId := key_of_get hm
  have happlied : Applied projectId s ((t.prune projectId sids).markCommitted compactionId verifiedAt) := by
    subst hsids
    unfold Applied RetentionStore.markCommitted RetentionStore.updateManifest RetentionStore.prune
    dsimp only
    rw [h.entities,h.events]
    exact ⟨rfl,rfl⟩
  refine ⟨_,_,_,reconcile_committed (m := { m with status := .committed, verifiedAt := some verifiedAt }) ?_ rfl,
    .inl ⟨rfl,happlied,happlied⟩⟩
  rw [Connection.fresh_working,RetentionStore.markCommitted,get_updateManifest]
  change (t.compactionManifests.get compactionId).map _ = _
  rw [hm,Option.map_some,if_pos hid]

theorem settles_pruned_iff {sids : List String} (h : Untouched s t)
    (hsids : sids = s.sealedSegments projectId) (hpending : Pending t compactionId) :
    Settles projectId compactionId s ⟨t,t.prune projectId sids⟩ ↔ ¬ Prunable projectId s := by
  subst hsids
  have hpending' : Pending (t.prune projectId (s.sealedSegments projectId)) compactionId := hpending
  have hrun := reconcile_pending (c := ⟨t,t.prune projectId (s.sealedSegments projectId)⟩) hpending'
  have hsame : ∀ u, Unchanged u ((t.prune projectId (s.sealedSegments projectId)).markRolledBack compactionId) ↔
      Unchanged u (s.prune projectId (s.sealedSegments projectId)) := by
    intro u
    unfold Unchanged RetentionStore.markRolledBack RetentionStore.updateManifest RetentionStore.prune
    dsimp only
    rw [h.entities,h.events]
  constructor
  · rintro ⟨status,message,d,hd,hout⟩ hprunable
    rw [hrun] at hd
    cases hd
    rcases hout with ⟨hstatus,-⟩ | ⟨-,hkept,-⟩
    · exact absurd hstatus (by decide)
    · exact prune_ne hprunable ((hsame s).mp hkept)
  · intro hprunable
    have hkept := (hsame s).mpr (prune_eq hprunable)
    exact ⟨_,_,_,hrun,.inr ⟨rfl,hkept,hkept⟩⟩

/-- An interrupted compaction is all or nothing on either connection, unless it is interrupted
at the fourth boundary with something deleted and reconciled on the same connection. -/
theorem all_or_nothing_iff (rt : Runtime) (projectId : String) (revision : Int) (stage : FaultStage)
    (clock : CompactionClock) (restart : Restart) (c : Database) :
    AllOrNothing rt projectId revision stage clock restart c ↔
      ¬ (stage = .D ∧ restart = .sameConnection ∧ Storable rt projectId clock c.working ∧ Prunable projectId c.working) := by
  have hcases := executeCompaction_cases rt projectId revision (some stage) clock c
  change Settles projectId _ c.working (restart.resume _) ↔ _
  have hid : (preparedManifest rt projectId revision clock.prepared c.working
    (snapshotOf rt projectId revision clock.snapshot c.working)).compactionId = "cmp-" ++ revisionSuffix projectId revision := rfl
  have hsources : (preparedManifest rt projectId revision clock.prepared c.working
    (snapshotOf rt projectId revision clock.snapshot c.working)).sourceSegments = c.working.sealedSegments projectId := rfl
  have hstatus : (preparedManifest rt projectId revision clock.prepared c.working
    (snapshotOf rt projectId revision clock.snapshot c.working)).status = .prepared := rfl
  generalize (executeCompaction rt projectId revision (some stage) clock).exec c = out at hcases ⊢
  generalize preparedManifest rt projectId revision clock.prepared c.working
    (snapshotOf rt projectId revision clock.snapshot c.working) = m at hcases hid hsources hstatus
  generalize snapshotOf rt projectId revision clock.snapshot c.working = snapshot at hcases
  obtain ⟨answer,d⟩ := out
  rw [← hid]
  have hfresh : ∀ t, restart.resume ⟨t,t⟩ = .fresh t := fun t => by cases restart <;> rfl
  generalize hfault : some stage = fault at hcases
  cases hcases with
  | prepared h =>
    dsimp only
    rw [hfresh]
    refine iff_of_true (settles_of_pending h.untouched (h.pending hstatus)) fun hD => ?_
    rw [hD.1] at hfault
    cases hfault
  | refused _ h hstore =>
    dsimp only
    rw [hfresh]
    refine iff_of_true (settles_of_pending (h.untouched.trans (storeAll_untouches hstore))
      ((h.pending hstatus).stored hstore)) fun hD => ?_
    have hok := hD.2.2.1
    unfold Storable at hok
    rw [← hsources,← storeAll_congr _ h.blobs,hstore] at hok
    cases hok
  | archived hstage h hstore =>
    dsimp only
    rw [hfresh]
    refine iff_of_true (settles_of_pending
      ((h.untouched.trans (storeAll_untouches hstore)).trans (untouched_updateManifest ..))
      (((h.pending hstatus).stored hstore).archived _ _)) fun hD => ?_
    rw [hD.1] at hfault
    cases hfault
    rcases hstage with h | h <;> cases h
  | @pruned s₁ t u h hstore hu =>
    have huntouched : Untouched c.working u := by
      rw [hu]
      exact (h.untouched.trans (storeAll_untouches hstore)).trans (untouched_updateManifest ..)
    have hpending : Pending u m.compactionId := by
      rw [hu]
      exact ((h.pending hstatus).stored hstore).archived _ _
    have hstorable : Storable rt projectId clock c.working := by
      unfold Storable
      rw [← hsources,← storeAll_congr _ h.blobs,hstore]
    cases hfault
    cases restart with
    | freshConnection =>
      exact iff_of_true (settles_of_pending huntouched hpending) fun hD => by cases hD.2.1
    | sameConnection =>
      refine (settles_pruned_iff huntouched hsources hpending).trans ?_
      exact ⟨fun hnot hD => hnot hD.2.2.2,fun hnot hprunable => hnot ⟨rfl,rfl,hstorable,hprunable⟩⟩
  | @committed s₁ t u fault answer hstage h hstore hu =>
    dsimp only
    rw [hfresh]
    have huntouched : Untouched c.working u := by
      rw [hu]
      exact (h.untouched.trans (storeAll_untouches hstore)).trans (untouched_updateManifest ..)
    have hpending : Pending u m.compactionId := by
      rw [hu]
      exact ((h.pending hstatus).stored hstore).archived _ _
    refine iff_of_true (settles_of_committed huntouched hsources hpending) fun hD => ?_
    rw [← hfault,hD.1] at hstage
    rcases hstage with h | h <;> cases h

/-! ## An archivable entity at the fourth boundary -/

def sampleEntity : ManagedEntity :=
  ⟨"e1","p1","TASK",none,"DONE",.archivable,.obj [],"2026-01-01T00:00:00+00:00","2026-01-01T00:00:00+00:00"⟩

def sampleStore : RetentionStore :=
  { RetentionStore.empty with managedEntities := ⟨[sampleEntity],List.nodup_singleton _⟩ }

def sampleClock : CompactionClock :=
  ⟨"2026-01-01T00:00:01+00:00","2026-01-01T00:00:01+00:00",fun _ => "2026-01-01T00:00:01+00:00",
    "2026-01-01T00:00:01+00:00"⟩

/-- The compaction of the sample, interrupted at the fourth boundary and reconciled on the same
connection. -/
def sampleInterruption : Except Failure (String × String) × Database :=
  (reconcileInterruptedCompaction "cmp-p1-rev000001").exec
    ((executeCompaction retentionRuntime "p1" 1 (some .D) sampleClock).exec (.fresh sampleStore)).2

/-- The entity is lost although the compaction is answered as rolled back. -/
theorem interrupted_at_D_loses : ¬ AllOrNothing retentionRuntime "p1" 1 .D sampleClock .sameConnection (.fresh sampleStore) := by
  rintro ⟨status,message,d,hrun,hout⟩
  have hanswer : sampleInterruption.1 = .ok ("ROLLED_BACK","rolled_back_to_uncompacted_state") := rfl
  have hlost : sampleInterruption.2.committed.managedEntities.rows = [] := rfl
  have hrun : sampleInterruption = (.ok (status,message),d) := hrun
  rw [hrun] at hanswer hlost
  obtain ⟨rfl,-⟩ := Prod.mk.inj (Except.ok.inj hanswer)
  rcases hout with ⟨hstatus,-⟩ | ⟨-,⟨hkept,-⟩,-⟩
  · exact absurd hstatus (by decide)
  · rw [hkept] at hlost
    cases hlost

end Bdb.Retention
