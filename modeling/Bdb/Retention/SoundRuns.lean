import Bdb.Retention.NoLoss

/-! # Runs of sound compactions

Snapshots and manifests come in pairs, and what is pruned has its manifest. Registrations,
appends and seals leave all of them alone, and a sound compaction keeps them, so that
nothing is lost in a run whose compactions are sound.
-/
namespace Bdb.Retention

open Json List Option Table

variable {rt : Runtime} {l : Ledger} {projectId : String}

/-- Nothing is lost, and every manifest has its snapshot under the same revision. -/
structure Kept (rt : Runtime) (l : Ledger) : Prop where
  trails : Trails rt l.store l.watched.appended
  safe : LosesNothing rt l
  contents : WellKept rt l.store
  manifests : ∀ m ∈ l.store.compactionManifests.rows, ∃ σ x, m.compactionId = "cmp-" ++ σ ∧ m.snapshotId = "snap-" ++ σ ∧
    l.store.stateSnapshots.get ("snap-" ++ σ) = some x ∧ m.snapshotDigest = rt.sha256 (canonicalJsonStr x.snapshotData)
  snapshots : ∀ σ x, l.store.stateSnapshots.get ("snap-" ++ σ) = some x →
    ∃ m, l.store.compactionManifests.get ("cmp-" ++ σ) = some m

theorem kept_initial (rt : Runtime) : Kept rt .initial where
  trails := trails_empty rt
  safe :=
    { kept := fun _ _ h => (by cases h)
      entities := fun _ h => (not_mem_nil h).elim
      events := fun _ h => (not_mem_nil h).elim
      digests := fun _ h => (not_mem_nil h).elim
      sequences := fun _ h => (not_mem_nil h).elim }
  contents := fun _ h => (not_mem_nil h).elim
  manifests := fun _ h => (not_mem_nil h).elim
  snapshots := fun _ _ h => (by cases h)

theorem Ledger.next_store (l : Ledger) (call : RetentionCall) :
    (l.next rt call).store = ((call.program rt).exec l.watched.connection).2.working := rfl

theorem Kept.next_trails (h : Kept rt l) (call : RetentionCall) :
    Trails rt (l.next rt call).store (l.next rt call).watched.appended :=
  Trails.next (w := l.watched) h.trails call

variable {call : RetentionCall}

theorem Ledger.mem_appended {e : SegmentedEvent Json} (h : e ∈ (l.next rt call).watched.appended) :
    e ∈ l.watched.appended ∨ e ∈ (l.next rt call).store.segmentedEvents.rows := by
  rcases mem_append.mp h with h | h
  · exact .inl h
  · exact .inr (mem_filter.mp h).1

theorem Ledger.marks_old {x : StateSnapshot} (h : x ∈ l.store.stateSnapshots.rows) :
    (l.next rt call).marks x.snapshotId = l.marks x.snapshotId := by
  refine if_pos ?_
  rw [Table.get_of_mem h]
  rfl

/-! ## The calls that leave snapshots, manifests and contents alone -/

theorem Kept.frame (h : Kept rt l)
    (hmanifests : (l.next rt call).store.compactionManifests = l.store.compactionManifests)
    (hsnapshots : (l.next rt call).store.stateSnapshots = l.store.stateSnapshots)
    (hcontents : (l.next rt call).store.contentBlobs = l.store.contentBlobs)
    (hids : ∀ e ∈ l.store.managedEntities.rows, ((l.next rt call).store.managedEntities.get e.entityId).isSome = true)
    (hevents : ∀ e ∈ l.store.segmentedEvents.rows, e ∈ (l.next rt call).store.segmentedEvents.rows)
    (hkept : ∀ id e, (l.next rt call).registered id = some e → e.retentionClass ≠ .archivable →
      (l.next rt call).store.managedEntities.get id = some e) : Kept rt (l.next rt call) := by
  have hsaved : ∀ e, EntitySaved l.store e → EntitySaved (l.next rt call).store e := by
    unfold EntitySaved
    rw [hmanifests,hsnapshots]
    exact fun _ h => h
  have heventsaved : ∀ e, EventSaved l.store e → EventSaved (l.next rt call).store e := by
    unfold EventSaved ArchivedUnder
    rw [hmanifests,hcontents]
    exact fun _ h => h
  constructor
  · exact h.next_trails call
  · refine ⟨hkept,fun e he => ?_,fun e he hgone => ?_,?_,fun x hx => ?_⟩
    · rcases mem_append.mp he with he | he
      · exact hsaved e (h.safe.entities e he)
      · obtain ⟨he,hnone⟩ := mem_filter.mp he
        have hsome := hids e he
        rw [isNone_iff_eq_none] at hnone
        rw [show (l.next rt call).store.managedEntities.get e.entityId = none from hnone] at hsome
        cases hsome
    · rcases Ledger.mem_appended he with he | he
      · exact heventsaved e (h.safe.events e he fun hin => hgone (hevents e hin))
      · exact absurd he hgone
    · rw [hmanifests,hsnapshots]
      exact h.safe.digests
    · rw [hsnapshots] at hx
      rw [Ledger.marks_old hx]
      exact h.safe.sequences x hx
  · unfold WellKept
    rw [hcontents]
    exact h.contents
  · rw [hmanifests,hsnapshots]
    exact h.manifests
  · rw [hmanifests,hsnapshots]
    exact h.snapshots

theorem Kept.register (h : Kept rt l) (project : String) (r : Registration) (now : String) :
    Kept rt (l.next rt (.registerEntity project r now)) := by
  have hregisters : Registers l.store r.entityId (l.next rt (.registerEntity project r now)).store :=
    registerEntity_registers project r now l.watched.connection
  refine h.frame ?_ ?_ ?_ (fun e he => ?_) (fun e he => ?_) fun id e hid hclass => ?_
  · rw [hregisters.rest]
  · rw [hregisters.rest]
  · rw [hregisters.rest]
  · by_cases hid : e.entityId = r.entityId
    · obtain ⟨e',he'⟩ := hregisters.own
      rw [hid,he']
      rfl
    · rw [hregisters.others _ hid,Table.get_of_mem he]
      rfl
  · rw [hregisters.rest]
    exact he
  · by_cases hother : id = r.entityId
    · subst hother
      exact (if_pos (beq_self_eq_true _)).symm.trans hid
    · have hold : l.registered id = some e := (if_neg fun hsame => hother (eq_of_beq hsame).symm).symm.trans hid
      rw [hregisters.others _ hother]
      exact h.safe.kept id e hold hclass

theorem Kept.append (h : Kept rt l) (project : String) (most : Int) (eventType : String) (payload : Fields)
    (eventId : Option String) (now : String) :
    Kept rt (l.next rt (.appendEvent project most eventType payload eventId now)) := by
  have hstore : (l.next rt (.appendEvent project most eventType payload eventId now)).store =
      ((appendEvent rt project most eventType payload eventId now).exec l.watched.connection).2.working := by
    rw [Ledger.next_store]
    exact congrArg Connection.working (exec_forget _ _)
  obtain ⟨hrest,hevents⟩ := (appendEvent_cases rt project most eventType payload eventId now l.watched.connection).rest
  rw [← hstore] at hrest hevents
  refine h.frame ?_ ?_ ?_ (fun e he => ?_) hevents fun id e hid hclass => ?_
  · rw [hrest]
    rfl
  · rw [hrest]
    rfl
  · rw [hrest]
    rfl
  · rw [hrest]
    exact isSome_iff_exists.mpr ⟨e,Table.get_of_mem he⟩
  · rw [hrest]
    exact h.safe.kept id e hid hclass

theorem Kept.seal (h : Kept rt l) (segmentId now : String) : Kept rt (l.next rt (.sealSegment segmentId now)) := by
  have hrest := sealSegment_working segmentId now l.watched.connection
  have hstore : (l.next rt (.sealSegment segmentId now)).store =
      ((sealSegment segmentId now).exec l.watched.connection).2.working := rfl
  rw [← hstore] at hrest
  refine h.frame ?_ ?_ ?_ (fun e he => ?_) (fun e he => ?_) fun id e hid hclass => ?_
  · rw [hrest]
    rfl
  · rw [hrest]
    rfl
  · rw [hrest]
    rfl
  · rw [hrest]
    exact isSome_iff_exists.mpr ⟨e,Table.get_of_mem he⟩
  · rw [hrest]
    exact he
  · rw [hrest]
    exact h.safe.kept id e hid hclass

/-! ## Sound compactions -/

section Leaves

variable {s t : RetentionStore} {clock : CompactionClock} {m m₀ m' : CompactionManifest}

variable {m'' : CompactionManifest} {e : ManagedEntity}

section

variable (h : Leaves rt projectId clock s t m m₀ m')

include h

theorem Leaves.keeps
    (hm'' : m'' ∈ s.compactionManifests.rows) (hother : m''.compactionId ≠ m.compactionId) :
    m'' ∈ t.compactionManifests.rows := by
  have hget := (h.others _ hother).trans (Table.get_of_mem hm'')
  exact (get_eq_some.mp hget).1

theorem Leaves.recommits (hm'' : m'' ∈ s.compactionManifests.rows) (hcommitted : m''.status = .committed)
    (hsame : m''.compactionId = m.compactionId) :
    s.compactionManifests.get m.compactionId = some m'' ∧ m' ∈ t.compactionManifests.rows ∧ m'.status = .committed ∧
      m'.snapshotId = m''.snapshotId := by
  have hget : s.compactionManifests.get m.compactionId = some m'' := hsame ▸ Table.get_of_mem hm''
  have hbasis : m₀ = { m'' with status := .prepared } := by
    rcases h.basis with ⟨hnone,-⟩ | ⟨old,hold,hm₀⟩
    · rw [hnone] at hget
      cases hget
    · rw [hget] at hold
      cases hold
      exact hm₀
  rcases h.result with ⟨-,-,hopen⟩ | ⟨-,hagain,-⟩
  · exact absurd hcommitted (hopen m'' hget)
  · refine ⟨hget,(get_eq_some.mp h.own).1,hagain,?_⟩
    rw [h.snapshot.1,hbasis]

theorem Leaves.saves_entity
    (hsnapshots : ∀ id x, s.stateSnapshots.get id = some x → t.stateSnapshots.get id = some x)
    (he : EntitySaved s e) : EntitySaved t e := by
  obtain ⟨m'',hm'',hcommitted,x,hx,hin⟩ := he
  by_cases hsame : m''.compactionId = m.compactionId
  · obtain ⟨-,hmem,hagain,hsnapshot⟩ := h.recommits hm'' hcommitted hsame
    exact ⟨m',hmem,hagain,x,hsnapshots _ x (hsnapshot ▸ hx),hin⟩
  · exact ⟨m'',h.keeps hm'' hsame,hcommitted,x,hsnapshots _ x hx,hin⟩

theorem Leaves.archived_under
    {e : SegmentedEvent Json} (he : ArchivedUnder s m'' e) : ArchivedUnder t m'' e := by
  obtain ⟨ref,href,b,hb,hin⟩ := he
  exact ⟨ref,href,b,h.contents.2 ref b hb,hin⟩

end

theorem Leaves.saves_event {w : Watched} (h : Leaves rt projectId clock w.store t m m₀ m')
    (hreplaceable : ∀ m'', w.store.compactionManifests.get m.compactionId = some m'' → m''.status = .committed →
      Replaceable w m'') {e : SegmentedEvent Json} (happended : e ∈ w.appended)
    (hgone : e ∉ w.store.segmentedEvents.rows) (he : EventSaved w.store e) : EventSaved t e := by
  obtain ⟨m'',hm'',hcommitted,hunder⟩ := he
  by_cases hsame : m''.compactionId = m.compactionId
  · obtain ⟨hget,-⟩ := h.recommits hm'' hcommitted hsame
    rcases hreplaceable m'' hget hcommitted e happended hunder with hin | ⟨m₃,hm₃,hother,hcommitted₃,hunder₃⟩
    · exact absurd hin hgone
    · have hkeys : m₃.compactionId ≠ m.compactionId :=
        fun hkey => hother (eq_of_key hm₃ hm'' (hkey.trans hsame.symm))
      exact ⟨m₃,h.keeps hm₃ hkeys,hcommitted₃,h.archived_under hunder₃⟩
  · exact ⟨m'',h.keeps hm'' hsame,hcommitted,h.archived_under hunder⟩

theorem Leaves.saves_pruned_event (h : Leaves rt projectId clock s t m m₀ m') {e : SegmentedEvent Json}
    (he : e ∈ s.segmentedEvents.rows) (hgone : e ∉ t.segmentedEvents.rows) : EventSaved t e := by
  rcases h.result with ⟨hsame,-⟩ | ⟨hpruned,hcommitted,hrefs,hstored⟩
  · exact absurd (hsame.events ▸ he) hgone
  · have hin : e.segmentId ∈ m.sourceSegments := by
      by_contra hout
      refine hgone ?_
      rw [hpruned.events]
      exact mem_remove.mpr ⟨he,by simpa using hout⟩
    obtain ⟨b,hb,hpayload⟩ := @segmentBlobs_of_mem rt s _ clock.archived 0 _ hin
    obtain ⟨b',hb',hsame⟩ := hstored b hb
    refine ⟨m',(get_eq_some.mp h.own).1,hcommitted,b.contentRef,?_,b',hb',?_⟩
    · rw [hrefs]
      exact mem_map_of_mem hb
    · refine ⟨(s.eventsOf e.segmentId).map archivedEventJson,hsame.trans hpayload,mem_map_of_mem ?_⟩
      exact (mem_insertionSort _).mpr (mem_filter.mpr ⟨he,beq_self_eq_true _⟩)

theorem Leaves.pruned_entity (h : Leaves rt projectId clock s t m m₀ m')
    (he : e ∈ s.managedEntities.rows) (hgone : t.managedEntities.get e.entityId = none) :
    e.projectId = projectId ∧ e.retentionClass = .archivable ∧ m'.status = .committed := by
  rcases h.result with ⟨hsame,-⟩ | ⟨hpruned,hcommitted,-⟩
  · rw [hsame.entities,Table.get_of_mem he] at hgone
    cases hgone
  · rw [hpruned.entities] at hgone
    by_contra hother
    have hkept : (e.projectId == projectId && e.retentionClass == .archivable) = false := by
      by_contra htrue
      have hboth : e.projectId = projectId ∧ e.retentionClass = .archivable := by simpa using htrue
      exact hother ⟨hboth.1,hboth.2,hcommitted⟩
    rw [RetentionStore.prune,get_remove (Table.get_of_mem he) hkept] at hgone
    cases hgone

theorem Leaves.keeps_entity (h : Leaves rt projectId clock s t m m₀ m') {id : String}
    (he : s.managedEntities.get id = some e) (hclass : e.retentionClass ≠ .archivable) :
    t.managedEntities.get id = some e := by
  rcases h.result with ⟨hsame,-⟩ | ⟨hpruned,-⟩
  · rw [hsame.entities]
    exact he
  · rw [hpruned.entities]
    exact get_remove he (by simp [hclass])

end Leaves

theorem snapshotOf_has (rt : Runtime) (revision : Int) (now : String) {s : RetentionStore} {e : ManagedEntity}
    (he : e ∈ s.managedEntities.rows) (hproject : e.projectId = projectId) :
    Snapshotted (snapshotOf rt projectId revision now s) e := by
  refine ⟨[("snapshot_id",_),("project_id",_),("revision",_),("state_digest",_)],
    (s.entitiesOf projectId).map entityJson,rfl,mem_map_of_mem ?_⟩
  exact mem_filter.mpr ⟨he,beq_iff_eq.mpr hproject⟩

/-- The snapshot under the revision, which the manifest names, after a sound compaction. -/
structure OwnSnapshot (rt : Runtime) (l : Ledger) (projectId σ : String) (t : RetentionStore) (m' : CompactionManifest)
    (x : StateSnapshot) : Prop where
  stored : t.stateSnapshots.get ("snap-" ++ σ) = some x
  named : m'.snapshotId = "snap-" ++ σ
  digest : m'.snapshotDigest = rt.sha256 (canonicalJsonStr x.snapshotData)
  entities : ∀ e ∈ l.store.managedEntities.rows, e.projectId = projectId → e.retentionClass = .archivable → Snapshotted x e
  rows : ∀ y ∈ t.stateSnapshots.rows, y ∈ l.store.stateSnapshots.rows ∨
    l.store.stateSnapshots.get y.snapshotId = none ∧ y.projectId = projectId ∧
      y.lastAuditSequence = (eventsIn projectId l.watched.appended).length
  gets : ∀ σ' y, t.stateSnapshots.get ("snap-" ++ σ') = some y → σ' = σ ∨ l.store.stateSnapshots.get ("snap-" ++ σ') = some y
  replaceable : ∀ m, l.store.compactionManifests.get ("cmp-" ++ σ) = some m → m.status = .committed → Replaceable l.watched m

theorem append_left_inj {a σ τ : String} (h : a ++ σ = a ++ τ) : σ = τ := by
  have hlists := congrArg String.toList h
  rw [String.toList_append,String.toList_append] at hlists
  exact String.toList_inj.mp (append_cancel_left hlists)

variable {project : String} {revision : Int} {clock : CompactionClock}

theorem Kept.own_snapshot (h : Kept rt l) {s₁ t : RetentionStore} {m₀ m' : CompactionManifest}
    (hrevision : match l.store.stateSnapshots.get ("snap-" ++ revisionSuffix project revision) with
      | none => NewestResident project l.watched
      | some x => Repeatable project ("cmp-" ++ revisionSuffix project revision) l.watched x)
    (hprepared : Prepared l.store s₁ (snapshotOf rt project revision clock.snapshot l.store)
      (preparedManifest rt project revision clock.prepared l.store (snapshotOf rt project revision clock.snapshot l.store)))
    (ht : t.stateSnapshots = s₁.stateSnapshots)
    (hleaves : Leaves rt project clock l.store t
      (preparedManifest rt project revision clock.prepared l.store (snapshotOf rt project revision clock.snapshot l.store))
      m₀ m') : ∃ x, OwnSnapshot rt l project (revisionSuffix project revision) t m' x := by
  rcases hprepared.snapshot.2 with ⟨⟨x,hx⟩,hsame⟩ | ⟨hnone,hinsert⟩
  · -- a repeated revision keeps its snapshot and its manifest
    have hx : l.store.stateSnapshots.get ("snap-" ++ revisionSuffix project revision) = some x := hx
    rw [hx] at hrevision
    obtain ⟨old,hold⟩ := h.snapshots _ x hx
    obtain ⟨hmem,hid⟩ := get_eq_some.mp hold
    obtain ⟨σ,y,hcmp,hsnap,hy,hdigest⟩ := h.manifests old hmem
    obtain rfl := append_left_inj (hcmp.symm.trans hid)
    obtain rfl := Option.some.inj (hy.symm.trans hx)
    have hm₀ : m₀ = { old with status := .prepared } := by
      rcases hleaves.basis with ⟨hnone,-⟩ | ⟨old',hold',hm₀⟩
      · cases hnone.symm.trans hold
      · obtain rfl := Option.some.inj (hold'.symm.trans hold)
        exact hm₀
    have hrows : t.stateSnapshots = l.store.stateSnapshots := ht.trans hsame
    refine ⟨y,?_,?_,?_,hrevision.1,fun z hz => .inl (hrows ▸ hz),fun σ' z hz => .inr (hrows ▸ hz),hrevision.2⟩
    · rw [hrows]
      exact hx
    · rw [hleaves.snapshot.1,hm₀]
      exact hsnap
    · rw [hleaves.snapshot.2,hm₀]
      exact hdigest
  · have hnone : l.store.stateSnapshots.get ("snap-" ++ revisionSuffix project revision) = none := hnone
    rw [hnone] at hrevision
    rw [← ht] at hinsert
    have hnomanifest : l.store.compactionManifests.get ("cmp-" ++ revisionSuffix project revision) = none := by
      cases hget : l.store.compactionManifests.get ("cmp-" ++ revisionSuffix project revision) with
      | none => rfl
      | some old =>
        obtain ⟨hmem,hid⟩ := get_eq_some.mp hget
        obtain ⟨σ,y,hcmp,-,hy,-⟩ := h.manifests old hmem
        obtain rfl := append_left_inj (hcmp.symm.trans hid)
        cases hy.symm.trans hnone
    have hm₀ : m₀ = preparedManifest rt project revision clock.prepared l.store
        (snapshotOf rt project revision clock.snapshot l.store) := by
      rcases hleaves.basis with ⟨-,hm₀⟩ | ⟨old,hold,-⟩
      · exact hm₀
      · cases hold.symm.trans hnomanifest
    refine ⟨snapshotOf rt project revision clock.snapshot l.store,(get_insert hinsert _).trans (if_pos rfl),?_,?_,
      fun e he hproject _ => snapshotOf_has rt revision clock.snapshot he hproject,fun y hy => ?_,fun σ' y hy => ?_,
      fun m hm => by cases hm.symm.trans hnomanifest⟩
    · rw [hleaves.snapshot.1,hm₀]
      rfl
    · rw [hleaves.snapshot.2,hm₀]
      rfl
    · rcases (mem_insert hinsert).mp hy with hy | rfl
      · exact .inl hy
      · exact .inr ⟨hnone,rfl,lastAuditSequence_eq h.trails hrevision⟩
    · rw [get_insert hinsert] at hy
      by_cases hsame : "snap-" ++ revisionSuffix project revision = "snap-" ++ σ'
      · exact .inl (append_left_inj hsame).symm
      · exact .inr ((if_neg hsame).symm.trans hy)

theorem compact_appended (l : Ledger) (project : String) (revision : Int) (fault : Option FaultStage)
    (clock : CompactionClock) :
    (l.next rt (.executeCompaction project revision fault clock)).watched.appended = l.watched.appended := by
  have heffect := executeCompaction_effect rt project revision fault clock l.watched.connection
  rw [← exec_forget] at heffect
  refine (congrArg (l.watched.appended ++ ·) (newEvents_of_subset fun e he => ?_)).trans (append_nil _)
  rcases heffect with hsame | hpruned
  · exact hsame.events ▸ he
  · have hin : e ∈ (l.store.prune project (l.store.sealedSegments project)).segmentedEvents.rows := hpruned.events ▸ he
    exact (mem_remove.mp hin).1

theorem Kept.compact (h : Kept rt l) {fault : Option FaultStage}
    (hsound : Sound rt l (.executeCompaction project revision fault clock)) :
    Kept rt (l.next rt (.executeCompaction project revision fault clock)) := by
  obtain ⟨hdistinct,hfault,hrevision⟩ := hsound
  have hstore : (l.next rt (.executeCompaction project revision fault clock)).store =
      ((executeCompaction rt project revision fault clock).exec l.watched.connection).2.working := by
    rw [Ledger.next_store]
    exact congrArg Connection.working (exec_forget _ _)
  obtain ⟨s₁,m₀,m',hprepared,hsnapshots,hleaves⟩ :=
    (executeCompaction_cases rt project revision fault clock l.watched.connection).leaves h.contents rfl rfl hdistinct hfault
  rw [← hstore] at hsnapshots hleaves
  have htrails := h.next_trails (.executeCompaction project revision fault clock)
  obtain ⟨x,hx⟩ := h.own_snapshot hrevision hprepared hsnapshots hleaves
  have hmono := hprepared.snapshot.1
  rw [← hsnapshots] at hmono
  have hown := (get_eq_some.mp hleaves.own).1
  have hmanifests : ∀ m'' ∈ (l.next rt (.executeCompaction project revision fault clock)).store.compactionManifests.rows,
      ∃ σ y, m''.compactionId = "cmp-" ++ σ ∧ m''.snapshotId = "snap-" ++ σ ∧
        (l.next rt (.executeCompaction project revision fault clock)).store.stateSnapshots.get ("snap-" ++ σ) = some y ∧
        m''.snapshotDigest = rt.sha256 (canonicalJsonStr y.snapshotData) := by
    intro m'' hm''
    by_cases hsame : m''.compactionId = "cmp-" ++ revisionSuffix project revision
    · obtain rfl := eq_of_key hm'' hown (hsame.trans (key_of_get hleaves.own).symm)
      exact ⟨_,x,hsame,hx.named,hx.stored,hx.digest⟩
    · have hget := (hleaves.others _ hsame).symm.trans (Table.get_of_mem hm'')
      obtain ⟨σ,y,hcmp,hsnap,hy,hdigest⟩ := h.manifests m'' (get_eq_some.mp hget).1
      exact ⟨σ,y,hcmp,hsnap,hmono _ y hy,hdigest⟩
  have hsequences : ∀ y ∈ (l.next rt (.executeCompaction project revision fault clock)).store.stateSnapshots.rows,
      y.lastAuditSequence = (l.next rt (.executeCompaction project revision fault clock)).marks y.snapshotId := by
    intro y hy
    rcases hx.rows y hy with hold | ⟨hnew,hproject,hlength⟩
    · rw [Ledger.marks_old hold]
      exact h.safe.sequences y hold
    · have hmark : (l.next rt (.executeCompaction project revision fault clock)).marks y.snapshotId =
          (eventsIn y.projectId (l.next rt (.executeCompaction project revision fault clock)).watched.appended).length := by
        refine (if_neg ?_).trans ?_
        · rw [hnew]
          exact fun h => by cases h
        · have hget := Table.get_of_mem hy
          split
          · rename_i x' hfound
            obtain rfl := Option.some.inj (hfound.symm.trans hget)
            rfl
          · rename_i hnone
            cases hnone.symm.trans hget
      rw [hmark,compact_appended,hproject,hlength]
  refine ⟨htrails,⟨fun id e he hclass => ?_,fun e he => ?_,fun e he hgone => ?_,fun m'' hm'' _ => ?_,hsequences⟩,
    hleaves.contents.1,hmanifests,fun σ y hy => ?_⟩
  · exact hleaves.keeps_entity (h.safe.kept id e he hclass) hclass
  · rcases mem_append.mp he with he | he
    · exact hleaves.saves_entity hmono (h.safe.entities e he)
    · obtain ⟨he,hgone⟩ := mem_filter.mp he
      obtain ⟨hproject,hclass,hcommitted⟩ := hleaves.pruned_entity he (isNone_iff_eq_none.mp hgone)
      exact ⟨m',hown,hcommitted,x,hx.named ▸ hx.stored,hx.entities e he hproject hclass⟩
  · by_cases hin : e ∈ l.store.segmentedEvents.rows
    · exact hleaves.saves_pruned_event hin hgone
    · have happended : e ∈ l.watched.appended := (Ledger.mem_appended he).resolve_right hgone
      exact hleaves.saves_event hx.replaceable happended hin (h.safe.events e happended hin)
  · obtain ⟨σ,y,-,hsnap,hy,hdigest⟩ := hmanifests m'' hm''
    exact ⟨y,hsnap ▸ hy,hdigest⟩
  · by_cases hsame : σ = revisionSuffix project revision
    · subst hsame
      exact ⟨m',hleaves.own⟩
    · obtain ⟨old,hold⟩ := h.snapshots σ y ((hx.gets σ y hy).resolve_left hsame)
      exact ⟨old,(hleaves.others _ fun hids => hsame (append_left_inj hids)).trans hold⟩

/-! ## Runs -/

theorem Kept.next (h : Kept rt l) (call : RetentionCall) (hsound : Sound rt l call) : Kept rt (l.next rt call) := by
  cases call with
  | registerEntity project r now => exact h.register project r now
  | appendEvent project most eventType payload eventId now => exact h.append project most eventType payload eventId now
  | sealSegment segmentId now => exact h.seal segmentId now
  | executeCompaction project revision fault clock => exact h.compact hsound

/-- Nothing is lost in a run whose compactions are all sound. -/
theorem sound_runs_lose_nothing (rt : Runtime) (calls : List RetentionCall)
    (hsound : Along (Ledger.next rt) (Sound rt) .initial calls) : LosesNothing rt (ledgerRun rt calls) :=
  (hsound.invariant (fun _ call h hstep => Kept.next h call hstep) (kept_initial rt)).safe

def sampleRegistration : RetentionCall :=
  .registerEntity "p1" ⟨"e1","TASK",none,"DONE",.archivable,[]⟩ "2026-01-01T00:00:00+00:00"

def sampleFilling : RetentionCall := .appendEvent "p1" 1 "NOTE" [] none "2026-01-01T00:00:00+00:00"

def sampleLedger : Ledger := ledgerRun retentionRuntime [sampleRegistration,sampleFilling]

theorem sampleLedger_sound : Sound retentionRuntime sampleLedger (.executeCompaction "p1" 1 none sampleClock) := by
  refine ⟨fun x hx y hy _ => ?_,trivial,?_⟩
  · have hsingle : (contentTexts "p1" sampleLedger.store).length = 1 := by decide +kernel
    obtain ⟨z,hz⟩ := length_eq_one_iff.mp hsingle
    rw [hz] at hx hy
    rw [mem_singleton.mp hx,mem_singleton.mp hy]
  · have hnew : sampleLedger.store.stateSnapshots.get ("snap-" ++ revisionSuffix "p1" 1) = none := by decide +kernel
    have hresident : ∀ e ∈ eventsIn "p1" sampleLedger.watched.appended, e ∈ sampleLedger.store.segmentedEvents.rows := by
      decide +kernel
    rw [hnew]
    exact fun e he => hresident e (mem_of_getLast? he)

/-- An archivable entity and the event of a sealed segment, compacted under a new revision. -/
theorem sample_compaction_loses_nothing : LosesNothing retentionRuntime
    (ledgerRun retentionRuntime [sampleRegistration,sampleFilling,.executeCompaction "p1" 1 none sampleClock]) :=
  sound_runs_lose_nothing retentionRuntime [sampleRegistration,sampleFilling,.executeCompaction "p1" 1 none sampleClock]
    ⟨trivial,trivial,sampleLedger_sound,trivial⟩

/-! ## A second compaction after the events are pruned -/

def secondCalls : List RetentionCall :=
  [sampleFilling,.executeCompaction "p1" 1 none sampleClock,.executeCompaction "p1" 2 none sampleClock]

/-- One event was appended, and the second snapshot says that there was none. -/
theorem second_snapshot_forgets : ¬ LosesNothing retentionRuntime (ledgerRun retentionRuntime secondCalls) := by
  intro h
  have hrun : ((ledgerRun retentionRuntime secondCalls).store.stateSnapshots.get "snap-p1-rev000002").map
      (·.lastAuditSequence) = some 0 ∧ (ledgerRun retentionRuntime secondCalls).marks "snap-p1-rev000002" = 1 := by
    decide +kernel
  obtain ⟨hsequence,hmark⟩ := hrun
  obtain ⟨x,hx,hzero⟩ := map_eq_some_iff.mp hsequence
  obtain ⟨hmem,hid⟩ := get_eq_some.mp hx
  have hmarked := h.sequences x hmem
  rw [hid,hmark,hzero] at hmarked
  cases hmarked

end Bdb.Retention
