import Bdb.Retention.Ledger

/-! # Sound compactions lose nothing

Contents, snapshots and manifests are only added, and the manifest of a compaction takes
its contents when it is committed. So what a sound compaction prunes is saved by its
manifest, and what others saved stays saved.
-/
namespace Bdb.Retention

open Json List Table

variable {rt : Runtime} {s t : RetentionStore} {projectId : String}

/-! ## The sequence number of a snapshot -/

theorem lastAuditSequence_eq {w : Watched} (h : Trails rt w.store w.appended) (hnewest : NewestResident projectId w) :
    w.store.lastAuditSequence projectId = (eventsIn projectId w.appended).length := by
  have hnumbers := h.numbers projectId
  have hbound : ∀ e ∈ w.store.segmentedEvents.rows, e.projectId = projectId →
      e.sequenceNumber ≤ (eventsIn projectId w.appended).length := by
    intro e he hproject
    have hmem : e ∈ eventsIn projectId w.appended := hproject ▸ h.resident he
    have hin : e.sequenceNumber ∈ (eventsIn projectId w.appended).map (·.sequenceNumber) := mem_map_of_mem hmem
    rw [hnumbers,mem_range'_1] at hin
    omega
  unfold RetentionStore.lastAuditSequence
  cases hmax : (w.store.segmentedEvents.rows.filter fun e => e.projectId == projectId).argmax (·.sequenceNumber) with
  | none =>
    rw [argmax_eq_none,filter_eq_nil_iff] at hmax
    cases hlast : (eventsIn projectId w.appended).getLast? with
    | none => rw [List.getLast?_eq_none_iff.mp hlast]; rfl
    | some e =>
      have hmem := (mem_filter.mp (mem_of_getLast? hlast)).2
      exact absurd hmem (hmax e (hnewest e hlast))
  | some e =>
    obtain ⟨he,hproject⟩ := mem_filter.mp (argmax_mem hmax)
    have hle := hbound e he (eq_of_beq hproject)
    cases hlast : (eventsIn projectId w.appended).getLast? with
    | none =>
      rw [List.getLast?_eq_none_iff.mp hlast] at hle ⊢
      exact Nat.le_zero.mp hle
    | some last =>
      have hmem := mem_of_getLast? hlast
      have hge := le_of_mem_argmax (mem_filter.mpr ⟨hnewest last hlast,(mem_filter.mp hmem).2⟩) hmax
      have hnumber : last.sequenceNumber = (eventsIn projectId w.appended).length := by
        have hpos : 0 < (eventsIn projectId w.appended).length := length_pos_of_mem hmem
        have hmap : ((eventsIn projectId w.appended).map (·.sequenceNumber)).getLast? = some last.sequenceNumber := by
          rw [List.getLast?_map,hlast]
          rfl
        rw [hnumbers,List.getLast?_range'] at hmap
        rw [if_neg (by omega)] at hmap
        have := Option.some.inj hmap
        omega
      dsimp only at hge ⊢
      omega

/-! ## Contents -/

/-- A content is stored under its own reference, with its own digest. -/
def WellKept (rt : Runtime) (s : RetentionStore) : Prop :=
  ∀ b ∈ s.contentBlobs.rows, b = blobOf rt b.payload b.createdAt

theorem append_separator {c : Char} {l l' r r' : List Char} (hr : c ∉ r) (hr' : c ∉ r')
    (h : l ++ c :: r = l' ++ c :: r') : l = l' := by
  rcases append_eq_append_iff.mp h with ⟨a,hl,ha⟩ | ⟨a,hl,ha⟩
  · cases a with
    | nil => simpa using hl.symm
    | cons x a =>
      obtain ⟨rfl,rfl⟩ := List.cons.inj ha
      simp at hr
  · cases a with
    | nil => simpa using hl
    | cons x a =>
      obtain ⟨rfl,rfl⟩ := List.cons.inj ha
      simp at hr'

theorem digest_of_ref {x y : List Char} {now now' : String} (h : (blobOf rt x now).contentRef = (blobOf rt y now').contentRef) :
    rt.sha256 x = rt.sha256 y := by
  have hdigits : ∀ n : ℕ, ':' ∉ n.repr.toList := by
    intro n hn
    rw [Nat.toList_repr] at hn
    have hdigit := Nat.isDigit_of_mem_toDigits (by omega) (by omega) hn
    revert hdigit
    decide
  have hlists : ("cref:".toList ++ (rt.sha256 x).toList) ++ ':' :: (byteLength x).repr.toList =
      ("cref:".toList ++ (rt.sha256 y).toList) ++ ':' :: (byteLength y).repr.toList := by
    have htexts := congrArg String.toList h
    simpa only [blobOf,String.toList_append,show ":".toList = [':'] from rfl,append_assoc,singleton_append]
      using htexts
  have hsplit := append_separator (hdigits _) (hdigits _) hlists
  exact String.toList_inj.mp (append_cancel_left hsplit)

variable {b : ContentBlob} {m : CompactionManifest} {sids : List String}

theorem insertBlob_cases {o : Outcome RetentionStore} (h : RetentionStore.insertBlob b s = o) :
    (∃ old, s.contentBlobs.get b.contentRef = some old ∧ o = .ok s) ∨
      (∃ t, o = .ok t ∧ s.contentBlobs.insert b = some t.contentBlobs) ∨
        (∃ other ∈ s.contentBlobs.rows, other.digest = b.digest) ∧ s.contentBlobs.get b.contentRef = none := by
  subst h
  unfold RetentionStore.insertBlob
  cases hget : s.contentBlobs.get b.contentRef with
  | some old => exact .inl ⟨old,rfl,rfl⟩
  | none =>
    by_cases hdigest : ∀ other ∈ s.contentBlobs.rows, other.digest ≠ b.digest
    · obtain ⟨blobs,hinsert⟩ := insert_of_new (a := b) hget
      refine .inr (.inl ⟨{ s with contentBlobs := blobs },?_,hinsert⟩)
      dsimp only
      rw [hinsert]
      exact bind_ok.mpr ⟨(),require_ok.mpr hdigest,rfl⟩
    · refine .inr (.inr ⟨?_,rfl⟩)
      by_contra hnone
      exact hdigest fun other hother hsame => hnone ⟨other,hother,hsame⟩

def textsWith (s : RetentionStore) (blobs : List ContentBlob) : List (List Char) :=
  s.contentBlobs.rows.map (·.payload) ++ blobs.map (·.payload)

theorem storeAll_distinguished {blobs : List ContentBlob} (hkept : WellKept rt s)
    (hblobs : ∀ b ∈ blobs, b = blobOf rt b.payload b.createdAt)
    (hdistinct : ∀ x ∈ textsWith s blobs, ∀ y ∈ textsWith s blobs, rt.sha256 x = rt.sha256 y → x = y) :
    ∃ t, storeAll blobs s = (t,.ok ()) ∧ WellKept rt t ∧
      (∀ ref b, s.contentBlobs.get ref = some b → t.contentBlobs.get ref = some b) ∧
      ∀ b ∈ blobs, ∃ b', t.contentBlobs.get b.contentRef = some b' ∧ b'.payload = b.payload := by
  induction blobs generalizing s with
  | nil => exact ⟨s,rfl,hkept,fun _ _ h => h,fun _ h => (not_mem_nil h).elim⟩
  | cons b rest ih =>
    have hb := hblobs b mem_cons_self
    have hrest : ∀ c ∈ rest, c = blobOf rt c.payload c.createdAt := fun c hc => hblobs c (mem_cons_of_mem b hc)
    have hown : b.payload ∈ textsWith s (b :: rest) := mem_append_right _ mem_cons_self
    have hold : ∀ c ∈ s.contentBlobs.rows, c.payload ∈ textsWith s (b :: rest) :=
      fun c hc => mem_append_left _ (mem_map_of_mem hc)
    have hsamedigest : ∀ c ∈ s.contentBlobs.rows, c.digest = b.digest → c.payload = b.payload := by
      intro c hc hsame
      refine hdistinct _ (hold c hc) _ hown ?_
      rw [hkept c hc,hb] at hsame
      exact hsame
    unfold storeAll
    rcases insertBlob_cases (o := RetentionStore.insertBlob b s) rfl with ⟨old,hget,ho⟩ | ⟨u,ho,hinsert⟩ | ⟨⟨c,hc,hsame⟩,hnone⟩
    · rw [ho]
      dsimp only
      have hsub : ∀ x ∈ textsWith s rest, x ∈ textsWith s (b :: rest) := by
        intro x hx
        rcases mem_append.mp hx with hx | hx
        · exact mem_append_left _ hx
        · exact mem_append_right _ (mem_cons_of_mem _ hx)
      obtain ⟨t,hstore,hkept',hgets,hstored⟩ := ih hkept hrest
        fun x hx y hy hxy => hdistinct x (hsub x hx) y (hsub y hy) hxy
      refine ⟨t,hstore,hkept',hgets,fun c hc => ?_⟩
      rcases mem_cons.mp hc with rfl | hc
      · obtain ⟨hmem,href⟩ := get_eq_some.mp hget
        refine ⟨old,hgets _ _ hget,hdistinct _ (hold old hmem) _ hown ?_⟩
        rw [hkept old hmem,hb] at href
        exact digest_of_ref href
      · exact hstored c hc
    · rw [ho]
      dsimp only
      have hmem : ∀ {c}, c ∈ u.contentBlobs.rows → c ∈ s.contentBlobs.rows ∨ c = b := (mem_insert hinsert).mp
      have hkeptu : WellKept rt u := by
        intro c hc
        rcases hmem hc with hc | rfl
        · exact hkept c hc
        · exact hb
      have hsub : ∀ x ∈ textsWith u rest, x ∈ textsWith s (b :: rest) := by
        intro x hx
        rcases mem_append.mp hx with hx | hx
        · obtain ⟨c,hc,rfl⟩ := mem_map.mp hx
          rcases hmem hc with hc | rfl
          · exact hold c hc
          · exact hown
        · exact mem_append_right _ (mem_cons_of_mem _ hx)
      obtain ⟨t,hstore,hkept',hgets,hstored⟩ := ih hkeptu hrest
        fun x hx y hy hxy => hdistinct x (hsub x hx) y (hsub y hy) hxy
      refine ⟨t,hstore,hkept',fun ref c hc => hgets ref c ?_,fun c hc => ?_⟩
      · rw [get_insert hinsert,if_neg]
        · exact hc
        · intro hsame
          rw [← hsame,(insert_some hinsert).1] at hc
          cases hc
      · rcases mem_cons.mp hc with rfl | hc
        · refine ⟨c,hgets _ c ?_,rfl⟩
          rw [get_insert hinsert,if_pos rfl]
        · exact hstored c hc
    · -- the same digest means the same text, and so the same reference
      have hpayload := hsamedigest c hc hsame
      have href : c.contentRef = b.contentRef := by
        rw [hkept c hc,hb,hpayload]
        rfl
      rw [← href,Table.get_of_mem hc] at hnone
      cases hnone

/-! ## What a sound compaction does -/

theorem Prepared.snapshot {snapshot : StateSnapshot} (h : Prepared s t snapshot m) :
    (∀ id x, s.stateSnapshots.get id = some x → t.stateSnapshots.get id = some x) ∧
      ((∃ x, s.stateSnapshots.get snapshot.snapshotId = some x) ∧ t.stateSnapshots = s.stateSnapshots ∨
        s.stateSnapshots.get snapshot.snapshotId = none ∧ s.stateSnapshots.insert snapshot = some t.stateSnapshots) := by
  rcases h.snapshots with ⟨old,hold,hsame⟩ | hinsert
  · rw [hsame]
    exact ⟨fun _ _ h => h,.inl ⟨⟨old,hold⟩,rfl⟩⟩
  · have hnone := (insert_some hinsert).1
    refine ⟨fun id x hx => ?_,.inr ⟨hnone,hinsert⟩⟩
    rw [get_insert hinsert,if_neg]
    · exact hx
    · intro hsame
      rw [← hsame,hnone] at hx
      cases hx

def Basis (s : RetentionStore) (m m₀ : CompactionManifest) : Prop :=
  s.compactionManifests.get m.compactionId = none ∧ m₀ = m ∨
    ∃ old, s.compactionManifests.get m.compactionId = some old ∧ m₀ = { old with status := .prepared }

theorem Prepared.manifest {snapshot : StateSnapshot} (h : Prepared s t snapshot m)
    (hm : m.status = .prepared) : ∃ m₀, Basis s m m₀ ∧ m₀.status = .prepared ∧
      t.compactionManifests.get m.compactionId = some m₀ ∧
      ∀ id ≠ m.compactionId, t.compactionManifests.get id = s.compactionManifests.get id := by
  rcases h.manifests with ⟨old,hold,hput⟩ | hinsert
  · have hid : old.compactionId = m.compactionId := key_of_get hold
    have hget := get_put (a := { old with status := .prepared }) (hid ▸ hold)
    refine ⟨{ old with status := .prepared },.inr ⟨old,hold,rfl⟩,rfl,?_,fun id hother => ?_⟩
    · rw [hput]
      exact (hget _).trans (if_pos hid)
    · rw [hput]
      exact (hget _).trans (if_neg fun hsame => hother (hsame.symm.trans hid))
  · refine ⟨m,.inl ⟨(insert_some hinsert).1,rfl⟩,hm,?_,fun id hother => ?_⟩
    · rw [get_insert hinsert,if_pos rfl]
    · rw [get_insert hinsert,if_neg fun hsame => hother hsame.symm]

abbrev batch (rt : Runtime) (clock : CompactionClock) (s : RetentionStore) (m : CompactionManifest) : List ContentBlob :=
  segmentBlobs rt clock.archived s 0 m.sourceSegments

/-- The store that a compaction leaves, with its manifest before and after. -/
structure Leaves (rt : Runtime) (projectId : String) (clock : CompactionClock) (s t : RetentionStore)
    (m m₀ m' : CompactionManifest) : Prop where
  basis : Basis s m m₀
  own : t.compactionManifests.get m.compactionId = some m'
  others : ∀ id ≠ m.compactionId, t.compactionManifests.get id = s.compactionManifests.get id
  snapshot : m'.snapshotId = m₀.snapshotId ∧ m'.snapshotDigest = m₀.snapshotDigest
  contents : WellKept rt t ∧ ∀ ref b, s.contentBlobs.get ref = some b → t.contentBlobs.get ref = some b
  result : Untouched s t ∧ m'.status ≠ .committed ∧
      (∀ old, s.compactionManifests.get m.compactionId = some old → old.status ≠ .committed) ∨
    Untouched (s.prune projectId m.sourceSegments) t ∧ m'.status = .committed ∧
      m'.archivedContentRefs = (batch rt clock s m).map (·.contentRef) ∧
      ∀ b ∈ batch rt clock s m, ∃ b', t.contentBlobs.get b.contentRef = some b' ∧ b'.payload = b.payload

theorem mem_segmentBlobs {archivedAt : ℕ → String} {n : ℕ} (h : b ∈ segmentBlobs rt archivedAt s n sids) :
    ∃ sid ∈ sids, ∃ k, b = blobOf rt (canonicalJsonStr (segmentBlob sid (s.eventsOf sid))) (archivedAt k) := by
  induction sids generalizing n with
  | nil => cases h
  | cons sid rest ih =>
    rcases mem_cons.mp h with rfl | h
    · exact ⟨sid,mem_cons_self,n,rfl⟩
    · obtain ⟨sid',hsid',k,hb⟩ := ih h
      exact ⟨sid',mem_cons_of_mem _ hsid',k,hb⟩

theorem segmentBlobs_of_mem (archivedAt : ℕ → String) (n : ℕ) {sid : String} (h : sid ∈ sids) :
    ∃ b ∈ segmentBlobs rt archivedAt s n sids, b.payload = canonicalJsonStr (segmentBlob sid (s.eventsOf sid)) := by
  induction sids generalizing n with
  | nil => cases h
  | cons sid' rest ih =>
    rcases mem_cons.mp h with rfl | h
    · exact ⟨_,mem_cons_self,rfl⟩
    · obtain ⟨b,hb,hpayload⟩ := ih (n + 1) h
      exact ⟨b,mem_cons_of_mem _ hb,hpayload⟩

theorem batch_stored (clock : CompactionClock) {s₁ : RetentionStore} (hkept : WellKept rt s)
    (hsources : m.sourceSegments = s.sealedSegments projectId) (hdistinct : Distinguished rt projectId s)
    (hblobs : s₁.contentBlobs = s.contentBlobs) :
    ∃ t, storeAll (batch rt clock s m) s₁ = (t,.ok ()) ∧ WellKept rt t ∧
      (∀ ref b, s.contentBlobs.get ref = some b → t.contentBlobs.get ref = some b) ∧
      ∀ b ∈ batch rt clock s m, ∃ b', t.contentBlobs.get b.contentRef = some b' ∧ b'.payload = b.payload := by
  have hkept₁ : WellKept rt s₁ := by
    unfold WellKept
    rw [hblobs]
    exact hkept
  have htexts : ∀ x ∈ textsWith s₁ (batch rt clock s m), x ∈ contentTexts projectId s := by
    intro x hx
    unfold textsWith at hx
    rw [hblobs] at hx
    rcases mem_append.mp hx with hx | hx
    · exact mem_append_left _ hx
    · obtain ⟨b,hb,rfl⟩ := mem_map.mp hx
      obtain ⟨sid,hsid,k,rfl⟩ := mem_segmentBlobs hb
      exact mem_append_right _ (mem_map.mpr ⟨sid,hsources ▸ hsid,rfl⟩)
  have hown : ∀ b ∈ batch rt clock s m, b = blobOf rt b.payload b.createdAt := by
    intro b hb
    obtain ⟨sid,-,k,rfl⟩ := mem_segmentBlobs hb
    rfl
  obtain ⟨t,hstore,hkeptt,hgets,hstored⟩ := storeAll_distinguished hkept₁ hown
    fun x hx y hy hxy => hdistinct x (htexts x hx) y (htexts y hy) hxy
  exact ⟨t,hstore,hkeptt,fun ref b hb => hgets ref b (hblobs ▸ hb),hstored⟩

theorem Compacts.leaves {clock : CompactionClock} {snapshot : StateSnapshot}
    {fault : Option FaultStage} {answer : Except Failure CompactionAnswer} {c : Database}
    (h : Compacts rt projectId clock s m snapshot fault answer c) (hkept : WellKept rt s)
    (hm : m.status = .prepared) (hsources : m.sourceSegments = s.sealedSegments projectId)
    (hdistinct : Distinguished rt projectId s) (hfault : Uninterrupted projectId m.compactionId s fault) :
    ∃ s₁ m₀ m', Prepared s s₁ snapshot m ∧ c.working.stateSnapshots = s₁.stateSnapshots ∧
      Leaves rt projectId clock s c.working m m₀ m' := by
  have hstores : ∀ {s₁ t : RetentionStore} {o : Outcome Unit}, Prepared s s₁ snapshot m →
      storeAll (batch rt clock s m) s₁ = (t,o) →
      o = .ok () ∧ t = { s₁ with contentBlobs := t.contentBlobs } ∧ WellKept rt t ∧
      (∀ ref b, s.contentBlobs.get ref = some b → t.contentBlobs.get ref = some b) ∧
      ∀ b ∈ batch rt clock s m, ∃ b', t.contentBlobs.get b.contentRef = some b' ∧ b'.payload = b.payload := by
    intro s₁ t o hprepared hstore
    obtain ⟨t',hstore',hkeptt,hgets,hstored⟩ := batch_stored clock hkept hsources hdistinct hprepared.blobs
    rw [hstore] at hstore'
    obtain ⟨rfl,rfl⟩ := Prod.mk.inj hstore'
    exact ⟨rfl,storeAll_kept hstore,hkeptt,hgets,hstored⟩
  cases h with
  | @prepared s₁ h =>
    obtain ⟨m₀,hbasis,hstatus,hget,hothers⟩ := h.manifest hm
    refine ⟨s₁,m₀,m₀,h,rfl,hbasis,hget,hothers,⟨rfl,rfl⟩,⟨?_,?_⟩,.inl ⟨h.untouched,?_,hfault⟩⟩
    · unfold WellKept
      rw [Connection.fresh_working,h.blobs]
      exact hkept
    · rw [Connection.fresh_working,h.blobs]
      exact fun _ _ h => h
    · rw [hstatus]
      exact fun h => by cases h
  | refused _ h hstore => cases (hstores h hstore).1
  | @archived s₁ t stage hstage h hstore =>
    obtain ⟨m₀,hbasis,hstatus,hget,hothers⟩ := h.manifest hm
    obtain ⟨-,ht,hkeptt,hgets,-⟩ := hstores h hstore
    have hmanifests : t.compactionManifests = s₁.compactionManifests := by rw [ht]
    have hsnapshots : t.stateSnapshots = s₁.stateSnapshots := by rw [ht]
    obtain ⟨hown,hrest⟩ := markArchived_manifests ((batch rt clock s m).map (·.contentRef)) (hmanifests ▸ hget)
    refine ⟨s₁,m₀,_,h,hsnapshots,hbasis,hown,fun id hid => (hrest id hid).trans ?_,⟨rfl,rfl⟩,
      ⟨hkeptt,hgets⟩,.inl ⟨(h.archived hstore).trans ⟨rfl,rfl,rfl⟩,fun h => (by cases h),?_⟩⟩
    · rw [hmanifests]
      exact hothers id hid
    · rcases hstage with rfl | rfl
      all_goals exact hfault
  | @pruned s₁ t u h hstore hu =>
    obtain ⟨m₀,hbasis,hstatus,hget,hothers⟩ := h.manifest hm
    obtain ⟨-,ht,hkeptt,hgets,-⟩ := hstores h hstore
    obtain ⟨hold,hprunable⟩ := hfault
    have hmanifests : t.compactionManifests = s₁.compactionManifests := by rw [ht]
    have hsnapshots : t.stateSnapshots = s₁.stateSnapshots := by rw [ht]
    have huntouched : Untouched s u := by
      rw [hu]
      exact (h.archived hstore).trans ⟨rfl,rfl,rfl⟩
    have hsame : Untouched s (u.prune projectId m.sourceSegments) := by
      obtain ⟨hentities,hevents⟩ := prune_eq hprunable
      have hpruned := huntouched.prune projectId m.sourceSegments
      rw [hsources] at hpruned ⊢
      exact ⟨hpruned.entities.trans hentities,hpruned.events.trans hevents,hpruned.segments⟩
    subst hu
    obtain ⟨hown,hrest⟩ := markArchived_manifests ((batch rt clock s m).map (·.contentRef)) (hmanifests ▸ hget)
    refine ⟨s₁,m₀,_,h,hsnapshots,hbasis,hown,fun id hid => (hrest id hid).trans ?_,⟨rfl,rfl⟩,
      ⟨hkeptt,hgets⟩,.inl ⟨hsame,fun h => (by cases h),hold⟩⟩
    rw [hmanifests]
    exact hothers id hid
  | @committed s₁ t u fault answer hfault' h hstore hu =>
    obtain ⟨m₀,hbasis,hstatus,hget,hothers⟩ := h.manifest hm
    obtain ⟨-,ht,hkeptt,hgets,hstored⟩ := hstores h hstore
    have hmanifests : t.compactionManifests = s₁.compactionManifests := by rw [ht]
    have hsnapshots : t.stateSnapshots = s₁.stateSnapshots := by rw [ht]
    have huntouched : Untouched s u := by
      rw [hu]
      exact (h.archived hstore).trans ⟨rfl,rfl,rfl⟩
    have hpruned := huntouched.prune projectId m.sourceSegments
    obtain ⟨hown,hrest⟩ := markArchived_manifests ((batch rt clock s m).map (·.contentRef)) (hmanifests ▸ hget)
    rw [← hu] at hown hrest
    have hcontents : u.contentBlobs = t.contentBlobs := by rw [hu]; rfl
    have hsnapshots' : u.stateSnapshots = t.stateSnapshots := by rw [hu]; rfl
    have hown : (u.prune projectId m.sourceSegments).compactionManifests.get m.compactionId = _ := hown
    obtain ⟨hown',hrest'⟩ := markCommitted_manifests clock.verified hown
    refine ⟨s₁,m₀,_,h,hsnapshots'.trans hsnapshots,hbasis,hown',fun id hid => ((hrest' id hid).trans (hrest id hid)).trans ?_,
      ⟨rfl,rfl⟩,⟨?_,?_⟩,.inr ⟨hpruned.trans ⟨rfl,rfl,rfl⟩,rfl,rfl,?_⟩⟩
    · rw [hmanifests]
      exact hothers id hid
    · unfold WellKept at hkeptt ⊢
      rw [← hcontents] at hkeptt
      exact hkeptt
    · rw [← hcontents] at hgets
      exact hgets
    · rw [← hcontents] at hstored
      exact hstored

end Bdb.Retention
