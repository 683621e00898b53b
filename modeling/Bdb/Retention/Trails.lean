import Bdb.Retention.Chain

/-! # The chain over calls

Opening a segment adds an empty block that continues the chain, and appending extends the
last block. So every call keeps the trail of every project, whose chain verifies and whose
events are numbered one after the other.
-/
namespace Bdb.Retention

open Json List Table

variable {rt : Runtime} {projectId now : String} {blocks : List Block} {n : ℕ} {d : String} {s t : RetentionStore}
  {appended : List (SegmentedEvent Json)}

/-! ## The last block -/

theorem TrailOf.unsealed (h : TrailOf rt projectId s appended blocks n d) :
    s.activeSegment projectId = ((blocks.map (·.row)).filter fun g => !g.isSealed).argmax (·.sequenceStart) := by
  unfold RetentionStore.activeSegment
  rw [← h.rows,filter_filter]
  congr 1
  exact filter_congr fun g _ => Bool.and_comm _ _

theorem TrailOf.closed (h : TrailOf rt projectId s appended blocks n d) :
    s.lastSealed projectId = ((blocks.map (·.row)).filter (·.isSealed)).argmax (·.sequenceEnd) := by
  unfold RetentionStore.lastSealed
  rw [← h.rows,filter_filter]
  congr 1
  exact filter_congr fun g _ => Bool.and_comm _ _

variable {b : Block} {g : AuditSegment} {eventType : String} {payload : Fields} {eventId : Option String}
    {w : Watched}

theorem ChainOf.unsealed_last (h : ChainOf rt projectId blocks n d) (hb : b ∈ blocks)
    (hopen : b.row.isSealed = false) : ∃ init, blocks = init ++ [b] := by
  cases h with
  | nil => cases hb
  | @snoc blocks n d last h hclosed hlast =>
    rcases mem_append.mp hb with hb | hb
    · rw [(hclosed b hb).1] at hopen
      cases hopen
    · obtain rfl := mem_singleton.mp hb
      exact ⟨blocks,rfl⟩

theorem TrailOf.active_last (h : TrailOf rt projectId s appended blocks n d)
    (hactive : s.activeSegment projectId = some g) :
    ∃ init b, blocks = init ++ [b] ∧ b.row = g ∧ g.isSealed = false := by
  rw [h.unsealed] at hactive
  obtain ⟨hmem,hopen⟩ := mem_filter.mp (argmax_mem hactive)
  obtain ⟨b,hb,rfl⟩ := mem_map.mp hmem
  have hopen : b.row.isSealed = false := by simpa using hopen
  obtain ⟨init,hblocks⟩ := h.chain.unsealed_last hb hopen
  exact ⟨init,b,hblocks,rfl,hopen⟩

theorem TrailOf.all_sealed (h : TrailOf rt projectId s appended blocks n d)
    (hnone : s.activeSegment projectId = none) (hb : b ∈ blocks) : b.row.isSealed = true := by
  rw [h.unsealed,argmax_eq_none,filter_eq_nil_iff] at hnone
  simpa using hnone _ (mem_map_of_mem hb)

/-! ## Opening a segment -/

theorem blockAt_new (hid : g.segmentId = "seg-" ++ projectId ++ "-" ++ padded 10 n)
    (hproject : g.projectId = projectId) (hstart : g.sequenceStart = n) (hlast : g.sequenceEnd + 1 = n)
    (hcount : g.eventCount = 0) (hprev : g.prevSegmentDigest = d) (hdigest : g.segmentDigest = d) :
    BlockAt rt projectId n d ⟨g,[]⟩ :=
  ⟨hid,hproject,hstart,hlast,hcount,hprev,hdigest,rfl,fun _ h => (not_mem_nil h).elim⟩

theorem TrailOf.next (h : TrailOf rt projectId s appended blocks n d) (hnone : s.activeSegment projectId = none)
    (hnew : s.auditSegments.get (nextSegment projectId (s.lastSealed projectId) now).segmentId = none) :
    BlockAt rt projectId n d ⟨nextSegment projectId (s.lastSealed projectId) now,[]⟩ ∧
      ∀ b ∈ blocks, b.row.isSealed = true ∧ b.events ≠ [] := by
  have hsealed : ∀ b ∈ blocks, b.row.isSealed = true := fun b hb => h.all_sealed hnone hb
  have hall : (blocks.map (·.row)).filter (·.isSealed) = blocks.map (·.row) := by
    refine filter_eq_self.mpr fun g hg => ?_
    obtain ⟨b,hb,rfl⟩ := mem_map.mp hg
    exact hsealed b hb
  have hmax := h.closed
  rw [hall] at hmax
  cases hchain : h.chain with
  | nil =>
    rw [hmax]
    exact ⟨blockAt_new rfl rfl rfl rfl rfl rfl rfl,fun _ h => (not_mem_nil h).elim⟩
  | @snoc blocks n d last hinit hclosed hlast =>
    obtain ⟨g,hg⟩ : ∃ g, s.lastSealed projectId = some g := by
      rw [hmax]
      refine Option.ne_none_iff_exists'.mp fun hnil => ?_
      simp [argmax_eq_none] at hnil
    rw [hg] at hmax hnew ⊢
    have hlastmem : last.row ∈ (blocks ++ [last]).map (·.row) := mem_map_of_mem (by simp)
    have hle := le_of_mem_argmax hlastmem hmax.symm
    obtain ⟨b,hb,rfl⟩ := mem_map.mp (argmax_mem hmax.symm)
    obtain ⟨m,d',hat,hbound⟩ := h.chain.member hb
    have hnext : b.row.sequenceEnd + 1 = n + last.events.length := by
      have hend := hat.last
      have hlastend := hlast.last
      omega
    have hfull : last.events ≠ [] := by
      intro hempty
      have htaken := Table.get_of_mem (h.mem_rows (b := last) (by simp)).1
      have hsame : (nextSegment projectId (some b.row) now).segmentId = last.row.segmentId := by
        rw [hlast.id]
        dsimp only [nextSegment]
        rw [hnext,hempty]
        rfl
      rw [← hsame,hnew] at htaken
      cases htaken
    have hpos : 0 < last.events.length := length_pos_iff.mpr hfull
    have hb' : b = last := by
      rcases mem_append.mp hb with hb | hb
      · obtain ⟨m',d'',hat',hbound'⟩ := hinit.member hb
        have hend := hat'.last
        omega
      · exact mem_singleton.mp hb
    subst hb'
    refine ⟨blockAt_new ?_ rfl hnext ?_ rfl rfl rfl,fun c hc => ?_⟩
    · dsimp only [nextSegment]
      rw [hnext]
    · dsimp only [nextSegment]
      omega
    · rcases mem_append.mp hc with hc | hc
      · exact hclosed c hc
      · obtain rfl := mem_singleton.mp hc
        exact ⟨hsealed c (by simp),hfull⟩

def Ready (rt : Runtime) (projectId : String) (s : RetentionStore) (appended : List (SegmentedEvent Json))
    (g : AuditSegment) : Prop :=
  ∃ init b n d, TrailOf rt projectId s appended (init ++ [b]) n d ∧ b.row = g ∧ g.isSealed = false

theorem Trails.opened (h : Trails rt s appended) (ho : Opens s projectId now g t) :
    Trails rt t appended ∧ Ready rt projectId t appended g := by
  cases ho with
  | found hactive =>
    obtain ⟨blocks,n,d,htrail⟩ := h.trails projectId
    obtain ⟨init,b,rfl,hrow,hopen⟩ := htrail.active_last hactive
    exact ⟨h,init,b,n,d,htrail,hrow,hopen⟩
  | created hnone hg hinsert ht =>
    have hnew := (insert_some hinsert).1
    have hevents : t.segmentedEvents = s.segmentedEvents := by rw [ht]
    have hproject : g.projectId = projectId := by rw [hg]; rfl
    have hopen : g.isSealed = false := by rw [hg]; rfl
    have hresident : ∀ id, residentEvents t id = residentEvents s id := fun id => by
      unfold residentEvents
      rw [hevents]
    have hempty : residentEvents s g.segmentId = [] := by
      refine filter_eq_nil_iff.mpr fun e he hid => ?_
      obtain ⟨g',hg',hid',-⟩ := h.owners e he
      have htaken := Table.get_of_mem hg'
      rw [hid',eq_of_beq hid,hnew] at htaken
      cases htaken
    have htrail : ∃ init n d, TrailOf rt projectId t appended (init ++ [⟨g,[]⟩]) n d := by
      obtain ⟨blocks,n,d,htrail⟩ := h.trails projectId
      rw [hg] at hnew
      obtain ⟨hat,hclosed⟩ := htrail.next hnone hnew
      rw [← hg] at hat
      refine ⟨blocks,_,_,.snoc htrail.chain hclosed hat,?_,?_,?_⟩
      · rw [filter_insert hinsert,htrail.rows,hproject,map_append]
        simp
      · rw [htrail.record]
        simp
      · intro b hb
        rw [hresident]
        rcases mem_append.mp hb with hb | hb
        · exact htrail.resident b hb
        · obtain rfl := mem_singleton.mp hb
          exact .inl hempty
    refine ⟨⟨fun other => ?_,fun e he => ?_⟩,?_⟩
    · by_cases hother : projectId = other
      · subst hother
        obtain ⟨init,n,d,htrail⟩ := htrail
        exact ⟨_,n,d,htrail⟩
      · obtain ⟨blocks,n,d,htrail⟩ := h.trails other
        refine ⟨blocks,n,d,htrail.chain,?_,htrail.record,fun b hb => ?_⟩
        · rw [filter_insert hinsert,htrail.rows,hproject]
          simp [hother]
        · rw [hresident]
          exact htrail.resident b hb
    · rw [hevents] at he
      obtain ⟨g',hg',hid⟩ := h.owners e he
      exact ⟨g',(mem_insert hinsert).mpr (.inl hg'),hid⟩
    · obtain ⟨init,n,d,htrail⟩ := htrail
      exact ⟨init,_,n,d,htrail,rfl,hopen⟩

/-! ## Appending an event -/

theorem rolling_append (rt : Runtime) (d : String) (digests : List String) (p : String) :
    rolling rt d (digests ++ [p]) = extendDigest rt (rolling rt d digests) p := by
  unfold rolling
  rw [foldl_append]
  rfl

def Block.extend (rt : Runtime) (b : Block) (e : SegmentedEvent Json) : Block :=
  ⟨extended rt b.row e.payloadDigest,b.events ++ [e]⟩

theorem BlockAt.extend (h : BlockAt rt projectId n d b) :
    BlockAt rt projectId n d (b.extend rt (eventFor rt b.row projectId eventType payload eventId now)) := by
  have hlength : (b.events ++ [eventFor rt b.row projectId eventType payload eventId now]).length = b.events.length + 1 := by
    simp
  have hlast := h.last
  refine ⟨h.id,h.project,h.start,?_,?_,h.prev,?_,?_,?_⟩
  · dsimp only [Block.extend,extended]
    omega
  · dsimp only [Block.extend,extended]
    rw [h.count,hlength]
  · dsimp only [Block.extend,extended]
    rw [map_append,map_singleton,rolling_append,h.digest]
  · dsimp only [Block.extend]
    rw [map_append,h.numbers,hlength,List.range'_concat]
    congr 1
    simp only [map_singleton,List.cons.injEq,and_true,eventFor]
    omega
  · intro e he
    rcases mem_append.mp he with he | he
    · exact h.owner e he
    · obtain rfl := mem_singleton.mp he
      exact ⟨rfl,rfl,rfl⟩

theorem TrailOf.other_id {init : List Block} {c : Block} (h : TrailOf rt projectId s appended (init ++ [b]) n d)
    (hc : c ∈ init) : c.row.segmentId ≠ b.row.segmentId := by
  have hnodup : ((init ++ [b]).map (·.row.segmentId)).Nodup := by
    have hrows := s.auditSegments.unique.sublist
      ((filter_sublist (p := fun g : AuditSegment => g.projectId == projectId)).map (·.segmentId))
    rw [h.rows,map_map] at hrows
    exact hrows
  rw [map_append,nodup_append] at hnodup
  exact hnodup.2.2 _ (mem_map_of_mem hc) _ (by simp)

theorem Trails.append {e : SegmentedEvent Json}
    (h : Trails rt s appended) (hready : Ready rt projectId s appended g)
    (he : e = eventFor rt g projectId eventType payload eventId now)
    (hinsert : s.segmentedEvents.insert e = some t.segmentedEvents)
    (hsegments : t.auditSegments = s.auditSegments.put (extended rt g e.payloadDigest)) :
    Trails rt t (appended ++ [e]) := by
  obtain ⟨init,b,n,d,htrail,rfl,hopen⟩ := hready
  obtain ⟨m,d',hinit,hclosed,hat,-,-⟩ := htrail.chain.last_block
  have hrow := htrail.mem_rows (b := b) (by simp)
  have hsegment : e.segmentId = b.row.segmentId := by rw [he]; rfl
  have hproject : e.projectId = projectId := by rw [he]; rfl
  have hresident : ∀ id, residentEvents t id = residentEvents s id ++ if e.segmentId == id then [e] else [] :=
    fun id => filter_insert hinsert
  have hkept : ∀ id, id ≠ b.row.segmentId → residentEvents t id = residentEvents s id := by
    intro id hid
    have hother : (e.segmentId == id) = false := beq_eq_false_iff_ne.mpr fun hsame => hid (hsame.symm.trans hsegment)
    rw [hresident,hother]
    simp
  refine ⟨fun other => ?_,fun f hf => ?_⟩
  · by_cases hother : projectId = other
    · subst hother
      refine ⟨init ++ [b.extend rt e],_,_,.snoc hinit hclosed (he ▸ hat.extend),?_,?_,?_⟩
      · have hsame : ∀ c ∈ s.auditSegments.rows, c.segmentId = b.row.segmentId →
            (c.projectId == projectId) = (b.row.projectId == projectId) := fun c hc hid => by
          rw [eq_of_key hc hrow.1 hid]
        rw [hsegments,filter_put (a := extended rt b.row e.payloadDigest) hsame,htrail.rows,map_append,map_append,map_append]
        congr 1
        · rw [map_map]
          exact map_congr_left fun c hc => if_neg (htrail.other_id hc)
        · exact congrArg (fun r => [r]) (if_pos rfl)
      · unfold eventsIn
        rw [filter_append]
        have hrecord := htrail.record
        unfold eventsIn at hrecord
        rw [hrecord]
        simp [Block.extend,hproject]
      · intro c hc
        rcases mem_append.mp hc with hc | hc
        · rw [hkept _ (htrail.other_id hc)]
          exact htrail.resident c (mem_append_left _ hc)
        · obtain rfl := mem_singleton.mp hc
          refine .inl ((hresident _).trans ?_)
          rcases htrail.resident b (by simp) with hin | ⟨hsealed,-⟩
          · change residentEvents s b.row.segmentId ++ (if e.segmentId == b.row.segmentId then [e] else []) = b.events ++ [e]
            rw [hin,hsegment]
            simp
          · rw [hopen] at hsealed
            cases hsealed
    · obtain ⟨blocks,n,d,hblocks⟩ := h.trails other
      refine ⟨blocks,n,d,hblocks.chain,?_,?_,fun c hc => ?_⟩
      · rw [hsegments,filter_put_other (a := extended rt b.row e.payloadDigest) hrow.1 rfl ?_ ?_,hblocks.rows]
        · change (b.row.projectId == other) = false
          rw [hrow.2]
          exact beq_eq_false_iff_ne.mpr hother
        · rw [hrow.2]
          exact beq_eq_false_iff_ne.mpr hother
      · unfold eventsIn
        rw [filter_append,← hblocks.record]
        unfold eventsIn
        simp [hproject,hother]
      · rw [hkept]
        · exact hblocks.resident c hc
        · intro hid
          have hcrow := hblocks.mem_rows hc
          have hsame := eq_of_key hcrow.1 hrow.1 hid
          exact hother (hrow.2.symm.trans (hsame ▸ hcrow.2))
  · have howner : ∃ g ∈ s.auditSegments.rows, g.segmentId = f.segmentId ∧ g.projectId = f.projectId := by
      rcases (mem_insert hinsert).mp hf with hf | rfl
      · exact h.owners f hf
      · exact ⟨b.row,hrow.1,hsegment.symm,hrow.2.trans hproject.symm⟩
    obtain ⟨g,hg,hid,howned⟩ := howner
    rw [hsegments]
    by_cases hsame : g.segmentId = b.row.segmentId
    · obtain rfl := eq_of_key hg hrow.1 hsame
      exact ⟨_,(mem_put (a := extended rt b.row e.payloadDigest) hg rfl).mpr (.inl rfl),hid,howned⟩
    · exact ⟨g,(mem_put (a := extended rt b.row e.payloadDigest) hrow.1 rfl).mpr (.inr ⟨hg,hsame⟩),hid,howned⟩

theorem Trails.appends (h : Trails rt s appended)
    (ha : Appends rt s projectId eventType now payload eventId t) : Trails rt t (appended ++ newEvents s t) := by
  cases ha with
  | refused =>
    rw [newEvents_of_subset fun e he => he,append_nil]
    exact h
  | opened ho =>
    have hevents : t.segmentedEvents = s.segmentedEvents := ho.events
    rw [newEvents_of_subset fun e he => hevents ▸ he,append_nil]
    exact (h.opened ho).1
  | @appended t' u g e ho he hinsert hsegments hrest =>
    obtain ⟨htrails,hready⟩ := h.opened ho
    have hinsert' : s.segmentedEvents.insert e = some t.segmentedEvents := ho.events ▸ hinsert
    rw [newEvents_insert hinsert']
    rcases hsegments with hput | hput
    · exact htrails.append hready he hinsert hput
    · -- the segment is sealed once the event is in
      have hstep : Trails rt { t' with segmentedEvents := t.segmentedEvents
                                       auditSegments := t'.auditSegments.put (extended rt g e.payloadDigest) }
          (appended ++ [e]) := htrails.append hready he hinsert rfl
      exact hstep.sealed g.segmentId now hput rfl

/-! ## Every call -/

theorem Trails.without_new (h : Trails rt t appended) (hold : ∀ e ∈ t.segmentedEvents.rows, e ∈ s.segmentedEvents.rows) :
    Trails rt t (appended ++ newEvents s t) := by
  rw [newEvents_of_subset hold,append_nil]
  exact h

theorem Trails.next (h : Trails rt w.store w.appended) (call : RetentionCall) :
    Trails rt (w.next rt call).store (w.next rt call).appended := by
  unfold Watched.next Watched.store
  cases call with
  | registerEntity project r now =>
    have hrest := (registerEntity_registers project r now w.connection).rest
    dsimp only [RetentionCall.program]
    rw [hrest]
    exact Trails.without_new (h.congr rfl rfl) fun e he => he
  | appendEvent project most eventType payload eventId now =>
    dsimp only [RetentionCall.program]
    rw [exec_forget]
    exact h.appends (appendEvent_cases rt project most eventType payload eventId now w.connection)
  | sealSegment segmentId now =>
    dsimp only [RetentionCall.program]
    rw [sealSegment_working]
    exact Trails.without_new (h.sealed segmentId now rfl rfl) fun e he => he
  | executeCompaction project revision fault clock =>
    dsimp only [RetentionCall.program]
    rw [exec_forget]
    rcases executeCompaction_effect rt project revision fault clock w.connection with hsame | hpruned
    · exact Trails.without_new (h.congr hsame.segments hsame.events) fun e he => hsame.events ▸ he
    · refine Trails.without_new (h.pruned project hpruned.segments hpruned.events) fun e he => ?_
      rw [hpruned.events] at he
      exact (mem_remove.mp he).1

theorem retentionRun_trails (rt : Runtime) (calls : List RetentionCall) :
    Trails rt (retentionRun rt calls).store (retentionRun rt calls).appended := by
  unfold retentionRun
  induction calls using List.reverseRecOn with
  | nil => exact trails_empty rt
  | append_singleton calls call ih =>
    rw [foldl_append]
    exact ih.next call

/-! ## Numbers -/

theorem Trails.numbers (h : Trails rt w.store w.appended) (projectId : String) :
    (eventsIn projectId w.appended).map (·.sequenceNumber) = List.range' 1 (eventsIn projectId w.appended).length := by
  obtain ⟨blocks,n,d,htrail⟩ := h.trails projectId
  have hnumbers := htrail.chain.numbers
  have hlength := congrArg List.length hnumbers
  rw [length_map,length_range'] at hlength
  rw [htrail.record,hnumbers,hlength]

theorem Trails.resident (h : Trails rt w.store w.appended) {e : SegmentedEvent Json}
    (he : e ∈ w.store.segmentedEvents.rows) : e ∈ eventsIn e.projectId w.appended := by
  obtain ⟨g,hg,hid,hproject⟩ := h.owners e he
  obtain ⟨blocks,n,d,htrail⟩ := h.trails e.projectId
  obtain ⟨b,hb,rfl⟩ := htrail.block_of_row hg hproject
  have hresident : e ∈ residentEvents w.store b.row.segmentId := mem_filter.mpr ⟨he,beq_iff_eq.mpr hid.symm⟩
  rcases htrail.resident b hb with hin | ⟨-,hgone⟩
  · rw [hin] at hresident
    rw [htrail.record]
    exact mem_flatMap.mpr ⟨b,hb,hresident⟩
  · rw [hgone] at hresident
    cases hresident

end Bdb.Retention
