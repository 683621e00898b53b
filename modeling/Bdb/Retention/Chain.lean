import Bdb.Retention.Calls

/-! # The chain of segments

The audit trail of a project is a chain of blocks. A block is a segment with every event
that was ever appended to it; all blocks but the last are sealed and have events, and the
events of a sealed block may be gone from the store.
-/
namespace Bdb.Retention

open Json List

/-- A segment and the events that were appended to it. -/
structure Block where
  row : AuditSegment
  events : List (SegmentedEvent Json)

variable (rt : Runtime) (projectId : String)

/-- The block that starts at a sequence number over a previous digest. -/
structure BlockAt (n : ℕ) (d : String) (b : Block) : Prop where
  id : b.row.segmentId = "seg-" ++ projectId ++ "-" ++ padded 10 n
  project : b.row.projectId = projectId
  start : b.row.sequenceStart = n
  last : b.row.sequenceEnd + 1 = n + b.events.length
  count : b.row.eventCount = b.events.length
  prev : b.row.prevSegmentDigest = d
  digest : b.row.segmentDigest = rolling rt d (b.events.map (·.payloadDigest))
  numbers : b.events.map (·.sequenceNumber) = List.range' n b.events.length
  owner : ∀ e ∈ b.events, e.segmentId = b.row.segmentId ∧ e.projectId = projectId ∧
    e.payloadDigest = rt.sha256 (text e.payload)

/-- A chain, the next sequence number and the digest that the next block builds on. -/
inductive ChainOf : List Block → ℕ → String → Prop
  | nil : ChainOf [] 1 zeroDigest
  | snoc {blocks : List Block} {n : ℕ} {d : String} {b : Block} (h : ChainOf blocks n d)
      (hclosed : ∀ b ∈ blocks, b.row.isSealed = true ∧ b.events ≠ []) (hb : BlockAt rt projectId n d b) :
      ChainOf (blocks ++ [b]) (n + b.events.length) b.row.segmentDigest

variable {rt projectId} {blocks : List Block} {n : ℕ} {d : String} {s t : RetentionStore}

variable {b : Block} {appended : List (SegmentedEvent Json)}

theorem ChainOf.last_block (h : ChainOf rt projectId (blocks ++ [b]) n d) :
    ∃ m d', ChainOf rt projectId blocks m d' ∧ (∀ b ∈ blocks, b.row.isSealed = true ∧ b.events ≠ []) ∧
      BlockAt rt projectId m d' b ∧ n = m + b.events.length ∧ d = b.row.segmentDigest := by
  generalize hl : blocks ++ [b] = l at h
  cases h with
  | nil => simp at hl
  | snoc h hclosed hb =>
    obtain ⟨rfl,hsame⟩ := append_inj' hl rfl
    obtain rfl := singleton_inj.mp hsame
    exact ⟨_,_,h,hclosed,hb,rfl,rfl⟩

section

variable (h : ChainOf rt projectId blocks n d)

include h

theorem ChainOf.pos : 1 ≤ n := by
  induction h with
  | nil => exact le_rfl
  | snoc _ _ _ ih => omega

theorem ChainOf.numbers :
    (blocks.flatMap (·.events)).map (·.sequenceNumber) = List.range' 1 (n - 1) := by
  induction h with
  | nil => rfl
  | @snoc blocks n d b h hclosed hb ih =>
    obtain ⟨k,rfl⟩ := Nat.exists_eq_add_of_le h.pos
    rw [flatMap_append,map_append,ih]
    simp only [flatMap_cons,flatMap_nil,append_nil]
    rw [hb.numbers,Nat.add_sub_cancel_left,List.range'_append_1,Nat.add_assoc,Nat.add_sub_cancel_left]

theorem ChainOf.member (hb : b ∈ blocks) :
    ∃ m d', BlockAt rt projectId m d' b ∧ m + b.events.length ≤ n := by
  induction h with
  | nil => cases hb
  | @snoc blocks n d last h hclosed hlast ih =>
    rcases mem_append.mp hb with hb | hb
    · obtain ⟨m,d',hat,hle⟩ := ih hb
      exact ⟨m,d',hat,hle.trans (Nat.le_add_right n _)⟩
    · obtain rfl := mem_singleton.mp hb
      exact ⟨n,d,hlast,le_rfl⟩

theorem ChainOf.sorted :
    (blocks.map (·.row)).Pairwise (fun g g' => g.sequenceStart ≤ g'.sequenceStart) := by
  induction h with
  | nil => exact List.Pairwise.nil
  | @snoc blocks n d b h hclosed hb ih =>
    rw [map_append]
    refine pairwise_append.mpr ⟨ih,pairwise_singleton _ _,?_⟩
    intro g hg g' hg'
    obtain rfl := mem_singleton.mp hg'
    obtain ⟨b',hb',rfl⟩ := mem_map.mp hg
    obtain ⟨m,d',hat,hle⟩ := h.member hb'
    rw [hat.start,hb.start]
    omega

end

/-! ## The trail of a project in the store -/

def residentEvents (s : RetentionStore) (segmentId : String) : List (SegmentedEvent Json) :=
  s.segmentedEvents.rows.filter fun e => e.segmentId == segmentId

/-- The segments of the project are the rows of a chain whose events were appended; they are
resident, except that all events of a sealed block may be gone. -/
structure TrailOf (rt : Runtime) (projectId : String) (s : RetentionStore) (appended : List (SegmentedEvent Json))
    (blocks : List Block) (n : ℕ) (d : String) : Prop where
  chain : ChainOf rt projectId blocks n d
  rows : (s.auditSegments.rows.filter fun g => g.projectId == projectId) = blocks.map (·.row)
  record : eventsIn projectId appended = blocks.flatMap (·.events)
  resident : ∀ b ∈ blocks, residentEvents s b.row.segmentId = b.events ∨
    b.row.isSealed = true ∧ residentEvents s b.row.segmentId = []

/-- Every project has its trail, and every resident event its segment. -/
structure Trails (rt : Runtime) (s : RetentionStore) (appended : List (SegmentedEvent Json)) : Prop where
  trails : ∀ projectId, ∃ blocks n d, TrailOf rt projectId s appended blocks n d
  owners : ∀ e ∈ s.segmentedEvents.rows, ∃ g ∈ s.auditSegments.rows, g.segmentId = e.segmentId ∧ g.projectId = e.projectId

theorem trails_empty (rt : Runtime) : Trails rt .empty [] where
  trails _ := ⟨[],1,zeroDigest,.nil,rfl,rfl,fun _ h => (not_mem_nil h).elim⟩
  owners _ h := (not_mem_nil h).elim

theorem Trails.congr (h : Trails rt s appended)
    (hsegments : t.auditSegments = s.auditSegments) (hevents : t.segmentedEvents = s.segmentedEvents) :
    Trails rt t appended := by
  constructor
  · intro projectId
    obtain ⟨blocks,n,d,htrail⟩ := h.trails projectId
    refine ⟨blocks,n,d,htrail.chain,?_,htrail.record,?_⟩
    · rw [hsegments]
      exact htrail.rows
    · unfold residentEvents
      rw [hevents]
      exact htrail.resident
  · rw [hevents,hsegments]
    exact h.owners

section Rows

variable {appended : List (SegmentedEvent Json)}

theorem TrailOf.mem_rows (h : TrailOf rt projectId s appended blocks n d) {b : Block} (hb : b ∈ blocks) :
    b.row ∈ s.auditSegments.rows ∧ b.row.projectId = projectId := by
  have hmem : b.row ∈ s.auditSegments.rows.filter fun g => g.projectId == projectId := by
    rw [h.rows]
    exact mem_map_of_mem hb
  simpa using hmem

theorem TrailOf.block_of_row (h : TrailOf rt projectId s appended blocks n d) {g : AuditSegment}
    (hg : g ∈ s.auditSegments.rows) (hproject : g.projectId = projectId) : ∃ b ∈ blocks, b.row = g := by
  have hmem : g ∈ s.auditSegments.rows.filter fun g => g.projectId == projectId := by simp [hg,hproject]
  rw [h.rows] at hmem
  exact mem_map.mp hmem

end Rows

/-! ## Sealing -/

theorem BlockAt.sealed (h : BlockAt rt projectId n d b) (segmentId now : String) :
    BlockAt rt projectId n d ⟨b.row.sealIf segmentId now,b.events⟩ := by
  unfold AuditSegment.sealIf
  split
  · exact ⟨h.id,h.project,h.start,h.last,h.count,h.prev,h.digest,h.numbers,h.owner⟩
  · exact h

theorem sealIf_digest (segmentId now : String) (g : AuditSegment) :
    (g.sealIf segmentId now).segmentDigest = g.segmentDigest := by
  unfold AuditSegment.sealIf
  split <;> rfl

theorem sealIf_project (segmentId now : String) (g : AuditSegment) : (g.sealIf segmentId now).projectId = g.projectId := by
  unfold AuditSegment.sealIf
  split <;> rfl

theorem sealIf_sealed (segmentId now : String) {g : AuditSegment} (h : g.isSealed = true) :
    (g.sealIf segmentId now).isSealed = true := by
  unfold AuditSegment.sealIf
  split
  · rfl
  · exact h

def sealBlocks (segmentId now : String) (blocks : List Block) : List Block :=
  blocks.map fun b => ⟨b.row.sealIf segmentId now,b.events⟩

theorem ChainOf.sealed (h : ChainOf rt projectId blocks n d) (segmentId now : String) :
    ChainOf rt projectId (sealBlocks segmentId now blocks) n d := by
  induction h with
  | nil => exact .nil
  | @snoc blocks n d b h hclosed hb ih =>
    unfold sealBlocks at ih ⊢
    rw [map_append]
    have hsnoc := ChainOf.snoc ih (fun b' hb' => ?_) (hb.sealed segmentId now)
    · dsimp only at hsnoc
      rw [sealIf_digest] at hsnoc
      exact hsnoc
    · obtain ⟨b,hb,rfl⟩ := mem_map.mp hb'
      exact ⟨sealIf_sealed segmentId now (hclosed b hb).1,(hclosed b hb).2⟩

theorem Trails.sealed (h : Trails rt s appended) (segmentId now : String) (hsegments : t.auditSegments =
      s.auditSegments.change (·.sealIf segmentId now) (AuditSegment.sealIf_id segmentId now))
    (hevents : t.segmentedEvents = s.segmentedEvents) : Trails rt t appended := by
  constructor
  · intro projectId
    obtain ⟨blocks,n,d,htrail⟩ := h.trails projectId
    refine ⟨sealBlocks segmentId now blocks,n,d,htrail.chain.sealed segmentId now,?_,?_,?_⟩
    · rw [hsegments]
      unfold Table.change sealBlocks
      dsimp only
      rw [filter_map,map_map]
      have hsame : (fun g : AuditSegment => g.projectId == projectId) ∘ (fun g : AuditSegment => g.sealIf segmentId now) =
          fun g => g.projectId == projectId := by
        funext g
        simp only [Function.comp_apply,sealIf_project]
      rw [hsame,htrail.rows,map_map]
      rfl
    · rw [htrail.record,sealBlocks,flatMap_map]
    · intro b' hb'
      obtain ⟨b,hb,rfl⟩ := mem_map.mp hb'
      unfold residentEvents
      dsimp only
      rw [AuditSegment.sealIf_id,hevents]
      rcases htrail.resident b hb with hin | ⟨hsealed,hgone⟩
      · exact .inl hin
      · exact .inr ⟨sealIf_sealed segmentId now hsealed,hgone⟩
  · intro e he
    rw [hevents] at he
    obtain ⟨g,hg,hid,hproject⟩ := h.owners e he
    rw [hsegments]
    refine ⟨g.sealIf segmentId now,mem_map_of_mem hg,?_,?_⟩
    · rw [AuditSegment.sealIf_id,hid]
    · rw [sealIf_project,hproject]

/-! ## Pruning -/

theorem Trails.pruned (h : Trails rt s appended) (pruned : String)
    (hsegments : t.auditSegments = s.auditSegments)
    (hevents : t.segmentedEvents = s.segmentedEvents.remove fun e => (s.sealedSegments pruned).contains e.segmentId) :
    Trails rt t appended := by
  have hresident : ∀ segmentId, residentEvents t segmentId =
      if segmentId ∈ s.sealedSegments pruned then [] else residentEvents s segmentId := by
    intro segmentId
    unfold residentEvents
    rw [hevents,Table.remove,filter_filter]
    split
    · rename_i hin
      rw [filter_eq_nil_iff]
      rintro e - hboth
      simp only [Bool.and_eq_true,beq_iff_eq,Bool.not_eq_true'] at hboth
      rw [hboth.1] at hboth
      simp [hin] at hboth
    · rename_i hout
      refine filter_congr fun e _ => ?_
      by_cases he : e.segmentId = segmentId
      · simp [he,hout]
      · simp [he]
  constructor
  · intro projectId
    obtain ⟨blocks,n,d,htrail⟩ := h.trails projectId
    refine ⟨blocks,n,d,htrail.chain,by rw [hsegments]; exact htrail.rows,htrail.record,fun b hb => ?_⟩
    rw [hresident]
    split
    · -- a segment is known by its id, and only sealed ones are pruned
      rename_i hin
      obtain ⟨g,hg,hid⟩ := mem_map.mp hin
      obtain ⟨hg,hsealed⟩ := mem_filter.mp hg
      have hgrow := (mem_filter.mp ((mem_insertionSort _).mp hg)).1
      obtain rfl : g = b.row := Table.eq_of_key hgrow (htrail.mem_rows hb).1 hid
      exact .inr ⟨hsealed,rfl⟩
    · exact htrail.resident b hb
  · intro e he
    rw [hevents] at he
    rw [hsegments]
    exact h.owners e (Table.mem_remove.mp he).1

end Bdb.Retention
