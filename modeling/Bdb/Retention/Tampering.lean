import Bdb.Base.HashChain
import Bdb.Retention.Trails

/-! # What the verification detects

The chain of every project verifies after any calls. Rows that verify under the same
segment digests have the payload digests that were appended, in every segment with resident
events; whether they have the ids, types and payloads too is up to columns that no digest
covers.
-/
namespace Bdb.Retention

open Json HashChain List

/-- The stored audit rows, whoever wrote them. -/
structure AuditRows where
  segments : List AuditSegment
  events : List (SegmentedEvent (List Char))

def recorded (e : SegmentedEvent Json) : SegmentedEvent (List Char) :=
  ⟨e.eventId,e.segmentId,e.projectId,e.sequenceNumber,e.eventType,text e.payload,e.payloadDigest,e.createdAt⟩

def RetentionStore.auditRows (s : RetentionStore) : AuditRows := ⟨s.auditSegments.rows,s.segmentedEvents.rows.map recorded⟩

variable (rt : Runtime) (projectId : String)

def residents {P : Type} (events : List (SegmentedEvent P)) (segmentId : String) : List (SegmentedEvent P) :=
  (events.filter fun e => e.segmentId == segmentId).insertionSort fun e f => e.sequenceNumber ≤ f.sequenceNumber

def appendedTo (w : Watched) (segmentId : String) : List (SegmentedEvent Json) :=
  (eventsIn projectId w.appended).filter fun e => e.segmentId == segmentId

def Accepted (rows : AuditRows) : Prop := (verifySegmentChain rt projectId rows.segments rows.events).1 = true

def segmentDigests (segments : List AuditSegment) : List String :=
  (projectSegments segments projectId).map (·.segmentDigest)

def Placed (rows : AuditRows) : Prop :=
  ∀ e ∈ rows.events, e.projectId = projectId →
    e.segmentId ∈ (projectSegments rows.segments projectId).map (·.segmentId)

/-- The resident events of each segment have the ids, types and payloads that were appended to
it, or there are none in a segment that was pruned. -/
def Faithful (w : Watched) (rows : AuditRows) : Prop :=
  Placed projectId rows ∧
    List.Forall₂ (fun g' g =>
        (residents rows.events g'.segmentId).map (fun e => (e.eventId,e.eventType,e.payload)) =
            (appendedTo projectId w g.segmentId).map (fun e => (e.eventId,e.eventType,text e.payload)) ∨
          residents rows.events g'.segmentId = [] ∧ residents w.store.segmentedEvents.rows g.segmentId = [])
      (projectSegments rows.segments projectId) (projectSegments w.store.auditSegments.rows projectId)

/-- The columns that no digest covers are as they were written: no segment is emptied, ids and
types are untouched, and payloads have their digests. -/
def Intact (w : Watched) (rows : AuditRows) : Prop :=
  Placed projectId rows ∧
    List.Forall₂ (fun g' g =>
        if residents rows.events g'.segmentId = [] then residents w.store.segmentedEvents.rows g.segmentId = []
        else
          (residents rows.events g'.segmentId).map (fun e => (e.eventId,e.eventType)) =
              (appendedTo projectId w g.segmentId).map (fun e => (e.eventId,e.eventType)) ∧
            ∀ e ∈ residents rows.events g'.segmentId, e.payloadDigest = rt.sha256 e.payload)
      (projectSegments rows.segments projectId) (projectSegments w.store.auditSegments.rows projectId)

/-! ## The texts that are hashed -/

def linkText (p : String × String) : List Char := (p.1 ++ ":" ++ p.2).toList

/-- The texts whose digests the calls and the verification compute. -/
def hashedTexts (w : Watched) (rows : AuditRows) : List (List Char) :=
  (eventsIn projectId w.appended).map (fun e => text e.payload) ++
    (links (extendDigest rt) zeroDigest ((eventsIn projectId w.appended).map (·.payloadDigest))).map linkText ++
    rows.events.map (·.payload) ++
    (projectSegments rows.segments projectId).flatMap fun g =>
      (links (extendDigest rt) g.prevSegmentDigest ((residents rows.events g.segmentId).map (·.payloadDigest))).map linkText

/-- The digest does not collide on the texts, has its length, and is not the zero digest. -/
structure Collisionless (texts : List (List Char)) : Prop where
  injective : ∀ x ∈ texts, ∀ y ∈ texts, rt.sha256 x = rt.sha256 y → x = y
  length : ∀ x ∈ texts, (rt.sha256 x).length = 64
  nonzero : ∀ x ∈ texts, rt.sha256 x ≠ zeroDigest

variable {rt projectId} {texts : List (List Char)}

theorem linkText_injective {p q : String × String} (hlength : p.1.length = q.1.length) (h : linkText p = linkText q) :
    p = q := by
  unfold linkText at h
  rw [String.toList_append,String.toList_append,String.toList_append,String.toList_append] at h
  have hfront : p.1.toList.length = q.1.toList.length := by
    rw [String.length_toList,String.length_toList,hlength]
  obtain ⟨hleft,hsecond⟩ := append_inj h (by rw [length_append,length_append,hfront])
  obtain ⟨hfirst,-⟩ := append_inj hleft hfront
  exact Prod.ext (String.toList_inj.mp hfirst) (String.toList_inj.mp hsecond)

/-- The pairs with a full digest in front whose text is hashed. -/
def linked (texts : List (List Char)) : Set (String × String) := fun p => linkText p ∈ texts ∧ p.1.length = 64

theorem Collisionless.pairs (h : Collisionless rt texts) :
    Set.InjOn (fun p : String × String => extendDigest rt p.1 p.2) (linked texts) := by
  rintro p ⟨hp,hplength⟩ q ⟨hq,hqlength⟩ hsame
  exact linkText_injective (hplength.trans hqlength.symm) (h.injective _ hp _ hq hsame)

theorem Collisionless.full (h : Collisionless rt texts) {digests : List String}
    (htexts : ∀ p ∈ links (extendDigest rt) zeroDigest digests, linkText p ∈ texts) :
    ∀ p ∈ links (extendDigest rt) zeroDigest digests, p ∈ linked texts := by
  intro p hp
  refine ⟨htexts p hp,?_⟩
  rcases links_first hp with hfirst | ⟨q,hq,hfirst⟩
  · rw [hfirst]
    rfl
  · rw [hfirst]
    exact h.length _ (htexts q hq)

theorem Collisionless.determined (h : Collisionless rt texts) {l l' : List String}
    (hl : ∀ p ∈ links (extendDigest rt) zeroDigest l, linkText p ∈ texts)
    (hl' : ∀ p ∈ links (extendDigest rt) zeroDigest l', linkText p ∈ texts)
    (hsame : rolling rt zeroDigest l = rolling rt zeroDigest l') : l = l' :=
  running_injective h.pairs (fun _ hp => h.nonzero _ hp.1) (h.full hl) (h.full hl') hsame

/-! ## What the verification checks -/

section Checks

variable {P : Type} {events : List (SegmentedEvent P)}

theorem residentDigests_eq (segmentId : String) :
    residentDigests events segmentId = (residents events segmentId).map (·.payloadDigest) := rfl

theorem eventErrors_eq_nil {g : AuditSegment} {digests : List String} : eventErrors rt g digests = [] ↔
    digests = [] ∨ digests.length = g.eventCount ∧ rolling rt g.prevSegmentDigest digests = g.segmentDigest := by
  unfold eventErrors
  by_cases hnone : digests = []
  · simp [hnone]
  · simp only [hnone,if_false,false_or,append_eq_nil_iff]
    constructor
    · rintro ⟨hcount,hdigest⟩
      refine ⟨?_,?_⟩
      · by_contra hne
        rw [if_pos hne] at hcount
        cases hcount
      · by_contra hne
        rw [if_pos hne] at hdigest
        cases hdigest
    · rintro ⟨hcount,hdigest⟩
      exact ⟨if_neg (not_not.mpr hcount),if_neg (not_not.mpr hdigest)⟩

def endDigest (d : String) (segments : List AuditSegment) : String :=
  (segments.map (·.segmentDigest)).getLast?.getD d

theorem chainErrors_concat (d : String) (segments : List AuditSegment) (g : AuditSegment) :
    chainErrors rt events d (segments ++ [g]) = [] ↔ chainErrors rt events d segments = [] ∧
      g.prevSegmentDigest = endDigest d segments ∧
      eventErrors rt g (residentDigests events g.segmentId) = [] := by
  induction segments generalizing d with
  | nil =>
    change (_ ++ _ ++ chainErrors rt events g.segmentDigest [] = []) ↔ _
    by_cases hprev : g.prevSegmentDigest = d <;> simp [hprev,chainErrors,endDigest]
  | cons h rest ih =>
    have hend : endDigest d (h :: rest) = endDigest h.segmentDigest rest := by
      unfold endDigest
      cases rest with
      | nil => rfl
      | cons h' rest => simp [List.getLast?_cons]
    rw [cons_append,chainErrors,chainErrors,hend]
    simp only [append_eq_nil_iff,ih,and_assoc]

end Checks

/-! ## The chain's digests -/

section Chains

variable {blocks : List Block} {n : ℕ} {d : String}

def chainDigests (blocks : List Block) : List String := (blocks.flatMap (·.events)).map (·.payloadDigest)

theorem chainDigests_concat (blocks : List Block) (b : Block) :
    chainDigests (blocks ++ [b]) = chainDigests blocks ++ b.events.map (·.payloadDigest) := by
  unfold chainDigests
  rw [flatMap_append,map_append]
  simp

section

variable (h : ChainOf rt projectId blocks n d)

include h

theorem ChainOf.digest : d = rolling rt zeroDigest (chainDigests blocks) := by
  induction h with
  | nil => rfl
  | @snoc blocks n d b h hclosed hb ih =>
    rw [chainDigests_concat,hb.digest]
    conv_lhs => rw [ih]
    exact (running_append ..).symm

theorem ChainOf.endDigest :
    d = Retention.endDigest zeroDigest (blocks.map (·.row)) := by
  cases h with
  | nil => rfl
  | snoc h hclosed hb => simp [Retention.endDigest]

theorem ChainOf.verifies {P : Type} {events : List (SegmentedEvent P)}
    (hevents : ∀ b ∈ blocks, (residents events b.row.segmentId).map (·.payloadDigest) = [] ∨
      (residents events b.row.segmentId).map (·.payloadDigest) = b.events.map (·.payloadDigest)) :
    chainErrors rt events zeroDigest (blocks.map (·.row)) = [] := by
  induction h with
  | nil => rfl
  | @snoc blocks n d b h hclosed hb ih =>
    rw [map_append]
    refine (chainErrors_concat ..).mpr ⟨ih fun c hc => hevents c (mem_append_left _ hc),?_,?_⟩
    · rw [hb.prev]
      exact h.endDigest
    · rw [eventErrors_eq_nil,residentDigests_eq,hb.prev,hb.digest,hb.count]
      rcases hevents b (by simp) with hnone | hown
      · exact .inl hnone
      · rw [hown]
        exact .inr ⟨length_map _,rfl⟩

theorem ChainOf.detects {P : Type} {events : List (SegmentedEvent P)}
    (hideal : Collisionless rt texts) {segments : List AuditSegment}
    (hsame : segments.map (·.segmentDigest) = blocks.map (·.row.segmentDigest))
    (hown : ∀ p ∈ links (extendDigest rt) zeroDigest (chainDigests blocks), linkText p ∈ texts)
    (hrows : ∀ g ∈ segments, ∀ p ∈ links (extendDigest rt) g.prevSegmentDigest
      ((residents events g.segmentId).map (·.payloadDigest)), linkText p ∈ texts)
    (hverified : chainErrors rt events zeroDigest segments = []) :
    List.Forall₂ (fun g b => (residents events g.segmentId).map (·.payloadDigest) = [] ∨
      (residents events g.segmentId).map (·.payloadDigest) = b.events.map (·.payloadDigest)) segments blocks := by
  induction h generalizing segments with
  | nil =>
    obtain rfl := map_eq_nil_iff.mp hsame
    exact .nil
  | @snoc blocks n d b h hclosed hb ih =>
    cases segments using List.reverseRecOn with
    | nil => simp at hsame
    | append_singleton segments g =>
      rw [map_append,map_append] at hsame
      obtain ⟨hbefore,hlast⟩ := append_inj' hsame rfl
      have hlast : g.segmentDigest = b.row.segmentDigest := singleton_inj.mp hlast
      obtain ⟨hverified,hprev,hchecked⟩ := (chainErrors_concat ..).mp hverified
      rw [chainDigests_concat,links_append] at hown
      have hold : ∀ p ∈ links (extendDigest rt) zeroDigest (chainDigests blocks), linkText p ∈ texts :=
        fun p hp => hown p (mem_append_left _ hp)
      have hrest := ih hbefore hold (fun c hc => hrows c (mem_append_left _ hc)) hverified
      refine rel_append hrest (.cons ?_ .nil)
      have hstart : g.prevSegmentDigest = running (extendDigest rt) zeroDigest (chainDigests blocks) := by
        refine (hprev.trans ?_).trans h.digest
        rw [h.endDigest]
        unfold Retention.endDigest
        rw [hbefore,map_map]
        rfl
      rcases eventErrors_eq_nil.mp hchecked with hnone | ⟨-,hdigest⟩
      · exact .inl hnone
      · -- both continue the chain's digests to the same digest
        have hsame : chainDigests blocks ++ (residents events g.segmentId).map (·.payloadDigest) =
            chainDigests blocks ++ b.events.map (·.payloadDigest) := hideal.determined ?_ ?_ ?_
        · exact .inr (append_cancel_left hsame)
        · rw [links_append,← hstart]
          intro p hp
          rcases mem_append.mp hp with hp | hp
          · exact hold p hp
          · exact hrows g (by simp) p hp
        · rw [links_append]
          exact hown
        · refine (running_append ..).trans (Eq.trans ?_ (running_append ..).symm)
          rw [← hstart]
          refine (hdigest.trans hlast).trans ?_
          rw [hb.digest,hstart,h.digest]
          rfl

end

end Chains

/-! ## The trail as the verification reads it -/

section Trail

variable {s : RetentionStore} {appended : List (SegmentedEvent Json)} {blocks : List Block} {n : ℕ} {d : String}

theorem TrailOf.segments (h : TrailOf rt projectId s appended blocks n d) :
    projectSegments s.auditSegments.rows projectId = blocks.map (·.row) := by
  unfold projectSegments
  rw [h.rows]
  exact h.chain.sorted.insertionSort_eq

theorem BlockAt.sorted {b : Block} (h : BlockAt rt projectId n d b) :
    b.events.Pairwise fun e f => e.sequenceNumber ≤ f.sequenceNumber := by
  have hnumbers : (b.events.map (·.sequenceNumber)).Pairwise (· ≤ ·) := by
    rw [h.numbers]
    exact (pairwise_lt_range').imp Nat.le_of_lt
  exact pairwise_map.mp hnumbers

theorem TrailOf.residents (h : TrailOf rt projectId s appended blocks n d) {b : Block} (hb : b ∈ blocks) :
    Retention.residents s.segmentedEvents.rows b.row.segmentId = b.events ∨
      Retention.residents s.segmentedEvents.rows b.row.segmentId = [] := by
  obtain ⟨m,d',hat,-⟩ := h.chain.member hb
  unfold Retention.residents
  rcases h.resident b hb with hin | ⟨-,hgone⟩
  · unfold residentEvents at hin
    rw [hin]
    exact .inl hat.sorted.insertionSort_eq
  · unfold residentEvents at hgone
    rw [hgone]
    exact .inr rfl

theorem filter_blocks (hids : (blocks.map (·.row.segmentId)).Nodup)
    (howner : ∀ b ∈ blocks, ∀ e ∈ b.events, e.segmentId = b.row.segmentId) {b : Block} (hb : b ∈ blocks) :
    (blocks.flatMap (·.events)).filter (fun e => e.segmentId == b.row.segmentId) = b.events := by
  induction blocks with
  | nil => cases hb
  | cons c rest ih =>
    obtain ⟨hnew,hrest⟩ := nodup_cons.mp hids
    have hownerrest : ∀ b ∈ rest, ∀ e ∈ b.events, e.segmentId = b.row.segmentId :=
      fun b hb => howner b (mem_cons_of_mem c hb)
    rw [flatMap_cons,filter_append]
    rcases mem_cons.mp hb with rfl | hb
    · have hself : b.events.filter (fun e => e.segmentId == b.row.segmentId) = b.events :=
        filter_eq_self.mpr fun e he => beq_iff_eq.mpr (howner b mem_cons_self e he)
      have hothers : (rest.flatMap (·.events)).filter (fun e => e.segmentId == b.row.segmentId) = [] := by
        refine filter_eq_nil_iff.mpr fun e he hid => ?_
        obtain ⟨c,hc,he⟩ := mem_flatMap.mp he
        exact hnew (mem_map.mpr ⟨c,hc,(hownerrest c hc e he).symm.trans (eq_of_beq hid)⟩)
      rw [hself,hothers,append_nil]
    · have hother : c.events.filter (fun e => e.segmentId == b.row.segmentId) = [] := by
        refine filter_eq_nil_iff.mpr fun e he hid => ?_
        rw [howner c mem_cons_self e he] at hid
        exact hnew (mem_map.mpr ⟨b,hb,(eq_of_beq hid).symm⟩)
      rw [hother,nil_append]
      exact ih hrest hownerrest hb

theorem TrailOf.appendedTo {w : Watched} (h : TrailOf rt projectId s w.appended blocks n d) {b : Block} (hb : b ∈ blocks) :
    Retention.appendedTo projectId w b.row.segmentId = b.events := by
  have hids : (blocks.map (·.row.segmentId)).Nodup := by
    have hrows := s.auditSegments.unique.sublist
      ((filter_sublist (p := fun g : AuditSegment => g.projectId == projectId)).map (·.segmentId))
    rw [h.rows,map_map] at hrows
    exact hrows
  unfold Retention.appendedTo
  rw [h.record]
  refine filter_blocks hids (fun c hc e he => ?_) hb
  obtain ⟨m,d',hat,-⟩ := h.chain.member hc
  exact (hat.owner e he).1

end Trail

/-! ## Exactly what is detected -/

theorem facts_iff {rows : List (SegmentedEvent (List Char))} {events : List (SegmentedEvent Json)}
    (hdigests : rows.map (·.payloadDigest) = events.map (·.payloadDigest))
    (hevents : ∀ e ∈ events, e.payloadDigest = rt.sha256 (text e.payload))
    (hinj : ∀ e' ∈ rows, ∀ e ∈ events, rt.sha256 e'.payload = rt.sha256 (text e.payload) → e'.payload = text e.payload) :
    rows.map (fun e => (e.eventId,e.eventType,e.payload)) = events.map (fun e => (e.eventId,e.eventType,text e.payload)) ↔
      rows.map (fun e => (e.eventId,e.eventType)) = events.map (fun e => (e.eventId,e.eventType)) ∧
        ∀ e ∈ rows, e.payloadDigest = rt.sha256 e.payload := by
  induction rows generalizing events with
  | nil =>
    obtain rfl := map_eq_nil_iff.mp hdigests.symm
    simp
  | cons r rows ih =>
    cases events with
    | nil => simp at hdigests
    | cons e events =>
      rw [map_cons,map_cons] at hdigests
      obtain ⟨hfirst,hrest⟩ := List.cons.inj hdigests
      have hiff := ih hrest (fun e' he' => hevents e' (mem_cons_of_mem e he')) fun r' hr' e' he' =>
        hinj r' (mem_cons_of_mem r hr') e' (mem_cons_of_mem e he')
      have he := hevents e mem_cons_self
      have hpayload : r.payload = text e.payload ↔ r.payloadDigest = rt.sha256 r.payload := by
        rw [hfirst,he]
        constructor
        · intro hsame
          rw [hsame]
        · exact fun hsame => hinj r mem_cons_self e mem_cons_self hsame.symm
      simp only [map_cons,List.cons.injEq,Prod.mk.injEq,forall_mem_cons,hiff,hpayload]
      tauto

theorem forall₂_iff {α β : Type} {R F G : α → β → Prop} {l : List α} {l' : List β} (h : List.Forall₂ R l l')
    (hiff : ∀ a b, b ∈ l' → R a b → (F a b ↔ G a b)) : List.Forall₂ F l l' ↔ List.Forall₂ G l l' := by
  induction h with
  | nil => simp
  | @cons a b l l' hab h ih =>
    rw [forall₂_cons,forall₂_cons,hiff a b mem_cons_self hab,
      ih fun a' b' hb' => hiff a' b' (mem_cons_of_mem b hb')]

theorem Trails.verified {w : Watched} (h : Trails rt w.store w.appended) (projectId : String) :
    (verifySegmentChain rt projectId w.store.auditSegments.rows w.store.segmentedEvents.rows).1 = true := by
  obtain ⟨blocks,n,d,htrail⟩ := h.trails projectId
  have hverifies : chainErrors rt w.store.segmentedEvents.rows zeroDigest (blocks.map (·.row)) = [] :=
    htrail.chain.verifies fun b hb => by
      rcases htrail.residents hb with hin | hgone
      · exact .inr (by rw [hin])
      · exact .inl (by rw [hgone]; rfl)
  unfold verifySegmentChain
  dsimp only
  rw [htrail.segments,hverifies]
  rfl

theorem Trails.faithful_iff {w : Watched} (h : Trails rt w.store w.appended) {rows : AuditRows}
    (hideal : Collisionless rt (hashedTexts rt projectId w rows)) (haccepted : Accepted rt projectId rows)
    (hsame : segmentDigests projectId rows.segments = segmentDigests projectId w.store.auditSegments.rows) :
    Faithful projectId w rows ↔ Intact rt projectId w rows := by
  obtain ⟨blocks,n,d,htrail⟩ := h.trails projectId
  unfold segmentDigests at hsame
  rw [htrail.segments,map_map] at hsame
  have hverified : chainErrors rt rows.events zeroDigest (projectSegments rows.segments projectId) = [] :=
    isEmpty_iff.mp haccepted
  have hown : ∀ p ∈ links (extendDigest rt) zeroDigest (chainDigests blocks),
      linkText p ∈ hashedTexts rt projectId w rows := by
    intro p hp
    unfold hashedTexts
    rw [htrail.record]
    exact mem_append_left _ (mem_append_left _ (mem_append_right _ (mem_map_of_mem hp)))
  have hrows : ∀ g ∈ projectSegments rows.segments projectId, ∀ p ∈ links (extendDigest rt) g.prevSegmentDigest
      ((residents rows.events g.segmentId).map (·.payloadDigest)), linkText p ∈ hashedTexts rt projectId w rows :=
    fun g hg p hp => mem_append_right _ (mem_flatMap.mpr ⟨g,hg,mem_map_of_mem hp⟩)
  have hdetected := htrail.chain.detects hideal hsame hown hrows hverified
  unfold Faithful Intact
  rw [htrail.segments,forall₂_map_right_iff,forall₂_map_right_iff]
  refine and_congr_right fun _ => forall₂_iff hdetected fun g b hb hdigests => ?_
  obtain ⟨m,d',hat,-⟩ := htrail.chain.member hb
  rw [htrail.appendedTo hb]
  by_cases hnone : residents rows.events g.segmentId = []
  · rw [if_pos hnone,hnone]
    constructor
    · rintro (hempty | ⟨-,hgone⟩)
      · have hevents : b.events = [] := map_eq_nil_iff.mp hempty.symm
        rcases htrail.residents hb with hin | hgone
        · exact hin.trans hevents
        · exact hgone
      · exact hgone
    · exact fun hgone => .inr ⟨rfl,hgone⟩
  · rw [if_neg hnone]
    have hdigests : (residents rows.events g.segmentId).map (·.payloadDigest) = b.events.map (·.payloadDigest) :=
      hdigests.resolve_left fun hempty => hnone (map_eq_nil_iff.mp hempty)
    refine (or_iff_left fun hempty => hnone hempty.1).trans
      (facts_iff hdigests (fun e he => (hat.owner e he).2.2) fun e' he' e he hcollide => ?_)
    have hrow : e'.payload ∈ hashedTexts rt projectId w rows := by
      have hmem := (mem_filter.mp ((mem_insertionSort _).mp he')).1
      exact mem_append_left _ (mem_append_right _ (mem_map_of_mem hmem))
    have hevent : text e.payload ∈ hashedTexts rt projectId w rows := by
      unfold hashedTexts
      rw [htrail.record]
      exact mem_append_left _ (mem_append_left _ (mem_append_left _
        (mem_map.mpr ⟨e,mem_flatMap.mpr ⟨b,hb,he⟩,rfl⟩)))
    exact hideal.injective _ hrow _ hevent hcollide

/-- After any calls the chain verifies and the events are numbered without a gap. Rows that
verify under the same segment digests are the appended events exactly when the columns that no
digest covers are intact. -/
theorem audit_chain_detects_iff (rt : Runtime) (calls : List RetentionCall) (projectId : String) :
    ∃ w, retentionRun rt calls = w ∧
      (verifySegmentChain rt projectId w.store.auditSegments.rows w.store.segmentedEvents.rows).1 = true ∧
      (eventsIn projectId w.appended).map (·.sequenceNumber) = List.range' 1 (eventsIn projectId w.appended).length ∧
      ∀ rows, Collisionless rt (hashedTexts rt projectId w rows) → Accepted rt projectId rows →
        segmentDigests projectId rows.segments = segmentDigests projectId w.store.auditSegments.rows →
        (Faithful projectId w rows ↔ Intact rt projectId w rows) := by
  have htrails := retentionRun_trails rt calls
  exact ⟨_,rfl,htrails.verified projectId,htrails.numbers projectId,
    fun rows hideal haccepted hsame => htrails.faithful_iff hideal haccepted hsame⟩

/-! ## One event with another payload -/

theorem Collisionless.of_table (table : List (List Char × String)) (hdigests : ∀ p ∈ table, rt.sha256 p.1 = p.2)
    (hinjective : ∀ p ∈ table, ∀ q ∈ table, p.2 = q.2 → p.1 = q.1)
    (hdigest : ∀ p ∈ table, p.2.length = 64 ∧ p.2 ≠ zeroDigest) (htexts : ∀ x ∈ texts, x ∈ table.map Prod.fst) :
    Collisionless rt texts := by
  have htexts : ∀ x ∈ texts, ∃ p ∈ table, p.1 = x := fun x hx => mem_map.mp (htexts x hx)
  constructor
  · intro x hx y hy hsame
    obtain ⟨p,hp,rfl⟩ := htexts x hx
    obtain ⟨q,hq,rfl⟩ := htexts y hy
    exact hinjective p hp q hq (((hdigests p hp).symm.trans hsame).trans (hdigests q hq))
  · intro x hx
    obtain ⟨p,hp,rfl⟩ := htexts x hx
    rw [hdigests p hp]
    exact (hdigest p hp).1
  · intro x hx
    obtain ⟨p,hp,rfl⟩ := htexts x hx
    rw [hdigests p hp]
    exact (hdigest p hp).2

def sampleAppend : RetentionCall :=
  .appendEvent "p1" 1000 "NOTE" [("n",.int 1)] none "2026-01-01T00:00:00+00:00"

def sampleWatched : Watched := retentionRun retentionRuntime [sampleAppend]

def samplePayloadDigest : String := "2bfd14f43d17fc7cea24e0917a8879b4b2f880b8baeec1b9d90fbaad655e71bd"

def sampleSegmentDigest : String := "5cbece211e5d69b17fae930520e6116c1fb83e375ab963b2aad262798ac02c98"

def sampleSegment : AuditSegment :=
  ⟨"seg-p1-0000000001","p1",1,1,1,zeroDigest,sampleSegmentDigest,false,"2026-01-01T00:00:00+00:00",none⟩

def sampleEvent : SegmentedEvent Json :=
  ⟨"ev-p1-0000000001","seg-p1-0000000001","p1",1,"NOTE",.obj [("n",.int 1)],samplePayloadDigest,
    "2026-01-01T00:00:00+00:00"⟩

theorem sampleWatched_eq : sampleWatched.store.auditSegments.rows = [sampleSegment] ∧
    sampleWatched.store.segmentedEvents.rows = [sampleEvent] ∧ sampleWatched.appended = [sampleEvent] := by
  decide +kernel

def sampleRows (payload : List Char) : AuditRows := ⟨[sampleSegment],[{ recorded sampleEvent with payload }]⟩

def sampleLink : List Char := linkText (zeroDigest,samplePayloadDigest)

def otherPayload : List Char := "{}".toList

def sampleTable : List (List Char × String) :=
  [(text sampleEvent.payload,samplePayloadDigest),(sampleLink,sampleSegmentDigest),
    (otherPayload,"44136fa355b3678a1146ad16f7e8649e94fb4fc21fe77e8310c060f61caaff8a")]

theorem sampleTable_digests : ∀ p ∈ sampleTable, retentionRuntime.sha256 p.1 = p.2 := by decide +kernel

theorem sampleTable_texts : sampleTable.map Prod.fst = [text sampleEvent.payload,sampleLink,otherPayload] := by
  simp only [sampleTable,map_cons,map_nil]

theorem sampleRows_collisionless {w : Watched} (happended : w.appended = [sampleEvent]) (payload : List Char)
    (hpayload : payload ∈ sampleTable.map Prod.fst) :
    Collisionless retentionRuntime (hashedTexts retentionRuntime "p1" w (sampleRows payload)) := by
  refine .of_table sampleTable sampleTable_digests (by decide +kernel) (by decide +kernel) fun x hx => ?_
  have htexts : hashedTexts retentionRuntime "p1" w (sampleRows payload) =
      [text sampleEvent.payload,sampleLink,payload,sampleLink] := by
    unfold hashedTexts
    rw [happended]
    rfl
  rw [htexts] at hx
  have hlink : sampleLink ∈ sampleTable.map Prod.fst := by
    rw [sampleTable_texts]
    exact .tail _ (.head _)
  rcases mem_cons.mp hx with hx | hx
  · rw [hx,sampleTable_texts]
    exact .head _
  · rcases mem_cons.mp hx with hx | hx
    · rw [hx]
      exact hlink
    · rcases mem_cons.mp hx with hx | hx
      · rw [hx]
        exact hpayload
      · rw [mem_singleton.mp hx]
        exact hlink

theorem single_accepted {g : AuditSegment} {e : SegmentedEvent (List Char)} (hproject : g.projectId = projectId)
    (hsegment : e.segmentId = g.segmentId) (hprev : g.prevSegmentDigest = zeroDigest) (hcount : g.eventCount = 1)
    (hdigest : g.segmentDigest = rt.sha256 (linkText (zeroDigest,e.payloadDigest))) :
    Accepted rt projectId ⟨[g],[e]⟩ := by
  have hsegments : projectSegments [g] projectId = [g] := by simp [projectSegments,hproject]
  have hdigests : residentDigests [e] g.segmentId = [e.payloadDigest] := by simp [residentDigests,hsegment]
  have herrors : eventErrors rt g [e.payloadDigest] = [] :=
    eventErrors_eq_nil.mpr (.inr ⟨hcount.symm,by rw [hprev,hdigest]; rfl⟩)
  unfold Accepted verifySegmentChain
  dsimp only
  rw [hsegments,chainErrors,hdigests,herrors,if_neg (not_not.mpr hprev)]
  rfl

theorem sampleRows_accepted (payload : List Char) : Accepted retentionRuntime "p1" (sampleRows payload) :=
  single_accepted rfl rfl rfl rfl (sampleTable_digests (sampleLink,sampleSegmentDigest) (.tail _ (.head _))).symm

/-- The sample's own rows satisfy every hypothesis and are the appended events. -/
theorem sample_trail_is_faithful : ∃ w, retentionRun retentionRuntime [sampleAppend] = w ∧
    Accepted retentionRuntime "p1" w.store.auditRows ∧ Faithful "p1" w w.store.auditRows := by
  obtain ⟨w,hw,-,-,hiff⟩ := audit_chain_detects_iff retentionRuntime [sampleAppend] "p1"
  obtain ⟨hsegments,hevents,happended⟩ := sampleWatched_eq
  rw [sampleWatched,hw] at hsegments hevents happended
  have hrows : w.store.auditRows = sampleRows (text sampleEvent.payload) := by
    unfold RetentionStore.auditRows
    rw [hsegments,hevents]
    rfl
  have hintact : Intact retentionRuntime "p1" w (sampleRows (text sampleEvent.payload)) := by
    unfold Intact Placed appendedTo
    rw [hsegments,hevents,happended]
    decide +kernel
  refine ⟨w,hw,?_⟩
  rw [hrows]
  have hideal := sampleRows_collisionless happended (text sampleEvent.payload)
    (by rw [sampleTable_texts]; exact .head _)
  exact ⟨sampleRows_accepted _,(hiff _ hideal (sampleRows_accepted _) (by rw [hsegments]; rfl)).mpr hintact⟩

/-- An overwritten payload is accepted under the same segment digests. -/
theorem overwritten_payload_accepted : ¬ ∀ rows,
    Collisionless retentionRuntime (hashedTexts retentionRuntime "p1" sampleWatched rows) →
    Accepted retentionRuntime "p1" rows →
    segmentDigests "p1" rows.segments = segmentDigests "p1" sampleWatched.store.auditSegments.rows →
    Faithful "p1" sampleWatched rows := by
  intro h
  obtain ⟨hsegments,hevents,happended⟩ := sampleWatched_eq
  have hideal := sampleRows_collisionless happended otherPayload
    (by rw [sampleTable_texts]; exact .tail _ (.tail _ (.head _)))
  have hfaithful := h _ hideal (sampleRows_accepted _) (by rw [hsegments]; rfl)
  revert hfaithful
  unfold Faithful Placed appendedTo
  rw [hsegments,hevents,happended]
  decide +kernel

end Bdb.Retention
