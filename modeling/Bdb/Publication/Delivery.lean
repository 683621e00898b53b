import Bdb.Base.Promises
import Bdb.Base.Table
import Bdb.Publication.Store
import Mathlib.Data.List.MinMax
import Mathlib.Order.Nat

/-! # Delivery of publications in order

What the tables keep as long as a publication is found only under its own request, a consumer is bound to no
publication behind its cursor, an acknowledgement still is of the first pending publication, and no witness takes
the place of another one.
-/
namespace Bdb.Publication

open List

variable {dg : Digests} {db : Database} {q : PublicationRequest} {p : PublicationRecord} {b : ConsumerBinding}
  {consumerId generation : String}

abbrev PublicationLog := List (Entry PublicationRequest.Answer)

/-- The sequences a consumer has acknowledged, in the order of the acknowledgements. -/
def acknowledged (consumerId generation : String) (log : PublicationLog) : List ℕ :=
  log.filterMap fun
    | ⟨.acknowledge p _ c g,_⟩ => if c = consumerId ∧ g = generation then some p.sequence else none
    | _ => none

variable (dg) in
/-- A statement or a transaction that finds what the checks of its call rely on. -/
def InOrder (db : Database) : PublicationRequest → Prop
  | .identity r => ∀ p ∈ db.get (r.identity.publicationId dg), p.requestId = r.requestId
  | .publish r => db.requestOwner r.requestId = none → db.get (r.identity.publicationId dg) = none
  | .bind p c => db.admitsBinding (newBinding dg p c) = true → ∀ cursor ∈ db.cursors c.consumerId c.generation,
      cursor.sequence < p.sequence
  | .acknowledge p _ c g =>
    (db.cursors c g).any fun cursor => (db.firstPending c g cursor.sequence).map (·.sequence) == some p.sequence
  | .witness w => (∀ x ∈ db.witnesses, x.witnessId ≠ w.witnessId) → ∀ b ∈ db.bindings, b.bindingId = w.bindingId →
      b.presentation = .presented → b.witnessId = some w.witnessId
  | _ => True

instance (db : Database) : (q : PublicationRequest) → Decidable (InOrder dg db q)
  | .identity r => Option.decidableForallMem (db.get (r.identity.publicationId dg))
  | .publish r => inferInstanceAs (Decidable (db.requestOwner r.requestId = none → db.get (r.identity.publicationId dg) = none))
  | .bind p c => inferInstanceAs (Decidable (db.admitsBinding (newBinding dg p c) = true →
      ∀ cursor ∈ db.cursors c.consumerId c.generation, cursor.sequence < p.sequence))
  | .acknowledge _ _ _ _ => inferInstanceAs (Decidable (_ = true))
  | .witness w => inferInstanceAs (Decidable ((∀ x ∈ db.witnesses, x.witnessId ≠ w.witnessId) → ∀ b ∈ db.bindings,
      b.bindingId = w.bindingId → b.presentation = .presented → b.witnessId = some w.witnessId))
  | .requestOwner _ | .get _ | .getBinding _ _ _ | .cursor _ _ | .firstPending _ _ _ | .markUnknown _ _ _ _ => .isTrue trivial

/-! ## Lookups -/

variable {id requestId : String} {n : ℕ} {x : Result}

theorem get_some (h : db.get id = some p) : p ∈ db.publications ∧ p.publicationId = id :=
  ⟨mem_of_find?_eq_some h,beq_iff_eq.mp (List.find?_some h :)⟩

theorem get_none (h : db.get id = none) : ∀ p ∈ db.publications, p.publicationId ≠ id :=
  fun p hp heq => List.find?_eq_none.mp h p hp (beq_iff_eq.mpr heq)

theorem requestOwner_some (h : db.requestOwner requestId = some id) :
    ∃ p ∈ db.publications, p.requestId = requestId ∧ p.publicationId = id := by
  obtain ⟨p,hfind,hid⟩ := Option.map_eq_some_iff.mp h
  exact ⟨p,mem_of_find?_eq_some hfind,beq_iff_eq.mp (List.find?_some hfind :),hid⟩

theorem requestOwner_none (h : db.requestOwner requestId = none) :
    ∀ p ∈ db.publications, p.requestId ≠ requestId :=
  fun p hp heq => List.find?_eq_none.mp (Option.map_eq_none_iff.mp h) p hp (beq_iff_eq.mpr heq)

theorem getBinding_some {publicationId : String} (h : db.getBinding publicationId consumerId generation = some b) :
    b ∈ db.bindings ∧ b.publicationId = publicationId ∧ b.consumer.consumerId = consumerId ∧
      b.consumer.generation = generation := by
  have hkeys := List.find?_some h
  simp only [Bool.and_eq_true,beq_iff_eq] at hkeys
  exact ⟨mem_of_find?_eq_some h,hkeys.1.1,hkeys.1.2,hkeys.2⟩

theorem isBound_iff : db.isBound consumerId generation p = true ↔
    ∃ b ∈ db.bindings, b.publicationId = p.publicationId ∧ b.consumer.consumerId = consumerId ∧
      b.consumer.generation = generation := by
  simp [Database.isBound,Database.getBinding,and_assoc]

instance : Std.Total fun a b : PublicationRecord => a.sequence ≤ b.sequence := ⟨fun _ _ => Nat.le_total _ _⟩

instance : IsTrans PublicationRecord fun a b => a.sequence ≤ b.sequence := ⟨fun _ _ _ => Nat.le_trans⟩

theorem firstPending_some (h : db.firstPending consumerId generation n = some p) :
    p ∈ db.publications ∧ db.isBound consumerId generation p = true ∧ n < p.sequence ∧
      ∀ x ∈ db.publications, db.isBound consumerId generation x = true → n < x.sequence → p.sequence ≤ x.sequence := by
  unfold Database.firstPending at h
  set pending := db.publications.filter fun p => db.isBound consumerId generation p && decide (n < p.sequence) with hpending
  have hmem : ∀ x, x ∈ pending ↔ x ∈ db.publications ∧ db.isBound consumerId generation x = true ∧ n < x.sequence := by
    simp [hpending]
  have hsorted := pairwise_insertionSort (fun a b : PublicationRecord => a.sequence ≤ b.sequence) pending
  have hperm := perm_insertionSort (fun a b : PublicationRecord => a.sequence ≤ b.sequence) pending
  obtain ⟨rest,hlist⟩ := List.head?_eq_some_iff.mp h
  rw [hlist] at hsorted hperm
  obtain ⟨hp,hbound,hafter⟩ := (hmem p).mp (hperm.mem_iff.mp mem_cons_self)
  refine ⟨hp,hbound,hafter,?_⟩
  intro x hx hxbound hxafter
  rcases mem_cons.mp (hperm.mem_iff.mpr ((hmem x).mpr ⟨hx,hxbound,hxafter⟩)) with rfl | hx
  · exact le_rfl
  · exact rel_of_pairwise_cons hsorted hx

theorem firstPending_of_pending (hp : p ∈ db.publications) (hbound : db.isBound consumerId generation p = true)
    (hafter : n < p.sequence) : ∃ x, db.firstPending consumerId generation n = some x ∧ x.sequence ≤ p.sequence := by
  cases hfirst : db.firstPending consumerId generation n with
  | some x => exact ⟨x,rfl,(firstPending_some hfirst).2.2.2 p hp hbound hafter⟩
  | none =>
    exfalso
    unfold Database.firstPending at hfirst
    rw [List.head?_eq_none_iff] at hfirst
    have hmem : p ∈ db.publications.filter fun p => db.isBound consumerId generation p && decide (n < p.sequence) := by
      simp [hp,hbound,hafter]
    rw [← (perm_insertionSort (fun a b : PublicationRecord => a.sequence ≤ b.sequence) _).mem_iff,hfirst] at hmem
    cases hmem

/-! ## What the tables keep -/

structure Sound (db : Database) (log : PublicationLog) : Prop where
  sequences : db.publications.map (·.sequence) = List.range' 1 db.publications.length
  requests : (db.publications.map (·.requestId)).Nodup
  publicationIds : (db.publications.map (·.publicationId)).Nodup
  bindingIds : (db.bindings.map (·.bindingId)).Nodup
  published : ∀ b ∈ db.bindings, ∃ p ∈ db.publications, p.publicationId = b.publicationId
  placed : ∀ b ∈ db.bindings, ∃ cursor, db.cursors b.consumer.consumerId b.consumer.generation = some cursor
  behind : ∀ c g cursor, db.cursors c g = some cursor → cursor.sequence ≤ db.publications.length
  delivered : ∀ b ∈ db.bindings, ∀ p ∈ db.publications, p.publicationId = b.publicationId →
    ∀ cursor, db.cursors b.consumer.consumerId b.consumer.generation = some cursor → p.sequence ≤ cursor.sequence →
      p.sequence ∈ acknowledged b.consumer.consumerId b.consumer.generation log
  ordered : ∀ c g, (acknowledged c g log).Pairwise (· < ·)
  passed : ∀ c g, ∀ n ∈ acknowledged c g log, ∃ cursor, db.cursors c g = some cursor ∧ n ≤ cursor.sequence

/-- A binding later: of the same consumer to the same publication, and presented as before once it is. -/
structure ConsumerBinding.Stays (x y : ConsumerBinding) : Prop where
  bindingId : y.bindingId = x.bindingId
  publicationId : y.publicationId = x.publicationId
  consumer : y.consumer = x.consumer
  presented : x.presentation = .presented → y.presentation = .presented ∧ y.witnessId = x.witnessId

theorem ConsumerBinding.Stays.refl (x : ConsumerBinding) : x.Stays x := ⟨rfl,rfl,rfl,fun h => ⟨h,rfl⟩⟩

/-- How the tables go on: publications are only added, no cursor goes back, and every binding stays. -/
structure Extends (a b : Database) : Prop where
  publications : a.publications <+: b.publications
  cursors : ∀ c g cursor, a.cursors c g = some cursor → ∃ later, b.cursors c g = some later ∧ cursor.sequence ≤ later.sequence
  bindings : ∀ x ∈ a.bindings, ∃ y ∈ b.bindings, x.Stays y

theorem Extends.refl (a : Database) : Extends a a :=
  ⟨prefix_rfl,fun _ _ cursor h => ⟨cursor,h,le_rfl⟩,fun x hx => ⟨x,hx,.refl x⟩⟩

theorem Extends.trans {a b c : Database} (hab : Extends a b) (hbc : Extends b c) : Extends a c where
  publications := hab.publications.trans hbc.publications
  cursors x g cursor h := by
    obtain ⟨later,hlater,hle⟩ := hab.cursors x g cursor h
    obtain ⟨last,hlast,hle'⟩ := hbc.cursors x g later hlater
    exact ⟨last,hlast,hle.trans hle'⟩
  bindings x hx := by
    obtain ⟨y,hy,hxy⟩ := hab.bindings x hx
    obtain ⟨z,hz,hyz⟩ := hbc.bindings y hy
    refine ⟨z,hz,hyz.bindingId.trans hxy.bindingId,hyz.publicationId.trans hxy.publicationId,hyz.consumer.trans hxy.consumer,?_⟩
    intro hpresented
    obtain ⟨hstill,hwitness⟩ := hxy.presented hpresented
    obtain ⟨hlast,hwitness'⟩ := hyz.presented hstill
    exact ⟨hlast,hwitness'.trans hwitness⟩

theorem sound_empty : Sound .empty [] where
  sequences := rfl
  requests := nodup_nil
  publicationIds := nodup_nil
  bindingIds := nodup_nil
  published b hb := absurd hb not_mem_nil
  placed b hb := absurd hb not_mem_nil
  behind c g cursor h := by cases h
  delivered b hb := absurd hb not_mem_nil
  ordered c g := List.Pairwise.nil
  passed c g n hn := absurd hn not_mem_nil

section Steps

variable {log : PublicationLog}

theorem Sound.numbered (h : Sound db log) (hp : p ∈ db.publications) :
    1 ≤ p.sequence ∧ p.sequence ≤ db.publications.length := by
  have hmem := mem_map_of_mem (f := (·.sequence)) hp
  rw [h.sequences,mem_range'_1] at hmem
  omega

theorem nextSequence_eq (h : Sound db log) : db.nextSequence = db.publications.length + 1 := by
  have hmax : ∀ n, (List.range' 1 n).foldr max 0 = n := by
    intro n
    refine le_antisymm ?_ ?_
    · refine max_le_of_forall_le (List.range' 1 n) n fun x hx => ?_
      rw [mem_range'_1] at hx
      omega
    · cases n with
      | zero => exact Nat.zero_le _
      | succ n => exact le_max_of_le' 0 (mem_range'_1.mpr ⟨by omega,by omega⟩) le_rfl
  unfold Database.nextSequence
  rw [h.sequences,hmax]

theorem acknowledged_concat (c g : String) (log : PublicationLog) {q : PublicationRequest} (a : q.Answer)
    (h : ∀ p b x y, q ≠ .acknowledge p b x y) : acknowledged c g (log ++ [⟨q,a⟩]) = acknowledged c g log := by
  unfold acknowledged
  rw [filterMap_append]
  cases q <;> first
    | exact append_nil _
    | exact absurd rfl (h _ _ _ _)

theorem Sound.of_log (h : Sound db log) {log' : PublicationLog} (hlog : ∀ c g, acknowledged c g log' = acknowledged c g log) :
    Sound db log' := by
  refine ⟨h.sequences,h.requests,h.publicationIds,h.bindingIds,h.published,h.placed,h.behind,?_,?_,?_⟩
  · intro b hb p hp hid cursor hcursor hle
    rw [hlog]
    exact h.delivered b hb p hp hid cursor hcursor hle
  · intro c g
    rw [hlog]
    exact h.ordered c g
  · intro c g n hn
    rw [hlog] at hn
    exact h.passed c g n hn

theorem Sound.append (h : Sound db log) (hrequest : ∀ x ∈ db.publications, x.requestId ≠ p.requestId)
    (hid : ∀ x ∈ db.publications, x.publicationId ≠ p.publicationId) (hsequence : p.sequence = db.nextSequence) :
    Sound { db with publications := db.publications ++ [p] } log where
  sequences := by
    rw [map_append,h.sequences,length_append,map_singleton,length_singleton,List.range'_1_concat,hsequence,
      nextSequence_eq h,Nat.add_comm 1]
  requests := nodup_map_concat h.requests hrequest
  publicationIds := nodup_map_concat h.publicationIds hid
  bindingIds := h.bindingIds
  published b hb := by
    obtain ⟨x,hx,hkey⟩ := h.published b hb
    exact ⟨x,mem_append_left _ hx,hkey⟩
  placed := h.placed
  behind c g cursor hcursor := by
    rw [length_append]
    exact (h.behind c g cursor hcursor).trans (Nat.le_add_right _ _)
  delivered b hb x hx hkey cursor hcursor hle := by
    rcases mem_append.mp hx with hx | hx
    · exact h.delivered b hb x hx hkey cursor hcursor hle
    · obtain rfl := mem_singleton.mp hx
      obtain ⟨y,hy,hkey'⟩ := h.published b hb
      exact absurd (hkey'.trans hkey.symm) (hid y hy)
  ordered := h.ordered
  passed := h.passed

theorem admitsBinding_iff : db.admitsBinding b = true ↔
    db.getBinding b.publicationId b.consumer.consumerId b.consumer.generation = none ∧
      ∀ x ∈ db.bindings, x.bindingId ≠ b.bindingId := by
  simp [Database.admitsBinding]

theorem cursors_insertBinding (db : Database) (b : ConsumerBinding) (c g : String) :
    (db.insertBinding b).cursors c g = match db.cursors c g with
      | some cursor => some cursor
      | none => if c = b.consumer.consumerId ∧ g = b.consumer.generation then some ⟨b.cursorSequence,none⟩ else none := by
  unfold Database.insertBinding
  cases hcursor : db.cursors b.consumer.consumerId b.consumer.generation with
  | some cursor =>
    dsimp only
    cases hother : db.cursors c g with
    | some other => rfl
    | none =>
      dsimp only
      rw [if_neg]
      rintro ⟨rfl,rfl⟩
      rw [hcursor] at hother
      cases hother
  | none =>
    dsimp only [Database.setCursor]
    by_cases hkey : c = b.consumer.consumerId ∧ g = b.consumer.generation
    · rw [if_pos hkey,hkey.1,hkey.2,hcursor,if_pos ⟨rfl,rfl⟩]
    · rw [if_neg hkey]
      cases db.cursors c g with
      | some other => rfl
      | none => exact (if_neg hkey).symm

theorem publications_insertBinding (db : Database) (b : ConsumerBinding) :
    (db.insertBinding b).publications = db.publications ∧ (db.insertBinding b).bindings = db.bindings ++ [b] := by
  unfold Database.insertBinding
  split <;> exact ⟨rfl,rfl⟩

theorem Sound.insertBinding (h : Sound db log) (hp : p ∈ db.publications) (hkey : b.publicationId = p.publicationId)
    (hstart : b.cursorSequence = p.sequence - 1) (hfresh : ∀ x ∈ db.bindings, x.bindingId ≠ b.bindingId)
    (hahead : ∀ cursor, db.cursors b.consumer.consumerId b.consumer.generation = some cursor → cursor.sequence < p.sequence) :
    Sound (db.insertBinding b) log := by
  obtain ⟨hpublications,hbindings⟩ := publications_insertBinding db b
  obtain ⟨hpos,hlast⟩ := h.numbered hp
  have hkept : ∀ c g cursor, db.cursors c g = some cursor → (db.insertBinding b).cursors c g = some cursor := by
    intro c g cursor hcursor
    rw [cursors_insertBinding,hcursor]
  have hcases : ∀ c g cursor, (db.insertBinding b).cursors c g = some cursor →
      db.cursors c g = some cursor ∨ (db.cursors c g = none ∧ c = b.consumer.consumerId ∧ g = b.consumer.generation ∧
        cursor.sequence = p.sequence - 1) := by
    intro c g cursor hcursor
    rw [cursors_insertBinding] at hcursor
    cases hold : db.cursors c g with
    | some old =>
      rw [hold] at hcursor
      exact .inl hcursor
    | none =>
      rw [hold] at hcursor
      dsimp only at hcursor
      split at hcursor
      · rename_i hsame
        cases hcursor
        exact .inr ⟨rfl,hsame.1,hsame.2,hstart⟩
      · cases hcursor
  refine ⟨?_,?_,?_,?_,?_,?_,?_,?_,h.ordered,?_⟩
  · rw [hpublications]
    exact h.sequences
  · rw [hpublications]
    exact h.requests
  · rw [hpublications]
    exact h.publicationIds
  · rw [hbindings]
    exact nodup_map_concat h.bindingIds hfresh
  · rw [hbindings,hpublications]
    intro x hx
    rcases mem_append.mp hx with hx | hx
    · exact h.published x hx
    · exact ⟨p,hp,by rw [mem_singleton.mp hx,hkey]⟩
  · rw [hbindings]
    intro x hx
    rcases mem_append.mp hx with hx | hx
    · obtain ⟨cursor,hcursor⟩ := h.placed x hx
      exact ⟨cursor,hkept _ _ _ hcursor⟩
    · rw [mem_singleton.mp hx,cursors_insertBinding]
      cases db.cursors b.consumer.consumerId b.consumer.generation with
      | some cursor => exact ⟨cursor,rfl⟩
      | none => exact ⟨_,if_pos ⟨rfl,rfl⟩⟩
  · rw [hpublications]
    intro c g cursor hcursor
    rcases hcases c g cursor hcursor with hold | ⟨-,-,-,hsequence⟩
    · exact h.behind c g cursor hold
    · omega
  · rw [hbindings,hpublications]
    intro x hx y hy hxy cursor hcursor hle
    rcases mem_append.mp hx with hx | hx
    · rcases hcases _ _ cursor hcursor with hold | ⟨hnone,-⟩
      · exact h.delivered x hx y hy hxy cursor hold hle
      · obtain ⟨old,hold⟩ := h.placed x hx
        rw [hnone] at hold
        cases hold
    · obtain rfl := mem_singleton.mp hx
      obtain rfl : y = p := inj_on_of_nodup_map h.publicationIds hy hp (hxy.trans hkey)
      rcases hcases _ _ cursor hcursor with hold | ⟨-,-,-,hsequence⟩
      · have hlt := hahead cursor hold
        omega
      · omega
  · intro c g n hn
    obtain ⟨cursor,hcursor,hle⟩ := h.passed c g n hn
    exact ⟨cursor,hkept c g cursor hcursor,hle⟩

theorem Sound.updateBinding (h : Sound db log) (bindingId : String) {f : ConsumerBinding → ConsumerBinding}
    (hf : ∀ x, (f x).bindingId = x.bindingId ∧ (f x).publicationId = x.publicationId ∧ (f x).consumer = x.consumer) :
    Sound (db.updateBinding bindingId f) log := by
  have hrow : ∀ y ∈ (db.updateBinding bindingId f).bindings, ∃ x ∈ db.bindings, y.publicationId = x.publicationId ∧
      y.consumer = x.consumer := by
    intro y hy
    obtain ⟨x,hx,rfl⟩ := mem_map.mp hy
    refine ⟨x,hx,?_⟩
    split
    · exact (hf x).2
    · exact ⟨rfl,rfl⟩
  refine ⟨h.sequences,h.requests,h.publicationIds,?_,?_,?_,h.behind,?_,h.ordered,h.passed⟩
  · have hids : (db.updateBinding bindingId f).bindings.map (·.bindingId) = db.bindings.map (·.bindingId) := by
      change (db.bindings.map fun b => if b.bindingId = bindingId then f b else b).map (·.bindingId) = _
      rw [map_map]
      refine map_congr_left fun x _ => ?_
      dsimp only [Function.comp_apply]
      split
      · exact (hf x).1
      · rfl
    rw [hids]
    exact h.bindingIds
  · intro y hy
    obtain ⟨x,hx,hkey,-⟩ := hrow y hy
    rw [hkey]
    exact h.published x hx
  · intro y hy
    obtain ⟨x,hx,-,hconsumer⟩ := hrow y hy
    rw [hconsumer]
    exact h.placed x hx
  · intro y hy p hp hid cursor hcursor hle
    obtain ⟨x,hx,hkey,hconsumer⟩ := hrow y hy
    rw [hconsumer] at hcursor ⊢
    exact h.delivered x hx p hp (hid.trans hkey) cursor hcursor hle

theorem acknowledged_acknowledge (c g : String) (log : PublicationLog) (p : PublicationRecord) (b : ConsumerBinding) (a : Unit) :
    acknowledged c g (log ++ [⟨.acknowledge p b consumerId generation,a⟩]) =
      acknowledged c g log ++ if consumerId = c ∧ generation = g then [p.sequence] else [] := by
  unfold acknowledged
  rw [filterMap_append]
  congr 1
  by_cases hkey : consumerId = c ∧ generation = g <;> simp [hkey]

theorem Sound.moves (h : Sound db log) {cursor : Cursor} (hcursor : db.cursors consumerId generation = some cursor)
    (hp : p ∈ db.publications) (hafter : cursor.sequence < p.sequence)
    (hfirst : ∀ x ∈ db.publications, db.isBound consumerId generation x = true → cursor.sequence < x.sequence →
      p.sequence ≤ x.sequence) (id : Option String) (b : ConsumerBinding) (r : PublicationRecord) (hr : r.sequence = p.sequence)
    (a : Unit) :
    Sound (db.setCursor consumerId generation ⟨p.sequence,id⟩) (log ++ [⟨.acknowledge r b consumerId generation,a⟩]) := by
  have hacknowledged : ∀ c g, acknowledged c g (log ++ [⟨.acknowledge r b consumerId generation,a⟩]) =
      acknowledged c g log ++ if consumerId = c ∧ generation = g then [p.sequence] else [] := by
    intro c g
    rw [acknowledged_acknowledge,hr]
  have hcases : ∀ c g x, (db.setCursor consumerId generation ⟨p.sequence,id⟩).cursors c g = some x →
      (consumerId = c ∧ generation = g ∧ x.sequence = p.sequence) ∨ (¬ (consumerId = c ∧ generation = g) ∧ db.cursors c g = some x) := by
    intro c g x hx
    change (if c = consumerId ∧ g = generation then some ⟨p.sequence,id⟩ else db.cursors c g) = some x at hx
    split at hx
    · rename_i hkey
      cases hx
      exact .inl ⟨hkey.1.symm,hkey.2.symm,rfl⟩
    · rename_i hkey
      exact .inr ⟨fun hk => hkey ⟨hk.1.symm,hk.2.symm⟩,hx⟩
  have hnew : (db.setCursor consumerId generation ⟨p.sequence,id⟩).cursors consumerId generation = some ⟨p.sequence,id⟩ :=
    if_pos ⟨rfl,rfl⟩
  refine ⟨h.sequences,h.requests,h.publicationIds,h.bindingIds,h.published,?_,?_,?_,?_,?_⟩
  · intro x hx
    obtain ⟨old,hold⟩ := h.placed x hx
    by_cases hkey : x.consumer.consumerId = consumerId ∧ x.consumer.generation = generation
    · exact ⟨_,if_pos hkey⟩
    · exact ⟨old,(if_neg hkey).trans hold⟩
  · intro c g x hx
    rcases hcases c g x hx with ⟨-,-,hsequence⟩ | ⟨-,hold⟩
    · exact hsequence ▸ (h.numbered hp).2
    · exact h.behind c g x hold
  · intro x hx y hy hxy last hplace hle
    rw [hacknowledged]
    rcases hcases _ _ last hplace with ⟨hc,hg,hsequence⟩ | ⟨hkey,hold⟩
    · rw [if_pos ⟨hc,hg⟩,mem_append,mem_singleton]
      rcases Nat.lt_or_ge cursor.sequence y.sequence with hpending | hpassed
      · right
        have hbound : db.isBound consumerId generation y = true := isBound_iff.mpr ⟨x,hx,hxy.symm,hc.symm,hg.symm⟩
        exact Nat.le_antisymm (hle.trans_eq hsequence) (hfirst y hy hbound hpending)
      · left
        refine h.delivered x hx y hy hxy cursor ?_ hpassed
        rw [← hc,← hg]
        exact hcursor
    · exact mem_append_left _ (h.delivered x hx y hy hxy last hold hle)
  · intro c g
    rw [hacknowledged]
    split
    · rename_i hkey
      obtain ⟨rfl,rfl⟩ := hkey
      refine pairwise_append.mpr ⟨h.ordered _ _,pairwise_singleton ..,?_⟩
      intro n hn m hm
      obtain rfl := mem_singleton.mp hm
      obtain ⟨old,hold,hle⟩ := h.passed _ _ n hn
      obtain rfl := some_unique hold hcursor
      exact hle.trans_lt hafter
    · rw [append_nil]
      exact h.ordered c g
  · intro c g n hn
    rw [hacknowledged,mem_append] at hn
    rcases hn with hn | hn
    · obtain ⟨old,hold,hle⟩ := h.passed c g n hn
      by_cases hkey : c = consumerId ∧ g = generation
      · obtain ⟨rfl,rfl⟩ := hkey
        obtain rfl := some_unique hold hcursor
        exact ⟨_,hnew,hle.trans hafter.le⟩
      · exact ⟨old,(if_neg hkey).trans hold,hle⟩
    · split at hn
      · rename_i hkey
        obtain ⟨rfl,rfl⟩ := hkey
        obtain rfl := mem_singleton.mp hn
        exact ⟨_,hnew,le_rfl⟩
      · cases hn

end Steps

/-! ## One step -/

theorem extends_insertBinding (db : Database) (b : ConsumerBinding) : Extends db (db.insertBinding b) := by
  obtain ⟨hpublications,hbindings⟩ := publications_insertBinding db b
  refine ⟨hpublications ▸ prefix_rfl,?_,?_⟩
  · intro c g cursor hcursor
    refine ⟨cursor,?_,le_rfl⟩
    rw [cursors_insertBinding,hcursor]
  · intro x hx
    refine ⟨x,?_,.refl x⟩
    rw [hbindings]
    exact mem_append_left _ hx

theorem extends_updateBinding (db : Database) (bindingId : String) {f : ConsumerBinding → ConsumerBinding}
    (hf : ∀ x ∈ db.bindings, x.bindingId = bindingId → x.Stays (f x)) : Extends db (db.updateBinding bindingId f) := by
  refine ⟨prefix_rfl,fun _ _ cursor h => ⟨cursor,h,le_rfl⟩,?_⟩
  intro x hx
  refine ⟨_,mem_map_of_mem hx,?_⟩
  split
  · rename_i hid
    exact hf x hx hid
  · exact .refl x

theorem extends_setCursor {cursor new : Cursor} (hcursor : db.cursors consumerId generation = some cursor)
    (hle : cursor.sequence ≤ new.sequence) : Extends db (db.setCursor consumerId generation new) := by
  refine ⟨prefix_rfl,?_,fun x hx => ⟨x,hx,.refl x⟩⟩
  intro c g old hold
  by_cases hkey : c = consumerId ∧ g = generation
  · obtain ⟨rfl,rfl⟩ := hkey
    obtain rfl := some_unique hold hcursor
    exact ⟨new,if_pos ⟨rfl,rfl⟩,hle⟩
  · exact ⟨old,(if_neg hkey).trans hold,le_rfl⟩

def Rests (db : Database) : PublicationRequest → Prop
  | .bind p _ => p ∈ db.publications
  | _ => True

variable {log : PublicationLog}

variable (dg) in
/-- The row a publish transaction stores. -/
def newPublication (r : PublishRequest) (db : Database) : PublicationRecord :=
  ⟨r.identity.publicationId dg,r.requestId,r.identity,r.consumer,db.nextSequence⟩

theorem publish_cases (dg : Digests) (r : PublishRequest) (db : Database) :
    (∃ id p, db.requestOwner r.requestId = some id ∧ db.get id = some p ∧ db.publish dg r = (db,.replayed p)) ∨
    (∃ p, db.requestOwner r.requestId = none ∧ db.get (r.identity.publicationId dg) = some p ∧ db.publish dg r = (db,.found p)) ∨
    (∃ out, (out = .requestConflict ∨ out = .refused ∨ out = .integrity) ∧ db.publish dg r = (db,out)) ∨
    (db.requestOwner r.requestId = none ∧ db.get (r.identity.publicationId dg) = none ∧
      db.admitsBinding (newBinding dg (newPublication dg r db) r.consumer) = true ∧
      db.publish dg r = ({ db with publications := db.publications ++ [newPublication dg r db] }.insertBinding
        (newBinding dg (newPublication dg r db) r.consumer),.committed)) := by
  unfold Database.publish
  cases howner : db.requestOwner r.requestId with
  | some id =>
    cases hget : db.get id with
    | none => exact .inr (.inr (.inl ⟨_,.inl rfl,by simp [hget]⟩))
    | some p =>
      cases hmatches : r.matches dg p with
      | true => exact .inl ⟨id,p,rfl,hget,by simp [hget,hmatches]⟩
      | false => exact .inr (.inr (.inl ⟨_,.inl rfl,by simp [hget,hmatches]⟩))
  | none =>
    cases hget : db.get (r.identity.publicationId dg) with
    | some p => exact .inr (.inl ⟨p,rfl,rfl,rfl⟩)
    | none =>
      cases hlineage : r.stillApplicable with
      | false => exact .inr (.inr (.inl ⟨_,.inr (.inl rfl),rfl⟩))
      | true =>
        cases hadmits : db.admitsBinding (newBinding dg (newPublication dg r db) r.consumer) with
        | true => exact .inr (.inr (.inr ⟨rfl,rfl,rfl,if_pos hadmits⟩))
        | false => exact .inr (.inr (.inl ⟨_,.inr (.inr rfl),if_neg (Bool.eq_false_iff.mp hadmits)⟩))

theorem step_publish (h : Sound db log) (r : PublishRequest) :
    Extends db (db.publish dg r).1 ∧ Sound (db.publish dg r).1 log := by
  rcases publish_cases dg r db with ⟨_,_,-,-,heq⟩ | ⟨_,-,-,heq⟩ | ⟨_,-,heq⟩ | ⟨howner,hnone,hadmits,heq⟩
  iterate 3 exact heq ▸ ⟨.refl db,h⟩
  · rw [heq]
    obtain ⟨-,hfresh⟩ := admitsBinding_iff.mp hadmits
    have happend := h.append (p := newPublication dg r db) (requestOwner_none howner) (get_none hnone) rfl
    have hextends : Extends db { db with publications := db.publications ++ [newPublication dg r db] } :=
      ⟨prefix_append ..,fun _ _ cursor hc => ⟨cursor,hc,le_rfl⟩,fun x hx => ⟨x,hx,.refl x⟩⟩
    refine ⟨hextends.trans (extends_insertBinding _ _),?_⟩
    refine happend.insertBinding (mem_append_right _ (mem_singleton.mpr rfl)) rfl rfl hfresh ?_
    intro cursor hcursor
    have hbehind := h.behind _ _ cursor hcursor
    have hnext := nextSequence_eq h
    change cursor.sequence < db.nextSequence
    omega

theorem step_bind (h : Sound db log) (c : Consumer) (horder : InOrder dg db (.bind p c)) (hp : p ∈ db.publications) :
    Extends db (db.bind dg p c).1 ∧ Sound (db.bind dg p c).1 log := by
  unfold Database.bind
  dsimp only
  split
  · rename_i hadmits
    obtain ⟨-,hfresh⟩ := admitsBinding_iff.mp hadmits
    exact ⟨extends_insertBinding ..,h.insertBinding hp rfl rfl hfresh (horder hadmits)⟩
  · exact ⟨.refl db,h⟩

theorem step_witness (h : Sound db log) (w : PresentationWitness) (horder : InOrder dg db (.witness w)) :
    Extends db (db.witness w).1 ∧ Sound (db.witness w).1 log := by
  unfold Database.witness
  split
  · exact ⟨.refl db,h⟩
  · rename_i hfresh
    have hnew : ∀ x ∈ db.witnesses, x.witnessId ≠ w.witnessId := by
      simpa using hfresh
    have hbase : Sound { db with witnesses := db.witnesses ++ [w] } log :=
      ⟨h.sequences,h.requests,h.publicationIds,h.bindingIds,h.published,h.placed,h.behind,h.delivered,h.ordered,h.passed⟩
    refine ⟨?_,hbase.updateBinding w.bindingId fun x => ⟨rfl,rfl,rfl⟩⟩
    have hwitness : Extends db { db with witnesses := db.witnesses ++ [w] } :=
      ⟨prefix_rfl,fun _ _ cursor hc => ⟨cursor,hc,le_rfl⟩,fun x hx => ⟨x,hx,.refl x⟩⟩
    refine hwitness.trans (extends_updateBinding _ _ ?_)
    intro x hx hid
    exact ⟨rfl,rfl,rfl,fun hpresented => ⟨rfl,(horder hnew x hx hid hpresented).symm⟩⟩

theorem step_markUnknown (h : Sound db log) (publicationId consumerId generation reason : String) :
    Extends db (db.markUnknown publicationId consumerId generation reason).1 ∧
      Sound (db.markUnknown publicationId consumerId generation reason).1 log := by
  unfold Database.markUnknown
  split
  · exact ⟨.refl db,h⟩
  · rename_i b hfind
    split
    · exact ⟨.refl db,h⟩
    · rename_i hunknown
      refine ⟨extends_updateBinding _ _ ?_,h.updateBinding _ fun x => ⟨rfl,rfl,rfl⟩⟩
      intro x hx hid
      obtain rfl := inj_on_of_nodup_map h.bindingIds hx (getBinding_some hfind).1 hid
      exact ⟨rfl,rfl,rfl,fun hpresented => absurd hpresented hunknown⟩

theorem step_acknowledge (h : Sound db log) (b : ConsumerBinding)
    (horder : InOrder dg db (.acknowledge p b consumerId generation)) (a : Unit) :
    Extends db (db.acknowledge p b consumerId generation) ∧
      Sound (db.acknowledge p b consumerId generation) (log ++ [⟨.acknowledge p b consumerId generation,a⟩]) := by
  dsimp only [InOrder] at horder
  cases hcursor : db.cursors consumerId generation with
  | none =>
    rw [hcursor] at horder
    cases horder
  | some cursor =>
    rw [hcursor,Option.any_some,beq_iff_eq,Option.map_eq_some_iff] at horder
    obtain ⟨first,hfirst,hsequence⟩ := horder
    obtain ⟨hmem,-,hafter,hleast⟩ := firstPending_some hfirst
    unfold Database.acknowledge
    rw [hcursor]
    dsimp only
    refine ⟨?_,?_⟩
    · refine (extends_setCursor hcursor ?_).trans (extends_updateBinding _ _ fun x _ _ => ⟨rfl,rfl,rfl,fun hp => ⟨hp,rfl⟩⟩)
      rw [← hsequence]
      exact hafter.le
    · rw [← hsequence]
      exact (h.moves hcursor hmem hafter hleast _ b p hsequence.symm a).updateBinding _ fun x => ⟨rfl,rfl,rfl⟩

theorem step_performed (h : Sound db log) (horder : InOrder dg db q) (hrests : Rests db q) :
    Extends db (q.perform dg db).1 ∧ Sound (q.perform dg db).1 (log ++ [⟨q,(q.perform dg db).2⟩]) := by
  have hsame : ∀ {db' : Database}, (∀ p b x y, q ≠ .acknowledge p b x y) → Extends db db' ∧ Sound db' log →
      Extends db db' ∧ Sound db' (log ++ [⟨q,(q.perform dg db).2⟩]) :=
    fun hother hstep => ⟨hstep.1,hstep.2.of_log fun c g => acknowledged_concat c g log _ hother⟩
  cases q with
  | acknowledge p b c g => exact step_acknowledge h b horder ()
  | publish r => exact hsame (fun _ _ _ _ hq => by cases hq) (step_publish h r)
  | bind p c => exact hsame (fun _ _ _ _ hq => by cases hq) (step_bind h c horder hrests)
  | witness w => exact hsame (fun _ _ _ _ hq => by cases hq) (step_witness h w horder)
  | markUnknown p c g reason => exact hsame (fun _ _ _ _ hq => by cases hq) (step_markUnknown h p c g reason)
  | requestOwner _ | get _ | identity _ | getBinding _ _ _ | cursor _ _ | firstPending _ _ _ =>
    exact hsame (fun _ _ _ _ hq => by cases hq) ⟨.refl db,h⟩

/-! ## What the calls promise -/

/-- A publish call that succeeds names a publication that is stored under its request. -/
def Kept (db : Database) : Result → Prop
  | .published requestId publicationId => ∃ p ∈ db.publications, p.requestId = requestId ∧ p.publicationId = publicationId
  | _ => True

variable (dg) in
abbrev Promising (s : PublicationScript Result) (db : Database) : Prop :=
  s.Promises (PublicationRequest.perform dg) Extends (InOrder dg) Rests Kept db

theorem Kept.extends {a b : Database} (h : Extends a b) (ha : Kept a x) : Kept b x := by
  cases x with
  | published requestId publicationId =>
    obtain ⟨p,hp,hkeys⟩ := ha
    exact ⟨p,h.publications.subset hp,hkeys⟩
  | failed _ | bound _ | received _ => trivial

theorem promising_ask {f : q.Answer → PublicationScript Result} : Promising dg (ask q >>= f) db ↔
    ∀ db', Extends db db' → InOrder dg db' q → Rests db' q ∧ Promising dg (f (q.perform dg db').2) (q.perform dg db').1 :=
  Iff.rfl

theorem promising_any {f : q.Answer → PublicationScript Result} (hrests : ∀ db, Rests db q)
    (hf : ∀ db a, Promising dg (f a) db) : Promising dg (ask q >>= f) db :=
  fun db' _ _ => ⟨hrests db',hf _ _⟩

theorem promising_done (h : Kept db x) : Promising dg (pure x) db := h

theorem promising_boundNow (publicationId consumerId generation : String) :
    Promising dg (boundNow publicationId consumerId generation) db := by
  refine promising_any (fun _ => trivial) fun _ found => ?_
  cases found <;>
    exact promising_done trivial

theorem promising_bindThen (publicationId : String) (c : Consumer) (busy : Bool) {onBound : ConsumerBinding → Result}
    (hresult : ∀ b, Kept db (onBound b)) : Promising dg (bindThen publicationId c busy onBound) db := by
  refine promising_ask.mpr fun db₁ h₁ _ => ⟨trivial,?_⟩
  cases hget : (PublicationRequest.perform dg (.get publicationId) db₁).2 with
  | none => exact promising_done trivial
  | some p =>
    have hp : p ∈ db₁.publications := (get_some (show db₁.get publicationId = some p from hget)).1
    refine promising_ask.mpr fun db₂ h₂ _ => ⟨trivial,?_⟩
    cases (PublicationRequest.perform dg (.getBinding publicationId c.consumerId c.generation) db₂).2 with
    | some existing =>
      refine promising_done ?_
      split
      · exact (hresult existing).extends (h₁.trans h₂)
      · trivial
    | none =>
      dsimp only
      split
      · exact promising_done trivial
      · refine promising_ask.mpr fun db₃ h₃ _ => ⟨h₃.publications.subset (h₂.publications.subset hp),?_⟩
        have hbind : Extends db₃ (db₃.bind dg p c).1 := by
          unfold Database.bind
          dsimp only
          split
          · exact extends_insertBinding ..
          · exact .refl db₃
        refine promising_ask.mpr fun db₄ h₄ _ => ⟨trivial,?_⟩
        cases (PublicationRequest.perform dg (.getBinding publicationId c.consumerId c.generation) db₄).2 with
        | none => exact promising_done trivial
        | some b =>
          refine promising_done ?_
          split
          · exact (hresult b).extends ((((h₁.trans h₂).trans h₃).trans hbind).trans h₄)
          · trivial

theorem promising_replay (r : PublishRequest) (id : String)
    (howner : ∃ p ∈ db.publications, p.requestId = r.requestId ∧ p.publicationId = id) : Promising dg (replay dg r id) db := by
  refine promising_ask.mpr fun db' h _ => ⟨trivial,?_⟩
  cases hget : (PublicationRequest.perform dg (.get id) db').2 with
  | none => exact promising_done trivial
  | some p =>
    refine promising_done ?_
    split
    · obtain ⟨x,hx,hrequest,hid⟩ := howner
      exact ⟨x,h.publications.subset hx,hrequest,hid.trans (get_some (show db'.get id = some p from hget)).2.symm⟩
    · trivial

theorem promising_adopt (r : PublishRequest) (hp : p ∈ db.publications) (hrequest : p.requestId = r.requestId) :
    Promising dg (adopt r p) db := by
  unfold adopt
  split
  · exact promising_bindThen _ _ _ fun _ => ⟨p,hp,hrequest,rfl⟩
  · exact promising_done trivial

theorem promising_publish (r : PublishRequest) : Promising dg (publish dg r) db := by
  refine promising_ask.mpr fun db₁ _ _ => ⟨trivial,?_⟩
  cases howner : (PublicationRequest.perform dg (.requestOwner r.requestId) db₁).2 with
  | some id => exact promising_replay r id (requestOwner_some (show db₁.requestOwner r.requestId = some id from howner))
  | none =>
    refine promising_ask.mpr fun db₂ _ hfound => ⟨trivial,?_⟩
    cases hget : (PublicationRequest.perform dg (.identity r) db₂).2 with
    | some p => exact promising_adopt r (get_some (show db₂.get (r.identity.publicationId dg) = some p from hget)).1 (hfound p hget)
    | none =>
      dsimp only
      split
      · exact promising_done trivial
      · split
        · exact promising_done trivial
        · refine promising_ask.mpr fun db₃ _ horder => ⟨trivial,?_⟩
          rcases publish_cases dg r db₃ with ⟨id,p,howner₃,hget₃,heq⟩ | ⟨p,howner₃,hget₃,-⟩ | ⟨out,hout,heq⟩ | ⟨-,-,-,heq⟩
          · obtain ⟨x,hx,hrequest,hid⟩ := requestOwner_some howner₃
            simp only [PublicationRequest.perform,heq]
            exact promising_done ⟨x,hx,hrequest,hid.trans (get_some hget₃).2.symm⟩
          · rw [horder howner₃] at hget₃
            cases hget₃
          · simp only [PublicationRequest.perform,heq]
            rcases hout with rfl | rfl | rfl
            · exact promising_done trivial
            · exact promising_done trivial
            · refine promising_ask.mpr fun db₄ _ _ => ⟨trivial,?_⟩
              cases howner₄ : (PublicationRequest.perform dg (.requestOwner r.requestId) db₄).2 with
              | some id =>
                exact promising_replay r id (requestOwner_some (show db₄.requestOwner r.requestId = some id from howner₄))
              | none => exact promising_done trivial
          · simp only [PublicationRequest.perform,heq]
            refine promising_done ⟨newPublication dg r db₃,?_,rfl,rfl⟩
            rw [(publications_insertBinding _ _).1]
            exact mem_append_right _ (mem_singleton.mpr rfl)

theorem promising_receiveNext (consumerId generation : String) : Promising dg (receiveNext consumerId generation) db := by
  refine promising_any (fun _ => trivial) fun _ found => ?_
  cases found with
  | none => exact promising_done trivial
  | some c =>
    refine promising_any (fun _ => trivial) fun _ found => ?_
    cases found with
    | none => exact promising_done trivial
    | some p => exact promising_any (fun _ => trivial) fun _ _ => promising_done trivial

theorem promising_receiveFromCursor (consumerId generation : String) (n : ℕ) :
    Promising dg (receiveFromCursor consumerId generation n) db := by
  refine promising_any (fun _ => trivial) fun _ found => ?_
  cases found with
  | none => exact promising_done trivial
  | some c =>
    dsimp only
    split
    · exact promising_receiveNext consumerId generation
    · exact promising_done trivial

theorem promising_acknowledge (consumerId generation publicationId : String) (busy : Bool) :
    Promising dg (acknowledge consumerId generation publicationId busy) db := by
  refine promising_any (fun _ => trivial) fun _ found => ?_
  cases found with
  | none => exact promising_done trivial
  | some p =>
    refine promising_any (fun _ => trivial) fun _ found => ?_
    cases found with
    | none => exact promising_done trivial
    | some b =>
      refine promising_any (fun _ => trivial) fun _ found => ?_
      cases found with
      | none => exact promising_done trivial
      | some c =>
        dsimp only
        split
        · exact promising_done trivial
        · refine promising_any (fun _ => trivial) fun _ _ => ?_
          split
          · exact promising_done trivial
          · split
            · exact promising_done trivial
            · exact promising_any (fun _ => trivial) fun _ _ => promising_boundNow _ _ _

theorem promising_observePresentation (o : Observation) : Promising dg (observePresentation dg o) db := by
  refine promising_any (fun _ => trivial) fun _ found => ?_
  cases found with
  | none => exact promising_done trivial
  | some p =>
    refine promising_any (fun _ => trivial) fun _ found => ?_
    cases found with
    | none => exact promising_done trivial
    | some b =>
      dsimp only
      iterate 8 (split; · exact promising_done trivial)
      refine promising_any (fun _ => trivial) fun _ _ => ?_
      split
      · exact promising_boundNow _ _ _
      · refine promising_any (fun _ => trivial) fun _ found => ?_
        cases found with
        | none => exact promising_done trivial
        | some x =>
          refine promising_done ?_
          split <;> trivial

theorem promising_markUnknown (publicationId consumerId generation reason : String) (busy : Bool) :
    Promising dg (markUnknown publicationId consumerId generation reason busy) db := by
  unfold markUnknown
  split
  · exact promising_done trivial
  · refine promising_any (fun _ => trivial) fun _ found => ?_
    cases found with
    | none => exact promising_done trivial
    | some b =>
      dsimp only
      split
      · exact promising_done trivial
      · exact promising_boundNow _ _ _

theorem promising_call (call : PublicationCall) (db : Database) : Promising dg (call.script dg) db := by
  cases call with
  | publish r => exact promising_publish r
  | bindConsumer id c busy => exact promising_bindThen id c busy fun _ => trivial
  | receiveNext c g => exact promising_receiveNext c g
  | receiveFromCursor c g n => exact promising_receiveFromCursor c g n
  | acknowledge c g id busy => exact promising_acknowledge c g id busy
  | observePresentation o => exact promising_observePresentation o
  | markUnknown id c g reason busy => exact promising_markUnknown id c g reason busy

/-! ## Runs -/

variable (dg) in
/-- The conditions on the statements of a run. -/
def Orderly (moves : List (Move PublicationCall)) : Prop :=
  Along (Shared.next (PublicationRequest.perform dg) (PublicationCall.script dg))
    (Shared.Admits fun db _ q => InOrder dg db q) (Shared.begin .empty : PublicationState) moves

theorem promised_run {done rest : List (Move PublicationCall)} (h : Orderly dg (done ++ rest)) :
    Shared.Promised (PublicationRequest.perform dg) Extends (InOrder dg) Rests Kept Sound (publicationRun dg (done ++ rest)) ∧
      Extends (publicationRun dg done).store (publicationRun dg (done ++ rest)).store := by
  obtain ⟨hdone,hrest⟩ := along_append.mp h
  have hstep : ∀ (t : Database) (log : PublicationLog) q, Sound t log → InOrder dg t q → Rests t q →
      Extends t (q.perform dg t).1 ∧ Sound (q.perform dg t).1 (log ++ [⟨q,(q.perform dg t).2⟩]) :=
    fun t log q hs hq hr => step_performed hs hq hr
  have hadmits : ∀ (t : Database) (log : PublicationLog) q, Sound t log → InOrder dg t q → InOrder dg t q :=
    fun t log q _ hq => hq
  have hkeeps : ∀ a b x, Extends a b → Kept a x → Kept b x := fun a b x hext hkept => hkept.extends hext
  have hbegin : Shared.Promised (PublicationRequest.perform dg) Extends (InOrder dg) Rests Kept Sound
      (Shared.begin .empty : PublicationState) := ⟨sound_empty,fun p hp => absurd hp not_mem_nil⟩
  obtain ⟨hfirst,-⟩ := Shared.run_promised Extends.refl (fun _ _ _ => Extends.trans) hkeeps
    hadmits hstep promising_call hbegin hdone
  obtain ⟨hlast,hextends⟩ := Shared.run_promised Extends.refl (fun _ _ _ => Extends.trans) hkeeps
    hadmits hstep promising_call hfirst hrest
  have hrun : Shared.run (PublicationRequest.perform dg) (PublicationCall.script dg) (publicationRun dg done) rest =
      publicationRun dg (done ++ rest) := (foldl_append ..).symm
  rw [← hrun]
  exact ⟨hlast,hextends⟩

theorem receiveNext_alone {cursor : Cursor} (h : Sound db log) (hcursor : db.cursors consumerId generation = some cursor)
    (hfirst : db.firstPending consumerId generation cursor.sequence = some p) :
    (receiveNext consumerId generation).alone (PublicationRequest.perform dg) db = (db,.received (some p)) := by
  have hget : db.get p.publicationId = some p := by
    obtain ⟨hp,-⟩ := firstPending_some hfirst
    cases hfind : db.get p.publicationId with
    | none => exact absurd rfl (get_none hfind p hp)
    | some x =>
      obtain ⟨hx,hid⟩ := get_some hfind
      rw [inj_on_of_nodup_map h.publicationIds hx hp hid]
  have hsecond : (PublicationRequest.perform dg (.firstPending consumerId generation cursor.sequence) db).2 = some p := hfirst
  have hthird : (PublicationRequest.perform dg (.get p.publicationId) db).2 = some p := hget
  have halone : ∀ (q : PublicationRequest) (f : q.Answer → PublicationScript Result),
      (ask q >>= f).alone (PublicationRequest.perform dg) db =
        (f (q.perform dg db).2).alone (PublicationRequest.perform dg) (q.perform dg db).1 := fun q f => rfl
  unfold receiveNext
  rw [halone,show (PublicationRequest.perform dg (.cursor consumerId generation) db).2 = some cursor from hcursor]
  change (ask (.firstPending consumerId generation cursor.sequence) >>= _).alone _ db = _
  rw [halone,hsecond]
  change (ask (.get p.publicationId) >>= _).alone _ db = _
  rw [halone,hthird]
  rfl

variable (dg) in
/-- Delivery and identity in one state of a run. -/
structure Delivers (s : PublicationState) : Prop where
  sequences : s.store.publications.map (·.sequence) = List.range' 1 s.store.publications.length
  /-- A request of a publish call that succeeded is that of one publication. -/
  named : ∀ requestId publicationId, .done (.published requestId publicationId) ∈ s.clients →
    ∃ p ∈ s.store.publications, p.publicationId = publicationId ∧ ∀ x ∈ s.store.publications, x.requestId = requestId ↔ x = p
  named_once : ∀ requestId publicationId publicationId', .done (.published requestId publicationId) ∈ s.clients →
    .done (.published requestId publicationId') ∈ s.clients → publicationId = publicationId'
  ordered : ∀ c g, (acknowledged c g s.log).Pairwise (· < ·)
  /-- A publication a consumer is bound to was acknowledged before the cursor passed it, and is received in its turn. -/
  delivered : ∀ b ∈ s.store.bindings, ∃ p ∈ s.store.publications, ∃ cursor, p.publicationId = b.publicationId ∧
    s.store.cursors b.consumer.consumerId b.consumer.generation = some cursor ∧
    (p.sequence ≤ cursor.sequence → p.sequence ∈ acknowledged b.consumer.consumerId b.consumer.generation s.log) ∧
    (cursor.sequence < p.sequence → ∃ first, cursor.sequence < first.sequence ∧ first.sequence ≤ p.sequence ∧
      (receiveNext b.consumer.consumerId b.consumer.generation).alone (PublicationRequest.perform dg) s.store =
        (s.store,.received (some first)))

/-- A publish call finds its publication only under its own request, a consumer is bound only to publications that its
cursor has not passed, an acknowledgement takes the write lock while its publication still is the first pending one, and
no witness is stored over another one: then publications are delivered in order, and every later state goes on from
the state before. -/
theorem publications_delivered (dg : Digests) (done rest : List (Move PublicationCall)) (h : Orderly dg (done ++ rest)) :
    Delivers dg (publicationRun dg (done ++ rest)) ∧
      Extends (publicationRun dg done).store (publicationRun dg (done ++ rest)).store := by
  obtain ⟨⟨hsound,hclients⟩,hextends⟩ := promised_run h
  have hnamed : ∀ requestId publicationId, .done (.published requestId publicationId) ∈
      (publicationRun dg (done ++ rest)).clients → ∃ p ∈ (publicationRun dg (done ++ rest)).store.publications,
        p.publicationId = publicationId ∧
          ∀ x ∈ (publicationRun dg (done ++ rest)).store.publications, x.requestId = requestId ↔ x = p := by
    intro requestId publicationId hresult
    obtain ⟨p,hp,hrequest,hid⟩ : Kept _ (.published requestId publicationId) := hclients _ hresult
    refine ⟨p,hp,hid,fun x hx => ⟨fun hx' => ?_,?_⟩⟩
    · exact inj_on_of_nodup_map hsound.requests hx hp (hx'.trans hrequest.symm)
    · rintro rfl
      exact hrequest
  refine ⟨⟨hsound.sequences,hnamed,?_,hsound.ordered,?_⟩,hextends⟩
  · intro requestId id id' hid hid'
    obtain ⟨p,hp,rfl,hall⟩ := hnamed requestId id hid
    obtain ⟨p',hp',rfl,hall'⟩ := hnamed requestId id' hid'
    rw [(hall' p hp).mp ((hall p hp).mpr rfl)]
  · intro b hb
    obtain ⟨p,hp,hkey⟩ := hsound.published b hb
    obtain ⟨cursor,hcursor⟩ := hsound.placed b hb
    refine ⟨p,hp,cursor,hkey,hcursor,hsound.delivered b hb p hp hkey cursor hcursor,?_⟩
    intro hpending
    obtain ⟨first,hfirst,hle⟩ := firstPending_of_pending hp (isBound_iff.mpr ⟨b,hb,hkey.symm,rfl,rfl⟩) hpending
    exact ⟨first,(firstPending_some hfirst).2.2.1,hle,receiveNext_alone hsound hcursor hfirst⟩

/-! ## Runs that are in order, and runs that are not -/

def sampleDigests : Digests where
  publication i := i.taskId
  binding b := b.publicationId ++ b.consumer.consumerId
  witness w := w.publicationId ++ w.marker

def sampleConsumer (consumerId : String) : Consumer := ⟨consumerId,.browser,some "talk",none,"g",nofun⟩

def samplePublish (requestId taskId consumerId : String) : PublicationCall :=
  .publish ⟨requestId,⟨taskId,"w","i",⟨"d",1⟩,none,none,none,none,none⟩,sampleConsumer consumerId,true,true,false⟩

def sampleObservation (marker : String) : PublicationCall :=
  .observePresentation ⟨"A","c","g","talk",none,marker,"d",true,true,false⟩

def atOnce (call : PublicationCall) (client requests : ℕ) : List (Move PublicationCall) :=
  .start call :: List.replicate requests (.advance client)

def twoPublished : List (Move PublicationCall) := atOnce (samplePublish "r" "A" "c") 0 3 ++ atOnce (samplePublish "s" "B" "c") 1 3

/-- The first publication is acknowledged and presented. -/
theorem publications_delivered_acknowledged :
    Delivers sampleDigests (publicationRun sampleDigests
      (twoPublished ++ (atOnce (.acknowledge "c" "g" "A" false) 2 6 ++ atOnce (sampleObservation "m") 3 4))) := by
  have horderly : Orderly sampleDigests
      (twoPublished ++ (atOnce (.acknowledge "c" "g" "A" false) 2 6 ++ atOnce (sampleObservation "m") 3 4)) := by
    unfold Orderly
    decide +kernel
  exact (publications_delivered sampleDigests _ _ horderly).1

def returned (s : PublicationState) : List (String × String) :=
  s.clients.filterMap fun
    | .done (.published requestId publicationId) => some (requestId,publicationId)
    | _ => none

/-- The second request finds the publication of the first one, and is free for another publication. -/
def requestTwice : List (Move PublicationCall) :=
  atOnce (samplePublish "r" "A" "c") 0 3 ++ atOnce (samplePublish "s" "A" "c") 1 4 ++ atOnce (samplePublish "s" "B" "c") 2 3

/-- An acknowledgement is held up before its transaction while both publications are acknowledged by others. -/
def heldAcknowledgement : List (Move PublicationCall) :=
  twoPublished ++ atOnce (.acknowledge "c" "g" "A" false) 2 4 ++ atOnce (.acknowledge "c" "g" "A" false) 3 6 ++
    atOnce (.acknowledge "c" "g" "B" false) 4 6

/-- The consumer of the second publication is bound to the first one. -/
def lateBinding : List (Move PublicationCall) :=
  atOnce (samplePublish "r" "A" "c") 0 3 ++ atOnce (samplePublish "s" "B" "d") 1 3 ++
    atOnce (.bindConsumer "A" (sampleConsumer "d") false) 2 4

/-- Two observations read the binding before either stores its witness. -/
def twoWitnesses : List (Move PublicationCall) :=
  atOnce (samplePublish "r" "A" "c") 0 3 ++ atOnce (sampleObservation "m") 1 2 ++ atOnce (sampleObservation "n") 2 2 ++
    [.advance 1]

/-- A request names two publications, a cursor goes back, a publication is passed without an acknowledgement, and the
witness of a presented binding is replaced. -/
theorem publications_lost :
    returned (publicationRun sampleDigests requestTwice) = [("r","A"),("s","A"),("s","B")] ∧
    ¬ Extends (publicationRun sampleDigests heldAcknowledgement).store
      (publicationRun sampleDigests (heldAcknowledgement ++ [.advance 2])).store ∧
    (publicationRun sampleDigests lateBinding).store.bindings.map (fun b => (b.publicationId,b.consumer.consumerId)) =
      [("A","c"),("B","d"),("A","d")] ∧
    ((publicationRun sampleDigests lateBinding).store.cursors "d" "g").map (·.sequence) = some 1 ∧
    acknowledged "d" "g" (publicationRun sampleDigests lateBinding).log = [] ∧
    (publicationRun sampleDigests twoWitnesses).store.bindings.map (fun b => (b.presentation,b.witnessId)) =
      [(.presented,some "Am")] ∧
    (publicationRun sampleDigests (twoWitnesses ++ [.advance 2])).store.bindings.map (fun b => (b.presentation,b.witnessId)) =
      [(.presented,some "An")] := by
  refine ⟨by decide +kernel,?_,by decide +kernel,by decide +kernel,by decide +kernel,by decide +kernel,by decide +kernel⟩
  intro h
  obtain ⟨later,hlater,hle⟩ := h.cursors "c" "g" ⟨2,some "B"⟩ (by decide +kernel)
  have hback : (publicationRun sampleDigests (heldAcknowledgement ++ [.advance 2])).store.cursors "c" "g" =
      some ⟨1,some "A"⟩ := by
    decide +kernel
  rw [hback] at hlater
  cases hlater
  exact absurd hle (by decide)

end Bdb.Publication
