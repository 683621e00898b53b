import Bdb.Project.Calls

/-! # Reconciled bindings

The reconciler visits each group in its order of creation, raises every generation to
the place of its binding there and ends all active bindings but one. The checker
compares generations in the order of appending and also reads flags nobody repairs.
-/
namespace Bdb.Project
open Program List

/-- A binding with its place in the document. -/
abbrev Slot := ProjectExecutionBinding × ℕ

def members (d : ExecutionDocument) (key : GroupKey) : List Slot :=
  d.bindings.zipIdx.filter (fun p => groupKey p.1 == key)

def createdOrder (bs : List Slot) : List Slot := bs.insertionSort (fun a b => createdBefore a b = true)

/-- The place of a binding among those of its group in the order of creation. -/
def createdRank (bs : List Slot) (index : ℕ) : ℕ := ((createdOrder bs).map (·.2)).idxOf index + 1

/-! ## One group -/

section Group
variable (now : String) (current : Option String) (bs : List Slot)

def raised (p : Slot) : Slot :=
  ({ p.1 with generation :=
      if p.1.generation < createdRank bs p.2 then (createdRank bs p.2 : ℕ) else p.1.generation },p.2)

def raisedActive : List Slot := ((createdOrder bs).map (raised bs)).filter (fun p => p.1.isActive)

def keptIndex : Option ℕ := (canonicalActive current (raisedActive bs)).map (·.2)

def reconciledSlot (p : Slot) : Slot :=
  if (raisedActive bs).length ≤ 1 then raised bs p
  else if (raised bs p).1.isActive && keptIndex current bs != some p.2 then
    (supersede now (raised bs p).1,p.2)
  else raised bs p

@[simp] theorem raised_snd (p : Slot) : (raised bs p).2 = p.2 := rfl

@[simp] theorem raised_isActive (p : Slot) : (raised bs p).1.isActive = p.1.isActive := rfl

@[simp] theorem isActive_supersede (b : ProjectExecutionBinding) : (supersede now b).isActive = false := by
  simp [supersede,ProjectExecutionBinding.isActive]

@[simp] theorem reconciledSlot_snd (p : Slot) : (reconciledSlot now current bs p).2 = p.2 := by
  unfold reconciledSlot
  split_ifs <;> rfl

theorem reconciledSlot_fields (p : Slot) :
    groupKey (reconciledSlot now current bs p).1 = groupKey p.1 ∧
      (reconciledSlot now current bs p).1.createdAt = p.1.createdAt ∧
      (reconciledSlot now current bs p).1.executionBindingId = p.1.executionBindingId ∧
      (reconciledSlot now current bs p).1.generation = (raised bs p).1.generation := by
  unfold reconciledSlot
  split_ifs <;> exact ⟨rfl,rfl,rfl,rfl⟩

variable {p : Slot} {α : Type}

theorem reconciledSlot_inactive (h : p.1.isActive = false) :
    reconciledSlot now current bs p = raised bs p := by
  simp [reconciledSlot,h]

theorem reconciledSlot_status (hlegal : p.1.status.legal = true) :
    (reconciledSlot now current bs p).1.status.legal = true ∧
      (((reconciledSlot now current bs p).1.status = .superseded →
          (reconciledSlot now current bs p).1.superseded = true) ↔
        (p.1.status = .superseded → p.1.superseded = true)) := by
  unfold reconciledSlot
  split_ifs with hone hended
  · exact ⟨hlegal,Iff.rfl⟩
  · refine ⟨rfl,iff_of_true (fun _ => rfl) fun hs => ?_⟩
    have hactive : p.1.isActive = true := (Bool.and_eq_true_iff.mp hended).1
    simp [ProjectExecutionBinding.isActive,hs] at hactive
  · exact ⟨hlegal,Iff.rfl⟩

theorem zipIdx_eq_map_idxOf (l : List (α × ℕ)) (h : (l.map (·.2)).Nodup) (k : ℕ) :
    l.zipIdx k = l.map (fun a => (a,(l.map (·.2)).idxOf a.2 + k)) := by
  refine ext_getElem (by simp) fun i hi _ => ?_
  have hi' : i < (l.map (·.2)).length := by simpa using hi
  have hplace := h.idxOf_getElem i hi'
  simp only [getElem_map] at hplace
  simp only [getElem_zipIdx,getElem_map,hplace,Nat.add_comm]

variable {bs}

theorem nodup_createdOrder (hnodup : (bs.map (·.2)).Nodup) : ((createdOrder bs).map (·.2)).Nodup :=
  ((perm_insertionSort _ bs).map _).nodup_iff.mpr hnodup

theorem renumber_createdOrder (hnodup : (bs.map (·.2)).Nodup) :
    renumber (createdOrder bs) = (createdOrder bs).map (raised bs) := by
  rw [renumber,zipIdx_eq_map_idxOf _ (nodup_createdOrder hnodup),map_map]
  rfl

theorem reconcileGroup_eq (hnodup : (bs.map (·.2)).Nodup) :
    reconcileGroup now current bs = (createdOrder bs).map (reconciledSlot now current bs) := by
  have hsort : bs.insertionSort (fun a b => createdBefore a b = true) = createdOrder bs := rfl
  have hactive : ((createdOrder bs).map (raised bs)).filter (fun p => p.1.isActive) = raisedActive bs :=
    rfl
  simp only [reconcileGroup,hsort,renumber_createdOrder hnodup,hactive]
  by_cases hone : (raisedActive bs).length ≤ 1
  · rw [if_pos hone]
    refine map_congr_left fun p _ => ?_
    simp [reconciledSlot,hone]
  · rw [if_neg hone,map_map]
    refine map_congr_left fun p _ => ?_
    simp only [reconciledSlot,hone,if_false,Function.comp_apply]
    rfl

theorem mem_createdOrder : p ∈ createdOrder bs ↔ p ∈ bs := mem_insertionSort _

variable {q : Slot} {l : List α}

theorem mem_raisedActive : q ∈ raisedActive bs ↔ ∃ p ∈ bs, p.1.isActive = true ∧ raised bs p = q := by
  simp only [raisedActive,mem_filter,mem_map,mem_createdOrder]
  constructor
  · rintro ⟨⟨p,hp,rfl⟩,hactive⟩
    exact ⟨p,hp,hactive,rfl⟩
  · rintro ⟨p,hp,hactive,rfl⟩
    exact ⟨⟨p,hp,rfl⟩,hactive⟩

theorem eq_of_index (hnodup : (bs.map (·.2)).Nodup) (hp : p ∈ bs) (hq : q ∈ bs) (h : p.2 = q.2) : p = q :=
  inj_on_of_nodup_map hnodup hp hq h

theorem length_le_one_of_agree {β : Type} {f : α → β} (h : (l.map f).Nodup)
    (hagree : ∀ a ∈ l, ∀ b ∈ l, f a = f b) : l.length ≤ 1 := by
  cases l with
  | nil => simp
  | cons a rest =>
    cases rest with
    | nil => simp
    | cons b rest =>
      have hab := hagree a mem_cons_self b (mem_cons_of_mem _ mem_cons_self)
      simp [hab] at h

theorem eq_of_length_le_one (h : l.length ≤ 1) {a b : α} (ha : a ∈ l) (hb : b ∈ l) : a = b := by
  obtain ⟨i,hi,rfl⟩ := getElem_of_mem ha
  obtain ⟨j,hj,rfl⟩ := getElem_of_mem hb
  obtain rfl : i = j := by omega
  rfl

theorem kept_of_active (hmany : ¬ (raisedActive bs).length ≤ 1)
    (h : (reconciledSlot now current bs p).1.isActive = true) : keptIndex current bs = some p.2 := by
  by_contra hne
  simp only [reconciledSlot,hmany,if_false] at h
  split_ifs at h with hended
  · simp at h
  · exact hended (by simpa [hne] using h)

theorem reconciled_active_le_one (hnodup : (bs.map (·.2)).Nodup) :
    (((createdOrder bs).map (reconciledSlot now current bs)).filter (fun p => p.1.isActive)).length ≤ 1 := by
  by_cases hone : (raisedActive bs).length ≤ 1
  · have hsame : (createdOrder bs).map (reconciledSlot now current bs) =
        (createdOrder bs).map (raised bs) :=
      map_congr_left fun p _ => by simp [reconciledSlot,hone]
    rw [hsame]
    exact hone
  · refine length_le_one_of_agree (f := (·.2)) ?_ fun a ha b hb => ?_
    · refine (List.Sublist.map (fun q : Slot => q.2) filter_sublist).nodup ?_
      rw [map_map]
      simpa [Function.comp_def] using nodup_createdOrder hnodup
    · obtain ⟨ha,haactive⟩ := mem_filter.mp ha
      obtain ⟨hb,hbactive⟩ := mem_filter.mp hb
      obtain ⟨p,-,rfl⟩ := mem_map.mp ha
      obtain ⟨q,-,rfl⟩ := mem_map.mp hb
      simp only [reconciledSlot_snd]
      exact Option.some.inj
        ((kept_of_active now current hone haactive).symm.trans (kept_of_active now current hone hbactive))

theorem keptIndex_named (hp : p ∈ bs) (hactive : p.1.isActive = true)
    (hnamed : current.filter (· ≠ "") = some p.1.executionBindingId) :
    ∃ q ∈ bs, q.1.isActive = true ∧ q.1.executionBindingId = p.1.executionBindingId ∧
      keptIndex current bs = some q.2 := by
  have hmem : raised bs p ∈ raisedActive bs := mem_raisedActive.mpr ⟨p,hp,hactive,rfl⟩
  cases hfound : (raisedActive bs).find? (fun q => q.1.executionBindingId == p.1.executionBindingId) with
  | none =>
    have hnone := List.find?_eq_none.mp hfound _ hmem
    simp [raised] at hnone
  | some c =>
    obtain ⟨q,hq,hqactive,rfl⟩ := mem_raisedActive.mp (mem_of_find?_eq_some hfound)
    have hid : q.1.executionBindingId = p.1.executionBindingId := by
      simpa [raised] using List.find?_some hfound
    refine ⟨q,hq,hqactive,hid,?_⟩
    rw [keptIndex,canonicalActive,hnamed,Option.bind_some,hfound]
    rfl

theorem reconciled_named (hnodup : (bs.map (·.2)).Nodup) (hp : p ∈ bs)
    (hactive : p.1.isActive = true) (hnamed : current.filter (· ≠ "") = some p.1.executionBindingId) :
    (∃ q ∈ bs, (reconciledSlot now current bs q).1.isActive = true) ∧
      ∀ q ∈ bs, (reconciledSlot now current bs q).1.isActive = true →
        q.1.executionBindingId = p.1.executionBindingId := by
  have hmem : raised bs p ∈ raisedActive bs := mem_raisedActive.mpr ⟨p,hp,hactive,rfl⟩
  by_cases hone : (raisedActive bs).length ≤ 1
  · refine ⟨⟨p,hp,by simp [reconciledSlot,hone,hactive]⟩,fun q hq hqactive => ?_⟩
    have hqmem : raised bs q ∈ raisedActive bs := by
      refine mem_raisedActive.mpr ⟨q,hq,?_,rfl⟩
      simpa [reconciledSlot,hone] using hqactive
    have hsame := congrArg (fun r : Slot => r.1.executionBindingId) (eq_of_length_le_one hone hqmem hmem)
    simpa only [raised] using hsame
  · obtain ⟨k,hk,hkactive,hid,hkept⟩ := keptIndex_named current hp hactive hnamed
    refine ⟨⟨k,hk,by simp [reconciledSlot,hone,hkept,hkactive]⟩,fun q hq hqactive => ?_⟩
    have hindex := (kept_of_active now current hone hqactive).symm.trans hkept
    rw [eq_of_index hnodup hq hk (Option.some.inj hindex)]
    exact hid

/-! ## A second pass -/

theorem createdOrder_reconciled :
    createdOrder (bs.map (reconciledSlot now current bs)) =
      (createdOrder bs).map (reconciledSlot now current bs) := by
  refine (map_insertionSort _ _ _ bs fun a _ b _ => ?_).symm
  obtain ⟨-,hac,hai,-⟩ := reconciledSlot_fields now current bs a
  obtain ⟨-,hbc,hbi,-⟩ := reconciledSlot_fields now current bs b
  simp only [createdBefore,hac,hai,hbc,hbi]

theorem createdRank_reconciled (index : ℕ) :
    createdRank (bs.map (reconciledSlot now current bs)) index = createdRank bs index := by
  rw [createdRank,createdOrder_reconciled,map_map]
  simp [createdRank,Function.comp_def]

theorem createdRank_le_raised (p : Slot) : (createdRank bs p.2 : Int) ≤ (raised bs p).1.generation := by
  simp only [raised]
  split_ifs with h
  · exact le_refl _
  · exact not_lt.mp h

theorem raised_reconciled (p : Slot) :
    raised (bs.map (reconciledSlot now current bs)) (reconciledSlot now current bs p) =
      reconciledSlot now current bs p := by
  obtain ⟨-,-,-,hgen⟩ := reconciledSlot_fields now current bs p
  have hle := @createdRank_le_raised bs p
  rw [raised,createdRank_reconciled,reconciledSlot_snd,hgen,if_neg (not_lt.mpr hle),← hgen]
  exact Prod.ext rfl (reconciledSlot_snd now current bs p).symm

theorem reconciledSlot_again (now' : String) (hnodup : (bs.map (·.2)).Nodup) (p : Slot) :
    reconciledSlot now' current (bs.map (reconciledSlot now current bs)) (reconciledSlot now current bs p) =
      reconciledSlot now current bs p := by
  have hone : (raisedActive (bs.map (reconciledSlot now current bs))).length ≤ 1 := by
    have hmap : (createdOrder (bs.map (reconciledSlot now current bs))).map
        (raised (bs.map (reconciledSlot now current bs))) =
        (createdOrder bs).map (reconciledSlot now current bs) := by
      rw [createdOrder_reconciled,map_map]
      exact map_congr_left fun q _ => raised_reconciled now current q
    rw [raisedActive,hmap]
    exact reconciled_active_le_one now current hnodup
  rw [reconciledSlot,if_pos hone,raised_reconciled]

end Group

/-! ## The document -/

section Document
variable (now : String) (d : ExecutionDocument)

/-- What becomes of a binding of the document. -/
def reconciledAt (p : Slot) : Slot := reconciledSlot now d.currentBinding (members d (groupKey p.1)) p

@[simp] theorem reconciledAt_snd (p : Slot) : (reconciledAt now d p).2 = p.2 := reconciledSlot_snd _ _ _ _

variable {now d}

theorem members_nodup (key : GroupKey) : ((members d key).map (·.2)).Nodup := by
  refine (List.Sublist.map (fun q : Slot => q.2) filter_sublist).nodup ?_
  rw [zipIdx_map_snd]
  exact nodup_range'

theorem mem_members {key : GroupKey} {p : Slot} :
    p ∈ members d key ↔ d.bindings[p.2]? = some p.1 ∧ groupKey p.1 = key := by
  simp [members,mem_filter,mem_zipIdx_iff_getElem?]

theorem find?_eq_some_of_unique {α : Type} {f : α → Bool} {l : List α} {a : α} (ha : a ∈ l)
    (hf : f a = true) (hunique : ∀ b ∈ l, f b = true → b = a) : l.find? f = some a := by
  cases h : l.find? f with
  | none => exact absurd hf (List.find?_eq_none.mp h a ha)
  | some b => rw [hunique b (mem_of_find?_eq_some h) (List.find?_some h)]

theorem reconcileExecutionBindings_bindings :
    (reconcileExecutionBindings now d).bindings =
      d.bindings.zipIdx.map (fun p => (reconciledAt now d p).1) := by
  refine map_congr_left fun p hp => ?_
  have hat := mem_zipIdx_iff_getElem?.mp hp
  have hfound : ((groupKeys d.bindings).flatMap (fun key =>
      reconcileGroup now d.currentBinding (d.bindings.zipIdx.filter (fun q => groupKey q.1 == key)))).find?
        (fun q => q.2 == p.2) = some (reconciledAt now d p) := by
    refine find?_eq_some_of_unique (mem_flatMap.mpr ⟨groupKey p.1,?_,?_⟩) (by simp) fun q hq heq => ?_
    · exact mem_eraseDups.mpr (mem_map_of_mem (mem_of_getElem? hat))
    · change _ ∈ reconcileGroup now d.currentBinding (members d _)
      rw [reconcileGroup_eq _ _ (members_nodup _)]
      exact mem_map_of_mem (mem_createdOrder.mpr (mem_members.mpr ⟨hat,rfl⟩))
    · obtain ⟨key,-,hq⟩ := mem_flatMap.mp hq
      change _ ∈ reconcileGroup now d.currentBinding (members d key) at hq
      rw [reconcileGroup_eq _ _ (members_nodup _)] at hq
      obtain ⟨r,hr,rfl⟩ := mem_map.mp hq
      obtain ⟨hrat,rfl⟩ := mem_members.mp (mem_createdOrder.mp hr)
      have hindex : r.2 = p.2 := by simpa using heq
      have hbinding : r.1 = p.1 := some_unique hrat (hindex ▸ hat)
      rw [Prod.ext hbinding hindex]
      rfl
  rw [hfound]
  rfl

theorem reconciled_zipIdx :
    (reconcileExecutionBindings now d).bindings.zipIdx = d.bindings.zipIdx.map (reconciledAt now d) := by
  rw [reconcileExecutionBindings_bindings]
  refine ext_getElem (by simp) fun i hi hi' => ?_
  simp [Prod.ext_iff]

theorem reconciled_members (key : GroupKey) :
    members (reconcileExecutionBindings now d) key =
      (members d key).map (reconciledSlot now d.currentBinding (members d key)) := by
  have hkey : ∀ p, groupKey (reconciledAt now d p).1 = groupKey p.1 :=
    fun p => (reconciledSlot_fields _ _ _ p).1
  rw [members,reconciled_zipIdx,filter_map]
  simp only [Function.comp_def,hkey]
  refine map_congr_left fun p hp => ?_
  rw [reconciledAt,(mem_members.mp hp).2]

theorem reconcile_idempotent (now' : String) :
    reconcileExecutionBindings now' (reconcileExecutionBindings now d) = reconcileExecutionBindings now d := by
  have hbindings : (reconcileExecutionBindings now' (reconcileExecutionBindings now d)).bindings =
      (reconcileExecutionBindings now d).bindings := by
    rw [reconcileExecutionBindings_bindings (d := reconcileExecutionBindings now d),reconciled_zipIdx,
      reconcileExecutionBindings_bindings,map_map]
    refine map_congr_left fun p hp => ?_
    have hkey : groupKey (reconciledAt now d p).1 = groupKey p.1 := (reconciledSlot_fields _ _ _ p).1
    rw [Function.comp_apply,reconciledAt,hkey,reconciled_members]
    exact congrArg Prod.fst (reconciledSlot_again now d.currentBinding now' (members_nodup _) p)
  calc reconcileExecutionBindings now' (reconcileExecutionBindings now d)
      = { reconcileExecutionBindings now d with
          bindings := (reconcileExecutionBindings now' (reconcileExecutionBindings now d)).bindings } := rfl
    _ = reconcileExecutionBindings now d := by rw [hbindings]

variable {i : ℕ} {b : ProjectExecutionBinding}

theorem reconciled_getElem? (h : d.bindings[i]? = some b) :
    (reconcileExecutionBindings now d).bindings[i]? = some (reconciledAt now d (b,i)).1 := by
  rw [reconcileExecutionBindings_bindings,List.getElem?_map,List.getElem?_zipIdx,h]
  simp

theorem getElem?_of_reconciled (h : (reconcileExecutionBindings now d).bindings[i]? = some b) :
    ∃ a, d.bindings[i]? = some a ∧ b = (reconciledAt now d (a,i)).1 := by
  rw [reconcileExecutionBindings_bindings,List.getElem?_map,List.getElem?_zipIdx] at h
  cases ha : d.bindings[i]? with
  | none => simp [ha] at h
  | some a =>
    rw [ha] at h
    refine ⟨a,rfl,?_⟩
    simpa using h.symm

end Document

/-! ## What the checker demands -/

theorem pairwise_of_strictlyIncreasing {gs : List Int} : strictlyIncreasing gs = true ↔ gs.Pairwise (· < ·) := by
  refine ⟨fun h => ?_,strictlyIncreasing_of_pairwise⟩
  rw [← isChain_iff_pairwise]
  induction gs with
  | nil => exact .nil
  | cons a rest ih =>
    cases rest with
    | nil => exact .singleton a
    | cons b rest =>
      obtain ⟨hab,hrest⟩ := Bool.and_eq_true_iff.mp h
      exact isChain_cons_cons.mpr ⟨of_decide_eq_true hab,ih hrest⟩

variable {b : ProjectExecutionBinding} {key : GroupKey}

theorem statusErrors_eq_nil :
    statusErrors b = [] ↔ b.status.legal = true ∧ (b.status = .superseded → b.superseded = true) := by
  unfold statusErrors
  rw [append_eq_nil_iff]
  refine and_congr (by split_ifs <;> simp_all) ?_
  split_ifs with h
  · simp [h.1,h.2]
  · simpa using h

variable {rt : Runtime}

theorem generationErrors_eq_nil {bs : List ProjectExecutionBinding} : generationErrors rt key bs = [] ↔
      (∀ b ∈ bs, 1 ≤ b.generation) ∧ bs.Pairwise (fun a b => a.generation < b.generation) := by
  have hpair : bs.Pairwise (fun a b => a.generation < b.generation) ↔
      strictlyIncreasing (bs.map (·.generation)) = true := by
    rw [pairwise_of_strictlyIncreasing,pairwise_map]
  unfold generationErrors
  rw [append_eq_nil_iff,hpair]
  refine and_congr ?_ (by simp)
  simp only [any_map,ite_eq_right_iff,cons_ne_self,imp_false,Bool.not_eq_true,any_eq_false]
  simp

theorem groupErrors_eq_nil {bs : List ProjectExecutionBinding} : groupErrors rt key bs = [] ↔
      (bs.filter ProjectExecutionBinding.isActive).length ≤ 1 ∧
        ((∀ b ∈ bs, 1 ≤ b.generation) ∧ bs.Pairwise (fun a b => a.generation < b.generation)) ∧
        ∀ b ∈ bs, b.status.legal = true ∧ (b.status = .superseded → b.superseded = true) := by
  unfold groupErrors
  rw [append_eq_nil_iff,append_eq_nil_iff,generationErrors_eq_nil,and_assoc,flatMap_eq_nil_iff]
  refine and_congr ?_ (and_congr_right' (forall_congr' fun b => forall_congr' fun _ => statusErrors_eq_nil))
  simp only [activeErrors]
  split_ifs with h
  · simpa using h
  · simpa using h

variable {d : ExecutionDocument}

theorem check_iff : checkBindingLifecycleInvariants rt d = (true,[]) ↔
      ∀ key, groupErrors rt key (group d.bindings key) = [] := by
  have hnil : checkBindingLifecycleInvariants rt d = (true,[]) ↔
      (groupKeys d.bindings).flatMap (fun key => groupErrors rt key (group d.bindings key)) = [] := by
    simp [checkBindingLifecycleInvariants]
  rw [hnil,flatMap_eq_nil_iff]
  refine forall_congr' fun key => ⟨fun h => ?_,fun h _ => h⟩
  by_cases hkey : key ∈ groupKeys d.bindings
  · exact h hkey
  · have hempty : group d.bindings key = [] := by
      refine filter_eq_nil_iff.mpr fun b hb heq => hkey ?_
      rw [← beq_iff_eq.mp heq]
      exact mem_eraseDups.mpr (mem_map_of_mem hb)
    rw [hempty]
    exact groupErrors_eq_nil.mpr ⟨by simp,by simp,by simp⟩

/-! ## When a reconciled document passes -/

/-- Of two bindings of a group the one appended later has the larger generation once both are
raised to their places in the order of creation; a superseded binding carries its flag. -/
structure Reconcilable (d : ExecutionDocument) : Prop where
  flagged : ∀ b ∈ d.bindings, b.status = .superseded → b.superseded = true
  ordered : ∀ key, (members d key).Pairwise (fun (p q : Slot) =>
    (p.1.generation < q.1.generation ∨ p.1.generation < (createdRank (members d key) q.2 : ℕ)) ∧
      ((createdRank (members d key) p.2 : ℕ) < q.1.generation ∨
        createdRank (members d key) p.2 < createdRank (members d key) q.2))

/-- What the reconciler promises of a document. -/
structure ReconciliationSound (rt : Runtime) (now : String) (d : ExecutionDocument) : Prop where
  accepted : checkBindingLifecycleInvariants rt (reconcileExecutionBindings now d) = (true,[])
  idempotent : ∀ now', reconcileExecutionBindings now' (reconcileExecutionBindings now d) =
    reconcileExecutionBindings now d
  kept : ∀ (i : ℕ) (b : ProjectExecutionBinding), d.bindings[i]? = some b → b.isActive = false →
    ∃ g, (reconcileExecutionBindings now d).bindings[i]? = some { b with generation := g }
  /-- An empty name names no binding. -/
  named : ∀ b ∈ d.bindings, b.isActive = true →
    d.currentBinding.filter (· ≠ "") = some b.executionBindingId →
    (∃ c ∈ (reconcileExecutionBindings now d).bindings, groupKey c = groupKey b ∧ c.isActive = true) ∧
      ∀ c ∈ (reconcileExecutionBindings now d).bindings, groupKey c = groupKey b → c.isActive = true →
        c.executionBindingId = b.executionBindingId

theorem raised_lt_iff {bs : List Slot} {p q : Slot} :
    (raised bs p).1.generation < (raised bs q).1.generation ↔
      (p.1.generation < q.1.generation ∨ p.1.generation < (createdRank bs q.2 : ℕ)) ∧
        ((createdRank bs p.2 : ℕ) < q.1.generation ∨ createdRank bs p.2 < createdRank bs q.2) := by
  simp only [raised]
  split_ifs <;> omega

theorem group_eq_members (d : ExecutionDocument) (key : GroupKey) :
    group d.bindings key = (members d key).map (·.1) := by
  have hfst : d.bindings = d.bindings.zipIdx.map (·.1) := by simp
  rw [group,members]
  conv_lhs => rw [hfst]
  rw [filter_map]
  rfl

theorem reconciled_group (now : String) (d : ExecutionDocument) (key : GroupKey) :
    group (reconcileExecutionBindings now d).bindings key =
      (members d key).map (fun p => (reconciledSlot now d.currentBinding (members d key) p).1) := by
  rw [group_eq_members,reconciled_members,map_map]
  rfl

theorem reconciled_group_active (now : String) (d : ExecutionDocument) (key : GroupKey) :
    ((group (reconcileExecutionBindings now d).bindings key).filter
      ProjectExecutionBinding.isActive).length ≤ 1 := by
  have hone := reconciled_active_le_one now d.currentBinding (members_nodup (d := d) key)
  have hperm := ((perm_insertionSort (fun a b => createdBefore a b = true) (members d key)).map
    (reconciledSlot now d.currentBinding (members d key))).filter (fun p => p.1.isActive)
  rw [createdOrder,hperm.length_eq,filter_map,length_map] at hone
  rw [reconciled_group,filter_map,length_map]
  exact hone

theorem mem_members_of_mem (h : b ∈ d.bindings) :
    ∃ i, (b,i) ∈ members d (groupKey b) := by
  obtain ⟨i,hi⟩ := mem_iff_getElem?.mp h
  exact ⟨i,mem_members.mpr ⟨hi,rfl⟩⟩

theorem reconciled_accepted_iff {now : String} (hlegal : ∀ b ∈ d.bindings, b.status.legal = true) :
    checkBindingLifecycleInvariants rt (reconcileExecutionBindings now d) = (true,[]) ↔ Reconcilable d := by
  have hlegal' : ∀ {key p}, p ∈ members d key → p.1.status.legal = true :=
    fun hp => hlegal _ (mem_of_getElem? (mem_members.mp hp).1)
  have hgen : ∀ key p, (reconciledSlot now d.currentBinding (members d key) p).1.generation =
      (raised (members d key) p).1.generation := fun key p => (reconciledSlot_fields _ _ _ p).2.2.2
  rw [check_iff]
  simp only [groupErrors_eq_nil]
  constructor
  · intro h
    refine ⟨fun b hb => ?_,fun key => ?_⟩
    · obtain ⟨i,hi⟩ := mem_members_of_mem hb
      obtain ⟨-,-,hstatus⟩ := h (groupKey b)
      rw [reconciled_group] at hstatus
      exact (reconciledSlot_status now d.currentBinding _ (hlegal' hi)).2.mp
        (hstatus _ (mem_map_of_mem hi)).2
    · obtain ⟨-,⟨-,hpair⟩,-⟩ := h key
      rw [reconciled_group,pairwise_map] at hpair
      refine hpair.imp fun hlt => raised_lt_iff.mp ?_
      rw [← hgen,← hgen]
      exact hlt
  · intro h key
    refine ⟨reconciled_group_active now d key,?_⟩
    rw [reconciled_group]
    refine ⟨⟨?_,?_⟩,?_⟩
    · simp only [forall_mem_map,hgen]
      intro p hp
      have hle := @createdRank_le_raised (members d key) p
      have hrank : 1 ≤ createdRank (members d key) p.2 := Nat.le_add_left 1 _
      omega
    · rw [pairwise_map]
      refine (h.ordered key).imp fun hlt => ?_
      rw [hgen,hgen]
      exact raised_lt_iff.mpr hlt
    · simp only [forall_mem_map]
      intro p hp
      have hstatus := reconciledSlot_status now d.currentBinding (members d key) (hlegal' hp)
      exact ⟨hstatus.1,hstatus.2.mpr (h.flagged p.1 (mem_of_getElem? (mem_members.mp hp).1))⟩

/-- Reconciliation keeps its promises for exactly the reconcilable documents. -/
theorem reconciliation_sound_iff (rt : Runtime) (now : String) (d : ExecutionDocument)
    (hlegal : ∀ b ∈ d.bindings, b.status.legal = true) :
    ReconciliationSound rt now d ↔ Reconcilable d := by
  refine ⟨fun h => (reconciled_accepted_iff hlegal).mp h.accepted,fun h => ?_⟩
  refine ⟨(reconciled_accepted_iff hlegal).mpr h,reconcile_idempotent,?_,?_⟩
  · intro i b hb hinactive
    refine ⟨(raised (members d (groupKey b)) (b,i)).1.generation,(reconciled_getElem? hb).trans ?_⟩
    rw [reconciledAt,reconciledSlot_inactive _ _ _ hinactive]
    rfl
  · intro b hb hactive hnamed
    obtain ⟨i,hi⟩ := mem_members_of_mem hb
    obtain ⟨⟨q,hq,hqactive⟩,hall⟩ := reconciled_named now d.currentBinding (members_nodup _) hi hactive hnamed
    obtain ⟨hqat,hqkey⟩ := mem_members.mp hq
    have hat : ∀ p : Slot, groupKey p.1 = groupKey b →
        (reconciledAt now d p).1 = (reconciledSlot now d.currentBinding (members d (groupKey b)) p).1 := by
      intro p hp
      rw [reconciledAt,hp]
    refine ⟨⟨_,mem_of_getElem? (reconciled_getElem? hqat),?_,?_⟩,?_⟩
    · exact (reconciledSlot_fields _ _ _ q).1.trans hqkey
    · rw [hat _ hqkey]
      exact hqactive
    · intro c hc hkey hcactive
      obtain ⟨j,hj⟩ := mem_iff_getElem?.mp hc
      obtain ⟨a,ha,rfl⟩ := getElem?_of_reconciled hj
      obtain ⟨hgroup,-,hid,-⟩ := reconciledSlot_fields now d.currentBinding (members d (groupKey a)) (a,j)
      have hakey : groupKey a = groupKey b := hgroup.symm.trans hkey
      rw [hat (a,j) hakey] at hcactive
      exact hid.trans (hall (a,j) (mem_members.mpr ⟨ha,hakey⟩) hcactive)

/-- Two settled bindings of one task whose generations agree. -/
def tiedDocument : ExecutionDocument :=
  { Execution.empty.filled with
    bindings := [{ sampleBinding "b1" "t1" with status := .accepted, generation := 3 },
      { sampleBinding "b2" "t1" with status := .failed, generation := 3 }] }

theorem tied_not_reconciled :
    (checkBindingLifecycleInvariants sampleRuntime (reconcileExecutionBindings "now" tiedDocument)).1 = false ∧
      ¬ ReconciliationSound sampleRuntime "now" tiedDocument := by
  have hcheck : (checkBindingLifecycleInvariants sampleRuntime
      (reconcileExecutionBindings "now" tiedDocument)).1 = false := by decide +kernel
  refine ⟨hcheck,fun h => ?_⟩
  rw [h.accepted] at hcheck
  cases hcheck

/-- Two active bindings of one task, the first of them the current one. -/
def forkedDocument : ExecutionDocument :=
  { Execution.empty.filled with
    bindings := [sampleBinding "b1" "t1",{ sampleBinding "b2" "t1" with generation := 1 }]
    currentBindingId := some (some "b1") }

theorem reconciliation_sound_iff_forked :
    (∀ b ∈ forkedDocument.bindings, b.status.legal = true) ∧
      (ReconciliationSound sampleRuntime "now" forkedDocument ↔ Reconcilable forkedDocument) ∧
      (reconcileExecutionBindings "now" forkedDocument).bindings.map (fun b => (b.status,b.generation)) =
        [(.active,1),(.superseded,2)] :=
  ⟨by decide,reconciliation_sound_iff sampleRuntime "now" forkedDocument (by decide),by decide +kernel⟩

/-! ## The call -/

/-- The call returns, its document is the reconciled one, and one event is added to an
otherwise unchanged state. -/
def ReconciliationCommits (amb : Ambient) (site : Site) (projectId : String) (m : Memory) : Prop :=
  ∃ s n event, readState projectId m = .ok s ∧
    (reconcileProjectBindings amb site projectId).exec m = (.ok (),some n) ∧
    n.document = reconcileExecutionBindings amb.now s.document ∧ n.events = s.events ++ [event] ∧
    n.decisions = s.decisions ∧ n.inbox = s.inbox ∧ n.risks = s.risks ∧
    n.technicalDebt = s.technicalDebt ∧ n.attention = s.attention ∧ n.checkpoints = s.checkpoints

/-- The call never commits; with a plan and a readable document it fails at the type of its
event and stores nothing. -/
theorem reconcile_call_never_commits (amb : Ambient) (site : Site) (projectId : String) (m : Memory) :
    ¬ ReconciliationCommits amb site projectId m ∧
      ((reconcileProjectBindings amb site projectId).exec m).2 = m ∧
      ∀ (project : ProjectRecord) (plan : ProjectPlan) (s : ProjectMemoryState) (d : ExecutionDocument),
        site.authority projectId = .ok (project,plan) → readState projectId m = .ok s →
        executionDocument s = .ok d →
        (reconcileProjectBindings amb site projectId).exec m =
          (.error ⟨"event_type_invalid","event_type is unsupported",[]⟩,m) := by
  have hexec : ∀ project plan, site.authority projectId = .ok (project,plan) →
      (reconcileProjectBindings amb site projectId).exec m =
        (transact projectId (reconcileBindingsTransition amb projectId)).exec m := by
    intro project plan hauth
    simp only [reconcileProjectBindings,lift,exec_bind,exec_observe,hauth]
  have hfailed : ∃ e, (reconcileProjectBindings amb site projectId).exec m = (.error e,m) := by
    cases hauth : site.authority projectId with
    | error e =>
      refine ⟨e,?_⟩
      simp only [reconcileProjectBindings,lift,exec_bind,exec_observe,hauth]
    | ok p =>
      rw [hexec p.1 p.2 hauth,transact,exec_commit]
      cases ht : executionTransaction projectId (reconcileBindingsTransition amb projectId) m with
      | error e => exact ⟨e,rfl⟩
      | ok q =>
        obtain ⟨current,updated,-,hop,-⟩ := executionTransaction_ok ht
        exact absurd hop reconcileBindings_fails
  obtain ⟨e,hfailed⟩ := hfailed
  refine ⟨?_,by rw [hfailed],fun project plan s d hauth hread hd => ?_⟩
  · rintro ⟨s,n,event,-,hcommit,-⟩
    rw [hfailed] at hcommit
    cases hcommit
  · have hfails : reconcileBindingsTransition amb projectId s =
        .error ⟨"event_type_invalid","event_type is unsupported",[]⟩ := by
      simp only [reconcileBindingsTransition,hd,ok_bind]
      rfl
    rw [hexec project plan hauth,transact,exec_commit]
    simp only [executionTransaction,writeTransaction,hread,ok_bind,hfails]
    rfl

def forkedSite : Site := sampleSite (samplePlan [sampleTask "t1" "m1" .pending []]) oneTask_wellFormed

def forkedMemory : Memory := some ((ProjectMemoryState.fresh "p1").withDocument forkedDocument)

/-- A readable state with a plan and an empty event log is not reconciled. -/
theorem forked_call_fails :
    (readState "p1" forkedMemory).toOption.isSome = true ∧
      (forkedSite.authority "p1").toOption.isSome = true ∧
      ((readState "p1" forkedMemory).toOption.map (·.events.length)) = some 0 ∧
      ((reconcileProjectBindings sampleAmbient forkedSite "p1").exec forkedMemory).1.toOption.isNone = true ∧
      ¬ ReconciliationCommits sampleAmbient forkedSite "p1" forkedMemory := by
  have hfails : ((reconcileProjectBindings sampleAmbient forkedSite "p1").exec
      forkedMemory).1.toOption.isNone = true := by decide +kernel
  refine ⟨by decide +kernel,by decide +kernel,by decide +kernel,hfails,?_⟩
  rintro ⟨s,n,event,-,hcommit,-⟩
  rw [hcommit] at hfails
  cases hfails

theorem reconcile_call_never_commits_forked :
    ∃ project plan s d, forkedSite.authority "p1" = .ok (project,plan) ∧
      readState "p1" forkedMemory = .ok s ∧ executionDocument s = .ok d ∧
      (reconcileProjectBindings sampleAmbient forkedSite "p1").exec forkedMemory =
        (.error ⟨"event_type_invalid","event_type is unsupported",[]⟩,forkedMemory) := by
  have hauth : (forkedSite.authority "p1").toOption.isSome = true := by decide +kernel
  have hread : ((readState "p1" forkedMemory).toOption.bind
      (fun s => (executionDocument s).toOption)).isSome = true := by decide +kernel
  obtain ⟨⟨project,plan⟩,hauth⟩ := Option.isSome_iff_exists.mp hauth
  obtain ⟨d,hd⟩ := Option.isSome_iff_exists.mp hread
  obtain ⟨s,hs,hd⟩ := Option.bind_eq_some_iff.mp hd
  have hauth := toOption_eq_some.mp hauth
  have hs := toOption_eq_some.mp hs
  have hd := toOption_eq_some.mp hd
  exact ⟨project,plan,s,d,hauth,hs,hd,
    (reconcile_call_never_commits sampleAmbient forkedSite "p1" forkedMemory).2.2 project plan s d hauth hs hd⟩

end Bdb.Project
