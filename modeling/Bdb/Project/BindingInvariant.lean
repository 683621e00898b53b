import Bdb.Project.Calls

/-! # Bindings over whole runs

A binding keeps its identity, its group and its generation for ever; its status moves
once, from active to a final one. New bindings are appended with a larger generation
after every active binding of their group was superseded.
-/
namespace Bdb.Project

open List

/-- One binding before and after a change. -/
structure Advance (a b : ProjectExecutionBinding) : Prop where
  id : b.executionBindingId = a.executionBindingId
  group : groupKey b = groupKey a
  generation : b.generation = a.generation
  status : (b.status = a.status ∧ b.superseded = a.superseded) ∨
    (a.isActive = true ∧ b.status.terminal = true ∧ (b.status = .superseded → b.superseded = true))

namespace Advance

theorem refl (a : ProjectExecutionBinding) : Advance a a := ⟨rfl,rfl,rfl,.inl ⟨rfl,rfl⟩⟩

variable {a b : ProjectExecutionBinding}

theorem isActive_of (h : Advance a b) (hb : b.isActive = true) : a.isActive = true := by
  rcases h.status with ⟨hs,hf⟩ | ⟨ha,-,-⟩
  · simpa [ProjectExecutionBinding.isActive,hs,hf] using hb
  · exact ha

theorem terminal_status (h : Advance a b) (ha : a.status.terminal = true) : b.status = a.status := by
  rcases h.status with ⟨hs,-⟩ | ⟨hactive,-,-⟩
  · exact hs
  · simp only [ProjectExecutionBinding.isActive,Bool.and_eq_true,beq_iff_eq] at hactive
    rw [hactive.1] at ha
    cases ha

theorem sound (h : Advance a b) (ha : Sound a) : Sound b := by
  refine ⟨?_,?_,?_⟩
  · rw [h.generation]
    exact ha.generation
  · rcases h.status with ⟨hs,-⟩ | ⟨-,ht,-⟩
    · rw [hs]
      exact ha.legal
    · cases hb : b.status with
      | other t => rw [hb] at ht; cases ht
      | _ => rfl
  · intro hb
    rcases h.status with ⟨hs,hf⟩ | ⟨-,-,hflag⟩
    · rw [hf]
      exact ha.flag (hs ▸ hb)
    · exact hflag hb

theorem succeeds {a' b' : ProjectExecutionBinding} (ha : Advance a a') (hb : Advance b b')
    (h : Succeeds a b) : Succeeds a' b' := by
  intro hkey
  rw [ha.group,hb.group] at hkey
  obtain ⟨hlt,hone⟩ := h hkey
  rw [ha.generation,hb.generation]
  exact ⟨hlt,fun hact => hone ⟨ha.isActive_of hact.1,hb.isActive_of hact.2⟩⟩

end Advance

/-- The invariant of the binding list. -/
structure BindingInv (d : ExecutionDocument) : Prop where
  succeeds : d.bindings.Pairwise Succeeds
  sound : ∀ b ∈ d.bindings, Sound b
  trimmed : ∀ b ∈ d.bindings, strip b.taskId = b.taskId ∧ strip b.planVersion = b.planVersion
  ids : (d.bindings.map (·.executionBindingId)).Nodup

theorem bindingInv_empty : BindingInv Execution.empty.filled :=
  ⟨List.Pairwise.nil,fun _ h => absurd h not_mem_nil,fun _ h => absurd h not_mem_nil,
    nodup_nil⟩

theorem map_id_of_forall₂ {xs ys : List ProjectExecutionBinding} (h : List.Forall₂ Advance xs ys) :
    ys.map (·.executionBindingId) = xs.map (·.executionBindingId) := by
  induction h with
  | nil => rfl
  | cons hr _ ih => simp [hr.id,ih]

variable {d e : ExecutionDocument} {raw b : ProjectExecutionBinding} {bs : List ProjectExecutionBinding}
    {plan : ProjectPlan} {l : Label}

theorem BindingInv.of_forall₂ (hd : BindingInv d)
    (h : List.Forall₂ Advance d.bindings e.bindings) : BindingInv e := by
  refine ⟨pairwise_of_forall₂ h (fun _ _ _ _ => Advance.succeeds) hd.succeeds,?_,?_,?_⟩
  · intro b hb
    obtain ⟨a,ha,hab⟩ := exists_of_forall₂_right h hb
    exact hab.sound (hd.sound a ha)
  · intro b hb
    obtain ⟨a,ha,hab⟩ := exists_of_forall₂_right h hb
    have hkey := Prod.mk.inj hab.group
    rw [hkey.1,hkey.2]
    exact hd.trimmed a ha
  · rw [map_id_of_forall₂ h]
    exact hd.ids

theorem eq_of_binding? (hd : BindingInv d) (hraw : raw ∈ d.bindings) (hb : b ∈ d.bindings)
    (hid : b.executionBindingId = raw.executionBindingId) : b = raw :=
  inj_on_of_nodup_map hd.ids hb hraw hid

/-! ## A launch -/

theorem le_maxGeneration (h : b ∈ bs) : b.generation ≤ maxGeneration bs := by
  have hmem : b.generation ∈ bs.map (·.generation) := mem_map_of_mem h
  unfold maxGeneration
  cases hm : (bs.map (·.generation)).max? with
  | none => simp [List.max?_eq_none_iff.mp hm] at hmem
  | some m => exact (List.max?_le_iff hm).mp le_rfl _ hmem

theorem maxGeneration_nonneg (h : ∀ b ∈ bs, 1 ≤ b.generation) : 0 ≤ maxGeneration bs := by
  cases bs with
  | nil => exact le_rfl
  | cons b rest =>
    have hb := h b mem_cons_self
    have hle : b.generation ≤ maxGeneration (b :: rest) := le_maxGeneration mem_cons_self
    omega

theorem advance_supersede (now : String) (h : b.isActive = true) :
    Advance b (supersede now b) := ⟨rfl,rfl,rfl,.inr ⟨h,rfl,fun _ => rfl⟩⟩

theorem supersedeGroup_advance (now taskId planVersion : String) (bs : List ProjectExecutionBinding) :
    List.Forall₂ Advance bs (supersedeGroup now taskId planVersion bs) := by
  refine forall₂_map_right fun b _ => ?_
  split
  · rename_i h
    simp only [Bool.and_eq_true] at h
    exact advance_supersede now h.2
  · exact Advance.refl b

theorem supersedeGroup_inactive {now taskId planVersion : String}
    (hb : b ∈ supersedeGroup now taskId planVersion bs)
    (hkey : groupKey b = (taskId,planVersion)) : b.isActive = false := by
  obtain ⟨a,-,rfl⟩ := mem_map.mp hb
  split at hkey
  · rename_i h
    rw [if_pos h]
    rfl
  · rename_i h
    rw [if_neg h]
    have hgroup : a.sameGroup taskId planVersion = true := by
      simpa [ProjectExecutionBinding.sameGroup,groupKey] using hkey
    simpa [hgroup] using h

theorem BindingInv.launched (hd : BindingInv d)
    (hw : plan.WellFormed) {now : String} {binding : ProjectExecutionBinding} {task : ProjectTask}
    (hversion : binding.planVersion = plan.planVersion) (hknown : plan.task? binding.taskId = some task)
    (hnew : d.binding? binding.executionBindingId = none) : BindingInv (launched now binding d) := by
  have hkept := supersedeGroup_advance now binding.taskId binding.planVersion d.bindings
  have hold : BindingInv { d with bindings := supersedeGroup now binding.taskId binding.planVersion d.bindings } :=
    hd.of_forall₂ hkept
  have hnext : ∀ b ∈ d.bindings, groupKey b = (binding.taskId,binding.planVersion) →
      b.generation < (persisted d binding).generation := by
    intro b hb hkey
    have hmem : b ∈ d.bindings.filter
        (ProjectExecutionBinding.sameGroup binding.taskId binding.planVersion) := by
      refine mem_filter.mpr ⟨hb,?_⟩
      simpa [ProjectExecutionBinding.sameGroup,groupKey] using hkey
    have hle := le_maxGeneration hmem
    simp only [persisted]
    omega
  have hpos : 1 ≤ (persisted d binding).generation := by
    have hnonneg : 0 ≤ maxGeneration (d.bindings.filter
        (ProjectExecutionBinding.sameGroup binding.taskId binding.planVersion)) :=
      maxGeneration_nonneg fun b hb => (hd.sound b (mem_filter.mp hb).1).generation
    simp only [persisted]
    omega
  refine ⟨?_,?_,?_,?_⟩
  · refine pairwise_append.mpr ⟨hold.succeeds,pairwise_singleton _ _,?_⟩
    intro b hb c hc hkey
    obtain rfl := mem_singleton.mp hc
    have hgroup : groupKey b = (binding.taskId,binding.planVersion) := hkey
    obtain ⟨a,ha,hab⟩ := exists_of_forall₂_right hkept hb
    refine ⟨?_,?_⟩
    · rw [hab.generation]
      exact hnext a ha (hab.group.symm.trans hgroup)
    · rw [supersedeGroup_inactive hb hgroup]
      simp
  · intro b hb
    rcases mem_append.mp hb with hb | hb
    · exact hold.sound b hb
    · obtain rfl := mem_singleton.mp hb
      exact ⟨hpos,rfl,fun h => by cases h⟩
  · intro b hb
    rcases mem_append.mp hb with hb | hb
    · exact hold.trimmed b hb
    · obtain rfl := mem_singleton.mp hb
      obtain ⟨hmem,hid⟩ := task?_some hknown
      refine ⟨?_,?_⟩
      · change strip binding.taskId = binding.taskId
        rw [← hid]
        exact strip_of_matchesId (hw.taskIds task hmem)
      · change strip binding.planVersion = binding.planVersion
        rw [hversion]
        exact hw.version
  · have hfresh : binding.executionBindingId ∉ d.bindings.map (·.executionBindingId) := by
      intro hmem
      obtain ⟨b,hb,hid⟩ := mem_map.mp hmem
      have hno := List.find?_eq_none.mp hnew b hb
      exact hno (by simpa using hid)
    change ((supersedeGroup now binding.taskId binding.planVersion d.bindings ++
      [persisted d binding]).map (·.executionBindingId)).Nodup
    rw [map_append,nodup_append]
    refine ⟨hold.ids,nodup_singleton _,?_⟩
    intro x hx y hy
    obtain rfl := mem_singleton.mp hy
    rw [map_id_of_forall₂ hkept] at hx
    intro hxy
    rw [hxy] at hx
    exact hfresh hx

/-! ## Every change -/

theorem advance_conversation (hd : BindingInv d)
    {bound : ProjectExecutionBinding} (hstored : d.binding? raw.executionBindingId = some raw)
    (hsame : SameLaunch raw bound) :
    List.Forall₂ Advance d.bindings (d.bindings.map (fun b =>
      if b.executionBindingId == raw.executionBindingId then bound else b)) := by
  refine forall₂_map_right fun b hb => ?_
  split
  · rename_i h
    have hraw := (binding?_some hstored).1
    obtain rfl := eq_of_binding? hd hraw hb (by simpa using h)
    have hsound := hd.sound b hb
    have htrim := hd.trimmed b hb
    refine ⟨hsame.id,?_,?_,.inl ⟨?_,hsame.superseded⟩⟩
    · simp only [groupKey,hsame.task,hsame.version,htrim.1,htrim.2]
    · have hpos := hsound.generation
      rw [hsame.generation]
      omega
    · rw [hsame.status,hsame.stored hsound.legal]
  · exact Advance.refl b

theorem advance_settled (now : String) {task : ProjectTask} {attempt : AttemptDocument}
    {acceptance : TaskAcceptanceResult} {status : TaskStatus}
    (h : Settles plan d raw task attempt acceptance status) :
    List.Forall₂ Advance d.bindings
      (settled now raw.executionBindingId attempt acceptance task.taskId status d).bindings := by
  refine forall₂_updateFirst (fun a _ => Advance.refl a) ?_
  intro a ha
  obtain rfl : raw = a := some_unique h.stored ha
  refine ⟨rfl,rfl,rfl,.inr ⟨h.active,?_,?_⟩⟩
  · split <;> rfl
  · split <;> exact fun h => absurd h nofun

theorem Change.advance (h : Change plan l d e) (hd : BindingInv d) :
    List.Forall₂ Advance d.bindings e.bindings ∨
      ∃ now binding task, binding.planVersion = plan.planVersion ∧
        plan.task? binding.taskId = some task ∧ d.binding? binding.executionBindingId = none ∧
        e = launched now binding d := by
  have hrefl : List.Forall₂ Advance d.bindings d.bindings :=
    forall₂_same.mpr fun a _ => Advance.refl a
  cases h with
  | launch now binding task hversion hknown hnew hready =>
    exact .inr ⟨now,binding,task,hversion,hknown,hnew,rfl⟩
  | conversation raw bound hstored hsame => exact .inl (advance_conversation hd hstored hsame)
  | settle now raw task attempt acceptance status hs =>
    left
    change List.Forall₂ Advance d.bindings (advanced now plan task.taskId status _).bindings
    rw [advanced_bindings]
    exact advance_settled now hs
  | approve now taskId acceptance =>
    rw [approved_bindings]
    exact .inl hrefl
  | reopen now taskId =>
    rw [changesRequested_bindings]
    exact .inl hrefl
  | _ => exact .inl hrefl

theorem Change.bindingInv (h : Change plan l d e)
    (hw : plan.WellFormed) (hd : BindingInv d) : BindingInv e := by
  rcases h.advance hd with hadv | ⟨now,binding,task,hversion,hknown,hnew,rfl⟩
  · exact hd.of_forall₂ hadv
  · exact hd.launched hw hversion hknown hnew

def FinalKept (d e : ExecutionDocument) : Prop :=
  ∀ bindingId b, d.binding? bindingId = some b →
    ∃ c, e.binding? bindingId = some c ∧ (b.status.terminal = true → c.status = b.status)

theorem finalKept_refl (d : ExecutionDocument) : FinalKept d d := fun _ b hb => ⟨b,hb,fun _ => rfl⟩

theorem FinalKept.trans {f : ExecutionDocument} (hde : FinalKept d e) (hef : FinalKept e f) :
    FinalKept d f := by
  intro bindingId b hb
  obtain ⟨c,hc,hbc⟩ := hde bindingId b hb
  obtain ⟨c',hc',hcc⟩ := hef bindingId c hc
  refine ⟨c',hc',fun ht => ?_⟩
  rw [hcc (hbc ht ▸ ht),hbc ht]

theorem finalKept_of_forall₂ {kept new : List ProjectExecutionBinding}
    (he : e.bindings = kept ++ new) (h : List.Forall₂ Advance d.bindings kept) : FinalKept d e := by
  intro bindingId b hb
  have hsame : ∀ x y, Advance x y →
      (x.executionBindingId == bindingId) = (y.executionBindingId == bindingId) := by
    intro x y hxy
    rw [hxy.id]
  obtain ⟨c,hc,hbc⟩ := find?_of_forall₂ h hsame hb
  refine ⟨c,?_,hbc.terminal_status⟩
  simp only [ExecutionDocument.binding?,he,List.find?_append,hc,Option.some_or]

theorem Change.finalKept (h : Change plan l d e) (hd : BindingInv d) : FinalKept d e := by
  rcases h.advance hd with hadv | ⟨now,binding,task,-,-,-,rfl⟩
  · exact finalKept_of_forall₂ (append_nil _).symm hadv
  · exact finalKept_of_forall₂ rfl (supersedeGroup_advance now binding.taskId binding.planVersion _)

/-! ## Every run -/

theorem runCalls_bindingInv (calls : List Call) {m : Memory} (hm : BindingInv (documentOf m)) :
    BindingInv (documentOf (runCalls calls m)) :=
  runCalls_invariant (fun _ _ _ _ hw h => h.bindingInv hw) calls hm

/-- From an empty execution document, every run keeps the bindings in order: the
checker reports nothing, and a final status stays what it is. -/
theorem binding_lifecycle (rt : Runtime) (m : Memory) (hm : documentOf m = Execution.empty.filled)
    (calls later : List Call) :
    checkBindingLifecycleInvariants rt (documentOf (runCalls calls m)) = (true,[]) ∧
      (documentOf (runCalls calls m)).bindings.Pairwise Succeeds ∧
      (∀ b ∈ (documentOf (runCalls calls m)).bindings, Sound b) ∧
      FinalKept (documentOf (runCalls calls m)) (documentOf (runCalls (calls ++ later) m)) := by
  have hstart : BindingInv (documentOf m) := hm ▸ bindingInv_empty
  have hinv := runCalls_bindingInv calls hstart
  refine ⟨check_of_pairwise rt hinv.succeeds hinv.sound,hinv.succeeds,hinv.sound,?_⟩
  rw [runCalls_append]
  exact runCalls_related finalKept_refl (fun _ _ _ => FinalKept.trans)
    (fun _ _ _ _ hw h => h.bindingInv hw) (fun _ _ _ _ _ h => h.finalKept) later hinv

/-- Two launches of one task. -/
def retryCalls : List Call :=
  let site := sampleSite (samplePlan [sampleTask "t1" "m1" .pending []]) oneTask_wellFormed
  [⟨sampleAmbient,site,.persistBinding (sampleBinding "b1" "t1")⟩,
    ⟨sampleAmbient,site,.persistBinding (sampleBinding "b2" "t1")⟩]

theorem binding_lifecycle_retry :
    documentOf none = Execution.empty.filled ∧
      (documentOf (runCalls retryCalls none)).bindings.map (fun b => (b.status,b.generation)) =
        [(.superseded,1),(.active,2)] ∧
      checkBindingLifecycleInvariants sampleRuntime (documentOf (runCalls retryCalls none)) = (true,[]) :=
  ⟨rfl,by decide +kernel,(binding_lifecycle sampleRuntime none rfl retryCalls []).1⟩

end Bdb.Project
