import Bdb.Project.BindingInvariant

/-! # One result for each binding

A binding is settled by at most one attempt that is not stale, and its status says
which. Acceptance results are written exactly with those attempts.
-/
namespace Bdb.Project

open List

def ownAttempts (d : ExecutionDocument) (bindingId : String) : List AttemptDocument :=
  d.attempts.filter (fun a => !a.isStale && a.attempt.executionBindingId == bindingId)

def freshAttempts (d : ExecutionDocument) : List AttemptDocument := d.attempts.filter (fun a => !a.isStale)

def Fits : BindingStatus → List AttemptDocument → Prop
  | .active, own => own = []
  | .superseded, own => own = []
  | .accepted, own => ∃ a, own = [a] ∧ a.attempt.resultStatus = .pass
  | .failed, own => ∃ a, own = [a] ∧ a.attempt.resultStatus ≠ .pass
  | .other _, _ => False

structure AttemptInv (d : ExecutionDocument) : Prop where
  bindings : BindingInv d
  fits : ∀ b ∈ d.bindings, Fits b.status (ownAttempts d b.executionBindingId)
  bound : ∀ a ∈ freshAttempts d, ∃ b ∈ d.bindings, b.executionBindingId = a.attempt.executionBindingId
  counted : d.acceptanceResults.length = (freshAttempts d).length

theorem attemptInv_empty : AttemptInv Execution.empty.filled :=
  ⟨bindingInv_empty,fun _ h => absurd h not_mem_nil,fun _ h => absurd h not_mem_nil,rfl⟩

variable {d e : ExecutionDocument} {plan : ProjectPlan} {attempt : AttemptDocument} {status : BindingStatus}
    {own : List AttemptDocument}

theorem AttemptInv.congr (hd : AttemptInv d) (he : BindingInv e)
    (hattempts : e.attempts = d.attempts) (haccept : e.acceptanceResults = d.acceptanceResults)
    (hfits : ∀ b ∈ e.bindings, Fits b.status (ownAttempts d b.executionBindingId))
    (hids : ∀ b ∈ d.bindings, ∃ c ∈ e.bindings, c.executionBindingId = b.executionBindingId) :
    AttemptInv e := by
  refine ⟨he,?_,?_,?_⟩
  · intro b hb
    simpa only [ownAttempts,hattempts] using hfits b hb
  · intro a ha
    have ha' : a ∈ freshAttempts d := by simpa only [freshAttempts,hattempts] using ha
    obtain ⟨b,hb,hid⟩ := hd.bound a ha'
    obtain ⟨c,hc,hcb⟩ := hids b hb
    exact ⟨c,hc,hcb.trans hid⟩
  · simpa only [freshAttempts,hattempts,haccept] using hd.counted

variable {b raw : ProjectExecutionBinding} {bindingId now : String} {task : ProjectTask}
    {acceptance : TaskAcceptanceResult}

theorem AttemptInv.own_of_active (hd : AttemptInv d)
    (hb : b ∈ d.bindings) (hactive : b.isActive = true) :
    ownAttempts d b.executionBindingId = [] := by
  have hfits := hd.fits b hb
  simp only [ProjectExecutionBinding.isActive,Bool.and_eq_true,beq_iff_eq] at hactive
  rw [hactive.1] at hfits
  exact hfits

theorem AttemptInv.own_of_unknown (hd : AttemptInv d)
    (h : d.binding? bindingId = none) : ownAttempts d bindingId = [] := by
  rw [ownAttempts,filter_eq_nil_iff]
  intro a ha hown
  simp only [Bool.and_eq_true,beq_iff_eq] at hown
  obtain ⟨b,hb,hid⟩ := hd.bound a (mem_filter.mpr ⟨ha,hown.1⟩)
  have hno := List.find?_eq_none.mp h b hb
  exact hno (by simpa using hid.trans hown.2)

theorem AttemptInv.launched (hd : AttemptInv d)
    (hw : plan.WellFormed) {binding : ProjectExecutionBinding}
    (hversion : binding.planVersion = plan.planVersion) (hknown : plan.task? binding.taskId = some task)
    (hnew : d.binding? binding.executionBindingId = none) : AttemptInv (launched now binding d) := by
  have hkept := supersedeGroup_advance now binding.taskId binding.planVersion d.bindings
  refine hd.congr (hd.bindings.launched hw hversion hknown hnew) rfl rfl ?_ ?_
  · intro b hb
    rcases mem_append.mp hb with hb | hb
    · obtain ⟨a,ha,rfl⟩ := mem_map.mp hb
      split
      · rename_i h
        simp only [Bool.and_eq_true] at h
        have hown := hd.own_of_active ha h.2
        exact hown
      · exact hd.fits a ha
    · obtain rfl := mem_singleton.mp hb
      exact hd.own_of_unknown hnew
  · intro b hb
    have hmem : b.executionBindingId ∈ (supersedeGroup now binding.taskId binding.planVersion
        d.bindings).map (·.executionBindingId) := by
      rw [map_id_of_forall₂ hkept]
      exact mem_map_of_mem hb
    obtain ⟨c,hc,hid⟩ := mem_map.mp hmem
    exact ⟨c,mem_append_left _ hc,hid⟩

theorem AttemptInv.conversation (hd : AttemptInv d)
    {bound : ProjectExecutionBinding} (hstored : d.binding? raw.executionBindingId = some raw)
    (hsame : SameLaunch raw bound) :
    AttemptInv { d with bindings := d.bindings.map (fun b =>
      if b.executionBindingId == raw.executionBindingId then bound else b) } := by
  have hadv := advance_conversation hd.bindings hstored hsame
  obtain ⟨hraw,-⟩ := binding?_some hstored
  refine hd.congr (hd.bindings.of_forall₂ hadv) rfl rfl ?_ ?_
  · intro b hb
    obtain ⟨a,ha,rfl⟩ := mem_map.mp hb
    split
    · have hfits := hd.fits raw hraw
      rw [hsame.id,hsame.status]
      rw [hsame.stored (hd.bindings.sound raw hraw).legal] at hfits
      exact hfits
    · exact hd.fits a ha
  · intro b hb
    have hmem : b.executionBindingId ∈ (d.bindings.map (fun b =>
        if b.executionBindingId == raw.executionBindingId then bound else b)).map (·.executionBindingId) := by
      rw [map_id_of_forall₂ hadv]
      exact mem_map_of_mem hb
    obtain ⟨c,hc,hid⟩ := mem_map.mp hmem
    exact ⟨c,hc,hid⟩

/-! ## A new attempt -/

theorem ownAttempts_append (h : e.attempts = d.attempts ++ [attempt]) (bindingId : String) :
    ownAttempts e bindingId = ownAttempts d bindingId ++
      (if !attempt.isStale && attempt.attempt.executionBindingId == bindingId then [attempt] else []) := by
  simp only [ownAttempts,h,filter_append,filter_singleton,cond_eq_ite]

theorem freshAttempts_append (h : e.attempts = d.attempts ++ [attempt]) :
    freshAttempts e = freshAttempts d ++ (if !attempt.isStale then [attempt] else []) := by
  simp only [freshAttempts,h,filter_append,filter_singleton,cond_eq_ite]

theorem AttemptInv.stale (hd : AttemptInv d) (hlate : attempt.isStale = true) :
    AttemptInv { d with attempts := d.attempts ++ [attempt], staleResult := true } := by
  have hfresh : freshAttempts { d with attempts := d.attempts ++ [attempt], staleResult := true } =
      freshAttempts d := by
    rw [freshAttempts_append rfl]
    simp [hlate]
  refine ⟨⟨hd.bindings.succeeds,hd.bindings.sound,hd.bindings.trimmed,hd.bindings.ids⟩,?_,?_,?_⟩
  · intro b hb
    rw [ownAttempts_append rfl]
    simpa [hlate] using hd.fits b hb
  · rw [hfresh]
    exact hd.bound
  · rw [hfresh]
    exact hd.counted

theorem mem_settled_bindings (hd : BindingInv d) {taskId : String} {status : TaskStatus}
    (hb : b ∈ (settled now bindingId attempt acceptance taskId status d).bindings) :
    (b.executionBindingId = bindingId ∧
        b.status = if attempt.attempt.resultStatus = .pass then .accepted else .failed) ∨
      (b ∈ d.bindings ∧ b.executionBindingId ≠ bindingId) := by
  simp only [settled,updateFirst_eq_map hd.ids] at hb
  obtain ⟨a,ha,rfl⟩ := mem_map.mp hb
  by_cases hid : a.executionBindingId = bindingId
  · left
    simp [hid]
  · right
    simp [hid,ha]

theorem AttemptInv.settled (hd : AttemptInv d) (now : String)
    {status : TaskStatus}
    (h : Settles plan d raw task attempt acceptance status) :
    AttemptInv (settled now raw.executionBindingId attempt acceptance task.taskId status d) := by
  have hadv := advance_settled now h
  obtain ⟨hraw,-⟩ := binding?_some h.stored
  have hown : ownAttempts d raw.executionBindingId = [] := hd.own_of_active hraw h.active
  have hfresh : (!attempt.isStale) = true := by simp [h.fresh]
  refine ⟨hd.bindings.of_forall₂ hadv,?_,?_,?_⟩
  · intro b hb
    rw [ownAttempts_append rfl,h.binding]
    rcases mem_settled_bindings hd.bindings hb with ⟨hid,hstatus⟩ | ⟨hb,hne⟩
    · have hone : ownAttempts d b.executionBindingId = [] := by rw [hid,hown]
      rw [hstatus,hone,hid]
      simp only [hfresh,beq_self_eq_true,Bool.and_self,↓reduceIte,nil_append]
      split
      · rename_i hpass
        exact ⟨attempt,rfl,hpass⟩
      · rename_i hfail
        exact ⟨attempt,rfl,hfail⟩
    · have hno : (raw.executionBindingId == b.executionBindingId) = false := by
        simpa using fun heq => hne (Eq.symm heq)
      simpa [hno] using hd.fits b hb
  · intro a ha
    rw [freshAttempts_append rfl] at ha
    have hold : a.attempt.executionBindingId ∈ d.bindings.map (·.executionBindingId) := by
      rcases mem_append.mp ha with ha | ha
      · obtain ⟨b,hb,hid⟩ := hd.bound a ha
        exact mem_map.mpr ⟨b,hb,hid⟩
      · simp only [hfresh,↓reduceIte,mem_singleton] at ha
        subst ha
        exact mem_map.mpr ⟨raw,hraw,h.binding.symm⟩
    rw [← map_id_of_forall₂ hadv] at hold
    obtain ⟨c,hc,hid⟩ := mem_map.mp hold
    exact ⟨c,hc,hid⟩
  · rw [freshAttempts_append rfl]
    have hcount := hd.counted
    simp only [Project.settled,length_append,length_singleton,hfresh,↓reduceIte]
    omega

/-! ## Every change and every run -/

theorem AttemptInv.of_eq (hd : AttemptInv d) (hb : e.bindings = d.bindings)
    (ha : e.attempts = d.attempts) (hr : e.acceptanceResults = d.acceptanceResults) : AttemptInv e := by
  have hbind : BindingInv e := by
    refine ⟨?_,?_,?_,?_⟩
    · rw [hb]; exact hd.bindings.succeeds
    · rw [hb]; exact hd.bindings.sound
    · rw [hb]; exact hd.bindings.trimmed
    · rw [hb]; exact hd.bindings.ids
  refine hd.congr hbind ha hr ?_ ?_
  · rw [hb]
    exact hd.fits
  · rw [hb]
    exact fun b hb => ⟨b,hb,rfl⟩

theorem Change.attemptInv {l : Label} (h : Change plan l d e)
    (hw : plan.WellFormed) (hd : AttemptInv d) : AttemptInv e := by
  cases h with
  | launch now binding task hversion hknown hnew hready => exact hd.launched hw hversion hknown hnew
  | conversation raw bound hstored hsame => exact hd.conversation hstored hsame
  | stale attempt hlate => exact hd.stale hlate
  | settle now raw task attempt acceptance status hs =>
    exact (hd.settled now hs).of_eq (advanced_bindings _ _ _ _ _) (advanced_attempts _ _ _ _ _)
      (advanced_acceptanceResults _ _ _ _ _)
  | approve now taskId acceptance =>
    exact hd.of_eq (approved_bindings _ _ _ _) (approved_attempts _ _ _ _) (approved_acceptanceResults _ _ _ _)
  | reopen now taskId =>
    exact hd.of_eq (changesRequested_bindings _ _ _) (changesRequested_attempts _ _ _)
      (changesRequested_acceptanceResults _ _ _)
  | _ => exact hd.of_eq rfl rfl rfl

theorem Fits.length_le (h : Fits status own) : own.length ≤ 1 := by
  cases status with
  | active | superseded => simp [show own = [] from h]
  | accepted | failed =>
    obtain ⟨a,rfl,-⟩ := h
    simp
  | other s => exact h.elim

theorem Fits.accepted_iff (h : Fits status own) :
    status = .accepted ↔ ∃ a ∈ own, a.attempt.resultStatus = .pass := by
  cases status with
  | active | superseded => simp [show own = [] from h]
  | accepted | failed =>
    obtain ⟨a,rfl,ha⟩ := h
    simp [ha]
  | other s => exact h.elim

theorem Fits.failed_iff (h : Fits status own) :
    status = .failed ↔ ∃ a ∈ own, a.attempt.resultStatus ≠ .pass := by
  cases status with
  | active | superseded => simp [show own = [] from h]
  | accepted | failed =>
    obtain ⟨a,rfl,ha⟩ := h
    simp [ha]
  | other s => exact h.elim

theorem runCalls_attemptInv (calls : List Call) {m : Memory} (hm : documentOf m = Execution.empty.filled) :
    AttemptInv (documentOf (runCalls calls m)) :=
  runCalls_invariant (fun _ _ _ _ hw h => h.attemptInv hw) calls (hm ▸ attemptInv_empty)

/-- In every run each binding has at most one attempt that is not stale, its status
tells whether there is one and how it ended, and acceptance results are as many as
such attempts. -/
theorem one_result_per_binding (m : Memory) (hm : documentOf m = Execution.empty.filled)
    (calls : List Call) :
    (∀ b ∈ (documentOf (runCalls calls m)).bindings,
      (ownAttempts (documentOf (runCalls calls m)) b.executionBindingId).length ≤ 1 ∧
      (b.status = .accepted ↔ ∃ a ∈ ownAttempts (documentOf (runCalls calls m)) b.executionBindingId,
        a.attempt.resultStatus = .pass) ∧
      (b.status = .failed ↔ ∃ a ∈ ownAttempts (documentOf (runCalls calls m)) b.executionBindingId,
        a.attempt.resultStatus ≠ .pass) ∧
      (b.status = .active ∨ b.status = .superseded →
        ownAttempts (documentOf (runCalls calls m)) b.executionBindingId = [])) ∧
    (documentOf (runCalls calls m)).acceptanceResults.length =
      (freshAttempts (documentOf (runCalls calls m))).length := by
  have hinv := runCalls_attemptInv calls hm
  refine ⟨fun b hb => ?_,hinv.counted⟩
  have hfits := hinv.fits b hb
  refine ⟨hfits.length_le,hfits.accepted_iff,hfits.failed_iff,?_⟩
  rintro (hs | hs)
  all_goals
    rw [hs] at hfits
    exact hfits

def settledCalls : List Call :=
  let site := sampleSite (samplePlan [sampleTask "t1" "m1" .pending []]) oneTask_wellFormed
  [⟨sampleAmbient,site,.persistBinding (sampleBinding "b1" "t1")⟩,
    ⟨sampleAmbient,site,.recordResult "p1" (sampleResult "b1" "PASS")⟩]

theorem one_result_per_binding_settled :
    documentOf none = Execution.empty.filled ∧
      (documentOf (runCalls settledCalls none)).bindings.map (·.status) = [.accepted] ∧
      (documentOf (runCalls settledCalls none)).acceptanceResults.length =
        (freshAttempts (documentOf (runCalls settledCalls none))).length :=
  ⟨rfl,by decide +kernel,(one_result_per_binding none rfl settledCalls).2⟩

end Bdb.Project
