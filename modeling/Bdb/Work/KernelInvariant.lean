import Bdb.Base.Runs
import Bdb.Work.KernelSteps

/-! # The invariant of the work kernel

The tables agree with each other whatever calls were made, at whatever times: the
disposition of an item says how many active runs and open waits it has, its facts are the
chain of its versions, and what it holds is held under its current lease.
-/
namespace Bdb.Work

open WorkKernelStore Seconds List Table

variable {T : Type}

namespace WorkKernelStore

def activeRuns (s : WorkKernelStore T) (workId : String) : List RunRecord :=
  s.runs.rows.filter fun r => r.workId == workId && r.status == .active

def openWaits (s : WorkKernelStore T) (workId : String) : List WaitRecord :=
  s.waits.rows.filter fun w => w.workId == workId && w.status == .opened

def heldClaims (s : WorkKernelStore T) (workId : String) : List ResourceClaim :=
  s.resourceClaims.rows.filter fun c => c.workId == workId && c.state == .held

end WorkKernelStore

def Fits : WorkDisposition → List RunRecord → List WaitRecord → Prop
  | .ready, active, waits => active.length ≤ 1 ∧ waits = []
  | .running, active, waits => (∃ r, active = [r]) ∧ waits = []
  | .waiting, active, waits => (∃ r, active = [r]) ∧ ∃ w, waits = [w]
  | .finished, active, waits => active = [] ∧ waits = []

/-- The facts of an item are one for each of its versions, each from where the one before
ended, and the last to its present disposition. -/
structure Chained (s : WorkKernelStore T) (row : WorkItem T) : Prop where
  versions : ∀ n, (s.transitionFacts.get (row.workId,n)).isSome = true ↔ n ≤ row.stateVersion
  first : ∀ f, s.transitionFacts.get (row.workId,0) = some f → f.fromDisposition = none
  linked : ∀ n f g, s.transitionFacts.get (row.workId,n) = some f → s.transitionFacts.get (row.workId,n + 1) = some g →
    g.fromDisposition = f.toDisposition
  last : ∀ f, s.transitionFacts.get (row.workId,row.stateVersion) = some f → f.toDisposition = some row.disposition

def Backed (s : WorkKernelStore T) (c : ResourceClaim) : Prop :=
  ∃ l, s.leases.get c.workId = some l ∧ c.leaseId = l.leaseId ∧ c.fence = l.fence

def HoldsOne (s : WorkKernelStore T) : Prop :=
  ∀ c ∈ s.resourceClaims.rows, ∀ d ∈ s.resourceClaims.rows, c.state = .held → d.state = .held → c.workId = d.workId → c = d

/-- What every committed state satisfies. -/
structure KernelInvariant (s : WorkKernelStore T) : Prop where
  workIds : ∀ row ∈ s.workItems.rows, idText row.workId = true
  runIds : ∀ r ∈ s.runs.rows, idText r.runId = true
  claimKeys : ∀ c ∈ s.resourceClaims.rows, idText c.resourceKey = true
  runWorks : ∀ r ∈ s.runs.rows, ∃ row, s.workItems.get r.workId = some row
  waitWorks : ∀ w ∈ s.waits.rows, ∃ row, s.workItems.get w.workId = some row
  factWorks : ∀ f ∈ s.transitionFacts.rows, ∃ row, s.workItems.get f.workId = some row
  fits : ∀ row ∈ s.workItems.rows, Fits row.disposition (s.activeRuns row.workId) (s.openWaits row.workId)
  chained : ∀ row ∈ s.workItems.rows, Chained s row
  runLeases : ∀ r ∈ s.runs.rows, ∃ l, s.leases.get r.workId = some l ∧ r.fence ≤ l.fence
  claimLeases : ∀ c ∈ s.resourceClaims.rows, c.state = .held → Backed s c
  oneClaim : HoldsOne s

theorem empty_invariant : KernelInvariant (.empty : WorkKernelStore T) := by
  constructor <;> intro _ h <;> cases h

variable {s t : WorkKernelStore T} {row : WorkItem T} {target : WorkDisposition} {workId : String}

/-! ## Moves -/

section Moves

section

variable (h : Moves s t row target)

include h

theorem Moves.item_cases {row' : WorkItem T} (hrow : t.workItems.get workId = some row') :
    workId = row.workId ∧ row'.workId = row.workId ∧ row'.disposition = target ∧
        row'.stateVersion = row.stateVersion + 1 ∨
      workId ≠ row.workId ∧ s.workItems.get workId = some row' := by
  obtain ⟨item,hid,hdisposition,hversion,hput⟩ := h.item
  rw [hput,get_put (by rw [hid]; exact h.found)] at hrow
  split at hrow
  · rename_i hkey
    cases hrow
    exact .inl ⟨hkey.symm.trans hid,hid,hdisposition,hversion⟩
  · rename_i hkey
    exact .inr ⟨fun heq => hkey (hid.trans heq.symm),hrow⟩

theorem Moves.other_kept {other : WorkItem T} (hother : s.workItems.get workId = some other)
    (hne : row ≠ other) : t.workItems.get workId = some other := by
  obtain ⟨item,hid,-,-,hput⟩ := h.item
  rw [hput,get_put (by rw [hid]; exact h.found),if_neg]
  · exact hother
  · intro hkey
    rw [← hkey,hid,h.found] at hother
    exact hne (Option.some.inj hother)

theorem Moves.item_kept {row' : WorkItem T} (hrow : s.workItems.get workId = some row') :
    ∃ row'', t.workItems.get workId = some row'' := by
  obtain ⟨item,hid,-,-,hput⟩ := h.item
  rw [hput,get_put (by rw [hid]; exact h.found)]
  split
  · exact ⟨item,rfl⟩
  · exact ⟨row',hrow⟩

theorem Moves.fact_of (n : ℕ) (hother : workId ≠ row.workId ∨ n ≠ row.stateVersion + 1) :
    t.transitionFacts.get (workId,n) = s.transitionFacts.get (workId,n) := by
  obtain ⟨f,hid,hversion,-,-,hinsert⟩ := h.fact
  rw [get_insert hinsert,if_neg]
  rintro heq
  obtain ⟨rfl,rfl⟩ := Prod.ext_iff.mp heq
  rcases hother with hother | hother
  · exact hother hid
  · exact hother hversion

theorem Moves.new_fact : ∃ f, t.transitionFacts.get (row.workId,row.stateVersion + 1) = some f ∧
    f.fromDisposition = some row.disposition ∧ f.toDisposition = some target := by
  obtain ⟨f,hid,hversion,horigin,htarget,hinsert⟩ := h.fact
  refine ⟨f,?_,horigin,htarget⟩
  rw [get_insert hinsert,if_pos (by rw [hid,hversion])]

theorem Moves.chained (hs : ∀ row ∈ s.workItems.rows, Chained s row) :
    ∀ row ∈ t.workItems.rows, Chained t row := by
  intro row' hmem
  rcases h.item_cases (get_of_mem hmem) with ⟨-,hid,hdisposition,hversion⟩ | ⟨hother,hrow'⟩
  · have hold := hs row (mem_of_find h.found)
    obtain ⟨f,hf,horigin,htarget⟩ := h.new_fact
    have hkept : ∀ n, n ≠ row.stateVersion + 1 →
        t.transitionFacts.get (row.workId,n) = s.transitionFacts.get (row.workId,n) :=
      fun n hn => h.fact_of n (.inr hn)
    refine ⟨fun n => ?_,fun g hg => ?_,fun n g g' hg hg' => ?_,fun g hg => ?_⟩
    · rw [hid,hversion]
      by_cases hn : n = row.stateVersion + 1
      · subst hn
        simp [hf]
      · rw [hkept n hn,hold.versions n]
        omega
    · rw [hid,hkept 0 (by omega)] at hg
      exact hold.first g hg
    · rw [hid] at hg hg'
      by_cases hn : n = row.stateVersion
      · subst hn
        rw [hf] at hg'
        cases hg'
        rw [hkept _ (by omega)] at hg
        rw [horigin,hold.last g hg]
      · by_cases hn' : n = row.stateVersion + 1
        · rw [hkept (n + 1) (by omega)] at hg'
          have hle := (hold.versions (n + 1)).mp (by rw [hg']; rfl)
          omega
        · rw [hkept n hn'] at hg
          rw [hkept (n + 1) (by omega)] at hg'
          exact hold.linked n g g' hg hg'
    · rw [hid,hversion,hf] at hg
      cases hg
      rw [htarget,hdisposition]
  · have hold := hs row' (mem_of_find hrow')
    have hkept : ∀ n, t.transitionFacts.get (row'.workId,n) = s.transitionFacts.get (row'.workId,n) :=
      fun n => h.fact_of n (.inl hother)
    refine ⟨fun n => ?_,fun g hg => ?_,fun n g g' hg hg' => ?_,fun g hg => ?_⟩
    · rw [hkept]
      exact hold.versions n
    · rw [hkept] at hg
      exact hold.first g hg
    · rw [hkept] at hg hg'
      exact hold.linked n g g' hg hg'
    · rw [hkept] at hg
      exact hold.last g hg

theorem Moves.fact_works (hs : ∀ f ∈ s.transitionFacts.rows, ∃ row, s.workItems.get f.workId = some row) :
    ∀ f ∈ t.transitionFacts.rows, ∃ row, t.workItems.get f.workId = some row := by
  intro f hf
  obtain ⟨g,hid,-,-,-,hinsert⟩ := h.fact
  rcases (mem_insert hinsert).mp hf with hf | rfl
  · obtain ⟨row',hrow'⟩ := hs f hf
    exact h.item_kept hrow'
  · rw [hid]
    exact h.item_kept h.found

theorem Moves.work_ids (hs : ∀ row ∈ s.workItems.rows, idText row.workId = true) :
    ∀ row ∈ t.workItems.rows, idText row.workId = true := by
  intro row' hmem
  rcases h.item_cases (get_of_mem hmem) with ⟨-,hid,-,-⟩ | ⟨-,hrow'⟩
  · rw [hid]
    exact hs row (mem_of_find h.found)
  · exact hs row' (mem_of_find hrow')

theorem Moves.fits
    (hs : ∀ row ∈ s.workItems.rows, Fits row.disposition (s.activeRuns row.workId) (s.openWaits row.workId))
    (hruns : ∀ w, w ≠ row.workId → t.activeRuns w = s.activeRuns w)
    (hwaits : ∀ w, w ≠ row.workId → t.openWaits w = s.openWaits w)
    (hrow : Fits target (t.activeRuns row.workId) (t.openWaits row.workId)) :
    ∀ row ∈ t.workItems.rows, Fits row.disposition (t.activeRuns row.workId) (t.openWaits row.workId) := by
  intro row' hmem
  rcases h.item_cases (get_of_mem hmem) with ⟨-,hid,hdisposition,-⟩ | ⟨hother,hrow'⟩
  · rw [hid,hdisposition]
    exact hrow
  · rw [hruns _ hother,hwaits _ hother]
    exact hs row' (mem_of_find hrow')

end

end Moves

/-! ## Active runs and open waits -/

theorem activeRun_eq_none : s.activeRun workId = none ↔ s.activeRuns workId = [] := by
  unfold activeRun activeRuns
  rw [find_eq_none,filter_eq_nil_iff]
  simp

theorem mem_activeRuns {r : RunRecord} : r ∈ s.activeRuns workId ↔ r ∈ s.runs.rows ∧ r.workId = workId ∧ r.status = .active := by
  unfold activeRuns
  rw [mem_filter]
  simp

theorem mem_openWaits {w : WaitRecord} : w ∈ s.openWaits workId ↔ w ∈ s.waits.rows ∧ w.workId = workId ∧ w.status = .opened := by
  unfold openWaits
  rw [mem_filter]
  simp

theorem activeRuns_insert {r : RunRecord} (h : s.runs.insert r = some t.runs) (w : String) :
    t.activeRuns w = s.activeRuns w ++ if r.workId = w ∧ r.status = .active then [r] else [] := by
  unfold activeRuns
  rw [filter_insert h]
  simp

theorem openWaits_insert {w : WaitRecord} (h : s.waits.insert w = some t.waits) (id : String) :
    t.openWaits id = s.openWaits id ++ if w.workId = id ∧ w.status = .opened then [w] else [] := by
  unfold openWaits
  rw [filter_insert h]
  simp

section Put

variable {r r' : RunRecord} {w w' : WaitRecord}

theorem activeRuns_put_other (h : t.runs = s.runs.put r') (hr : r ∈ s.runs.rows) (hid : r.runId = r'.runId)
    (hw : r.workId ≠ workId) (hw' : r'.workId ≠ workId) : t.activeRuns workId = s.activeRuns workId := by
  unfold activeRuns
  rw [h]
  exact filter_put_other hr hid (by simp [hw']) (by simp [hw])

theorem activeRuns_put (h : t.runs = s.runs.put r') (hid : r.runId = r'.runId) (hr : s.activeRuns workId = [r]) :
    t.activeRuns workId = if r'.workId = workId ∧ r'.status = .active then [r'] else [] := by
  unfold activeRuns at hr ⊢
  rw [h,filter_put_self hr hid]
  simp

theorem openWaits_put_other (h : t.waits = s.waits.put w') (hw : w ∈ s.waits.rows) (hid : w.waitId = w'.waitId)
    (hne : w.workId ≠ workId) (hne' : w'.workId ≠ workId) : t.openWaits workId = s.openWaits workId := by
  unfold openWaits
  rw [h]
  exact filter_put_other hw hid (by simp [hne']) (by simp [hne])

theorem openWaits_put (h : t.waits = s.waits.put w') (hid : w.waitId = w'.waitId) (hw : s.openWaits workId = [w]) :
    t.openWaits workId = if w'.workId = workId ∧ w'.status = .opened then [w'] else [] := by
  unfold openWaits at hw ⊢
  rw [h,filter_put_self hw hid]
  simp

end Put

theorem Fits.one_active {d : WorkDisposition} {active : List RunRecord} {waits : List WaitRecord} (h : Fits d active waits) :
    active.length ≤ 1 := by
  cases d with
  | ready => exact h.1
  | running | waiting =>
    obtain ⟨⟨r,hr⟩,-⟩ := h
    exact (congrArg List.length hr).le
  | finished => exact (congrArg List.length h.1).le.trans (Nat.zero_le 1)

theorem KernelInvariant.one_active (hs : KernelInvariant s) (hrow : s.workItems.get workId = some row) {r r' : RunRecord}
    (hr : r ∈ s.activeRuns workId) (hr' : r' ∈ s.activeRuns workId) : r = r' := by
  obtain rfl := key_of_get hrow
  have hlength := (hs.fits row (mem_of_find hrow)).one_active
  obtain ⟨a,ha⟩ := length_eq_one_iff.mp (le_antisymm hlength (length_pos_of_mem hr))
  rw [ha] at hr hr'
  rw [mem_singleton.mp hr,mem_singleton.mp hr']

end Bdb.Work
