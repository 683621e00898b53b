import Bdb.Work.KernelPreserved

/-! # Dispositions, facts and claims over whole runs

What the tables of the work kernel say of an item agrees in every committed state, and a
finished item stays finished.
-/
namespace Bdb.Work

open WorkKernelStore Seconds

variable {T : Type} [Seconds T] {s t : WorkKernelStore T} {now : T} {call : WorkCall T} {row : WorkItem T}

/-! ## Finished items -/

theorem WorkChange.finished_kept (h : WorkChange s now call t) {workId : String} (hrow : s.workItems.get workId = some row)
    (hfinished : row.disposition = .finished) : t.workItems.get workId = some row := by
  have hne : ∀ {moved : WorkItem T} {d : WorkDisposition}, moved.disposition = d → d ≠ .finished → moved ≠ row := by
    rintro moved d hd hnot rfl
    exact hnot (hd.symm.trans hfinished)
  cases h with
  | created hid hnew hitem hitems =>
    rw [Table.get_insert hitems,if_neg]
    · exact hrow
    · intro hkey
      rw [← hkey,hitem.1,hnew] at hrow
      cases hrow
  | leased | renewed | taken | leaseReleased | claimReleased => exact hrow
  | claimed hid hwork hopen hl hnone hc hwritten hsame =>
    rw [hsame.1]
    exact hrow
  | started hid hmoves hready => exact hmoves.other_kept hrow (hne hready (by decide))
  | waited hmoves hrunning | adopted hmoves hrunning => exact hmoves.other_kept hrow (hne hrunning (by decide))
  | resolved hmoves hwaiting => exact hmoves.other_kept hrow (hne hwaiting (by decide))
  | finished hmoves hfrom =>
    rcases hfrom with hrunning | hready
    · exact hmoves.other_kept hrow (hne hrunning (by decide))
    · exact hmoves.other_kept hrow (hne hready (by decide))

theorem foldl_finished {workId : String} (hrow : s.workItems.get workId = some row) (hfinished : row.disposition = .finished)
    (more : List (WorkEvent T)) : (more.foldl next s).workItems.get workId = some row := by
  induction more generalizing s with
  | nil => exact hrow
  | cons e rest ih =>
    refine ih ?_
    rcases next_cases s e with hsame | hchange
    · rw [hsame]
      exact hrow
    · exact hchange.finished_kept hrow hfinished

/-! ## Counts -/

omit [Seconds T] in
theorem existsUnique_of_singleton {α : Type} {p : α → Prop} {l : List α} {a : α} (hmem : ∀ b, b ∈ l ↔ p b) (h : l = [a]) :
    ∃! b, p b := by
  refine ⟨a,(hmem a).mp (by rw [h]; exact List.mem_singleton_self a),fun b hb => ?_⟩
  have hb := (hmem b).mpr hb
  rw [h] at hb
  exact List.mem_singleton.mp hb

omit [Seconds T] in
theorem Fits.active (h : Fits row.disposition (s.activeRuns row.workId) (s.openWaits row.workId))
    (hbusy : row.disposition = .running ∨ row.disposition = .waiting) :
    ∃! r, r ∈ s.runs.rows ∧ r.workId = row.workId ∧ r.status = .active := by
  rcases hbusy with hd | hd <;> rw [hd] at h <;> obtain ⟨⟨r,hr⟩,-⟩ := h
  all_goals exact existsUnique_of_singleton (fun _ => mem_activeRuns) hr

omit [Seconds T] in
theorem Fits.waiting (h : Fits row.disposition (s.activeRuns row.workId) (s.openWaits row.workId)) :
    row.disposition = .waiting ↔ ∃! w, w ∈ s.waits.rows ∧ w.workId = row.workId ∧ w.status = .opened := by
  -- everywhere else no wait is open
  have hnone : s.openWaits row.workId = [] → ¬ ∃! w, w ∈ s.waits.rows ∧ w.workId = row.workId ∧ w.status = .opened := by
    rintro hempty ⟨w,hw,-⟩
    have hw := mem_openWaits.mpr hw
    rw [hempty] at hw
    cases hw
  cases hd : row.disposition with
  | waiting =>
    rw [hd] at h
    obtain ⟨-,w,hw⟩ := h
    exact ⟨fun _ => existsUnique_of_singleton (fun _ => mem_openWaits) hw,fun _ => rfl⟩
  | ready | running | finished =>
    rw [hd] at h
    exact iff_of_false (by decide) (hnone h.2)

/-! ## Every run -/

/-- After any calls, with any arguments, faults and clock readings, a running or waiting item has
exactly one active run, an item waits exactly when it has one open wait, a finished item has no
active run and stays finished, its facts are the unbroken chain of its versions, and a held claim
carries the current lease and fence of its item. -/
theorem kernel_tables_agree (events : List (WorkEvent T)) : ∃ s, kernelRun events = s ∧
    (∀ row ∈ s.workItems.rows,
      ((row.disposition = .running ∨ row.disposition = .waiting) →
        ∃! r, r ∈ s.runs.rows ∧ r.workId = row.workId ∧ r.status = .active) ∧
      (row.disposition = .waiting ↔ ∃! w, w ∈ s.waits.rows ∧ w.workId = row.workId ∧ w.status = .opened) ∧
      (row.disposition = .finished →
        (∀ r ∈ s.runs.rows, r.workId = row.workId → r.status ≠ .active) ∧
        ∀ more, ∃ row', (kernelRun (events ++ more)).workItems.get row.workId = some row' ∧
          row'.disposition = .finished) ∧
      Chained s row) ∧
    ∀ c ∈ s.resourceClaims.rows, c.state = .held → Backed s c := by
  have hs := run_invariant events
  refine ⟨kernelRun events,rfl,fun row hrow => ⟨(hs.fits row hrow).active,(hs.fits row hrow).waiting,?_,hs.chained row hrow⟩,
    hs.claimLeases⟩
  intro hfinished
  constructor
  · intro r hr hwork hactive
    have hfits := hs.fits row hrow
    rw [hfinished] at hfits
    have hmem := mem_activeRuns.mpr ⟨hr,hwork,hactive⟩
    rw [hfits.1] at hmem
    cases hmem
  · intro more
    refine ⟨row,?_,hfinished⟩
    unfold kernelRun
    rw [List.foldl_append]
    exact foldl_finished (Table.get_of_mem hrow) hfinished more

end Bdb.Work
