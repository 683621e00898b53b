import Bdb.Work.KernelInvariant

/-! # Every call keeps the invariant of the work kernel

One lemma for each part of the invariant, over the changes a call can make. The run lemma
and the results on whole runs follow.
-/
namespace Bdb.Work

open WorkKernelStore Seconds List Table

variable {T : Type} {s t : WorkKernelStore T} {workId : String}

/-! ## One change -/

section Changes

variable [Seconds T] {now : T} {call : WorkCall T}

theorem WorkChange.works_kept (h : WorkChange s now call t) {row : WorkItem T} (hrow : s.workItems.get workId = some row) :
    ∃ row', t.workItems.get workId = some row' := by
  cases h with
  | created hid hnew hitem hitems =>
    rw [get_insert hitems]
    split
    · exact ⟨_,rfl⟩
    · exact ⟨row,hrow⟩
  | leased | renewed | taken | leaseReleased | claimReleased => exact ⟨row,hrow⟩
  | claimed hid hwork hopen hl hnone hc hwritten hsame =>
    rw [hsame.1]
    exact ⟨row,hrow⟩
  | started hid hmoves | waited hmoves | adopted hmoves | resolved hmoves | finished hmoves => exact hmoves.item_kept hrow

theorem WorkChange.workIds (h : WorkChange s now call t) (hs : ∀ row ∈ s.workItems.rows, idText row.workId = true) :
    ∀ row ∈ t.workItems.rows, idText row.workId = true := by
  cases h with
  | created hid hnew hitem hitems =>
    intro row hrow
    rcases (mem_insert hitems).mp hrow with hrow | rfl
    · exact hs row hrow
    · rw [hitem.1]
      exact hid
  | leased | renewed | taken | leaseReleased | claimReleased => exact hs
  | claimed hid hwork hopen hl hnone hc hwritten hsame =>
    rw [hsame.1]
    exact hs
  | started hid hmoves | waited hmoves | adopted hmoves | resolved hmoves | finished hmoves => exact hmoves.work_ids hs

theorem WorkChange.runs_all (h : WorkChange s now call t) {P Q : RunRecord → Prop} (hs : ∀ r ∈ s.runs.rows, P r)
    (hkept : ∀ r, P r → Q r)
    (hstarted : ∀ r l, idText r.runId = true → s.leases.get r.workId = some l → t.leases.get r.workId = some l →
      r.fence = l.fence → (∃ row, s.workItems.get r.workId = some row) → Q r)
    (hadopted : ∀ r l leaseId, P r → t.leases.get r.workId = some l → Q { r with leaseId := leaseId, fence := l.fence })
    (hfinished : ∀ r r', P r → r'.runId = r.runId → r'.workId = r.workId → r'.fence = r.fence → Q r') :
    ∀ r ∈ t.runs.rows, Q r := by
  have hall : ∀ r ∈ s.runs.rows, Q r := fun r hr => hkept r (hs r hr)
  cases h with
  | created hid hnew hitem hitems hfact hfacts hruns =>
    rw [hruns]
    exact hall
  | leased | renewed | taken | leaseReleased | claimReleased => exact hall
  | claimed hid hwork hopen hl hnone hc hwritten hsame =>
    rw [hsame.2.1]
    exact hall
  | started hid hmoves hready hl hnone hr hruns =>
    intro r hmem
    rcases (mem_insert hruns).mp hmem with hmem | rfl
    · exact hall r hmem
    · obtain ⟨rfl,hwork,-,-,hfence⟩ := hr
      refine hstarted r _ hid ?_ ?_ hfence ?_
      · rw [hwork]
        exact hl.row
      · rw [hwork,hmoves.leases]
        exact hl.row
      · rw [hwork]
        exact ⟨_,hmoves.found⟩
  | waited hmoves hrunning hl hw hnone hruns =>
    rw [hruns]
    exact hall
  | adopted hmoves hrunning hl hrow hr hruns =>
    intro r hmem
    rw [hruns] at hmem
    rcases (mem_put (mem_of_find hrow) (by rfl)).mp hmem with rfl | ⟨hmem,-⟩
    · refine hadopted _ _ _ (hs _ (mem_of_find hrow)) ?_
      rw [hmoves.leases,hr.1]
      exact hl.row
    · exact hall r hmem
  | resolved hmoves hwaiting hl hrow hw hw' hruns =>
    rw [hruns]
    exact hall
  | finished hmoves hfrom hl hrow hr hr' hruns =>
    intro r hmem
    rw [hruns] at hmem
    rcases (mem_put (mem_of_find hrow) hr'.1.symm).mp hmem with rfl | ⟨hmem,-⟩
    · exact hfinished _ _ (hs _ (mem_of_find hrow)) hr'.1 (hr'.2.1.trans hr.1.symm) hr'.2.2.2
    · exact hall r hmem

/-- The lease of an item has kept its holder and fence, and is live no longer than it was. -/
def SameLease (now : T) (l l' : LeaseRecord T) : Prop :=
  l'.leaseId = l.leaseId ∧ l'.ownerId = l.ownerId ∧ l'.fence = l.fence ∧ ∀ early ≤ now, Live l' early → Live l early

theorem SameLease.refl (l : LeaseRecord T) : SameLease now l l := ⟨rfl,rfl,rfl,fun _ _ h => h⟩

theorem lease_put {w : String} {l old new : LeaseRecord T} (hl : s.leases.get workId = some l)
    (hold : s.leases.get w = some old) (hid : new.workId = old.workId)
    (hsame : SameLease now old new) : ∃ l', (s.leases.put new).get workId = some l' ∧ SameLease now l l' := by
  obtain rfl := key_of_get hold
  rw [get_put (by rw [hid]; exact hold)]
  split
  · rename_i hkey
    rw [← hkey,hid,hold] at hl
    cases hl
    exact ⟨new,rfl,hsame⟩
  · exact ⟨l,hl,.refl l⟩

section

variable (h : WorkChange s now call t)

include h

theorem WorkChange.lease_cases {l : LeaseRecord T} (hl : s.leases.get workId = some l) :
    (∃ l', t.leases.get workId = some l' ∧ SameLease now l l') ∨
      ∃ leaseId ownerId ttl, call = .acquireLease workId leaseId ownerId ttl ∧
        t.leases.get workId = some (takeOver l leaseId ownerId ttl now) ∧ zero < ttl ∧ ttl ≤ day := by
  cases h with
  | created hid hnew hitem hitems hfact hfacts hruns hwaits hleases =>
    rw [hleases]
    exact .inl ⟨l,hl,.refl l⟩
  | leased hwork httl hnone hnew hinsert =>
    obtain rfl := hnew
    rw [get_insert hinsert]
    split
    · rename_i hkey
      rw [← hkey,hnone] at hl
      cases hl
    · exact .inl ⟨l,hl,.refl l⟩
  | renewed hrow hlease howner hactive hlive =>
    exact .inl (lease_put hl hrow rfl ⟨rfl,rfl,rfl,fun early hle _ => ⟨hactive,hle.trans_lt hlive⟩⟩)
  | @taken workId' leaseId ownerId ttl old httl hrow hover =>
    obtain rfl := key_of_get hrow
    by_cases hkey : old.workId = workId
    · subst hkey
      rw [hl] at hrow
      cases hrow
      refine .inr ⟨leaseId,ownerId,ttl,rfl,?_,httl⟩
      exact (get_put (a := takeOver l leaseId ownerId ttl now) hl _).trans (if_pos rfl)
    · refine .inl ⟨l,?_,.refl l⟩
      exact (get_put (a := takeOver old leaseId ownerId ttl now) hrow _).trans ((if_neg hkey).trans hl)
  | leaseReleased hheld =>
    refine .inl (lease_put hl hheld.row rfl ⟨rfl,rfl,rfl,fun early _ hlive => ?_⟩)
    cases hlive.1
  | claimReleased => exact .inl ⟨l,hl,.refl l⟩
  | claimed hid hwork hopen hheld hnone hc hwritten hsame =>
    rw [hsame.2.2.2.1]
    exact .inl ⟨l,hl,.refl l⟩
  | started hid hmoves | waited hmoves | adopted hmoves | resolved hmoves | finished hmoves =>
    rw [hmoves.leases]
    exact .inl ⟨l,hl,.refl l⟩

theorem WorkChange.lease_new {l' : LeaseRecord T} (hnone : s.leases.get workId = none)
    (hl' : t.leases.get workId = some l') : ∃ ttl, zero < ttl ∧ ttl ≤ day ∧ l'.expiresAt = plus now ttl := by
  have hput : ∀ {w : String} {old new : LeaseRecord T}, s.leases.get w = some old → new.workId = old.workId →
      (s.leases.put new).get workId = none := by
    intro w old new hold hid
    obtain rfl := key_of_get hold
    rw [get_put (by rw [hid]; exact hold),if_neg]
    · exact hnone
    · intro hkey
      rw [← hkey,hid,hold] at hnone
      cases hnone
  have hsame : t.leases = s.leases → ∃ ttl, zero < ttl ∧ ttl ≤ day ∧ l'.expiresAt = plus now ttl := by
    intro hleases
    rw [hleases,hnone] at hl'
    cases hl'
  cases h with
  | created hid hnew hitem hitems hfact hfacts hruns hwaits hleases => exact hsame hleases
  | @leased _ _ _ ttl _ _ _ hwork httl hfree hnew hinsert =>
    obtain rfl := hnew
    have hl' := (get_insert hinsert workId).symm.trans hl'
    split at hl'
    · cases hl'
      exact ⟨ttl,httl.1,httl.2,rfl⟩
    · rw [hnone] at hl'
      cases hl'
  | renewed hrow | taken httl hrow =>
    have hl' := (hput hrow (by rfl)).symm.trans hl'
    cases hl'
  | leaseReleased hheld =>
    have hl' := (hput hheld.row (by rfl)).symm.trans hl'
    cases hl'
  | claimReleased => exact hsame rfl
  | claimed hid hwork hopen hl hfree hc hwritten hframe => exact hsame hframe.2.2.2.1
  | started hid hmoves | waited hmoves | adopted hmoves | resolved hmoves | finished hmoves => exact hsame hmoves.leases

theorem WorkChange.lease_grows {l : LeaseRecord T} (hl : s.leases.get workId = some l) :
    ∃ l', t.leases.get workId = some l' ∧ l.fence ≤ l'.fence := by
  rcases h.lease_cases hl with ⟨l',hl',-,-,hfence,-⟩ | ⟨leaseId,ownerId,ttl,-,hl',-⟩
  · exact ⟨l',hl',hfence.ge⟩
  · exact ⟨_,hl',Nat.le_succ l.fence⟩

theorem WorkChange.runIds (hs : ∀ r ∈ s.runs.rows, idText r.runId = true) :
    ∀ r ∈ t.runs.rows, idText r.runId = true := by
  refine h.runs_all hs (fun _ hr => hr) (fun _ _ hid _ _ _ _ => hid) (fun _ _ _ hr _ => hr) ?_
  intro r r' hr hid _ _
  rw [hid]
  exact hr

theorem WorkChange.runWorks (hs : ∀ r ∈ s.runs.rows, ∃ row, s.workItems.get r.workId = some row) :
    ∀ r ∈ t.runs.rows, ∃ row, t.workItems.get r.workId = some row := by
  have hkept : ∀ w, (∃ row, s.workItems.get w = some row) → ∃ row, t.workItems.get w = some row :=
    fun w ⟨row,hrow⟩ => h.works_kept hrow
  refine h.runs_all hs (fun r => hkept r.workId) (fun r _ _ _ _ _ => hkept r.workId) (fun r _ _ hr _ => hkept r.workId hr) ?_
  intro r r' hr _ hwork _
  rw [hwork]
  exact hkept r.workId hr

theorem WorkChange.runLeases
    (hs : ∀ r ∈ s.runs.rows, ∃ l, s.leases.get r.workId = some l ∧ r.fence ≤ l.fence) :
    ∀ r ∈ t.runs.rows, ∃ l, t.leases.get r.workId = some l ∧ r.fence ≤ l.fence := by
  have hkept : ∀ r : RunRecord, (∃ l, s.leases.get r.workId = some l ∧ r.fence ≤ l.fence) →
      ∃ l, t.leases.get r.workId = some l ∧ r.fence ≤ l.fence := by
    rintro r ⟨l,hl,hle⟩
    obtain ⟨l',hl',hfence⟩ := h.lease_grows hl
    exact ⟨l',hl',hle.trans hfence⟩
  refine h.runs_all hs hkept (fun r l _ _ hl hfence _ => ⟨l,hl,hfence.le⟩) (fun r l _ _ hl => ⟨l,hl,le_rfl⟩) ?_
  intro r r' hr _ hwork hfence
  rw [hwork,hfence]
  exact hkept r hr

theorem WorkChange.waitWorks (hs : ∀ w ∈ s.waits.rows, ∃ row, s.workItems.get w.workId = some row) :
    ∀ w ∈ t.waits.rows, ∃ row, t.workItems.get w.workId = some row := by
  have hall : ∀ w ∈ s.waits.rows, ∃ row, t.workItems.get w.workId = some row := by
    intro w hw
    obtain ⟨row,hrow⟩ := hs w hw
    exact h.works_kept hrow
  cases h with
  | created hid hnew hitem hitems hfact hfacts hruns hwaits =>
    rw [hwaits]
    exact hall
  | leased | renewed | taken | leaseReleased | claimReleased => exact hall
  | claimed hid hwork hopen hl hnone hc hwritten hsame =>
    rw [hsame.2.2.1]
    exact hall
  | started hid hmoves hready hl hnone hr hruns hwaits =>
    rw [hwaits]
    exact hall
  | waited hmoves hrunning hl hw hnone hruns hwaits =>
    intro w hmem
    rcases (mem_insert hwaits).mp hmem with hmem | rfl
    · exact hall w hmem
    · rw [hw.1]
      exact hmoves.item_kept hmoves.found
  | adopted hmoves hrunning hl hrow hr hruns hwaits =>
    rw [hwaits]
    exact hall
  | resolved hmoves hwaiting hl hrow hw hw' hruns hwaits =>
    intro w hmem
    rw [hwaits] at hmem
    rcases (mem_put (mem_of_find hrow) hw'.1.symm).mp hmem with rfl | ⟨hmem,-⟩
    · rw [hw'.2.1]
      exact hmoves.item_kept hmoves.found
    · exact hall w hmem
  | finished hmoves hfrom hl hrow hr hr' hruns hwaits =>
    rw [hwaits]
    exact hall

theorem WorkChange.factWorks
    (hs : ∀ f ∈ s.transitionFacts.rows, ∃ row, s.workItems.get f.workId = some row) :
    ∀ f ∈ t.transitionFacts.rows, ∃ row, t.workItems.get f.workId = some row := by
  cases h with
  | created hid hnew hitem hitems hfact hfacts =>
    intro f hf
    rw [get_insert hitems]
    rcases (mem_insert hfacts).mp hf with hf | rfl
    · split
      · exact ⟨_,rfl⟩
      · exact hs f hf
    · rw [if_pos (hitem.1.trans hfact.1.symm)]
      exact ⟨_,rfl⟩
  | leased | renewed | taken | leaseReleased | claimReleased => exact hs
  | claimed hid hwork hopen hl hnone hc hwritten hsame =>
    rw [hsame.1,hsame.2.2.2.2]
    exact hs
  | started hid hmoves | waited hmoves | adopted hmoves | resolved hmoves | finished hmoves => exact hmoves.fact_works hs

theorem WorkChange.fits (hs : KernelInvariant s) :
    ∀ row ∈ t.workItems.rows, Fits row.disposition (t.activeRuns row.workId) (t.openWaits row.workId) := by
  cases h with
  | created hid hnew hitem hitems hfact hfacts hruns hwaits =>
    intro row hrow
    unfold activeRuns openWaits
    rw [hruns,hwaits]
    rcases (mem_insert hitems).mp hrow with hrow | rfl
    · exact hs.fits row hrow
    · -- nothing has run or waited under an id that was not there
      have hactive : s.activeRuns row.workId = [] := by
        refine eq_nil_iff_forall_not_mem.mpr fun r hr => ?_
        obtain ⟨hr,hwork,-⟩ := mem_activeRuns.mp hr
        obtain ⟨row',hrow'⟩ := hs.runWorks r hr
        rw [hwork,hitem.1,hnew] at hrow'
        cases hrow'
      have hopen : s.openWaits row.workId = [] := by
        refine eq_nil_iff_forall_not_mem.mpr fun w hw => ?_
        obtain ⟨hw,hwork,-⟩ := mem_openWaits.mp hw
        obtain ⟨row',hrow'⟩ := hs.waitWorks w hw
        rw [hwork,hitem.1,hnew] at hrow'
        cases hrow'
      change Fits row.disposition (s.activeRuns row.workId) (s.openWaits row.workId)
      rw [hitem.2.1,hactive,hopen]
      exact ⟨Nat.zero_le 1,rfl⟩
  | leased | renewed | taken | leaseReleased | claimReleased => exact hs.fits
  | claimed hid hwork hopen hl hnone hc hwritten hsame =>
    unfold activeRuns openWaits
    rw [hsame.1,hsame.2.1,hsame.2.2.1]
    exact hs.fits
  | @started _ _ _ _ _ row _ r hid hmoves hready hl hnone hr hruns hwaits =>
    have hrow := hs.fits row (mem_of_find hmoves.found)
    rw [hready] at hrow
    have hopen : ∀ w, t.openWaits w = s.openWaits w := fun w => by rw [openWaits,hwaits,openWaits]
    refine hmoves.fits hs.fits (fun w hw => ?_) (fun w _ => hopen w) ⟨⟨r,?_⟩,?_⟩
    · rw [activeRuns_insert hruns,if_neg (fun hr' => hw (hr'.1.symm.trans hr.2.1)),append_nil]
    · rw [activeRuns_insert hruns,activeRun_eq_none.mp hnone,if_pos ⟨hr.2.1,hr.2.2.1⟩,nil_append]
    · rw [hopen]
      exact hrow.2
  | @waited _ _ _ _ _ _ row _ wait hmoves hrunning hl hw hnone hruns hwaits =>
    have hrow := hs.fits row (mem_of_find hmoves.found)
    rw [hrunning] at hrow
    have hactive : ∀ w, t.activeRuns w = s.activeRuns w := fun w => by rw [activeRuns,hruns,activeRuns]
    refine hmoves.fits hs.fits (fun w _ => hactive w) (fun w hother => ?_) ⟨?_,wait,?_⟩
    · rw [openWaits_insert hwaits,if_neg (fun hw' => hother (hw'.1.symm.trans hw.1)),append_nil]
    · rw [hactive]
      exact hrow.1
    · rw [openWaits_insert hwaits,hrow.2,if_pos hw,nil_append]
  | @adopted _ _ _ _ _ row _ r hmoves hrunning hl hfound hr hruns hwaits =>
    have hrow := hs.fits row (mem_of_find hmoves.found)
    rw [hrunning] at hrow
    obtain ⟨⟨r',hr'⟩,hopen⟩ := hrow
    have hmem := mem_of_find hfound
    obtain rfl : r = r' := mem_singleton.mp (hr' ▸ mem_activeRuns.mpr ⟨hmem,hr⟩)
    have hwait : ∀ w, t.openWaits w = s.openWaits w := fun w => by rw [openWaits,hwaits,openWaits]
    refine hmoves.fits hs.fits (fun w hother => ?_) (fun w _ => hwait w) ⟨?_,?_⟩
    · have hne : r.workId ≠ w := fun hw => hother (hw.symm.trans hr.1)
      exact activeRuns_put_other hruns hmem rfl hne hne
    · exact ⟨_,(activeRuns_put (r := r) hruns rfl hr').trans (if_pos hr)⟩
    · rw [hwait]
      exact hopen
  | @resolved _ _ _ _ _ _ row _ wait wait' hmoves hwaiting hl hfound hw hw' hruns hwaits =>
    have hrow := hs.fits row (mem_of_find hmoves.found)
    rw [hwaiting] at hrow
    obtain ⟨⟨r,hr⟩,w,hopen⟩ := hrow
    have hmem := mem_of_find hfound
    have hopened : wait.status = .opened := by
      cases hstatus : wait.status with
      | opened => rfl
      | resolved => exact absurd hstatus hw.2
    obtain rfl : wait = w := mem_singleton.mp (hopen ▸ mem_openWaits.mpr ⟨hmem,hw.1,hopened⟩)
    have hactive : ∀ w, t.activeRuns w = s.activeRuns w := fun w => by rw [activeRuns,hruns,activeRuns]
    refine hmoves.fits hs.fits (fun w _ => hactive w) (fun w hother => ?_) ⟨?_,?_⟩
    · have hne : wait.workId ≠ w := fun h => hother (h.symm.trans hw.1)
      have hne' : wait'.workId ≠ w := fun h => hother (h.symm.trans hw'.2.1)
      exact openWaits_put_other hwaits hmem hw'.1.symm hne hne'
    · rw [hactive,hr]
      exact le_rfl
    · rw [openWaits_put hwaits hw'.1.symm hopen,if_neg]
      rintro ⟨-,hstatus⟩
      rw [hw'.2.2] at hstatus
      cases hstatus
  | @finished _ _ _ _ _ _ _ row _ r r' hmoves hfrom hl hfound hr hr' hruns hwaits =>
    have hrow := hs.fits row (mem_of_find hmoves.found)
    have hmem := mem_of_find hfound
    have hstatus : r.status = .active := by
      cases hstatus : r.status with
      | active => rfl
      | finished => exact absurd hstatus hr.2.1
    have hin : r ∈ s.activeRuns row.workId := mem_activeRuns.mpr ⟨hmem,hr.1,hstatus⟩
    have honly : s.activeRuns row.workId = [r] ∧ s.openWaits row.workId = [] := by
      rcases hfrom with hdisposition | hdisposition
      · rw [hdisposition] at hrow
        obtain ⟨⟨r',hr'⟩,hopen⟩ := hrow
        rw [hr'] at hin
        obtain rfl := mem_singleton.mp hin
        exact ⟨hr',hopen⟩
      · rw [hdisposition] at hrow
        obtain ⟨hlength,hopen⟩ := hrow
        refine ⟨?_,hopen⟩
        obtain ⟨r',hr'⟩ := length_eq_one_iff.mp (le_antisymm hlength (length_pos_of_mem hin))
        rw [hr'] at hin
        rw [hr',mem_singleton.mp hin]
    have hwait : ∀ w, t.openWaits w = s.openWaits w := fun w => by rw [openWaits,hwaits,openWaits]
    refine hmoves.fits hs.fits (fun w hother => ?_) (fun w _ => hwait w) ⟨?_,?_⟩
    · have hne : r.workId ≠ w := fun h => hother (h.symm.trans hr.1)
      have hne' : r'.workId ≠ w := fun h => hother (h.symm.trans hr'.2.1)
      exact activeRuns_put_other hruns hmem hr'.1.symm hne hne'
    · rw [activeRuns_put hruns hr'.1.symm honly.1,if_neg]
      rintro ⟨-,hactive⟩
      rw [hr'.2.2.1] at hactive
      cases hactive
    · rw [hwait]
      exact honly.2

theorem WorkChange.chained (hs : KernelInvariant s) : ∀ row ∈ t.workItems.rows, Chained t row := by
  cases h with
  | @created _ _ _ _ _ _ f hid hnew hitem hitems hfact hfacts =>
    intro row hrow
    rcases (mem_insert hitems).mp hrow with hrow | rfl
    · have hold := hs.chained row hrow
      have hkept : ∀ n, t.transitionFacts.get (row.workId,n) = s.transitionFacts.get (row.workId,n) := by
        intro n
        rw [get_insert hfacts,if_neg]
        intro heq
        have hkey := hfact.1.symm.trans (Prod.ext_iff.mp heq).1
        rw [hkey,Table.get_of_mem hrow] at hnew
        cases hnew
      refine ⟨fun n => ?_,fun g hg => ?_,fun n g g' hg hg' => ?_,fun g hg => ?_⟩
      · rw [hkept]
        exact hold.versions n
      · rw [hkept] at hg
        exact hold.first g hg
      · rw [hkept] at hg hg'
        exact hold.linked n g g' hg hg'
      · rw [hkept] at hg
        exact hold.last g hg
    · have hnone : ∀ n, s.transitionFacts.get (row.workId,n) = none := by
        intro n
        cases hget : s.transitionFacts.get (row.workId,n) with
        | none => rfl
        | some f =>
          obtain ⟨row',hrow'⟩ := hs.factWorks f (mem_of_find hget)
          have hkey : f.workId = row.workId := (Prod.ext_iff.mp (key_of_get hget)).1
          rw [hkey,hitem.1,hnew] at hrow'
          cases hrow'
      have hget : ∀ n, t.transitionFacts.get (row.workId,n) = if n = 0 then some f else none := by
        intro n
        rw [get_insert hfacts,hnone,hfact.1,hfact.2.1,hitem.1]
        by_cases hn : n = 0
        · subst hn
          rw [if_pos rfl,if_pos rfl]
        · rw [if_neg hn,if_neg]
          intro heq
          exact hn (Prod.ext_iff.mp heq).2.symm
      refine ⟨fun n => ?_,fun g hg => ?_,fun n g g' hg hg' => ?_,fun g hg => ?_⟩
      · rw [hget,hitem.2.2]
        by_cases hn : n = 0 <;> simp [hn]
      · rw [hget,if_pos rfl] at hg
        cases hg
        exact hfact.2.2.1
      · rw [hget,if_neg (Nat.succ_ne_zero n)] at hg'
        cases hg'
      · rw [hitem.2.2,hget,if_pos rfl] at hg
        cases hg
        rw [hfact.2.2.2,hitem.2.1]
  | leased | renewed | taken | leaseReleased | claimReleased =>
    intro row hrow
    obtain ⟨hversions,hfirst,hlinked,hlast⟩ := hs.chained row hrow
    exact ⟨hversions,hfirst,hlinked,hlast⟩
  | claimed hid hwork hopen hl hnone hc hwritten hsame =>
    intro row hrow
    rw [hsame.1] at hrow
    obtain ⟨hversions,hfirst,hlinked,hlast⟩ := hs.chained row hrow
    rw [← hsame.2.2.2.2] at hversions hfirst hlinked hlast
    exact ⟨hversions,hfirst,hlinked,hlast⟩
  | started hid hmoves | waited hmoves | adopted hmoves | resolved hmoves | finished hmoves => exact hmoves.chained hs.chained

end

/-! ## Claims -/

omit [Seconds T] in
theorem heldClaim_eq_none : s.heldClaim workId = none ↔ ∀ c ∈ s.resourceClaims.rows, c.workId = workId → c.state ≠ .held := by
  unfold heldClaim
  rw [find_eq_none]
  simp

omit [Seconds T] in
theorem mem_of_written {c d : ResourceClaim}
    (h : (∃ old, s.resourceClaims.get c.resourceKey = some old ∧ old.state ≠ .held ∧
        t.resourceClaims = s.resourceClaims.put c) ∨ s.resourceClaims.insert c = some t.resourceClaims)
    (hd : d ∈ t.resourceClaims.rows) : d = c ∨ d ∈ s.resourceClaims.rows := by
  rcases h with ⟨old,hold,-,hput⟩ | hinsert
  · rw [hput] at hd
    rcases (mem_put (mem_of_find hold) (key_of_get hold)).mp hd with rfl | ⟨hd,-⟩
    · exact .inl rfl
    · exact .inr hd
  · exact ((mem_insert hinsert).mp hd).symm

theorem handOver_work (w leaseId : String) (fence : ℕ) (c : ResourceClaim) :
    (handOver w leaseId fence c).workId = c.workId := by
  unfold handOver
  split <;> rfl

theorem handOver_state (w leaseId : String) (fence : ℕ) (c : ResourceClaim) :
    (handOver w leaseId fence c).state = c.state := by
  unfold handOver
  split <;> rfl

theorem WorkChange.claimKeys (h : WorkChange s now call t) (hs : ∀ c ∈ s.resourceClaims.rows, idText c.resourceKey = true) :
    ∀ c ∈ t.resourceClaims.rows, idText c.resourceKey = true := by
  cases h with
  | created hid hnew hitem hitems hfact hfacts hruns hwaits hleases hclaims =>
    rw [hclaims]
    exact hs
  | leased | renewed | leaseReleased => exact hs
  | taken =>
    intro c hc
    obtain ⟨d,hd,rfl⟩ := mem_map.mp hc
    rw [handOver_key]
    exact hs d hd
  | claimed hid hwork hopen hl hnone hc hwritten hsame =>
    obtain ⟨rfl,-⟩ := hc
    intro d hd
    rcases mem_of_written hwritten hd with rfl | hd
    · exact hid
    · exact hs d hd
  | claimReleased hl hrow hc =>
    intro d hd
    rcases (mem_put (mem_of_find hrow) (by rfl)).mp hd with rfl | ⟨hd,-⟩
    · exact (hs _ (mem_of_find hrow) :)
    · exact hs d hd
  | started hid hmoves | waited hmoves | adopted hmoves | resolved hmoves | finished hmoves =>
    rw [hmoves.claims]
    exact hs

theorem WorkChange.claimLeases (h : WorkChange s now call t)
    (hs : ∀ c ∈ s.resourceClaims.rows, c.state = .held → Backed s c) :
    ∀ c ∈ t.resourceClaims.rows, c.state = .held → Backed t c := by
  have hput : ∀ {w : String} {old new : LeaseRecord T}, s.leases.get w = some old → t.leases = s.leases.put new →
      new.workId = old.workId → SameLease now old new →
      ∀ c ∈ s.resourceClaims.rows, c.state = .held → Backed t c := by
    intro w old new hold hleases hid hsame c hc hheld
    obtain ⟨l,hl,hlease,hfence⟩ := hs c hc hheld
    obtain ⟨l',hl',hlease',-,hfence',-⟩ := lease_put hl hold hid hsame
    rw [← hleases] at hl'
    exact ⟨l',hl',hlease.trans hlease'.symm,hfence.trans hfence'.symm⟩
  have hsame : t.leases = s.leases → ∀ c ∈ s.resourceClaims.rows, c.state = .held → Backed t c := by
    intro hleases c hc hheld
    unfold Backed
    rw [hleases]
    exact hs c hc hheld
  cases h with
  | created hid hnew hitem hitems hfact hfacts hruns hwaits hleases hclaims =>
    rw [hclaims]
    exact hsame hleases
  | leased hwork httl hnone hnew hinsert =>
    intro c hc hheld
    obtain ⟨l,hl,hcarries⟩ := hs c hc hheld
    refine ⟨l,?_,hcarries⟩
    obtain rfl := hnew
    rw [get_insert hinsert,if_neg]
    · exact hl
    · rintro rfl
      rw [hnone] at hl
      cases hl
  | renewed hrow hlease howner hactive hlive =>
    exact hput hrow rfl rfl ⟨rfl,rfl,rfl,fun early hle _ => ⟨hactive,hle.trans_lt hlive⟩⟩
  | leaseReleased hheld =>
    refine hput hheld.row rfl rfl ⟨rfl,rfl,rfl,fun early _ hlive => ?_⟩
    cases hlive.1
  | @taken w leaseId ownerId ttl l httl hrow hover =>
    intro c hc hheld
    obtain ⟨d,hd,rfl⟩ := mem_map.mp hc
    have hw : l.workId = w := key_of_get hrow
    have hget : ∀ k, (s.leases.put (takeOver l leaseId ownerId ttl now)).get k =
        if l.workId = k then some (takeOver l leaseId ownerId ttl now) else s.leases.get k :=
      fun k => get_put (by rw [show (takeOver l leaseId ownerId ttl now).workId = w from hw]; exact hrow) k
    rw [handOver_state] at hheld
    unfold Backed
    dsimp only
    rw [hget,handOver_work]
    by_cases hwork : d.workId = w
    · refine ⟨_,if_pos (hw.trans hwork.symm),?_⟩
      rw [handOver,if_pos ⟨hwork,hheld⟩]
      exact ⟨rfl,rfl⟩
    · rw [if_neg (fun hk => hwork (hk.symm.trans hw)),handOver,if_neg (fun hboth => hwork hboth.1)]
      exact hs d hd hheld
  | claimed hid hwork hopen hl hnone hc hwritten hframe =>
    obtain ⟨rfl,hcwork,hclease,hcfence,-⟩ := hc
    intro d hd hheld
    rcases mem_of_written hwritten hd with rfl | hd
    · refine ⟨_,?_,hclease.trans hl.lease.symm,hcfence⟩
      rw [hframe.2.2.2.1,hcwork]
      exact hl.row
    · exact hsame hframe.2.2.2.1 d hd hheld
  | claimReleased hl hrow hc =>
    intro d hd hheld
    rcases (mem_put (mem_of_find hrow) (by rfl)).mp hd with rfl | ⟨hd,-⟩
    · cases hheld
    · exact hs d hd hheld
  | started hid hmoves | waited hmoves | adopted hmoves | resolved hmoves | finished hmoves =>
    rw [hmoves.claims]
    exact hsame hmoves.leases

theorem WorkChange.oneClaim (h : WorkChange s now call t) (hs : HoldsOne s) : HoldsOne t := by
  have hsame : t.resourceClaims = s.resourceClaims → HoldsOne t := by
    intro hclaims
    unfold HoldsOne
    rw [hclaims]
    exact hs
  cases h with
  | created hid hnew hitem hitems hfact hfacts hruns hwaits hleases hclaims => exact hsame hclaims
  | leased | renewed | leaseReleased => exact hs
  | taken =>
    intro c hc d hd hcheld hdheld hwork
    obtain ⟨c',hc',rfl⟩ := mem_map.mp hc
    obtain ⟨d',hd',rfl⟩ := mem_map.mp hd
    rw [handOver_state] at hcheld hdheld
    rw [handOver_work,handOver_work] at hwork
    rw [hs c' hc' d' hd' hcheld hdheld hwork]
  | claimed hid hwork hopen hl hnone hc hwritten hframe =>
    obtain ⟨rfl,hcwork,-⟩ := hc
    have hfree := heldClaim_eq_none.mp hnone
    intro d hd e he hdheld heheld hsame
    rcases mem_of_written hwritten hd with rfl | hd <;> rcases mem_of_written hwritten he with rfl | he
    · rfl
    · exact absurd heheld (hfree e he (hsame.symm.trans hcwork))
    · exact absurd hdheld (hfree d hd (hsame.trans hcwork))
    · exact hs d hd e he hdheld heheld hsame
  | claimReleased hl hrow hc =>
    intro d hd e he hdheld heheld hsame
    rcases (mem_put (mem_of_find hrow) (by rfl)).mp hd with rfl | ⟨hd,-⟩
    · cases hdheld
    · rcases (mem_put (mem_of_find hrow) (by rfl)).mp he with rfl | ⟨he,-⟩
      · cases heheld
      · exact hs d hd e he hdheld heheld hsame
  | started hid hmoves | waited hmoves | adopted hmoves | resolved hmoves | finished hmoves => exact hsame hmoves.claims

/-! ## Every call and every run -/

theorem WorkChange.kept (h : WorkChange s now call t) (hs : KernelInvariant s) : KernelInvariant t where
  workIds := h.workIds hs.workIds
  runIds := h.runIds hs.runIds
  claimKeys := h.claimKeys hs.claimKeys
  runWorks := h.runWorks hs.runWorks
  waitWorks := h.waitWorks hs.waitWorks
  factWorks := h.factWorks hs.factWorks
  fits := h.fits hs
  chained := h.chained hs
  runLeases := h.runLeases hs.runLeases
  claimLeases := h.claimLeases hs.claimLeases
  oneClaim := h.oneClaim hs.oneClaim

theorem next_invariant (hs : KernelInvariant s) (e : WorkEvent T) : KernelInvariant (s.next e) := by
  rcases next_cases s e with hsame | hchange
  · rw [hsame]
    exact hs
  · exact hchange.kept hs

theorem foldl_invariant (hs : KernelInvariant s) (events : List (WorkEvent T)) : KernelInvariant (events.foldl next s) := by
  induction events generalizing s with
  | nil => exact hs
  | cons e rest ih => exact ih (next_invariant hs e)

theorem run_invariant (events : List (WorkEvent T)) : KernelInvariant (kernelRun events) :=
  foldl_invariant empty_invariant events

end Changes

end Bdb.Work
