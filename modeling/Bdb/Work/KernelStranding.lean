import Bdb.Work.KernelPreserved

/-! # Abandoned work items

Once the lease has run out on an item that waits, or that is ready again after a wait with
its run still active, no calls finish it: the run belongs to an older fence, and only a
running item lets its run be adopted.
-/
namespace Bdb.Work

open WorkKernelStore Seconds Table

variable {T : Type} [Seconds T] {s t : WorkKernelStore T} {now : T} {workId : String}

/-- The events happen one after the other, none before the time. -/
def From (now : T) : List (WorkEvent T) → Prop
  | [] => True
  | e :: rest => now ≤ e.now ∧ From e.now rest

theorem foldl_from {P : WorkKernelStore T → T → Prop}
    (hstep : ∀ s now e, KernelInvariant s → P s now → now ≤ e.now → P (s.next e) e.now) {events : List (WorkEvent T)}
    (hs : KernelInvariant s) (h : P s now) (hfrom : From now events) : ∃ later, P (events.foldl next s) later := by
  induction events generalizing s now with
  | nil => exact ⟨now,h⟩
  | cons e rest ih => exact ih (next_invariant hs e) (hstep s now e hs h hfrom.1) hfrom.2

/-! ## What can happen to one item -/

/-- An item and its active runs stay, or its lease is held and it moves from running, from
ready without a run to a run under a new id, from waiting to ready, or from ready with a run
under the fence of its lease. -/
inductive ItemChange (s t : WorkKernelStore T) (now : T) (row : WorkItem T) : Prop
  | kept (hitem : t.workItems.get row.workId = some row) (hruns : t.activeRuns row.workId = s.activeRuns row.workId)
  | moved {leaseId : String} {fence : ℤ} {l : LeaseRecord T} (hl : Holds s row.workId leaseId fence now l)
      (hfrom : row.disposition = .running ∨
        (row.disposition = .ready ∧ s.activeRuns row.workId = [] ∧
          ∃ runId, idText runId = true ∧ s.runs.get runId = none) ∨
        (row.disposition = .waiting ∧ t.activeRuns row.workId = s.activeRuns row.workId ∧
          ∃ row', t.workItems.get row.workId = some row' ∧ row'.disposition = .ready) ∨
        (row.disposition = .ready ∧ ∃ r ∈ s.activeRuns row.workId, r.fence = l.fence))

variable {row : WorkItem T} {e : WorkEvent T}

theorem WorkChange.item_change {call : WorkCall T} (h : WorkChange s now call t)
    (hrow : s.workItems.get row.workId = some row) : ItemChange s t now row := by
  have hsame : t.runs = s.runs → t.activeRuns row.workId = s.activeRuns row.workId :=
    fun hruns => by rw [activeRuns,hruns,activeRuns]
  have hother : ∀ {moved : WorkItem T}, moved ≠ row → s.workItems.get moved.workId = some moved →
      moved.workId ≠ row.workId := by
    intro moved hne hmoved heq
    rw [heq,hrow] at hmoved
    exact hne (Option.some.inj hmoved).symm
  cases h with
  | created hid hnew hitem hitems hfact hfacts hruns =>
    refine .kept ?_ (hsame hruns)
    rw [get_insert hitems,if_neg]
    · exact hrow
    · intro hkey
      rw [← hkey,hitem.1,hnew] at hrow
      cases hrow
  | leased | renewed | taken | leaseReleased | claimReleased => exact .kept hrow rfl
  | claimed hid hwork hopen hl hnone hc hwritten hframe => exact .kept (hframe.1 ▸ hrow) (hsame hframe.2.1)
  | @started _ _ _ _ _ moved _ r hid hmoves hready hl hnone hr hruns =>
    by_cases heq : moved = row
    · subst heq
      refine .moved hl (.inr (.inl ⟨hready,activeRun_eq_none.mp hnone,r.runId,?_,(insert_some hruns).1⟩))
      rw [hr.1]
      exact hid
    · refine .kept (hmoves.other_kept hrow heq) ?_
      rw [activeRuns_insert hruns,if_neg,List.append_nil]
      rintro ⟨hwork,-⟩
      exact hother heq hmoves.found (hr.2.1.symm.trans hwork)
  | @waited _ _ _ _ _ _ moved _ _ hmoves hrunning hl hw hnone hruns =>
    by_cases heq : moved = row
    · subst heq
      exact .moved hl (.inl hrunning)
    · exact .kept (hmoves.other_kept hrow heq) (hsame hruns)
  | @adopted _ _ _ _ _ moved _ r hmoves hrunning hl hfound hr hruns =>
    by_cases heq : moved = row
    · subst heq
      exact .moved hl (.inl hrunning)
    · have hne : r.workId ≠ row.workId := fun hwork => hother heq hmoves.found (hr.1.symm.trans hwork)
      exact .kept (hmoves.other_kept hrow heq) (activeRuns_put_other hruns (mem_of_find hfound) rfl hne hne)
  | @resolved _ _ _ _ _ _ moved _ _ _ hmoves hwaiting hl hfound hw hw' hruns =>
    by_cases heq : moved = row
    · subst heq
      refine .moved hl (.inr (.inr (.inl ⟨hwaiting,hsame hruns,?_⟩)))
      obtain ⟨row',hrow'⟩ := hmoves.item_kept hmoves.found
      rcases hmoves.item_cases hrow' with ⟨-,-,hready,-⟩ | ⟨hne,-⟩
      · exact ⟨row',hrow',hready⟩
      · exact absurd rfl hne
    · exact .kept (hmoves.other_kept hrow heq) (hsame hruns)
  | @finished _ _ _ _ _ _ _ moved _ r r' hmoves hfrom hl hfound hr hr' hruns =>
    by_cases heq : moved = row
    · subst heq
      rcases hfrom with hrunning | hready
      · exact .moved hl (.inl hrunning)
      · refine .moved hl (.inr (.inr (.inr ⟨hready,r,mem_activeRuns.mpr ⟨mem_of_find hfound,hr.1,?_⟩,?_⟩)))
        · cases hstatus : r.status with
          | active => rfl
          | finished => exact absurd hstatus hr.2.1
        · have hfence := hr.2.2.2.trans hl.fence.symm
          exact Int.ofNat_inj.mp hfence
    · have hne : r.workId ≠ row.workId := fun hwork => hother heq hmoves.found (hr.1.symm.trans hwork)
      have hne' : r'.workId ≠ row.workId := fun hwork => hother heq hmoves.found (hr'.2.1.symm.trans hwork)
      exact .kept (hmoves.other_kept hrow heq) (activeRuns_put_other hruns (mem_of_find hfound) hr'.1.symm hne hne')

theorem next_item (hrow : s.workItems.get row.workId = some row) (e : WorkEvent T) :
    ItemChange s (s.next e) e.now row := by
  rcases next_cases s e with hsame | hchange
  · rw [hsame]
    exact .kept hrow rfl
  · exact hchange.item_change hrow

/-! ## A run under an older fence -/

def Abandoned (workId : String) (s : WorkKernelStore T) (now : T) : Prop :=
  ∃ row r l, s.workItems.get workId = some row ∧ (row.disposition = .waiting ∨ row.disposition = .ready) ∧
    r ∈ s.activeRuns workId ∧ s.leases.get workId = some l ∧ r.fence ≤ l.fence ∧ (r.fence = l.fence → ¬ Live l now)

theorem lease_still_lost {r : RunRecord} {l : LeaseRecord T} (hl : s.leases.get workId = some l) (holder : r.fence ≤ l.fence)
    (hlost : r.fence = l.fence → ¬ Live l now) (hle : now ≤ e.now) :
    ∃ l', (s.next e).leases.get workId = some l' ∧ r.fence ≤ l'.fence ∧ (r.fence = l'.fence → ¬ Live l' e.now) := by
  have hlater : r.fence = l.fence → ¬ Live l e.now := fun hsame hlive => hlost hsame (hlive.earlier hle)
  rcases next_cases s e with hsame | hchange
  · rw [hsame]
    exact ⟨l,hl,holder,hlater⟩
  · rcases hchange.lease_cases hl with ⟨l',hl',-,-,hfence,hlive⟩ | ⟨leaseId,ownerId,ttl,-,hl',-⟩
    · refine ⟨l',hl',hfence.symm ▸ holder,fun hsame hnow => ?_⟩
      exact hlater (hsame.trans hfence) (hlive e.now le_rfl hnow)
    · refine ⟨_,hl',holder.trans (Nat.le_succ l.fence),fun hsame => ?_⟩
      have hlt : r.fence < l.fence + 1 := Nat.lt_succ_of_le holder
      exact absurd hsame hlt.ne

theorem abandoned_next (hs : KernelInvariant s) (h : Abandoned workId s now) (hle : now ≤ e.now) :
    Abandoned workId (s.next e) e.now := by
  obtain ⟨row,r,l,hrow,hparked,hr,hl,holder,hlost⟩ := h
  obtain ⟨l',hl',holder',hlost'⟩ := lease_still_lost hl holder hlost hle
  obtain rfl := key_of_get hrow
  cases next_item hrow e with
  | kept hitem hruns => exact ⟨row,r,l',hitem,hparked,hruns ▸ hr,hl',holder',hlost'⟩
  | moved hheld hfrom =>
    rcases hfrom with hrunning | ⟨-,hnone,-⟩ | ⟨-,hruns,row',hrow',hready⟩ | ⟨-,r',hr',hfence⟩
    · rcases hparked with hd | hd <;> rw [hd] at hrunning <;> cases hrunning
    · rw [hnone] at hr
      cases hr
    · exact ⟨row',r,l',hrow',.inr hready,hruns ▸ hr,hl',holder',hlost'⟩
    · -- whoever holds the lease under the fence of the run holds a lost lease
      obtain rfl := hs.one_active hrow hr hr'
      obtain rfl := some_unique hl hheld.row
      exact absurd ⟨hheld.active,hheld.live.trans_le' hle⟩ (hlost hfence)

theorem Abandoned.unfinished (h : Abandoned workId s now) (hrow : s.workItems.get workId = some row) :
    row.disposition ≠ .finished := by
  obtain ⟨row',r,l,hrow',hparked,-⟩ := h
  obtain rfl := some_unique hrow hrow'
  rcases hparked with hd | hd <;> rw [hd] <;> decide

/-! ## No lease that lasts -/

/-- No lease taken at the time or later is valid even then. -/
def Unleasable (now : T) : Prop := ∀ later ≥ now, ∀ ttl, zero < ttl → ttl ≤ day → ¬ later < plus later ttl

def Unleased (row : WorkItem T) (s : WorkKernelStore T) (now : T) : Prop :=
  s.workItems.get row.workId = some row ∧ Unleasable now ∧ ∀ l, s.leases.get row.workId = some l → ¬ Live l now

theorem Unleasable.later {now' : T} (h : Unleasable now) (hle : now ≤ now') : Unleasable now' :=
  fun later hlater => h later (hle.trans hlater)

theorem unleased_next (h : Unleased row s now) (hle : now ≤ e.now) : Unleased row (s.next e) e.now := by
  obtain ⟨hrow,hnever,hlost⟩ := h
  have hlater : ∀ l, s.leases.get row.workId = some l → ¬ Live l e.now :=
    fun l hl hlive => hlost l hl (hlive.earlier hle)
  refine ⟨?_,hnever.later hle,?_⟩
  · cases next_item hrow e with
    | kept hitem => exact hitem
    | moved hheld => exact absurd ⟨hheld.active,hheld.live⟩ (hlater _ hheld.row)
  · intro l' hl' hlive
    rcases next_cases s e with hsame | hchange
    · rw [hsame] at hl'
      exact hlater l' hl' hlive
    · cases hl : s.leases.get row.workId with
      | none =>
        obtain ⟨ttl,hpos,hday,hexpires⟩ := hchange.lease_new hl hl'
        exact hnever e.now hle ttl hpos hday (hexpires ▸ hlive.2)
      | some l =>
        rcases hchange.lease_cases hl with ⟨l'',hl'',-,-,-,hearlier⟩ | ⟨leaseId,ownerId,ttl,-,hl'',hpos,hday⟩
        · obtain rfl := some_unique hl' hl''
          exact hlater l hl (hearlier e.now le_rfl hlive)
        · obtain rfl := some_unique hl' hl''
          exact hnever e.now hle ttl hpos hday hlive.2

/-! ## No id for a run -/

def Runless (row : WorkItem T) (s : WorkKernelStore T) : Prop :=
  s.workItems.get row.workId = some row ∧ row.disposition = .ready ∧ s.activeRuns row.workId = [] ∧
    ∀ runId, idText runId = true → ∃ r, s.runs.get runId = some r

theorem WorkChange.runs_kept {call : WorkCall T} (h : WorkChange s now call t) {runId : String} {r : RunRecord}
    (hr : s.runs.get runId = some r) : ∃ r', t.runs.get runId = some r' := by
  have hsame : t.runs = s.runs → ∃ r', t.runs.get runId = some r' := fun hruns => ⟨r,hruns ▸ hr⟩
  have hput : ∀ {id : String} {old new : RunRecord}, s.runs.get id = some old → new.runId = old.runId →
      t.runs = s.runs.put new → ∃ r', t.runs.get runId = some r' := by
    intro id old new hold hid hruns
    obtain rfl := key_of_get hold
    rw [hruns,get_put (by rw [hid]; exact hold)]
    split
    · exact ⟨new,rfl⟩
    · exact ⟨r,hr⟩
  cases h with
  | created hid hnew hitem hitems hfact hfacts hruns => exact hsame hruns
  | leased | renewed | taken | leaseReleased | claimReleased => exact hsame rfl
  | claimed hid hwork hopen hl hnone hc hwritten hframe => exact hsame hframe.2.1
  | started hid hmoves hready hl hnone hr' hruns =>
    rw [get_insert hruns]
    split
    · exact ⟨_,rfl⟩
    · exact ⟨r,hr⟩
  | waited hmoves hrunning hl hw hnone hruns => exact hsame hruns
  | adopted hmoves hrunning hl hfound hr' hruns => exact hput hfound (by rfl) hruns
  | resolved hmoves hwaiting hl hfound hw hw' hruns => exact hsame hruns
  | finished hmoves hfrom hl hfound hr' hr'' hruns => exact hput hfound hr''.1 hruns

theorem runless_next (h : Runless row s) (e : WorkEvent T) : Runless row (s.next e) := by
  obtain ⟨hrow,hready,hnone,htaken⟩ := h
  have htaken' : ∀ runId, idText runId = true → ∃ r, (s.next e).runs.get runId = some r := by
    intro runId hid
    obtain ⟨r,hr⟩ := htaken runId hid
    rcases next_cases s e with hsame | hchange
    · rw [hsame]
      exact ⟨r,hr⟩
    · exact hchange.runs_kept hr
  cases next_item hrow e with
  | kept hitem hruns => exact ⟨hitem,hready,hruns.trans hnone,htaken'⟩
  | moved hheld hfrom =>
    rcases hfrom with hrunning | ⟨-,-,runId,hid,hfree⟩ | ⟨hwaiting,-⟩ | ⟨-,r,hr,-⟩
    · rw [hready] at hrunning
      cases hrunning
    · obtain ⟨r,hr⟩ := htaken runId hid
      rw [hfree] at hr
      cases hr
    · rw [hready] at hwaiting
      cases hwaiting
    · rw [hnone] at hr
      cases hr

end Bdb.Work
