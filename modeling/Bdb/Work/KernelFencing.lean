import Bdb.Work.KernelPreserved

/-! # Fencing of stale workers

The fence of an item's lease grows with every change of its holder, and a call made under
any other lease or fence than the current, unexpired ones changes nothing.
-/
namespace Bdb.Work

open WorkKernelStore Seconds

variable {T : Type} [Seconds T] {s t : WorkKernelStore T} {now : T} {workId leaseId ownerId : String} {ttl : T}

def WorkCall.pair : WorkCall T → Option (String × String × ℤ)
  | .createWorkItem .. => none
  | .acquireLease .. => none
  | .releaseLease workId leaseId fence => some (workId,leaseId,fence)
  | .claimResource workId _ leaseId fence => some (workId,leaseId,fence)
  | .releaseResource workId _ leaseId fence => some (workId,leaseId,fence)
  | .startRun workId _ leaseId fence _ => some (workId,leaseId,fence)
  | .enterWait workId _ _ leaseId fence _ => some (workId,leaseId,fence)
  | .adoptActiveRun workId _ leaseId fence _ => some (workId,leaseId,fence)
  | .resolveWait workId _ leaseId fence _ _ => some (workId,leaseId,fence)
  | .finishRun workId _ leaseId fence _ _ _ => some (workId,leaseId,fence)

def Accepted (s : WorkKernelStore T) (workId leaseId : String) (fence : ℤ) (now : T) : Prop :=
  ∃ l, s.assertCurrentLease workId leaseId fence now = .ok l

variable {fence : ℤ} {l l' : LeaseRecord T} {e : WorkEvent T}

theorem Accepted.holds (h : Accepted s workId leaseId fence now) : ∃ l, Holds s workId leaseId fence now l := by
  obtain ⟨l,h⟩ := h
  obtain ⟨_,h⟩ := rest_ok h
  obtain ⟨l',hl,-⟩ := bind_ok.mp h
  exact ⟨l',(requireLease_ok.mp hl).2.2⟩

theorem Accepted.unique {leaseId' : String} {fence' : ℤ} {now' : T} (h : Accepted s workId leaseId fence now)
    (h' : Accepted s workId leaseId' fence' now') : leaseId = leaseId' ∧ fence = fence' := by
  obtain ⟨l,hl⟩ := h.holds
  obtain ⟨l',hl'⟩ := h'.holds
  obtain rfl := some_unique hl.row hl'.row
  exact ⟨hl.lease.symm.trans hl'.lease,hl.fence.symm.trans hl'.fence⟩

theorem WorkChange.pair_holds {call : WorkCall T} (h : WorkChange s now call t)
    (hpair : call.pair = some (workId,leaseId,fence)) : ∃ l, Holds s workId leaseId fence now l := by
  cases h with
  | created | leased | renewed | taken => cases hpair
  | leaseReleased hl | claimed hid hwork hopen hl | claimReleased hl =>
    cases hpair
    exact ⟨_,hl⟩
  | started hid hmoves hready hl | waited hmoves hrunning hl | adopted hmoves hrunning hl =>
    cases hpair
    exact ⟨_,hl⟩
  | resolved hmoves hwaiting hl | finished hmoves hfrom hl =>
    cases hpair
    exact ⟨_,hl⟩

/-! ## Fences -/

def Succeeds (l l' : LeaseRecord T) : Prop :=
  l.fence < l'.fence ∨ l'.fence = l.fence ∧ l'.leaseId = l.leaseId ∧ l'.ownerId = l.ownerId

omit [Seconds T] in
theorem Succeeds.trans {l'' : LeaseRecord T} (h : Succeeds l l') (h' : Succeeds l' l'') : Succeeds l l'' := by
  rcases h with h | ⟨hfence,hlease,howner⟩
  · rcases h' with h' | ⟨hfence',-⟩
    · exact .inl (h.trans h')
    · exact .inl (h.trans_eq hfence'.symm)
  · rcases h' with h' | ⟨hfence',hlease',howner'⟩
    · exact .inl (hfence ▸ h')
    · exact .inr ⟨hfence'.trans hfence,hlease'.trans hlease,howner'.trans howner⟩

theorem next_lease (hl : s.leases.get workId = some l) (e : WorkEvent T) :
    ∃ l', (s.next e).leases.get workId = some l' ∧ Succeeds l l' := by
  rcases next_cases s e with hsame | hchange
  · rw [hsame]
    exact ⟨l,hl,.inr ⟨rfl,rfl,rfl⟩⟩
  · rcases hchange.lease_cases hl with ⟨l',hl',hlease,howner,hfence,-⟩ | ⟨leaseId,ownerId,ttl,-,hl',-⟩
    · exact ⟨l',hl',.inr ⟨hfence,hlease,howner⟩⟩
    · exact ⟨_,hl',.inl (Nat.lt_succ_self l.fence)⟩

theorem foldl_lease (hl : s.leases.get workId = some l) (events : List (WorkEvent T)) :
    ∃ l', (events.foldl next s).leases.get workId = some l' ∧ Succeeds l l' := by
  induction events generalizing s l with
  | nil => exact ⟨l,hl,.inr ⟨rfl,rfl,rfl⟩⟩
  | cons e rest ih =>
    obtain ⟨l₁,hl₁,hnext⟩ := next_lease hl e
    obtain ⟨l₂,hl₂,hrest⟩ := ih hl₁
    exact ⟨l₂,hl₂,hnext.trans hrest⟩

/-! ## Answers -/

omit [Seconds T] in
theorem write_answer {α : Type} {o : Operation T α} {failpoint : Option FailPoint} {a : α}
    (h : (o.write failpoint s).2 = .ok a) : o.operation s = .ok ((o.write failpoint s).1,a) := by
  unfold Operation.write at h ⊢
  split
  · rename_i hchecks
    simp [hchecks] at h
  · rename_i hchecks
    simp only [hchecks] at h
    split
    · rename_i hbefore
      simp [hbefore] at h
    · rename_i hbefore
      rw [if_neg hbefore] at h
      cases ho : o.operation s with
      | error e => simp [ho] at h
      | ok p =>
        obtain ⟨t,b⟩ := p
        simp only [ho] at h
        dsimp only
        split <;> simp_all

theorem acquireLease_answer {a : LeaseRecord T} (h : (acquireLease workId leaseId ownerId ttl now).operation s = .ok (t,a)) :
    ∃ l, t.leases.get workId = some l ∧ a = l.view now := by
  simp only [acquireLease] at h
  obtain ⟨_,h⟩ := rest_ok h
  split at h
  · rename_i l hrow
    have hid : l.workId = workId := Table.key_of_get hrow
    have hget : ∀ new : LeaseRecord T, new.workId = l.workId → (s.leases.put new).get workId = some new := by
      intro new hnew
      rw [Table.get_put (by rw [hnew,hid]; exact hrow),if_pos (hnew.trans hid)]
    split at h
    · cases pure_ok.mp h
      exact ⟨_,hget _ rfl,rfl⟩
    · obtain ⟨_,_,h⟩ := rest₂ h
      cases pure_ok.mp h
      exact ⟨_,hget _ rfl,rfl⟩
  · obtain ⟨_,h⟩ := rest_ok h
    obtain ⟨leases,hinsert,h⟩ := of_need h
    cases pure_ok.mp h
    refine ⟨_,?_,rfl⟩
    exact (Table.get_insert hinsert workId).trans (if_pos rfl)

def AnswersLease (s : WorkKernelStore T) (e : WorkEvent T) (workId : String) (l : LeaseRecord T) : Prop :=
  (∃ leaseId ownerId ttl, e.call = .acquireLease workId leaseId ownerId ttl) ∧ (e.perform s).2 = .ok (.lease l)

theorem AnswersLease.stored (h : AnswersLease s e workId l) :
    ∃ l', (s.next e).leases.get workId = some l' ∧ l = l'.view e.now := by
  obtain ⟨call,now,failpoint⟩ := e
  obtain ⟨⟨leaseId,ownerId,ttl,rfl⟩,hanswer⟩ := h
  have hop := write_answer hanswer
  obtain ⟨a,ha,hl⟩ := answering_ok hop
  obtain ⟨l',hl',hview⟩ := acquireLease_answer ha
  obtain rfl := WorkAnswer.lease.inj hl
  exact ⟨l',hl',hview⟩

theorem AnswersLease.later {events between : List (WorkEvent T)} {e' : WorkEvent T}
    (h : AnswersLease (kernelRun events) e workId l)
    (h' : AnswersLease (kernelRun (events ++ e :: between)) e' workId l') : Succeeds l l' := by
  obtain ⟨l₁,hl₁,rfl⟩ := h.stored
  obtain ⟨l₂,hl₂,rfl⟩ := h'.stored
  obtain ⟨l₃,hl₃,hrun⟩ := foldl_lease hl₁ (between ++ [e'])
  have hsplit : (between ++ [e']).foldl next ((kernelRun events).next e) = (kernelRun (events ++ e :: between)).next e' := by
    simp [kernelRun]
  rw [hsplit,hl₂] at hl₃
  cases hl₃
  exact hrun

/-! ## Every run -/

/-- Whatever calls were made before: the fence of a later answered lease is later, or the same
with the same holder; at most one lease and fence of an item is accepted; a call that carries
any other than the current unexpired ones changes nothing; and a resource is held by one item. -/
theorem stale_workers_fenced (events : List (WorkEvent T)) :
    (∀ between e e' workId l l', AnswersLease (kernelRun events) e workId l →
      AnswersLease (kernelRun (events ++ e :: between)) e' workId l' →
      l.fence ≤ l'.fence ∧ ((l'.leaseId ≠ l.leaseId ∨ l'.ownerId ≠ l.ownerId) → l.fence < l'.fence)) ∧
    (∀ workId leaseId leaseId' fence fence' now now', Accepted (kernelRun events) workId leaseId fence now →
      Accepted (kernelRun events) workId leaseId' fence' now' → leaseId = leaseId' ∧ fence = fence') ∧
    (∀ e workId leaseId fence, e.call.pair = some (workId,leaseId,fence) →
      (¬ ∃ l, Holds (kernelRun events) workId leaseId fence e.now l) → (kernelRun events).next e = kernelRun events) ∧
    ∀ c ∈ (kernelRun events).resourceClaims.rows, ∀ d ∈ (kernelRun events).resourceClaims.rows,
      c.resourceKey = d.resourceKey → c.state = .held → d.state = .held → c.workId = d.workId := by
  refine ⟨?_,?_,?_,?_⟩
  · intro between e e' workId l l' h h'
    rcases h.later h' with hlt | ⟨hfence,hlease,howner⟩
    · exact ⟨hlt.le,fun _ => hlt⟩
    · refine ⟨hfence.ge,fun hother => ?_⟩
      rcases hother with hother | hother
      · exact absurd hlease hother
      · exact absurd howner hother
  · intro workId leaseId leaseId' fence fence' now now' h h'
    exact h.unique h'
  · intro e workId leaseId fence hpair hstale
    rcases next_cases (kernelRun events) e with hsame | hchange
    · exact hsame
    · exact absurd (hchange.pair_holds hpair) hstale
  · intro c hc d hd hkey _ _
    rw [Table.eq_of_key hc hd hkey]

end Bdb.Work
