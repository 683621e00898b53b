import Bdb.Work.KernelFencing
import Bdb.Work.KernelStranding

/-! # Recovery by a fresh owner

A fresh owner takes over the lease, adopts the run of a running item or starts one of a
ready item, finishes it and releases what the item holds.
-/
namespace Bdb.Work

open WorkKernelStore Seconds List Table

variable {T : Type} [Seconds T] {s t : WorkKernelStore T} {now ttl : T} {workId leaseId ownerId runId : String}
  {row : WorkItem T} {r : RunRecord} {l : LeaseRecord T}

theorem next_of_ok (call : WorkCall T) {a : WorkAnswer T} (hchecks : (call.operation now).checks = .ok ())
    (h : (call.operation now).operation s = .ok (t,a)) : s.next ⟨call,now,none⟩ = t := by
  unfold WorkKernelStore.next WorkEvent.perform Operation.write
  dsimp only
  rw [hchecks]
  dsimp only
  rw [if_neg (by decide),h]

omit [Seconds T] in
theorem answering_of {α β : Type} {o : Operation T α} {f : α → β} {a : α} (h : o.operation s = .ok (t,a)) :
    (o.answering f).operation s = .ok (t,f a) := by
  unfold Operation.answering
  dsimp only
  rw [h]
  rfl

/-- A call of the owner on the item, without a fault: for the lease, or under it. -/
def ByOwner (workId leaseId ownerId : String) (e : WorkEvent T) : Prop :=
  e.failpoint = none ∧ ((∃ ttl, e.call = .acquireLease workId leaseId ownerId ttl) ∨
    ∃ fence, e.call.pair = some (workId,leaseId,fence))

/-- What a recovering owner has at every step: the invariant, and the current lease. -/
structure Leased (s : WorkKernelStore T) (workId leaseId : String) (now : T) (l : LeaseRecord T) : Prop where
  invariant : KernelInvariant s
  held : Holds s workId leaseId l.fence now l
  leaseText : idText leaseId = true
  positive : 1 ≤ l.fence

theorem Leased.required (h : Leased s workId leaseId now l) : s.requireLease workId leaseId l.fence now = .ok l :=
  requireLease_ok.mpr ⟨h.leaseText,by exact_mod_cast h.positive,h.held⟩

theorem Leased.next (h : Leased s workId leaseId now l) {call : WorkCall T} (hnext : s.next ⟨call,now,none⟩ = t)
    (hleases : t.leases = s.leases) : Leased t workId leaseId now l := by
  obtain ⟨hrow,hlease,hfence,hactive,hlive⟩ := h.held
  refine ⟨hnext ▸ next_invariant h.invariant _,⟨?_,hlease,hfence,hactive,hlive⟩,h.leaseText,h.positive⟩
  rw [hleases]
  exact hrow

theorem Leased.calls (h : Leased s workId leaseId now l) (ownerId : String) (call : WorkCall T) {a : WorkAnswer T}
    (hpair : call.pair = some (workId,leaseId,(l.fence : ℤ))) (hchecks : (call.operation now).checks = .ok ())
    (hop : (call.operation now).operation s = .ok (t,a)) (hleases : t.leases = s.leases) :
    ∃ e : WorkEvent T, ByOwner workId leaseId ownerId e ∧ e.now = now ∧ s.next e = t ∧ Leased t workId leaseId now l := by
  have hnext := next_of_ok call hchecks hop
  exact ⟨⟨call,now,none⟩,⟨rfl,.inr ⟨_,hpair⟩⟩,rfl,hnext,h.next hnext hleases⟩

/-! ## The lease -/

theorem acquire_fresh (hs : KernelInvariant s) (hrow : s.workItems.get workId = some row)
    (hlost : ∀ l, s.leases.get workId = some l → ¬ Live l now) (httl : zero < ttl ∧ ttl ≤ day) (hlive : now < plus now ttl)
    (hlease : idText leaseId = true) (howner : ownerText ownerId = true)
    (hfree : s.leases.find (fun l => l.leaseId == leaseId) = none) :
    ∃ t l, s.next ⟨.acquireLease workId leaseId ownerId ttl,now,none⟩ = t ∧ Leased t workId leaseId now l ∧
      t.workItems = s.workItems ∧ t.runs = s.runs ∧ ∀ r ∈ s.runs.rows, r.workId = workId → r.fence < l.fence := by
  have hid : row.workId = workId := key_of_get hrow
  have hwork : idText workId = true := hid ▸ hs.workIds row (mem_of_find hrow)
  have hchecks : (acquireLease workId leaseId ownerId ttl now).checks = .ok () := by
    refine bind_of (text_ok.mpr hwork) ?_
    refine bind_of (text_ok.mpr hlease) ?_
    refine require_bind howner ?_
    exact require_ok.mpr httl
  have hunbound : requireFreeLeaseId s workId leaseId = .ok () := by
    refine require_ok.mpr ?_
    rw [hfree]
    intro l hl
    cases hl
  cases hl : s.leases.get workId with
  | none =>
    let l : LeaseRecord T := ⟨leaseId,workId,ownerId,1,.active,now,plus now ttl⟩
    obtain ⟨leases,hinsert⟩ := insert_of_new (t := s.leases) (a := l) hl
    have hop : (acquireLease workId leaseId ownerId ttl now).operation s = .ok ({ s with leases := leases },l.view now) := by
      refine bind_of (requireWork_ok.mpr hrow) ?_
      rw [hl]
      refine bind_of hunbound ?_
      exact bind_of (need_ok.mpr hinsert) rfl
    have hnext := next_of_ok (.acquireLease workId leaseId ownerId ttl) hchecks (answering_of hop)
    refine ⟨_,l,hnext,⟨hnext ▸ next_invariant hs _,⟨?_,rfl,rfl,rfl,hlive⟩,hlease,le_rfl⟩,rfl,rfl,?_⟩
    · exact (get_insert hinsert workId).trans (if_pos rfl)
    · -- nothing has run without a lease
      intro r hr hwork
      obtain ⟨l',hl',-⟩ := hs.runLeases r hr
      rw [hwork,hl] at hl'
      cases hl'
  | some old =>
    let l : LeaseRecord T := takeOver old leaseId ownerId ttl now
    have hold : old.workId = workId := key_of_get hl
    have hnot : ¬ (old.state = .active ∧ now < old.expiresAt) := hlost old hl
    let t : WorkKernelStore T := { s with
      leases := s.leases.put l
      resourceClaims := s.resourceClaims.change (handOver workId leaseId l.fence) (handOver_key workId leaseId l.fence) }
    have hop : (acquireLease workId leaseId ownerId ttl now).operation s = .ok (t,l.view now) := by
      refine bind_of (requireWork_ok.mpr hrow) ?_
      rw [hl]
      dsimp only
      rw [if_neg (fun h => hnot ⟨h.2.2.1,h.2.2.2⟩)]
      refine require_bind hnot ?_
      exact bind_of hunbound rfl
    have hnext := next_of_ok (.acquireLease workId leaseId ownerId ttl) hchecks (answering_of hop)
    refine ⟨t,l,hnext,⟨hnext ▸ next_invariant hs _,⟨?_,rfl,rfl,rfl,hlive⟩,hlease,Nat.le_add_left 1 old.fence⟩,rfl,rfl,?_⟩
    · have hkey : l.workId = workId := hold
      exact (get_put (by rw [hkey]; exact hl) workId).trans (if_pos hkey)
    · intro r hr hwork
      obtain ⟨l',hl',hle⟩ := hs.runLeases r hr
      rw [hwork,hl] at hl'
      cases hl'
      exact Nat.lt_succ_of_le hle

/-! ## Moves of the item -/

omit [Seconds T] in
theorem append_of (s' : WorkKernelStore T) (now : T) (hs : KernelInvariant s) (hrow : s.workItems.get row.workId = some row)
    (hfacts : s'.transitionFacts = s.transitionFacts) (origin target : WorkDisposition) (kind : String) (payload : Fields)
    (order : ℕ) :
    ∃ t, (s'.bumpWork row target order now).appendFact (moveFact row kind origin target payload order) = .ok t := by
  have hnone : s.transitionFacts.get (row.workId,row.stateVersion + 1) = none := by
    cases hget : s.transitionFacts.get (row.workId,row.stateVersion + 1) with
    | none => rfl
    | some f =>
      have hle := ((hs.chained row (mem_of_find hrow)).versions _).mp (by rw [hget]; rfl)
      omega
  rw [← hfacts] at hnone
  obtain ⟨facts,hinsert⟩ := insert_of_new (a := moveFact row kind origin target payload order) hnone
  exact ⟨_,bind_of (need_ok.mpr hinsert) rfl⟩

omit [Seconds T] in
theorem Moves.new_item {target : WorkDisposition} (h : Moves s t row target) :
    ∃ row', t.workItems.get row.workId = some row' ∧ row'.workId = row.workId ∧ row'.disposition = target := by
  obtain ⟨row',hrow'⟩ := h.item_kept h.found
  rcases h.item_cases hrow' with ⟨-,hid,htarget,-⟩ | ⟨hne,-⟩
  · exact ⟨row',hrow',hid,htarget⟩
  · exact absurd rfl hne

def Runs (s : WorkKernelStore T) (workId leaseId : String) (l : LeaseRecord T) (row : WorkItem T) (r : RunRecord) : Prop :=
  s.workItems.get workId = some row ∧ row.disposition = .running ∧ s.runs.get r.runId = some r ∧ r.workId = workId ∧
    r.status = .active ∧ r.leaseId = leaseId ∧ r.fence = l.fence

section

variable (h : Leased s workId leaseId now l)

include h

theorem Leased.start (hrow : s.workItems.get workId = some row)
    (hready : row.disposition = .ready) (hnone : s.activeRuns workId = []) (hid : idText runId = true)
    (hfree : s.runs.get runId = none) : ∃ e : WorkEvent T, ByOwner workId leaseId ownerId e ∧ e.now = now ∧
      Leased (s.next e) workId leaseId now l ∧ ∃ row' r, Runs (s.next e) workId leaseId l row' r := by
  obtain rfl := key_of_get hrow
  let r : RunRecord := ⟨runId,row.workId,.active,none,.notAssessed,leaseId,l.fence,s.nextOrder,none⟩
  obtain ⟨runs,hinsert⟩ := insert_of_new (t := s.runs) (a := r) hfree
  obtain ⟨t,ht⟩ := append_of { s with runs := runs } now h.invariant hrow rfl .ready .running "run_started"
    [("run_id",.str runId),("lease_id",.str leaseId),("fence",.int l.fence)] s.nextOrder
  have hwork := h.invariant.workIds row (mem_of_find hrow)
  have hchecks : (startRun row.workId runId leaseId l.fence row.stateVersion now).checks = .ok () :=
    bind_of (text_ok.mpr hwork) (text_ok.mpr hid)
  have hop : (startRun row.workId runId leaseId l.fence row.stateVersion now).operation s = .ok (t,r) := by
    simp only [startRun,hfree]
    refine bind_of (requireWork_ok.mpr hrow) ?_
    refine bind_of (expectVersion_ok.mpr rfl) ?_
    refine require_bind hready ?_
    refine bind_of h.required ?_
    refine require_bind (activeRun_eq_none.mpr hnone) ?_
    refine bind_of (need_ok.mpr hinsert) ?_
    exact bind_of ht rfl
  obtain ⟨hmoves,hruns,-⟩ := moves_of_append hrow hready ht ⟨rfl,rfl,rfl,rfl⟩
  obtain ⟨e,hmine,hnow,rfl,hleased⟩ :=
    h.calls ownerId (.startRun row.workId runId leaseId l.fence row.stateVersion) rfl hchecks (answering_of hop) hmoves.leases
  obtain ⟨row',hrow',-,hrunning⟩ := hmoves.new_item
  refine ⟨e,hmine,hnow,hleased,row',r,hrow',hrunning,?_,rfl,rfl,rfl,rfl⟩
  rw [hruns]
  exact (get_insert hinsert _).trans (if_pos rfl)

theorem Leased.adopt (hrow : s.workItems.get workId = some row)
    (hrunning : row.disposition = .running) (hr : r ∈ s.activeRuns workId) (holder : r.fence < l.fence) :
    ∃ e : WorkEvent T, ByOwner workId leaseId ownerId e ∧ e.now = now ∧
      Leased (s.next e) workId leaseId now l ∧ ∃ row' r, Runs (s.next e) workId leaseId l row' r := by
  obtain rfl := key_of_get hrow
  obtain ⟨hmem,hown,hactive⟩ := mem_activeRuns.mp hr
  have hget : s.runs.get r.runId = some r := get_of_mem hmem
  let r' : RunRecord := { r with leaseId := leaseId, fence := l.fence }
  obtain ⟨t,ht⟩ := append_of { s with runs := s.runs.put r' } now h.invariant hrow rfl .running .running
    "run_ownership_adopted" [("run_id",.str r.runId),("lease_id",.str leaseId),("fence",.int l.fence)] s.nextOrder
  have hwork := h.invariant.workIds row (mem_of_find hrow)
  have hid := h.invariant.runIds r hmem
  have hchecks : (adoptActiveRun row.workId r.runId leaseId l.fence row.stateVersion now).checks = .ok () :=
    bind_of (text_ok.mpr hwork) (text_ok.mpr hid)
  have hop : (adoptActiveRun row.workId r.runId leaseId l.fence row.stateVersion now).operation s = .ok (t,r') := by
    refine bind_of (requireWork_ok.mpr hrow) ?_
    refine bind_of (expectVersion_ok.mpr rfl) ?_
    refine require_bind hrunning ?_
    refine bind_of h.required ?_
    refine bind_ok.mpr ⟨r,need_ok.mpr (Option.filter_eq_some_iff.mpr ⟨hget,by simp [hown,hactive]⟩),?_⟩
    rw [if_neg (fun heq => holder.ne (Int.ofNat_inj.mp heq.2))]
    refine require_bind (Int.ofNat_lt.mpr holder) ?_
    exact bind_of ht rfl
  obtain ⟨hmoves,hruns,-⟩ := moves_of_append hrow hrunning ht ⟨rfl,rfl,rfl,rfl⟩
  obtain ⟨e,hmine,hnow,rfl,hleased⟩ := h.calls ownerId
    (.adoptActiveRun row.workId r.runId leaseId l.fence row.stateVersion) rfl hchecks (answering_of hop) hmoves.leases
  obtain ⟨row',hrow',-,hrunning'⟩ := hmoves.new_item
  refine ⟨e,hmine,hnow,hleased,row',r',hrow',hrunning',?_,hown,hactive,rfl,rfl⟩
  rw [hruns]
  exact (get_put (a := r') hget _).trans (if_pos rfl)

theorem Leased.finish (ownerId : String) (hruns : Runs s workId leaseId l row r) :
    ∃ e : WorkEvent T, ByOwner workId leaseId ownerId e ∧ e.now = now ∧ Leased (s.next e) workId leaseId now l ∧
      ∃ row', (s.next e).workItems.get workId = some row' ∧ row'.disposition = .finished := by
  obtain ⟨hrow,hrunning,hget,hown,hactive,hlease,hfence⟩ := hruns
  obtain rfl := key_of_get hrow
  have hmem := mem_of_find hget
  have honly : s.activeRun row.workId = some r := by
    have hin := mem_activeRuns.mpr ⟨hmem,hown,hactive⟩
    cases hfound : s.activeRun row.workId with
    | none =>
      rw [activeRun_eq_none.mp hfound] at hin
      cases hin
    | some r' =>
      have hprops : r'.workId = row.workId ∧ r'.status = .active := by simpa using find_some hfound
      rw [h.invariant.one_active hrow hin (mem_activeRuns.mpr ⟨mem_of_find hfound,hprops⟩)]
  let r' : RunRecord := { r with
    status := .finished
    outcome := RunOutcome.ofText "SUCCEEDED"
    effectCertainty := (EffectCertainty.ofText "CERTAIN").getD .notAssessed
    endedOrder := some s.nextOrder }
  obtain ⟨t,ht⟩ := append_of { s with runs := s.runs.put r' } now h.invariant hrow rfl row.disposition
    .finished "run_finished"
    [("run_id",.str r.runId),("outcome",.str "SUCCEEDED"),("effect_certainty",.str "CERTAIN")] s.nextOrder
  have hwork := h.invariant.workIds row (mem_of_find hrow)
  have hid := h.invariant.runIds r hmem
  have hchecks : (finishRun row.workId r.runId leaseId l.fence row.stateVersion "SUCCEEDED" "CERTAIN" now).checks = .ok () := by
    refine bind_of (text_ok.mpr hwork) ?_
    refine bind_of (text_ok.mpr hid) ?_
    refine bind_ok.mpr ⟨(),require_ok.mpr (by decide),?_⟩
    exact require_ok.mpr (by decide)
  have hop : (finishRun row.workId r.runId leaseId l.fence row.stateVersion "SUCCEEDED" "CERTAIN" now).operation s =
      .ok (t,r') := by
    refine bind_ok.mpr ⟨r,need_ok.mpr (Option.filter_eq_some_iff.mpr ⟨hget,by simp [hown]⟩),?_⟩
    rw [if_neg (by rw [hactive]; decide)]
    refine bind_of (requireWork_ok.mpr hrow) ?_
    refine bind_of (expectVersion_ok.mpr rfl) ?_
    refine require_bind (.inl hrunning) ?_
    refine bind_of h.required ?_
    refine bind_of (need_ok.mpr honly) ?_
    refine require_bind rfl ?_
    refine require_bind ⟨hlease,congrArg Nat.cast hfence⟩ ?_
    exact bind_of ht rfl
  obtain ⟨hmoves,-,-⟩ := moves_of_append hrow rfl ht ⟨rfl,rfl,rfl,rfl⟩
  obtain ⟨e,hmine,hnow,rfl,hleased⟩ := h.calls ownerId
    (.finishRun row.workId r.runId leaseId l.fence row.stateVersion "SUCCEEDED" "CERTAIN") rfl hchecks (answering_of hop)
    hmoves.leases
  obtain ⟨row',hrow',-,hfinished⟩ := hmoves.new_item
  exact ⟨e,hmine,hnow,hleased,row',hrow',hfinished⟩

theorem Leased.release (ownerId : String) (hrow : s.workItems.get workId = some row)
    (hfinished : row.disposition = .finished) {c : ResourceClaim} (hc : s.heldClaim workId = some c) :
    ∃ e : WorkEvent T, ByOwner workId leaseId ownerId e ∧ e.now = now ∧ (s.next e).workItems.get workId = some row ∧
      (s.next e).heldClaim workId = none := by
  obtain rfl := key_of_get hrow
  have hmem := mem_of_find hc
  have hcheld : c.workId = row.workId ∧ c.state = .held := by simpa using find_some hc
  obtain ⟨hown,hheld⟩ := hcheld
  obtain ⟨l',hl',hlease,hfence⟩ := h.invariant.claimLeases c hmem hheld
  rw [hown,h.held.row] at hl'
  cases hl'
  have hidle : s.activeRun row.workId = none := by
    refine activeRun_eq_none.mpr ?_
    have hfits := h.invariant.fits row (mem_of_find hrow)
    rw [hfinished] at hfits
    exact hfits.1
  have hwork := h.invariant.workIds row (mem_of_find hrow)
  have hchecks : (releaseResource row.workId c.resourceKey leaseId l.fence now).checks = .ok () :=
    bind_of (text_ok.mpr hwork) (text_ok.mpr (h.invariant.claimKeys c hmem))
  have hget : s.resourceClaims.get c.resourceKey = some c := get_of_mem hmem
  let released : ResourceClaim := { c with state := .released }
  let t : WorkKernelStore T := { s with resourceClaims := s.resourceClaims.put released }
  have hop : (releaseResource row.workId c.resourceKey leaseId l.fence now).operation s = .ok (t,released) := by
    refine bind_of h.required ?_
    refine bind_of (need_ok.mpr hget) ?_
    refine require_bind ⟨hown,hlease.trans h.held.lease,congrArg Nat.cast hfence⟩ ?_
    rw [if_neg (by rw [hheld]; decide)]
    refine bind_ok.mpr ⟨(),require_ok.mpr ?_,rfl⟩
    rw [hidle]
    intro r hr
    cases hr
  obtain ⟨e,hmine,hnow,hnext,-⟩ :=
    h.calls ownerId (.releaseResource row.workId c.resourceKey leaseId l.fence) rfl hchecks (answering_of hop) rfl
  refine ⟨e,hmine,hnow,hnext ▸ hrow,hnext ▸ heldClaim_eq_none.mpr fun d hd hdwork hdheld => ?_⟩
  rcases (mem_put hmem (by rfl)).mp hd with rfl | ⟨hd,hkey⟩
  · cases hdheld
  · -- the item held only this claim
    obtain rfl := h.invariant.oneClaim d hd c hmem hdheld hheld (hdwork.trans hown.symm)
    exact hkey rfl

end

/-! ## Exactly the recoverable items -/

def Finishable (s : WorkKernelStore T) (workId leaseId ownerId : String) (now : T) : Prop :=
  ∃ events : List (WorkEvent T), (∀ e ∈ events, ByOwner workId leaseId ownerId e) ∧ From now events ∧
    ∃ row, (events.foldl next s).workItems.get workId = some row ∧ row.disposition = .finished ∧
      (events.foldl next s).heldClaim workId = none

def Recoverable (s : WorkKernelStore T) (row : WorkItem T) (now : T) : Prop :=
  (row.disposition = .running ∨ row.disposition = .ready ∧ s.activeRuns row.workId = [] ∧
    ∃ runId, idText runId = true ∧ s.runs.get runId = none) ∧
  ∃ later ≥ now, ∃ ttl, zero < ttl ∧ ttl ≤ day ∧ later < plus later ttl

theorem from_same {events : List (WorkEvent T)} (h : ∀ e ∈ events, e.now = now) : From now events := by
  induction events with
  | nil => exact trivial
  | cons e rest ih =>
    have he := h e mem_cons_self
    refine ⟨he.ge,?_⟩
    rw [he]
    exact ih fun e' he' => h e' (mem_cons_of_mem e he')

theorem Leased.complete (h : Leased s workId leaseId now l) (ownerId : String) (hruns : Runs s workId leaseId l row r) :
    ∃ events : List (WorkEvent T), (∀ e ∈ events, ByOwner workId leaseId ownerId e) ∧ (∀ e ∈ events, e.now = now) ∧
      ∃ row, (events.foldl WorkKernelStore.next s).workItems.get workId = some row ∧ row.disposition = .finished ∧
        (events.foldl WorkKernelStore.next s).heldClaim workId = none := by
  obtain ⟨e,hmine,hnow,hleased,row',hrow',hfinished⟩ := h.finish ownerId hruns
  cases hheld : (s.next e).heldClaim workId with
  | none => exact ⟨[e],by simpa using hmine,by simpa using hnow,row',hrow',hfinished,hheld⟩
  | some c =>
    obtain ⟨e',hmine',hnow',hkept,hnone⟩ := hleased.release ownerId hrow' hfinished hheld
    refine ⟨[e,e'],?_,?_,row',hkept,hfinished,hnone⟩
    · simpa using ⟨hmine,hmine'⟩
    · simpa using ⟨hnow,hnow'⟩

theorem Recoverable.finishable (hs : KernelInvariant s) (hrow : s.workItems.get workId = some row)
    (hlost : ∀ l, s.leases.get workId = some l → ¬ Live l now) (hlease : idText leaseId = true)
    (howner : ownerText ownerId = true) (hfree : s.leases.find (fun l => l.leaseId == leaseId) = none)
    (h : Recoverable s row now) : Finishable s workId leaseId ownerId now := by
  obtain ⟨hfrom,later,hlater,ttl,hpos,hday,hlasts⟩ := h
  have hid : row.workId = workId := key_of_get hrow
  have hlost' : ∀ l, s.leases.get workId = some l → ¬ Live l later :=
    fun l hl hlive => hlost l hl (hlive.earlier hlater)
  obtain ⟨s₁,l,hnext₁,hleased,hitems,hruns,holder⟩ :=
    acquire_fresh hs hrow hlost' ⟨hpos,hday⟩ hlasts hlease howner hfree
  have hactive : s₁.activeRuns workId = s.activeRuns workId := by rw [activeRuns,hruns,activeRuns]
  have hrow₁ : s₁.workItems.get workId = some row := hitems ▸ hrow
  -- the second call gives the owner the run of the item
  have hsecond : ∃ e : WorkEvent T, ByOwner workId leaseId ownerId e ∧ e.now = later ∧
      Leased (s₁.next e) workId leaseId later l ∧ ∃ row' r, Runs (s₁.next e) workId leaseId l row' r := by
    rcases hfrom with hrunning | ⟨hready,hnone,runId,hrunId,hunused⟩
    · have hfits := hs.fits row (mem_of_find hrow)
      rw [hrunning,hid] at hfits
      obtain ⟨⟨r,hr⟩,-⟩ := hfits
      have hin : r ∈ s.activeRuns workId := by
        rw [hr]
        exact mem_singleton_self r
      obtain ⟨hmem,hown,-⟩ := mem_activeRuns.mp hin
      exact hleased.adopt hrow₁ hrunning (hactive ▸ hin) (holder r hmem hown)
    · rw [hid] at hnone
      exact hleased.start hrow₁ hready (hactive.trans hnone) hrunId (hruns ▸ hunused)
  obtain ⟨e₂,hmine₂,hnow₂,hleased₂,row',r,hrun⟩ := hsecond
  obtain ⟨rest,hmine,hnow,hend⟩ := hleased₂.complete ownerId hrun
  let e₁ : WorkEvent T := ⟨.acquireLease workId leaseId ownerId ttl,later,none⟩
  have hfold : (e₁ :: e₂ :: rest).foldl WorkKernelStore.next s = rest.foldl WorkKernelStore.next (s₁.next e₂) := by
    rw [foldl_cons,foldl_cons,show s.next e₁ = s₁ from hnext₁]
  refine ⟨e₁ :: e₂ :: rest,?_,?_,?_⟩
  · intro e he
    rcases mem_cons.mp he with rfl | he
    · exact ⟨rfl,.inl ⟨ttl,rfl⟩⟩
    · rcases mem_cons.mp he with rfl | he
      · exact hmine₂
      · exact hmine e he
  · refine ⟨hlater,from_same fun e he => ?_⟩
    rcases mem_cons.mp he with rfl | he
    · exact hnow₂
    · exact hnow e he
  · rw [hfold]
    exact hend

theorem Recoverable.of_finished (hs : KernelInvariant s) (hrow : s.workItems.get workId = some row)
    (hopen : row.disposition ≠ .finished) (hlost : ∀ l, s.leases.get workId = some l → ¬ Live l now)
    {events : List (WorkEvent T)} (hfrom : From now events) {row' : WorkItem T}
    (hrow' : (events.foldl WorkKernelStore.next s).workItems.get workId = some row')
    (hfinished : row'.disposition = .finished) : Recoverable s row now := by
  have hid : row.workId = workId := key_of_get hrow
  -- a run that is still active on an item that does not run is lost
  have habandoned : ∀ r ∈ s.activeRuns workId, row.disposition = .waiting ∨ row.disposition = .ready → False := by
    intro r hr hparked
    obtain ⟨hmem,hown,-⟩ := mem_activeRuns.mp hr
    obtain ⟨l,hl,hle⟩ := hs.runLeases r hmem
    rw [hown] at hl
    have hstart : Abandoned workId s now := ⟨row,r,l,hrow,hparked,hr,hl,hle,fun _ => hlost l hl⟩
    obtain ⟨_,hend⟩ := foldl_from (P := Abandoned workId) (fun _ _ _ hs h hle => abandoned_next hs h hle) hs hstart hfrom
    exact hend.unfinished hrow' hfinished
  subst hid
  refine ⟨?_,?_⟩
  · have hfits := hs.fits row (mem_of_find hrow)
    cases hd : row.disposition with
    | running => exact .inl rfl
    | finished => exact absurd hd hopen
    | waiting =>
      rw [hd] at hfits
      obtain ⟨⟨r,hr⟩,-⟩ := hfits
      exact (habandoned r (hr ▸ mem_singleton_self r) (.inl hd)).elim
    | ready =>
      refine .inr ⟨rfl,eq_nil_iff_forall_not_mem.mpr fun r hr => habandoned r hr (.inr hd),?_⟩
      by_contra hfull
      have hstart : Runless row s := by
        refine ⟨hrow,hd,eq_nil_iff_forall_not_mem.mpr fun r hr => habandoned r hr (.inr hd),?_⟩
        intro runId hrunId
        cases hget : s.runs.get runId with
        | none => exact absurd ⟨runId,hrunId,hget⟩ hfull
        | some r => exact ⟨r,rfl⟩
      obtain ⟨_,hend⟩ := foldl_from (P := fun s _ => Runless row s) (fun _ _ e _ h _ => runless_next h e) hs hstart hfrom
      rw [hend.1] at hrow'
      cases hrow'
      exact hopen hfinished
  · by_contra hnever
    have hunleasable : Unleasable now := fun later hlater ttl hpos hday hlasts => hnever ⟨later,hlater,ttl,hpos,hday,hlasts⟩
    obtain ⟨_,hend⟩ := foldl_from (P := Unleased row) (fun _ _ _ _ h hle => unleased_next h hle) hs
      ⟨hrow,hunleasable,hlost⟩ hfrom
    rw [hend.1] at hrow'
    cases hrow'
    exact hopen hfinished

/-- In every state that calls can reach, a fresh owner can finish an item whose lease has run
out, and release its claim, exactly when the item runs, or is ready with no active run. -/
theorem finishable_iff (events : List (WorkEvent T)) {workId leaseId ownerId : String} {now : T} {row : WorkItem T}
    (hrow : (kernelRun events).workItems.get workId = some row) (hopen : row.disposition ≠ .finished)
    (hlost : ∀ l, (kernelRun events).leases.get workId = some l → ¬ Live l now) (hlease : idText leaseId = true)
    (howner : ownerText ownerId = true)
    (hfree : (kernelRun events).leases.find (fun l => l.leaseId == leaseId) = none) :
    Finishable (kernelRun events) workId leaseId ownerId now ↔ Recoverable (kernelRun events) row now := by
  have hs := run_invariant events
  constructor
  · rintro ⟨more,-,hfrom,row',hrow',hfinished,-⟩
    exact .of_finished hs hrow hopen hlost hfrom hrow' hfinished
  · exact Recoverable.finishable hs hrow hlost hlease howner hfree

/-! ## A waiting item -/

def waitingEvents : List (WorkEvent ℤ) :=
  [⟨.createWorkItem "w" "t" "default" (some true),0,none⟩,
    ⟨.acquireLease "w" "l1" "o1" 10,0,none⟩,
    ⟨.startRun "w" "r" "l1" 1 0,1,none⟩,
    ⟨.enterWait "w" "wait" "ci" "l1" 1 1,2,none⟩]

theorem waiting_lease_lost : ∀ l, (kernelRun waitingEvents).leases.get "w" = some l → ¬ Live l 10 := by
  intro l hl hlive
  have hexpires : l.expiresAt = 10 := by
    cases hl
    rfl
  rw [Live,hexpires] at hlive
  exact lt_irrefl _ hlive.2

/-- The item waits when its lease has run out, and no fresh owner can finish it. -/
theorem waiting_item_stranded : ∃ row l, (kernelRun waitingEvents).workItems.get "w" = some row ∧
    row.disposition = .waiting ∧ (kernelRun waitingEvents).leases.get "w" = some l ∧ l.expiresAt = 10 ∧
    ¬ ∃ leaseId ownerId, Finishable (kernelRun waitingEvents) "w" leaseId ownerId 10 := by
  have hrow : ∃ row, (kernelRun waitingEvents).workItems.get "w" = some row ∧ row.disposition = .waiting := ⟨_,rfl,rfl⟩
  obtain ⟨row,hrow,hwaiting⟩ := hrow
  refine ⟨row,_,hrow,hwaiting,rfl,rfl,?_⟩
  rintro ⟨leaseId,ownerId,more,-,hfrom,row',hrow',hfinished,-⟩
  have h := Recoverable.of_finished (run_invariant waitingEvents) hrow (by rw [hwaiting]; decide) waiting_lease_lost hfrom
    hrow' hfinished
  rcases h.1 with hrunning | ⟨hready,-⟩
  · rw [hwaiting] at hrunning
    cases hrunning
  · rw [hwaiting] at hready
    cases hready

theorem waiting_finishable_iff : ∃ row, (kernelRun waitingEvents).workItems.get "w" = some row ∧
    (Finishable (kernelRun waitingEvents) "w" "l2" "o2" 10 ↔ Recoverable (kernelRun waitingEvents) row 10) := by
  refine ⟨_,rfl,finishable_iff waitingEvents rfl ?_ waiting_lease_lost ?_ ?_ ?_⟩
  · decide
  · decide
  · decide
  · rfl

end Bdb.Work
