import Bdb.Base.Histories
import Bdb.Effects.CheckoutSync
import Bdb.Effects.GitRecords
import Bdb.Work.KernelFencing

/-! # Both adapters on one store

The requests of the checkout adapter and what they rest on, what each request does to the rows
and to the leases, and that every ref and every checkout has one row.
-/
namespace Bdb.Effects

open Script List

variable {T : Type} [Work.Seconds T] {g : GitRuntime}

abbrev PromotionLog (T : Type) [Work.Seconds T] := List (Entry (PromotionRequest.Answer (T := T)))

/-! ## What a request rests on -/

def SyncRests (g : GitRuntime) (known : PromotionLog T) : PromotionRequest T → Prop
  | .git q => ∃ earlier : GitLog T, Rests g earlier q ∧ ∀ e ∈ earlier, ⟨.git e.1,e.2⟩ ∈ known
  | .insertSync r => r.resourceKey = checkoutResourceKey g.runtime r.place.1 r.place.2
  | .persistSync r certainty observation => (∃ effectId, ⟨.readSync effectId,some r⟩ ∈ known) ∧
      (certainty = .ambiguous ∨
        certainty = classify r observation ∧ ⟨.observeCheckout r.checkoutRoot,Except.ok observation⟩ ∈ known)
  | .sync r _ => (∃ effectId, ⟨.readSync effectId,some r⟩ ∈ known) ∧
      ⟨.git (.assertLease r.workId r.leaseId r.fence),Except.ok ()⟩ ∈ known
  | _ => True

variable {known : PromotionLog T}

theorem concat_cons {e : Entry (PromotionRequest.Answer (T := T))} {more : PromotionLog T} :
    known ++ [e] ++ more = known ++ (e :: more) := append_assoc known [e] more

/-- What a part of a call answers was read from the table. -/
def SyncReadIn (more : PromotionLog T) (o : Outcome CheckoutSyncEffect) : Prop :=
  ∀ r, o = .ok r → ∃ effectId, ⟨.readSync effectId,some r⟩ ∈ more

theorem freely {q : GitRequest T} (h : Rests g [] q) : SyncRests g known (.git q) :=
  ⟨[],h,fun _ he => absurd he not_mem_nil⟩

variable {effectId : String}

theorem sourcePromotion_informed {k : SyncThen T PreparedGitEffect}
    (hk : ∀ more o, Informed (SyncRests g) (known ++ more) (k o)) : Informed (SyncRests g) known (sourcePromotion effectId k) := by
  unfold sourcePromotion
  split
  · rw [← append_nil known]
    exact hk [] _
  · exact ⟨freely trivial,fun found => hk _ _⟩

variable {r : CheckoutSyncEffect} {k : SyncThen T CheckoutSyncEffect}

theorem persistSync_informed {certainty : EffectCertainty} {observation : CheckoutObservation}
    (hrests : SyncRests g known (.persistSync r certainty observation))
    (hk : ∀ more o, SyncReadIn more o → Informed (SyncRests g) (known ++ more) (k o)) :
    Informed (SyncRests g) known (persistSyncObservation r certainty observation k) := by
  refine ⟨hrests,fun u => ⟨trivial,fun current => ?_⟩⟩
  rw [concat_cons]
  refine hk _ _ fun found hfound => ⟨r.effectId,?_⟩
  obtain rfl : current = some found := need_ok.mp hfound
  simp

theorem reconcileSync_informed
    (hk : ∀ more o, SyncReadIn more o → Informed (SyncRests g) (known ++ more) (k o)) :
    Informed (SyncRests g) known (reconcileSync effectId k) := by
  refine ⟨trivial,fun found => ?_⟩
  cases found with
  | none => exact hk _ _ fun r hr => nomatch hr
  | some r =>
    refine sourcePromotion_informed fun more o => ?_
    rw [append_assoc]
    cases o with
    | error e => exact hk _ _ fun r hr => nomatch hr
    | ok source =>
      refine ⟨trivial,fun answer => ?_⟩
      rw [append_assoc]
      have hpersist : ∀ certainty observation,
          (certainty = .ambiguous ∨ certainty = classify r observation ∧ answer = Except.ok observation) →
          Informed (SyncRests g) (known ++ ([⟨.readSync effectId,some r⟩] ++ more ++ [⟨.observeCheckout r.checkoutRoot,answer⟩]))
            (persistSyncObservation r certainty observation k) := by
        intro certainty observation hcertain
        refine persistSync_informed ⟨⟨effectId,by simp⟩,hcertain.imp_right ?_⟩ fun more' o ho => ?_
        · rintro ⟨hclass,rfl⟩
          exact ⟨hclass,by simp⟩
        · rw [append_assoc]
          refine hk _ _ fun found hfound => ?_
          obtain ⟨id,hid⟩ := ho found hfound
          exact ⟨id,mem_append_right _ hid⟩
      cases answer with
      | ok observation => exact hpersist _ _ (.inr ⟨rfl,rfl⟩)
      | error e => exact hpersist _ _ (.inl rfl)

theorem assertSyncRun_informed {k : SyncThen T Unit}
    (hk : ∀ more o, (o = .ok () → ⟨.git (.assertLease r.workId r.leaseId r.fence),Except.ok ()⟩ ∈ more) →
      Informed (SyncRests g) (known ++ more) (k o)) :
    Informed (SyncRests g) known (assertSyncRun r k) := by
  refine ⟨freely trivial,fun found => ?_⟩
  dsimp only
  split
  · exact hk _ _ nofun
  · refine ⟨freely trivial,fun lease => ?_⟩
    rw [append_assoc]
    cases lease with
    | error e => exact hk _ _ nofun
    | ok u => exact hk _ _ fun _ => by simp

theorem applySyncIfSafe_informed {fate : SyncFate} :
    Informed (SyncRests (T := T) g) known (applySyncIfSafe effectId fate) := by
  refine ⟨trivial,fun found => ?_⟩
  cases found with
  | none => exact trivial
  | some r =>
    refine reconcileSync_informed fun more o ho => ?_
    cases o with
    | error e => exact trivial
    | ok observed =>
      dsimp only
      split
      · exact trivial
      · refine assertSyncRun_informed fun more' o' _ => ?_
        cases o' with
        | error e => exact trivial
        | ok u =>
          refine ⟨trivial,fun marked => ?_⟩
          cases marked with
          | error e => exact trivial
          | ok u =>
            refine ⟨trivial,fun found => ?_⟩
            cases found with
            | none => exact trivial
            | some possible =>
              refine assertSyncRun_informed fun more'' o'' hlease => ?_
              cases o'' with
              | error e => exact trivial
              | ok u =>
                refine ⟨⟨⟨observed.effectId,by simp⟩,mem_append_right _ (hlease rfl)⟩,fun answer => ?_⟩
                cases answer with
                | error e => exact trivial
                | ok synced =>
                  refine reconcileSync_informed fun _ o _ => ?_
                  cases o with
                  | error e => exact trivial
                  | ok final => exact trivial
      all_goals exact trivial

theorem storeSync_informed (h : r.resourceKey = checkoutResourceKey g.runtime r.place.1 r.place.2) :
    Informed (SyncRests (T := T) g) known (storeSync r) := by
  refine ⟨h,fun stored => ?_⟩
  cases stored with
  | ok u => exact ⟨trivial,fun found => trivial⟩
  | error e =>
    refine ⟨trivial,fun existing => ?_⟩
    dsimp only
    split
    all_goals exact trivial

theorem prepareSync_informed (sourceEffectId workId runId : String) :
    Informed (SyncRests (T := T) g) known (prepareSync g.runtime sourceEffectId workId runId) := by
  refine sourcePromotion_informed fun more o => ?_
  cases o with
  | error e => exact trivial
  | ok source =>
    refine ⟨freely trivial,fun bound => ?_⟩
    cases bound with
    | error e => exact trivial
    | ok u =>
      dsimp only
      split
      · exact trivial
      · refine ⟨trivial,fun existing => ?_⟩
        cases existing with
        | some existing =>
          dsimp only
          split
          all_goals exact trivial
        | none =>
          refine ⟨freely trivial,fun found => ?_⟩
          dsimp only
          split
          · exact trivial
          · refine ⟨freely trivial,fun lease => ?_⟩
            cases lease with
            | error e => exact trivial
            | ok u =>
              refine ⟨trivial,fun change => ?_⟩
              cases change with
              | error e => exact trivial
              | ok change =>
                refine ⟨trivial,fun observed => ?_⟩
                cases observed with
                | error e => exact trivial
                | ok observation =>
                  dsimp only
                  split
                  · refine ⟨freely trivial,fun claimed => ?_⟩
                    cases claimed with
                    | error e => exact trivial
                    | ok u => exact storeSync_informed rfl
                  · exact trivial

theorem promotion_informed (c : PromotionCall T) : Informed (SyncRests g) [] (c.program g) := by
  cases c with
  | git c =>
    refine Informed.map (.lift (P := Rests g) ?_ (program_informed c) fun _ he => absurd he not_mem_nil) _
    intro earlier known q hrests hearlier
    refine ⟨earlier,hrests,fun e he => ?_⟩
    obtain ⟨a,ha,rfl⟩ := hearlier e he
    exact ha
  | prepareSync sourceEffectId workId runId => exact prepareSync_informed sourceEffectId workId runId
  | reconcileSync effectId =>
    refine reconcileSync_informed (T := T) (k := fun o => .done (o.map .sync)) fun more o _ => ?_
    exact trivial
  | applySyncIfSafe effectId fate => exact applySyncIfSafe_informed
  | setCheckout root c => exact ⟨trivial,fun u => trivial⟩

/-! ## Rows of checkout effects -/

section Rows

variable {w : PromotionWorld T} {r row : CheckoutSyncEffect}

omit [Work.Seconds T] in
theorem of_sync_identity {α : Type} (f : CheckoutSyncEffect → α) (h : r.identity = row.identity)
    (hf : ∀ r : CheckoutSyncEffect, f r.identity = f r := by exact fun _ => rfl) : f r = f row := by
  rw [← hf r,h,hf]

omit [Work.Seconds T] in
theorem mem_updateSync {p : CheckoutSyncEffect → Bool} {state : EffectState} {certainty : EffectCertainty}
    {observation : CheckoutSyncEffect → Option CheckoutObservation} :
    row ∈ (w.updateSync p state certainty observation).syncs.rows ↔ ∃ old ∈ w.syncs.rows, row =
      if p old = true then { old with state := state, effectCertainty := certainty, observation := observation old } else old := by
  unfold PromotionWorld.updateSync Table.change
  simp only [mem_map]
  exact ⟨fun ⟨old,hold,h⟩ => ⟨old,hold,h.symm⟩,fun ⟨old,hold,h⟩ => ⟨old,hold,h.symm⟩⟩

/-- A checkout row after a request is a row before it, as was or with another observation, or a new one. -/
inductive SyncCame (w : PromotionWorld T) (q : PromotionRequest T) (row : CheckoutSyncEffect) : Prop
  | kept (h : row ∈ w.syncs.rows)
  | stored (old : CheckoutSyncEffect) (hold : old ∈ w.syncs.rows) (hsame : row.identity = old.identity)
      (hcertain : row.effectCertainty = .after → ∃ r observation, q = .persistSync r .after observation ∧
        old.workId = r.workId ∧ old.effectId = r.effectId)
  | inserted (hq : q = .insertSync row)
      (hnew : ∀ other ∈ w.syncs.rows, other.effectId ≠ row.effectId ∧ other.resourceKey ≠ row.resourceKey)

def writesSyncs (q : PromotionRequest T) : Bool :=
  match q with
  | .insertSync _ | .persistSync _ _ _ | .markSyncPossible _ => true
  | _ => false

theorem syncs_perform {q : PromotionRequest T} (h : writesSyncs q = false) : (q.perform g w).1.syncs = w.syncs := by
  cases q with
  | insertSync r | persistSync r certainty observation | markSyncPossible r => cases h
  | sync r fate =>
    cases fate with
    | ran =>
      simp only [PromotionRequest.perform,applyCheckout]
      split
      · split
        · rfl
        · rfl
      · rfl
    | failed left => rfl
    | lost left => rfl
  | _ => rfl

theorem syncCame (q : PromotionRequest T) (h : row ∈ (q.perform g w).1.syncs.rows) : SyncCame w q row := by
  cases hwrites : writesSyncs q with
  | false => exact .kept (syncs_perform (g := g) hwrites ▸ h)
  | true =>
    cases q with
    | insertSync r =>
      simp only [PromotionRequest.perform,PromotionWorld.insertSync] at h
      split at h
      · exact .kept h
      · rename_i hnew
        split at h
        · exact .kept h
        · rename_i syncs hsyncs
          rcases (Table.mem_insert hsyncs).mp h with h | rfl
          · exact .kept h
          · refine .inserted rfl fun other hother => ⟨fun hid => ?_,fun hkey => ?_⟩
            · exact hnew ⟨other,hother,.inl hid⟩
            · exact hnew ⟨other,hother,.inr hkey⟩
    | persistSync r certainty observation =>
      obtain ⟨old,hold,rfl⟩ := mem_updateSync.mp h
      split
      · rename_i hp
        have hrow := of_decide_eq_true hp
        refine .stored old hold rfl fun hafter => ⟨r,observation,?_,hrow.1,hrow.2⟩
        exact congrArg (PromotionRequest.persistSync r · observation) hafter
      · exact .kept hold
    | markSyncPossible r =>
      simp only [PromotionRequest.perform,PromotionWorld.markSyncPossible] at h
      split at h
      · obtain ⟨old,hold,rfl⟩ := mem_updateSync.mp h
        split
        · exact .stored old hold rfl nofun
        · exact .kept hold
      · exact .kept h
    | _ => cases hwrites

theorem syncs_stay (q : PromotionRequest T) (h : row ∈ w.syncs.rows) :
    ∃ row' ∈ (q.perform g w).1.syncs.rows, row'.identity = row.identity := by
  have hupdate : ∀ p state certainty observation,
      ∃ row' ∈ (w.updateSync p state certainty observation).syncs.rows, row'.identity = row.identity := by
    intro p state certainty observation
    refine ⟨_,mem_updateSync.mpr ⟨row,h,rfl⟩,?_⟩
    split
    · rfl
    · rfl
  cases hwrites : writesSyncs q with
  | false => exact ⟨row,by rwa [syncs_perform hwrites],rfl⟩
  | true =>
    cases q with
    | insertSync r =>
      simp only [PromotionRequest.perform,PromotionWorld.insertSync]
      split
      · exact ⟨row,h,rfl⟩
      · split
        · exact ⟨row,h,rfl⟩
        · rename_i syncs hsyncs
          exact ⟨row,(Table.mem_insert hsyncs).mpr (.inl h),rfl⟩
    | persistSync r certainty observation => exact hupdate _ _ _ _
    | markSyncPossible r =>
      simp only [PromotionRequest.perform,PromotionWorld.markSyncPossible]
      split
      · exact hupdate _ _ _ _
      · exact ⟨row,h,rfl⟩
    | _ => cases hwrites

theorem git_perform (q : PromotionRequest T) : (q.perform g w).1.git = w.git ∨
    ∃ q', q = .git q' ∧ (q.perform g w).1.git = (q'.perform g w.git).1 := by
  cases q with
  | git q => exact .inr ⟨q,rfl,rfl⟩
  | insertSync r =>
    refine .inl ?_
    simp only [PromotionRequest.perform,PromotionWorld.insertSync]
    split
    · rfl
    · split
      · rfl
      · rfl
  | markSyncPossible r =>
    refine .inl ?_
    simp only [PromotionRequest.perform,PromotionWorld.markSyncPossible]
    split
    · rfl
    · rfl
  | sync r fate =>
    refine .inl ?_
    cases fate with
    | ran =>
      simp only [PromotionRequest.perform,applyCheckout]
      split
      · split
        · rfl
        · rfl
      · rfl
    | failed left => rfl
    | lost left => rfl
  | _ => exact .inl rfl

theorem git_rows_stay {row : PreparedGitEffect} (q : PromotionRequest T) (h : row ∈ w.git.effects.rows) :
    ∃ row' ∈ (q.perform g w).1.git.effects.rows, row'.identity = row.identity := by
  rcases git_perform (g := g) (w := w) q with hsame | ⟨q',-,hgit⟩
  · exact ⟨row,by rwa [hsame],rfl⟩
  · rw [hgit]
    exact stays q' h

end Rows

/-! ## Leases -/

theorem claimResource_next (s : Work.WorkKernelStore T) (workId resourceKey leaseId : String) (fence : ℤ) (now : T) :
    ((Work.claimResource workId resourceKey leaseId fence now).write none s).1 =
      s.next ⟨.claimResource workId resourceKey leaseId fence,now,none⟩ := by
  simp only [Work.WorkKernelStore.next,Work.WorkEvent.perform,Work.WorkCall.operation,Work.Operation.answering,
    Work.Operation.write]
  generalize (Work.claimResource workId resourceKey leaseId fence now).checks = checks
  generalize (Work.claimResource workId resourceKey leaseId fence now).operation s = done
  cases checks with
  | error e => rfl
  | ok u =>
    cases done with
    | error e => rfl
    | ok p => rfl

theorem kernel_perform (q : GitRequest T) (w : EffectWorld T) :
    (q.perform g w).1.kernel = w.kernel ∨ ∃ e, (q.perform g w).1.kernel = w.kernel.next e := by
  cases q with
  | claimResource workId resourceKey leaseId fence => exact .inr ⟨_,claimResource_next _ _ _ _ _ _⟩
  | insert r =>
    refine .inl ?_
    simp only [GitRequest.perform,EffectWorld.insertEffect]
    split
    · rfl
    · split
      · rfl
      · rfl
  | markPossible r =>
    refine .inl ?_
    simp only [GitRequest.perform,EffectWorld.markPossible]
    split
    · rfl
    · rfl
  | materializeTree candidate =>
    refine .inl ?_
    simp only [GitRequest.perform,materializeTree]
    split
    · rfl
    · rfl
  | materializeCommit treeOid baseCommitOid metadata =>
    refine .inl ?_
    simp only [GitRequest.perform,materializeCommit]
    split
    · rfl
    · rfl
  | cas r fate => cases fate with | _ => exact .inl rfl
  | outside o =>
    cases o with
    | kernel event => exact .inr ⟨event,rfl⟩
    | _ => exact .inl rfl
  | _ => exact .inl rfl

/-- The lease of a work item has gone to a later holder. -/
def TakenOver (kernel : Work.WorkKernelStore T) (workId : String) (fence : ℕ) : Prop :=
  ∃ l, kernel.leases.get workId = some l ∧ fence < l.fence

theorem TakenOver.perform {workId : String} {fence : ℕ} {w : PromotionWorld T} (h : TakenOver w.git.kernel workId fence)
    (q : PromotionRequest T) : TakenOver (q.perform g w).1.git.kernel workId fence := by
  rcases git_perform (g := g) (w := w) q with hsame | ⟨q',-,hgit⟩
  · rwa [hsame]
  · rw [hgit]
    obtain ⟨l,hl,hfence⟩ := h
    rcases kernel_perform (g := g) q' w.git with hkernel | ⟨e,hkernel⟩
    · exact ⟨l,by rwa [hkernel],hfence⟩
    · rw [hkernel]
      obtain ⟨l',hl',hsucceeds⟩ := Work.next_lease hl e
      refine ⟨l',hl',?_⟩
      rcases hsucceeds with hlater | ⟨hequal,-⟩
      · exact hfence.trans hlater
      · rwa [hequal]

theorem TakenOver.stale {kernel : Work.WorkKernelStore T} {workId leaseId : String} {fence fence' : ℕ} {now : T}
    (h : TakenOver kernel workId fence) (hassert : (kernel.assertCurrentLease workId leaseId fence' now).map (fun _ => ()) = .ok ()) :
    fence' ≠ fence := by
  obtain ⟨l,hl,hfence⟩ := h
  cases hlease : kernel.assertCurrentLease workId leaseId fence' now with
  | error e =>
    rw [hlease] at hassert
    cases hassert
  | ok a =>
    unfold Work.WorkKernelStore.assertCurrentLease at hlease
    obtain ⟨_,hlease⟩ := rest_ok hlease
    obtain ⟨l',hl',-⟩ := bind_ok.mp hlease
    unfold Work.WorkKernelStore.requireLease at hl'
    obtain ⟨_,-,hl'⟩ := bind_ok.mp hl'
    obtain ⟨_,-,hl'⟩ := bind_ok.mp hl'
    obtain ⟨found,hfound,hl'⟩ := of_need hl'
    obtain ⟨_,-,hl'⟩ := bind_ok.mp hl'
    obtain ⟨_,hsame,-⟩ := bind_ok.mp hl'
    obtain rfl := some_unique hl hfound
    have hequal : l.fence = fence' := Int.ofNat_inj.mp (require_ok.mp hsame)
    omega

/-! ## One row for each place -/

structure Placed (g : GitRuntime) (w : PromotionWorld T) : Prop where
  gitKeys : ∀ r ∈ w.git.effects.rows, r.resourceKey = gitResourceKey g.runtime r.place.repository r.place.ref
  gitApart : ∀ r ∈ w.git.effects.rows, ∀ r' ∈ w.git.effects.rows, r.resourceKey = r'.resourceKey → r.workId = r'.workId
  syncKeys : ∀ r ∈ w.syncs.rows, r.resourceKey = checkoutResourceKey g.runtime r.place.1 r.place.2
  syncApart : ∀ r ∈ w.syncs.rows, ∀ r' ∈ w.syncs.rows, r.resourceKey = r'.resourceKey → r.workId = r'.workId

section One

variable {w : PromotionWorld T}

omit [Work.Seconds T] in
theorem Placed.git_one (h : Placed g w) {r r' : PreparedGitEffect} (hr : r ∈ w.git.effects.rows)
    (hr' : r' ∈ w.git.effects.rows) (hplace : r.place = r'.place) : r.workId = r'.workId :=
  h.gitApart r hr r' hr' (by rw [h.gitKeys r hr,h.gitKeys r' hr',hplace])

omit [Work.Seconds T] in
theorem Placed.sync_one (h : Placed g w) {r r' : CheckoutSyncEffect} (hr : r ∈ w.syncs.rows)
    (hr' : r' ∈ w.syncs.rows) (hplace : r.place = r'.place) : r.workId = r'.workId :=
  h.syncApart r hr r' hr' (by rw [h.syncKeys r hr,h.syncKeys r' hr',hplace])

variable {q : PromotionRequest T}

theorem git_origin {row : PreparedGitEffect} (h : row ∈ (q.perform g w).1.git.effects.rows) :
    (∃ old ∈ w.git.effects.rows, row.identity = old.identity) ∨
      q = .git (.insert row) ∧ ∀ other ∈ w.git.effects.rows, other.resourceKey ≠ row.resourceKey := by
  rcases git_perform (g := g) (w := w) q with hsame | ⟨q',hq,hgit⟩
  · exact .inl ⟨row,by rwa [hsame] at h,rfl⟩
  · rw [hgit] at h
    cases came q' h with
    | kept hold => exact .inl ⟨row,hold,rfl⟩
    | stored old hold hsame hcertain => exact .inl ⟨old,hold,hsame⟩
    | inserted hinsert hnew => exact .inr ⟨hinsert ▸ hq,fun other hother => (hnew other hother).2⟩

theorem sync_origin {row : CheckoutSyncEffect} (h : row ∈ (q.perform g w).1.syncs.rows) :
    (∃ old ∈ w.syncs.rows, row.identity = old.identity) ∨
      q = .insertSync row ∧ ∀ other ∈ w.syncs.rows, other.resourceKey ≠ row.resourceKey := by
  cases syncCame q h with
  | kept hold => exact .inl ⟨row,hold,rfl⟩
  | stored old hold hsame hcertain => exact .inl ⟨old,hold,hsame⟩
  | inserted hinsert hnew => exact .inr ⟨hinsert,fun other hother => (hnew other hother).2⟩

theorem Placed.perform {known : PromotionLog T} (h : Placed g w) (hrests : SyncRests g known q) :
    Placed g (q.perform g w).1 where
  gitKeys := by
    intro r hr
    rcases git_origin hr with ⟨old,hold,hsame⟩ | ⟨rfl,-⟩
    · rw [of_identity (·.resourceKey) hsame,of_identity (·.place) hsame]
      exact h.gitKeys old hold
    · obtain ⟨earlier,⟨candidate,treeOid,commitOid,metadata,current,-,-,-,-,hmade,-⟩,-⟩ := hrests
      exact hmade.resource
  gitApart := by
    intro r hr r' hr' hkey
    rcases git_origin hr with ⟨old,hold,hsame⟩ | ⟨rfl,hnew⟩
    · rw [of_identity (·.resourceKey) hsame] at hkey
      rw [of_identity (·.workId) hsame]
      rcases git_origin hr' with ⟨old',hold',hsame'⟩ | ⟨rfl,hnew'⟩
      · rw [of_identity (·.resourceKey) hsame'] at hkey
        rw [of_identity (·.workId) hsame']
        exact h.gitApart old hold old' hold' hkey
      · exact absurd hkey (hnew' old hold)
    · rcases git_origin hr' with ⟨old',hold',hsame'⟩ | ⟨hq,-⟩
      · rw [of_identity (·.resourceKey) hsame'] at hkey
        exact absurd hkey.symm (hnew old' hold')
      · cases hq
        rfl
  syncKeys := by
    intro r hr
    rcases sync_origin hr with ⟨old,hold,hsame⟩ | ⟨rfl,-⟩
    · rw [of_sync_identity (·.resourceKey) hsame,of_sync_identity (·.place) hsame]
      exact h.syncKeys old hold
    · exact hrests
  syncApart := by
    intro r hr r' hr' hkey
    rcases sync_origin hr with ⟨old,hold,hsame⟩ | ⟨rfl,hnew⟩
    · rw [of_sync_identity (·.resourceKey) hsame] at hkey
      rw [of_sync_identity (·.workId) hsame]
      rcases sync_origin hr' with ⟨old',hold',hsame'⟩ | ⟨rfl,hnew'⟩
      · rw [of_sync_identity (·.resourceKey) hsame'] at hkey
        rw [of_sync_identity (·.workId) hsame']
        exact h.syncApart old hold old' hold' hkey
      · exact absurd hkey (hnew' old hold)
    · rcases sync_origin hr' with ⟨old',hold',hsame'⟩ | ⟨hq,-⟩
      · rw [of_sync_identity (·.resourceKey) hsame'] at hkey
        exact absurd hkey.symm (hnew old' hold')
      · cases hq
        rfl

end One

end Bdb.Effects
