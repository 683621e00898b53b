import Bdb.Effects.SwappedOnce
import Bdb.Effects.SyncRecords

/-! # Promotions that cannot go on

Every ref and every checkout has one effect row, which is never taken away, and a row keeps the
lease and the fence it was prepared under. So a ref that was promoted once is never promoted by
another work item, and an effect whose lease was taken over is never finished by its new owner.
-/
namespace Bdb.Effects

open Shared List Table

variable {T : Type} [Work.Seconds T] {g : GitRuntime}

/-- The stores of both adapters before any effect was prepared. -/
structure PromotionOpening (T : Type) where
  world : PromotionWorld T
  unusedEffects : world.git.effects.rows = []
  unusedSyncs : world.syncs.rows = []

abbrev PromotionState (T : Type) [Work.Seconds T] :=
  Shared (PromotionWorld T) (PromotionRequest.Answer (T := T)) (Outcome PromotionAnswer)

variable (g) in
/-- The state after moves of workers that begin on a store; those before them have stopped. -/
def promotionRun (w : PromotionWorld T) (moves : List (Move (PromotionCall T))) : PromotionState T :=
  run (PromotionRequest.perform g) (PromotionCall.program g) (begin w) moves

variable {w : PromotionWorld T} {moves : List (Move (PromotionCall T))}

/-! ## One effect for each ref and each checkout -/

omit [Work.Seconds T] in
theorem PromotionOpening.placed (o : PromotionOpening T) : Placed g o.world where
  gitKeys := by simp [o.unusedEffects]
  gitApart := by simp [o.unusedEffects]
  syncKeys := by simp [o.unusedSyncs]
  syncApart := by simp [o.unusedSyncs]

theorem placed_run (h : Placed g w) (moves : List (Move (PromotionCall T))) : Placed g (promotionRun g w moves).store :=
  invariant_of_informed (I := fun s _ => Placed g s) promotion_informed (fun _ _ _ _ hs _ _ hrests => hs.perform hrests)
    along_true h

theorem kept_by_run {I : PromotionWorld T → Prop} (hstep : ∀ s q, I s → I (PromotionRequest.perform g q s).1) (h : I w)
    (moves : List (Move (PromotionCall T))) : I (promotionRun g w moves).store :=
  invariant_of_run (I := fun s _ => I s) (fun s _ q hs => hstep s q hs) h

theorem git_row_stays {r : PreparedGitEffect} (h : r ∈ w.git.effects.rows) (moves : List (Move (PromotionCall T))) :
    ∃ row ∈ (promotionRun g w moves).store.git.effects.rows, row.identity = r.identity := by
  refine kept_by_run (I := fun s => ∃ row ∈ s.git.effects.rows, row.identity = r.identity) ?_ ⟨r,h,rfl⟩ moves
  rintro s q ⟨row,hrow,hsame⟩
  obtain ⟨row',hrow',hsame'⟩ := git_rows_stay (g := g) q hrow
  exact ⟨row',hrow',hsame'.trans hsame⟩

theorem sync_row_stays {r : CheckoutSyncEffect} (h : r ∈ w.syncs.rows) (moves : List (Move (PromotionCall T))) :
    ∃ row ∈ (promotionRun g w moves).store.syncs.rows, row.identity = r.identity := by
  refine kept_by_run (I := fun s => ∃ row ∈ s.syncs.rows, row.identity = r.identity) ?_ ⟨r,h,rfl⟩ moves
  rintro s q ⟨row,hrow,hsame⟩
  obtain ⟨row',hrow',hsame'⟩ := syncs_stay (g := g) q hrow
  exact ⟨row',hrow',hsame'.trans hsame⟩

def PromotedAgain (r : PreparedGitEffect) (s : PromotionWorld T) : Prop :=
  ∃ r' ∈ s.git.effects.rows, r'.place = r.place ∧ r'.workId ≠ r.workId

def SyncedAgain (r : CheckoutSyncEffect) (s : PromotionWorld T) : Prop :=
  ∃ r' ∈ s.syncs.rows, r'.place = r.place ∧ r'.workId ≠ r.workId

theorem never_promotedAgain (h : Placed g w) {r : PreparedGitEffect} (hr : r ∈ w.git.effects.rows)
    (moves : List (Move (PromotionCall T))) : ¬ PromotedAgain r (promotionRun g w moves).store := by
  rintro ⟨r',hr',hplace,hother⟩
  obtain ⟨row,hrow,hsame⟩ := git_row_stays (g := g) hr moves
  refine hother ((placed_run h moves).git_one hr' hrow ?_ |>.trans (of_identity (·.workId) hsame))
  exact hplace.trans (of_identity (·.place) hsame).symm

theorem never_syncedAgain (h : Placed g w) {r : CheckoutSyncEffect} (hr : r ∈ w.syncs.rows)
    (moves : List (Move (PromotionCall T))) : ¬ SyncedAgain r (promotionRun g w moves).store := by
  rintro ⟨r',hr',hplace,hother⟩
  obtain ⟨row,hrow,hsame⟩ := sync_row_stays (g := g) hr moves
  refine hother ((placed_run h moves).sync_one hr' hrow ?_ |>.trans (of_sync_identity (·.workId) hsame))
  exact hplace.trans (of_sync_identity (·.place) hsame).symm

/-! ## Effects whose lease was taken over -/

def LeavesRef (r : PreparedGitEffect) (q : PromotionRequest T) : Prop :=
  ∀ value, q ≠ .git (.outside (.moveRef r.place value))

/-- An effect that was taken over in the before state stays in it, and what was told of it says so. -/
structure Abandoned (g : GitRuntime) (r : PreparedGitEffect) (w : PromotionWorld T) (log : PromotionLog T) : Prop where
  placed : Placed g w
  row : ∃ row ∈ w.git.effects.rows, row.identity = r.identity ∧ row.effectCertainty ≠ .after
  taken : TakenOver w.git.kernel r.workId r.fence
  before : classification r (w.git.refs.lookup r.place) = .before
  asserted : ∀ leaseId fence, ⟨.git (.assertLease r.workId leaseId fence),Except.ok ()⟩ ∈ log → fence ≠ r.fence
  reads : ∀ effectId r', ⟨.git (.readEffect effectId),some r'⟩ ∈ log → ∃ row ∈ w.git.effects.rows, row.identity = r'.identity
  observed : ∀ r' v, ⟨.git (.observe r'),Except.ok v⟩ ∈ log → r'.place = r.place → classification r v = .before

section Abandoned

variable {r : PreparedGitEffect} {log known : PromotionLog T} {q : PromotionRequest T}

section

variable (h : Abandoned g r w log)

include h

theorem Abandoned.read_eq {r' : PreparedGitEffect} {effectId : String}
    (hread : ⟨.git (.readEffect effectId),some r'⟩ ∈ log) (hwork : r'.workId = r.workId) : r'.identity = r.identity := by
  obtain ⟨row,hrow,hsame⟩ := h.reads effectId r' hread
  obtain ⟨mine,hmine,hident,-⟩ := h.row
  have hkey : row.workId = mine.workId := (of_identity (·.workId) hsame).trans
    (hwork.trans (of_identity (·.workId) hident).symm)
  rw [← hsame,eq_of_key hrow hmine hkey,hident]

theorem Abandoned.no_swap (hknown : known.Sublist log) {r' : PreparedGitEffect} {fate : CasFate}
    (hrests : SyncRests g known (.git (.cas r' fate))) : r'.workId ≠ r.workId := by
  obtain ⟨earlier,⟨howned,hallowed⟩,hearlier⟩ := hrests
  obtain ⟨q,-,-,-,hlease⟩ := howned
  obtain ⟨effectId,hread⟩ := hallowed.read
  intro hwork
  have hsame := h.read_eq (hknown.subset (hearlier _ hread)) hwork
  have hlogged := hknown.subset (hearlier _ hlease)
  rw [hwork] at hlogged
  exact h.asserted _ _ hlogged (of_identity (·.fence) hsame)

theorem Abandoned.not_stored (hknown : known.Sublist log) {seen : PreparedGitEffect}
    {observed : Option Oid} {reason : String} (hwork : seen.workId = r.workId)
    (hrests : SyncRests g known (.git (.persist seen .after observed reason))) : False := by
  obtain ⟨earlier,⟨⟨effectId,hread⟩,hclass⟩,hearlier⟩ := hrests
  have hsame := h.read_eq (hknown.subset (hearlier _ hread)) hwork
  rcases hclass with hclass | ⟨hclass,hobserve⟩
  · cases hclass
  · have hbefore := h.observed seen observed (hknown.subset (hearlier _ hobserve)) (of_identity (·.place) hsame)
    rw [of_identity (classification · observed) hsame,hbefore] at hclass
    cases hclass

theorem Abandoned.row_perform (hknown : known.Sublist log) (hrests : SyncRests g known q) :
    ∃ row ∈ (q.perform g w).1.git.effects.rows, row.identity = r.identity ∧ row.effectCertainty ≠ .after := by
  obtain ⟨mine,hmine,hident,hbefore⟩ := h.row
  obtain ⟨row,hrow,hsame⟩ := git_rows_stay (g := g) q hmine
  refine ⟨row,hrow,hsame.trans hident,fun hafter => ?_⟩
  have hone : ∀ old ∈ w.git.effects.rows, row.identity = old.identity → old = mine := fun old hold hold' =>
    eq_of_key hold hmine (of_identity (·.workId) (hold'.symm.trans hsame))
  rcases git_perform (g := g) (w := w) q with hgit | ⟨q',rfl,hgit⟩
  · rw [hgit] at hrow
    obtain rfl := hone row hrow rfl
    exact hbefore hafter
  · rw [hgit] at hrow
    cases came q' hrow with
    | kept hold =>
      obtain rfl := hone row hold rfl
      exact hbefore hafter
    | stored old hold hold' hcertain =>
      obtain ⟨seen,observed,reason,rfl,hwork,-⟩ := hcertain hafter
      obtain rfl := hone old hold hold'
      exact h.not_stored hknown (hwork.symm.trans (of_identity (·.workId) hident)) hrests
    | inserted hq hnew =>
      subst hq
      obtain ⟨earlier,⟨candidate,treeOid,commitOid,metadata,current,-,-,-,-,-,hfresh⟩,-⟩ := hrests
      rw [hfresh] at hafter
      cases hafter

theorem Abandoned.ref_perform (hleaves : LeavesRef r q) (hknown : known.Sublist log)
    (hrests : SyncRests g known q) : (q.perform g w).1.git.refs.lookup r.place = w.git.refs.lookup r.place := by
  rcases git_perform (g := g) (w := w) q with hgit | ⟨q',rfl,hgit⟩
  · rw [hgit]
  · rw [hgit]
    cases moved (g := g) (w := w.git) q' with
    | same hrefs => rw [hrefs]
    | swapped r' fate hcas hswaps hrefs =>
      subst hcas
      have hother := h.no_swap hknown hrests
      rw [hrefs,Refs.lookup_set,if_neg]
      intro hplace
      obtain ⟨earlier,⟨-,hallowed⟩,hearlier⟩ := hrests
      obtain ⟨effectId,hread⟩ := hallowed.read
      obtain ⟨row,hrow,hsame⟩ := h.reads effectId r' (hknown.subset (hearlier _ hread))
      obtain ⟨mine,hmine,hident,-⟩ := h.row
      have hone := h.placed.git_one hrow hmine ((of_identity (·.place) hsame).trans
        (hplace.symm.trans (of_identity (·.place) hident).symm))
      rw [of_identity (·.workId) hsame,of_identity (·.workId) hident] at hone
      exact hother hone
    | foreign place value hforeign hrefs =>
      subst hforeign
      rw [hrefs,Refs.lookup_set,if_neg]
      rintro rfl
      exact hleaves value rfl

theorem Abandoned.perform (hleaves : LeavesRef r q) (hknown : known.Sublist log)
    (hrests : SyncRests g known q) : Abandoned g r (q.perform g w).1 (log ++ [⟨q,(q.perform g w).2⟩]) where
  placed := h.placed.perform hrests
  row := h.row_perform hknown hrests
  taken := h.taken.perform q
  before := by
    rw [h.ref_perform hleaves hknown hrests]
    exact h.before
  asserted := by
    intro leaseId fence hmem
    rcases mem_log_concat hmem with hmem | ⟨rfl,hanswer⟩
    · exact h.asserted leaseId fence hmem
    · exact h.taken.stale hanswer
  reads := by
    intro effectId r' hmem
    have hread : ∃ row ∈ w.git.effects.rows, row.identity = r'.identity := by
      rcases mem_log_concat hmem with hmem | ⟨rfl,hanswer⟩
      · exact h.reads effectId r' hmem
      · exact ⟨r',(effect_eq_some hanswer).1,rfl⟩
    obtain ⟨row,hrow,hsame⟩ := hread
    obtain ⟨row',hrow',hsame'⟩ := git_rows_stay (g := g) q hrow
    exact ⟨row',hrow',hsame'.trans hsame⟩
  observed := by
    intro r' v hmem hplace
    rcases mem_log_concat hmem with hmem | ⟨rfl,hanswer⟩
    · exact h.observed r' v hmem hplace
    · rw [← observe_ok hanswer,hplace]
      exact h.before

end

end Abandoned

def Finished (r : PreparedGitEffect) (s : PromotionWorld T) : Prop :=
  ∃ r' ∈ s.git.effects.rows, r'.workId = r.workId ∧ r'.effectCertainty = .after

theorem never_finished (hplaced : Placed g w) {r : PreparedGitEffect} (hr : r ∈ w.git.effects.rows)
    (hopen : r.effectCertainty ≠ .after) (htaken : TakenOver w.git.kernel r.workId r.fence)
    (hbefore : classification r (w.git.refs.lookup r.place) = .before)
    (h : Along (next (PromotionRequest.perform g) (PromotionCall.program g)) (Admits fun _ _ q => LeavesRef r q) (begin w) moves) :
    ¬ Finished r (promotionRun g w moves).store := by
  have habandoned : Abandoned g r (promotionRun g w moves).store (promotionRun g w moves).log :=
    invariant_of_informed promotion_informed (fun _ _ _ _ hs hleaves hknown hrests => hs.perform hleaves hknown hrests) h
      { placed := hplaced
        row := ⟨r,hr,rfl,hopen⟩
        taken := htaken
        before := hbefore
        asserted := fun _ _ hmem => absurd hmem not_mem_nil
        reads := fun _ _ hmem => absurd hmem not_mem_nil
        observed := fun _ _ hmem => absurd hmem not_mem_nil }
  rintro ⟨r',hr',hwork,hafter⟩
  obtain ⟨row,hrow,hsame,hnot⟩ := habandoned.row
  obtain rfl := eq_of_key hr' hrow (hwork.trans (of_identity (·.workId) hsame).symm)
  exact hnot hafter

/-! ## Checkouts whose lease was taken over -/

/-- Nobody else changes the checkout of the effect. -/
def LeavesCheckout (r : CheckoutSyncEffect) (q : PromotionRequest T) : Prop :=
  (∀ c, q ≠ .setCheckout r.checkoutRoot c) ∧
    ∀ r' fate, q = .sync r' fate → r'.checkoutRoot = r.checkoutRoot → r'.workId = r.workId

def InBefore (r : CheckoutSyncEffect) (w : PromotionWorld T) : Prop :=
  ∃ c, w.checkouts r.checkoutRoot = .ok c ∧ classify r c.observation = .before

/-- A checkout effect that was taken over in the before state stays in it. -/
structure AbandonedSync (g : GitRuntime) (r : CheckoutSyncEffect) (w : PromotionWorld T) (log : PromotionLog T) : Prop where
  row : ∃ row ∈ w.syncs.rows, row.identity = r.identity ∧ row.effectCertainty ≠ .after
  taken : TakenOver w.git.kernel r.workId r.fence
  before : InBefore r w
  asserted : ∀ leaseId fence, ⟨.git (.assertLease r.workId leaseId fence),Except.ok ()⟩ ∈ log → fence ≠ r.fence
  reads : ∀ effectId r', ⟨.readSync effectId,some r'⟩ ∈ log → ∃ row ∈ w.syncs.rows, row.identity = r'.identity
  observed : ∀ o, ⟨.observeCheckout r.checkoutRoot,Except.ok o⟩ ∈ log → classify r o = .before

section AbandonedSync

variable {r : CheckoutSyncEffect} {log known : PromotionLog T} {q : PromotionRequest T}

theorem AbandonedSync.read_eq (h : AbandonedSync g r w log) {r' : CheckoutSyncEffect} {effectId : String}
    (hread : ⟨.readSync effectId,some r'⟩ ∈ log) (hwork : r'.workId = r.workId) : r'.identity = r.identity := by
  obtain ⟨row,hrow,hsame⟩ := h.reads effectId r' hread
  obtain ⟨mine,hmine,hident,-⟩ := h.row
  have hkey : row.workId = mine.workId := (of_sync_identity (·.workId) hsame).trans
    (hwork.trans (of_sync_identity (·.workId) hident).symm)
  rw [← hsame,eq_of_key hrow hmine hkey,hident]

section

variable (h : AbandonedSync g r w log) (hknown : known.Sublist log)

include h hknown

theorem AbandonedSync.no_sync {r' : CheckoutSyncEffect}
    {fate : SyncFate} (hrests : SyncRests g known (.sync r' fate)) : r'.workId ≠ r.workId := by
  obtain ⟨⟨effectId,hread⟩,hlease⟩ := hrests
  intro hwork
  have hsame := h.read_eq (hknown.subset hread) hwork
  have hlogged := hknown.subset hlease
  rw [hwork] at hlogged
  exact h.asserted _ _ hlogged (of_sync_identity (·.fence) hsame)

theorem AbandonedSync.not_stored {seen : CheckoutSyncEffect}
    {observation : CheckoutObservation} (hwork : seen.workId = r.workId)
    (hrests : SyncRests g known (.persistSync seen .after observation)) : False := by
  obtain ⟨⟨effectId,hread⟩,hclass⟩ := hrests
  have hsame := h.read_eq (hknown.subset hread) hwork
  rcases hclass with hclass | ⟨hclass,hobserve⟩
  · cases hclass
  · rw [of_sync_identity (·.checkoutRoot) hsame] at hobserve
    rw [of_sync_identity (classify · observation) hsame,h.observed observation (hknown.subset hobserve)] at hclass
    cases hclass

theorem AbandonedSync.row_perform (hrests : SyncRests g known q) :
    ∃ row ∈ (q.perform g w).1.syncs.rows, row.identity = r.identity ∧ row.effectCertainty ≠ .after := by
  obtain ⟨mine,hmine,hident,hbefore⟩ := h.row
  obtain ⟨row,hrow,hsame⟩ := syncs_stay (g := g) q hmine
  refine ⟨row,hrow,hsame.trans hident,fun hafter => ?_⟩
  have hone : ∀ old ∈ w.syncs.rows, row.identity = old.identity → old = mine := fun old hold hold' =>
    eq_of_key hold hmine (of_sync_identity (·.workId) (hold'.symm.trans hsame))
  cases syncCame q hrow with
  | kept hold =>
    obtain rfl := hone row hold rfl
    exact hbefore hafter
  | stored old hold hold' hcertain =>
    obtain ⟨seen,observation,rfl,hwork,-⟩ := hcertain hafter
    obtain rfl := hone old hold hold'
    exact h.not_stored hknown (hwork.symm.trans (of_sync_identity (·.workId) hident)) hrests
  | inserted hq hnew =>
    refine (hnew mine hmine).1 ?_
    exact (of_sync_identity (·.effectId) hsame).symm

end

section

variable (h : AbandonedSync g r w log) (hleaves : LeavesCheckout r q) (hknown : known.Sublist log)
  (hrests : SyncRests g known q)

include h hleaves hknown hrests

theorem AbandonedSync.checkout_perform : (q.perform g w).1.checkouts r.checkoutRoot = w.checkouts r.checkoutRoot := by
  have hset : ∀ root c, root ≠ r.checkoutRoot → (w.setCheckout root c).checkouts r.checkoutRoot = w.checkouts r.checkoutRoot :=
    fun root c hroot => if_neg fun heq => hroot heq.symm
  cases q with
  | setCheckout root c => exact hset root c fun heq => hleaves.1 c (heq ▸ rfl)
  | sync r' fate =>
    have hroot : r'.checkoutRoot ≠ r.checkoutRoot := fun heq => h.no_sync hknown hrests (hleaves.2 r' fate rfl heq)
    cases fate with
    | ran =>
      simp only [PromotionRequest.perform,applyCheckout]
      split
      · split
        · exact hset _ _ hroot
        · rfl
      · rfl
    | failed left => exact hset _ _ hroot
    | lost left => exact hset _ _ hroot
  | insertSync r' =>
    simp only [PromotionRequest.perform,PromotionWorld.insertSync]
    split
    · rfl
    · split
      · rfl
      · rfl
  | markSyncPossible r' =>
    simp only [PromotionRequest.perform,PromotionWorld.markSyncPossible]
    split
    · rfl
    · rfl
  | _ => rfl

theorem AbandonedSync.perform : AbandonedSync g r (q.perform g w).1 (log ++ [⟨q,(q.perform g w).2⟩]) where
  row := h.row_perform hknown hrests
  taken := h.taken.perform q
  before := by
    obtain ⟨c,hc,hclass⟩ := h.before
    exact ⟨c,(h.checkout_perform hleaves hknown hrests).trans hc,hclass⟩
  asserted := by
    intro leaseId fence hmem
    rcases mem_log_concat hmem with hmem | ⟨rfl,hanswer⟩
    · exact h.asserted leaseId fence hmem
    · exact h.taken.stale hanswer
  reads := by
    intro effectId r' hmem
    have hread : ∃ row ∈ w.syncs.rows, row.identity = r'.identity := by
      rcases mem_log_concat hmem with hmem | ⟨rfl,hanswer⟩
      · exact h.reads effectId r' hmem
      · exact ⟨r',mem_of_find hanswer,rfl⟩
    obtain ⟨row,hrow,hsame⟩ := hread
    obtain ⟨row',hrow',hsame'⟩ := syncs_stay (g := g) q hrow
    exact ⟨row',hrow',hsame'.trans hsame⟩
  observed := by
    intro o hmem
    rcases mem_log_concat hmem with hmem | ⟨rfl,hanswer⟩
    · exact h.observed o hmem
    · obtain ⟨c,hc,hclass⟩ := h.before
      have hfound : (w.checkouts r.checkoutRoot).map Checkout.observation = .ok o := hanswer
      rw [hc] at hfound
      cases hfound
      exact hclass

end

end AbandonedSync

def SyncFinished (r : CheckoutSyncEffect) (s : PromotionWorld T) : Prop :=
  ∃ r' ∈ s.syncs.rows, r'.workId = r.workId ∧ r'.effectCertainty = .after

theorem never_syncFinished {r : CheckoutSyncEffect} (hr : r ∈ w.syncs.rows) (hopen : r.effectCertainty ≠ .after)
    (htaken : TakenOver w.git.kernel r.workId r.fence) (hbefore : InBefore r w)
    (h : Along (next (PromotionRequest.perform g) (PromotionCall.program g)) (Admits fun _ _ q => LeavesCheckout r q)
      (begin w) moves) : ¬ SyncFinished r (promotionRun g w moves).store := by
  have habandoned : AbandonedSync g r (promotionRun g w moves).store (promotionRun g w moves).log :=
    invariant_of_informed promotion_informed (fun _ _ _ _ hs hleaves hknown hrests => hs.perform hleaves hknown hrests) h
      { row := ⟨r,hr,rfl,hopen⟩
        taken := htaken
        before := hbefore
        asserted := fun _ _ hmem => absurd hmem not_mem_nil
        reads := fun _ _ hmem => absurd hmem not_mem_nil
        observed := fun _ hmem => absurd hmem not_mem_nil }
  rintro ⟨r',hr',hwork,hafter⟩
  obtain ⟨row,hrow,hsame,hnot⟩ := habandoned.row
  obtain rfl := eq_of_key hr' hrow (hwork.trans (of_sync_identity (·.workId) hsame).symm)
  exact hnot hafter

/-! ## No promotion goes on -/

def Released (kernel : Work.WorkKernelStore T) (workId : String) : Prop :=
  (∃ item, kernel.workItems.get workId = some item ∧ item.disposition = .finished) ∧ kernel.heldClaim workId = none

/-- New workers can promote a ref and synchronise a checkout again and again, and can finish an
effect that was taken over while its ref or its checkout is as before. -/
structure NoDeadEnd (g : GitRuntime) (w : PromotionWorld T) : Prop where
  promotes : ∀ r ∈ w.git.effects.rows, r.effectCertainty = .after → Released w.git.kernel r.workId →
    ∃ moves, ∃ r' ∈ (promotionRun g w moves).store.git.effects.rows, r'.place = r.place ∧ r'.workId ≠ r.workId ∧
      r'.effectCertainty = .after
  synchronises : ∀ r ∈ w.syncs.rows, r.effectCertainty = .after → Released w.git.kernel r.workId →
    ∃ moves, ∃ r' ∈ (promotionRun g w moves).store.syncs.rows, r'.place = r.place ∧ r'.workId ≠ r.workId ∧
      r'.effectCertainty = .after
  finishes : ∀ r ∈ w.git.effects.rows, r.effectCertainty = .before ∨ r.effectCertainty = .possible →
    TakenOver w.git.kernel r.workId r.fence → classification r (w.git.refs.lookup r.place) = .before →
    ∃ moves, Along (next (PromotionRequest.perform g) (PromotionCall.program g)) (Admits fun _ _ q => LeavesRef r q)
      (begin w) moves ∧ Finished r (promotionRun g w moves).store
  finishesSync : ∀ r ∈ w.syncs.rows, r.effectCertainty = .before ∨ r.effectCertainty = .possible →
    TakenOver w.git.kernel r.workId r.fence → InBefore r w →
    ∃ moves, Along (next (PromotionRequest.perform g) (PromotionCall.program g)) (Admits fun _ _ q => LeavesCheckout r q)
      (begin w) moves ∧ SyncFinished r (promotionRun g w moves).store

/-- What each of them fails for, whatever the state. -/
structure DeadEnds (g : GitRuntime) (w : PromotionWorld T) : Prop where
  promotes : ∀ r ∈ w.git.effects.rows, ∀ moves, ¬ PromotedAgain r (promotionRun g w moves).store
  synchronises : ∀ r ∈ w.syncs.rows, ∀ moves, ¬ SyncedAgain r (promotionRun g w moves).store
  finishes : ∀ r ∈ w.git.effects.rows, r.effectCertainty ≠ .after → TakenOver w.git.kernel r.workId r.fence →
    classification r (w.git.refs.lookup r.place) = .before → ∀ moves,
    Along (next (PromotionRequest.perform g) (PromotionCall.program g)) (Admits fun _ _ q => LeavesRef r q) (begin w) moves →
    ¬ Finished r (promotionRun g w moves).store
  finishesSync : ∀ r ∈ w.syncs.rows, r.effectCertainty ≠ .after → TakenOver w.git.kernel r.workId r.fence → InBefore r w →
    ∀ moves, Along (next (PromotionRequest.perform g) (PromotionCall.program g)) (Admits fun _ _ q => LeavesCheckout r q)
      (begin w) moves → ¬ SyncFinished r (promotionRun g w moves).store

/-- In every reachable state, no ref and no checkout that has an effect is ever given another
one, and no effect that was taken over is ever finished. -/
theorem promotions_deadEnd (g : GitRuntime) (o : PromotionOpening T) (moves : List (Move (PromotionCall T))) :
    DeadEnds g (promotionRun g o.world moves).store where
  promotes _ hr := never_promotedAgain (placed_run o.placed moves) hr
  synchronises _ hr := never_syncedAgain (placed_run o.placed moves) hr
  finishes _ hr hopen htaken hbefore _ := never_finished (placed_run o.placed moves) hr hopen htaken hbefore
  finishesSync _ hr hopen htaken hbefore _ := never_syncFinished hr hopen htaken hbefore

/-! ## A second promotion of a ref -/

def samplePromotion : PromotionOpening ℤ where
  world := {
    git := sampleOpening.world
    syncs := .empty
    checkouts := fun _ => .ok ⟨none,"base",some "tree-base",some true,some []⟩ }
  unusedEffects := rfl
  unusedSyncs := rfl

def gitMove : Move (GitCall ℤ) → Move (PromotionCall ℤ)
  | .start c => .start (.git c)
  | .advance client => .advance client

/-- The effect is applied, and its work item is finished and releases its resource. -/
def promotedMoves : List (Move (PromotionCall ℤ)) :=
  (appliedMoves ++ atOnce (kernelCall (.finishRun "w1" "r1" "l1" 1 1 "SUCCEEDED" "CERTAIN")) 5 1 ++
    atOnce (kernelCall (.releaseResource "w1" "git-ref:d" "l1" 1)) 6 1).map gitMove

/-- Promotion requests with the checks of resource keys spelled out. -/
def spelledPromotion (g : GitRuntime) : (q : PromotionRequest T) → PromotionWorld T → PromotionWorld T × q.Answer
  | .git q, w =>
    let p := spelledPerform g q w.git
    ({ w with git := p.1 },p.2)
  | q, w => q.perform g w

theorem promotion_perform_eq (g : GitRuntime) : PromotionRequest.perform (T := T) g = spelledPromotion g := by
  funext q w
  cases q with
  | git q => simp only [PromotionRequest.perform,spelledPromotion,perform_eq]
  | _ => rfl

def promotedAndReleased (w : PromotionWorld ℤ) : Bool :=
  match w.git.effects.rows with
  | [r] => decide (r.effectCertainty = .after) && decide (w.git.kernel.heldClaim r.workId = none) &&
    match w.git.kernel.workItems.get r.workId with
    | some item => decide (item.disposition = .finished)
    | none => false
  | _ => false

theorem promotedMoves_released : promotedAndReleased (promotionRun sampleGit samplePromotion.world promotedMoves).store = true := by
  unfold promotionRun
  rw [promotion_perform_eq]
  decide +kernel

/-- A ref that was promoted by a finished work item cannot be promoted again. -/
theorem promotion_endsDead :
    ¬ ∀ moves, NoDeadEnd sampleGit (promotionRun sampleGit samplePromotion.world moves).store := by
  intro h
  have hreleased := promotedMoves_released
  generalize hw : (promotionRun sampleGit samplePromotion.world promotedMoves).store = w at hreleased
  have hplaced : Placed sampleGit w := hw ▸ placed_run samplePromotion.placed promotedMoves
  have hnone : NoDeadEnd sampleGit w := hw ▸ h promotedMoves
  unfold promotedAndReleased at hreleased
  split at hreleased
  · rename_i r hrows
    have hr : r ∈ w.git.effects.rows := by rw [hrows]; exact mem_singleton_self _
    obtain ⟨hstate,hitem⟩ := Bool.and_eq_true_iff.mp hreleased
    obtain ⟨hafter,hheld⟩ := Bool.and_eq_true_iff.mp hstate
    split at hitem
    · rename_i item hfound
      obtain ⟨moves,r',hr',hplace,hother,-⟩ := hnone.promotes r hr (of_decide_eq_true hafter)
        ⟨⟨item,hfound,of_decide_eq_true hitem⟩,of_decide_eq_true hheld⟩
      exact never_promotedAgain hplaced hr moves ⟨r',hr',hplace,hother⟩
    · cases hitem
  · cases hreleased

end Bdb.Effects
