import Bdb.Base.Runs
import Bdb.Continuation.LeaseSteps

/-! # Lease protocol safety

Runs of lease calls by any clients, with STOP, resume and other writers in between and a
clock that never goes back. Tokens are fresh when they are issued and no two tokens in
play collide in the hash. The holder of a lease is then unique, and a token that has lost
its lease never gets it back.
-/
namespace Bdb.Continuation

variable {rt : Runtime}

inductive LeaseEvent (rt : Runtime) where
  | call (c : LeaseCall rt) (now : DateTime)
  | wait (now : DateTime)
  | stop (q : StopRequest)
  | resume (q : Database.ResumeRequest)
  | elsewhere (e : Database.Elsewhere)

/-- The database, the latest clock reading, and the tokens handed out so far. -/
structure LeaseWorld where
  db : Database
  clock : DateTime
  issued : List String

def accepted (o : Outcome ContinuationLeaseResult) : Bool :=
  match o with
  | .ok r => r.accepted
  | .error _ => false

namespace LeaseWorld

def next (w : LeaseWorld) : LeaseEvent rt → LeaseWorld
  | .call c now =>
    let out := c.perform now w.db
    ⟨out.1,now,if accepted out.2 then c.issues.toList ++ w.issued else w.issued⟩
  | .wait now => { w with clock := now }
  | .stop q => { w with db := (w.db.stop q).1 }
  | .resume q => { w with db := (w.db.resume q).1 }
  | .elsewhere e => { w with db := w.db.elsewhere e }

/-- The clock does not go back, and a token to be handed out is a new one of the tokens in
play. -/
def Proper (T : Set String) (w : LeaseWorld) : LeaseEvent rt → Prop
  | .call c now => w.clock ≤ now ∧ ∀ t ∈ c.issues, t ∈ T ∧ t ∉ w.issued
  | .wait now => w.clock ≤ now
  | _ => True

def run (w : LeaseWorld) (events : List (LeaseEvent rt)) : LeaseWorld := events.foldl next w

def Live (rt : Runtime) (w : LeaseWorld) (r token : String) (now : DateTime) : Prop :=
  tokenDigest rt token ≠ "" ∧ ∃ l, HoldsLease rt w.db r token now l

end LeaseWorld

open LeaseWorld

variable {w : LeaseWorld} {e : LeaseEvent rt} {T : Set String} {r t : String}
  {l l' : ContinuationLeaseRecord} {now : DateTime}

/-! ## One step -/

theorem clock_le_next (h : Proper T w e) : w.clock ≤ (next w e).clock := by
  cases e with
  | call c now => exact h.1
  | wait now => exact h
  | stop q | resume q | elsewhere e => exact le_refl _

theorem stop_leases (db : Database) (q : StopRequest) : (db.stop q).1.leases = db.leases := by
  rcases db.stop_cases q with h | ⟨c,fences,audit,-,-,-,-,h⟩ <;> rw [h]

theorem resume_leases (db : Database) (q : Database.ResumeRequest) : (db.resume q).1.leases = db.leases := by
  rcases db.resume_cases q with h | ⟨c,c',audit,-,-,-,h⟩ <;> rw [h]

variable {db : Database} {c : LeaseCall rt}

theorem leaseFor_congr {db' : Database} (h : db'.leases = db.leases) (r : String) :
    db'.leaseFor r = db.leaseFor r := by
  unfold Database.leaseFor
  rw [h]

theorem next_row (w : LeaseWorld) (e : LeaseEvent rt) (r : String) :
    (next w e).db.leaseFor r = w.db.leaseFor r ∨
      ∃ c now l l', e = .call c now ∧ r = c.packet.resourceId ∧ RowBefore now w.db c l ∧
        LeaseChange now c l l' ∧ (next w e).db.leaseFor r = some l' := by
  cases e with
  | call c now =>
    rcases (lease_outcome c now w.db).row r with h | ⟨hr,l,l',hbefore,hchange,hafter⟩
    · exact .inl h
    · exact .inr ⟨c,now,l,l',rfl,hr,hbefore,hchange,hafter⟩
  | wait now => exact .inl rfl
  | stop q => exact .inl (leaseFor_congr (stop_leases w.db q) r)
  | resume q => exact .inl (leaseFor_congr (resume_leases w.db q) r)
  | elsewhere e => exact .inl rfl

theorem issued_of_write (hrow : (c.perform now w.db).1.leaseFor r ≠ w.db.leaseFor r) :
    ∀ u ∈ c.issues, u ∈ (next w (.call c now)).issued := by
  intro u hu
  have haccepted : accepted (c.perform now w.db).2 = true := by
    have hout := lease_outcome c now w.db
    generalize c.perform now w.db = out at hout hrow
    cases hout with
    | quiet => exact absurd rfl hrow
    | wrote _ _ _ haccepted => exact haccepted
  simp only [next,haccepted,if_true]
  exact List.mem_append_left _ (by simpa using hu)

theorem issued_subset (w : LeaseWorld) (e : LeaseEvent rt) {u : String} (h : u ∈ w.issued) :
    u ∈ (next w e).issued := by
  cases e with
  | call c now =>
    simp only [next]
    split
    · exact List.mem_append_right _ h
    · exact h
  | wait now | stop q | resume q | elsewhere e => exact h

theorem ne_of_change (hbefore : RowBefore now db c l)
    (hchange : LeaseChange now c l l') : db.leaseFor c.packet.resourceId ≠ some l' := by
  intro hrow
  rcases hbefore with hl | ⟨hnone,-⟩
  · obtain rfl : l = l' := some_unique hl hrow
    have hrevision := hchange.keeps.2.2
    omega
  · rw [hnone] at hrow
    cases hrow

/-! ## Where stored digests come from -/

/-- Every stored digest is the digest of a token that was handed out, and all of these are
in play. -/
structure Known (rt : Runtime) (T : Set String) (w : LeaseWorld) : Prop where
  rows : ∀ r l h, w.db.leaseFor r = some l → l.ownerTokenHash = some h →
    ∃ u ∈ w.issued, h = tokenDigest rt u
  tokens : ∀ u ∈ w.issued, u ∈ T

theorem change_hash {h : String} (hchange : LeaseChange now c l l') (hhash : l'.ownerTokenHash = some h) :
    (∃ u ∈ c.issues, h = tokenDigest rt u) ∨ l.ownerTokenHash = some h := by
  cases hchange with
  | claimed | reclaimed => exact .inl ⟨_,rfl,(Option.some.inj hhash).symm⟩
  | renewed => exact .inr hhash
  | released => cases hhash
  | completed | abandoned => exact .inr hhash

theorem tokens_next (hp : Proper T w e) (h : ∀ u ∈ w.issued, u ∈ T) : ∀ u ∈ (next w e).issued, u ∈ T := by
  cases e with
  | call c now =>
    intro u hu
    simp only [next] at hu
    split at hu
    · rcases List.mem_append.mp hu with hu | hu
      · exact (hp.2 u (by simpa using hu)).1
      · exact h u hu
    · exact h u hu
  | wait now | stop q | resume q | elsewhere e => exact h

theorem known_next (hp : Proper T w e) (hk : Known rt T w) : Known rt T (next w e) := by
  refine ⟨?_,tokens_next hp hk.tokens⟩
  intro r l' h hrow hhash
  rcases next_row w e r with hsame | ⟨c,now,l,l'',rfl,rfl,hbefore,hchange,hafter⟩
  · rw [hsame] at hrow
    obtain ⟨u,hu,heq⟩ := hk.rows r l' h hrow hhash
    exact ⟨u,issued_subset w e hu,heq⟩
  · obtain rfl : l'' = l' := some_unique hafter hrow
    rcases change_hash hchange hhash with ⟨u,hu,heq⟩ | hold
    · refine ⟨u,issued_of_write (r := c.packet.resourceId) ?_ u hu,heq⟩
      rw [show (c.perform now w.db).1.leaseFor c.packet.resourceId = some l'' from hafter]
      exact (ne_of_change hbefore hchange).symm
    · rcases hbefore with hl | ⟨-,rfl⟩
      · obtain ⟨u,hu,heq⟩ := hk.rows _ l h hl hold
        exact ⟨u,issued_subset w _ hu,heq⟩
      · cases hold

theorem token_of_digest (hT : Set.InjOn (fun t : String => rt.sha256 t.toList) T) {t u : String} (ht : t ∈ T)
    (hu : u ∈ T) (hdigest : tokenDigest rt t ≠ "") (h : tokenDigest rt t = tokenDigest rt u) : t = u :=
  hT ht hu (sha256_of_tokenDigest h hdigest)

theorem issued_of_owner (hT : Set.InjOn (fun t : String => rt.sha256 t.toList) T) (hk : Known rt T w)
    (ht : t ∈ T) (hdigest : tokenDigest rt t ≠ "") (hrow : w.db.leaseFor r = some l)
    (howner : l.ownerTokenHash = some (tokenDigest rt t)) : t ∈ w.issued := by
  obtain ⟨u,hu,heq⟩ := hk.rows r l _ hrow howner
  rw [token_of_digest hT ht (hk.tokens u hu) hdigest heq]
  exact hu

/-! ## A lost lease stays lost -/

theorem live_earlier {now' : DateTime} (h : Live rt w r t now') (hle : now ≤ now') : Live rt w r t now := by
  obtain ⟨hdigest,l,hl⟩ := h
  exact ⟨hdigest,l,hl.row,hl.owner,hl.claimed,lt_of_le_of_lt hle hl.live⟩

theorem live_before (hT : Set.InjOn (fun t : String => rt.sha256 t.toList) T) (hp : Proper T w e)
    (hk : Known rt T w) (ht : t ∈ w.issued) (h : Live rt (next w e) r t (next w e).clock) :
    Live rt w r t (next w e).clock := by
  obtain ⟨hdigest,l',hl'⟩ := h
  rcases next_row w e r with hsame | ⟨c,now,l,l'',rfl,rfl,hbefore,hchange,hafter⟩
  · exact ⟨hdigest,l',hsame ▸ hl'.row,hl'.owner,hl'.claimed,hl'.live⟩
  · obtain rfl : l'' = l' := some_unique hafter hl'.row
    have hfresh : ∀ u ∈ c.issues, l''.ownerTokenHash ≠ some (tokenDigest rt u) := by
      intro u hu howner
      have heq : tokenDigest rt t = tokenDigest rt u := some_unique hl'.owner howner
      obtain ⟨huT,hnew⟩ := hp.2 u hu
      rw [token_of_digest hT (hk.tokens t ht) huT hdigest heq] at ht
      exact hnew ht
    cases hchange with
    | claimed | reclaimed => exact absurd rfl (hfresh _ rfl)
    | renewed hheld hlive =>
      rcases hbefore with hl | ⟨-,rfl⟩
      · exact ⟨hdigest,l,hl,hl'.owner,hl'.claimed,hlive⟩
      · cases hl'.claimed
    | released | completed | abandoned => cases hl'.claimed

/-- A token that was handed out and does not hold the lease any more. -/
structure Retired (rt : Runtime) (w : LeaseWorld) (r t : String) : Prop where
  known : t ∈ w.issued
  lost : ¬ Live rt w r t w.clock

theorem retired_next (hT : Set.InjOn (fun t : String => rt.sha256 t.toList) T) (hp : Proper T w e)
    (hk : Known rt T w) (h : Retired rt w r t) : Retired rt (next w e) r t := by
  refine ⟨issued_subset w e h.known,?_⟩
  intro hlive
  exact h.lost (live_earlier (live_before hT hp hk h.known hlive) (clock_le_next hp))

theorem retired_run (hT : Set.InjOn (fun t : String => rt.sha256 t.toList) T)
    {events : List (LeaseEvent rt)} (hp : Along next (Proper T) w events) (hk : Known rt T w)
    (h : Retired rt w r t) : Retired rt (run w events) r t := by
  refine (Along.invariant (I := fun w => Known rt T w ∧ Retired rt w r t) ?_ hp ⟨hk,h⟩).2
  intro w e hw hproper
  exact ⟨known_next hproper hw.1,retired_next hT hproper hw.1 hw.2⟩

/-- How a token loses its lease: it ends its own claim, an expired lease is reclaimed over
it, or its lease expires. -/
inductive Loses (w : LeaseWorld) : LeaseEvent rt → String → String → Prop
  | ended {c : LeaseCall rt} {now : DateTime} {t : String} (hends : c.EndsClaim t)
      (h : accepted (c.perform now w.db).2 = true) : Loses w (.call c now) c.packet.resourceId t
  | reclaimed {co : LeaseCoordinator} {p : ContinuationPacket rt} {authority : ContinuationAuthoritySnapshot}
      {ownerId token reason t : String} {now : DateTime} {l : ContinuationLeaseRecord}
      (hrow : w.db.leaseFor p.resourceId = some l)
      (howner : l.ownerTokenHash = some (tokenDigest rt t))
      (h : accepted (reclaim co p authority ownerId token reason now w.db).2 = true) :
      Loses w (.call (.reclaim co p authority ownerId token reason) now) p.resourceId t
  | expired {e : LeaseEvent rt} {r t : String} {l : ContinuationLeaseRecord}
      (hrow : (next w e).db.leaseFor r = some l) (howner : l.ownerTokenHash = some (tokenDigest rt t))
      (hover : l.expiresAt ≤ (next w e).clock) : Loses w e r t

theorem ok_of_accepted {o : Outcome ContinuationLeaseResult} (h : accepted o = true) :
    ∃ r, o = .ok r ∧ r.accepted = true := by
  cases o with
  | ok r => exact ⟨r,rfl,h⟩
  | error f => cases h

theorem ended_row (hends : c.EndsClaim t) (h : accepted (c.perform now db).2 = true) :
    (∃ l, db.leaseFor c.packet.resourceId = some l ∧ l.ownerTokenHash = some (tokenDigest rt t)) ∧
      ∃ l', (c.perform now db).1.leaseFor c.packet.resourceId = some l' ∧ l'.status ≠ .claimed := by
  obtain ⟨res,hres,haccepted⟩ := ok_of_accepted h
  have hout := lease_outcome c now db
  rw [← Prod.mk.eta (p := c.perform now db),hres] at hout
  generalize hdb : (c.perform now db).1 = db' at hout ⊢
  cases hout with
  | quiet hquiet =>
    obtain ⟨l,hl,howner,hstatus⟩ := (hquiet res rfl).ended t hends haccepted
    exact ⟨⟨l,hl,howner⟩,l,hl,hstatus⟩
  | @wrote base l l' _ _ hopened hchange hwritten _ =>
    obtain ⟨hid,hresource,-⟩ := hchange.keeps
    have hafter := leaseFor_put hopened.leaseFor.1 hid hresource hwritten.leases
    have hheld : ∀ token : String, claimedBy (tokenDigest rt token) l = true →
        l.status = .claimed ∧ l.ownerTokenHash = some (tokenDigest rt token) := by
      intro token htoken
      simpa [claimedBy] using htoken
    have hstored : l.status = .claimed → db.leaseFor c.packet.resourceId = some l := by
      intro hclaimed
      rcases hopened.rowBefore with hl | ⟨-,rfl⟩
      · exact hl
      · cases hclaimed
    cases hchange with
    | claimed => cases hends
    | reclaimed => cases hends
    | renewed => cases hends
    | released htoken =>
      cases hends
      exact ⟨⟨l,hstored (hheld _ htoken).1,(hheld _ htoken).2⟩,_,hafter,nofun⟩
    | completed htoken =>
      cases hends
      exact ⟨⟨l,hstored (hheld _ htoken).1,(hheld _ htoken).2⟩,_,hafter,nofun⟩
    | abandoned htoken =>
      cases hends
      exact ⟨⟨l,hstored (hheld _ htoken).1,(hheld _ htoken).2⟩,_,hafter,nofun⟩

theorem reclaimed_row {co : LeaseCoordinator} {p : ContinuationPacket rt}
    {authority : ContinuationAuthoritySnapshot} {ownerId token reason : String}
    (h : accepted (reclaim co p authority ownerId token reason now db).2 = true) :
    ∃ l', (reclaim co p authority ownerId token reason now db).1.leaseFor p.resourceId = some l' ∧
      l'.ownerTokenHash = some (tokenDigest rt token) := by
  obtain ⟨res,hres,haccepted⟩ := ok_of_accepted h
  have hout := lease_outcome (.reclaim co p authority ownerId token reason) now db
  change LeaseOutcome now db _ (reclaim co p authority ownerId token reason now db) at hout
  rw [← Prod.mk.eta (p := reclaim co p authority ownerId token reason now db),hres] at hout
  obtain ⟨l,l',-,hchange,hafter⟩ := hout.issued rfl haccepted
  refine ⟨l',hafter,?_⟩
  cases hchange
  rfl

theorem retired_of_loses (hT : Set.InjOn (fun t : String => rt.sha256 t.toList) T) (hp : Proper T w e)
    (hk : Known rt T w) (ht : t ∈ T) (hdigest : tokenDigest rt t ≠ "") (h : Loses w e r t) :
    Retired rt (next w e) r t := by
  cases h with
  | ended hends haccepted =>
    obtain ⟨⟨l,hl,howner⟩,l',hl',hstatus⟩ := ended_row hends haccepted
    refine ⟨issued_subset w _ (issued_of_owner hT hk ht hdigest hl howner),?_⟩
    rintro ⟨-,l'',hlive⟩
    obtain rfl : l' = l'' := some_unique hl' hlive.row
    exact hstatus hlive.claimed
  | reclaimed hrow howner haccepted =>
    have hissued := issued_of_owner hT hk ht hdigest hrow howner
    refine ⟨issued_subset w _ hissued,?_⟩
    rintro ⟨-,l'',hlive⟩
    obtain ⟨l',hl',hnew⟩ := reclaimed_row haccepted
    obtain rfl : l' = l'' := some_unique hl' hlive.row
    obtain ⟨huT,hfresh⟩ := hp.2 _ rfl
    have heq := some_unique hlive.owner hnew
    rw [token_of_digest hT ht huT hdigest heq] at hissued
    exact hfresh hissued
  | expired hrow howner hover =>
    refine ⟨issued_of_owner hT (known_next hp hk) ht hdigest hrow howner,?_⟩
    rintro ⟨-,l'',hlive⟩
    obtain rfl := some_unique hrow hlive.row
    exact absurd hlive.live (not_lt.mpr hover)

/-! ## Generations and final states -/

theorem change_generation (h : LeaseChange now c l l') :
    l.generation ≤ l'.generation ∧ (c.issues.isSome = true → l.generation < l'.generation) := by
  cases h with
  | claimed => exact ⟨by simp only [claimWrite]; omega,fun _ => by simp only [claimWrite]; omega⟩
  | reclaimed => exact ⟨by simp only [reclaimWrite]; omega,fun _ => by simp only [reclaimWrite]; omega⟩
  | renewed | released | completed | abandoned => exact ⟨le_refl _,nofun⟩

theorem change_not_final (h : LeaseChange now c l l') : l.status ≠ .completed ∧ l.status ≠ .abandoned := by
  cases h with
  | claimed hfree => rcases hfree with h | h | h <;> rw [h] <;> exact ⟨nofun,nofun⟩
  | reclaimed hheld => rw [hheld]; exact ⟨nofun,nofun⟩
  | renewed hheld | released hheld | completed hheld | abandoned hheld => simp_all [claimedBy]

/-- A row at or past a generation. -/
def ReachesGeneration (g : ℕ) (r : String) (w : LeaseWorld) : Prop :=
  ∃ l, w.db.leaseFor r = some l ∧ g ≤ l.generation

theorem reachesGeneration_next {g : ℕ} (h : ReachesGeneration g r w) : ReachesGeneration g r (next w e) := by
  obtain ⟨l,hl,hg⟩ := h
  rcases next_row w e r with hsame | ⟨c,now,l₀,l',-,rfl,hbefore,hchange,hafter⟩
  · exact ⟨l,hsame.trans hl,hg⟩
  · rcases hbefore with hrow | ⟨hnone,-⟩
    · obtain rfl : l = l₀ := some_unique hl hrow
      exact ⟨l',hafter,hg.trans (change_generation hchange).1⟩
    · rw [hl] at hnone
      cases hnone

theorem final_next (hl : w.db.leaseFor r = some l) (hfinal : l.status = .completed ∨ l.status = .abandoned) :
    (next w e).db.leaseFor r = some l := by
  rcases next_row w e r with hsame | ⟨c,now,l₀,l',-,rfl,hbefore,hchange,-⟩
  · exact hsame.trans hl
  · rcases hbefore with hrow | ⟨hnone,-⟩
    · obtain rfl : l = l₀ := some_unique hl hrow
      obtain ⟨hc,ha⟩ := change_not_final hchange
      rcases hfinal with h | h
      · exact absurd h hc
      · exact absurd h ha
    · rw [hl] at hnone
      cases hnone

theorem run_keeps {I : LeaseWorld → Prop} (hstep : ∀ w (e : LeaseEvent rt), I w → I (next w e)) (h : I w)
    (events : List (LeaseEvent rt)) : I (run w events) := by
  induction events generalizing w with
  | nil => exact h
  | cons e rest ih => exact ih (hstep w e h)

/-! ## The protocol -/

/-- No lease exists at the start and no token was handed out. -/
def LeaseWorld.begin (db : Database) (clock : DateTime) : LeaseWorld :=
  ⟨{ db with leases := Table.empty },clock,[]⟩

/-- At most one token of those in play passes the effect check of a continuation. -/
def OneHolder (rt : Runtime) (T : Set String) (w : LeaseWorld) : Prop :=
  ∀ (co₁ co₂ : LeaseCoordinator) (p₁ p₂ : ContinuationPacket rt) (a₁ a₂ : ContinuationAuthoritySnapshot)
    (t₁ t₂ : String) (now₁ now₂ : DateTime), p₁.resourceId = p₂.resourceId → t₁ ∈ T → t₂ ∈ T →
    accepted (authorizeEffect co₁ p₁ a₁ t₁ now₁ w.db).2 = true →
    accepted (authorizeEffect co₂ p₂ a₂ t₂ now₂ w.db).2 = true → t₁ = t₂

/-- The token does not pass the effect check of the continuation from now on. -/
def Rejects (rt : Runtime) (w : LeaseWorld) (r t : String) : Prop :=
  ∀ (co : LeaseCoordinator) (p : ContinuationPacket rt) (a : ContinuationAuthoritySnapshot) (now : DateTime),
    p.resourceId = r → w.clock ≤ now → accepted (authorizeEffect co p a t now w.db).2 = false

theorem known_run {events : List (LeaseEvent rt)} (hp : Along next (Proper T) w events) (hk : Known rt T w) :
    Known rt T (run w events) :=
  Along.invariant (fun _ _ hw hproper => known_next hproper hw) hp hk

theorem known_begin (db : Database) (clock : DateTime) : Known rt T (.begin db clock) :=
  ⟨nofun,nofun⟩

theorem oneHolder_of_inj (hT : Set.InjOn (fun t : String => rt.sha256 t.toList) T) : OneHolder rt T w := by
  intro co₁ co₂ p₁ p₂ a₁ a₂ t₁ t₂ now₁ now₂ hp h₁ h₂ haccepted₁ haccepted₂
  obtain ⟨r₁,hr₁,ha₁⟩ := ok_of_accepted haccepted₁
  obtain ⟨r₂,hr₂,ha₂⟩ := ok_of_accepted haccepted₂
  obtain ⟨hdigest,l₁,hl₁⟩ := authorizeEffect_cases.2 r₁ hr₁ ha₁
  obtain ⟨-,l₂,hl₂⟩ := authorizeEffect_cases.2 r₂ hr₂ ha₂
  obtain rfl : l₁ = l₂ := some_unique hl₁.row (hp ▸ hl₂.row)
  exact token_of_digest hT h₁ h₂ hdigest (some_unique hl₁.owner hl₂.owner)

theorem rejects_of_not_live (h : ¬ Live rt w r t w.clock) : Rejects rt w r t := by
  rintro co p a now rfl hle
  rw [← Bool.not_eq_true]
  intro haccepted
  obtain ⟨res,hres,ha⟩ := ok_of_accepted haccepted
  exact h (live_earlier (authorizeEffect_cases.2 res hres ha) hle)

/-- At every moment of every run at most one token is accepted for a continuation; a token
that has lost its lease is never accepted again; completed and abandoned leases stay as they
are; generations grow with every accepted claim or reclaim; and a rejected call changes no
lease row. -/
theorem lease_protocol_is_safe (hT : Set.InjOn (fun t : String => rt.sha256 t.toList) T) (db : Database)
    (clock : DateTime) (events : List (LeaseEvent rt))
    (hp : Along next (Proper T) (.begin db clock) events) :
    OneHolder rt T (run (.begin db clock) events) ∧
      ∀ done e rest, events = done ++ e :: rest →
        let w := run (.begin db clock) done
        let last := run (.begin db clock) events
        (∀ r t, t ∈ T → Loses w e r t → Rejects rt last r t) ∧
        (∀ r l, w.db.leaseFor r = some l → l.status = .completed ∨ l.status = .abandoned →
          last.db.leaseFor r = some l) ∧
        (∀ r l, w.db.leaseFor r = some l → ReachesGeneration l.generation r last) ∧
        ∀ c now, e = .call c now →
          (accepted (c.perform now w.db).2 = true → c.issues.isSome = true →
            ∃ l', (next w e).db.leaseFor c.packet.resourceId = some l' ∧ 1 ≤ l'.generation ∧
              ∀ l, w.db.leaseFor c.packet.resourceId = some l → l.generation < l'.generation) ∧
          (accepted (c.perform now w.db).2 = false → ∀ r, (next w e).db.leaseFor r = w.db.leaseFor r) := by
  refine ⟨oneHolder_of_inj hT,?_⟩
  rintro done e rest rfl
  intro w last
  obtain ⟨hdone,hrest⟩ := along_append.mp hp
  have hk : Known rt T w := known_run hdone (known_begin db clock)
  have hlast : last = run (next w e) rest := by
    simp only [last,w,run,List.foldl_append,List.foldl_cons]
  refine ⟨?_,?_,?_,?_⟩
  · intro r t ht hloses
    refine rejects_of_not_live ?_
    by_cases hdigest : tokenDigest rt t = ""
    · exact fun hlive => hlive.1 hdigest
    · have hretired := retired_of_loses hT hrest.1 hk ht hdigest hloses
      rw [hlast]
      exact (retired_run hT hrest.2 (known_next hrest.1 hk) hretired).lost
  · intro r l hl hfinal
    rw [hlast]
    exact run_keeps (I := fun w => w.db.leaseFor r = some l) (fun _ _ h => final_next h hfinal)
      (final_next hl hfinal) rest
  · intro r l hl
    rw [hlast]
    exact run_keeps (I := ReachesGeneration l.generation r) (fun _ _ => reachesGeneration_next)
      (reachesGeneration_next ⟨l,hl,le_refl _⟩) rest
  · rintro c now rfl
    constructor
    · intro haccepted hissues
      obtain ⟨res,hres,ha⟩ := ok_of_accepted haccepted
      have hout := lease_outcome c now w.db
      rw [← Prod.mk.eta (p := c.perform now w.db),hres] at hout
      obtain ⟨l,l',hbefore,hchange,hafter⟩ := hout.issued hissues ha
      have hgrows := (change_generation hchange).2 hissues
      refine ⟨l',hafter,by omega,?_⟩
      intro l₀ hl₀
      rcases hbefore with hrow | ⟨hnone,-⟩
      · obtain rfl : l₀ = l := some_unique hl₀ hrow
        exact hgrows
      · rw [hl₀] at hnone
        cases hnone
    · intro hrejected r
      have hout := lease_outcome c now w.db
      change (c.perform now w.db).1.leaseFor r = w.db.leaseFor r
      generalize c.perform now w.db = out at hout hrejected
      cases hout with
      | quiet => rfl
      | wrote _ _ _ ha => exact absurd (ha.symm.trans hrejected) nofun

def sampleLeaseEvents : List (LeaseEvent sampleRuntime) :=
  [.call (.claim sampleCoordinator samplePacket sampleAuthority "owner" sampleToken) (sampleTime 1),
    .call (.release samplePacket sampleToken "done") (sampleTime 2)]

theorem released_token_is_rejected :
    Rejects sampleRuntime (run (.begin sampleDatabase (sampleTime 0)) sampleLeaseEvents)
      samplePacket.resourceId sampleToken := by
  have hsafe := lease_protocol_is_safe (T := {sampleToken}) (Set.injOn_singleton _ _)
    sampleDatabase (sampleTime 0) sampleLeaseEvents ?_
  · refine (hsafe.2 [_] _ [] rfl).1 _ _ rfl (.ended rfl ?_)
    decide +kernel
  · refine ⟨⟨by decide,?_⟩,⟨by decide,nofun⟩,trivial⟩
    intro t ht
    cases ht
    exact ⟨rfl,nofun⟩

end Bdb.Continuation
