import Bdb.Session.ReentryScripts

/-! # Re-entry under races and crashes

Calls on one packet are interleaved in any order and may crash between any two requests.
A message is sent at most once. A call that loses the race for the lease can block the
record of the winner, and a record whose attempt crashed is answered as in progress for
ever: the rest of the promise holds in the runs that meet neither.
-/
namespace Bdb.Session

open Bdb.Continuation SessionStore SessionLivenessState Script List

variable {rt : Runtime} {p : ContinuationPacket rt} {s : SessionStore rt} {log : List (SessionEntry rt)}
  {known : List (SessionEntry rt)} {q : SessionRequest rt}

/-! ## The condition -/

def SessionStore.attended (s : SessionStore rt) (p : ContinuationPacket rt) (now : DateTime) : Bool :=
  (s.base.leaseFor p.resourceId).any fun l => l.status = .claimed ∧ now < l.expiresAt

/-- The token a claim would hand out is new, and a lease that is still claimed has not run
out. A look at a record in another attempt's hands finds the lease held or the intent
decided. A call that has lost the race finds the record out of the state it had read. -/
def InTime (p : ContinuationPacket rt) (s : SessionStore rt) (log : List (SessionEntry rt)) : SessionRequest rt → Prop
  | .send (.lease (.claim _ _ _ _ token) now) =>
    (∀ e ∈ log, ∀ token' ∈ handedOut e, tokenDigest rt token' ≠ tokenDigest rt token) ∧
      ∀ l ∈ s.base.leaseFor p.resourceId, l.status = .claimed → now < l.expiresAt
  | .existingIntent r now => undecided (s.existingIntent r) = true → s.attended p now = true
  | .transition reentryId w => w.trace = ["LEASE_CLAIM_REJECTED"] ∧ w.reason = "continuation is already claimed" →
    ∀ r ∈ s.reentries.get reentryId, ¬ w.Expects r
  | _ => True

/-! ## The invariant -/

/-- What holds of the store and the log in every run that meets the condition. -/
structure ReentryInv (p : ContinuationPacket rt) (s : SessionStore rt) (log : List (SessionEntry rt)) : Prop where
  rows : AllOfPacket p s
  shows : ∀ e ∈ log, ∀ r ∈ shown e, OfPacket p r ∧ r.livenessState.rank ≤ s.rank p
  late : ∀ e ∈ log, begun e = true → 2 ≤ s.rank p
  early : ∀ before e after, log = before ++ e :: after → ∀ r ∈ shown e, r.livenessState = reentryPrepared →
    ∀ b ∈ before, begun b = false
  once : ∀ d, log.countP (claimedWith d) ≤ 1
  lost : ∀ before e after d, log = before ++ e :: after → claimedWith d e = true →
    (∃ b ∈ after, ∃ d' ∈ beginDigest b, d' ≠ d) → s.owner p ≠ some d
  same : ∀ b ∈ log, ∀ b' ∈ log, ∀ d ∈ beginDigest b, ∀ d' ∈ beginDigest b', d = d'
  lease : ∀ l ∈ s.base.leaseFor p.resourceId, packetMatchesRecord p l = true ∧
    (l.status = .available ∨ l.status = .claimed ∨ l.status = .completed ∧ ∃ e ∈ log, begun e = true)

theorem onPacket_eq {p' : ContinuationPacket rt} (hinv : ReentryInv p s log) (hknown : known.Sublist log)
    (h : OnPacket p known p') : p' = p := by
  rcases h with h | ⟨r,⟨e,he,hr⟩,rfl⟩
  · exact h
  · exact (hinv.shows e (hknown.subset he) r hr).1.packet

theorem ReentryInv.ownLease (hinv : ReentryInv p s log) (hknown : known.Sublist log) (h : Grounded p known q) :
    OwnLease p q := by
  cases q with
  | send q =>
    cases q with
    | lease call now =>
      cases call with
      | claim => exact onPacket_eq hinv hknown h
      | release => exact onPacket_eq hinv hknown h
      | complete => exact onPacket_eq hinv hknown h.1
      | _ => cases h
    | _ => trivial
  | _ => trivial

theorem ReentryInv.recordStep (hinv : ReentryInv p s log) (h : Grounded p known q) : RecordStep p s q := by
  refine Session.recordStep hinv.rows q ?_ ?_
  · cases q with
    | transition id w => exact h.2
    | _ => trivial
  · rintro p' payload now rfl
    exact h

theorem split_of_sublist {ι : Type} {before after log : List ι} {x : ι} (h : (before ++ x :: after).Sublist log) :
    ∃ before' after', log = before' ++ x :: after' ∧ after.Sublist after' := by
  obtain ⟨l₁,l₂,rfl,-,h₂⟩ := append_sublist_iff.mp h
  obtain ⟨l₃,l₄,rfl,hx,h₄⟩ := cons_sublist_iff.mp h₂
  obtain ⟨l₅,l₆,rfl⟩ := append_of_mem hx
  refine ⟨l₁ ++ l₅,l₆ ++ l₄,by simp,h₄.trans (sublist_append_right _ _)⟩

/-! ## One request -/

variable {e : SessionEntry rt} {d : String} {before after : List (SessionMove p)}

theorem begun_of_digest (h : beginDigest e = some d) : begun e = true := by
  unfold begun
  rw [h]
  rfl

theorem digest_of_begun (h : begun e = true) : ∃ d, beginDigest e = some d :=
  Option.isSome_iff_exists.mp h

theorem begin_of_digest (h : beginDigest ⟨q,(q.perform s).2⟩ = some d) :
    ∃ a, q = .send (.begin a) ∧ d = tokenDigest rt a.token ∧ acceptedResult (beginIntent a s.base).2 = true := by
  cases q with
  | send q =>
    cases q with
    | begin a =>
      simp only [beginDigest] at h
      split at h
      · rename_i haccepted
        exact ⟨a,rfl,(Option.some.inj h).symm,haccepted⟩
      · cases h
    | _ => cases h
  | _ => cases h

theorem ReentryInv.first_begin {a : SendArgs rt} (hinv : ReentryInv p s log) (hknown : known.Sublist log)
    (hgrounds : Grounded p known (.send (.begin a))) (haccepted : acceptedResult (beginIntent a s.base).2 = true) :
    ∀ b ∈ log, ∀ d ∈ beginDigest b, d = tokenDigest rt a.token := by
  obtain ⟨hpacket,hmay⟩ := hgrounds
  have howner := owner_of_begin haccepted
  rw [onPacket_eq hinv hknown hpacket] at howner
  obtain ⟨before,e,after,r,rfl,hclaimed,⟨e',he',hshown⟩,hstate⟩ := hmay.prepared
  obtain ⟨before',after',rfl,hafter⟩ := split_of_sublist hknown
  obtain ⟨between,rest,rfl⟩ := append_of_mem (hafter.subset he')
  intro b hb d hd
  by_contra hne
  have hbegun := begun_of_digest hd
  -- before the record was shown as prepared nobody had begun
  have hearly : b ∉ before' ++ e :: between := by
    intro hmem
    have hnot := hinv.early (before' ++ e :: between) e' rest (by simp) r hshown hstate b hmem
    rw [hbegun] at hnot
    cases hnot
  -- a later begin of another would have taken the lease away
  have hlate : b ∈ between ++ e' :: rest := by
    rcases mem_append.mp hb with hb | hb
    · exact absurd (mem_append_left _ hb) hearly
    · rcases mem_cons.mp hb with rfl | hb
      · exact absurd (mem_append_right _ mem_cons_self) hearly
      · exact hb
  exact hinv.lost before' e (between ++ e' :: rest) _ rfl hclaimed ⟨b,hlate,d,hd,hne⟩ howner

theorem claimToken_of_claimedWith (h : claimedWith d ⟨q,(q.perform s).2⟩ = true) :
    ∃ token, claimToken q = some token ∧ tokenDigest rt token = d := by
  obtain ⟨token,htoken,hd⟩ := Option.map_eq_some_iff.mp (of_decide_eq_true h)
  exact ⟨token,handedOut_claimToken htoken,hd⟩

theorem fresh_of_inTime {token : String} (h : InTime p s log q) (htoken : claimToken q = some token) :
    ∀ e ∈ log, claimedWith (tokenDigest rt token) e = false := by
  cases q with
  | send q =>
    cases q with
    | lease call now =>
      cases call with
      | claim co p' authority ownerId token' =>
        cases htoken
        intro e he
        refine decide_eq_false ?_
        intro hclaimed
        obtain ⟨token',htoken',hd⟩ := Option.map_eq_some_iff.mp hclaimed
        exact h.1 e he token' htoken' hd
      | _ => cases htoken
    | _ => cases htoken
  | _ => cases htoken

theorem ReentryInv.once_step (hinv : ReentryInv p s log) (hq : InTime p s log q) (d : String) :
    List.countP (claimedWith d) (log ++ [⟨q,(q.perform s).2⟩]) ≤ 1 := by
  rw [countP_append,countP_singleton]
  split
  · rename_i hclaimed
    obtain ⟨token,htoken,rfl⟩ := claimToken_of_claimedWith hclaimed
    have hfresh := fresh_of_inTime hq htoken
    rw [countP_eq_zero.mpr fun e he => by simp [hfresh e he]]
  · exact hinv.once d

theorem ReentryInv.lost_step (hinv : ReentryInv p s log) (hq : InTime p s log q) (hown : OwnLease p q)
    {before after : List (SessionEntry rt)}
    (hsplit : log ++ [⟨q,(q.perform s).2⟩] = before ++ e :: after) (hclaimed : claimedWith d e = true)
    (hbegun : ∃ b ∈ after, ∃ d' ∈ beginDigest b, d' ≠ d) (hpacket : ∀ a, q = .send (.begin a) → a.packet = p) :
    (q.perform s).1.owner p ≠ some d := by
  obtain ⟨b,hb,d',hd',hne⟩ := hbegun
  rcases split_concat hsplit with ⟨rfl,rfl,rfl⟩ | ⟨rest,rfl,hlog⟩
  · cases hb
  · intro howner
    rcases owner_before hown howner with hbefore | ⟨token,htoken,rfl⟩
    · rcases mem_append.mp hb with hb | hb
      · exact hinv.lost before e rest d hlog hclaimed ⟨b,hb,d',hd',hne⟩ hbefore
      · -- the begin just made was made by the owner
        rw [mem_singleton.mp hb] at hd'
        obtain ⟨a,rfl,rfl,haccepted⟩ := begin_of_digest hd'
        have hown' := owner_of_begin haccepted
        rw [hpacket a rfl,hbefore] at hown'
        exact hne (Option.some.inj hown').symm
    · have hfresh := fresh_of_inTime hq htoken e (by simp [hlog])
      rw [hclaimed] at hfresh
      cases hfresh

theorem LeaseChange.matches_packet {now : DateTime} {call : LeaseCall rt} {l l' : ContinuationLeaseRecord}
    (h : LeaseChange now call l l') : packetMatchesRecord p l' = packetMatchesRecord p l := by
  cases h <;> rfl

theorem ReentryInv.lease_step (hinv : ReentryInv p s log) (hknown : known.Sublist log) (hgrounds : Grounded p known q) :
    ∀ l ∈ (q.perform s).1.base.leaseFor p.resourceId, packetMatchesRecord p l = true ∧
      (l.status = .available ∨ l.status = .claimed ∨
        l.status = .completed ∧ ∃ e ∈ log ++ [⟨q,(q.perform s).2⟩], begun e = true) := by
  have hown := hinv.ownLease hknown hgrounds
  have hbefore : ∀ l ∈ s.base.leaseFor p.resourceId, packetMatchesRecord p l = true ∧
      (l.status = .available ∨ l.status = .claimed ∨
        l.status = .completed ∧ ∃ e ∈ log ++ [⟨q,(q.perform s).2⟩], begun e = true) := by
    intro l hl
    obtain ⟨hmatch,hstatus⟩ := hinv.lease l hl
    refine ⟨hmatch,hstatus.imp_right (Or.imp_right ?_)⟩
    rintro ⟨hcompleted,e,he,hbegun⟩
    exact ⟨hcompleted,e,mem_append_left _ he,hbegun⟩
  rcases lease_row q s p with hsame | ⟨call,now,l,l',rfl,hrow,hchange,hr,hafter⟩
  · rw [hsame]
    exact hbefore
  · intro l'' hl''
    rw [hafter] at hl''
    cases hl''
    have hpacket : call.packet = p := by
      cases call with
      | claim | release | complete => exact hown
      | _ => cases hown
    refine ⟨?_,?_⟩
    · rw [LeaseChange.matches_packet hchange]
      rcases hrow with hl | ⟨-,rfl⟩
      · rw [hpacket] at hl
        exact (hbefore l hl).1
      · rw [hpacket]
        simp [packetMatchesRecord,availableLease]
    · cases hchange with
      | claimed => exact .inr (.inl rfl)
      | released => exact .inl rfl
      | completed =>
        obtain ⟨-,e,he,hbegun⟩ := hgrounds
        exact .inr (.inr ⟨rfl,e,mem_append_left _ (hknown.subset he),hbegun⟩)
      | _ => cases hown

theorem ReentryInv.step (hinv : ReentryInv p s log) (hq : InTime p s log q) (hknown : known.Sublist log)
    (hgrounds : Grounded p known q) : ReentryInv p (q.perform s).1 (log ++ [⟨q,(q.perform s).2⟩]) := by
  have hrecord := hinv.recordStep hgrounds
  have hown := hinv.ownLease hknown hgrounds
  have hpacket : ∀ a, q = .send (.begin a) → a.packet = p := by
    rintro a rfl
    exact onPacket_eq hinv hknown hgrounds.1
  -- an accepted begin finds the record in progress
  have hlate : begun ⟨q,(q.perform s).2⟩ = true → 2 ≤ s.rank p := by
    intro hbegun
    obtain ⟨d,hd⟩ := digest_of_begun hbegun
    obtain ⟨a,rfl,-,-⟩ := begin_of_digest hd
    obtain ⟨r,⟨e,he,hr⟩,hstate⟩ := hgrounds.2.started
    have hrank := (hinv.shows e (hknown.subset he) r hr).2
    rw [hstate] at hrank
    exact hrank
  have hfirst : ∀ d ∈ beginDigest ⟨q,(q.perform s).2⟩, ∀ b ∈ log, ∀ d' ∈ beginDigest b, d' = d := by
    intro d hd
    obtain ⟨a,rfl,rfl,haccepted⟩ := begin_of_digest hd
    exact hinv.first_begin hknown hgrounds haccepted
  refine ⟨hrecord.kept,?_,?_,?_,hinv.once_step hq,?_,?_,hinv.lease_step hknown hgrounds⟩
  · intro e he r hr
    rcases mem_append.mp he with he | he
    · obtain ⟨hof,hrank⟩ := hinv.shows e he r hr
      exact ⟨hof,hrank.trans hrecord.forward⟩
    · rw [mem_singleton.mp he] at hr
      obtain ⟨hof,hrank⟩ := hrecord.shows r hr
      exact ⟨hof,hrank.le⟩
  · intro e he hbegun
    refine le_trans ?_ hrecord.forward
    rcases mem_append.mp he with he | he
    · exact hinv.late e he hbegun
    · rw [mem_singleton.mp he] at hbegun
      exact hlate hbegun
  · intro before e after hsplit r hr hstate b hb
    rcases split_concat hsplit with ⟨rfl,rfl,rfl⟩ | ⟨rest,rfl,hlog⟩
    · -- the record is shown as prepared now, so nobody has begun
      have hrank := (hrecord.shows r hr).2
      rw [hstate] at hrank
      by_contra hbegun
      have htwo := (hinv.late b hb (by simpa using hbegun)).trans hrecord.forward
      rw [← hrank] at htwo
      exact absurd htwo (by decide)
    · exact hinv.early before e rest hlog r hr hstate b hb
  · intro before e after d hsplit hclaimed hbegun
    exact hinv.lost_step hq hown hsplit hclaimed hbegun hpacket
  · intro b hb b' hb' d hd d' hd'
    rcases mem_append.mp hb with hb | hb <;> rcases mem_append.mp hb' with hb' | hb'
    · exact hinv.same b hb b' hb' d hd d' hd'
    · rw [mem_singleton.mp hb'] at hd'
      exact hfirst d' hd' b hb d hd
    · rw [mem_singleton.mp hb] at hd
      exact (hfirst d hd b' hb' d' hd').symm
    · rw [mem_singleton.mp hb] at hd
      rw [mem_singleton.mp hb'] at hd'
      exact some_unique hd hd'

/-! ## Whole runs -/

variable {db : Database} {bindings : Table ExecutionBinding (·.executionBindingId)} {moves : List (SessionMove p)}

/-- Every request of the run meets the condition. -/
def InTimeRun (db : Database) (bindings : Table ExecutionBinding (·.executionBindingId))
    (moves : List (SessionMove p)) : Prop :=
  Along SessionSystem.next (Shared.Admits (InTime p)) (SessionSystem.begin db bindings) moves

def sessionRun (db : Database) (bindings : Table ExecutionBinding (·.executionBindingId))
    (moves : List (SessionMove p)) : SessionSystem rt :=
  SessionSystem.run (.begin db bindings) moves

theorem reentryInv_start : ReentryInv p (SessionSystem.begin db bindings).store [] where
  rows r hr := absurd hr not_mem_nil
  shows e he := absurd he not_mem_nil
  late e he := absurd he not_mem_nil
  early before e after h := absurd h.symm (append_ne_nil_of_right_ne_nil _ (cons_ne_nil _ _))
  once d := Nat.zero_le 1
  lost before e after d h := absurd h.symm (append_ne_nil_of_right_ne_nil _ (cons_ne_nil _ _))
  same b hb := absurd hb not_mem_nil
  lease l hl := by cases hl

theorem run_inv (h : InTimeRun db bindings moves) :
    ReentryInv p (sessionRun db bindings moves).store (sessionRun db bindings moves).log := by
  refine Shared.invariant_of_informed program_grounded ?_ h reentryInv_start
  intro s log q known hinv hq hknown hgrounds
  exact hinv.step hq hknown hgrounds

/-! ## One send -/

def begunWith (d : String) (e : SessionEntry rt) : Bool := beginDigest e = some d

theorem covered_begin (d : String) (call : ReentryCall p) : Covered (claimedWith d) (begunWith d) 0 call.program := by
  refine Informed.covered ?_ (program_grounded call) rfl
  intro known q a hgrounds hbegun
  have hdigest : beginDigest ⟨q,a⟩ = some d := of_decide_eq_true hbegun
  cases q with
  | send q =>
    cases q with
    | begin args =>
      obtain ⟨-,hmay⟩ := hgrounds
      have hd : tokenDigest rt args.token = d := by
        simp only [beginDigest] at hdigest
        split at hdigest
        · exact Option.some.inj hdigest
        · cases hdigest
      obtain ⟨before,e,after,r,rfl,hclaimed,-⟩ := hmay.prepared
      rw [countP_eq_zero.mpr]
      · refine countP_pos_iff.mpr ⟨e,mem_append_right _ mem_cons_self,?_⟩
        rw [← hd]
        exact hclaimed
      · intro b hb hbegun
        have hnot := hmay.first b hb
        rw [begun_of_digest (of_decide_eq_true hbegun)] at hnot
        cases hnot
    | _ => cases hdigest
  | _ => cases hdigest

theorem covered_send (call : ReentryCall p) : Covered begun sent 0 call.program := by
  refine Informed.covered ?_ (program_grounded call) rfl
  intro known q a hgrounds hsent
  cases q with
  | send q =>
    cases q with
    | physicalSend intentId =>
      obtain ⟨⟨e,he,hbegun⟩,hnone⟩ := hgrounds
      rw [countP_eq_zero.mpr]
      · exact countP_pos_iff.mpr ⟨e,he,hbegun⟩
      · intro b hb hsent
        rw [hnone b hb] at hsent
        cases hsent
    | _ => cases hsent
  | _ => cases hsent

theorem begins_le_one (h : InTimeRun db bindings moves) : (sessionRun db bindings moves).log.countP begun ≤ 1 := by
  have hinv := run_inv h
  by_cases hnone : ∃ e ∈ (sessionRun db bindings moves).log, begun e = true
  · obtain ⟨e,he,hbegun⟩ := hnone
    obtain ⟨d,hd⟩ := digest_of_begun hbegun
    have hcount : (sessionRun db bindings moves).log.countP begun ≤
        (sessionRun db bindings moves).log.countP (begunWith d) := by
      refine countP_mono_left ?_
      intro b hb hb'
      obtain ⟨d',hd'⟩ := digest_of_begun hb'
      rw [hinv.same b hb e he d' hd' d hd] at hd'
      exact decide_eq_true hd'
    exact hcount.trans ((Shared.spent_le_earned (covered_begin d) _ moves).trans (hinv.once d))
  · rw [countP_eq_zero.mpr fun e he hbegun => hnone ⟨e,he,hbegun⟩]
    exact Nat.zero_le 1

theorem sends_le_one (h : InTimeRun db bindings moves) : (sessionRun db bindings moves).log.countP sent ≤ 1 :=
  (Shared.spent_le_earned covered_send _ moves).trans (begins_le_one h)

/-! ## The promise -/

/-- The client's next request is a claim that is refused because a live owner holds the
lease. -/
def LosesRace (s : SessionSystem rt) (client : ℕ) : Prop :=
  ∃ q k, s.clients[client]? = some (.ask q k) ∧ Held ⟨q,(q.perform s.store).2⟩

/-- The lease can be claimed: it does not exist yet, or it is available. -/
def SessionStore.claimable (s : SessionStore rt) (p : ContinuationPacket rt) : Prop :=
  ∀ l ∈ s.base.leaseFor p.resourceId, packetMatchesRecord p l = true ∧ l.status = .available

/-- What a call finds when it would resume the continuation: a claim finds the lease free,
held by a live owner, or given up after an attempt was begun, and a look at a record in
another attempt's hands finds its intent decided or a live owner. -/
def Resumable (p : ContinuationPacket rt) (s : SessionStore rt) (log : List (SessionEntry rt)) :
    SessionRequest rt → Prop
  | .send (.lease (.claim _ _ _ _ _) now) =>
    s.claimable p ∨ s.attended p now = true ∨ ∃ e ∈ log, begun e = true
  | .existingIntent r now => undecided (s.existingIntent r) = false ∨ s.attended p now = true
  | _ => True

/-- The whole promise of a re-entry for a run of calls on one packet. -/
structure SafeReentry (db : Database) (bindings : Table ExecutionBinding (·.executionBindingId))
    (moves : List (SessionMove p)) : Prop where
  oneSend : (sessionRun db bindings moves).log.countP sent ≤ 1
  losersKeep : ∀ before client between after,
    moves = before ++ .advance client :: between ++ .advance client :: after →
    LosesRace (sessionRun db bindings before) client →
    (sessionRun db bindings (before ++ .advance client :: between ++ [.advance client])).store.reentries =
      (sessionRun db bindings (before ++ .advance client :: between)).store.reentries
  inProgress : ∀ before m after, moves = before ++ m :: after → ∀ a r,
    Shared.answers SessionRequest.perform ReentryCall.program (sessionRun db bindings before) m = some a →
    a.result = .ok r → InProgress r → (sessionRun db bindings before).store.attended p a.now = true
  resumable : ∀ before m after, moves = before ++ m :: after → ∀ q ∈ (sessionRun db bindings before).asked m,
    Resumable p (sessionRun db bindings before).store (sessionRun db bindings before).log q

theorem sessionRun_append (before after : List (SessionMove p)) :
    sessionRun db bindings (before ++ after) = SessionSystem.run (sessionRun db bindings before) after := by
  unfold sessionRun SessionSystem.run Shared.run
  rw [foldl_append]

theorem InTimeRun.at {m : SessionMove p} (h : InTimeRun db bindings (before ++ m :: after)) :
    Shared.Admits (InTime p) (sessionRun db bindings before) m :=
  (along_append.mp h).2.1

theorem InTimeRun.left (h : InTimeRun db bindings (before ++ after)) : InTimeRun db bindings before :=
  (along_append.mp h).1

theorem reentries_of_unexpected {id : String} {w : Transition} (h : ∀ r ∈ s.reentries.get id, ¬ w.Expects r) :
    ((SessionRequest.transition id w).perform s).1.reentries = s.reentries := by
  cases ho : s.transition id w with
  | error f => simp only [SessionRequest.perform,ho,SessionStore.commit]
  | ok out =>
    simp only [SessionRequest.perform,ho,SessionStore.commit]
    rcases transition_ok (t := out.1) (o := out.2) ho with ⟨hsame,-⟩ | ⟨current,hcurrent,hexpects,-⟩
    · rw [hsame]
    · exact absurd hexpects (h current hcurrent)

theorem clients_heedful (moves : List (SessionMove p)) :
    ∀ script ∈ (sessionRun db bindings moves).clients, Heedful script := by
  refine Shared.clients_run program_heedful ?_ _ moves
  intro q k h
  cases h with
  | ask _ hk => exact hk

theorem clients_closes (moves : List (SessionMove p)) :
    ∀ script ∈ (sessionRun db bindings moves).clients, script.Closes fun e a => LooksLast a.now e a.result := by
  refine Shared.clients_run program_closes ?_ _ moves
  intro q k h
  cases h with
  | ask _ hk => exact hk

theorem lostWrite_of_losesRace {client : ℕ}
    (h : LosesRace (sessionRun db bindings before) client) (between : List (SessionMove p)) :
    ∃ script, (sessionRun db bindings (before ++ .advance client :: between)).clients[client]? = some script ∧
      script.AsksOnly LostWrite := by
  obtain ⟨q,k,hclient,hheld⟩ := h
  have hrest : (k (q.perform (sessionRun db bindings before).store).2).AsksOnly LostWrite := by
    cases clients_heedful before _ (mem_of_getElem? hclient) with
    | ask hheed _ => exact hheed _ hheld
  obtain ⟨hlt,-⟩ := List.getElem?_eq_some_iff.mp hclient
  have hnext : (SessionSystem.next (sessionRun db bindings before) (.advance client : SessionMove p)).clients[client]? =
      some (k (q.perform (sessionRun db bindings before).store).2) := by
    simp only [SessionSystem.next,Shared.next,hclient]
    exact List.getElem?_set_self hlt
  rw [sessionRun_append]
  exact Shared.client_asks hnext hrest between

theorem losers_keep {between : List (SessionMove p)} {client : ℕ}
    (h : InTimeRun db bindings (before ++ .advance client :: between ++ .advance client :: after))
    (hloses : LosesRace (sessionRun db bindings before) client) :
    (sessionRun db bindings (before ++ .advance client :: between ++ [.advance client])).store.reentries =
      (sessionRun db bindings (before ++ .advance client :: between)).store.reentries := by
  obtain ⟨script,hscript,hasks⟩ := lostWrite_of_losesRace hloses between
  have hadmits := h.at
  rw [sessionRun_append (before ++ .advance client :: between) [.advance client]]
  generalize sessionRun db bindings (before ++ .advance client :: between) = s at hscript hadmits
  change (Shared.next SessionRequest.perform ReentryCall.program s (.advance client : SessionMove p)).store.reentries = _
  simp only [Shared.next,hscript]
  cases hasks with
  | done a => rfl
  | @ask q k hq hk =>
    cases q with
    | transition id w =>
      refine reentries_of_unexpected (hadmits (.transition id w) ?_ hq)
      simp [Shared.asked,hscript]
    | _ => cases hq

theorem attended_of_inProgress {m : SessionMove p} {a : Answered rt}
    {r : SessionReentryResult rt} (h : InTimeRun db bindings (before ++ m :: after))
    (hanswer : Shared.answers SessionRequest.perform ReentryCall.program (sessionRun db bindings before) m = some a)
    (hr : a.result = .ok r) (hin : InProgress r) : (sessionRun db bindings before).store.attended p a.now = true := by
  have hloud : ¬ Silent a.result := fun hsilent => hsilent r hr hin
  have hadmits := h.at
  cases m with
  | start call =>
    simp only [Shared.answers] at hanswer
    split at hanswer
    · rename_i a' hprogram
      cases hanswer
      exact absurd (program_silent call hprogram) hloud
    · cases hanswer
  | advance client =>
    simp only [Shared.answers] at hanswer
    split at hanswer
    · rename_i q k hclient
      split at hanswer
      · rename_i a' hdone
        cases hanswer
        cases clients_closes before _ (mem_of_getElem? hclient) with
        | ask hlast _ =>
          have hlook := hlast _ _ hdone
          cases q with
          | existingIntent record now =>
            obtain ⟨rfl,hundecided⟩ := hlook.resolve_left hloud
            refine hadmits (.existingIntent record a.now) ?_ hundecided
            simp [Shared.asked,hclient]
          | _ => exact absurd hlook hloud
      · cases hanswer
    · cases hanswer

theorem resumable_of_inv (hinv : ReentryInv p s log) (hq : InTime p s log q) : Resumable p s log q := by
  cases q with
  | send q =>
    cases q with
    | lease call now =>
      cases call with
      | claim co p' authority ownerId token =>
        cases hrow : s.base.leaseFor p.resourceId with
        | none =>
          refine .inl ?_
          unfold SessionStore.claimable
          rw [hrow]
          intro l hl
          cases hl
        | some l =>
          obtain ⟨hmatch,hstatus⟩ := hinv.lease l hrow
          rcases hstatus with havailable | hclaimed | ⟨-,hbegun⟩
          · refine .inl ?_
            unfold SessionStore.claimable
            rw [hrow]
            rintro l' hl'
            cases hl'
            exact ⟨hmatch,havailable⟩
          · refine .inr (.inl ?_)
            unfold SessionStore.attended
            rw [hrow]
            exact decide_eq_true ⟨hclaimed,hq.2 l hrow hclaimed⟩
          · exact .inr (.inr hbegun)
      | _ => trivial
    | _ => trivial
  | existingIntent r now =>
    cases hundecided : undecided (s.existingIntent r) with
    | false => exact .inl hundecided
    | true => exact .inr (hq hundecided)
  | _ => trivial

/-- In every run in which no call comes upon a lease that has run out, no call looks at a
record that its attempt has given up, and no call that has lost the race finds the record in
the state it had read, a re-entry keeps its promise. -/
theorem reentry_safe (p : ContinuationPacket rt) (db : Database)
    (bindings : Table ExecutionBinding (·.executionBindingId)) (moves : List (SessionMove p))
    (h : InTimeRun db bindings moves) : SafeReentry db bindings moves where
  oneSend := sends_le_one h
  losersKeep := by
    rintro before client between after rfl hloses
    exact losers_keep h hloses
  inProgress := by
    rintro before m after rfl a r hanswer hr hin
    exact attended_of_inProgress h hanswer hr hin
  resumable := by
    rintro before m after rfl q hq
    exact resumable_of_inv (run_inv h.left) (h.at q hq)

end Bdb.Session
