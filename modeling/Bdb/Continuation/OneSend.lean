import Bdb.Continuation.EvidenceIdentity

/-! # One send for each continuation

An intent is for one continuation, but a continuation may have many intents: their key
holds the lease generation, the payload and a generation that the caller chooses, and
prepare does not look at the intents that are already there. No more than one message of a
continuation is sent while an intent is created only when no other one is in its way.
-/
namespace Bdb.Continuation

open Step SendIntentResult Table

variable {rt : Runtime} {db : Database} {log : List (SendEntry rt)} {q : SendRequest rt} {kind : ChangeKind}
  {r r' : SendIntentRecord} {id : String}

/-! ## Intents in the way of another -/

/-- An attempt was begun, and no proof of no delivery was accepted for it since. -/
def outstanding (id : String) (log : List (SendEntry rt)) : Bool :=
  log.foldl (fun isOpen e => beginAccepted id e || (isOpen && !retryAccepted id e)) false

def Database.Owns (db : Database) (hash : String) : Prop :=
  ∃ resource l, db.leaseFor resource = some l ∧ l.ownerTokenHash = some hash

def InTheWay (db : Database) (log : List (SendEntry rt)) (r : SendIntentRecord) : Prop :=
  outstanding r.intentId log = true ∨
    (r.status = .prepared ∨ r.status = .sendAllowed) ∧ db.Owns r.leaseOwnerTokenHash

def SameContinuation (r r' : SendIntentRecord) : Prop :=
  r.continuationId = r'.continuationId ∧ r.packetDigest = r'.packetDigest

/-- An intent is created only when no other intent of its continuation is in the way. A
token to be handed out is new: its digest is not stored with an intent. -/
def OneIntentAtATime (db : Database) (log : List (SendEntry rt)) : SendRequest rt → Prop
  | .prepare a => ∀ lease, Prepared a db lease → ∀ id r, db.intents.get id = some r →
    r.continuationId = a.packet.continuationId → r.packetDigest = a.packet.packetDigest → ¬ InTheWay db log r
  | .lease call _ => ∀ token ∈ call.issues, ∀ id r, db.intents.get id = some r →
    r.leaseOwnerTokenHash ≠ tokenDigest rt token
  | _ => True

variable (id) in
theorem outstanding_append (log : List (SendEntry rt)) (e : SendEntry rt) :
    outstanding id (log ++ [e]) = (beginAccepted id e || (outstanding id log && !retryAccepted id e)) := by
  unfold outstanding
  rw [List.foldl_append]
  rfl

/-! ## Owners of leases -/

theorem owns_before_call {hash : String} (call : LeaseCall rt) (now : DateTime) (db : Database)
    (h : (call.perform now db).1.Owns hash) :
    db.Owns hash ∨ ∃ token ∈ call.issues, hash = tokenDigest rt token := by
  obtain ⟨resource,l',hrow,howner⟩ := h
  rcases (lease_outcome call now db).row resource with hsame | ⟨hr,l,l'',hbefore,hchange,hafter⟩
  · exact .inl ⟨resource,l',hsame ▸ hrow,howner⟩
  · obtain rfl := some_unique hafter hrow
    rcases change_hash hchange howner with hissued | hold
    · exact .inr hissued
    · rcases hbefore with hl | ⟨-,rfl⟩
      · exact .inl ⟨_,l,hl,hold⟩
      · cases hold

theorem owns_before (hQ : OneIntentAtATime db log q) (hrow : db.intents.get id = some r)
    (h : (q.perform db).1.Owns r.leaseOwnerTokenHash) : db.Owns r.leaseOwnerTokenHash := by
  by_cases hlease : ∃ call now, q = .lease call now
  · obtain ⟨call,now,rfl⟩ := hlease
    rcases owns_before_call call now db h with hbefore | ⟨token,htoken,hhash⟩
    · exact hbefore
    · exact absurd hhash (hQ token htoken id r hrow)
  · have hleases := leases_of_other q db fun call now hq => hlease ⟨call,now,hq⟩
    obtain ⟨resource,l,hl,howner⟩ := h
    exact ⟨resource,l,(leaseFor_congr hleases resource) ▸ hl,howner⟩

variable {a : SendArgs rt} {s : SendSystem sampleRuntime} {generation : ℕ}

theorem OwnIntent.owns (h : OwnIntent a r) (hlease : UnderLease a db) : db.Owns r.leaseOwnerTokenHash := by
  obtain ⟨l,hl⟩ := hlease
  unfold Database.liveLeaseCheck at hl
  obtain ⟨_,hl⟩ := rest_ok hl
  obtain ⟨l',hrow,hl⟩ := of_need hl
  obtain ⟨howner,hl⟩ := of_require hl
  rw [h.owner]
  exact ⟨_,l',hrow,howner⟩

/-! ## The invariant -/

/-- What the log says of an intent agrees with its row. -/
structure Marked (db : Database) (log : List (SendEntry rt)) (id : String) : Prop where
  missing : db.intents.get id = none → outstanding id log = false
  attempted : ∀ r, db.intents.get id = some r → attemptedOrLater r.status = true → outstanding id log = true
  waiting : ∀ r, db.intents.get id = some r → r.status = .prepared ∨ r.status = .sendAllowed →
    outstanding id log = false

theorem marked_step (q : SendRequest rt) (h : Marked db log id) :
    Marked (q.perform db).1 (log ++ [⟨q,(q.perform db).2⟩]) id := by
  have hstep := intent_step q db id
  have hafter := outstanding_append id log ⟨q,(q.perform db).2⟩
  generalize beginAccepted id ⟨q,(q.perform db).2⟩ = begun at hstep hafter
  generalize retryAccepted id ⟨q,(q.perform db).2⟩ = retried at hstep hafter
  generalize cancelAccepted id ⟨q,(q.perform db).2⟩ = cancelled at hstep
  cases hstep with
  | same hsame =>
    have hlog : outstanding id (log ++ [⟨q,(q.perform db).2⟩]) = outstanding id log := by simpa using hafter
    refine ⟨?_,?_,?_⟩ <;> rw [hsame,hlog]
    · exact h.missing
    · exact h.attempted
    · exact h.waiting
  | created hq hid hprepared hnone hrow =>
    have hlog : outstanding id (log ++ [⟨q,(q.perform db).2⟩]) = false := by simpa [h.missing hnone] using hafter
    refine ⟨?_,?_,?_⟩ <;> rw [hrow,hlog]
    · intro hn
      cases hn
    · rintro r hr hattempted
      cases hr
      cases hattempted
    · intro _ _ _
      rfl
  | @changed kind r r' hrow hchange hrow' =>
    obtain ⟨hstarts,hends⟩ := hchange.status
    refine ⟨?_,?_,?_⟩ <;> rw [hrow',hafter]
    · intro hn
      cases hn
    · intro r'' hr hattempted
      cases hr
      by_cases hkind : kind = .attempted
      · simp [hkind]
      · have hbefore : attemptedOrLater r.status = true ∧ kind ≠ .retried := by
          rw [hends] at hattempted
          revert hstarts hattempted hkind
          cases kind <;> cases r.status <;> decide
        simp [h.attempted r hrow hbefore.1,hbefore.2]
    · intro r'' hr hwaiting
      cases hr
      have hkind : kind ≠ .attempted ∧ (kind = .retried ∨ r.status = .prepared) := by
        rw [hends] at hwaiting
        revert hstarts hwaiting
        cases kind <;> cases r.status <;> decide
      rcases hkind.2 with rfl | hprepared
      · simp
      · simp [hkind.1,h.waiting r hrow (.inl hprepared)]

theorem inTheWay_of_change (hmarked : Marked db log id) (hrow : db.intents.get id = some r)
    (hchange : IntentChange db q kind r r')
    (h : kind = .attempted ∨ outstanding id log = true ∨ r'.status = .prepared ∨ r'.status = .sendAllowed) :
    InTheWay db log r := by
  have hid := key_of_get hrow
  by_cases hattempted : kind = .attempted
  · subst hattempted
    cases hchange with
    | attempted _ hown hlease hstatus => exact .inr ⟨.inr hstatus,hown.owns hlease⟩
  · rcases h.resolve_left hattempted with hopen | hwaiting
    · exact .inl (hid ▸ hopen)
    · obtain ⟨hstarts,hends⟩ := hchange.status
      have hkind : kind = .allowed ∨ kind = .retried := by
        rw [hends] at hwaiting
        revert hwaiting
        cases kind <;> decide
      rcases hkind with rfl | rfl
      · cases hchange with
        | allowed _ hown hlease hstatus => exact .inr ⟨.inl hstatus,hown.owns hlease⟩
      · refine .inl (hid ▸ hmarked.attempted r hrow ?_)
        revert hstarts
        cases r.status <;> decide

theorem inTheWay_before (hQ : OneIntentAtATime db log q) (hmarked : Marked db log id)
    (hrow' : (q.perform db).1.intents.get id = some r')
    (h : InTheWay (q.perform db).1 (log ++ [⟨q,(q.perform db).2⟩]) r') :
    (∃ r, db.intents.get id = some r ∧ SameIntent r r' ∧ InTheWay db log r) ∨
      ∃ a lease, q = .prepare a ∧ intentIdOf a.key = id ∧ Prepared a db lease ∧ db.intents.get id = none ∧
        r' = preparedIntent a lease db.projectId := by
  have hid' := key_of_get hrow'
  have hstep := intent_step q db id
  have hafter := outstanding_append id log ⟨q,(q.perform db).2⟩
  unfold InTheWay at h
  rw [hid',hafter] at h
  generalize beginAccepted id ⟨q,(q.perform db).2⟩ = begun at hstep h
  generalize retryAccepted id ⟨q,(q.perform db).2⟩ = retried at hstep h
  generalize cancelAccepted id ⟨q,(q.perform db).2⟩ = cancelled at hstep
  cases hstep with
  | same hsame =>
    have hrow := hsame ▸ hrow'
    refine .inl ⟨r',hrow,rfl,?_⟩
    rcases h with h | ⟨hstatus,howns⟩
    · exact .inl (by simpa [hid'] using h)
    · exact .inr ⟨hstatus,owns_before hQ hrow howns⟩
  | @created a lease hq hid hprepared hnone hrow =>
    exact .inr ⟨a,lease,hq,hid,hprepared,hnone,(some_unique hrow hrow').symm⟩
  | @changed kind r r'' hrow hchange hrow'' =>
    obtain rfl := some_unique hrow'' hrow'
    have hid := key_of_get hrow
    refine .inl ⟨r,hrow,hchange.same,?_⟩
    exact inTheWay_of_change hmarked hrow hchange (by
      rcases h with h | ⟨hstatus,-⟩
      · simp only [Bool.or_eq_true,decide_eq_true_eq,Bool.and_eq_true] at h
        exact h.imp_right fun h => .inl h.1
      · exact .inr (.inr hstatus))

/-! ## At most one intent in the way -/

structure OneInTheWay (db : Database) (log : List (SendEntry rt)) : Prop where
  marked : ∀ id, Marked db log id
  unique : ∀ id id' r r', db.intents.get id = some r → db.intents.get id' = some r' → SameContinuation r r' →
    InTheWay db log r → InTheWay db log r' → id = id'

theorem SameIntent.continuation (h : SameIntent r r') : SameContinuation r r' := by
  rw [h]
  exact ⟨rfl,rfl⟩

theorem SameContinuation.symm (h : SameContinuation r r') : SameContinuation r' r := ⟨h.1.symm,h.2.symm⟩

theorem SameContinuation.trans {r'' : SendIntentRecord} (h : SameContinuation r r') (h' : SameContinuation r' r'') :
    SameContinuation r r'' := ⟨h.1.trans h'.1,h.2.trans h'.2⟩

theorem not_inTheWay_of_created {a : PrepareArgs rt} {lease : ContinuationLeaseRecord} (hq : q = .prepare a)
    (hQ : OneIntentAtATime db log q) (hprepared : Prepared a db lease) (hrow : db.intents.get id = some r)
    (hsame : SameContinuation r (preparedIntent a lease db.projectId)) : ¬ InTheWay db log r := by
  subst hq
  exact hQ lease hprepared id r hrow hsame.1 hsame.2

theorem oneInTheWay_step (db : Database) (log : List (SendEntry rt)) (q : SendRequest rt) (h : OneInTheWay db log)
    (hQ : OneIntentAtATime db log q) : OneInTheWay (q.perform db).1 (log ++ [⟨q,(q.perform db).2⟩]) := by
  refine ⟨fun id => marked_step q (h.marked id),?_⟩
  intro id id' r r' hrow hrow' hsame hway hway'
  rcases inTheWay_before hQ (h.marked id) hrow hway with
    ⟨r₁,hrow₁,hsame₁,hway₁⟩ | ⟨a,lease,hq,hid,hprepared,hnone,hr⟩ <;>
  rcases inTheWay_before hQ (h.marked id') hrow' hway' with
    ⟨r₂,hrow₂,hsame₂,hway₂⟩ | ⟨a',lease',hq',hid',hprepared',hnone',hr'⟩
  · exact h.unique id id' r₁ r₂ hrow₁ hrow₂ ((hsame₁.continuation.trans hsame).trans hsame₂.continuation.symm)
      hway₁ hway₂
  · exact absurd hway₁ (not_inTheWay_of_created hq' hQ hprepared' hrow₁ (hr' ▸ hsame₁.continuation.trans hsame))
  · exact absurd hway₂ (not_inTheWay_of_created hq hQ hprepared hrow₂
      (hr ▸ hsame₂.continuation.trans hsame.symm))
  · obtain rfl : a = a' := by
      rw [hq] at hq'
      exact SendRequest.prepare.inj hq'
    exact hid.symm.trans hid'

theorem oneInTheWay_run (db : Database) (moves : List (SendMove rt))
    (h : Along SendSystem.next (Shared.Admits OneIntentAtATime) (.begin db) moves) :
    OneInTheWay (SendSystem.run (.begin db) moves).store (SendSystem.run (.begin db) moves).log := by
  refine Shared.invariant_of_requests (I := OneInTheWay) (fun t log q => oneInTheWay_step t log q) h ?_
  refine ⟨?_,?_⟩
  · intro id
    refine ⟨fun _ => rfl,?_,?_⟩
    all_goals
      intro r hr
      cases hr
  · intro id id' r r' hr
    cases hr

theorem begin_of_accepted (h : acceptedResult (beginIntent a db).2 = true) :
    ∃ r, db.intents.get a.intentId = some r ∧ r.status = .sendAllowed ∧ db.Owns r.leaseOwnerTokenHash := by
  have hstep := intent_step (.begin a) db a.intentId
  have hbegun : beginAccepted a.intentId ⟨.begin a,(SendRequest.perform (.begin a) db).2⟩ = true := by
    change (decide (a.intentId = a.intentId) && acceptedResult (beginIntent a db).2) = true
    simp [h]
  generalize beginAccepted a.intentId ⟨.begin a,(SendRequest.perform (.begin a) db).2⟩ = begun at hstep hbegun
  generalize retryAccepted a.intentId ⟨.begin a,(SendRequest.perform (.begin a) db).2⟩ = retried at hstep
  generalize cancelAccepted a.intentId ⟨.begin a,(SendRequest.perform (.begin a) db).2⟩ = cancelled at hstep
  cases hstep with
  | same hsame | created hq hid hprepared hnone hrow => cases hbegun
  | @changed kind r r' hrow hchange hrow' =>
    obtain rfl := of_decide_eq_true hbegun
    cases hchange with
    | attempted hid hown hlease hstatus => exact ⟨r,hrow,hstatus,hown.owns hlease⟩

/-! ## The proofs that were accepted -/

def ProofTaken : SendRequest rt → Prop
  | .retry id proof _ => proof.valid = true ∧ proof.intentId = id
  | _ => True

theorem NoRetry.proofTaken (h : NoRetry q) : ProofTaken q := by
  cases q with
  | retry id proof now => cases h
  | _ => trivial

theorem afterReading_proofTaken (a : SendArgs rt) (evidence : Option StructuredSendEvidence)
    (proof : Option NoDeliveryProof) (read : SendIntentRecord) : ProofTaken (afterReading a evidence proof read) := by
  cases evidence with
  | some e => trivial
  | none =>
    cases proof with
    | none => trivial
    | some proof =>
      change ProofTaken (reconcileRequest a proof read)
      unfold reconcileRequest
      split
      · rename_i htaken
        obtain ⟨hid,hvalid⟩ := of_decide_eq_true htaken
        exact ⟨hvalid,hid⟩
      · trivial

theorem program_proofTaken (call : ClientCall rt) : call.program.AsksOnly ProofTaken := by
  cases call with
  | reconcile a evidence proof =>
    rw [program_reconcile]
    refine .ask trivial ?_
    intro read
    cases read with
    | none => exact .done _
    | some r =>
      dsimp only
      split
      · exact .ask (afterReading_proofTaken a evidence proof r) fun _ => .done _
      · exact .done _
  | ack a acknowledgement ackAt =>
    obtain ⟨k,hprogram,hnone,hsome⟩ := ack_asks a acknowledgement ackAt
    rw [hprogram]
    refine .ask trivial ?_
    intro read
    cases read with
    | none => exact hnone.mono fun _ h => h.elim
    | some r =>
      refine (hsome r).mono ?_
      rintro q (⟨leaseCall,now,rfl⟩ | ⟨-,rfl⟩)
      · trivial
      · trivial
  | confirm a e | lease call now => exact .ask trivial fun _ => .done _
  | prepare c => exact Script.AsksOnly.mono (.bind (asksOnly_prepare c) fun _ => .done _) fun _ => NoRetry.proofTaken
  | allowSend c => exact Script.AsksOnly.mono (.bind (asksOnly_allowSend c) fun _ => .done _) fun _ => NoRetry.proofTaken
  | beginPhysicalSend c => exact Script.AsksOnly.mono (.bind (asksOnly_beginPhysicalSend c) fun _ => .done _) fun _ => NoRetry.proofTaken
  | sendOnce c beginAt endAt physicalSend =>
    exact Script.AsksOnly.mono (.bind (asksOnly_sendOnce c beginAt endAt physicalSend) fun _ => .done _) fun _ => NoRetry.proofTaken
  | markUncertain intentId token reason now | cancel intentId token reason now | stop q => exact .ask trivial fun _ => .done _
  | resume q | elsewhere e => exact .ask trivial fun _ => .done _

/-! ## The main result -/

/-- In every run in which an intent is created only when no other one of its continuation
is in the way: different intents of one continuation are never both at or past the send
boundary; a begin is accepted only when, over all intents of its continuation, every attempt
begun before was reconciled as undelivered; and every such reconciliation took a valid proof
that names its intent. -/
theorem one_send_per_continuation (db : Database) (moves : List (SendMove rt))
    (h : Along SendSystem.next (Shared.Admits OneIntentAtATime) (.begin db) moves) :
    let s := SendSystem.run (.begin db) moves
    (∀ id id' r r', s.store.intents.get id = some r → s.store.intents.get id' = some r' → SameContinuation r r' →
      attemptedOrLater r.status = true → attemptedOrLater r'.status = true → id = id') ∧
    (∀ (a : SendArgs rt) r, s.store.intents.get a.intentId = some r →
      acceptedResult (beginIntent a s.store).2 = true → ∀ id' r', s.store.intents.get id' = some r' →
      SameContinuation r r' → outstanding id' s.log = false) ∧
    ∀ id proof now o, (⟨.retry id proof now,o⟩ : SendEntry rt) ∈ s.log → proof.valid = true ∧ proof.intentId = id := by
  intro s
  have hinv : OneInTheWay s.store s.log := oneInTheWay_run db moves h
  refine ⟨?_,?_,?_⟩
  · intro id id' r r' hrow hrow' hsame hattempted hattempted'
    refine hinv.unique id id' r r' hrow hrow' hsame (.inl ?_) (.inl ?_)
    · exact (key_of_get hrow).symm ▸ (hinv.marked id).attempted r hrow hattempted
    · exact (key_of_get hrow').symm ▸ (hinv.marked id').attempted r' hrow' hattempted'
  · intro a r hrow haccepted id' r' hrow' hsame
    obtain ⟨r₁,hrow₁,hstatus,howns⟩ := begin_of_accepted haccepted
    obtain rfl := some_unique hrow hrow₁
    by_contra hopen
    have hopen' : outstanding id' s.log = true := by simpa using hopen
    have hid : a.intentId = id' := hinv.unique a.intentId id' r r' hrow hrow' hsame (.inr ⟨.inr hstatus,howns⟩)
      (.inl ((key_of_get hrow').symm ▸ hopen'))
    subst hid
    exact hopen ((hinv.marked a.intentId).waiting r hrow (.inr hstatus))
  · intro id proof now o ho
    exact Shared.log_asks program_proofTaken _ moves _ ho

/-- The sample's attempt is the only one of its continuation. -/
theorem sample_sends_once : ∃ (moves : List (SendMove sampleRuntime)) (r : SendIntentRecord),
    let s := SendSystem.run (.begin sampleDatabase) moves
    Along SendSystem.next (Shared.Admits OneIntentAtATime) (.begin sampleDatabase) moves ∧
      s.store.intents.get r.intentId = some r ∧ r.status = .physicalSendAttempted ∧
      ∀ id r', s.store.intents.get id = some r' → SameContinuation r r' → attemptedOrLater r'.status = true →
        r.intentId = id := by
  have hQ : AdmitsAttempt OneIntentAtATime sampleDatabase
      (.claim sampleCoordinator samplePacket sampleAuthority "owner" sampleToken) (sampleTime 1) := by
    refine ⟨?_,fun _ _ _ => trivial,?_,fun _ _ _ => trivial,fun _ _ _ => trivial,fun _ _ _ => trivial⟩
    · intro token _ id r hr
      cases hr
    · intro d log args hempty lease _ id r hr
      rw [hempty] at hr
      cases hr
  obtain ⟨t,l,r,hsample⟩ := sample_attempt hQ
  obtain ⟨moves,halong,rfl⟩ := hsample.reached
  refine ⟨moves,r,halong,hsample.row,hsample.status,?_⟩
  intro id r' hrow' hsame hattempted
  refine (one_send_per_continuation sampleDatabase moves halong).1 r.intentId id r r' hsample.row hrow' hsame ?_
    hattempted
  rw [hsample.status]
  decide

/-! ## Two sends of one continuation -/

def sampleLease : ContinuationLeaseRecord :=
  (claimWrite sampleRuntime "owner" sampleToken (sampleTime 1) (sampleTime 31)).change
    (availableLease sampleDatabase.projectId samplePacket (sampleTime 1))

def sampleKey (generation : ℕ) : String :=
  intentKeyFor samplePacket sampleLease "hello" (some sampleBinding) generation

theorem sampleKey_ids : intentIdOf (sampleKey 1) ≠ intentIdOf (sampleKey 2) := by decide +kernel

def samplePrepareArgs (generation : ℕ) : PrepareArgs sampleRuntime :=
  ⟨samplePacket,sampleAuthority,sampleToken,"hello",some sampleBinding,generation,sampleKey generation,sampleTime 1⟩

def sampleIntent (generation : ℕ) : SendIntentRecord :=
  preparedIntent (samplePrepareArgs generation) sampleLease sampleDatabase.projectId

theorem sampleIntent_continuation (g g' : ℕ) : SameContinuation (sampleIntent g) (sampleIntent g') := by
  unfold sampleIntent preparedIntent samplePrepareArgs
  exact ⟨rfl,rfl⟩

theorem sample_prepare (hpos : 1 ≤ generation)
    (h : Holding sampleDatabase samplePacket sampleToken (sampleTime 1) sampleLease s.store)
    (hfresh : ∀ r ∈ s.store.intents.rows, r.intentKey ≠ sampleKey generation)
    (habsent : s.store.intents.get (intentIdOf (sampleKey generation)) = none) :
    ∃ t, SendReaches anyRequest s t ∧
      Holding sampleDatabase samplePacket sampleToken (sampleTime 1) sampleLease t.store ∧
      s.store.intents.insert (sampleIntent generation) = some t.store.intents := by
  obtain ⟨t,intents,res,hreach,hholding,hinsert,hintents,-⟩ := prepare_call (Q := anyRequest) (g := generation)
    (c := samplePrepare (some generation)) sample_setting h (sample_checks _) rfl hpos hfresh habsent trivial trivial
  refine ⟨t,hreach,hholding,?_⟩
  rw [hintents,← hinsert]
  unfold sampleIntent samplePrepareArgs
  rw [h.guard.2.2]
  rfl

theorem sample_begin (h : Holding sampleDatabase samplePacket sampleToken (sampleTime 1) sampleLease s.store)
    (hrow : s.store.intents.get (intentIdOf (sampleKey generation)) = some (sampleIntent generation)) :
    ∃ t r, SendReaches anyRequest s t ∧
      Holding sampleDatabase samplePacket sampleToken (sampleTime 1) sampleLease t.store ∧
      SameIntent (sampleIntent generation) r ∧ r.status = .physicalSendAttempted ∧
      ∀ i, t.store.intents.get i = if intentIdOf (sampleKey generation) = i then some r else s.store.intents.get i := by
  have hown : OwnIntent (⟨intentIdOf (sampleKey generation),samplePacket,sampleToken,sampleTime 1⟩ :
      SendArgs sampleRuntime) (preparedIntent (samplePrepareArgs generation) sampleLease sampleDatabase.projectId) :=
    @own_prepared _ sampleLease _ (samplePrepareArgs generation) sampleDatabase _ rfl
  have hdom : domCheck sampleRuntime (preparedIntent (samplePrepareArgs generation) sampleLease
      sampleDatabase.projectId) ⟨some sampleBinding.conversationId,true,true⟩ = .ok () :=
    domCheck_prepared rfl sample_setting.chat
  obtain ⟨t,r₁,r,o,res,hreach,hholding,hsame,hstatus,hget,-,-⟩ := attempt_call (Q := anyRequest)
    (c := sampleSendCall (intentIdOf (sampleKey generation)) (sampleTime 1)) sample_setting h hrow hown rfl hdom
    (fun _ _ => trivial) (fun _ _ => trivial) (fun _ _ => trivial)
  exact ⟨t,r,hreach,hholding,hsame,hstatus,hget⟩

/-- One owner prepares two intents of one continuation and begins both sends. -/
theorem two_generations_are_both_sent :
    ¬ ∀ (moves : List (SendMove sampleRuntime)) (id id' : String) (r r' : SendIntentRecord),
      let s := SendSystem.run (.begin sampleDatabase) moves
      s.store.intents.get id = some r → s.store.intents.get id' = some r' → SameContinuation r r' →
      attemptedOrLater r.status = true → attemptedOrLater r'.status = true → id = id' := by
  intro hclaim
  obtain ⟨t₁,l,o,hreach₁,hholding₁,-,hempty,-,hl⟩ := first_claim (Q := anyRequest) sample_setting trivial
  obtain rfl : l = sampleLease := hl
  -- both intents are prepared
  have hnone₁ : t₁.store.intents.get (intentIdOf (sampleKey 1)) = none := by
    rw [hempty]
    rfl
  have hfresh₁ : ∀ r ∈ t₁.store.intents.rows, r.intentKey ≠ sampleKey 1 := by
    intro r hr
    rw [hempty] at hr
    cases hr
  obtain ⟨t₂,hreach₂,hholding₂,hinsert₂⟩ := sample_prepare (le_refl 1) hholding₁ hfresh₁ hnone₁
  have hget₂ := get_insert hinsert₂
  have hnone₂ : t₂.store.intents.get (intentIdOf (sampleKey 2)) = none := by
    rw [hget₂,hempty]
    exact if_neg sampleKey_ids
  have hfresh₂ : ∀ r ∈ t₂.store.intents.rows, r.intentKey ≠ sampleKey 2 := by
    intro r hr
    rw [(insert_some hinsert₂).2,hempty] at hr
    obtain rfl := List.mem_singleton.mp hr
    exact fun hkey => sampleKey_ids (congrArg intentIdOf hkey)
  obtain ⟨t₃,hreach₃,hholding₃,hinsert₃⟩ := sample_prepare (by decide : 1 ≤ 2) hholding₂ hfresh₂ hnone₂
  have hget₃ := get_insert hinsert₃
  have hrow₁ : t₃.store.intents.get (intentIdOf (sampleKey 1)) = some (sampleIntent 1) := by
    rw [hget₃]
    refine (if_neg (Ne.symm sampleKey_ids)).trans ?_
    rw [hget₂]
    exact if_pos rfl
  -- both sends are begun
  obtain ⟨t₄,r,hreach₄,hholding₄,hsame,hstatus,hget₄⟩ := sample_begin hholding₃ hrow₁
  have hrow₂ : t₄.store.intents.get (intentIdOf (sampleKey 2)) = some (sampleIntent 2) := by
    rw [hget₄,if_neg sampleKey_ids,hget₃]
    exact if_pos rfl
  obtain ⟨t₅,r',hreach₅,-,hsame',hstatus',hget₅⟩ := sample_begin hholding₄ hrow₂
  obtain ⟨moves,-,rfl⟩ := (((hreach₁.trans hreach₂).trans hreach₃).trans hreach₄).trans hreach₅
  refine sampleKey_ids (hclaim moves _ _ r r' ?_ ?_ ?_ ?_ ?_)
  · refine (hget₅ _).trans ?_
    rw [if_neg (Ne.symm sampleKey_ids),hget₄]
    exact if_pos rfl
  · exact (hget₅ _).trans (if_pos rfl)
  · exact (hsame.continuation.symm.trans (sampleIntent_continuation 1 2)).trans hsame'.continuation
  · rw [hstatus]
    decide
  · rw [hstatus']
    decide

end Bdb.Continuation
