import Bdb.Continuation.ExactlyOnce
import Bdb.Continuation.LeaseSafety
import Bdb.Continuation.Progress

/-! # Closing a confirmed send

An acknowledgement completes the lease in one transaction and the intent in a second one.
It is accepted as long as the owner still holds the lease or has completed it before, also
after a crash between the two; an expired or reclaimed lease blocks it.
-/
namespace Bdb.Continuation

open Step ContinuationLeaseResult

variable {rt : Runtime} {db : Database} {r r' : SendIntentRecord} {l : ContinuationLeaseRecord}
  {p : ContinuationPacket rt} {token : String} {now : DateTime}

def Completable (db : Database) (p : ContinuationPacket rt) (token : String) (now : DateTime) : Prop :=
  ∃ l, db.leaseFor p.resourceId = some l ∧ l.ownerTokenHash = some (tokenDigest rt token) ∧
    (l.status = .completed ∨ l.status = .claimed ∧ now < l.expiresAt)

theorem ownedRow_of {hash message : String} (hrow : db.leaseFor p.resourceId = some l)
    (howner : l.ownerTokenHash = some hash) : ownedRow db p hash message = .ok l := by
  unfold ownedRow
  refine bind_of (needOr_ok.mpr hrow) ?_
  exact answerUnless_bind howner rfl

theorem complete_of_completable (h : Trailed db) (hregistered : db.revision.isSome = true)
    (hdigest : tokenDigest rt token ≠ "") (hcompletable : Completable db p token now) :
    accepted (complete p token now db).2 = true := by
  obtain ⟨l,hrow,howner,hstatus⟩ := hcompletable
  have hhash : ownerDigest rt token "complete requires the opaque owner token" = .ok (tokenDigest rt token) :=
    answerUnless_bind hdigest rfl
  rcases hstatus with hcompleted | ⟨hclaimed,hlive⟩
  · have hout : complete p token now db =
        (db,.ok (repeated "ALREADY_COMPLETED" "continuation completion is idempotent" l)) := by
      unfold complete
      refine transaction_of_answer ?_
      refine bind_answer.mpr (.inr ⟨_,hhash,?_⟩)
      refine bind_answer.mpr (.inr ⟨(),orRaise_ok.mpr (require_ok.mpr hregistered),?_⟩)
      refine bind_answer.mpr (.inr ⟨l,ownedRow_of hrow howner,?_⟩)
      exact bind_answer.mpr (.inl (answerUnless_answer.mpr ⟨not_not.mpr hcompleted,rfl⟩))
    rw [hout]
    rfl
  · have hheld : claimedBy (tokenDigest rt token) l = true := decide_eq_true ⟨hclaimed,howner⟩
    obtain ⟨done,hdone⟩ := writeLease_of (w := completeWrite (tokenDigest rt token) now) h hregistered hrow hheld now
    have hout : complete p token now db = (done,.ok ⟨true,"COMPLETED","continuation lease completed",
        some ((completeWrite (tokenDigest rt token) now).change l),none,true,false⟩) := by
      unfold complete
      refine transaction_of_ok ?_
      refine bind_of hhash ?_
      refine bind_of (orRaise_ok.mpr (require_of hregistered _ _)) ?_
      refine bind_of (ownedRow_of hrow howner) ?_
      refine bind_ok.mpr ⟨(),answerUnless_ok.mpr (by rw [hclaimed]; nofun),?_⟩
      refine answerUnless_bind hclaimed ?_
      refine answerUnless_bind hlive ?_
      exact bind_of hdone rfl
    rw [hout]
    rfl

theorem completable_of_complete (h : accepted (complete p token now db).2 = true) : Completable db p token now := by
  have hends : EndOfClaim rt db p.resourceId token now .completed (completeWrite (tokenDigest rt token) now)
      (complete p token now db) := complete_ends
  generalize complete p token now db = out at h hends
  cases hends with
  | @refused o hrefused =>
    cases o with
    | error f => cases h
    | ok res => cases h.symm.trans (hrefused res rfl)
  | @again l _ hown hstatus => exact ⟨l,hown.row,hown.owner,.inl hstatus⟩
  | @wrote l _ _ hown hheld hlive =>
    simp only [claimedBy,decide_eq_true_eq] at hheld
    exact ⟨l,hown.row,hown.owner,.inr ⟨hheld.1,hlive⟩⟩

/-! ## The two transactions -/

variable {a : SendArgs rt} {acknowledgement : SendAck} {id : String}

theorem SameIntent.trans {r'' : SendIntentRecord} (h : SameIntent r r') (h' : SameIntent r' r'') :
    SameIntent r r'' := by
  cases r
  cases r'
  cases r''
  simp_all [SameIntent]

theorem ackMatches_congr (h : SameIntent r r') : ackMatches r' a acknowledgement = ackMatches r a acknowledgement := by
  rw [h]
  rfl

def Confirmed (r : SendIntentRecord) (db : Database) : Prop :=
  ∃ r', db.intents.get r.intentId = some r' ∧ SameIntent r r' ∧ confirmedSend r'.status = true

def Acknowledged (r : SendIntentRecord) (db : Database) : Prop :=
  ∃ r', db.intents.get r.intentId = some r' ∧ SameIntent r r' ∧ r'.status = .acknowledged

theorem confirmed_step (db : Database) (q : SendRequest rt) (h : Confirmed r db) : Confirmed r (q.perform db).1 := by
  obtain ⟨r',hrow,hsame,hconfirmed⟩ := h
  refine kept_of_changes (P := fun r' => SameIntent r r' ∧ confirmedSend r'.status = true) hrow ⟨hsame,hconfirmed⟩ ?_
  intro kind r'' hchange
  exact ⟨hsame.trans hchange.same,(evidence_change hchange hconfirmed).1⟩

theorem acknowledged_step (db : Database) (q : SendRequest rt) (hrow : db.intents.get id = some r)
    (hstatus : r.status = .acknowledged) : (q.perform db).1.intents.get id = some r := by
  have hkeep : ∀ kind r', IntentChange db q kind r r' → r' = r := by
    intro kind r' hchange
    have hopen := hchange.not_terminal
    rw [hstatus] at hopen
    cases hopen
  obtain ⟨r',hrow',rfl⟩ := kept_of_changes (P := fun r' => r' = r) hrow rfl hkeep
  exact hrow'

theorem acknowledge_accepts (h : Trailed db) (hconfirmed : Confirmed r db) (now : DateTime) :
    acceptedResult (ackIntent r.intentId now db).2 = true ∧
      Acknowledged r (ackIntent r.intentId now db).1 := by
  obtain ⟨r',hrow,hsame,hstatus⟩ := hconfirmed
  by_cases hdone : r'.status = .acknowledged
  · have hout : ackIntent r.intentId now db =
        (db,.ok (.repeated "ALREADY_ACKNOWLEDGED" "acknowledgement replay is idempotent" r')) := by
      unfold ackIntent
      refine transaction_of_answer ?_
      refine bind_answer.mpr (.inr ⟨r',readIntent_of h hrow,?_⟩)
      exact bind_answer.mpr (.inl (answerUnless_answer.mpr ⟨not_not.mpr hdone,rfl⟩))
    rw [hout]
    exact ⟨rfl,r',hrow,hsame,hdone⟩
  · have hopen : r'.status = .sendConfirmed := by
      revert hstatus hdone
      cases r'.status <;> decide
    obtain ⟨done,hwrite⟩ := writeIntent_of (w := ackWrite now) h hrow (decide_eq_true hopen) now
    have hout : ackIntent r.intentId now db =
        (done,.ok (.written "ACKNOWLEDGED" "send intent acknowledged" ((ackWrite now).change r'))) := by
      unfold ackIntent
      refine transaction_of_ok ?_
      refine bind_of (readIntent_of h hrow) ?_
      refine answerUnless_bind hdone ?_
      refine answerUnless_bind hopen ?_
      exact bind_of hwrite rfl
    have hget := get_written (writeIntent_ok hrow hwrite).2.2 hrow rfl r.intentId
    rw [if_pos rfl] at hget
    rw [hout]
    exact ⟨rfl,_,hget,hsame.trans ((ackWrite now).keepsIdentity r'),rfl⟩

/-! ## An acknowledgement among other clients -/

abbrev meanwhile (db : Database) (others : List (List (SendRequest rt))) : Database :=
  Script.performAll SendRequest.perform db (others.headD [])

abbrev ackAmid (a : SendArgs rt) (acknowledgement : SendAck) (ackAt : DateTime)
    (others : List (List (SendRequest rt))) (db : Database) : Database × Outcome SendIntentResult :=
  (ack a acknowledgement ackAt).amid SendRequest.perform others db

variable (ackAt : DateTime) (others : List (List (SendRequest rt)))

theorem meanwhile_confirmed (h : Confirmed r db) : Confirmed r (meanwhile db others) :=
  Script.performAll_keeps (fun d q h => confirmed_step d q h) h _

theorem meanwhile_trailed (h : Trailed db) : Trailed (meanwhile db others) :=
  Script.performAll_keeps (fun d q => trailed_step d [] q) h _

theorem ack_of_acknowledged {read : SendIntentRecord} (hread : (meanwhile db others).intents.get a.intentId = some read)
    (hmatch : ackMatches read a acknowledgement = true) (howner : read.leaseOwnerTokenHash = tokenDigest rt a.token)
    (hstatus : read.status = .acknowledged) :
    ackAmid a acknowledgement ackAt others db = (meanwhile db others,
      .ok (.repeated "ALREADY_ACKNOWLEDGED" "acknowledgement replay is idempotent" read)) := by
  unfold ackAmid ack
  rw [Script.amid_ask]
  rw [show (SendRequest.perform (.readIntent a.intentId) (meanwhile db others)).2 = some read from hread]
  dsimp only
  rw [if_neg (by simp [hmatch]),if_neg (not_not.mpr howner),if_pos hstatus]
  rfl

theorem ack_of_confirmed {read : SendIntentRecord} (hread : (meanwhile db others).intents.get a.intentId = some read)
    (hmatch : ackMatches read a acknowledgement = true) (howner : read.leaseOwnerTokenHash = tokenDigest rt a.token)
    (hstatus : read.status = .sendConfirmed) :
    let completing := meanwhile (meanwhile db others) others.tail
    let completed := complete a.packet a.token a.now completing
    (accepted completed.2 = false → acceptedResult (ackAmid a acknowledgement ackAt others db).2 = false) ∧
      (accepted completed.2 = true → ackAmid a acknowledgement ackAt others db =
        ackIntent a.intentId ackAt (meanwhile completed.1 others.tail.tail)) := by
  intro completing completed
  unfold ackAmid ack
  rw [Script.amid_ask]
  rw [show (SendRequest.perform (.readIntent a.intentId) (meanwhile db others)).2 = some read from hread]
  dsimp only
  rw [if_neg (by simp [hmatch]),if_neg (not_not.mpr howner),if_neg (by rw [hstatus]; nofun),
    if_neg (not_not.mpr hstatus),Script.amid_ask]
  rw [show (SendRequest.perform (.readIntent a.intentId) (meanwhile db others)).1 = meanwhile db others from rfl]
  cases hcompleted : completed.2 with
  | error e =>
    rw [show (SendRequest.perform (.lease (.complete a.packet a.token) a.now)
      (meanwhile (meanwhile db others) others.tail)).2 = .error e from hcompleted]
    exact ⟨fun _ => rfl,nofun⟩
  | ok res =>
    rw [show (SendRequest.perform (.lease (.complete a.packet a.token) a.now)
      (meanwhile (meanwhile db others) others.tail)).2 = .ok res from hcompleted]
    dsimp only
    by_cases haccepted : res.accepted = false
    · rw [if_pos haccepted]
      exact ⟨fun _ => rfl,fun h => absurd (haccepted.symm.trans h) nofun⟩
    · rw [if_neg haccepted]
      exact ⟨fun h => absurd h haccepted,fun _ => rfl⟩

theorem ack_accepted_iff (h : Trailed db) (hid : r.intentId = a.intentId) (hconfirmed : Confirmed r db)
    (hmatch : ackMatches r a acknowledgement = true) (howner : r.leaseOwnerTokenHash = tokenDigest rt a.token) :
    let read := meanwhile db others
    let completing := meanwhile read others.tail
    let out := ackAmid a acknowledgement ackAt others db
    (acceptedResult out.2 = true ↔ Acknowledged r read ∨ Completable completing a.packet a.token a.now) ∧
      (acceptedResult out.2 = true → Acknowledged r out.1) := by
  intro read completing out
  have htrailed : Trailed completing := meanwhile_trailed _ (meanwhile_trailed _ h)
  have hconfirmed₂ : Confirmed r completing := meanwhile_confirmed _ (meanwhile_confirmed _ hconfirmed)
  obtain ⟨r₂,hrow₂,-,-⟩ := hconfirmed₂
  have hdigest : tokenDigest rt a.token ≠ "" := by
    obtain ⟨r₀,hrow₀,hsame₀,-⟩ := hconfirmed
    rw [← howner,← hsame₀.owner]
    exact h.owned _ _ hrow₀
  obtain ⟨r₁,hread,hsame,hstatus⟩ := meanwhile_confirmed others hconfirmed
  have hrow₁ : read.intents.get a.intentId = some r₁ := hid ▸ hread
  have hmatch₁ := (ackMatches_congr hsame).trans hmatch
  have howner₁ := hsame.owner.trans howner
  by_cases hdone : r₁.status = .acknowledged
  · have hout : out = _ := ack_of_acknowledged ackAt others hrow₁ hmatch₁ howner₁ hdone
    rw [hout]
    exact ⟨⟨fun _ => .inl ⟨r₁,hread,hsame,hdone⟩,fun _ => rfl⟩,fun _ => ⟨r₁,hread,hsame,hdone⟩⟩
  · have hopen : r₁.status = .sendConfirmed := by
      revert hstatus hdone
      cases r₁.status <;> decide
    have hnever : ¬ Acknowledged r read := by
      rintro ⟨r₀,hrow₀,-,hacknowledged⟩
      obtain rfl := some_unique hread hrow₀
      exact hdone hacknowledged
    obtain ⟨hrefused,hclosed⟩ := ack_of_confirmed ackAt others hrow₁ hmatch₁ howner₁ hopen
    by_cases hcompletable : Completable completing a.packet a.token a.now
    · have hcompleted := complete_of_completable htrailed (htrailed.registered _ _ hrow₂) hdigest hcompletable
      have hout : out = _ := hclosed hcompleted
      have hafter : Trailed (complete a.packet a.token a.now completing).1 :=
        trailed_step completing [] (.lease (.complete a.packet a.token) a.now) htrailed
      have hconfirmed₃ : Confirmed r (complete a.packet a.token a.now completing).1 :=
        confirmed_step completing (.lease (.complete a.packet a.token) a.now)
          (meanwhile_confirmed _ (meanwhile_confirmed _ hconfirmed))
      have haccepts := acknowledge_accepts (meanwhile_trailed others.tail.tail hafter)
        (meanwhile_confirmed others.tail.tail hconfirmed₃) ackAt
      rw [hout,← hid]
      exact ⟨⟨fun _ => .inr hcompletable,fun _ => haccepts.1⟩,fun _ => haccepts.2⟩
    · have hrejected : accepted (complete a.packet a.token a.now completing).2 = false := by
        rw [← Bool.not_eq_true]
        exact fun haccepted => hcompletable (completable_of_complete haccepted)
      have hout : acceptedResult out.2 = false := hrefused hrejected
      rw [hout]
      exact ⟨⟨nofun,fun hor => (hor.elim hnever hcompletable).elim⟩,nofun⟩

/-! ## The lease decides -/

def CompletedBy (db : Database) (p : ContinuationPacket rt) (token : String) : Prop :=
  ∃ l, db.leaseFor p.resourceId = some l ∧ l.ownerTokenHash = some (tokenDigest rt token) ∧ l.status = .completed

theorem completedBy_step (db : Database) (q : SendRequest rt) (h : CompletedBy db p token) :
    CompletedBy (q.perform db).1 p token := by
  obtain ⟨l,hrow,howner,hstatus⟩ := h
  refine ⟨l,?_,howner,hstatus⟩
  by_cases hlease : ∃ call now, q = .lease call now
  · obtain ⟨call,now,rfl⟩ := hlease
    rcases (lease_outcome call now db).row p.resourceId with hsame | ⟨hr,l₀,l',hbefore,hchange,-⟩
    · exact hsame.trans hrow
    · -- a completed lease is never written
      rw [hr] at hrow
      rcases hbefore with hl₀ | ⟨hnone,-⟩
      · obtain rfl := some_unique hl₀ hrow
        exact absurd hstatus (change_not_final hchange).1
      · rw [hnone] at hrow
        cases hrow
  · have hleases := leases_of_other q db fun call now hq => hlease ⟨call,now,hq⟩
    exact (leaseFor_congr hleases _).trans hrow

theorem meanwhile_completedBy (h : CompletedBy db p token) : CompletedBy (meanwhile db others) p token :=
  Script.performAll_keeps (fun d q h => completedBy_step d q h) h _

theorem meanwhile_row (hrow : db.intents.get id = some r) (hstatus : r.status = .acknowledged) :
    (meanwhile db others).intents.get id = some r :=
  Script.performAll_keeps (I := fun d => d.intents.get id = some r)
    (fun d q h => acknowledged_step d q h hstatus) hrow _

/-- The answer reports a repetition. -/
def idempotentResult (o : Outcome SendIntentResult) : Bool :=
  match o with
  | .ok res => res.accepted && res.idempotent
  | .error _ => false

theorem ack_repeats (hid : r.intentId = a.intentId) (h : Acknowledged r db)
    (hmatch : ackMatches r a acknowledgement = true) (howner : r.leaseOwnerTokenHash = tokenDigest rt a.token) :
    idempotentResult (ackAmid a acknowledgement ackAt others db).2 = true ∧
      (ackAmid a acknowledgement ackAt others db).1.intents.get a.intentId = db.intents.get a.intentId := by
  obtain ⟨r',hrow,hsame,hstatus⟩ := h
  rw [hid] at hrow
  have hread := meanwhile_row others hrow hstatus
  have hout : ackAmid a acknowledgement ackAt others db = _ :=
    ack_of_acknowledged ackAt others hread ((ackMatches_congr hsame).trans hmatch) (hsame.owner.trans howner) hstatus
  rw [hout]
  exact ⟨rfl,hread.trans hrow.symm⟩

/-- In every reachable state and among any other requests, an acknowledgement of a confirmed
intent by its owner and with its exact identity is accepted exactly when the intent was
acknowledged before, or when at the moment of the lease completion the owner holds the lease
or has completed it; a completed lease suffices forever. An accepted one leaves the intent
acknowledged, and every repetition of it is an idempotent success. -/
theorem confirmed_send_closes_under_its_lease (db : Database) (moves : List (SendMove rt)) (a : SendArgs rt)
    (acknowledgement : SendAck) (ackAt : DateTime) (others : List (List (SendRequest rt))) (r : SendIntentRecord)
    (hrow : (SendSystem.run (.begin db) moves).store.intents.get a.intentId = some r)
    (hstatus : r.status = .sendConfirmed) (hmatch : ackMatches r a acknowledgement = true)
    (howner : r.leaseOwnerTokenHash = tokenDigest rt a.token) :
    let store := (SendSystem.run (.begin db) moves).store
    let out := ackAmid a acknowledgement ackAt others store
    (acceptedResult out.2 = true ↔ Acknowledged r (meanwhile store others) ∨
      Completable (meanwhile (meanwhile store others) others.tail) a.packet a.token a.now) ∧
    (CompletedBy store a.packet a.token → acceptedResult out.2 = true) ∧
    (acceptedResult out.2 = true → Acknowledged r out.1 ∧ ∀ againAt later,
      idempotentResult (ackAmid a acknowledgement againAt later out.1).2 = true ∧
        (ackAmid a acknowledgement againAt later out.1).1.intents.get a.intentId = out.1.intents.get a.intentId) := by
  intro store out
  have hid := Table.key_of_get hrow
  have hconfirmed : Confirmed r store := ⟨r,hid ▸ hrow,rfl,by rw [hstatus]; decide⟩
  obtain ⟨hiff,hclosed⟩ := ack_accepted_iff ackAt others (trailed_run db moves) hid hconfirmed hmatch howner
  refine ⟨hiff,?_,?_⟩
  · intro hcompleted
    obtain ⟨l,hl,hown,hdone⟩ := meanwhile_completedBy others.tail (meanwhile_completedBy others hcompleted)
    exact hiff.mpr (.inr ⟨l,hl,hown,.inl hdone⟩)
  · intro haccepted
    refine ⟨hclosed haccepted,?_⟩
    intro againAt later
    exact ack_repeats againAt later hid (hclosed haccepted) hmatch howner

def sampleEvidence (r : SendIntentRecord) : StructuredSendEvidence :=
  ⟨r.intentId,r.continuationId,r.packetDigest,r.executionBindingId,"chat-1",r.messageDigest,"message-1",
    "STRUCTURED_DOM_MESSAGE",true,false,false⟩

def sampleAck (r : SendIntentRecord) : SendAck :=
  ⟨r.intentId,r.continuationId,r.packetDigest,r.executionBindingId,"chat-1"⟩

def sampleArgs (r : SendIntentRecord) (now : DateTime) : SendArgs sampleRuntime :=
  ⟨r.intentId,samplePacket,sampleToken,now⟩

theorem sample_confirmed : ∃ (moves : List (SendMove sampleRuntime)) (r : SendIntentRecord)
    (l : ContinuationLeaseRecord),
    let store := (SendSystem.run (.begin sampleDatabase) moves).store
    store.intents.get r.intentId = some r ∧ r.status = .sendConfirmed ∧
      (∀ now, ackMatches r (sampleArgs r now) (sampleAck r) = true) ∧
      r.leaseOwnerTokenHash = tokenDigest sampleRuntime sampleToken ∧
      store.leaseFor samplePacket.resourceId = some l ∧
      l.ownerTokenHash = some (tokenDigest sampleRuntime sampleToken) ∧ l.status = .claimed ∧
      l.expiresAt = sampleTime 31 := by
  obtain ⟨t,l,r,h⟩ := any_sample_attempt
  have hmatches : evidenceMatches r (sampleEvidence r) = true := by
    simp [evidenceMatches,sampleEvidence,h.chat]
  have hpositive : (sampleEvidence r).positive = true := rfl
  obtain ⟨done,res,hconfirm,-,hwritten⟩ := confirm_accepts h.holding.trailed h.row h.own hpositive hmatches
    (by rw [h.status]; decide)
  obtain ⟨t₁,hreach₁,hstore₁,-⟩ := reaches_of_completes (Q := anyRequest) (s := t)
    (show (ClientCall.confirm (sampleArgs r (sampleTime 1)) (sampleEvidence r)).program = .ask _ _ from rfl)
    (completes_request trivial)
  have hdone : t₁.store = done := by
    rw [hstore₁]
    change (confirmIntent (sampleArgs r (sampleTime 1)) (sampleEvidence r) t.store).1 = done
    exact congrArg Prod.fst hconfirm
  obtain ⟨moves,-,hrun⟩ := h.reached.trans hreach₁
  change SendSystem.run (.begin sampleDatabase) moves = t₁ at hrun
  have hleases : done.leases = t.store.leases := by
    obtain ⟨n,e,audit,-,-,-,rfl⟩ := hwritten.logged
    rfl
  have hpacket := h.own.packet
  simp only [packetMatches,Bool.and_eq_true,beq_iff_eq] at hpacket
  refine ⟨moves,(confirmWrite (sampleEvidence r) (sampleTime 1)).change r,l,?_,rfl,?_,h.own.owner,?_,h.holding.holds.owner,
    h.holding.holds.claimed,h.expires⟩
  · rw [hrun,hdone]
    exact (get_written hwritten h.row rfl r.intentId).trans (if_pos rfl)
  · intro now
    simp [ackMatches,sampleArgs,sampleAck,confirmWrite,h.chat,hpacket]
  · rw [hrun,hdone]
    exact (leaseFor_congr hleases _).trans h.holding.holds.row

/-- The owner acknowledges within the lease, and again after it. -/
theorem sample_send_is_closed : ∃ (moves : List (SendMove sampleRuntime)) (r : SendIntentRecord),
    let store := (SendSystem.run (.begin sampleDatabase) moves).store
    let out := ackAmid (sampleArgs r (sampleTime 2)) (sampleAck r) (sampleTime 2) [] store
    acceptedResult out.2 = true ∧
      idempotentResult (ackAmid (sampleArgs r (sampleTime 2)) (sampleAck r) (sampleTime 1000) [] out.1).2 = true := by
  obtain ⟨moves,r,l,hrow,hstatus,hmatch,howner,hlease,hheld,hclaimed,hexpires⟩ := sample_confirmed
  obtain ⟨hiff,-,hclosed⟩ := confirmed_send_closes_under_its_lease sampleDatabase moves (sampleArgs r (sampleTime 2))
    (sampleAck r) (sampleTime 2) [] r hrow hstatus (hmatch _) howner
  have hunexpired : sampleTime 2 < l.expiresAt := by
    rw [hexpires]
    decide
  have haccepted := hiff.mpr (.inr ⟨l,hlease,hheld,.inr ⟨hclaimed,hunexpired⟩⟩)
  exact ⟨moves,r,haccepted,((hclosed haccepted).2 (sampleTime 1000) []).1⟩

/-- An acknowledgement after the lease has expired is rejected. -/
theorem expired_lease_blocks_acknowledgement :
    ¬ ∀ (moves : List (SendMove sampleRuntime)) (a : SendArgs sampleRuntime) (acknowledgement : SendAck)
        (ackAt : DateTime) (r : SendIntentRecord),
      (SendSystem.run (.begin sampleDatabase) moves).store.intents.get a.intentId = some r →
      r.status = .sendConfirmed → ackMatches r a acknowledgement = true →
      r.leaseOwnerTokenHash = tokenDigest sampleRuntime a.token →
      acceptedResult ((ack a acknowledgement ackAt).alone SendRequest.perform
        (SendSystem.run (.begin sampleDatabase) moves).store).2 = true := by
  intro hclaim
  obtain ⟨moves,r,l,hrow,hstatus,hmatch,howner,hlease,hheld,hclaimed,hexpires⟩ := sample_confirmed
  have haccepted := hclaim moves (sampleArgs r (sampleTime 1000)) (sampleAck r) (sampleTime 1000) r hrow hstatus
    (hmatch _) howner
  have hconfirmed : Confirmed r (SendSystem.run (.begin sampleDatabase) moves).store :=
    ⟨r,hrow,rfl,by rw [hstatus]; decide⟩
  rcases (ack_accepted_iff (sampleTime 1000) [] (trailed_run sampleDatabase moves) rfl hconfirmed
    (hmatch (sampleTime 1000)) howner).1.mp haccepted with ⟨r',hrow',-,hacknowledged⟩ | ⟨l',hlease',-,hopen⟩
  · obtain rfl := some_unique hrow hrow'
    rw [hstatus] at hacknowledged
    cases hacknowledged
  · obtain rfl := some_unique hlease hlease'
    rw [hclaimed,hexpires] at hopen
    have hlate : ¬ (LeaseStatus.claimed = .completed ∨ LeaseStatus.claimed = .claimed ∧ sampleTime 1000 < sampleTime 31) := by
      decide
    exact hlate hopen

end Bdb.Continuation
