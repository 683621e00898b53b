import Bdb.Continuation.LeaseSteps
import Bdb.Continuation.SendIntent

/-! # What a request can do to an intent

A request leaves the row of an intent alone, creates it, or makes one of nine kinds of
writes to it. The writes are listed with what the code has checked before each; every
property of the send protocol is read off this list.
-/
namespace Bdb.Continuation

open Step SendIntentResult Table

variable {rt : Runtime}

/-! ## The list of writes -/

inductive ChangeKind where
  | fenced
  | allowed
  | attempted
  | uncertain
  | confirmed
  | reconciled
  | retried
  | acknowledged
  | cancelled
deriving DecidableEq

namespace ChangeKind

def starts : ChangeKind → SendStatus → Bool
  | fenced, s => fenceable s
  | allowed, s => s = .prepared
  | attempted, s => s = .sendAllowed
  | uncertain, s => s = .physicalSendAttempted
  | confirmed, s => awaitingEvidence s
  | reconciled, s => s = .uncertain ∨ s = .physicalSendAttempted
  | retried, s => awaitingEvidence s
  | acknowledged, s => s = .sendConfirmed
  | cancelled, s => fenceable s

def ends : ChangeKind → SendStatus
  | fenced => .fenced
  | allowed => .sendAllowed
  | attempted => .physicalSendAttempted
  | uncertain => .uncertain
  | confirmed => .sendConfirmed
  | reconciled => .reconciliationRequired
  | retried => .sendAllowed
  | acknowledged => .acknowledged
  | cancelled => .cancelled

end ChangeKind

/-- The intent belongs to the packet and to the owner of the token. -/
structure OwnIntent (a : SendArgs rt) (r : SendIntentRecord) : Prop where
  packet : packetMatches r a.packet = true
  owner : r.leaseOwnerTokenHash = tokenDigest rt a.token

def UnderLease (a : SendArgs rt) (db : Database) : Prop :=
  ∃ l, db.liveLeaseCheck a.packet a.token a.now .dispatchSend = .ok l

inductive IntentChange (db : Database) :
    SendRequest rt → ChangeKind → SendIntentRecord → SendIntentRecord → Prop
  | fenced {intentId reason : String} {now : DateTime} {r : SendIntentRecord} (hid : r.intentId = intentId)
      (hstatus : fenceable r.status = true) :
      IntentChange db (.fence intentId reason now) .fenced r (fenceChange reason now r)
  | fencedBeforeAllow {a : SendArgs rt} {r : SendIntentRecord} {reason : String}
      (hid : r.intentId = a.intentId) (hown : OwnIntent a r) (hstatus : r.status = .prepared) :
      IntentChange db (.allow a) .fenced r (fenceChange reason a.now r)
  | fencedBeforeBegin {a : SendArgs rt} {r : SendIntentRecord} {reason : String}
      (hid : r.intentId = a.intentId) (hown : OwnIntent a r) (hstatus : r.status = .sendAllowed) :
      IntentChange db (.begin a) .fenced r (fenceChange reason a.now r)
  | stopped {q : StopRequest} {r : SendIntentRecord} {c : ScopeCursor} (hcursor : db.cursor = some c)
      (hstatus : r.status = .prepared ∨ r.status = .sendAllowed) :
      IntentChange db (.stop q) .fenced r (r.stop q.now)
  | allowed {a : SendArgs rt} {r : SendIntentRecord} (hid : r.intentId = a.intentId) (hown : OwnIntent a r)
      (hlease : UnderLease a db) (hstatus : r.status = .prepared) :
      IntentChange db (.allow a) .allowed r ((allowWrite a.now).change r)
  | attempted {a : SendArgs rt} {r : SendIntentRecord} (hid : r.intentId = a.intentId) (hown : OwnIntent a r)
      (hlease : UnderLease a db) (hstatus : r.status = .sendAllowed) :
      IntentChange db (.begin a) .attempted r ((beginWrite a.now).change r)
  | uncertain {intentId token reason why : String} {now : DateTime} {r : SendIntentRecord}
      (hid : r.intentId = intentId) (howner : r.leaseOwnerTokenHash = tokenDigest rt token)
      (hstatus : r.status = .physicalSendAttempted) :
      IntentChange db (.markUncertain intentId token reason now) .uncertain r ((uncertainWrite why now).change r)
  | confirmed {a : SendArgs rt} {evidence : StructuredSendEvidence} {r : SendIntentRecord}
      (hid : r.intentId = a.intentId) (hown : OwnIntent a r) (hpositive : evidence.positive = true)
      (hmatches : evidenceMatches r evidence = true) (hstatus : awaitingEvidence r.status = true) :
      IntentChange db (.confirm a evidence) .confirmed r ((confirmWrite evidence a.now).change r)
  | reconciled {intentId : String} {read r : SendIntentRecord} {now : DateTime} (hid : r.intentId = intentId)
      (hstatus : r.status = .uncertain ∨ r.status = .physicalSendAttempted) :
      IntentChange db (.requireReconciliation intentId read now) .reconciled r ((reconcileWrite now).change r)
  | retried {intentId : String} {proof : NoDeliveryProof} {now : DateTime} {r : SendIntentRecord}
      (hid : r.intentId = intentId) (hstatus : awaitingEvidence r.status = true) :
      IntentChange db (.retry intentId proof now) .retried r ((retryWrite now).change r)
  | acknowledged {intentId : String} {now : DateTime} {r : SendIntentRecord} (hid : r.intentId = intentId)
      (hstatus : r.status = .sendConfirmed) :
      IntentChange db (.acknowledge intentId now) .acknowledged r ((ackWrite now).change r)
  | cancelled {intentId token reason why : String} {now : DateTime} {r : SendIntentRecord}
      (hid : r.intentId = intentId) (howner : r.leaseOwnerTokenHash = tokenDigest rt token)
      (hstatus : fenceable r.status = true) :
      IntentChange db (.cancel intentId token reason now) .cancelled r ((cancelWrite why now).change r)

/-- The database after one write of an intent row. -/
structure IntentWritten (db : Database) (r : SendIntentRecord) (db' : Database) : Prop where
  logged : ∃ n e audit, db.revision = some n ∧
    (e.eventId = .intent r.intentId r.stateRevision ∧ e.revision = db.nextEventRevision) ∧
    db.audit.insert e = some audit ∧
    db' = { db with intents := db.intents.put r, revision := some (n + 1), audit := audit }

variable {db db' : Database} {r r' : SendIntentRecord} {id : String} {now : DateTime} {kind : ChangeKind}
  {q : SendRequest rt}

section

variable (h : IntentChange db q kind r r')

include h

theorem IntentChange.same : SameIntent r r' := by
  cases h with
  | stopped hcursor hstatus =>
    unfold SendIntentRecord.stop
    rw [if_pos hstatus]
    rfl
  | _ => rfl

theorem IntentChange.revision : r'.stateRevision = r.stateRevision + 1 := by
  cases h with
  | stopped hcursor hstatus =>
    unfold SendIntentRecord.stop
    rw [if_pos hstatus]
  | _ => rfl

theorem IntentChange.status :
    kind.starts r.status = true ∧ r'.status = kind.ends := by
  cases h with
  | stopped hcursor hstatus =>
    refine ⟨?_,?_⟩
    · rcases hstatus with hs | hs <;> rw [hs] <;> rfl
    · unfold SendIntentRecord.stop
      rw [if_pos hstatus]
      rfl
  | fencedBeforeAllow hid hown hstatus | fencedBeforeBegin hid hown hstatus => exact ⟨by rw [hstatus]; rfl,rfl⟩
  | allowed hid hown hlease hstatus | attempted hid hown hlease hstatus => exact ⟨decide_eq_true hstatus,rfl⟩
  | uncertain hid howner hstatus | reconciled hid hstatus | acknowledged hid hstatus => exact ⟨decide_eq_true hstatus,rfl⟩
  | fenced hid hstatus | confirmed hid hown hpositive hmatches hstatus => exact ⟨hstatus,rfl⟩
  | retried hid hstatus | cancelled hid howner hstatus => exact ⟨hstatus,rfl⟩

theorem IntentChange.evidence :
    (kind ≠ .confirmed → r'.deliveryEvidence = r.deliveryEvidence) ∧
      (kind = .confirmed → ∃ e, r'.deliveryEvidence = some e ∧ evidenceMatches r' e = true) := by
  cases h with
  | @confirmed a evidence _ hid hown hpositive hmatches hstatus =>
    exact ⟨fun h => absurd rfl h,fun _ => ⟨evidence,rfl,hmatches⟩⟩
  | stopped hcursor hstatus =>
    refine ⟨fun _ => ?_,nofun⟩
    unfold SendIntentRecord.stop
    rw [if_pos hstatus]
  | _ => exact ⟨fun _ => rfl,nofun⟩

end

theorem SameIntent.intentId (h : SameIntent r r') : r'.intentId = r.intentId := by
  rw [h]

theorem SameIntent.owner (h : SameIntent r r') : r'.leaseOwnerTokenHash = r.leaseOwnerTokenHash := by
  rw [h]

/-! ## Single writes -/

theorem IntentWritten.intents (h : IntentWritten db r db') : db'.intents = db.intents.put r := by
  obtain ⟨n,e,audit,-,-,-,rfl⟩ := h.logged
  rfl

theorem get_written (h : IntentWritten db r' db') (hrow : db.intents.get id = some r)
    (hsame : r'.intentId = r.intentId) (i : String) :
    db'.intents.get i = if id = i then some r' else db.intents.get i := by
  have hid : r'.intentId = id := hsame.trans (key_of_get hrow)
  rw [h.intents]
  have hget := get_put (a := r') (b := r) (t := db.intents) (by rw [hid]; exact hrow) i
  rw [hid] at hget
  exact hget

theorem updateIntent_some {test : SendStatus → Bool} {f : SendIntentRecord → SendIntentRecord}
    (hrow : db.intents.get id = some r) (h : db.updateIntent r test f = some db') :
    test r.status = true ∧ db' = { db with intents := db.intents.put (f r) } := by
  unfold Database.updateIntent at h
  rw [show db.intents.get r.intentId = some r from (key_of_get hrow) ▸ hrow] at h
  by_cases htest : test r.status = true
  · simp only [htest,true_and,if_true] at h
    cases h
    exact ⟨htest,rfl⟩
  · simp [htest] at h

theorem get_put_row (hrow : db.intents.get id = some r) (hsame : r'.intentId = r.intentId) :
    (db.intents.put r').get r.intentId = some r' := by
  have hrow' : db.intents.get r'.intentId = some r := by
    rw [hsame,key_of_get hrow]
    exact hrow
  rw [get_put hrow',if_pos hsame]

variable {w : IntentWrite} {ρ : Type} {reason message : String}
    {go : Step SendIntentResult (Database × SendIntentResult)} {flag reported : Bool}
    {out : Database × Outcome SendIntentResult}

theorem writeIntent_ok (hrow : db.intents.get id = some r) (h : writeIntent db r w now = .ok (db',r')) :
    w.test r.status = true ∧ r' = w.change r ∧ IntentWritten db (w.change r) db' := by
  unfold writeIntent at h
  obtain ⟨updated,hupdated,h⟩ := bind_ok.mp h
  obtain ⟨htest,rfl⟩ := updateIntent_some hrow (needOr_ok.mp hupdated)
  obtain ⟨bumped,hbumped,h⟩ := bind_ok.mp h
  obtain ⟨n,hn,rfl⟩ := Database.bumpProjectRevision_ok (orRaise_ok.mp hbumped)
  obtain ⟨stored,hstored,h⟩ := bind_ok.mp h
  have hback := need_ok.mp (orRaise_ok.mp hstored)
  have hput := get_put_row hrow (w.keepsIdentity r).intentId
  cases hput.symm.trans hback
  obtain ⟨done,hdone,h⟩ := bind_ok.mp h
  obtain ⟨audit,hinsert,rfl⟩ := Database.appendEvent_ok (orRaise_ok.mp hdone)
  cases pure_ok.mp h
  exact ⟨htest,rfl,n,_,audit,hn,⟨rfl,rfl⟩,hinsert,rfl⟩

theorem fenceOnConn_ok {o : Option SendIntentRecord} (hrow : db.intents.get id = some r)
    (h : (fenceOnConn db (some r) reason now : Step ρ (Database × Option SendIntentRecord)) = .ok (db',o)) :
    db' = db ∨ fenceable r.status = true ∧ IntentWritten db (fenceChange reason now r) db' := by
  unfold fenceOnConn at h
  dsimp only at h
  split at h
  · cases pure_ok.mp h
    exact .inl rfl
  · split at h
    · cases pure_ok.mp h
      exact .inl rfl
    · rename_i updated hupdated
      obtain ⟨htest,rfl⟩ := updateIntent_some hrow hupdated
      obtain ⟨bumped,hbumped,h⟩ := bind_ok.mp h
      obtain ⟨n,hn,rfl⟩ := Database.bumpProjectRevision_ok (orRaise_ok.mp hbumped)
      have hput : (db.intents.put (fenceChange reason now r)).get r.intentId = some (fenceChange reason now r) :=
        get_put_row hrow rfl
      split at h
      · rename_i hnone
        rw [show (db.intents.put (fenceChange reason now r)).get r.intentId = none from hnone] at hput
        cases hput
      · rename_i stored hstored
        cases hput.symm.trans hstored
        obtain ⟨done,hdone,h⟩ := bind_ok.mp h
        obtain ⟨audit,hinsert,rfl⟩ := Database.appendEvent_ok (orRaise_ok.mp hdone)
        cases pure_ok.mp h
        exact .inr ⟨htest,n,_,audit,hn,⟨rfl,rfl⟩,hinsert,rfl⟩

theorem answers_fenceOnConn {P : ρ → Prop} {read : Option SendIntentRecord} :
    Answers P (fenceOnConn db read reason now) := by
  unfold fenceOnConn
  split
  · exact answers_pure _
  · split
    · exact answers_pure _
    · split
      · exact answers_pure _
      · refine answers_raise fun _ => ?_
        split
        · exact answers_pure _
        · exact answers_bind (answers_orRaise _) fun _ _ => answers_pure _

/-! ## What each transaction does -/

def acceptedResult (o : Outcome SendIntentResult) : Bool :=
  match o with
  | .ok res => res.accepted
  | .error _ => false

def mutatedResult (o : Outcome SendIntentResult) : Bool :=
  match o with
  | .ok res => res.mutated
  | .error _ => false

namespace SendRequest

def isBegin : SendRequest rt → Bool
  | .begin _ => true
  | _ => false

def isRetry : SendRequest rt → Bool
  | .retry _ _ _ => true
  | _ => false

def isCancel : SendRequest rt → Bool
  | .cancel _ _ _ _ => true
  | _ => false

end SendRequest

/-- An answer without a write reports none, and a begin is then refused. -/
structure QuietResult (q : SendRequest rt) (res : SendIntentResult) : Prop where
  unmutated : res.mutated = false
  refused : q.isBegin = true → res.accepted = false

/-- An accepted begin is an attempt; a retry or a cancel that is written reports it. -/
structure CountsAs (q : SendRequest rt) (kind : ChangeKind) (res : SendIntentResult) : Prop where
  begun : q.isBegin = true → (res.accepted = true ↔ kind = .attempted)
  reported : q.isRetry = true ∨ q.isCancel = true → res.mutated = true

variable {res : SendIntentResult} {a : SendArgs rt}

theorem CountsAs.of_other (hb : q.isBegin = false) (hr : q.isRetry = false)
    (hc : q.isCancel = false) : CountsAs q kind res :=
  ⟨by simp [hb],by simp [hr,hc]⟩

inductive SendOutcome (db : Database) (q : SendRequest rt) : Database × Outcome SendIntentResult → Prop
  | quiet {o : Outcome SendIntentResult} (h : ∀ res, o = .ok res → QuietResult q res) : SendOutcome db q (db,o)
  | wrote {kind : ChangeKind} {r r' : SendIntentRecord} {db' : Database} {res : SendIntentResult}
      (hrow : db.intents.get r.intentId = some r) (hchange : IntentChange db q kind r r')
      (hwritten : IntentWritten db r' db') (hcounts : CountsAs q kind res) : SendOutcome db q (db',.ok res)

theorem QuietResult.of_refused (hm : res.mutated = false) (ha : res.accepted = false) : QuietResult q res :=
  ⟨hm,fun _ => ha⟩

/-- A body that answers quietly or ends with an outcome. -/
abbrev Settles (db : Database) (q : SendRequest rt) (body : Step SendIntentResult (Database × SendIntentResult)) : Prop :=
  Gives (QuietResult q) (fun done => SendOutcome db q (done.1,.ok done.2)) body

theorem sendOutcome_of_body {failed : Failure → SendIntentResult}
    {body : Step SendIntentResult (Database × SendIntentResult)}
    (hfailed : ∀ f, (failed f).mutated = false ∧ (failed f).accepted = false) (h : Settles db q body) :
    SendOutcome db q (transaction failed db body) := by
  refine transaction_ends (R := SendOutcome db q) (fun f => .quiet fun res hres => ?_) (fun _ => .quiet fun _ h => by cases h)
    ⟨h.answers.mono fun res hres => .quiet fun res' hout => ?_,h.ok⟩
  · cases hres
    exact .of_refused (hfailed f).1 (hfailed f).2
  · cases hout
    exact hres

theorem gives_readIntent : Gives (QuietResult q) (fun r => db.intents.get id = some r) (readIntent db id) := by
  unfold readIntent
  refine gives_raise fun _ _ => ?_
  exact ⟨answers_needOr (.of_refused rfl rfl),fun _ => needOr_ok.mp⟩

theorem gives_ownIntent :
    Gives (QuietResult q) (fun r => db.intents.get a.intentId = some r ∧ OwnIntent a r) (ownIntent a db message) := by
  unfold ownIntent
  refine gives_bind gives_readIntent fun r hrow => ?_
  refine gives_check (fun _ => .of_refused rfl rfl) fun hpacket => ?_
  exact gives_check (fun _ => .of_refused rfl rfl) fun howner => gives_pure ⟨hrow,hpacket,howner⟩

theorem answers_writeIntent : Answers (QuietResult q) (writeIntent db r w now) := by
  unfold writeIntent
  refine answers_bind (answers_needOr (.of_refused rfl rfl)) fun _ _ => ?_
  refine answers_raise fun _ => ?_
  refine answers_raise fun _ => ?_
  exact answers_bind (answers_orRaise _) fun _ _ => answers_pure _

/-- A transaction that ends with its write. -/
theorem gives_wrote {k : Database × SendIntentRecord → Step SendIntentResult (Database × SendIntentResult)}
    (hrow : db.intents.get id = some r) (hchange : IntentChange db q kind r (w.change r))
    (hk : ∀ t, k (t,w.change r) = pure (t,res)) (hcounts : CountsAs q kind res) :
    Settles db q (writeIntent db r w now >>= k) := by
  refine gives_bind ⟨answers_writeIntent,fun _ => writeIntent_ok hrow⟩ fun (t,stored) hwrite => ?_
  obtain ⟨-,rfl,hwritten⟩ := hwrite
  rw [hk]
  exact gives_pure (.wrote ((key_of_get hrow).symm ▸ hrow) hchange hwritten hcounts)

/-- Without its lease the transaction fences the intent instead. -/
theorem gives_underLease (hrow : db.intents.get id = some r)
    (hgo : UnderLease a db → Settles db q go)
    (hfenced : ∀ reason, IntentChange db q .fenced r (fenceChange reason a.now r))
    (hcounts : ∀ code message stored, CountsAs q .fenced (rejected code message stored)) :
    Settles db q (underLease a db r go) := by
  unfold underLease
  split
  · rename_i l hl
    exact hgo ⟨l,hl⟩
  · rename_i f hf
    refine gives_bind ⟨answers_fenceOnConn,fun _ => fenceOnConn_ok hrow⟩ fun done hfence => gives_pure ?_
    rcases hfence with hsame | ⟨hstatus,hwritten⟩
    · rw [hsame]
      refine .quiet fun res hres => ?_
      cases hres
      exact .of_refused rfl rfl
    · exact .wrote ((key_of_get hrow).symm ▸ hrow) (hfenced f.code) hwritten (hcounts _ _ _)

theorem allow_outcome (a : SendArgs rt) (db : Database) : SendOutcome db (.allow a) (allowIntent a db) := by
  unfold allowIntent
  refine sendOutcome_of_body (fun _ => ⟨rfl,rfl⟩) ?_
  refine gives_bind gives_ownIntent fun r ⟨hrow,hown⟩ => ?_
  have hid := key_of_get hrow
  refine gives_check (fun _ => ⟨rfl,nofun⟩) fun _ => ?_
  refine gives_check (fun _ => .of_refused rfl rfl) fun hstatus => ?_
  refine gives_underLease hrow (fun hlease => ?_) (fun _ => .fencedBeforeAllow hid hown hstatus) fun _ _ _ => .of_other rfl rfl rfl
  exact gives_wrote hrow (.allowed hid hown hlease hstatus) (fun _ => rfl) (.of_other rfl rfl rfl)

theorem begin_outcome (a : SendArgs rt) (db : Database) : SendOutcome db (.begin a) (beginIntent a db) := by
  unfold beginIntent
  refine sendOutcome_of_body (fun _ => ⟨rfl,rfl⟩) ?_
  refine gives_bind gives_ownIntent fun r ⟨hrow,hown⟩ => ?_
  have hid := key_of_get hrow
  refine gives_check (fun _ => .of_refused rfl rfl) fun _ => ?_
  refine gives_check (fun _ => .of_refused rfl rfl) fun hstatus => ?_
  refine gives_underLease hrow (fun hlease => ?_) (fun _ => .fencedBeforeBegin hid hown hstatus) fun _ _ _ => ?_
  · exact gives_wrote hrow (.attempted hid hown hlease hstatus) (fun _ => rfl)
      ⟨fun _ => ⟨fun _ => rfl,fun _ => rfl⟩,by simp [SendRequest.isRetry,SendRequest.isCancel]⟩
  · exact ⟨fun _ => ⟨nofun,nofun⟩,by simp [SendRequest.isRetry,SendRequest.isCancel]⟩

theorem uncertain_outcome (intentId token reason : String) (now : DateTime) (db : Database) :
    SendOutcome db (.markUncertain intentId token reason now : SendRequest rt)
      (markUncertainIntent rt intentId token reason now db) := by
  unfold markUncertainIntent
  refine sendOutcome_of_body (fun _ => ⟨rfl,rfl⟩) ?_
  refine gives_check (fun _ => .of_refused rfl rfl) fun _ => ?_
  refine gives_bind gives_readIntent fun r hrow => ?_
  refine gives_check (fun _ => .of_refused rfl rfl) fun howner => ?_
  refine gives_check (fun _ => ⟨rfl,nofun⟩) fun _ => ?_
  refine gives_check (fun _ => .of_refused rfl rfl) fun hstatus => ?_
  exact gives_wrote hrow (.uncertain (key_of_get hrow) howner hstatus) (fun _ => rfl) (.of_other rfl rfl rfl)

theorem confirm_outcome (a : SendArgs rt) (evidence : StructuredSendEvidence) (db : Database) :
    SendOutcome db (.confirm a evidence) (confirmIntent a evidence db) := by
  unfold confirmIntent
  refine sendOutcome_of_body (fun _ => ⟨rfl,rfl⟩) ?_
  refine gives_check (fun _ => .of_refused rfl rfl) fun _ => ?_
  refine gives_bind gives_ownIntent fun r ⟨hrow,hown⟩ => ?_
  refine gives_check (fun _ => .of_refused rfl rfl) fun hpositive => ?_
  refine gives_check (fun _ => .of_refused rfl rfl) fun hmatches => ?_
  split
  · split
    · exact gives_answer ⟨rfl,nofun⟩
    · exact gives_answer (.of_refused rfl rfl)
  · refine gives_check (fun _ => .of_refused rfl rfl) fun hstatus => ?_
    exact gives_wrote hrow (.confirmed (key_of_get hrow) hown hpositive hmatches hstatus) (fun _ => rfl) (.of_other rfl rfl rfl)

theorem reconcile_outcome (intentId : String) (read : SendIntentRecord) (now : DateTime) (db : Database) :
    SendOutcome db (.requireReconciliation intentId read now : SendRequest rt)
      (requireReconciliation intentId read now db) := by
  unfold requireReconciliation
  refine sendOutcome_of_body (fun _ => ⟨rfl,rfl⟩) ?_
  refine gives_bind gives_readIntent fun r hrow => ?_
  refine gives_check (fun _ => .of_refused rfl rfl) fun hstatus => ?_
  exact gives_wrote hrow (.reconciled (key_of_get hrow) hstatus) (fun _ => rfl) (.of_other rfl rfl rfl)

theorem retry_outcome (intentId : String) (proof : NoDeliveryProof) (now : DateTime) (db : Database) :
    SendOutcome db (.retry intentId proof now : SendRequest rt) (retryIntent intentId now db) := by
  unfold retryIntent
  refine sendOutcome_of_body (fun _ => ⟨rfl,rfl⟩) ?_
  refine gives_bind gives_readIntent fun r hrow => ?_
  refine gives_check (fun _ => ⟨rfl,nofun⟩) fun _ => ?_
  refine gives_check (fun _ => .of_refused rfl rfl) fun hstatus => ?_
  exact gives_wrote hrow (.retried (key_of_get hrow) hstatus) (fun _ => rfl) ⟨nofun,fun _ => rfl⟩

theorem ack_outcome (intentId : String) (now : DateTime) (db : Database) :
    SendOutcome db (.acknowledge intentId now : SendRequest rt) (ackIntent intentId now db) := by
  unfold ackIntent
  refine sendOutcome_of_body (fun _ => ⟨rfl,rfl⟩) ?_
  refine gives_bind gives_readIntent fun r hrow => ?_
  refine gives_check (fun _ => ⟨rfl,nofun⟩) fun _ => ?_
  refine gives_check (fun _ => .of_refused rfl rfl) fun hstatus => ?_
  exact gives_wrote hrow (.acknowledged (key_of_get hrow) hstatus) (fun _ => rfl) (.of_other rfl rfl rfl)

theorem cancel_outcome (intentId token reason : String) (now : DateTime) (db : Database) :
    SendOutcome db (.cancel intentId token reason now : SendRequest rt)
      (cancelIntent rt intentId token reason now db) := by
  unfold cancelIntent
  refine sendOutcome_of_body (fun _ => ⟨rfl,rfl⟩) ?_
  refine gives_check (fun _ => .of_refused rfl rfl) fun _ => ?_
  refine gives_bind gives_readIntent fun r hrow => ?_
  refine gives_check (fun _ => .of_refused rfl rfl) fun howner => ?_
  refine gives_check (fun _ => ⟨rfl,nofun⟩) fun _ => ?_
  refine gives_check (fun _ => .of_refused rfl rfl) fun hstatus => ?_
  exact gives_wrote hrow (.cancelled (key_of_get hrow) howner hstatus) (fun _ => rfl) ⟨nofun,fun _ => rfl⟩

theorem fence_cases (intentId reason : String) (now : DateTime) (db : Database) :
    (fenceIntent intentId reason now db).1 = db ∨
      ∃ r, db.intents.get intentId = some r ∧ fenceable r.status = true ∧
        IntentWritten db (fenceChange reason now r) (fenceIntent intentId reason now db).1 := by
  unfold fenceIntent
  refine transaction_state (Q := fun t => ∃ r, db.intents.get intentId = some r ∧ fenceable r.status = true ∧
    IntentWritten db (fenceChange reason now r) t) fun t res hbody => ?_
  obtain ⟨_,_,h⟩ := bind_ok.mp hbody
  cases hrow : db.intents.get intentId with
  | none =>
    rw [hrow] at h
    cases pure_ok.mp h
    exact .inl rfl
  | some r =>
    rw [hrow] at h
    rcases fenceOnConn_ok hrow h with hsame | ⟨hstatus,hwritten⟩
    · exact .inl hsame
    · exact .inr ⟨r,rfl,hstatus,hwritten⟩

/-- What a prepare has checked when it creates its intent. -/
structure Prepared (a : PrepareArgs rt) (db : Database) (lease : ContinuationLeaseRecord) : Prop where
  valid : validatePacket a.packet a.authority a.now = .ok ()
  lease : db.liveLeaseCheck a.packet a.token a.now .queueClaim = .ok lease
  fresh : ∀ r ∈ db.intents.rows, r.intentKey ≠ a.key
  absent : db.intents.get (intentIdOf a.key) = none

theorem prepare_cases (a : PrepareArgs rt) (db : Database) :
    (prepareIntent a db).1 = db ∨
      ∃ lease n e intents audit, Prepared a db lease ∧ db.revision = some n ∧
        (e.eventId = .intent (intentIdOf a.key) 1 ∧ e.revision = db.nextEventRevision) ∧
        db.intents.insert (preparedIntent a lease db.projectId) = some intents ∧
        db.audit.insert e = some audit ∧
        (prepareIntent a db).1 = { db with intents := intents, revision := some (n + 1), audit := audit } := by
  unfold prepareIntent
  refine transaction_state (Q := fun t => ∃ lease n e intents audit, Prepared a db lease ∧ db.revision = some n ∧
    (e.eventId = .intent (intentIdOf a.key) 1 ∧ e.revision = db.nextEventRevision) ∧
    db.intents.insert (preparedIntent a lease db.projectId) = some intents ∧ db.audit.insert e = some audit ∧
    t = { db with intents := intents, revision := some (n + 1), audit := audit }) fun t res hbody => ?_
  obtain ⟨_,_,h⟩ := bind_ok.mp hbody
  obtain ⟨_,hvalid,h⟩ := bind_ok.mp h
  obtain ⟨lease,hlease,h⟩ := bind_ok.mp h
  split at h
  · split at h <;> cases h
  · rename_i hfind
    obtain ⟨inserted,hinserted,h⟩ := bind_ok.mp h
    obtain ⟨bumped,hbumped,h⟩ := bind_ok.mp h
    obtain ⟨stored,hstored,h⟩ := bind_ok.mp h
    obtain ⟨done,hdone,h⟩ := bind_ok.mp h
    obtain ⟨_,_,hinsert⟩ := bind_ok.mp (orRaise_ok.mp hinserted)
    obtain ⟨_,hinsert⟩ := rest_ok hinsert
    obtain ⟨intents,hintents,hinsert⟩ := of_need hinsert
    have hnew := hintents
    cases pure_ok.mp hinsert
    obtain ⟨n,hn,rfl⟩ := Database.bumpProjectRevision_ok (orRaise_ok.mp hbumped)
    have hback : intents.get (intentIdOf a.key) = some stored := need_ok.mp (orRaise_ok.mp hstored)
    have hget := (get_insert hnew (intentIdOf a.key)).trans (if_pos rfl)
    obtain rfl := some_unique hget hback
    obtain ⟨audit,haudit,rfl⟩ := Database.appendEvent_ok (orRaise_ok.mp hdone)
    cases pure_ok.mp h
    refine .inr ⟨lease,n,_,intents,audit,⟨?_,orAnswer_ok.mp hlease,?_,(insert_some hnew).1⟩,
      hn,⟨rfl,rfl⟩,hnew,haudit,rfl⟩
    · exact orAnswer_ok.mp hvalid
    · intro r hr
      simpa using List.find?_eq_none.mp hfind r hr

/-! ## What a request does to one intent -/

namespace SendRequest

def target : SendRequest rt → Option String
  | .prepare a => some (intentIdOf a.key)
  | .readIntent intentId => some intentId
  | .fence intentId _ _ => some intentId
  | .allow a => some a.intentId
  | .begin a => some a.intentId
  | .physicalSend intentId => some intentId
  | .markUncertain intentId _ _ _ => some intentId
  | .confirm a _ => some a.intentId
  | .requireReconciliation intentId _ _ => some intentId
  | .retry intentId _ _ => some intentId
  | .acknowledge intentId _ => some intentId
  | .cancel intentId _ _ _ => some intentId
  | _ => none

end SendRequest

abbrev SendEntry (rt : Runtime) := Entry (@SendRequest.Answer rt)

def beginAccepted (id : String) : SendEntry rt → Bool
  | ⟨.begin a,o⟩ => decide (a.intentId = id) && acceptedResult o
  | _ => false

def retryAccepted (id : String) : SendEntry rt → Bool
  | ⟨.retry intentId _ _,o⟩ => decide (intentId = id) && mutatedResult o
  | _ => false

def cancelAccepted (id : String) : SendEntry rt → Bool
  | ⟨.cancel intentId _ _ _,o⟩ => decide (intentId = id) && mutatedResult o
  | _ => false

/-- What a request does to the row of an intent, and whether it counts as a begin, as a
reconciliation or as a cancel of it. -/
inductive IntentStep (db : Database) (q : SendRequest rt) (id : String) : Database → Bool → Bool → Bool → Prop
  | same {db' : Database} (h : db'.intents.get id = db.intents.get id) : IntentStep db q id db' false false false
  | created {db' : Database} {a : PrepareArgs rt} {lease : ContinuationLeaseRecord} (hq : q = .prepare a)
      (hid : intentIdOf a.key = id) (hprepared : Prepared a db lease) (hnone : db.intents.get id = none)
      (hrow : db'.intents.get id = some (preparedIntent a lease db.projectId)) :
      IntentStep db q id db' false false false
  | changed {db' : Database} {kind : ChangeKind} {r r' : SendIntentRecord} (hrow : db.intents.get id = some r)
      (hchange : IntentChange db q kind r r') (hrow' : db'.intents.get id = some r') :
      IntentStep db q id db' (decide (kind = .attempted)) (decide (kind = .retried))
        (decide (kind = .cancelled))

theorem IntentChange.target (h : IntentChange db q kind r r') :
    q.target = some r.intentId ∨ q.isBegin = false ∧ q.isRetry = false ∧ q.isCancel = false := by
  cases h with
  | stopped hcursor hstatus => exact .inr ⟨rfl,rfl,rfl⟩
  | fenced hid | fencedBeforeAllow hid | fencedBeforeBegin hid | allowed hid => exact .inl (congrArg some hid.symm)
  | attempted hid | uncertain hid | confirmed hid | reconciled hid | retried hid => exact .inl (congrArg some hid.symm)
  | acknowledged hid | cancelled hid => exact .inl (congrArg some hid.symm)

theorem IntentChange.kinds (h : IntentChange db q kind r r') :
    (kind = .attempted → q.isBegin = true) ∧ (kind = .retried ↔ q.isRetry = true) ∧
      (kind = .cancelled ↔ q.isCancel = true) := by
  cases h <;> simp [SendRequest.isBegin,SendRequest.isRetry,SendRequest.isCancel]

theorem flag_changed {target : ChangeKind} (hkind : kind = target ↔ flag = true)
    (htarget : flag = true → q.target = some id) (hreported : flag = true → reported = true) :
    (flag && (decide (q.target = some id) && reported)) = decide (kind = target) := by
  cases flag with
  | false =>
    have hne : ¬ kind = target := fun h => nomatch hkind.mp h
    simp [hne]
  | true => simp [htarget rfl,hreported rfl,hkind.mpr rfl]

theorem flag_same (h : flag = true → q.target ≠ some id ∨ reported = false) :
    (flag && (decide (q.target = some id) && reported)) = false := by
  cases flag with
  | false => rfl
  | true => rcases h rfl with h | h <;> simp [h]

theorem SendOutcome.step (h : SendOutcome db q out) (id : String) :
    IntentStep db q id out.1 (q.isBegin && (decide (q.target = some id) && acceptedResult out.2))
      (q.isRetry && (decide (q.target = some id) && mutatedResult out.2))
      (q.isCancel && (decide (q.target = some id) && mutatedResult out.2)) := by
  cases h with
  | @quiet o hquiet =>
    have hrefused : q.isBegin = true → acceptedResult o = false := by
      intro hq
      cases o with
      | error f => rfl
      | ok res => exact (hquiet res rfl).refused hq
    have hunmutated : mutatedResult o = false := by
      cases o with
      | error f => rfl
      | ok res => exact (hquiet res rfl).unmutated
    rw [flag_same fun hq => .inr (hrefused hq),flag_same fun _ => .inr hunmutated,
      flag_same fun _ => .inr hunmutated]
    exact .same rfl
  | @wrote kind r r' db' res hrow hchange hwritten hcounts =>
    have hget := get_written hwritten hrow hchange.same.intentId id
    obtain ⟨hattempted,hretried,hcancelled⟩ := hchange.kinds
    by_cases hid : r.intentId = id
    · subst hid
      rw [if_pos rfl] at hget
      have htarget : q.isBegin = true ∨ q.isRetry = true ∨ q.isCancel = true →
          q.target = some r.intentId := by
        intro hq
        refine hchange.target.resolve_right ?_
        rintro ⟨hb,hr,hc⟩
        simp [hb,hr,hc] at hq
      have hbegin : (q.isBegin && (decide (q.target = some r.intentId) && acceptedResult (.ok res))) =
          decide (kind = .attempted) := by
        cases hq : q.isBegin with
        | false =>
          have hne : ¬ kind = .attempted := fun hk => by simp [hattempted hk] at hq
          simp [hne]
        | true =>
          rw [htarget (.inl hq),Bool.eq_iff_iff]
          simp [acceptedResult,hcounts.begun hq]
      have hretry : (q.isRetry && (decide (q.target = some r.intentId) && mutatedResult (.ok res))) =
          decide (kind = .retried) :=
        flag_changed hretried (fun hq => htarget (.inr (.inl hq))) (fun hq => hcounts.reported (.inl hq))
      have hcancel : (q.isCancel && (decide (q.target = some r.intentId) && mutatedResult (.ok res))) =
          decide (kind = .cancelled) :=
        flag_changed hcancelled (fun hq => htarget (.inr (.inr hq))) (fun hq => hcounts.reported (.inr hq))
      rw [hbegin,hretry,hcancel]
      exact .changed hrow hchange hget
    · rw [if_neg hid] at hget
      have htarget : q.isBegin = true ∨ q.isRetry = true ∨ q.isCancel = true → q.target ≠ some id := by
        intro hq
        rcases hchange.target with ht | ⟨hb,hr,hc⟩
        · simp [ht,hid]
        · simp [hb,hr,hc] at hq
      rw [flag_same fun hq => .inl (htarget (.inl hq)),flag_same fun hq => .inl (htarget (.inr (.inl hq))),
        flag_same fun hq => .inl (htarget (.inr (.inr hq)))]
      exact .same hget

theorem lease_intents (call : LeaseCall rt) (now : DateTime) (db : Database) :
    (call.perform now db).1.intents = db.intents := by
  have hout := lease_outcome call now db
  generalize call.perform now db = out at hout
  cases hout with
  | quiet => rfl
  | wrote hopened hchange hwritten haccepted =>
    obtain ⟨e,audit,-,-,rfl⟩ := hwritten.logged
    cases hopened <;> rfl

theorem intent_step (q : SendRequest rt) (db : Database) (id : String) :
    IntentStep db q id (q.perform db).1 (beginAccepted id ⟨q,(q.perform db).2⟩)
      (retryAccepted id ⟨q,(q.perform db).2⟩) (cancelAccepted id ⟨q,(q.perform db).2⟩) := by
  cases q with
  | lease call now =>
    refine .same ?_
    rw [show (SendRequest.perform (.lease call now) db).1.intents = db.intents from lease_intents call now db]
  | readLease resourceId | readIntent intentId => exact .same rfl
  | prepare a =>
    rcases prepare_cases a db with h | ⟨lease,n,e,intents,audit,hprepared,-,-,hinsert,-,h⟩
    · exact .same (congrArg (fun d : Database => d.intents.get id) h)
    · have hget := get_insert hinsert id
      have hrow : (SendRequest.perform (.prepare a) db).1.intents = intents := congrArg Database.intents h
      by_cases hid : intentIdOf a.key = id
      · refine .created rfl hid hprepared (hid ▸ hprepared.absent) ?_
        rw [hrow,hget]
        exact if_pos hid
      · refine .same ?_
        rw [hrow,hget]
        exact if_neg hid
  | fence intentId reason now =>
    rcases fence_cases intentId reason now db with h | ⟨r,hrow,hstatus,hwritten⟩
    · exact .same (congrArg (fun d : Database => d.intents.get id) h)
    · have hget := get_written hwritten hrow rfl id
      by_cases hid : intentId = id
      · subst hid
        have hchange : IntentChange db (.fence r.intentId reason now : SendRequest rt) .fenced r (fenceChange reason now r) :=
          .fenced rfl hstatus
        rw [key_of_get hrow] at hchange
        exact .changed hrow hchange (hget.trans (if_pos rfl))
      · exact .same (hget.trans (if_neg hid))
  | allow a => exact (allow_outcome a db).step id
  | begin a =>
    have h := (begin_outcome a db).step id
    simp only [SendRequest.isBegin,SendRequest.target,Option.some.injEq,Bool.true_and] at h
    exact h
  | physicalSend intentId => exact .same rfl
  | markUncertain intentId token reason now => exact (uncertain_outcome intentId token reason now db).step id
  | confirm a evidence => exact (confirm_outcome a evidence db).step id
  | requireReconciliation intentId read now => exact (reconcile_outcome intentId read now db).step id
  | retry intentId proof now =>
    have h := (@retry_outcome rt intentId proof now db).step id
    simp only [SendRequest.isRetry,SendRequest.target,Option.some.injEq,Bool.true_and] at h
    exact h
  | acknowledge intentId now => exact (ack_outcome intentId now db).step id
  | cancel intentId token reason now =>
    have h := (@cancel_outcome rt intentId token reason now db).step id
    simp only [SendRequest.isCancel,SendRequest.target,Option.some.injEq,Bool.true_and] at h
    exact h
  | stop q =>
    rcases db.stop_cases q with h | ⟨c,fences,audit,hcursor,-,-,-,h⟩
    · exact .same (congrArg (fun d : Database => d.intents.get id) h)
    · have hget : (db.stop q).1.intents.get id = (db.intents.get id).map (·.stop q.now) := by
        rw [h]
        exact @get_change _ _ _ _ db.intents _ q.stop_intentId id
      cases hrow : db.intents.get id with
      | none =>
        rw [hrow] at hget
        exact .same (hget.trans hrow.symm)
      | some r =>
        rw [hrow] at hget
        by_cases hstatus : r.status = .prepared ∨ r.status = .sendAllowed
        · have hchange : IntentChange db (.stop q : SendRequest rt) .fenced r (r.stop q.now) := .stopped hcursor hstatus
          exact .changed hrow hchange hget
        · refine .same (hget.trans ?_)
          simp [hrow,SendIntentRecord.stop,hstatus]
  | resume q =>
    refine .same ?_
    change (db.resume q).1.intents.get id = db.intents.get id
    rcases db.resume_cases q with h | ⟨c,c',audit,-,-,-,h⟩ <;> rw [h]
  | elsewhere e => exact .same rfl

/-! ## What a request does to the database -/

def stoppedDatabase (db : Database) (s : StopRequest) (c : ScopeCursor)
    (fences : Table StopFenceRecord (·.fenceId)) (audit : Table AuditEvent (·.eventId)) : Database :=
  { db with
    intents := db.intents.change (·.stop s.now) s.stop_intentId
    fences := fences
    cursor := some { c with stateRevision := c.stateRevision + 1, disposition := "STOPPED", status := "STOPPED",
                            stopRequestedAt := some s.now, stopReason := some s.reason }
    audit := audit }

theorem get_stopped {s : StopRequest} {c : ScopeCursor} {fences : Table StopFenceRecord (·.fenceId)}
    {audit : Table AuditEvent (·.eventId)} (id : String) :
    (stoppedDatabase db s c fences audit).intents.get id = (db.intents.get id).map (·.stop s.now) :=
  @get_change _ _ _ _ db.intents _ s.stop_intentId id

inductive RequestEffect (db : Database) (q : SendRequest rt) : Database → Prop
  | nothing : RequestEffect db q db
  | wrote {kind : ChangeKind} {r r' : SendIntentRecord} {db' : Database}
      (hrow : db.intents.get r.intentId = some r) (hchange : IntentChange db q kind r r')
      (hwritten : IntentWritten db r' db') : RequestEffect db q db'
  | created {a : PrepareArgs rt} {lease : ContinuationLeaseRecord} {n : ℕ} {e : AuditEvent}
      {intents : Table SendIntentRecord (·.intentId)} {audit : Table AuditEvent (·.eventId)}
      (hq : q = .prepare a) (hprepared : Prepared a db lease) (hn : db.revision = some n)
      (he : e.eventId = .intent (intentIdOf a.key) 1 ∧ e.revision = db.nextEventRevision)
      (hinsert : db.intents.insert (preparedIntent a lease db.projectId) = some intents)
      (haudit : db.audit.insert e = some audit) :
      RequestEffect db q { db with intents := intents, revision := some (n + 1), audit := audit }
  | leased {call : LeaseCall rt} {now : DateTime} {base db' : Database} {l l' : ContinuationLeaseRecord}
      (hq : q = .lease call now) (hopened : Opened now db call base l) (hchange : LeaseChange now call l l')
      (hwritten : LeaseWritten base l' db') : RequestEffect db q db'
  | stopped {s : StopRequest} {c : ScopeCursor} {fences : Table StopFenceRecord (·.fenceId)}
      {audit : Table AuditEvent (·.eventId)} (hq : q = .stop s) (hcursor : db.cursor = some c)
      (hfences : db.fences.insert (db.stopFence c s) = some fences)
      (haudit : db.audit.insert (Database.stopEvent c (db.stopFence c s) s) = some audit) :
      RequestEffect db q (stoppedDatabase db s c fences audit)
  | resumed {s : Database.ResumeRequest} {c c' : ScopeCursor} {runId : String}
      {audit : Table AuditEvent (·.eventId)} (hq : q = .resume s) (hcursor : db.cursor = some c)
      (hepoch : c'.scopeEpoch = c.scopeEpoch + 1)
      (haudit : db.audit.insert (Database.resumeEvent c runId s) = some audit) :
      RequestEffect db q { db with cursor := some c', audit := audit }
  | elsewhere {e : Database.Elsewhere} (hq : q = .elsewhere e) : RequestEffect db q (db.elsewhere e)

theorem SendOutcome.effect (h : SendOutcome db q out) : RequestEffect db q out.1 := by
  cases h with
  | quiet => exact .nothing
  | wrote hrow hchange hwritten hcounts => exact .wrote hrow hchange hwritten

theorem request_effect (q : SendRequest rt) (db : Database) : RequestEffect db q (q.perform db).1 := by
  cases q with
  | lease call now =>
    have hout := lease_outcome call now db
    change RequestEffect db _ (call.perform now db).1
    generalize call.perform now db = out at hout
    cases hout with
    | quiet => exact .nothing
    | wrote hopened hchange hwritten haccepted => exact .leased rfl hopened hchange hwritten
  | readLease resourceId | readIntent intentId => exact .nothing
  | prepare a =>
    change RequestEffect db _ (prepareIntent a db).1
    rcases prepare_cases a db with h | ⟨lease,n,e,intents,audit,hprepared,hn,he,hinsert,haudit,h⟩
    · rw [h]
      exact .nothing
    · rw [h]
      exact .created rfl hprepared hn he hinsert haudit
  | fence intentId reason now =>
    change RequestEffect db _ (fenceIntent intentId reason now db).1
    rcases fence_cases intentId reason now db with h | ⟨r,hrow,hstatus,hwritten⟩
    · rw [h]
      exact .nothing
    · have hid := key_of_get hrow
      exact .wrote (hid ▸ hrow) (.fenced hid hstatus) hwritten
  | allow a => exact (allow_outcome a db).effect
  | begin a => exact (begin_outcome a db).effect
  | physicalSend intentId => exact .nothing
  | markUncertain intentId token reason now => exact (uncertain_outcome intentId token reason now db).effect
  | confirm a evidence => exact (confirm_outcome a evidence db).effect
  | requireReconciliation intentId read now => exact (reconcile_outcome intentId read now db).effect
  | retry intentId proof now => exact (retry_outcome intentId proof now db).effect
  | acknowledge intentId now => exact (ack_outcome intentId now db).effect
  | cancel intentId token reason now => exact (cancel_outcome intentId token reason now db).effect
  | stop s =>
    change RequestEffect db _ (db.stop s).1
    rcases db.stop_cases s with h | ⟨c,fences,audit,hcursor,hfences,-,haudit,h⟩
    · rw [h]
      exact .nothing
    · rw [h]
      exact .stopped rfl hcursor hfences haudit
  | resume s =>
    change RequestEffect db _ (db.resume s).1
    rcases db.resume_cases s with h | ⟨c,c',audit,hcursor,hepoch,⟨runId,haudit⟩,h⟩
    · rw [h]
      exact .nothing
    · rw [h]
      exact .resumed rfl hcursor hepoch haudit
  | elsewhere e => exact .elsewhere rfl

theorem leases_of_other (q : SendRequest rt) (db : Database) (h : ∀ call now, q ≠ .lease call now) :
    (q.perform db).1.leases = db.leases := by
  have heffect := request_effect q db
  generalize (q.perform db).1 = db' at heffect
  cases heffect with
  | nothing => rfl
  | wrote hrow hchange hwritten =>
    obtain ⟨n,e,audit,-,-,-,rfl⟩ := hwritten.logged
    rfl
  | created => rfl
  | leased hq => exact absurd hq (h _ _)
  | stopped | resumed | elsewhere => rfl

end Bdb.Continuation
