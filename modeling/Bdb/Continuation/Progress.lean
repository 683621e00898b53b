import Bdb.Continuation.AuditTrail

/-! # Calls that pass their checks

In a database with its audit trail in order, a request whose checks pass is accepted and
makes its write. From an empty database the holder of a valid packet can claim the lease,
prepare an intent and begin its send.
-/
namespace Bdb.Continuation

open Step SendIntentResult Table

variable {rt : Runtime} {db : Database} {r : SendIntentRecord} {l : ContinuationLeaseRecord}
  {a : SendArgs rt} {p : ContinuationPacket rt} {now : DateTime} {token : String}

/-! ## Requests -/

variable {boundary : EffectBoundary} {base : Database} {co : LeaseCoordinator}
  {authority : ContinuationAuthoritySnapshot} {ownerId : String} {go : SendProgram rt}

theorem liveLeaseCheck_of (hdigest : tokenDigest rt token ≠ "")
    (h : HoldsLease rt db p.resourceId token now l)
    (hpacket : l.continuationId = p.continuationId ∧ l.packetDigest = p.packetDigest)
    (hboundary : db.checkBoundary p.scopeEpoch boundary = .ok ()) :
    db.liveLeaseCheck p token now boundary = .ok l := by
  unfold Database.liveLeaseCheck
  refine require_bind hdigest ?_
  refine bind_of (need_ok.mpr h.row) ?_
  refine require_bind h.owner ?_
  refine require_bind h.claimed ?_
  refine require_bind h.live ?_
  refine require_bind hpacket ?_
  exact bind_of hboundary rfl

variable {id : String} {c : SendCall rt} {args : PrepareArgs rt}

theorem requireProject_of (h : Trailed db) (hrow : db.intents.get id = some r) : db.requireProject = .ok () :=
  require_ok.mpr (h.registered id r hrow)

theorem readIntent_of (h : Trailed db) (hrow : db.intents.get id = some r) : readIntent db id = .ok r := by
  unfold readIntent
  exact bind_of (orRaise_ok.mpr (requireProject_of h hrow)) (needOr_ok.mpr hrow)

theorem ownIntent_of (h : Trailed db) (hrow : db.intents.get a.intentId = some r) (hown : OwnIntent a r)
    (message : String) : ownIntent a db message = .ok r := by
  unfold ownIntent
  refine bind_of (readIntent_of h hrow) ?_
  refine answerUnless_bind hown.packet ?_
  exact answerUnless_bind hown.owner rfl

theorem underLease_of {go : Step SendIntentResult (Database × SendIntentResult)} (h : UnderLease a db) :
    underLease a db r go = go := by
  obtain ⟨l,hl⟩ := h
  unfold underLease
  rw [hl]

section

variable (h : Trailed db) (hrow : db.intents.get a.intentId = some r) (hown : OwnIntent a r)

include h hrow hown

theorem allow_accepts (hlease : UnderLease a db) (hstatus : r.status = .prepared) :
    ∃ db' res, allowIntent a db = (db',.ok res) ∧ res.accepted = true ∧
      IntentWritten db ((allowWrite a.now).change r) db' := by
  obtain ⟨done,hdone⟩ := writeIntent_of (w := allowWrite a.now) h hrow (decide_eq_true hstatus) a.now
  refine ⟨done,written "SEND_ALLOWED" "DOM and authority preconditions validated" ((allowWrite a.now).change r),
    ?_,rfl,(writeIntent_ok hrow hdone).2.2⟩
  unfold allowIntent
  refine transaction_of_ok ?_
  refine bind_of (ownIntent_of h hrow hown _) ?_
  refine bind_ok.mpr ⟨(),answerUnless_ok.mpr (by rw [hstatus]; rintro ⟨⟩),?_⟩
  refine answerUnless_bind hstatus ?_
  rw [underLease_of hlease]
  exact bind_of hdone rfl

theorem begin_accepts (hlease : UnderLease a db) (hstatus : r.status = .sendAllowed) :
    ∃ db' res, beginIntent a db = (db',.ok res) ∧ res.accepted = true ∧
      IntentWritten db ((beginWrite a.now).change r) db' := by
  obtain ⟨done,hdone⟩ := writeIntent_of (w := beginWrite a.now) h hrow (decide_eq_true hstatus) a.now
  refine ⟨done,written "PHYSICAL_SEND_ATTEMPTED" "physical send boundary was durably entered"
    ((beginWrite a.now).change r),?_,rfl,(writeIntent_ok hrow hdone).2.2⟩
  unfold beginIntent
  refine transaction_of_ok ?_
  refine bind_of (ownIntent_of h hrow hown _) ?_
  refine bind_ok.mpr ⟨(),answerUnless_ok.mpr (by rw [hstatus]; decide),?_⟩
  refine answerUnless_bind hstatus ?_
  rw [underLease_of hlease]
  exact bind_of hdone rfl

theorem confirm_accepts {evidence : StructuredSendEvidence} (hpositive : evidence.positive = true)
    (hmatches : evidenceMatches r evidence = true) (hopen : awaitingEvidence r.status = true) :
    ∃ db' res, confirmIntent a evidence db = (db',.ok res) ∧ res.accepted = true ∧
      IntentWritten db ((confirmWrite evidence a.now).change r) db' := by
  obtain ⟨done,hdone⟩ := writeIntent_of (w := confirmWrite evidence a.now) h hrow rfl a.now
  have hdigest : tokenDigest rt a.token ≠ "" := hown.owner ▸ h.owned _ _ hrow
  have hunconfirmed : ¬ (r.status = .sendConfirmed ∨ r.status = .acknowledged) := by
    revert hopen
    cases r.status <;> decide
  refine ⟨done,⟨true,"SEND_CONFIRMED","structured send evidence confirmed delivery",
    some ((confirmWrite evidence a.now).change r),some evidence,true,false⟩,?_,rfl,(writeIntent_ok hrow hdone).2.2⟩
  unfold confirmIntent
  refine transaction_of_ok ?_
  refine answerUnless_bind hdigest ?_
  refine bind_of (ownIntent_of h hrow hown _) ?_
  refine answerUnless_bind hpositive ?_
  refine answerUnless_bind hmatches ?_
  rw [if_neg hunconfirmed]
  refine answerUnless_bind hopen ?_
  exact bind_of hdone rfl

end

theorem markUncertain_accepts (reason : String) (h : Trailed db) (hrow : db.intents.get a.intentId = some r)
    (hown : OwnIntent a r) (hstatus : r.status = .physicalSendAttempted) :
    ∃ db' res, markUncertainIntent rt a.intentId a.token reason a.now db = (db',.ok res) ∧ res.mutated = true ∧
      IntentWritten db ((uncertainWrite (boundedReason reason) a.now).change r) db' := by
  obtain ⟨done,hdone⟩ := writeIntent_of (w := uncertainWrite (boundedReason reason) a.now) h hrow
    (decide_eq_true hstatus) a.now
  have hdigest : tokenDigest rt a.token ≠ "" := hown.owner ▸ h.owned _ _ hrow
  refine ⟨done,⟨false,"UNCERTAIN_DELIVERY","delivery is uncertain; blind resend is forbidden",
    some ((uncertainWrite (boundedReason reason) a.now).change r),none,true,false⟩,?_,rfl,
    (writeIntent_ok hrow hdone).2.2⟩
  unfold markUncertainIntent
  refine transaction_of_ok ?_
  refine answerUnless_bind hdigest ?_
  refine bind_of (readIntent_of h hrow) ?_
  refine answerUnless_bind hown.owner ?_
  refine bind_ok.mpr ⟨(),answerUnless_ok.mpr (by rw [hstatus]; exact ⟨(by rintro ⟨⟩),(by rintro ⟨⟩)⟩),?_⟩
  refine answerUnless_bind hstatus ?_
  exact bind_of hdone rfl

theorem retry_accepts (h : Trailed db) (hrow : db.intents.get id = some r)
    (hopen : awaitingEvidence r.status = true) (now : DateTime) :
    ∃ db' res, retryIntent id now db = (db',.ok res) ∧ res.accepted = true ∧
      IntentWritten db ((retryWrite now).change r) db' := by
  obtain ⟨done,hdone⟩ := writeIntent_of (w := retryWrite now) h hrow rfl now
  refine ⟨done,written "RETRY_ALLOWED" "retry is allowed by deterministic no-delivery proof"
    ((retryWrite now).change r),?_,rfl,(writeIntent_ok hrow hdone).2.2⟩
  unfold retryIntent
  refine transaction_of_ok ?_
  refine bind_of (readIntent_of h hrow) ?_
  refine bind_ok.mpr ⟨(),answerUnless_ok.mpr ?_,?_⟩
  · revert hopen
    cases r.status <;> decide
  refine answerUnless_bind hopen ?_
  exact bind_of hdone rfl

theorem requireReconciliation_writes (read : SendIntentRecord) (h : Trailed db)
    (hrow : db.intents.get id = some r) (hopen : r.status = .uncertain ∨ r.status = .physicalSendAttempted)
    (now : DateTime) :
    ∃ db' res, requireReconciliation id read now db = (db',.ok res) ∧
      IntentWritten db ((reconcileWrite now).change r) db' := by
  obtain ⟨done,hdone⟩ := writeIntent_of (w := reconcileWrite now) h hrow rfl now
  refine ⟨done,rejected "UNCERTAIN_DELIVERY" "delivery remains uncertain; no resend was attempted"
    ((reconcileWrite now).change r),?_,(writeIntent_ok hrow hdone).2.2⟩
  unfold requireReconciliation
  refine transaction_of_ok ?_
  refine bind_of (readIntent_of h hrow) ?_
  refine answerUnless_bind hopen ?_
  exact bind_of hdone rfl

theorem fence_fences (reason : String) (h : Trailed db) (hrow : db.intents.get id = some r)
    (hstatus : fenceable r.status = true) (now : DateTime) :
    ∃ db' o, fenceIntent id reason now db = (db',.ok o) ∧ IntentWritten db (fenceChange reason now r) db' := by
  have hid := key_of_get hrow
  have hrow' : db.intents.get r.intentId = some r := hid ▸ hrow
  obtain ⟨n,hn⟩ := Option.isSome_iff_exists.mp (h.registered id r hrow)
  have hnext : ¬ db.Covers (.intent r.intentId (r.stateRevision + 1)) := by
    rintro ⟨r₀,hr₀,hle⟩
    obtain rfl := some_unique hrow' hr₀
    omega
  let bumped : Database := { db with intents := db.intents.put (fenceChange reason now r), revision := some (n + 1) }
  obtain ⟨done,hdone⟩ : ∃ done, bumped.appendEvent
      (bumped.intentEvent (fenceChange reason now r) "SEND_INTENT_FENCED" reason now) = .ok done :=
    append_of_next h.events rfl hnext
  have hupdate : db.updateIntent r fenceable (fenceChange reason now) =
      some { db with intents := db.intents.put (fenceChange reason now r) } := by
    unfold Database.updateIntent
    rw [hrow']
    simp [hstatus]
  have hbump : ({ db with intents := db.intents.put (fenceChange reason now r) } : Database).bumpProjectRevision =
      .ok bumped := by
    simp [Database.bumpProjectRevision,hn,bumped]
  have hback : bumped.intents.get r.intentId = some (fenceChange reason now r) := get_put_row hrow rfl
  have hopen : ¬ (terminalSend r.status = true ∨ r.status = .physicalSendAttempted) := by
    revert hstatus
    cases r.status <;> decide
  have hfence : (fenceOnConn db (some r) reason now : Step (Option SendIntentRecord) _) =
      .ok (done,some (fenceChange reason now r)) := by
    unfold fenceOnConn
    dsimp only
    rw [if_neg hopen,hupdate]
    dsimp only
    refine bind_of (orRaise_ok.mpr hbump) ?_
    rw [hback]
    exact bind_of (orRaise_ok.mpr hdone) rfl
  refine ⟨done,some (fenceChange reason now r),?_,?_⟩
  · unfold fenceIntent
    refine transaction_of_ok ?_
    refine bind_of (orRaise_ok.mpr (requireProject_of h hrow)) ?_
    rw [hrow]
    exact hfence
  · obtain ⟨audit,hinsert,rfl⟩ := Database.appendEvent_ok hdone
    exact ⟨n,_,audit,hn,⟨rfl,rfl⟩,hinsert,rfl⟩

theorem prepare_creates (args : PrepareArgs rt) (h : Trailed db) (hregistered : db.revision.isSome = true)
    (hvalid : validatePacket args.packet args.authority args.now = .ok ())
    (hlease : db.liveLeaseCheck args.packet args.token args.now .queueClaim = .ok l)
    (hfresh : ∀ r ∈ db.intents.rows, r.intentKey ≠ args.key)
    (habsent : db.intents.get (intentIdOf args.key) = none) (hgeneration : 1 ≤ l.generation)
    (hbinding : args.packet.executionBindingId ∈ db.bindings) :
    ∃ n intents audit res, prepareIntent args db =
        ({ db with intents := intents, revision := some (n + 1), audit := audit },.ok res) ∧
      res.accepted = true ∧ db.intents.insert (preparedIntent args l db.projectId) = some intents := by
  obtain ⟨n,hn⟩ := Option.isSome_iff_exists.mp hregistered
  obtain ⟨intents,hinsert⟩ := insert_of_new (a := preparedIntent args l db.projectId) habsent
  have hnext : ¬ db.Covers (.intent (intentIdOf args.key) 1) := by
    rintro ⟨r₀,hr₀,-⟩
    rw [habsent] at hr₀
    cases hr₀
  let bumped : Database := { db with intents := intents, revision := some (n + 1) }
  have hnew : ∃ audit, db.audit.insert (bumped.intentEvent (preparedIntent args l db.projectId)
      "SEND_INTENT_PREPARED" "PREPARED" args.now) = some audit := append_next h.events hnext
  obtain ⟨audit,haudit⟩ := hnew
  refine ⟨n,intents,audit,written "PREPARED" "durable send intent prepared" (preparedIntent args l db.projectId),
    ?_,rfl,hinsert⟩
  have hfind : db.intents.find (fun r => r.intentKey == args.key) = none := by
    refine List.find?_eq_none.mpr ?_
    intro r hr
    simpa using hfresh r hr
  unfold prepareIntent
  refine transaction_of_ok ?_
  refine bind_of (orRaise_ok.mpr (require_of hregistered _ _)) ?_
  refine bind_of (orAnswer_ok.mpr hvalid) ?_
  refine bind_of (orAnswer_ok.mpr hlease) ?_
  rw [hfind]
  refine bind_ok.mpr ⟨{ db with intents := intents },orRaise_ok.mpr ?_,?_⟩
  · unfold Database.insertIntent
    refine require_bind hgeneration ?_
    refine require_bind hbinding ?_
    exact bind_of (need_ok.mpr hinsert) rfl
  refine bind_ok.mpr ⟨bumped,orRaise_ok.mpr ?_,?_⟩
  · simp [Database.bumpProjectRevision,hn,bumped]
  refine bind_ok.mpr ⟨preparedIntent args l db.projectId,orRaise_ok.mpr (need_ok.mpr ?_),?_⟩
  · exact (get_insert hinsert _).trans (if_pos rfl)
  refine bind_ok.mpr ⟨{ bumped with audit := audit },orRaise_ok.mpr ?_,rfl⟩
  unfold Database.appendEvent
  rw [show bumped.audit = db.audit from rfl,haudit]

theorem trailed_opened {call : LeaseCall rt} (h : Trailed db) (hopened : Opened now db call base l) :
    Trailed base := by
  obtain ⟨hleases,hintents,haudit,hrevision⟩ := opened_grows hopened
  constructor
  · intro e he
    have hgrow : RowsGrow db base :=
      ⟨fun id l hl => ⟨l,hleases id l hl,le_refl _⟩,fun id r hr => ⟨r,hintents ▸ hr,le_refl _⟩⟩
    exact hgrow.covers (h.events e (haudit ▸ he))
  · intro id r hr
    rw [hrevision]
    exact h.registered id r (hintents ▸ hr)
  · intro id r hr
    exact h.owned id r (hintents ▸ hr)

theorem enter_of_checks (hregistered : db.revision.isSome = true)
    (hvalid : validatePacket p authority now = .ok ()) (hstop : stopCheck co db authority p boundary = .ok ()) :
    enter co db p authority now boundary = .ok () := by
  unfold enter
  refine bind_of (orRaise_ok.mpr (require_of hregistered _ _)) ?_
  exact bind_of (orAnswer_ok.mpr hvalid) (orAnswer_ok.mpr hstop)

theorem claim_accepts {expires : DateTime} (h : Trailed db) (hregistered : db.revision.isSome = true) (howner : strip ownerId ≠ "")
    (hvalid : validatePacket p authority now = .ok ()) (hstop : stopCheck co db authority p .queueClaim = .ok ())
    (hnone : db.leaseFor p.resourceId = none)
    (hnew : db.leases.get (leaseIdFor rt db.projectId p.resourceId) = none)
    (hexpires : now.plus (co.leaseSeconds * 1000000) = .ok expires) :
    ∃ db' res, claim co p authority ownerId token now db = (db',.ok res) ∧ res.accepted = true ∧
      db'.leaseFor p.resourceId =
        some ((claimWrite rt ownerId token now expires).change (availableLease db.projectId p now)) := by
  obtain ⟨leases,hinsert⟩ := insert_of_new (a := availableLease db.projectId p now) hnew
  let base : Database := { db with leases := leases }
  have hback : base.leaseFor p.resourceId = some (availableLease db.projectId p now) :=
    leaseFor_created hnone hinsert
  have hopened : Opened now db (.claim co p authority ownerId token) base (availableLease db.projectId p now) :=
    .created hnone hinsert
  have hfree : (claimWrite rt ownerId token now expires).test (availableLease db.projectId p now) = true := by
    simp [claimWrite,availableLease]
  obtain ⟨done,hdone⟩ := writeLease_of (trailed_opened h hopened) hregistered hback hfree now
  obtain ⟨-,-,hwritten⟩ := writeLease_ok hback hdone
  refine ⟨done,⟨true,"CLAIMED","continuation lease claimed",
    some ((claimWrite rt ownerId token now expires).change (availableLease db.projectId p now)),some token,true,false⟩,
    ?_,rfl,leaseFor_put hback rfl rfl hwritten.leases⟩
  unfold claim
  refine transaction_of_ok ?_
  refine answerUnless_bind howner ?_
  refine bind_of (orAnswer_ok.mpr hvalid) ?_
  refine bind_of (enter_of_checks hregistered hvalid hstop) ?_
  rw [hnone]
  refine bind_ok.mpr ⟨(base,availableLease db.projectId p now),orRaise_ok.mpr ?_,?_⟩
  · unfold Database.insertAvailable
    refine bind_of (need_ok.mpr hinsert) ?_
    exact bind_of (need_ok.mpr hback) rfl
  unfold claimRecord
  dsimp only
  rw [if_neg (by simp [packetMatchesRecord,availableLease]),if_neg (by rintro ⟨⟩),if_neg (by rintro ⟨⟩),if_neg (by rintro ⟨⟩),if_neg (by rintro ⟨⟩)]
  refine bind_of (orRaise_ok.mpr hexpires) ?_
  exact bind_of hdone rfl

theorem claim_held (hregistered : db.revision.isSome = true) (howner : strip ownerId ≠ "")
    (hvalid : validatePacket p authority now = .ok ()) (hstop : stopCheck co db authority p .queueClaim = .ok ())
    (hrow : db.leaseFor p.resourceId = some l) (hmatch : packetMatchesRecord p l = true)
    (hclaimed : l.status = .claimed) (hlive : now < l.expiresAt) :
    claim co p authority ownerId token now db =
      (db,.ok (ContinuationLeaseResult.rejected "LEASE_HELD" "continuation is already claimed" l)) := by
  unfold claim
  refine transaction_of_ok ?_
  refine answerUnless_bind howner ?_
  refine bind_of (orAnswer_ok.mpr hvalid) ?_
  refine bind_of (enter_of_checks hregistered hvalid hstop) ?_
  rw [hrow]
  unfold claimRecord
  dsimp only
  rw [if_neg (not_not.mpr hmatch),hclaimed,if_neg (by rintro ⟨⟩),if_neg (by rintro ⟨⟩),if_pos rfl,if_pos hlive]
  rfl

/-! ## Calls made alone -/

abbrev SendCondition (rt : Runtime) := Database → List (SendEntry rt) → SendRequest rt → Prop

abbrev anyRequest : SendCondition rt := fun _ _ _ => True

abbrev SendReaches (Q : SendCondition rt) (s t : SendSystem rt) : Prop :=
  Shared.Reaches SendRequest.perform ClientCall.program Q s t

variable {Q : SendCondition rt} {s : SendSystem rt} {log log' : List (SendEntry rt)} {db' : Database}

theorem reaches_of_completes {call : ClientCall rt} {program : SendScript rt Unit}
    (hprogram : call.program = program)
    (h : program.Completes SendRequest.perform Q s.store s.log db log) :
    ∃ t, SendReaches Q s t ∧ t.store = db ∧ t.log = log := by
  subst hprogram
  exact Shared.reaches_of_call call h

theorem program_prepare (c : PrepareCall rt) :
    (ClientCall.prepare c).program = (prepare c).bind fun _ => .done () := by
  unfold ClientCall.program
  rfl

theorem program_allowSend (c : SendCall rt) :
    (ClientCall.allowSend c).program = (throughDom c (.ask (.allow c.args) .done)).bind fun _ => .done () := by
  unfold ClientCall.program
  rfl

theorem program_beginPhysicalSend (c : SendCall rt) :
    (ClientCall.beginPhysicalSend c).program =
      (throughDom c (.ask (.begin c.args) .done)).bind fun _ => .done () := by
  unfold ClientCall.program
  rfl

theorem completes_request {q : SendRequest rt} (hq : Q db log q) :
    Script.Completes SendRequest.perform Q (.ask q fun _ => .done ()) db log (q.perform db).1
      (log ++ [⟨q,(q.perform db).2⟩]) :=
  .ask hq (.done () _ _)

theorem completes_throughDom {k : Outcome SendIntentResult → SendScript rt Unit}
    (hvalid : validatePacket c.packet c.authority c.now = .ok ()) (hrow : db.intents.get c.intentId = some r)
    (hdom : domCheck rt r c.dom = .ok ()) (hq : Q db log (.readIntent c.intentId))
    (h : Script.Completes SendRequest.perform Q (go.bind k) db (log ++ [⟨.readIntent c.intentId,some r⟩]) db' log') :
    Script.Completes SendRequest.perform Q ((throughDom c go).bind k) db log db' log' := by
  unfold throughDom
  rw [hvalid]
  refine .ask hq ?_
  rw [show (SendRequest.perform (.readIntent c.intentId) db).2 = some r from hrow]
  dsimp only
  rw [hdom]
  exact h

theorem completes_throughDom_invalid {f : Failure}
    (hvalid : validatePacket c.packet c.authority c.now = .error f)
    (hq : Q db log (.fence c.intentId f.code c.now)) :
    Script.Completes SendRequest.perform Q ((throughDom c go).bind fun _ => .done ()) db log
      (fenceIntent c.intentId f.code c.now db).1
      (log ++ [⟨.fence c.intentId f.code c.now,(fenceIntent c.intentId f.code c.now db).2⟩]) := by
  unfold throughDom
  rw [hvalid]
  refine .ask hq ?_
  cases hfence : (fenceIntent c.intentId f.code c.now db).2 with
  | error e =>
    rw [show (SendRequest.perform (.fence c.intentId f.code c.now) db).2 = .error e from hfence]
    exact .done () _ _
  | ok r =>
    rw [show (SendRequest.perform (.fence c.intentId f.code c.now) db).2 = .ok r from hfence]
    exact .done () _ _

theorem completes_prepare {c : PrepareCall rt} (hchecks : prepareChecks c = .ok ())
    (hargs : prepareArgs c (db.leaseFor c.packet.resourceId) = .ok args)
    (hread : Q db log (.readLease c.packet.resourceId))
    (hprepare : Q db (log ++ [⟨.readLease c.packet.resourceId,db.leaseFor c.packet.resourceId⟩]) (.prepare args)) :
    Script.Completes SendRequest.perform Q ((prepare c).bind fun _ => .done ()) db log (prepareIntent args db).1
      (log ++ [⟨.readLease c.packet.resourceId,db.leaseFor c.packet.resourceId⟩] ++
        [⟨.prepare args,(prepareIntent args db).2⟩]) := by
  unfold prepare
  rw [hchecks]
  refine .ask hread ?_
  simp only [SendRequest.perform,hargs]
  exact .ask hprepare (.done () _ _)

theorem trailed_of_reaches {t : SendSystem rt} (h : SendReaches Q (.begin base) t) :
    Trailed t.store := by
  obtain ⟨moves,-,rfl⟩ := h
  exact trailed_run base moves

/-! ## The first send of a packet -/

/-- Everything a first send needs, on the database before the claim. -/
structure SendSetting (db : Database) (co : LeaseCoordinator) (p : ContinuationPacket rt)
    (authority : ContinuationAuthoritySnapshot) (ownerId token : String) (b : ExactConversationBinding)
    (now expires : DateTime) : Prop where
  valid : validatePacket p authority now = .ok ()
  authorized : stopCheck co db authority p .queueClaim = .ok ()
  queue : db.checkBoundary p.scopeEpoch .queueClaim = .ok ()
  dispatch : db.checkBoundary p.scopeEpoch .dispatchSend = .ok ()
  registered : db.revision.isSome = true
  bound : p.executionBindingId ∈ db.bindings
  owner : strip ownerId ≠ ""
  digest : tokenDigest rt token ≠ ""
  chat : b.isExact rt = true
  expiry : now.plus (co.leaseSeconds * 1000000) = .ok expires
  lives : now < expires

/-- The token holds the lease of the packet, and what guards a send is as it was. -/
structure Holding (base : Database) (p : ContinuationPacket rt) (token : String) (now : DateTime)
    (l : ContinuationLeaseRecord) (db : Database) : Prop where
  trailed : Trailed db
  registered : db.revision.isSome = true
  guard : db.cursor = base.cursor ∧ db.fences = base.fences ∧ db.projectId = base.projectId
  bindings : db.bindings = base.bindings
  holds : HoldsLease rt db p.resourceId token now l
  packet : l.continuationId = p.continuationId ∧ l.packetDigest = p.packetDigest
  generation : 1 ≤ l.generation

theorem checkBoundary_congr
    (h : db.cursor = base.cursor ∧ db.fences = base.fences ∧ db.projectId = base.projectId) (epoch : ℕ)
    (boundary : EffectBoundary) : db.checkBoundary epoch boundary = base.checkBoundary epoch boundary := by
  unfold Database.checkBoundary Database.fenceOf
  rw [h.1,h.2.1,h.2.2]

variable {base : Database} {co : LeaseCoordinator} {authority : ContinuationAuthoritySnapshot} {ownerId : String}
  {b : ExactConversationBinding} {expires : DateTime} {r' : SendIntentRecord}

theorem Holding.live (h : Holding base p token now l db)
    (hset : SendSetting base co p authority ownerId token b now expires) :
    db.liveLeaseCheck p token now .queueClaim = .ok l ∧ db.liveLeaseCheck p token now .dispatchSend = .ok l := by
  constructor
  · exact liveLeaseCheck_of hset.digest h.holds h.packet ((checkBoundary_congr h.guard _ _).trans hset.queue)
  · exact liveLeaseCheck_of hset.digest h.holds h.packet ((checkBoundary_congr h.guard _ _).trans hset.dispatch)

theorem Holding.written (h : Holding base p token now l db) (hwritten : IntentWritten db r' db')
    (htrailed : Trailed db') : Holding base p token now l db' := by
  obtain ⟨n,e,audit,-,-,-,rfl⟩ := hwritten.logged
  exact ⟨htrailed,rfl,h.guard,h.bindings,⟨h.holds.row,h.holds.owner,h.holds.claimed,h.holds.live⟩,h.packet,
    h.generation⟩

theorem lease_frame (call : LeaseCall rt) (now : DateTime) (db : Database) :
    let db' := (call.perform now db).1
    db'.intents = db.intents ∧ db'.bindings = db.bindings ∧ db'.revision.isSome = db.revision.isSome ∧
      db'.cursor = db.cursor ∧ db'.fences = db.fences ∧ db'.projectId = db.projectId := by
  have hout := lease_outcome call now db
  generalize call.perform now db = out at hout
  cases hout with
  | quiet => exact ⟨rfl,rfl,rfl,rfl,rfl,rfl⟩
  | wrote hopened hchange hwritten haccepted =>
    obtain ⟨e,audit,-,-,rfl⟩ := hwritten.logged
    cases hopened <;> exact ⟨rfl,rfl,by simp,rfl,rfl,rfl⟩

theorem first_claim (hset : SendSetting base co p authority ownerId token b now expires)
    (hq : Q (SendSystem.begin base : SendSystem rt).store [] (.lease (.claim co p authority ownerId token) now)) :
    ∃ t l o, SendReaches Q (.begin base) t ∧ Holding base p token now l t.store ∧ l.expiresAt = expires ∧
      t.store.intents = Table.empty ∧ t.log = [⟨.lease (.claim co p authority ownerId token) now,o⟩] ∧
      l = (claimWrite rt ownerId token now expires).change (availableLease base.projectId p now) := by
  let begin : Database := { base with leases := Table.empty, intents := Table.empty, audit := Table.empty }
  have hbegin : Trailed begin := @trailed_begin rt base
  let l := (claimWrite rt ownerId token now expires).change (availableLease begin.projectId p now)
  obtain ⟨done,res,hclaim,-,hrow⟩ : ∃ db' res, claim co p authority ownerId token now begin = (db',.ok res) ∧
      res.accepted = true ∧ db'.leaseFor p.resourceId = some l :=
    claim_accepts hbegin hset.registered hset.owner hset.valid hset.authorized rfl rfl hset.expiry
  obtain ⟨hintents,hbindings,hrevision,hguard⟩ := lease_frame (.claim co p authority ownerId token) now begin
  have htrailed := trailed_step begin [] (.lease (.claim co p authority ownerId token) now) hbegin
  have hperform : (LeaseCall.claim co p authority ownerId token).perform now begin = (done,.ok res) := hclaim
  change Trailed ((LeaseCall.claim co p authority ownerId token).perform now begin).1 at htrailed
  rw [hperform] at hintents hbindings hrevision hguard htrailed
  obtain ⟨t,hreach,hstore,hlog⟩ := reaches_of_completes (s := (.begin base : SendSystem rt))
    (show (ClientCall.lease (.claim co p authority ownerId token) now).program = .ask _ _ from rfl)
    (completes_request hq)
  have hdone : t.store = done := hstore.trans (congrArg Prod.fst hperform)
  refine ⟨t,l,_,hreach,?_,rfl,?_,hlog,rfl⟩
  · rw [hdone]
    exact
      { trailed := htrailed
        registered := hrevision.trans hset.registered
        guard := hguard
        bindings := hbindings
        holds := ⟨hrow,rfl,rfl,hset.lives⟩
        packet := ⟨rfl,rfl⟩
        generation := le_max_left _ _ }
  · rw [hdone]
    exact hintents

theorem prepare_call {c : PrepareCall rt} {g : ℕ}
    (hset : SendSetting base co c.packet c.authority ownerId c.token b c.now expires)
    (h : Holding base c.packet c.token c.now l s.store) (hchecks : prepareChecks c = .ok ())
    (hg : c.intentGeneration.getD l.generation = g) (hpos : 1 ≤ g) :
    let args : PrepareArgs rt := ⟨c.packet,c.authority,c.token,c.payload,c.binding,g,
      intentKeyFor c.packet l c.payload c.binding g,c.now⟩
    (∀ r ∈ s.store.intents.rows, r.intentKey ≠ args.key) → s.store.intents.get (intentIdOf args.key) = none →
    Q s.store s.log (.readLease c.packet.resourceId) →
    Q s.store (s.log ++ [⟨.readLease c.packet.resourceId,s.store.leaseFor c.packet.resourceId⟩]) (.prepare args) →
    ∃ t intents res, SendReaches Q s t ∧ Holding base c.packet c.token c.now l t.store ∧
      s.store.intents.insert (preparedIntent args l s.store.projectId) = some intents ∧ t.store.intents = intents ∧
      t.log = s.log ++ [⟨.readLease c.packet.resourceId,s.store.leaseFor c.packet.resourceId⟩] ++
        [⟨.prepare args,.ok res⟩] := by
  intro args hfresh habsent hread hprepare
  have hargs : prepareArgs c (s.store.leaseFor c.packet.resourceId) = .ok args := by
    unfold prepareArgs
    refine bind_of (need_ok.mpr h.holds.row) ?_
    refine require_bind ⟨h.holds.owner,h.holds.claimed⟩ ?_
    refine require_bind h.holds.live ?_
    dsimp only
    rw [hg]
    exact bind_ok.mpr ⟨(),require_ok.mpr (by omega),rfl⟩
  have hbound : args.packet.executionBindingId ∈ s.store.bindings := by
    rw [h.bindings]
    exact hset.bound
  obtain ⟨n,intents,audit,res,hcreate,-,hinsert⟩ := prepare_creates args h.trailed h.registered hset.valid
    (h.live hset).1 hfresh habsent h.generation hbound
  obtain ⟨t,hreach,hstore,hlog⟩ := reaches_of_completes (program_prepare c)
    (completes_prepare hchecks hargs hread hprepare)
  have htrailed := trailed_step s.store [] (.prepare args) h.trailed
  change Trailed (prepareIntent args s.store).1 at htrailed
  rw [hcreate] at hstore hlog htrailed
  refine ⟨t,intents,res,hreach,?_,hinsert,?_,hlog⟩
  · rw [hstore]
    exact ⟨htrailed,rfl,h.guard,h.bindings,⟨h.holds.row,h.holds.owner,h.holds.claimed,h.holds.live⟩,h.packet,
      h.generation⟩
  · rw [hstore]

theorem SameIntent.own (h : SameIntent r r') (hown : OwnIntent a r) : OwnIntent a r' := by
  rw [h]
  exact ⟨hown.packet,hown.owner⟩

theorem domCheck_congr (h : SameIntent r r') (dom : DomPreconditions) : domCheck rt r' dom = domCheck rt r dom := by
  rw [h]
  rfl

theorem attempt_call (hset : SendSetting base co c.packet c.authority ownerId c.token b c.now expires)
    (h : Holding base c.packet c.token c.now l s.store) (hrow : s.store.intents.get c.intentId = some r)
    (hown : OwnIntent c.args r) (hprepared : r.status = .prepared) (hdom : domCheck rt r c.dom = .ok ())
    (hread : ∀ d log, Q d log (.readIntent c.intentId)) (hallow : ∀ d log, Q d log (.allow c.args))
    (hbegin : ∀ d log, Q d log (.begin c.args)) :
    ∃ t r₁ r₂ o res, SendReaches Q s t ∧ Holding base c.packet c.token c.now l t.store ∧ SameIntent r r₂ ∧
      r₂.status = .physicalSendAttempted ∧
      (∀ i, t.store.intents.get i = if c.intentId = i then some r₂ else s.store.intents.get i) ∧
      res.accepted = true ∧
      t.log = s.log ++ [⟨.readIntent c.intentId,some r⟩,⟨.allow c.args,o⟩,⟨.readIntent c.intentId,some r₁⟩,
        ⟨.begin c.args,.ok res⟩] := by
  obtain ⟨db₁,res₁,hallowed,-,hwritten₁⟩ := allow_accepts h.trailed hrow hown ⟨l,(h.live hset).2⟩ hprepared
  have hrow₁ := get_written hwritten₁ hrow rfl
  have htrailed₁ := trailed_step s.store [] (.allow c.args) h.trailed
  change Trailed (allowIntent c.args s.store).1 at htrailed₁
  obtain ⟨t₁,hreach₁,hstore₁,hlog₁⟩ := reaches_of_completes (s := s) (program_allowSend c)
    (completes_throughDom hset.valid hrow hdom (hread _ _) (completes_request (hallow _ _)))
  change t₁.store = (allowIntent c.args s.store).1 at hstore₁
  rw [hallowed] at hstore₁ htrailed₁
  let r₁ := (allowWrite c.args.now).change r
  have hsame₁ : SameIntent r r₁ := (allowWrite c.args.now).keepsIdentity r
  have hget₁ : t₁.store.intents.get c.intentId = some r₁ := by
    rw [hstore₁,hrow₁]
    exact if_pos rfl
  have hholding₁ : Holding base c.packet c.token c.now l t₁.store := by
    rw [hstore₁]
    exact h.written hwritten₁ htrailed₁
  obtain ⟨db₂,res₂,hbegun,haccepted,hwritten₂⟩ := begin_accepts hholding₁.trailed hget₁ (hsame₁.own hown)
    ⟨l,(hholding₁.live hset).2⟩ rfl
  have hrow₂ := get_written hwritten₂ hget₁ rfl
  have htrailed₂ := trailed_step t₁.store [] (.begin c.args) hholding₁.trailed
  change Trailed (beginIntent c.args t₁.store).1 at htrailed₂
  obtain ⟨t₂,hreach₂,hstore₂,hlog₂⟩ := reaches_of_completes (s := t₁) (program_beginPhysicalSend c)
    (completes_throughDom hset.valid hget₁ ((domCheck_congr hsame₁ c.dom).trans hdom) (hread _ _)
      (completes_request (hbegin _ _)))
  change t₂.store = (beginIntent c.args t₁.store).1 at hstore₂
  change t₂.log = t₁.log ++ [_] ++ [⟨.begin c.args,(beginIntent c.args t₁.store).2⟩] at hlog₂
  rw [hbegun] at hstore₂ htrailed₂ hlog₂
  refine ⟨t₂,r₁,(beginWrite c.args.now).change r₁,(SendRequest.perform (.allow c.args) s.store).2,res₂,
    hreach₁.trans hreach₂,?_,?_,rfl,?_,haccepted,?_⟩
  · rw [hstore₂]
    exact hholding₁.written hwritten₂ htrailed₂
  · rfl
  · intro i
    rw [hstore₂,hrow₂ i,hstore₁,hrow₁ i]
    split <;> rfl
  · rw [hlog₂,hlog₁]
    simp

theorem textDigest_ne_empty (cs : List Char) : textDigest rt cs ≠ "" := by
  unfold textDigest
  intro h
  have hlist := congrArg String.toList h
  simp at hlist

theorem own_prepared (now : DateTime) (hproject : base.projectId = args.packet.projectId) :
    OwnIntent ⟨id,args.packet,args.token,now⟩ (preparedIntent args l base.projectId) := by
  refine ⟨?_,rfl⟩
  simp [packetMatches,preparedIntent,hproject]

theorem domCheck_prepared (hchat : args.binding = some b) (hexact : b.isExact rt = true) :
    domCheck rt (preparedIntent args l base.projectId) ⟨some b.conversationId,true,true⟩ = .ok () := by
  have hproof : b.conversationId ≠ "" ∧ b.bindingProof = bindingProofOf rt b.conversationId := by
    simp only [ExactConversationBinding.isExact,Bool.and_eq_true,bne_iff_ne,beq_iff_eq] at hexact
    exact ⟨hexact.1.2,hexact.2⟩
  have hne : b.bindingProof ≠ "" := by
    rw [hproof.2]
    exact textDigest_ne_empty _
  unfold domCheck
  simp only [preparedIntent,hchat,Option.map_some,Option.getD_some]
  refine require_bind ⟨hproof.1,hne⟩ ?_
  refine require_bind (congrArg some hproof.2) ?_
  refine require_bind trivial ?_
  refine require_bind trivial ?_
  exact require_ok.mpr trivial

/-- The requests of a first attempt meet a condition. -/
structure AdmitsAttempt (Q : SendCondition rt) (base : Database) (claim : LeaseCall rt) (now : DateTime) : Prop where
  claim : Q (SendSystem.begin base : SendSystem rt).store [] (.lease claim now)
  readLease : ∀ d log resource, Q d log (.readLease resource)
  prepare : ∀ d log args, d.intents = Table.empty → Q d log (.prepare args)
  readIntent : ∀ d log id, Q d log (.readIntent id)
  allow : ∀ d log args, Q d log (.allow args)
  begin : ∀ d log args, Q d log (.begin args)

theorem first_attempt {c : PrepareCall rt}
    (hset : SendSetting base co c.packet c.authority ownerId c.token b c.now expires)
    (hproject : base.projectId = c.packet.projectId) (hchecks : prepareChecks c = .ok ())
    (hchat : c.binding = some b) (hgeneration : c.intentGeneration = none)
    (hQ : AdmitsAttempt Q base (.claim co c.packet c.authority ownerId c.token) c.now) :
    ∃ t l r before res, SendReaches Q (.begin base) t ∧ Holding base c.packet c.token c.now l t.store ∧
      l.expiresAt = expires ∧ t.store.intents.get r.intentId = some r ∧
      OwnIntent ⟨r.intentId,c.packet,c.token,c.now⟩ r ∧ r.status = .physicalSendAttempted ∧
      r.conversationBindingId = some b.conversationId ∧ res.accepted = true ∧
      t.log = before ++ [⟨.begin ⟨r.intentId,c.packet,c.token,c.now⟩,.ok res⟩] := by
  obtain ⟨t₁,l,o,hreach₁,hholding₁,hexpires,hempty,hlog₁,-⟩ := first_claim (Q := Q) hset hQ.claim
  have hg : c.intentGeneration.getD l.generation = (l.generation : ℕ) := by
    rw [hgeneration]
    rfl
  have hfresh : ∀ key, ∀ r ∈ t₁.store.intents.rows, r.intentKey ≠ key := by
    intro key r hr
    rw [hempty] at hr
    cases hr
  have habsent : ∀ id, t₁.store.intents.get id = none := by
    intro id
    rw [hempty]
    rfl
  obtain ⟨t₂,intents,res₂,hreach₂,hholding₂,hinsert,hintents,hlog₂⟩ := prepare_call (Q := Q) hset hholding₁ hchecks
    hg hholding₁.generation (hfresh _) (habsent _) (hQ.readLease _ _ _) (hQ.prepare _ _ _ hempty)
  let args : PrepareArgs rt := ⟨c.packet,c.authority,c.token,c.payload,c.binding,l.generation,
    intentKeyFor c.packet l c.payload c.binding l.generation,c.now⟩
  let r := preparedIntent args l t₁.store.projectId
  have hid : t₁.store.projectId = args.packet.projectId := hholding₁.guard.2.2.trans hproject
  have hrow : t₂.store.intents.get r.intentId = some r := by
    rw [hintents]
    exact (get_insert hinsert _).trans (if_pos rfl)
  let call : SendCall rt := ⟨r.intentId,c.packet,c.authority,c.token,⟨some b.conversationId,true,true⟩,c.now⟩
  obtain ⟨t₃,r₁,r₂,o₂,res,hreach₃,hholding₃,hsame,hstatus,hget,haccepted,hlog₃⟩ := attempt_call (c := call) (r := r)
    hset hholding₂ hrow (own_prepared c.now hid) rfl (domCheck_prepared hchat hset.chat)
    (fun _ _ => hQ.readIntent _ _ _) (fun _ _ => hQ.allow _ _ _) (fun _ _ => hQ.begin _ _ _)
  have hid₂ : r₂.intentId = r.intentId := hsame.intentId
  refine ⟨t₃,l,r₂,t₂.log ++ [⟨.readIntent r.intentId,some r⟩,⟨.allow call.args,o₂⟩,⟨.readIntent r.intentId,some r₁⟩],
    res,(hreach₁.trans hreach₂).trans hreach₃,hholding₃,hexpires,?_,?_,hstatus,?_,haccepted,?_⟩
  · rw [hid₂,hget]
    exact if_pos rfl
  · rw [hid₂]
    exact hsame.own (own_prepared c.now hid)
  · rw [hsame]
    simp [r,args,preparedIntent,hchat]
  · rw [hlog₃,hid₂]
    simp [call,SendCall.args]

/-! ## The small conversation -/

theorem sample_valid {seconds : ℕ} (h : sampleTime seconds < sampleTime 3600) :
    validatePacket samplePacket sampleAuthority (sampleTime seconds) = .ok () := by
  unfold validatePacket
  refine bind_ok.mpr ⟨(),require_ok.mpr (by decide +kernel),?_⟩
  refine require_bind h ?_
  refine require_bind rfl ?_
  refine bind_ok.mpr ⟨(),require_ok.mpr (by decide +kernel),?_⟩
  refine bind_ok.mpr ⟨(),require_ok.mpr (by decide +kernel),?_⟩
  refine bind_ok.mpr ⟨(),require_ok.mpr (by decide +kernel),?_⟩
  refine bind_ok.mpr ⟨(),?_,?_⟩
  · simp [compareFields,comparisons,samplePacket,sampleContent,sampleAuthority]
  refine bind_ok.mpr ⟨(),require_ok.mpr (by decide +kernel),?_⟩
  refine bind_ok.mpr ⟨(),require_ok.mpr (by decide +kernel),?_⟩
  refine require_bind rfl ?_
  refine require_bind rfl ?_
  exact require_ok.mpr rfl

theorem sample_setting : SendSetting sampleDatabase sampleCoordinator samplePacket sampleAuthority "owner"
    sampleToken sampleBinding (sampleTime 1) (sampleTime 31) where
  valid := sample_valid (by decide)
  authorized := by decide +kernel
  queue := by decide +kernel
  dispatch := by decide +kernel
  registered := rfl
  bound := List.mem_singleton.mpr rfl
  owner := by decide +kernel
  digest := by decide +kernel
  chat := by decide +kernel
  expiry := by decide +kernel
  lives := by decide

theorem sample_checks (intentGeneration : Option Int) : prepareChecks (samplePrepare intentGeneration) = .ok () := by
  have hpayload : "hello" ≠ "" ∧ Json.byteLength "hello".toList ≤ 65536 := by decide +kernel
  unfold prepareChecks
  refine bind_ok.mpr ⟨(),sample_valid (by decide),?_⟩
  refine require_bind hpayload.1 ?_
  refine require_bind hpayload.2 ?_
  refine require_bind sample_setting.digest ?_
  refine require_ok.mpr ?_
  intro b hb
  cases hb
  exact sample_setting.chat

/-- The attempt of the sample: its state, its lease and its intent. -/
structure SampleAttempt (Q : SendCondition sampleRuntime) (t : SendSystem sampleRuntime)
    (l : ContinuationLeaseRecord) (r : SendIntentRecord) : Prop where
  reached : SendReaches Q (.begin sampleDatabase) t
  holding : Holding sampleDatabase samplePacket sampleToken (sampleTime 1) l t.store
  expires : l.expiresAt = sampleTime 31
  row : t.store.intents.get r.intentId = some r
  own : OwnIntent ⟨r.intentId,samplePacket,sampleToken,sampleTime 1⟩ r
  status : r.status = .physicalSendAttempted
  chat : r.conversationBindingId = some "chat-1"
  begun : ∃ before res, res.accepted = true ∧
    t.log = before ++ [⟨.begin ⟨r.intentId,samplePacket,sampleToken,sampleTime 1⟩,.ok res⟩]

theorem sample_attempt {Q : SendCondition sampleRuntime} (hQ : AdmitsAttempt Q sampleDatabase
    (.claim sampleCoordinator samplePacket sampleAuthority "owner" sampleToken) (sampleTime 1)) :
    ∃ t l r, SampleAttempt Q t l r := by
  obtain ⟨t,l,r,before,res,hreach,hholding,hexpires,hrow,hown,hstatus,hchat,haccepted,hlog⟩ :=
    first_attempt (c := samplePrepare none) sample_setting rfl (sample_checks none) rfl rfl hQ
  exact ⟨t,l,r,hreach,hholding,hexpires,hrow,hown,hstatus,hchat,before,res,haccepted,hlog⟩

theorem any_sample_attempt : ∃ t l r, SampleAttempt anyRequest t l r :=
  sample_attempt ⟨trivial,fun _ _ _ => trivial,fun _ _ _ _ => trivial,fun _ _ _ => trivial,fun _ _ _ => trivial,
    fun _ _ _ => trivial⟩

theorem invalid_of_expired (authority : ContinuationAuthoritySnapshot) (h : p.expiresAt ≤ now) :
    ∃ f, validatePacket p authority now = .error f := by
  cases hvalid : validatePacket p authority now with
  | error f => exact ⟨f,rfl⟩
  | ok u =>
    unfold validatePacket at hvalid
    obtain ⟨_,hvalid⟩ := rest_ok hvalid
    obtain ⟨_,hlive,-⟩ := bind_ok.mp hvalid
    exact absurd (require_ok.mp hlive) (not_lt.mpr h)

end Bdb.Continuation
