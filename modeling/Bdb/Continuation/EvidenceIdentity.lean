import Bdb.Continuation.Acknowledge

/-! # Evidence and identity

A call that is given evidence, a proof or an acknowledgement should change an intent only
when that object names the intent and its conversation, and no call should make an intent
of a fenced epoch sendable again. Confirmations and acknowledgements are checked so; the
proof of a reconciliation is compared with the intent alone.
-/
namespace Bdb.Continuation

open Step SendIntentResult List Table

variable {rt : Runtime} {db : Database} {q : SendRequest rt} {kind : ChangeKind} {r r' : SendIntentRecord}
  {id : String} {call : ClientCall rt} {a : SendArgs rt} {proof : NoDeliveryProof}

/-! ## What a call is given -/

/-- The intent and the conversation that an object names. -/
structure Supplied where
  intentId : String
  conversationId : String

def ClientCall.supplied : ClientCall rt → Option Supplied
  | .confirm _ e => some ⟨e.intentId,e.conversationId⟩
  | .reconcile _ (some e) _ => some ⟨e.intentId,e.conversationId⟩
  | .reconcile _ none (some proof) => some ⟨proof.intentId,proof.conversationId⟩
  | .ack _ acknowledgement _ => some ⟨acknowledgement.intentId,acknowledgement.conversationId⟩
  | _ => none

/-- A request of the call, on the rows it finds, changes an intent only when the supplied
object names it and its conversation, and makes no intent of a fenced epoch sendable. -/
structure BoundStep (call : ClientCall rt) (db : Database) (q : SendRequest rt) : Prop where
  named : ∀ id r, db.intents.get id = some r → (q.perform db).1.intents.get id ≠ some r →
    ∀ o ∈ call.supplied, o.intentId = id ∧ some o.conversationId = r.conversationBindingId
  unfenced : ∀ id r r', db.intents.get id = some r → (q.perform db).1.intents.get id = some r' →
    r.status ≠ .sendAllowed → r'.status = .sendAllowed → db.fenceOf r.scopeEpoch = none

def ClientCall.Bound (call : ClientCall rt) (others : List (List (SendRequest rt))) (db : Database) : Prop :=
  ∀ step ∈ call.program.meets SendRequest.perform others db, BoundStep call step.1 step.2

/-! ## Single requests -/

theorem change_of_row (q : SendRequest rt) (hrow : db.intents.get id = some r) :
    (q.perform db).1.intents.get id = some r ∨
      ∃ kind r', IntentChange db q kind r r' ∧ (q.perform db).1.intents.get id = some r' := by
  obtain ⟨r',hrow',h⟩ := kept_of_changes (q := q)
    (P := fun r' => r' = r ∨ ∃ kind, IntentChange db q kind r r') hrow (.inl rfl)
    (fun kind r' hchange => .inr ⟨kind,hchange⟩)
  rcases h with rfl | ⟨kind,hchange⟩
  · exact .inl hrow'
  · exact .inr ⟨kind,r',hchange,hrow'⟩

theorem checkBoundary_fence {epoch : ℕ} {boundary : EffectBoundary} (h : db.checkBoundary epoch boundary = .ok ()) :
    db.fenceOf epoch = none := by
  unfold Database.checkBoundary at h
  cases hcursor : db.cursor with
  | none => simp [hcursor] at h
  | some c =>
    rw [hcursor] at h
    obtain ⟨_,_,h⟩ := rest₂ h
    exact require_ok.mp h

theorem OwnIntent.fenceOf_none (h : OwnIntent a r) (hlease : UnderLease a db) : db.fenceOf r.scopeEpoch = none := by
  obtain ⟨l,hl⟩ := hlease
  have hepoch : r.scopeEpoch = a.packet.scopeEpoch := by
    have hpacket := h.packet
    simp only [packetMatches,Bool.and_eq_true,beq_iff_eq] at hpacket
    exact hpacket.1.1.1.1.2
  unfold Database.liveLeaseCheck at hl
  obtain ⟨_,_,_,hl⟩ := rest₃ hl
  obtain ⟨_,_,_,hl⟩ := rest₃ hl
  obtain ⟨_,hboundary,-⟩ := bind_ok.mp hl
  rw [hepoch]
  exact checkBoundary_fence hboundary

theorem boundStep_of_changes
    (hnamed : ∀ kind r r', db.intents.get r.intentId = some r → IntentChange db q kind r r' →
      ∀ o ∈ call.supplied, o.intentId = r.intentId ∧ some o.conversationId = r.conversationBindingId)
    (hunfenced : ∀ kind r r', db.intents.get r.intentId = some r → IntentChange db q kind r r' → kind = .retried →
      db.fenceOf r.scopeEpoch = none) :
    BoundStep call db q := by
  refine ⟨?_,?_⟩
  · intro id r hrow hchanged
    have hid := key_of_get hrow
    rcases change_of_row q hrow with h | ⟨kind,r',hchange,-⟩
    · exact absurd h hchanged
    · exact hid ▸ hnamed kind r r' (hid ▸ hrow) hchange
  · intro id r r' hrow hrow' hbefore hafter
    rcases change_of_row q hrow with h | ⟨kind,r'',hchange,h⟩
    · obtain rfl := some_unique h hrow'
      exact absurd hafter hbefore
    · obtain rfl := some_unique h hrow'
      have hends := hchange.status.2.symm.trans hafter
      have hkind : kind = .allowed ∨ kind = .retried := by
        revert hends
        cases kind <;> decide
      rcases hkind with rfl | rfl
      · cases hchange with
        | allowed hid hown hlease hstatus => exact hown.fenceOf_none hlease
      · exact hunfenced .retried r r'' (key_of_get hrow ▸ hrow) hchange rfl

theorem boundStep_of_nothing (hnothing : call.supplied = none) (hretry : q.isRetry = false) : BoundStep call db q := by
  refine boundStep_of_changes ?_ ?_
  · intro kind r r' hrow hchange o ho
    rw [hnothing] at ho
    cases ho
  · rintro kind r r' hrow hchange rfl
    cases hchange with
    | retried hid hstatus => cases hretry

theorem boundStep_read (intentId : String) : BoundStep call db (.readIntent intentId) := by
  refine boundStep_of_changes ?_ ?_
  all_goals
    intro kind r r' hrow hchange
    cases hchange

theorem boundStep_lease (leaseCall : LeaseCall rt) (now : DateTime) : BoundStep call db (.lease leaseCall now) := by
  refine boundStep_of_changes ?_ ?_
  all_goals
    intro kind r r' hrow hchange
    cases hchange

theorem boundStep_confirm {e : StructuredSendEvidence} (hcall : call.supplied = some ⟨e.intentId,e.conversationId⟩) :
    BoundStep call db (.confirm a e) := by
  refine boundStep_of_changes ?_ ?_
  · intro kind r r' hrow hchange o ho
    obtain rfl := some_unique hcall ho
    cases hchange with
    | confirmed hid hown hpositive hmatches hstatus =>
      simp only [evidenceMatches,Bool.and_eq_true,beq_iff_eq] at hmatches
      exact ⟨hmatches.1.1.1.1.1.1,hmatches.1.1.2⟩
  · rintro kind r r' hrow hchange rfl
    cases hchange

variable {read : SendIntentRecord}

theorem boundStep_acknowledge {acknowledgement : SendAck} {ackAt : DateTime}
    (hcall : call.supplied = some ⟨acknowledgement.intentId,acknowledgement.conversationId⟩)
    (hmatch : ackMatches read a acknowledgement = true)
    (hstored : ∃ r, db.intents.get read.intentId = some r ∧ SameIntent read r) :
    BoundStep call db (.acknowledge a.intentId ackAt) := by
  simp only [ackMatches,Bool.and_eq_true,beq_iff_eq] at hmatch
  obtain ⟨⟨⟨⟨⟨⟨⟨⟨hintent,hid⟩,-⟩,-⟩,-⟩,-⟩,-⟩,-⟩,hconversation⟩ := hmatch
  refine boundStep_of_changes ?_ ?_
  · intro kind r r' hrow hchange o ho
    obtain rfl := some_unique hcall ho
    cases hchange with
    | acknowledged hr hstatus =>
      obtain ⟨r₁,hrow₁,hsame⟩ := hstored
      rw [hid,← hr] at hrow₁
      obtain rfl := some_unique hrow hrow₁
      refine ⟨hintent.trans (hid.trans hr.symm),hconversation.trans ?_⟩
      rw [hsame]
  · rintro kind r r' hrow hchange rfl
    cases hchange

/-! ## The second request of a reconciliation -/

def proofTaken (a : SendArgs rt) (proof : NoDeliveryProof) : Bool :=
  proof.intentId = a.intentId ∧ proof.valid = true

def reconcileRequest (a : SendArgs rt) (proof : NoDeliveryProof) (read : SendIntentRecord) : SendRequest rt :=
  if proofTaken a proof = true then .retry a.intentId proof a.now else .requireReconciliation a.intentId read a.now

/-- The statuses in which a reconciliation with the proof writes the intent. -/
def proofWrites (a : SendArgs rt) (proof : NoDeliveryProof) (s : SendStatus) : Bool :=
  if proofTaken a proof = true then awaitingEvidence s else s = .uncertain ∨ s = .physicalSendAttempted

/-- The proof is about the intent and its conversation, and a valid one does not meet a
fence of the intent's epoch. -/
structure ProofFits (db : Database) (proof : NoDeliveryProof) (r : SendIntentRecord) : Prop where
  intent : proof.intentId = r.intentId
  conversation : some proof.conversationId = r.conversationBindingId
  epoch : proof.valid = true → db.fenceOf r.scopeEpoch = none

theorem IntentChange.reconciliation (h : IntentChange db (reconcileRequest a proof read) kind r r') :
    r.intentId = a.intentId ∧ proofWrites a proof r.status = true ∧ (kind = .retried → proof.valid = true) := by
  unfold reconcileRequest at h
  unfold proofWrites
  by_cases htaken : proofTaken a proof = true
  · rw [if_pos htaken] at h ⊢
    cases h with
    | retried hid hstatus => exact ⟨hid,hstatus,fun _ => (of_decide_eq_true htaken).2⟩
  · rw [if_neg htaken] at h ⊢
    cases h with
    | reconciled hid hstatus => exact ⟨hid,decide_eq_true hstatus,(by rintro ⟨⟩)⟩

theorem boundStep_reconcile (hcall : call.supplied = some ⟨proof.intentId,proof.conversationId⟩)
    (hfits : ∀ r, db.intents.get a.intentId = some r → proofWrites a proof r.status = true → ProofFits db proof r) :
    BoundStep call db (reconcileRequest a proof read) := by
  refine boundStep_of_changes ?_ ?_
  · intro kind r r' hrow hchange o ho
    obtain rfl := some_unique hcall ho
    obtain ⟨hid,hwrites,-⟩ := hchange.reconciliation
    have h := hfits r (hid ▸ hrow) hwrites
    exact ⟨h.intent,h.conversation⟩
  · intro kind r r' hrow hchange hkind
    obtain ⟨hid,hwrites,hvalid⟩ := hchange.reconciliation
    exact (hfits r (hid ▸ hrow) hwrites).epoch (hvalid hkind)

theorem reconcileRequest_writes (read : SendIntentRecord) (h : Trailed db) (hrow : db.intents.get a.intentId = some r)
    (hwrites : proofWrites a proof r.status = true) :
    ∃ kind r', ((reconcileRequest a proof read).perform db).1.intents.get a.intentId = some r' ∧
      IntentChange db (reconcileRequest a proof read) kind r r' ∧ (proofTaken a proof = true → kind = .retried) := by
  have hid := key_of_get hrow
  unfold proofWrites at hwrites
  unfold reconcileRequest
  by_cases htaken : proofTaken a proof = true
  · rw [if_pos htaken] at hwrites ⊢
    obtain ⟨db',res,hretry,-,hwritten⟩ := retry_accepts h hrow hwrites a.now
    refine ⟨.retried,_,?_,.retried hid hwrites,fun _ => rfl⟩
    change (retryIntent a.intentId a.now db).1.intents.get a.intentId = _
    rw [hretry]
    exact (get_written hwritten hrow rfl a.intentId).trans (if_pos rfl)
  · rw [if_neg htaken] at hwrites ⊢
    obtain ⟨db',res,hrequire,hwritten⟩ := requireReconciliation_writes read h hrow (of_decide_eq_true hwrites) a.now
    refine ⟨.reconciled,_,?_,.reconciled hid (of_decide_eq_true hwrites),fun h => absurd h htaken⟩
    change (requireReconciliation a.intentId read a.now db).1.intents.get a.intentId = _
    rw [hrequire]
    exact (get_written hwritten hrow rfl a.intentId).trans (if_pos rfl)

theorem proofFits_of_boundStep (h : Trailed db)
    (hcall : call.supplied = some ⟨proof.intentId,proof.conversationId⟩)
    (hrow : db.intents.get a.intentId = some r) (hwrites : proofWrites a proof r.status = true)
    (hbound : BoundStep call db (reconcileRequest a proof read)) : ProofFits db proof r := by
  obtain ⟨kind,r',hrow',hchange,hkind⟩ := reconcileRequest_writes read h hrow hwrites
  have hchanged : ((reconcileRequest a proof read).perform db).1.intents.get a.intentId ≠ some r := by
    rw [hrow']
    intro heq
    have hrevision := hchange.revision
    rw [Option.some.inj heq] at hrevision
    omega
  have hid := key_of_get hrow
  obtain ⟨hintent,hconversation⟩ := hbound.named a.intentId r hrow hchanged _ hcall
  refine ⟨hintent.trans hid.symm,hconversation,?_⟩
  intro hvalid
  obtain rfl := hkind (decide_eq_true ⟨hintent,hvalid⟩)
  obtain ⟨hstarts,hends⟩ := hchange.status
  refine hbound.unfenced a.intentId r r' hrow hrow' ?_ hends
  revert hstarts
  cases r.status <;> decide

/-! ## Whole calls -/

/-- In the state in which a reconciliation of an own intent makes its write, the proof fits
the intent. -/
def ClientCall.ProofsFit (others : List (List (SendRequest rt))) (db : Database) : ClientCall rt → Prop
  | .reconcile a none (some proof) =>
    let reading := meanwhile db others
    let writing := meanwhile reading others.tail
    ∀ read found, reading.intents.get a.intentId = some read → OwnIntent a read →
      writing.intents.get a.intentId = some found → proofWrites a proof found.status = true →
      ProofFits writing proof found
  | _ => True

/-- The stored row of an intent whose identity was read. -/
def Stored (r : SendIntentRecord) (db : Database) : Prop := ∃ r', db.intents.get r.intentId = some r' ∧ SameIntent r r'

theorem stored_step (db : Database) (q : SendRequest rt) (h : Stored r db) : Stored r (q.perform db).1 := by
  obtain ⟨r',hrow,hsame⟩ := h
  exact kept_of_changes (P := fun r' => SameIntent r r') hrow hsame fun kind r'' hchange => hsame.trans hchange.same

def afterReading (a : SendArgs rt) (evidence : Option StructuredSendEvidence) (proof : Option NoDeliveryProof)
    (read : SendIntentRecord) : SendRequest rt :=
  match evidence, proof with
  | some e, _ => .confirm a e
  | none, none => .requireReconciliation a.intentId read a.now
  | none, some proof => reconcileRequest a proof read

theorem program_reconcile (a : SendArgs rt) (evidence : Option StructuredSendEvidence) (proof : Option NoDeliveryProof) :
    (ClientCall.reconcile a evidence proof).program = .ask (.readIntent a.intentId) fun read =>
      match read with
      | none => .done ()
      | some r =>
        if packetMatches r a.packet = true ∧ r.leaseOwnerTokenHash = tokenDigest rt a.token then
          .ask (afterReading a evidence proof r) fun _ => .done ()
        else .done () := by
  refine congrArg (Script.ask _) (funext fun read => ?_)
  cases read with
  | none => rfl
  | some r =>
    by_cases hpacket : packetMatches r a.packet = true
    · by_cases howner : r.leaseOwnerTokenHash = tokenDigest rt a.token
      · simp only [hpacket,howner,not_true_eq_false,ne_eq,if_false,true_and,if_true]
        cases evidence with
        | some e => rfl
        | none =>
          cases proof with
          | none => rfl
          | some proof =>
            by_cases htaken : proofTaken a proof = true
            · have hcheck : ¬ (¬ proof.intentId = a.intentId ∨ proof.valid = false) := by
                simpa [proofTaken] using htaken
              simp only [hcheck,if_false,afterReading]
              rw [show reconcileRequest a proof r = .retry a.intentId proof a.now from if_pos htaken]
              rfl
            · have hcheck : ¬ proof.intentId = a.intentId ∨ proof.valid = false := by
                by_cases hid : proof.intentId = a.intentId
                · exact .inr (by simpa [proofTaken,hid] using htaken)
                · exact .inl hid
              simp only [hcheck,if_true,afterReading]
              rw [show reconcileRequest a proof r = .requireReconciliation a.intentId r a.now from if_neg htaken]
              rfl
      · simp only [hpacket,howner,not_true_eq_false,ne_eq,not_false_eq_true,if_false,if_true,and_false]
        rfl
    · have hown : ¬ (packetMatches r a.packet = true ∧ r.leaseOwnerTokenHash = tokenDigest rt a.token) :=
        fun h => hpacket h.1
      simp only [hown,if_false]
      rw [if_pos hpacket]
      rfl

variable {others : List (List (SendRequest rt))}

theorem meets_read (id : String) (k : Option SendIntentRecord → SendScript rt Unit) :
    (Script.ask (.readIntent id) k).meets SendRequest.perform others db =
      (meanwhile db others,.readIntent id) ::
        (k ((meanwhile db others).intents.get id)).meets SendRequest.perform others.tail (meanwhile db others) := rfl

theorem reconcile_bound_iff (evidence : Option StructuredSendEvidence) (proof : Option NoDeliveryProof) :
    (ClientCall.reconcile a evidence proof).Bound others db ↔
      ∀ read, (meanwhile db others).intents.get a.intentId = some read → OwnIntent a read →
        BoundStep (.reconcile a evidence proof) (meanwhile (meanwhile db others) others.tail)
          (afterReading a evidence proof read) := by
  unfold ClientCall.Bound
  rw [program_reconcile]
  erw [meets_read]
  refine forall_mem_cons.trans ((and_iff_right (boundStep_read a.intentId)).trans ?_)
  cases hread : (meanwhile db others).intents.get a.intentId with
  | none =>
    refine ⟨?_,?_⟩
    · intro _ read hr
      cases hr
    · intro _ step hstep
      exact (not_mem_nil hstep).elim
  | some r =>
    by_cases hown : packetMatches r a.packet = true ∧ r.leaseOwnerTokenHash = tokenDigest rt a.token
    · simp only [hown,and_self,if_true,Script.meets,forall_mem_cons]
      refine ⟨?_,?_⟩
      · rintro ⟨hbound,-⟩ read hr -
        cases hr
        exact hbound
      · intro hbound
        refine ⟨hbound r rfl ⟨hown.1,hown.2⟩,?_⟩
        intro step hstep
        exact (not_mem_nil hstep).elim
    · simp only [hown,if_false,Script.meets]
      refine ⟨?_,?_⟩
      · rintro - read hr ⟨hpacket,howner⟩
        cases hr
        exact absurd ⟨hpacket,howner⟩ hown
      · intro _ step hstep
        exact (not_mem_nil hstep).elim

theorem ack_asks (a : SendArgs rt) (acknowledgement : SendAck) (ackAt : DateTime) :
    ∃ k : Option SendIntentRecord → SendScript rt Unit,
      (ClientCall.ack a acknowledgement ackAt).program = .ask (.readIntent a.intentId) k ∧
      (k none).AsksOnly (fun _ => False) ∧
      ∀ r, (k (some r)).AsksOnly fun q => (∃ leaseCall now, q = .lease leaseCall now) ∨
        ackMatches r a acknowledgement = true ∧ q = .acknowledge a.intentId ackAt := by
  refine ⟨_,rfl,.done _,?_⟩
  intro r
  refine .bind ?_ fun _ => .done _
  simp only
  split
  · exact .done _
  rename_i hmatch
  split
  · exact .done _
  split
  · exact .done _
  split
  · exact .done _
  refine .ask (.inl ⟨_,_,rfl⟩) ?_
  intro completed
  split
  · exact .done _
  split
  · exact .done _
  exact .ask (.inr ⟨by simpa using hmatch,rfl⟩) fun _ => .done _

theorem ack_bound (a : SendArgs rt) (acknowledgement : SendAck) (ackAt : DateTime) :
    (ClientCall.ack a acknowledgement ackAt).Bound others db := by
  obtain ⟨k,hprogram,hnone,hsome⟩ := ack_asks a acknowledgement ackAt
  unfold ClientCall.Bound
  rw [hprogram]
  erw [meets_read]
  refine forall_mem_cons.mpr ⟨boundStep_read a.intentId,?_⟩
  intro step hstep
  cases hread : (meanwhile db others).intents.get a.intentId with
  | none =>
    rw [hread] at hstep
    exact (hnone.of_mem_meets hstep).elim
  | some r =>
    rw [hread] at hstep
    have hid := key_of_get hread
    have hstored : Stored r step.1 :=
      Script.meets_keeps (fun d q h => stored_step d q h) ⟨r,hid ▸ hread,rfl⟩ hstep
    rcases (hsome r).of_mem_meets hstep with ⟨leaseCall,now,hq⟩ | ⟨hmatch,hq⟩
    · rw [hq]
      exact boundStep_lease leaseCall now
    · rw [hq]
      exact boundStep_acknowledge rfl hmatch hstored

/-! ## The calls that are given nothing -/

def NoRetry (q : SendRequest rt) : Prop := q.isRetry = false

theorem bound_of_nothing (hnothing : call.supplied = none) (hasks : call.program.AsksOnly NoRetry) :
    call.Bound others db :=
  fun _ hstep => boundStep_of_nothing hnothing (hasks.of_mem_meets hstep)

theorem asksOnly_throughDom (c : SendCall rt) {go : SendProgram rt} (hgo : go.AsksOnly NoRetry) :
    (throughDom c go).AsksOnly NoRetry := by
  unfold throughDom
  cases validatePacket c.packet c.authority c.now with
  | error f =>
    refine .ask rfl ?_
    intro fenced
    cases fenced with
    | error e => exact .done _
    | ok r => exact .done _
  | ok _ =>
    refine .ask rfl ?_
    intro read
    cases read with
    | none => exact .done _
    | some r =>
      dsimp only
      cases domCheck rt r c.dom with
      | error f => exact .done _
      | ok _ => exact hgo

theorem asksOnly_allowSend (c : SendCall rt) : (allowSend c).AsksOnly NoRetry :=
  asksOnly_throughDom c (.ask rfl fun _ => .done _)

theorem asksOnly_beginPhysicalSend (c : SendCall rt) : (beginPhysicalSend c).AsksOnly NoRetry :=
  asksOnly_throughDom c (.ask rfl fun _ => .done _)

theorem asksOnly_prepare (c : PrepareCall rt) : (prepare c).AsksOnly NoRetry := by
  unfold prepare
  cases prepareChecks c with
  | error f => exact .done _
  | ok _ =>
    refine .ask rfl ?_
    intro read
    cases prepareArgs c read with
    | error f => exact .done _
    | ok args => exact .ask rfl fun _ => .done _

theorem asksOnly_sendOnce (c : SendCall rt) (beginAt endAt : DateTime) (physicalSend : PhysicalSend) :
    (sendOnce c beginAt endAt physicalSend).AsksOnly NoRetry := by
  refine .bind (asksOnly_allowSend c) ?_
  intro allowed
  cases allowed with
  | error e => exact .done _
  | ok allowed =>
    dsimp only
    split
    · exact .done _
    refine .bind (asksOnly_beginPhysicalSend _) ?_
    intro attempted
    cases attempted with
    | error e => exact .done _
    | ok attempted =>
      dsimp only
      split
      · exact .done _
      split
      · exact .done _
      refine .ask rfl ?_
      intro _
      split
      all_goals exact .ask rfl fun _ => .done _

/-! ## The main result -/

theorem bound_iff (h : Trailed db) (others : List (List (SendRequest rt))) (call : ClientCall rt) :
    call.Bound others db ↔ call.ProofsFit others db := by
  cases call with
  | reconcile a evidence proof =>
    rw [reconcile_bound_iff]
    cases evidence with
    | some e => exact iff_of_true (fun _ _ _ => boundStep_confirm rfl) trivial
    | none =>
      cases proof with
      | none => exact iff_of_true (fun _ _ _ => boundStep_of_nothing rfl rfl) trivial
      | some proof =>
        have hwriting := meanwhile_trailed others.tail (meanwhile_trailed others h)
        refine ⟨?_,?_⟩
        · intro hbound read found hread hown hfound hwrites
          exact proofFits_of_boundStep hwriting rfl hfound hwrites (hbound read hread hown)
        · intro hfits read hread hown
          exact boundStep_reconcile rfl fun found hfound hwrites => hfits read found hread hown hfound hwrites
  | confirm a e =>
    refine iff_of_true ?_ trivial
    intro step hstep
    obtain rfl := mem_singleton.mp hstep
    exact boundStep_confirm rfl
  | ack a acknowledgement ackAt => exact iff_of_true (ack_bound a acknowledgement ackAt) trivial
  | lease call now => exact iff_of_true (bound_of_nothing rfl (.ask rfl fun _ => .done _)) trivial
  | prepare c =>
    exact iff_of_true (bound_of_nothing rfl (.bind (asksOnly_prepare c) fun _ => .done _)) trivial
  | allowSend c =>
    exact iff_of_true (bound_of_nothing rfl (.bind (asksOnly_allowSend c) fun _ => .done _)) trivial
  | beginPhysicalSend c =>
    exact iff_of_true (bound_of_nothing rfl (.bind (asksOnly_beginPhysicalSend c) fun _ => .done _)) trivial
  | sendOnce c beginAt endAt physicalSend =>
    exact iff_of_true (bound_of_nothing rfl
      (.bind (asksOnly_sendOnce c beginAt endAt physicalSend) fun _ => .done _)) trivial
  | markUncertain intentId token reason now | cancel intentId token reason now =>
    exact iff_of_true (bound_of_nothing rfl (.ask rfl fun _ => .done _)) trivial
  | stop q | resume q | elsewhere e => exact iff_of_true (bound_of_nothing rfl (.ask rfl fun _ => .done _)) trivial

/-- In every reachable state, for every call and whatever others do between its requests:
the call changes an intent only when the object it was given names that intent and its
conversation, and makes no intent of a fenced epoch sendable, if and only if the no-delivery
proof of a reconciliation that writes names the intent and its conversation and, when
valid, finds no fence of the intent's epoch. -/
theorem evidence_binds_iff_proofs_fit (db : Database) (moves : List (SendMove rt))
    (others : List (List (SendRequest rt))) (call : ClientCall rt) :
    call.Bound others (SendSystem.run (.begin db) moves).store ↔
      call.ProofsFit others (SendSystem.run (.begin db) moves).store :=
  bound_iff (trailed_run db moves) others call

theorem reconcile_alone (hrow : db.intents.get a.intentId = some r) (hown : OwnIntent a r) :
    ((ClientCall.reconcile a none (some proof)).program.alone SendRequest.perform db).1 =
      ((reconcileRequest a proof r).perform db).1 := by
  unfold Script.alone
  rw [program_reconcile,Script.amid_ask]
  rw [show (SendRequest.perform (.readIntent a.intentId) (Script.performAll SendRequest.perform db
    (List.headD [] []))).2 = some r from hrow]
  dsimp only
  rw [if_pos ⟨hown.packet,hown.owner⟩]
  rfl

/-- No effect was seen, but in another chat. -/
def sampleProof (r : SendIntentRecord) : NoDeliveryProof :=
  ⟨r.intentId,"chat-2",0,"probe-1",true,"NO_DELIVERY_CONFIRMED"⟩

/-- A proof from another chat makes an attempted intent sendable again. -/
theorem foreign_proof_reopens_attempt :
    ∃ (moves : List (SendMove sampleRuntime)) (r : SendIntentRecord),
      let store := (SendSystem.run (.begin sampleDatabase) moves).store
      let a := sampleArgs r (sampleTime 1)
      store.intents.get r.intentId = some r ∧ r.status = .physicalSendAttempted ∧
        r.conversationBindingId = some "chat-1" ∧
        ¬ (ClientCall.reconcile a none (some (sampleProof r))).Bound [] store ∧
        ∃ r', ((ClientCall.reconcile a none (some (sampleProof r))).program.alone SendRequest.perform store).1.intents.get
          r.intentId = some r' ∧ r'.status = .sendAllowed := by
  obtain ⟨t,l,r,h⟩ := any_sample_attempt
  obtain ⟨moves,-,hrun⟩ := h.reached
  change SendSystem.run (.begin sampleDatabase) moves = t at hrun
  have htaken : proofTaken (sampleArgs r (sampleTime 1)) (sampleProof r) = true :=
    decide_eq_true ⟨rfl,by simp [sampleProof,NoDeliveryProof.valid]⟩
  have hwrites : proofWrites (sampleArgs r (sampleTime 1)) (sampleProof r) r.status = true := by
    unfold proofWrites
    rw [if_pos htaken,h.status]
    decide
  refine ⟨moves,r,?_⟩
  rw [hrun]
  refine ⟨h.row,h.status,h.chat,?_,?_⟩
  · intro hbound
    have hfits := (bound_iff h.holding.trailed [] _).mp hbound r r h.row h.own h.row hwrites
    have hconversation := hfits.conversation
    rw [h.chat] at hconversation
    simp [sampleProof] at hconversation
  · obtain ⟨kind,r',hrow',hchange,hkind⟩ := reconcileRequest_writes r h.holding.trailed h.row hwrites
    have hstatus : r'.status = .sendAllowed := by
      rw [hchange.status.2,hkind htaken]
      rfl
    exact ⟨r',(congrArg (fun d : Database => d.intents.get r.intentId) (reconcile_alone h.row h.own)).trans hrow',hstatus⟩

end Bdb.Continuation
