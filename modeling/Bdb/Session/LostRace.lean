import Bdb.Session.ReentrySafety

/-! # A lost race

Two calls read the same pending record and go for the lease. The one that comes second is
told that the lease is held, and blocks the record under the hands of the first.
-/
namespace Bdb.Session

open Bdb.Continuation SessionStore SessionLivenessState Script List Option

variable {rt : Runtime} {p : ContinuationPacket rt} {s : SessionStore rt} {db : Database}
  {bindings : Table ExecutionBinding (·.executionBindingId)} {payload : String} {now : DateTime}

/-! ## Requests that go through -/

theorem logged_of_registered (r : SessionReentryRecord rt) (eventType reason : String) (now : DateTime)
    (h : s.base.revision.isSome = true) :
    ∃ n audit, s.logged r eventType reason now = .ok { s with base := { s.base with revision := some n, audit := audit } } ∧
      ∀ e ∈ audit.rows, e ∈ s.base.audit.rows ∨ ∃ suffix, e.eventId = .scope suffix := by
  obtain ⟨n,hn⟩ := isSome_iff_exists.mp h
  let event := reentryEvent r eventType reason now (n + 1)
  refine ⟨n + 1,(s.base.audit.insert event).getD s.base.audit,?_,?_⟩
  · unfold logged Database.bumpProjectRevision
    rw [hn]
    rfl
  · intro e he
    cases hinsert : s.base.audit.insert event with
    | none =>
      rw [hinsert] at he
      exact .inl he
    | some audit =>
      rw [hinsert] at he
      rw [getD_some,(Table.insert_some hinsert).2] at he
      rcases mem_append.mp he with hold | hnew
      · exact .inl hold
      · rw [mem_singleton.mp hnew]
        exact .inr ⟨_,rfl⟩

variable {generation : ℕ} {r : SessionReentryRecord rt} {c a : ReenterCall rt} {base : Database}
    {expires : DateTime}

theorem createOrRead_creates (hregistered : s.base.revision.isSome = true)
    (hnone : s.reentries = Table.empty) (hbinding : s.readBinding p = some generation) (hgeneration : 1 ≤ generation)
    (hrevision : 1 ≤ p.stateRevision) :
    ∃ n audit reentries, (SessionRequest.createOrRead p payload now).perform s =
        ({ s with base := { s.base with revision := some n, audit := audit }, reentries := reentries },
          .ok (.ok (pendingRecord s.base.projectId p payload generation now))) ∧
      reentries.rows = [pendingRecord s.base.projectId p payload generation now] ∧
      ∀ e ∈ audit.rows, e ∈ s.base.audit.rows ∨ ∃ suffix, e.eventId = .scope suffix := by
  let r := pendingRecord s.base.projectId p payload generation now
  obtain ⟨reentries,hinsert⟩ : ∃ reentries, s.reentries.insert r = some reentries := by
    rw [hnone]
    exact Table.insert_of_new rfl
  have hrows := (Table.insert_some hinsert).2
  obtain ⟨n,audit,hlogged,haudit⟩ := @logged_of_registered _ { s with reentries := reentries } r
    "SESSION_REENTRY_PENDING" "CONTINUATION_PENDING" now hregistered
  refine ⟨n,audit,reentries,?_,?_,haudit⟩
  · have hcreate : s.createOrRead p payload now =
        .ok ({ s with base := { s.base with revision := some n, audit := audit }, reentries := reentries },.ok r) := by
      unfold createOrRead
      refine require_bind hregistered ?_
      rw [show s.recordFor p = none by unfold recordFor; rw [hnone]; rfl]
      dsimp only
      rw [hbinding]
      refine require_bind ⟨hgeneration,hrevision⟩ ?_
      refine bind_of (need_ok.mpr hinsert) ?_
      exact bind_of hlogged rfl
    simp only [SessionRequest.perform,hcreate,commit]
    rfl
  · rw [hrows,hnone]
    rfl

theorem createOrRead_reads (hregistered : s.base.revision.isSome = true)
    (hrows : s.reentries.rows = [r]) (hpacket : r.packet = p) (hpayload : r.payload = payload) :
    (SessionRequest.createOrRead p payload now).perform s = (s,.ok (.ok r)) := by
  have hfor : s.recordFor p = some r := by
    unfold recordFor Table.find
    rw [hrows]
    simp [hpacket]
  have hread : s.createOrRead p payload now = .ok (s,.ok r) := by
    unfold createOrRead
    refine require_bind hregistered ?_
    rw [hfor]
    dsimp only
    rw [if_neg (not_not.mpr hpayload)]
    rfl
  simp only [SessionRequest.perform,hread,commit]
  rfl

theorem transition_writes {w : Transition} (hregistered : s.base.revision.isSome = true)
    (hrow : s.reentries.get r.reentryId = some r) (hexpects : w.Expects r) (hbinding : w.binding = none)
    (hcheckpoint : w.checkpoint = false) (htrace : ∀ item ∈ w.trace, item ≠ "") (heffect : w.effectCount = none) :
    ((SessionRequest.transition r.reentryId w).perform s).1.reentries = s.reentries.put (w.apply r) := by
  have hbound : s.bindConversation w r = .ok s := by
    unfold bindConversation
    rw [hbinding]
  have hkept : s.createCheckpoint w r = s := by
    unfold createCheckpoint
    rw [hcheckpoint]
    rfl
  obtain ⟨n,audit,hlogged,-⟩ := @logged_of_registered _ { s with reentries := s.reentries.put (w.apply r) } (w.apply r)
    "SESSION_REENTRY_STATE" w.reason w.now hregistered
  have hwrite : s.transition r.reentryId w = .ok ({ s with
      reentries := s.reentries.put (w.apply r)
      base := { s.base with revision := some n, audit := audit } },some (w.apply r)) := by
    unfold transition
    refine require_bind hregistered ?_
    rw [hrow]
    dsimp only
    rw [if_neg (not_not.mpr hexpects)]
    refine bind_of hbound ?_
    rw [hkept]
    refine require_bind htrace ?_
    refine bind_ok.mpr ⟨(),require_ok.mpr (by rw [heffect]; exact nofun),?_⟩
    exact bind_of hlogged rfl
  simp only [SessionRequest.perform,hwrite,commit]

/-! ## The race -/

def ReenterCall.selection (c : ReenterCall rt) : ChannelSelection :=
  resolveChannel rt c.authority c.existingBinding c.browser c.capability c.policyAllowed

/-- Nothing keeps the call from making an attempt but the race. -/
structure Ready (db : Database) (p : ContinuationPacket rt) (payload : String) (c : ReenterCall rt) : Prop where
  packet : c.packet = p
  payload : requirePayload c.payload = .ok payload
  valid : validatePacket p c.authority c.now = .ok ()
  authorized : stopCheck c.co db c.authority p .queueClaim = .ok ()
  owner : strip c.ownerId ≠ ""
  automated : c.selection.channel ≠ .operatorAssistedCheckpointRequired
  bound : c.selection.binding.isSome = true
  browser : c.selection.browser.isSome = true

def attempting (c : ReenterCall rt) (p : ContinuationPacket rt) (payload : String) (r : SessionReentryRecord rt) :
    SessionScript rt (Answered rt) :=
  (executeAutomated c.toSessionCall p payload r c.selection).bind fun o => .done ⟨c.now,o⟩

theorem Ready.reads (h : Ready db p payload c) :
    ∃ k, (ReentryCall.reenter c h.packet).program = .ask (.createOrRead p payload c.now) k ∧
      ∀ r : SessionReentryRecord rt, r.livenessState = continuationPending →
        k (.ok (.ok r)) = attempting c p payload r := by
  obtain rfl := h.packet
  unfold ReentryCall.program reenter
  dsimp only
  rw [h.payload]
  dsimp only
  rw [h.valid]
  refine ⟨_,rfl,?_⟩
  intro r hr
  unfold attempting
  dsimp only [raising,idempotentOrInProgress]
  rw [hr]
  exact congrArg _ (if_neg h.automated)

theorem Ready.claims (h : Ready db p payload c) (r : SessionReentryRecord rt) :
    ∃ k, attempting c p payload r = .ask (.send (.lease (.claim c.co p c.authority c.ownerId c.token) c.now)) k ∧
      ∀ code message l, ∃ k', k (.ok (ContinuationLeaseResult.rejected code message l)) =
        .ask (.transition r.reentryId (leaseRejected c.toSessionCall r
          (ContinuationLeaseResult.rejected code message l) c.selection.channel)) k' := by
  obtain ⟨b,hb⟩ := isSome_iff_exists.mp h.bound
  obtain ⟨browser,hbrowser⟩ := isSome_iff_exists.mp h.browser
  unfold attempting executeAutomated
  rw [hb,hbrowser]
  exact ⟨_,rfl,fun code message l => ⟨_,rfl⟩⟩

/-- What the database gives two calls to race for. -/
structure Contested (db : Database) (bindings : Table ExecutionBinding (·.executionBindingId))
    (p : ContinuationPacket rt) (generation : ℕ) : Prop where
  registered : db.revision.isSome = true
  binding : (SessionSystem.begin db bindings : SessionSystem rt).store.readBinding p = some generation
  generation : 1 ≤ generation
  revision : 1 ≤ p.stateRevision

variable {clients : List (SessionScript rt (Answered rt))} {q : SessionRequest rt} {co : LeaseCoordinator}
    {authority : ContinuationAuthoritySnapshot}

variable {k : q.Answer → SessionScript rt (Answered rt)}

theorem next_advance {s : SessionSystem rt} (client : ℕ)
    {t : SessionStore rt} {answer : q.Answer}
    (hclients : s.clients = clients) (hclient : clients[client]? = some (.ask q k))
    (hperform : q.perform s.store = (t,answer)) :
    (SessionSystem.next s (.advance client : SessionMove p)).store = t ∧
      (SessionSystem.next s (.advance client : SessionMove p)).clients = clients.set client (k answer) ∧
      (SessionSystem.next s (.advance client : SessionMove p)).log = s.log ++ [⟨q,answer⟩] := by
  subst hclients
  simp only [SessionSystem.next,Shared.next,hclient,hperform,and_self]

/-- The claim of one call goes through as long as the database is as another left it. -/
structure Unclaimed (db base : Database) (p : ContinuationPacket rt) : Prop where
  trailed : Trailed base
  registered : base.revision.isSome = true
  guard : base.cursor = db.cursor ∧ base.fences = db.fences ∧ base.projectId = db.projectId
  none : base.leases = Table.empty

theorem stopCheck_congr
    (h : base.cursor = db.cursor ∧ base.fences = db.fences ∧ base.projectId = db.projectId) :
    stopCheck co base authority p .queueClaim = stopCheck co db authority p .queueClaim := by
  unfold stopCheck
  rw [checkBoundary_congr h]

/-- The lease of the packet is in the hands of a live owner. -/
structure Claimed (db base : Database) (p : ContinuationPacket rt) (expires : DateTime) : Prop where
  registered : base.revision.isSome = true
  guard : base.cursor = db.cursor ∧ base.fences = db.fences ∧ base.projectId = db.projectId
  lease : ∃ l, base.leaseFor p.resourceId = some l ∧ packetMatchesRecord p l = true ∧ l.status = .claimed ∧
    l.expiresAt = expires

theorem Ready.claim (ha : Ready db p payload a)
    (h : Unclaimed db base p) (hexpires : a.now.plus (a.co.leaseSeconds * 1000000) = .ok expires) :
    ∃ base' res, Continuation.claim a.co p a.authority a.ownerId a.token a.now base = (base',.ok res) ∧
      Claimed db base' p expires := by
  have hnone : base.leaseFor p.resourceId = none := by
    unfold Database.leaseFor
    rw [h.none]
    rfl
  have hnew : base.leases.get (leaseIdFor rt base.projectId p.resourceId) = none := by
    rw [h.none]
    rfl
  obtain ⟨done,res,hclaim,-,hrow⟩ := @claim_accepts _ base p a.now a.token _ _ _ _ h.trailed h.registered ha.owner ha.valid
    ((stopCheck_congr h.guard).trans ha.authorized) hnone hnew hexpires
  obtain ⟨-,-,hregistered,hguard⟩ := lease_frame (.claim a.co p a.authority a.ownerId a.token) a.now base
  have hperform : (LeaseCall.claim a.co p a.authority a.ownerId a.token).perform a.now base = (done,.ok res) := hclaim
  rw [hperform] at hregistered hguard
  refine ⟨done,res,hclaim,hregistered.trans h.registered,?_,_,hrow,?_,rfl,rfl⟩
  · exact ⟨hguard.1.trans h.guard.1,hguard.2.1.trans h.guard.2.1,hguard.2.2.trans h.guard.2.2⟩
  · simp [packetMatchesRecord,availableLease,claimWrite]

theorem Ready.held (hc : Ready db p payload c) (h : Claimed db base p expires) (hlive : c.now < expires) :
    ∃ l, Continuation.claim c.co p c.authority c.ownerId c.token c.now base =
      (base,.ok (ContinuationLeaseResult.rejected "LEASE_HELD" "continuation is already claimed" l)) := by
  obtain ⟨l,hrow,hmatch,hclaimed,rfl⟩ := h.lease
  exact ⟨l,claim_held h.registered hc.owner hc.valid ((stopCheck_congr h.guard).trans hc.authorized) hrow hmatch
    hclaimed hlive⟩

theorem unclaimed_created {n : ℕ} {audit : Table AuditEvent (·.eventId)}
    (haudit : ∀ e ∈ audit.rows, e ∈ (Table.empty : Table AuditEvent (·.eventId)).rows ∨
      ∃ suffix, e.eventId = .scope suffix) :
    Unclaimed db { db with leases := Table.empty, intents := Table.empty, revision := some n, audit := audit } p where
  trailed :=
    { events := by
        intro e he
        rcases haudit e he with hold | ⟨suffix,hsuffix⟩
        · cases hold
        · rw [hsuffix]
          trivial
      registered id r hr := rfl
      owned id r hr := by cases hr }
  registered := rfl
  guard := ⟨rfl,rfl,rfl⟩
  none := rfl

theorem perform_claim {ownerId token : String} {res : ContinuationLeaseResult}
    (h : claim co p authority ownerId token now s.base = (base,.ok res)) :
    (SessionRequest.send (.lease (.claim co p authority ownerId token) now)).perform s =
      ({ s with base := base },.ok res) := by
  have hperform : (SendRequest.lease (.claim co p authority ownerId token) now).perform s.base = (base,.ok res) := h
  simp only [SessionRequest.perform,hperform]

theorem sessionRun_concat (moves : List (SessionMove p)) (m : SessionMove p) :
    sessionRun db bindings (moves ++ [m]) = SessionSystem.next (sessionRun db bindings moves) m := by
  rw [sessionRun_append]
  rfl

theorem inTimeRun_concat {moves : List (SessionMove p)} {m : SessionMove p} (h : InTimeRun db bindings moves)
    (hm : Shared.Admits (InTime p) (sessionRun db bindings moves) m) : InTimeRun db bindings (moves ++ [m]) :=
  along_append.mpr ⟨h,hm,trivial⟩

theorem admits_start (s : SessionSystem rt) (call : ReentryCall p) :
    Shared.Admits (InTime p) s (.start call : SessionMove p) := by
  intro q hq
  cases hq

theorem admits_advance {s : SessionSystem rt} {client : ℕ}
    (hclients : s.clients = clients)
    (hclient : clients[client]? = some (.ask q k)) (h : InTime p s.store s.log q) :
    Shared.Admits (InTime p) s (.advance client : SessionMove p) := by
  intro q' hq'
  subst hclients
  simp only [Shared.asked,hclient,mem_some_iff] at hq'
  subst hq'
  exact h

def twoCalls {a c : ReenterCall rt} (ha : a.packet = p) (hc : c.packet = p) : List (SessionMove p) :=
  [.start (.reenter a ha),.start (.reenter c hc)]

theorem both_read (hdb : Contested db bindings p generation)
    (ha : Ready db p payload a) (hc : Ready db p payload c) :
    let r : SessionReentryRecord rt := pendingRecord db.projectId p payload generation a.now
    ∃ s, sessionRun db bindings (twoCalls ha.packet hc.packet ++ [.advance 0] ++ [.advance 1]) = s ∧
      s.clients = [attempting a p payload r,attempting c p payload r] ∧ s.store.reentries.rows = [r] ∧
      Unclaimed db s.store.base p ∧ (∀ e ∈ s.log, handedOut e = none) ∧
      InTimeRun db bindings (twoCalls ha.packet hc.packet ++ [.advance 0] ++ [.advance 1]) := by
  intro r
  obtain ⟨kA,hA,hreadA⟩ := ha.reads
  obtain ⟨kC,hC,hreadC⟩ := hc.reads
  let start : SessionStore rt := (SessionSystem.begin db bindings : SessionSystem rt).store
  obtain ⟨n,audit,reentries,hcreate,hrows,haudit⟩ := @createOrRead_creates _ p start payload a.now generation
    hdb.registered rfl hdb.binding hdb.generation hdb.revision
  let created : SessionStore rt :=
    { start with base := { start.base with revision := some n, audit := audit }, reentries := reentries }
  have hread : (SessionRequest.createOrRead p payload c.now).perform created = (created,.ok (.ok r)) :=
    createOrRead_reads rfl hrows rfl rfl
  have hstarted : (sessionRun db bindings (twoCalls ha.packet hc.packet)).clients =
      [.ask (.createOrRead p payload a.now) kA,.ask (.createOrRead p payload c.now) kC] := by
    rw [← hA,← hC]
    rfl
  obtain ⟨hstore₁,hclients₁,hlog₁⟩ := next_advance (p := p) 0 hstarted rfl hcreate
  rw [← sessionRun_concat] at hstore₁ hclients₁ hlog₁
  have hread' : (SessionRequest.createOrRead p payload c.now).perform
      (sessionRun db bindings (twoCalls ha.packet hc.packet ++ [.advance 0])).store = (created,.ok (.ok r)) := by
    rw [hstore₁]
    exact hread
  obtain ⟨hstore₂,hclients₂,hlog₂⟩ := next_advance (p := p) 1 hclients₁ rfl hread'
  rw [← sessionRun_concat] at hstore₂ hclients₂ hlog₂
  have hbegun : InTimeRun db bindings (twoCalls ha.packet hc.packet) :=
    ⟨admits_start _ _,admits_start _ _,trivial⟩
  refine ⟨_,rfl,?_,?_,?_,?_,?_⟩
  · rw [← hreadA r rfl,← hreadC r rfl]
    exact hclients₂
  · rw [hstore₂]
    exact hrows
  · rw [hstore₂]
    exact unclaimed_created haudit
  · rw [hlog₂,hlog₁]
    intro e he
    rcases mem_append.mp he with he | he
    · rcases mem_append.mp he with he | he
      · cases he
      · rw [mem_singleton.mp he]
        rfl
    · rw [mem_singleton.mp he]
      rfl
  · refine inTimeRun_concat (inTimeRun_concat hbegun ?_) ?_
    · exact admits_advance hstarted rfl trivial
    · exact admits_advance hclients₁ rfl trivial

/-- Both calls read the record, and the first claims the lease. -/
def race {a c : ReenterCall rt} (ha : a.packet = p) (hc : c.packet = p) : List (SessionMove p) :=
  twoCalls ha hc ++ [.advance 0] ++ [.advance 1] ++ [.advance 0]

theorem first_claims
    (hdb : Contested db bindings p generation) (ha : Ready db p payload a) (hc : Ready db p payload c)
    (hexpires : a.now.plus (a.co.leaseSeconds * 1000000) = .ok expires) :
    let r : SessionReentryRecord rt := pendingRecord db.projectId p payload generation a.now
    ∃ s script, sessionRun db bindings (race ha.packet hc.packet) = s ∧
      s.clients = [script,attempting c p payload r] ∧ s.store.reentries.rows = [r] ∧
      Claimed db s.store.base p expires := by
  intro r
  obtain ⟨s,hrun,hclients,hrows,hunclaimed,-⟩ := both_read hdb ha hc
  obtain ⟨k,hasks,-⟩ := ha.claims r
  rw [hasks] at hclients
  obtain ⟨base,res,hclaim,hclaimed⟩ := ha.claim hunclaimed hexpires
  obtain ⟨hstore,hclients',-⟩ := next_advance (p := p) 0 hclients rfl (perform_claim hclaim)
  refine ⟨SessionSystem.next s (.advance 0 : SessionMove p),_,?_,hclients',?_,?_⟩
  · unfold race
    rw [sessionRun_concat,hrun]
  · rw [hstore]
    exact hrows
  · rw [hstore]
    exact hclaimed

theorem leaseRejected_blocks {c : SessionCall} {claim : ContinuationLeaseResult}
    {channel : ReentryChannel} (hregistered : s.base.revision.isSome = true) (hrows : s.reentries.rows = [r])
    (hpending : r.livenessState = continuationPending) :
    ((SessionRequest.transition r.reentryId (leaseRejected c r claim channel)).perform s).1.reentries.rows.map
      (·.livenessState) = [reentryBlocked] := by
  have hrow : s.reentries.get r.reentryId = some r :=
    Table.get_of_mem (hrows ▸ mem_singleton_self r)
  have hexpects : (leaseRejected c r claim channel).Expects r := by
    refine ⟨mem_singleton_self _,?_⟩
    rw [hpending]
    exact fun h => Bool.false_ne_true h.1
  rw [transition_writes hregistered hrow hexpects rfl rfl (by simp [leaseRejected,SessionCall.write]) rfl]
  simp only [Table.put,Table.change,hrows,map_cons,map_nil]
  rw [if_pos (show r.reentryId = ((leaseRejected c r claim channel).apply r).reentryId from rfl)]
  rfl

section

variable (hdb : Contested db bindings p generation) (ha : Ready db p payload a)
  (hc : Ready db p payload c)

include hdb ha hc

theorem lost_race_blocks
    (hexpires : a.now.plus (a.co.leaseSeconds * 1000000) = .ok expires) (hlive : c.now < expires) :
    let moves := race ha.packet hc.packet
    LosesRace (sessionRun db bindings moves) 1 ∧
      (sessionRun db bindings (moves ++ [.advance 1])).store.reentries.rows.map (·.livenessState) =
        [continuationPending] ∧
      (sessionRun db bindings (moves ++ [.advance 1] ++ [.advance 1])).store.reentries.rows.map (·.livenessState) =
        [reentryBlocked] := by
  intro moves
  obtain ⟨s,script,hrun,hclients,hrows,hclaimed⟩ := first_claims hdb ha hc hexpires
  let r : SessionReentryRecord rt := pendingRecord db.projectId p payload generation a.now
  obtain ⟨k,hasks,hrefused⟩ := hc.claims r
  rw [hasks] at hclients
  -- the second call is refused
  obtain ⟨l,hheld⟩ := hc.held hclaimed hlive
  have hperform := perform_claim hheld
  obtain ⟨hstore,hclients',-⟩ := next_advance (p := p) 1 hclients rfl hperform
  -- and blocks the record
  obtain ⟨k',hk'⟩ := hrefused "LEASE_HELD" "continuation is already claimed" l
  rw [show [script,Script.ask _ k].set 1 _ = [script,_] from rfl,hk'] at hclients'
  obtain ⟨hstore',-⟩ := next_advance (p := p) 1 hclients' rfl rfl
  have hmoves : sessionRun db bindings moves = s := hrun
  have hlast : sessionRun db bindings (moves ++ [.advance 1] ++ [.advance 1]) =
      SessionSystem.next (sessionRun db bindings (moves ++ [.advance 1])) (.advance 1 : SessionMove p) :=
    sessionRun_concat _ _
  rw [hlast,sessionRun_concat moves,hmoves]
  refine ⟨⟨_,k,?_,l,?_⟩,?_,?_⟩
  · rw [hclients]
    rfl
  · rw [hperform]
  · rw [hstore]
    simp only [hrows]
    rfl
  · rw [hstore',hstore]
    exact leaseRejected_blocks hclaimed.registered hrows rfl

theorem race_unsafe
    (hexpires : a.now.plus (a.co.leaseSeconds * 1000000) = .ok expires) (hlive : c.now < expires) :
    ¬ SafeReentry db bindings (race ha.packet hc.packet ++ [.advance 1] ++ [.advance 1]) := by
  intro hsafe
  obtain ⟨hloses,hpending,hblocked⟩ := lost_race_blocks hdb ha hc hexpires hlive
  have hkept := hsafe.losersKeep (race ha.packet hc.packet) 1 [] [] rfl hloses
  rw [hkept,hpending] at hblocked
  cases hblocked

theorem race_inTime :
    InTimeRun db bindings (race ha.packet hc.packet) := by
  obtain ⟨s,hrun,hclients,-,hunclaimed,hlog,hread⟩ := both_read hdb ha hc
  obtain ⟨k,hasks,-⟩ := ha.claims (pendingRecord db.projectId p payload generation a.now)
  rw [hasks] at hclients
  refine inTimeRun_concat hread ?_
  rw [hrun]
  refine admits_advance hclients rfl ⟨?_,?_⟩
  · intro e he token htoken
    rw [hlog e he] at htoken
    cases htoken
  · intro l hl
    unfold Database.leaseFor at hl
    rw [hunclaimed.none] at hl
    cases hl

end

/-! ## A small race -/

def sampleSession : BrowserAdapter where
  snapshot := some ⟨some "chat-1",true,true⟩
  sendSnapshot := .ok ⟨some "chat-1",true,true⟩
  physicalSend _ := .error "the page was closed"
  visibleSendCount := 0
  trace := []

def sampleExecution : Table ExecutionBinding (·.executionBindingId) :=
  ⟨[⟨"b1",1,none,"ACTIVE","t1","0123456789abcdef0123456789abcdef01234567"⟩],nodup_singleton _⟩

def sampleReenter (token : String) : ReenterCall sampleRuntime where
  co := sampleCoordinator
  authority := sampleAuthority
  ownerId := "owner"
  token := token
  now := sampleTime 1
  clock _ := sampleTime 1
  packet := samplePacket
  payload := "hello"
  existingBinding := some sampleBinding
  browser := some sampleSession
  capability := none
  policyAllowed := true

theorem sample_contested : Contested sampleDatabase sampleExecution samplePacket 1 where
  registered := rfl
  binding := by decide +kernel
  generation := le_refl 1
  revision := le_refl 1

/-- The existing chat is on screen. -/
def sampleSelection : ChannelSelection :=
  resolveChannel sampleRuntime sampleAuthority (some sampleBinding) (some sampleSession) none true

theorem sampleSelection_verified : sampleSelection.channel = .existingConversationVerified ∧
    sampleSelection.binding.isSome = true ∧ sampleSelection.browser.isSome = true := by decide +kernel

theorem sample_ready (token : String) : Ready sampleDatabase samplePacket "hello" (sampleReenter token) where
  packet := rfl
  payload := show requirePayload "hello" = .ok "hello" by decide +kernel
  valid := sample_valid (by decide)
  authorized := sample_setting.authorized
  owner := sample_setting.owner
  automated := by
    change sampleSelection.channel ≠ _
    rw [sampleSelection_verified.1]
    decide
  bound := sampleSelection_verified.2.1
  browser := sampleSelection_verified.2.2

def sampleRace : List (SessionMove samplePacket) :=
  race (sample_ready "owner-token-of-the-first-call").packet (sample_ready "owner-token-of-the-second-call").packet

/-- The race as far as the refusal. -/
theorem sample_reentry_safe : InTimeRun sampleDatabase sampleExecution sampleRace ∧
    SafeReentry sampleDatabase sampleExecution sampleRace :=
  ⟨race_inTime sample_contested (sample_ready _) (sample_ready _),
    reentry_safe samplePacket sampleDatabase sampleExecution sampleRace
      (race_inTime sample_contested (sample_ready _) (sample_ready _))⟩

/-- The loser's write blocks the record of the winner. -/
theorem sample_race_unsafe :
    ¬ SafeReentry sampleDatabase sampleExecution (sampleRace ++ [.advance 1] ++ [.advance 1]) :=
  race_unsafe sample_contested (sample_ready _) (sample_ready _) sample_setting.expiry sample_setting.lives

end Bdb.Session
