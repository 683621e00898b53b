import Bdb.Continuation.Lease

/-! # What a lease call can do

A call leaves the database alone, or it makes one of six writes to the lease of its
packet. The writes are listed with their preconditions; every property of the protocol is
read off this list.
-/
namespace Bdb.Continuation

open Step ContinuationLeaseResult Table

variable {rt : Runtime}

/-! ## The list of writes -/

/-- The writes of each call: the row before, the row after, and when it is made. -/
inductive LeaseChange (now : DateTime) :
    LeaseCall rt → ContinuationLeaseRecord → ContinuationLeaseRecord → Prop
  | claimed {co p authority ownerId token l expires}
      (hfree : l.status = .available ∨ l.status = .released ∨ l.status = .expired)
      (hexpires : expires.val = now.val + co.leaseSeconds * 1000000) :
      LeaseChange now (.claim co p authority ownerId token) l
        ((claimWrite rt ownerId token now expires).change l)
  | reclaimed {co p authority ownerId token reason l expires} (hheld : l.status = .claimed)
      (hover : l.expiresAt ≤ now) (hexpires : expires.val = now.val + co.leaseSeconds * 1000000) :
      LeaseChange now (.reclaim co p authority ownerId token reason) l
        ((reclaimWrite rt ownerId token reason l now expires).change l)
  | renewed {co p authority token l expires} (hheld : claimedBy (tokenDigest rt token) l = true)
      (hlive : now < l.expiresAt) :
      LeaseChange now (.renew co p authority token) l
        ((renewWrite (tokenDigest rt token) expires).change l)
  | released {p token reason l why} (hheld : claimedBy (tokenDigest rt token) l = true)
      (hlive : now < l.expiresAt) :
      LeaseChange now (.release p token reason) l ((releaseWrite (tokenDigest rt token) why).change l)
  | completed {p token l} (hheld : claimedBy (tokenDigest rt token) l = true)
      (hlive : now < l.expiresAt) :
      LeaseChange now (.complete p token) l ((completeWrite (tokenDigest rt token) now).change l)
  | abandoned {p token reason l why} (hheld : claimedBy (tokenDigest rt token) l = true)
      (hlive : now < l.expiresAt) :
      LeaseChange now (.abandon p token reason) l ((abandonWrite (tokenDigest rt token) why now).change l)

/-- The database after one write of a lease row. -/
structure LeaseWritten (db : Database) (l : ContinuationLeaseRecord) (db' : Database) : Prop where
  registered : db.revision.isSome = true
  logged : ∃ e audit, (e.eventId = .lease l.leaseId l.stateRevision ∧ e.revision = db.nextEventRevision) ∧
    db.audit.insert e = some audit ∧
    db' = { db with leases := db.leases.put l, revision := db.revision.map (· + 1), audit := audit }

/-- The row a call works on: the stored one, or for a claim the one it has just created. -/
inductive Opened (now : DateTime) (db : Database) : LeaseCall rt → Database → ContinuationLeaseRecord → Prop
  | stored {call l} (h : db.leaseFor call.packet.resourceId = some l) : Opened now db call db l
  | created {co p authority ownerId token leases} (hnone : db.leaseFor p.resourceId = none)
      (hinsert : db.leases.insert (availableLease db.projectId p now) = some leases) :
      Opened now db (.claim co p authority ownerId token) { db with leases := leases }
        (availableLease db.projectId p now)

def Surrendered (rt : Runtime) (db : Database) (r token : String) : Prop :=
  ∃ l, db.leaseFor r = some l ∧ l.ownerTokenHash = some (tokenDigest rt token) ∧ l.status ≠ .claimed

def LeaseCall.EndsClaim : LeaseCall rt → String → Prop
  | .release _ token _, t => token = t
  | .complete _ token, t => token = t
  | .abandon _ token _, t => token = t
  | _, _ => False

/-- An answer without a write: a claim is refused, and an accepted end of a claim finds the
row surrendered before. -/
structure QuietAnswer (db : Database) (call : LeaseCall rt) (r : ContinuationLeaseResult) : Prop where
  refused : call.issues.isSome = true → r.accepted = false
  ended : ∀ t, call.EndsClaim t → r.accepted = true → Surrendered rt db call.packet.resourceId t

/-- What a call can do: nothing, or one accepted write. -/
inductive LeaseOutcome (now : DateTime) (db : Database) (call : LeaseCall rt) :
    Database × Outcome ContinuationLeaseResult → Prop
  | quiet {o} (h : ∀ r, o = .ok r → QuietAnswer db call r) : LeaseOutcome now db call (db,o)
  | wrote {base l l' db' r} (hopened : Opened now db call base l) (hchange : LeaseChange now call l l')
      (hwritten : LeaseWritten base l' db') (haccepted : r.accepted = true) :
      LeaseOutcome now db call (db',.ok r)

variable {db db' : Database} {p : ContinuationPacket rt} {l l' : ContinuationLeaseRecord}
  {now : DateTime} {co : LeaseCoordinator} {authority : ContinuationAuthoritySnapshot}
  {ownerId token reason hash : String}

/-! ## Single writes -/

theorem LeaseWritten.leases (h : LeaseWritten db l db') : db'.leases = db.leases.put l := by
  obtain ⟨e,audit,-,-,rfl⟩ := h.logged
  rfl

variable {r message : String} {w : LeaseWrite}

theorem leaseFor_resource (h : db.leaseFor r = some l) : l.resourceId = r := by
  simpa using find_some h

theorem get_leaseFor (h : db.leaseFor r = some l) : db.leases.get l.leaseId = some l :=
  get_of_mem (mem_of_find h)

section

variable (h : db.leaseFor r = some l) (hid : l'.leaseId = l.leaseId)
  (hres : l'.resourceId = l.resourceId) (hleases : db'.leases = db.leases.put l')

include h hid hres hleases

theorem leaseFor_put :
    db'.leaseFor r = some l' := by
  unfold Database.leaseFor at h ⊢
  rw [hleases]
  refine find_put_self h hid ?_
  simp [hres,leaseFor_resource h]

theorem leaseFor_put_other {r' : String} (hne : r' ≠ r) :
    db'.leaseFor r' = db.leaseFor r' := by
  have hl : ¬ l.resourceId = r' := fun hr => hne (hr.symm.trans (leaseFor_resource h))
  unfold Database.leaseFor
  rw [hleases]
  refine find_put_other (mem_of_find h) hid ?_ ?_
  · simp [hres,hl]
  · simp [hl]

end

theorem updateLease_some {test : ContinuationLeaseRecord → Bool}
    {f : ContinuationLeaseRecord → ContinuationLeaseRecord} (hread : db.leaseFor r = some l)
    (h : db.updateLease l test f = some db') :
    test l = true ∧ db' = { db with leases := db.leases.put (f l) } := by
  unfold Database.updateLease at h
  rw [get_leaseFor hread] at h
  by_cases htest : test l = true
  · simp only [htest,true_and,if_true] at h
    cases h
    exact ⟨htest,rfl⟩
  · simp [htest] at h

theorem appendLeaseEvent_ok {eventType why : String}
    (h : db.appendLeaseEvent l eventType why now = .ok db') :
    ∃ e audit, (e.eventId = .lease l.leaseId l.stateRevision ∧ e.revision = db.nextEventRevision) ∧
      db.audit.insert e = some audit ∧ db' = { db with audit := audit } := by
  unfold Database.appendLeaseEvent at h
  split at h
  · rename_i happend
    obtain ⟨audit,hinsert,rfl⟩ := Database.appendEvent_ok happend
    cases h
    exact ⟨_,audit,⟨rfl,rfl⟩,hinsert,rfl⟩
  · cases h

theorem writeLease_ok (hread : db.leaseFor p.resourceId = some l)
    (h : writeLease db p l w now = .ok (db',l')) :
    w.test l = true ∧ l' = w.change l ∧ LeaseWritten db (w.change l) db' := by
  unfold writeLease at h
  obtain ⟨updated,hupdated,h⟩ := bind_ok.mp h
  obtain ⟨htest,rfl⟩ := updateLease_some hread (needOr_ok.mp hupdated)
  obtain ⟨bumped,hbumped,h⟩ := bind_ok.mp h
  obtain ⟨n,hn,rfl⟩ := Database.bumpProjectRevision_ok (orRaise_ok.mp hbumped)
  obtain ⟨stored,hstored,h⟩ := bind_ok.mp h
  have hback := need_ok.mp (orRaise_ok.mp hstored)
  rw [leaseFor_put hread (w.keepsLease l) (w.keepsResource l) rfl] at hback
  cases hback
  obtain ⟨done,hdone,h⟩ := bind_ok.mp h
  obtain ⟨e,audit,he,hinsert,rfl⟩ := appendLeaseEvent_ok (orRaise_ok.mp hdone)
  cases pure_ok.mp h
  have hrev : db.revision = some n := hn
  refine ⟨htest,rfl,?_,e,audit,he,hinsert,?_⟩
  · rw [hrev]
    rfl
  · simp [hrev]

/-! ## What each call does -/

theorem QuietAnswer.of_refused {call : LeaseCall rt} {r : ContinuationLeaseResult}
    (h : r.accepted = false) : QuietAnswer db call r :=
  ⟨fun _ => h,fun _ _ haccepted => by rw [h] at haccepted; cases haccepted⟩

theorem outcome_of_body {call : LeaseCall rt} {failed : Failure → ContinuationLeaseResult}
    {body : Step ContinuationLeaseResult (Database × ContinuationLeaseResult)} (hfailed : ∀ f, (failed f).accepted = false)
    (h : Gives (QuietAnswer db call) (fun done => LeaseOutcome now db call (done.1,.ok done.2)) body) :
    LeaseOutcome now db call (transaction failed db body) := by
  refine transaction_ends (R := LeaseOutcome now db call) (fun f => .quiet fun r hr => ?_) (fun _ => .quiet fun _ h => by cases h) ⟨h.answers.mono fun r hr => ?_,h.ok⟩
  · cases hr
    exact .of_refused (hfailed f)
  · refine .quiet fun r' hr' => ?_
    cases hr'
    exact hr

variable {leases : Table ContinuationLeaseRecord (·.leaseId)}

theorem leaseFor_insert (h : db.leases.insert l = some leases) (r : String) :
    ({ db with leases := leases } : Database).leaseFor r =
      (db.leaseFor r).or (if l.resourceId == r then some l else none) :=
  find_insert h _

theorem leaseFor_created (hnone : db.leaseFor p.resourceId = none)
    (h : db.leases.insert (availableLease db.projectId p now) = some leases) :
    ({ db with leases := leases } : Database).leaseFor p.resourceId =
      some (availableLease db.projectId p now) := by
  rw [leaseFor_insert h,hnone]
  simp [availableLease]

theorem insertAvailable_ok (hnone : db.leaseFor p.resourceId = none)
    (h : db.insertAvailable p now = .ok (db',l)) :
    ∃ leases, db.leases.insert (availableLease db.projectId p now) = some leases ∧
      db' = { db with leases := leases } ∧ l = availableLease db.projectId p now ∧
      db'.leaseFor p.resourceId = some l := by
  unfold Database.insertAvailable at h
  obtain ⟨leases,hleases,h⟩ := of_need h
  have hinsert := hleases
  obtain ⟨row,hrow,h⟩ := of_need h
  have hback := hrow
  cases pure_ok.mp h
  refine ⟨leases,hinsert,rfl,?_,hback⟩
  exact some_unique hback (leaseFor_created hnone hinsert)

/-- Free rows are those a claim may take. -/
def Free (l : ContinuationLeaseRecord) : Prop :=
  l.status = .available ∨ l.status = .released ∨ l.status = .expired

variable {P : ContinuationLeaseResult → Prop} {Q : Database × ContinuationLeaseResult → Prop}

/-- A body that ends with its write. -/
theorem gives_writeLease {k : Database × ContinuationLeaseRecord → Step ContinuationLeaseResult (Database × ContinuationLeaseResult)}
    {res : ContinuationLeaseResult} (hread : db.leaseFor p.resourceId = some l) (hlost : ∀ code message, P (invalid code message))
    (hk : ∀ t, k (t,w.change l) = pure (t,res))
    (hwrote : ∀ t, w.test l = true → LeaseWritten db (w.change l) t → Q (t,res)) : Gives P Q (writeLease db p l w now >>= k) := by
  refine gives_bind ⟨?_,fun _ => writeLease_ok hread⟩ fun (t,stored) hwrite => ?_
  · unfold writeLease
    refine answers_bind (answers_needOr (hlost _ _)) fun _ _ => ?_
    refine answers_raise fun _ => ?_
    refine answers_raise fun _ => ?_
    refine answers_raise fun _ => ?_
    exact answers_pure _
  · obtain ⟨htest,rfl,hwritten⟩ := hwrite
    rw [hk]
    exact gives_pure (hwrote t htest hwritten)

/-- A claim of a row refuses it without a token, or it writes it and hands its own token out. -/
theorem gives_claimRecord (hread : db.leaseFor p.resourceId = some l) (hlost : ∀ code message, P (invalid code message))
    (hkept : ∀ res, res.accepted = false → res.ownerToken = none → (packetMatchesRecord p l = true → ¬ Free l) → Q (db,res))
    (hclaimed : ∀ expires t res, Free l → expires.val = now.val + co.leaseSeconds * 1000000 →
      LeaseWritten db ((claimWrite rt ownerId token now expires).change l) t → res.accepted = true →
      res.ownerToken = some token → Q (t,res)) :
    Gives P Q (claimRecord co db p l ownerId token now) := by
  unfold claimRecord
  split
  · rename_i hmatch
    exact gives_pure (hkept _ rfl rfl fun hm => absurd hm hmatch)
  split
  · rename_i hs
    exact gives_pure (hkept _ rfl rfl fun _ => by simp [Free,hs])
  split
  · rename_i hs
    exact gives_pure (hkept _ rfl rfl fun _ => by simp [Free,hs])
  split
  · rename_i hs
    split <;> exact gives_pure (hkept _ rfl rfl fun _ => by simp [Free,hs])
  split
  · rename_i hs
    exact gives_pure (hkept _ rfl rfl fun _ => by simp [Free,hs])
  rename_i hcompleted habandoned hheld hactive
  have hfree : Free l := by
    unfold Free
    cases hs : l.status <;> simp_all
  refine gives_raise fun expires hexpires => ?_
  exact gives_writeLease hread hlost (fun _ => rfl) fun t _ hwritten =>
    hclaimed expires t _ hfree (DateTime.plus_ok hexpires) hwritten rfl rfl

theorem gives_enter {boundary : EffectBoundary} (hlost : ∀ code message, P (invalid code message)) :
    Gives P (fun _ => True) (enter co db p authority now boundary) := by
  unfold enter
  refine gives_raise fun _ _ => gives_orAnswer hlost fun _ _ => ?_
  exact ⟨answers_orAnswer hlost,fun _ _ => trivial⟩

theorem claim_ends {R : Database × Outcome ContinuationLeaseResult → Prop} (herror : ∀ f, R (db,.error f))
    (hrefused : ∀ res, res.accepted = false → res.ownerToken = none → R (db,.ok res))
    (hclaimed : ∀ base l expires t res, Opened now db (.claim co p authority ownerId token) base l → Free l →
      expires.val = now.val + co.leaseSeconds * 1000000 →
      LeaseWritten base ((claimWrite rt ownerId token now expires).change l) t → res.accepted = true →
      res.ownerToken = some token → R (t,.ok res)) :
    R (claim co p authority ownerId token now db) := by
  have hinvalid : ∀ code message, R (db,.ok (invalid code message)) := fun _ _ => hrefused _ rfl rfl
  unfold claim
  refine transaction_ends (R := R) (fun _ => hinvalid _ _) herror ?_
  refine gives_check (fun _ => hinvalid _ _) fun _ => ?_
  refine gives_orAnswer hinvalid fun _ _ => ?_
  refine gives_bind (gives_enter hinvalid) fun _ _ => ?_
  split
  · rename_i l hl
    refine gives_claimRecord hl hinvalid (fun res hr ht _ => hrefused res hr ht) ?_
    exact fun expires t res => hclaimed db l expires t res (.stored hl)
  · rename_i hnone
    refine gives_raise fun (base,l) hinsert => ?_
    obtain ⟨leases,hleases,rfl,rfl,hback⟩ := insertAvailable_ok hnone hinsert
    refine gives_claimRecord hback hinvalid (fun _ _ _ hbusy => ?_) ?_
    · -- a row that was just created matches its packet and is free
      exact absurd (Or.inl rfl) (hbusy (by simp [packetMatchesRecord,availableLease]))
    · exact fun expires t res => hclaimed _ _ expires t res (.created hnone hleases)

theorem claim_outcome : LeaseOutcome now db (.claim co p authority ownerId token)
    (claim co p authority ownerId token now db) := by
  refine claim_ends (fun _ => .quiet fun _ h => by cases h) (fun res hr _ => .quiet fun r hout => ?_) ?_
  · cases hout
    exact .of_refused hr
  · intro base l expires t res hopened hfree hexpires hwritten hr _
    exact .wrote hopened (.claimed hfree hexpires) hwritten hr

theorem reclaim_outcome : LeaseOutcome now db (.reclaim co p authority ownerId token reason)
    (reclaim co p authority ownerId token reason now db) := by
  have hinvalid : ∀ code message, QuietAnswer db (.reclaim co p authority ownerId token reason) (invalid code message) :=
    fun _ _ => .of_refused rfl
  unfold reclaim
  refine outcome_of_body (fun _ => rfl) ?_
  refine gives_check (fun _ => .of_refused rfl) fun _ => ?_
  refine gives_check (fun _ => .of_refused rfl) fun _ => ?_
  refine gives_orAnswer hinvalid fun _ _ => ?_
  refine gives_bind (gives_enter hinvalid) fun _ _ => ?_
  refine gives_needOr (.of_refused rfl) fun l hl => ?_
  refine gives_check (fun _ => .of_refused rfl) fun _ => ?_
  refine gives_check (fun _ => .of_refused rfl) fun _ => ?_
  refine gives_check (fun _ => .of_refused rfl) fun hheld => ?_
  refine gives_check (fun _ => .of_refused rfl) fun hover => ?_
  refine gives_raise fun expires hexpires => ?_
  exact gives_writeLease hl hinvalid (fun _ => rfl) fun t _ hwritten =>
    .wrote (.stored hl) (.reclaimed hheld hover (DateTime.plus_ok hexpires)) hwritten rfl

theorem ownerDigest_ok (h : ownerDigest rt token message = .ok hash) :
    tokenDigest rt token ≠ "" ∧ hash = tokenDigest rt token := by
  unfold ownerDigest at h
  obtain ⟨_,hshown,h⟩ := bind_ok.mp h
  exact ⟨answerUnless_ok.mp hshown,(pure_ok.mp h).symm⟩

theorem gives_ownerDigest (h : P (invalid "OWNER_TOKEN_INVALID" message)) :
    Gives P (fun hash => tokenDigest rt token ≠ "" ∧ hash = tokenDigest rt token) (ownerDigest rt token message) :=
  ⟨answers_check h (answers_pure _),fun _ => ownerDigest_ok⟩

theorem gives_ownedRow (h : ∀ res, res.accepted = false → P res) :
    Gives P (fun l => db.leaseFor p.resourceId = some l ∧ l.ownerTokenHash = some hash) (ownedRow db p hash message) := by
  unfold ownedRow
  refine gives_needOr (h _ rfl) fun l hl => ?_
  exact gives_check (fun _ => h _ rfl) fun howner => gives_pure ⟨hl,howner⟩

theorem renew_outcome : LeaseOutcome now db (.renew co p authority token)
    (renew co p authority token now db) := by
  have hquiet : ∀ res, QuietAnswer db (.renew co p authority token) res := fun _ => ⟨nofun,nofun⟩
  unfold renew
  refine outcome_of_body (fun _ => rfl) ?_
  refine gives_orAnswer (fun _ _ => hquiet _) fun _ _ => ?_
  refine gives_bind (gives_ownerDigest (hquiet _)) fun hash hhash => ?_
  obtain ⟨-,rfl⟩ := hhash
  refine gives_bind (gives_enter fun _ _ => hquiet _) fun _ _ => ?_
  refine gives_bind (gives_ownedRow fun _ _ => hquiet _) fun l ⟨hl,_⟩ => ?_
  refine gives_check (fun _ => hquiet _) fun _ => ?_
  refine gives_check (fun _ => hquiet _) fun hlive => ?_
  refine gives_raise fun expires _ => ?_
  exact gives_writeLease hl (fun _ _ => hquiet _) (fun _ => rfl) fun t htest hwritten =>
    .wrote (.stored hl) (.renewed htest hlive) hwritten rfl

/-- The lease belongs to the owner of the token. -/
structure OwnLease (rt : Runtime) (db : Database) (r token : String) (l : ContinuationLeaseRecord) : Prop where
  shown : tokenDigest rt token ≠ ""
  registered : db.revision.isSome = true
  row : db.leaseFor r = some l
  owner : l.ownerTokenHash = some (tokenDigest rt token)

/-- What the end of a claim can do: it is refused, it finds the row ended, or it writes the row. -/
inductive EndOfClaim (rt : Runtime) (db : Database) (r token : String) (now : DateTime) (status : LeaseStatus)
    (w : LeaseWrite) : Database × Outcome ContinuationLeaseResult → Prop
  | refused {o} (h : ∀ res, o = .ok res → res.accepted = false) : EndOfClaim rt db r token now status w (db,o)
  | again {l res} (hown : OwnLease rt db r token l) (hstatus : l.status = status) :
      EndOfClaim rt db r token now status w (db,.ok res)
  | wrote {l t res} (hown : OwnLease rt db r token l) (hheld : claimedBy (tokenDigest rt token) l = true) (hlive : now < l.expiresAt)
      (hwritten : LeaseWritten db (w.change l) t) (haccepted : res.accepted = true) :
      EndOfClaim rt db r token now status w (t,.ok res)

variable {status : LeaseStatus}

theorem EndOfClaim.of_refused {res : ContinuationLeaseResult} (h : res.accepted = false) :
    EndOfClaim rt db r token now status w (db,.ok res) :=
  .refused fun res' hres => by cases hres; exact h

/-- The common body of the three calls. -/
theorem endOfClaim_of_body {failed : Failure → ContinuationLeaseResult} {foreign : String}
    {rest : String → ContinuationLeaseRecord → Step ContinuationLeaseResult (Database × ContinuationLeaseResult)}
    (hfailed : ∀ f, (failed f).accepted = false)
    (h : ∀ l, OwnLease rt db p.resourceId token l →
      Gives (fun res => EndOfClaim rt db p.resourceId token now status w (db,.ok res))
        (fun done => EndOfClaim rt db p.resourceId token now status w (done.1,.ok done.2)) (rest (tokenDigest rt token) l)) :
    EndOfClaim rt db p.resourceId token now status w (transaction failed db do
      let hash ← ownerDigest rt token message
      orRaise db.ensureProject
      let l ← ownedRow db p hash foreign
      rest hash l) := by
  refine transaction_ends (R := EndOfClaim rt db p.resourceId token now status w) (fun f => .of_refused (hfailed f))
    (fun _ => .refused fun _ h => by cases h) ?_
  refine gives_bind (gives_ownerDigest (.of_refused rfl)) fun hash hhash => ?_
  obtain ⟨hshown,rfl⟩ := hhash
  refine gives_raise fun _ hproject => ?_
  refine gives_bind (gives_ownedRow fun _ => .of_refused) fun l ⟨hrow,howner⟩ => ?_
  exact h l ⟨hshown,require_ok.mp hproject,hrow,howner⟩

theorem release_ends : EndOfClaim rt db p.resourceId token now .available
    (releaseWrite (tokenDigest rt token) (nonEmptyOr (boundedReason reason) "RELEASED")) (release p token reason now db) := by
  unfold release
  refine endOfClaim_of_body (fun _ => rfl) fun l hown => ?_
  refine gives_check (fun hs => .again hown (not_not.mp hs)) fun _ => ?_
  refine gives_check (fun _ => .of_refused rfl) fun _ => ?_
  refine gives_check (fun _ => .of_refused rfl) fun _ => ?_
  refine gives_check (fun _ => .of_refused rfl) fun hlive => ?_
  exact gives_writeLease hown.row (fun _ _ => .of_refused rfl) (fun _ => rfl) fun t htest hwritten => .wrote hown htest hlive hwritten rfl

theorem complete_ends : EndOfClaim rt db p.resourceId token now .completed (completeWrite (tokenDigest rt token) now)
    (complete p token now db) := by
  unfold complete
  refine endOfClaim_of_body (fun _ => rfl) fun l hown => ?_
  refine gives_check (fun hs => .again hown (not_not.mp hs)) fun _ => ?_
  refine gives_check (fun _ => .of_refused rfl) fun _ => ?_
  refine gives_check (fun _ => .of_refused rfl) fun hlive => ?_
  exact gives_writeLease hown.row (fun _ _ => .of_refused rfl) (fun _ => rfl) fun t htest hwritten => .wrote hown htest hlive hwritten rfl

theorem abandon_ends : EndOfClaim rt db p.resourceId token now .abandoned
    (abandonWrite (tokenDigest rt token) (nonEmptyOr (boundedReason reason) "ABANDONED") now)
    (abandon p token reason now db) := by
  unfold abandon
  refine endOfClaim_of_body (fun _ => rfl) fun l hown => ?_
  refine gives_check (fun hs => .again hown (not_not.mp hs)) fun _ => ?_
  refine gives_check (fun _ => .of_refused rfl) fun _ => ?_
  refine gives_check (fun _ => .of_refused rfl) fun _ => ?_
  refine gives_check (fun _ => .of_refused rfl) fun hlive => ?_
  exact gives_writeLease hown.row (fun _ _ => .of_refused rfl) (fun _ => rfl) fun t htest hwritten => .wrote hown htest hlive hwritten rfl

theorem EndOfClaim.outcome {call : LeaseCall rt} {out : Database × Outcome ContinuationLeaseResult}
    (h : EndOfClaim rt db call.packet.resourceId token now status w out) (hfinal : status ≠ .claimed)
    (hissues : call.issues = none) (hends : ∀ t, call.EndsClaim t → token = t)
    (hchange : ∀ l, claimedBy (tokenDigest rt token) l = true → now < l.expiresAt → LeaseChange now call l (w.change l)) :
    LeaseOutcome now db call out := by
  cases h with
  | refused h => exact .quiet fun r hr => .of_refused (h r hr)
  | again hown hstatus =>
    refine .quiet fun r _ => ⟨fun h => ?_,fun t ht _ => ?_⟩
    · rw [hissues] at h
      cases h
    · exact ⟨_,hown.row,hends t ht ▸ hown.owner,hstatus ▸ hfinal⟩
  | wrote hown hheld hlive hwritten haccepted => exact .wrote (.stored hown.row) (hchange _ hheld hlive) hwritten haccepted

theorem release_outcome : LeaseOutcome now db (.release p token reason) (release p token reason now db) :=
  release_ends.outcome nofun rfl (fun _ => id) fun _ => .released

theorem complete_outcome : LeaseOutcome now db (.complete p token) (complete p token now db) :=
  complete_ends.outcome nofun rfl (fun _ => id) fun _ => .completed

theorem abandon_outcome : LeaseOutcome now db (.abandon p token reason) (abandon p token reason now db) :=
  abandon_ends.outcome nofun rfl (fun _ => id) fun _ => .abandoned

/-- The token holds the lease of a resource at a moment. -/
structure HoldsLease (rt : Runtime) (db : Database) (r token : String) (now : DateTime)
    (l : ContinuationLeaseRecord) : Prop where
  row : db.leaseFor r = some l
  owner : l.ownerTokenHash = some (tokenDigest rt token)
  claimed : l.status = .claimed
  live : now < l.expiresAt

/-- Nothing is written, and an accepted effect is one of a holder. -/
def Authorizes (rt : Runtime) (db : Database) (r token : String) (now : DateTime)
    (out : Database × Outcome ContinuationLeaseResult) : Prop :=
  out.1 = db ∧ ∀ res, out.2 = .ok res → res.accepted = true → tokenDigest rt token ≠ "" ∧ ∃ l, HoldsLease rt db r token now l

theorem authorizeEffect_cases : Authorizes rt db p.resourceId token now (authorizeEffect co p authority token now db) := by
  have hrefused : ∀ res, res.accepted = false → Authorizes rt db p.resourceId token now (db,.ok res) := by
    intro res hres
    refine ⟨rfl,fun r hr haccepted => ?_⟩
    cases hr
    cases haccepted.symm.trans hres
  unfold authorizeEffect
  refine transaction_ends (fun _ => hrefused _ rfl) (fun _ => ⟨rfl,fun _ h => by cases h⟩) ?_
  refine gives_orAnswer (fun _ _ => hrefused _ rfl) fun _ _ => ?_
  refine gives_bind (gives_ownerDigest (hrefused _ rfl)) fun hash hhash => ?_
  obtain ⟨hshown,rfl⟩ := hhash
  refine gives_bind (gives_enter fun _ _ => hrefused _ rfl) fun _ _ => ?_
  refine gives_needOr (hrefused _ rfl) fun l hl => ?_
  refine gives_check (fun _ => hrefused _ rfl) fun _ => ?_
  refine gives_check (fun _ => hrefused _ rfl) fun howner => ?_
  refine gives_check (fun _ => hrefused _ rfl) fun hclaimed => ?_
  refine gives_check (fun _ => hrefused _ rfl) fun hlive => ?_
  exact gives_pure ⟨rfl,fun _ _ _ => ⟨hshown,l,hl,howner,hclaimed,hlive⟩⟩

theorem authorizeEffect_outcome : LeaseOutcome now db (.authorizeEffect co p authority token)
    (authorizeEffect co p authority token now db) := by
  rw [← Prod.mk.eta (p := authorizeEffect co p authority token now db),authorizeEffect_cases.1]
  exact .quiet fun _ _ => ⟨nofun,nofun⟩

theorem lease_outcome (call : LeaseCall rt) (now : DateTime) (db : Database) :
    LeaseOutcome now db call (call.perform now db) := by
  cases call with
  | claim co p authority ownerId token => exact claim_outcome
  | reclaim co p authority ownerId token reason => exact reclaim_outcome
  | renew co p authority token => exact renew_outcome
  | release p token reason => exact release_outcome
  | complete p token => exact complete_outcome
  | abandon p token reason => exact abandon_outcome
  | authorizeEffect co p authority token => exact authorizeEffect_outcome

/-! ## The rows after a call -/

variable {call : LeaseCall rt} {out : Database × Outcome ContinuationLeaseResult} {base : Database}

theorem LeaseChange.keeps (h : LeaseChange now call l l') :
    l'.leaseId = l.leaseId ∧ l'.resourceId = l.resourceId ∧ l'.stateRevision = l.stateRevision + 1 := by
  cases h <;> exact ⟨rfl,rfl,rfl⟩

theorem Opened.leaseFor (h : Opened now db call base l) :
    base.leaseFor call.packet.resourceId = some l ∧
      ∀ r, r ≠ call.packet.resourceId → base.leaseFor r = db.leaseFor r := by
  cases h with
  | stored h => exact ⟨h,fun _ _ => rfl⟩
  | @created co p authority ownerId token leases hnone hinsert =>
    constructor
    · exact leaseFor_created hnone hinsert
    · intro r hr
      have hne : ¬ p.resourceId = r := fun h => hr h.symm
      rw [leaseFor_insert hinsert]
      simp [availableLease,hne]

def RowBefore (now : DateTime) (db : Database) (call : LeaseCall rt) (l : ContinuationLeaseRecord) : Prop :=
  db.leaseFor call.packet.resourceId = some l ∨
    db.leaseFor call.packet.resourceId = none ∧ l = availableLease db.projectId call.packet now

theorem Opened.rowBefore (h : Opened now db call base l) : RowBefore now db call l := by
  cases h with
  | stored h => exact .inl h
  | created hnone hinsert => exact .inr ⟨hnone,rfl⟩

theorem LeaseOutcome.row (h : LeaseOutcome now db call out) (r : String) :
    out.1.leaseFor r = db.leaseFor r ∨
      r = call.packet.resourceId ∧ ∃ l l', RowBefore now db call l ∧ LeaseChange now call l l' ∧
        out.1.leaseFor r = some l' := by
  cases h with
  | quiet => exact .inl rfl
  | @wrote base l l' db' res hopened hchange hwritten haccepted =>
    obtain ⟨hbase,hother⟩ := hopened.leaseFor
    obtain ⟨hid,hres,-⟩ := hchange.keeps
    by_cases hr : r = call.packet.resourceId
    · subst hr
      refine .inr ⟨rfl,l,l',hopened.rowBefore,hchange,?_⟩
      exact leaseFor_put hbase hid hres hwritten.leases
    · refine .inl ?_
      rw [leaseFor_put_other hbase hid hres hwritten.leases hr]
      exact hother r hr

theorem LeaseOutcome.issued {r : ContinuationLeaseResult} (h : LeaseOutcome now db call (db',.ok r))
    (hissues : call.issues.isSome = true) (haccepted : r.accepted = true) :
    ∃ l l', RowBefore now db call l ∧ LeaseChange now call l l' ∧
      db'.leaseFor call.packet.resourceId = some l' := by
  cases h with
  | quiet hquiet =>
    rw [(hquiet r rfl).refused hissues] at haccepted
    cases haccepted
  | @wrote base l l' _ _ hopened hchange hwritten _ =>
    obtain ⟨hid,hres,-⟩ := hchange.keeps
    exact ⟨l,l',hopened.rowBefore,hchange,leaseFor_put hopened.leaseFor.1 hid hres hwritten.leases⟩

end Bdb.Continuation
