import Bdb.Continuation.SendSteps

/-! # The audit trail never blocks a write

Every write of a lease or an intent logs an event under the row's new revision, and a
taken event identity would roll the write back. In every reachable database the events of
a row are at or before its revision, so a write that passes its checks is made.
-/
namespace Bdb.Continuation

open Step SendIntentResult Table

variable {rt : Runtime} {db db' : Database} {q : SendRequest rt} {r r' : SendIntentRecord}
  {l : ContinuationLeaseRecord} {id : String} {now : DateTime}

def Database.Covers (db : Database) : EventId → Prop
  | .lease leaseId n => ∃ l, db.leases.get leaseId = some l ∧ n ≤ l.stateRevision
  | .intent intentId n => ∃ r, db.intents.get intentId = some r ∧ n ≤ r.stateRevision
  | .scope _ => True

structure Trailed (db : Database) : Prop where
  events : ∀ e ∈ db.audit.rows, db.Covers e.eventId
  registered : ∀ id r, db.intents.get id = some r → db.revision.isSome = true
  owned : ∀ id r, db.intents.get id = some r → r.leaseOwnerTokenHash ≠ ""

/-- Rows are kept and their revisions do not go back. -/
structure RowsGrow (db db' : Database) : Prop where
  leases : ∀ id l, db.leases.get id = some l → ∃ l', db'.leases.get id = some l' ∧ l.stateRevision ≤ l'.stateRevision
  intents : ∀ id r, db.intents.get id = some r → ∃ r', db'.intents.get id = some r' ∧ r.stateRevision ≤ r'.stateRevision

theorem RowsGrow.covers (h : RowsGrow db db') {e : EventId} (he : db.Covers e) : db'.Covers e := by
  cases e with
  | lease leaseId n =>
    obtain ⟨l,hl,hn⟩ := he
    obtain ⟨l',hl',hle⟩ := h.leases leaseId l hl
    exact ⟨l',hl',hn.trans hle⟩
  | intent intentId n =>
    obtain ⟨r,hr,hn⟩ := he
    obtain ⟨r',hr',hle⟩ := h.intents intentId r hr
    exact ⟨r',hr',hn.trans hle⟩
  | scope suffix => exact trivial

variable {e : AuditEvent} {p : ContinuationPacket rt} {call : LeaseCall rt} {base : Database}
    {w : IntentWrite}

theorem events_of_insert (h : ∀ e ∈ db.audit.rows, db.Covers e.eventId)
    (hgrow : RowsGrow db db') (hinsert : db.audit.insert e = some db'.audit) (he : db'.Covers e.eventId) :
    ∀ e ∈ db'.audit.rows, db'.Covers e.eventId := by
  intro e' he'
  rw [(insert_some hinsert).2] at he'
  rcases List.mem_append.mp he' with hold | hnew
  · exact hgrow.covers (h e' hold)
  · rw [List.mem_singleton.mp hnew]
    exact he

theorem put_grows (hrow : db.intents.get r.intentId = some r) (hsame : r'.intentId = r.intentId)
    (hle : r.stateRevision ≤ r'.stateRevision) (id : String) (r₀ : SendIntentRecord)
    (h : db.intents.get id = some r₀) :
    ∃ r₁, (db.intents.put r').get id = some r₁ ∧ r₀.stateRevision ≤ r₁.stateRevision := by
  have hrow' : db.intents.get r'.intentId = some r := hsame ▸ hrow
  rw [get_put hrow']
  by_cases hid : r'.intentId = id
  · subst hid
    rw [if_pos rfl]
    obtain rfl := some_unique hrow' h
    exact ⟨r',rfl,hle⟩
  · rw [if_neg hid]
    exact ⟨r₀,h,le_refl _⟩

theorem trailed_wrote {kind : ChangeKind} (h : Trailed db) (hrow : db.intents.get r.intentId = some r)
    (hchange : IntentChange db q kind r r') (hwritten : IntentWritten db r' db') : Trailed db' := by
  have hid := hchange.same.intentId
  have hrevision := hchange.revision
  have hget := get_written hwritten hrow hid
  obtain ⟨n,e,audit,hn,⟨he,-⟩,hinsert,rfl⟩ := hwritten.logged
  constructor
  · refine events_of_insert h.events ⟨?_,?_⟩ hinsert ?_
    · exact fun id l hl => ⟨l,hl,le_refl _⟩
    · exact put_grows hrow hid (by omega)
    · rw [he]
      refine ⟨r',?_,le_refl _⟩
      rw [hget,hid,if_pos rfl]
  · exact fun _ _ _ => rfl
  · intro i r₀ hr₀
    rw [hget] at hr₀
    split at hr₀
    · cases hr₀
      rw [hchange.same.owner]
      exact h.owned _ _ hrow
    · exact h.owned _ _ hr₀

theorem liveLeaseCheck_digest {token : String} {boundary : EffectBoundary}
    (h : db.liveLeaseCheck p token now boundary = .ok l) : tokenDigest rt token ≠ "" := by
  unfold Database.liveLeaseCheck at h
  obtain ⟨_,hdigest,-⟩ := bind_ok.mp h
  exact require_ok.mp hdigest

theorem trailed_created {a : PrepareArgs rt} {n : ℕ}
    {intents : Table SendIntentRecord (·.intentId)} {audit : Table AuditEvent (·.eventId)} (h : Trailed db)
    (hprepared : Prepared a db l) (he : e.eventId = .intent (intentIdOf a.key) 1)
    (hinsert : db.intents.insert (preparedIntent a l db.projectId) = some intents)
    (haudit : db.audit.insert e = some audit) :
    Trailed { db with intents := intents, revision := some (n + 1), audit := audit } := by
  have hget := get_insert hinsert
  constructor
  · refine events_of_insert h.events ⟨?_,?_⟩ haudit ?_
    · exact fun id l hl => ⟨l,hl,le_refl _⟩
    · intro id r hr
      refine ⟨r,?_,le_refl _⟩
      rw [hget,if_neg]
      · exact hr
      · intro hid
        have habsent := hprepared.absent
        rw [show intentIdOf a.key = id from hid,hr] at habsent
        cases habsent
    · rw [he]
      exact ⟨_,(hget _).trans (if_pos rfl),le_refl _⟩
  · exact fun _ _ _ => rfl
  · intro id r hr
    rw [hget] at hr
    split at hr
    · cases hr
      exact liveLeaseCheck_digest hprepared.lease
    · exact h.owned _ _ hr

theorem opened_grows (h : Opened now db call base l) :
    (∀ id l₀, db.leases.get id = some l₀ → base.leases.get id = some l₀) ∧ base.intents = db.intents ∧
      base.audit = db.audit ∧ base.revision = db.revision := by
  cases h with
  | stored h => exact ⟨fun _ _ h => h,rfl,rfl,rfl⟩
  | created hnone hinsert =>
    refine ⟨?_,rfl,rfl,rfl⟩
    intro id l₀ hl₀
    rw [get_insert hinsert,if_neg]
    · exact hl₀
    · rintro rfl
      rw [(insert_some hinsert).1] at hl₀
      cases hl₀

theorem trailed_leased {l' : ContinuationLeaseRecord} (h : Trailed db)
    (hopened : Opened now db call base l) (hchange : LeaseChange now call l l')
    (hwritten : LeaseWritten base l' db') : Trailed db' := by
  obtain ⟨hbase,hintents,haudit,hrevision⟩ := opened_grows hopened
  obtain ⟨hid,-,hcount⟩ := hchange.keeps
  obtain ⟨e,audit,⟨he,-⟩,hinsert,rfl⟩ := hwritten.logged
  have hrow : base.leases.get l'.leaseId = some l := hid ▸ get_leaseFor hopened.leaseFor.1
  have hget := get_put hrow
  constructor
  · refine events_of_insert h.events ⟨?_,?_⟩ (haudit ▸ hinsert) ?_
    · intro id l₀ hl₀
      have hl₁ := hbase id l₀ hl₀
      by_cases heq : l'.leaseId = id
      · subst heq
        obtain rfl := some_unique hrow hl₁
        exact ⟨l',(hget _).trans (if_pos rfl),by omega⟩
      · exact ⟨l₀,((hget _).trans (if_neg heq)).trans hl₁,le_refl _⟩
    · intro id r hr
      exact ⟨r,hintents ▸ hr,le_refl _⟩
    · rw [he]
      exact ⟨l',(hget _).trans (if_pos rfl),le_refl _⟩
  · intro id r hr
    have hsome := hwritten.registered
    simpa using hsome
  · intro id r hr
    exact h.owned id r (hintents ▸ hr)

theorem trailed_scope {suffix : String} (h : Trailed db) (hleases : db'.leases = db.leases)
    (hrevision : db'.revision = db.revision) (he : e.eventId = .scope suffix)
    (hinsert : db.audit.insert e = some db'.audit)
    (hintents : ∀ id, db'.intents.get id = db.intents.get id ∨
      ∃ r r', db.intents.get id = some r ∧ db'.intents.get id = some r' ∧ SameIntent r r' ∧
        r.stateRevision ≤ r'.stateRevision) : Trailed db' := by
  constructor
  · refine events_of_insert h.events ⟨?_,?_⟩ hinsert ?_
    · intro id l hl
      exact ⟨l,hleases ▸ hl,le_refl _⟩
    · intro id r hr
      rcases hintents id with hsame | ⟨r₀,r',hr₀,hr',-,hle⟩
      · exact ⟨r,hsame.trans hr,le_refl _⟩
      · obtain rfl := some_unique hr hr₀
        exact ⟨r',hr',hle⟩
    · rw [he]
      exact trivial
  · intro id r hr
    rw [hrevision]
    rcases hintents id with hsame | ⟨r₀,r',hr₀,-,-,-⟩
    · exact h.registered id r (hsame.symm.trans hr)
    · exact h.registered id r₀ hr₀
  · intro id r hr
    rcases hintents id with hsame | ⟨r₀,r',hr₀,hr',hid,-⟩
    · exact h.owned id r (hsame.symm.trans hr)
    · obtain rfl := some_unique hr' hr
      rw [hid.owner]
      exact h.owned id r₀ hr₀

theorem stop_same (r : SendIntentRecord) (now : DateTime) :
    SameIntent r (r.stop now) ∧ r.stateRevision ≤ (r.stop now).stateRevision := by
  unfold SendIntentRecord.stop
  split
  · exact ⟨rfl,Nat.le_succ _⟩
  · exact ⟨rfl,le_refl _⟩

theorem trailed_step (db : Database) (_ : List (SendEntry rt)) (q : SendRequest rt) (h : Trailed db) :
    Trailed (q.perform db).1 := by
  have heffect := request_effect q db
  generalize (q.perform db).1 = db' at heffect ⊢
  cases heffect with
  | nothing => exact h
  | wrote hrow hchange hwritten => exact trailed_wrote h hrow hchange hwritten
  | created hq hprepared hn he hinsert haudit => exact trailed_created h hprepared he.1 hinsert haudit
  | leased hq hopened hchange hwritten => exact trailed_leased h hopened hchange hwritten
  | @stopped s c fences audit hq hcursor hfences haudit =>
    refine trailed_scope h rfl rfl rfl haudit ?_
    intro id
    rw [get_stopped]
    cases db.intents.get id with
    | none => exact .inl rfl
    | some r => exact .inr ⟨r,r.stop s.now,rfl,rfl,stop_same r s.now⟩
  | resumed hq hcursor hepoch haudit => exact trailed_scope h rfl rfl rfl haudit fun _ => .inl rfl
  | elsewhere hq => exact ⟨h.events,h.registered,h.owned⟩

theorem trailed_begin (db : Database) : Trailed (.begin db : SendSystem rt).store := by
  constructor
  · intro e he
    cases he
  all_goals
    intro id r hr
    cases hr

theorem trailed_run (db : Database) (moves : List (SendMove rt)) :
    Trailed (SendSystem.run (.begin db) moves).store :=
  Shared.invariant_of_run (I := fun d _ => Trailed d) trailed_step (trailed_begin db)

/-! ## Writes that are made -/

theorem append_next (h : ∀ e ∈ db.audit.rows, db.Covers e.eventId)
    (hnext : ¬ db.Covers e.eventId) : ∃ audit, db.audit.insert e = some audit := by
  refine insert_of_new ?_
  cases hget : db.audit.get e.eventId with
  | none => rfl
  | some e' =>
    obtain ⟨hmem,hkey⟩ := get_eq_some.mp hget
    exact absurd (hkey ▸ h e' hmem) hnext

theorem append_of_next (h : ∀ e ∈ db.audit.rows, db.Covers e.eventId)
    (haudit : db'.audit = db.audit) (hnext : ¬ db.Covers e.eventId) : ∃ done, db'.appendEvent e = .ok done := by
  obtain ⟨audit,hinsert⟩ := append_next h hnext
  refine ⟨{ db' with audit := audit },?_⟩
  unfold Database.appendEvent
  rw [haudit,hinsert]

theorem updateIntent_of (hrow : db.intents.get r.intentId = some r) (htest : w.test r.status = true) :
    db.updateIntent r w.test w.change = some { db with intents := db.intents.put (w.change r) } := by
  unfold Database.updateIntent
  rw [hrow]
  simp [htest]

theorem writeIntent_of (h : Trailed db) (hrow : db.intents.get id = some r)
    (htest : w.test r.status = true) (now : DateTime) :
    ∃ db', writeIntent db r w now = .ok (db',w.change r) := by
  have hid := key_of_get hrow
  have hrow' : db.intents.get r.intentId = some r := hid ▸ hrow
  obtain ⟨n,hn⟩ := Option.isSome_iff_exists.mp (h.registered id r hrow)
  have hnext : ¬ db.Covers (.intent (w.change r).intentId (w.change r).stateRevision) := by
    rintro ⟨r₀,hr₀,hle⟩
    rw [(w.keepsIdentity r).intentId] at hr₀
    obtain rfl := some_unique hrow' hr₀
    rw [w.countsRevision r] at hle
    omega
  let bumped : Database := { db with intents := db.intents.put (w.change r), revision := some (n + 1) }
  obtain ⟨done,hdone⟩ : ∃ done, bumped.appendEvent
      (bumped.intentEvent (w.change r) w.eventType w.reason now) = .ok done :=
    append_of_next h.events rfl hnext
  refine ⟨done,?_⟩
  unfold writeIntent
  refine bind_of (needOr_ok.mpr (updateIntent_of hrow' htest)) ?_
  refine bind_ok.mpr ⟨bumped,orRaise_ok.mpr ?_,?_⟩
  · simp [Database.bumpProjectRevision,hn,bumped]
  refine bind_ok.mpr ⟨w.change r,orRaise_ok.mpr (need_ok.mpr ?_),?_⟩
  · exact get_put_row hrow (w.keepsIdentity r).intentId
  exact bind_of (orRaise_ok.mpr hdone) rfl

theorem writeLease_of {w : LeaseWrite} (h : Trailed db)
    (hregistered : db.revision.isSome = true) (hrow : db.leaseFor p.resourceId = some l)
    (htest : w.test l = true) (now : DateTime) :
    ∃ db', writeLease db p l w now = .ok (db',w.change l) := by
  obtain ⟨n,hn⟩ := Option.isSome_iff_exists.mp hregistered
  have hget := get_leaseFor hrow
  have hnext : ¬ db.Covers (.lease (w.change l).leaseId (w.change l).stateRevision) := by
    rintro ⟨l₀,hl₀,hle⟩
    rw [w.keepsLease l,hget] at hl₀
    cases hl₀
    rw [w.countsRevision l] at hle
    omega
  let bumped : Database := { db with leases := db.leases.put (w.change l), revision := some (n + 1) }
  obtain ⟨done,hdone⟩ : ∃ done, bumped.appendEvent
      (leaseEvent bumped (w.change l) w.eventType w.reason now) = .ok done :=
    append_of_next h.events rfl hnext
  refine ⟨done,?_⟩
  unfold writeLease
  refine bind_ok.mpr ⟨{ db with leases := db.leases.put (w.change l) },needOr_ok.mpr ?_,?_⟩
  · unfold Database.updateLease
    rw [hget]
    simp [htest]
  refine bind_ok.mpr ⟨bumped,orRaise_ok.mpr ?_,?_⟩
  · simp [Database.bumpProjectRevision,hn,bumped]
  refine bind_ok.mpr ⟨w.change l,orRaise_ok.mpr (need_ok.mpr ?_),?_⟩
  · exact leaseFor_put hrow (w.keepsLease l) (w.keepsResource l) rfl
  refine bind_ok.mpr ⟨done,orRaise_ok.mpr ?_,rfl⟩
  unfold Database.appendLeaseEvent
  rw [hdone]

end Bdb.Continuation
