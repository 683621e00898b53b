import Bdb.Work.Kernel

/-! # What a call of the work kernel can do

A call leaves the store alone or makes one of eleven changes. Each is listed with what the
code has checked before it; every property of the kernel is read off this list.
-/
namespace Bdb.Work

open WorkKernelStore Seconds Table

variable {T : Type} [Seconds T] {s t : WorkKernelStore T} {workId leaseId : String} {fence : ℤ} {now : T}
  {l : LeaseRecord T} {row : WorkItem T}

def Live (l : LeaseRecord T) (now : T) : Prop := l.state = .active ∧ now < l.expiresAt

theorem Live.earlier {now' : T} (h : Live l now') (hle : now ≤ now') : Live l now := ⟨h.1,hle.trans_lt h.2⟩

/-- The lease and the fence are the current ones of the item, and unexpired. -/
structure Holds (s : WorkKernelStore T) (workId leaseId : String) (fence : ℤ) (now : T) (l : LeaseRecord T) :
    Prop where
  row : s.leases.get workId = some l
  lease : l.leaseId = leaseId
  fence : (l.fence : ℤ) = fence
  active : l.state = .active
  live : now < l.expiresAt

theorem requireLease_ok : s.requireLease workId leaseId fence now = .ok l ↔
    idText leaseId = true ∧ 1 ≤ fence ∧ Holds s workId leaseId fence now l := by
  unfold requireLease text
  constructor
  · intro h
    obtain ⟨_,hid,h⟩ := bind_ok.mp h
    obtain ⟨_,hfence,h⟩ := bind_ok.mp h
    obtain ⟨l',hrow,h⟩ := of_need h
    obtain ⟨hlease,h⟩ := of_require h
    obtain ⟨hcurrent,h⟩ := of_require h
    obtain ⟨hactive,h⟩ := of_require h
    obtain ⟨hlive,h⟩ := of_require h
    obtain rfl := pure_ok.mp h
    exact ⟨require_ok.mp hid,require_ok.mp hfence,hrow,hlease,hcurrent,
      hactive,hlive⟩
  · rintro ⟨hid,hfence,h⟩
    refine require_bind hid ?_
    refine require_bind hfence ?_
    refine bind_of (need_ok.mpr h.row) ?_
    refine require_bind h.lease ?_
    refine require_bind h.fence ?_
    refine require_bind h.active ?_
    exact require_bind h.live rfl

omit [Seconds T] in
theorem expectVersion_ok {expected : ℤ} :
    expectVersion row expected = .ok () ↔ (row.stateVersion : ℤ) = expected := by
  unfold expectVersion
  constructor
  · intro h
    obtain ⟨_,h⟩ := rest_ok h
    split at h
    · assumption
    · cases h
  · rintro rfl
    refine require_bind (Int.natCast_nonneg _) ?_
    exact if_pos rfl

omit [Seconds T] in
theorem requireWork_ok : s.requireWork workId = .ok row ↔ s.workItems.get workId = some row := need_ok

/-! ## The changes -/

/-- An item moves to a disposition under its next version, with one fact. -/
structure Moves (s t : WorkKernelStore T) (row : WorkItem T) (target : WorkDisposition) : Prop where
  found : s.workItems.get row.workId = some row
  item : ∃ item : WorkItem T, item.workId = row.workId ∧ item.disposition = target ∧
    item.stateVersion = row.stateVersion + 1 ∧ t.workItems = s.workItems.put item
  fact : ∃ f : TransitionFact, f.workId = row.workId ∧ f.stateVersion = row.stateVersion + 1 ∧
    f.fromDisposition = some row.disposition ∧ f.toDisposition = some target ∧
    s.transitionFacts.insert f = some t.transitionFacts
  leases : t.leases = s.leases
  claims : t.resourceClaims = s.resourceClaims

omit [Seconds T] in
theorem moves_of_append {s' : WorkKernelStore T} {target : WorkDisposition} {kind : String} {payload : Fields}
    {order : ℕ} {origin : WorkDisposition} (hrow : s.workItems.get row.workId = some row) (horigin : row.disposition = origin)
    (h : (s'.bumpWork row target order now).appendFact (moveFact row kind origin target payload order) = .ok t)
    (hsame : s'.workItems = s.workItems ∧ s'.transitionFacts = s.transitionFacts ∧ s'.leases = s.leases ∧
      s'.resourceClaims = s.resourceClaims) :
    Moves s t row target ∧ t.runs = s'.runs ∧ t.waits = s'.waits := by
  obtain rfl := horigin
  obtain ⟨hitems,hfacts,hleases,hclaims⟩ := hsame
  unfold appendFact at h
  obtain ⟨facts,hinsert,h⟩ := bind_ok.mp h
  obtain rfl := pure_ok.mp h
  have hinsert := need_ok.mp hinsert
  simp only [bumpWork,hfacts] at hinsert
  let item : WorkItem T :=
    { row with disposition := target, stateVersion := row.stateVersion + 1, updatedOrder := order, updatedAt := now }
  refine ⟨⟨hrow,⟨item,rfl,rfl,rfl,?_⟩,⟨_,rfl,rfl,rfl,rfl,hinsert⟩,hleases,hclaims⟩,rfl,rfl⟩
  simp only [bumpWork,hitems]
  rfl

/-- What each call may change, with what it has checked before. -/
inductive WorkChange (s : WorkKernelStore T) (now : T) : WorkCall T → WorkKernelStore T → Prop
  | created {t : WorkKernelStore T} {workId taskId kind : String} {known : Option Bool} {item : WorkItem T}
      {f : TransitionFact} (hid : idText workId = true) (hnew : s.workItems.get workId = none)
      (hitem : item.workId = workId ∧ item.disposition = .ready ∧ item.stateVersion = 0)
      (hitems : s.workItems.insert item = some t.workItems)
      (hfact : f.workId = workId ∧ f.stateVersion = 0 ∧ f.fromDisposition = none ∧ f.toDisposition = some .ready)
      (hfacts : s.transitionFacts.insert f = some t.transitionFacts) (hruns : t.runs = s.runs)
      (hwaits : t.waits = s.waits) (hleases : t.leases = s.leases) (hclaims : t.resourceClaims = s.resourceClaims) :
      WorkChange s now (.createWorkItem workId taskId kind known) t
  | leased {workId leaseId ownerId : String} {ttl : T} {w : WorkItem T} {l : LeaseRecord T}
      {leases : Table (LeaseRecord T) (·.workId)} (hwork : s.workItems.get workId = some w)
      (httl : zero < ttl ∧ ttl ≤ day) (hnone : s.leases.get workId = none) (hl : l = ⟨leaseId,workId,ownerId,1,.active,now,plus now ttl⟩)
      (hinsert : s.leases.insert l = some leases) :
      WorkChange s now (.acquireLease workId leaseId ownerId ttl) { s with leases := leases }
  | renewed {workId leaseId ownerId : String} {ttl : T} {l : LeaseRecord T} (hrow : s.leases.get workId = some l)
      (hlease : l.leaseId = leaseId) (howner : l.ownerId = ownerId) (hactive : l.state = .active)
      (hlive : now < l.expiresAt) :
      WorkChange s now (.acquireLease workId leaseId ownerId ttl)
        { s with leases := s.leases.put { l with expiresAt := max l.expiresAt (plus now ttl) } }
  | taken {workId leaseId ownerId : String} {ttl : T} {l : LeaseRecord T} (httl : zero < ttl ∧ ttl ≤ day)
      (hrow : s.leases.get workId = some l) (hover : ¬ Live l now) :
      WorkChange s now (.acquireLease workId leaseId ownerId ttl)
        { s with
          leases := s.leases.put (takeOver l leaseId ownerId ttl now)
          resourceClaims := s.resourceClaims.change (handOver workId leaseId (l.fence + 1))
            (handOver_key workId leaseId (l.fence + 1)) }
  | leaseReleased {workId leaseId : String} {fence : ℤ} {l : LeaseRecord T} (hl : Holds s workId leaseId fence now l)
      (hnone : s.heldClaim workId = none) :
      WorkChange s now (.releaseLease workId leaseId fence)
        { s with leases := s.leases.put { l with state := .released } }
  | claimed {t : WorkKernelStore T} {workId resourceKey leaseId : String} {fence : ℤ} {w : WorkItem T}
      {l : LeaseRecord T} {c : ResourceClaim} (hid : idText resourceKey = true)
      (hwork : s.workItems.get workId = some w)
      (hopen : w.disposition ≠ .finished) (hl : Holds s workId leaseId fence now l)
      (hnone : s.heldClaim workId = none)
      (hc : c.resourceKey = resourceKey ∧ c.workId = workId ∧ c.leaseId = leaseId ∧ c.fence = l.fence ∧ c.state = .held)
      (hwritten : (∃ old, s.resourceClaims.get resourceKey = some old ∧ old.state ≠ .held ∧
          t.resourceClaims = s.resourceClaims.put c) ∨ s.resourceClaims.insert c = some t.resourceClaims)
      (hsame : t.workItems = s.workItems ∧ t.runs = s.runs ∧ t.waits = s.waits ∧ t.leases = s.leases ∧
        t.transitionFacts = s.transitionFacts) :
      WorkChange s now (.claimResource workId resourceKey leaseId fence) t
  | claimReleased {workId resourceKey leaseId : String} {fence : ℤ} {l : LeaseRecord T} {c : ResourceClaim}
      (hl : Holds s workId leaseId fence now l) (hrow : s.resourceClaims.get resourceKey = some c)
      (hc : c.workId = workId ∧ c.state ≠ .released) :
      WorkChange s now (.releaseResource workId resourceKey leaseId fence)
        { s with resourceClaims := s.resourceClaims.put { c with state := .released } }
  | started {t : WorkKernelStore T} {runId leaseId : String} {fence expected : ℤ} {row : WorkItem T}
      {l : LeaseRecord T} {r : RunRecord} (hid : idText runId = true) (hmoves : Moves s t row .running) (hready : row.disposition = .ready)
      (hl : Holds s row.workId leaseId fence now l) (hnone : s.activeRun row.workId = none)
      (hr : r.runId = runId ∧ r.workId = row.workId ∧ r.status = .active ∧ r.leaseId = leaseId ∧ r.fence = l.fence)
      (hruns : s.runs.insert r = some t.runs) (hwaits : t.waits = s.waits) :
      WorkChange s now (.startRun row.workId runId leaseId fence expected) t
  | waited {t : WorkKernelStore T} {waitId why leaseId : String} {fence expected : ℤ} {row : WorkItem T}
      {l : LeaseRecord T} {w : WaitRecord} (hmoves : Moves s t row .waiting) (hrunning : row.disposition = .running)
      (hl : Holds s row.workId leaseId fence now l) (hw : w.workId = row.workId ∧ w.status = .opened)
      (hnone : s.waits.find (fun w => w.workId == row.workId && w.status == .opened) = none)
      (hruns : t.runs = s.runs) (hwaits : s.waits.insert w = some t.waits) :
      WorkChange s now (.enterWait row.workId waitId why leaseId fence expected) t
  | adopted {t : WorkKernelStore T} {runId leaseId : String} {fence expected : ℤ} {row : WorkItem T}
      {l : LeaseRecord T} {r : RunRecord} (hmoves : Moves s t row .running) (hrunning : row.disposition = .running)
      (hl : Holds s row.workId leaseId fence now l) (hrow : s.runs.get runId = some r)
      (hr : r.workId = row.workId ∧ r.status = .active)
      (hruns : t.runs = s.runs.put { r with leaseId := leaseId, fence := l.fence }) (hwaits : t.waits = s.waits) :
      WorkChange s now (.adoptActiveRun row.workId runId leaseId fence expected) t
  | resolved {t : WorkKernelStore T} {waitId leaseId resolution : String} {fence expected : ℤ} {row : WorkItem T}
      {l : LeaseRecord T} {w w' : WaitRecord} (hmoves : Moves s t row .ready) (hwaiting : row.disposition = .waiting)
      (hl : Holds s row.workId leaseId fence now l) (hrow : s.waits.get waitId = some w)
      (hw : w.workId = row.workId ∧ w.status ≠ .resolved)
      (hw' : w'.waitId = w.waitId ∧ w'.workId = row.workId ∧ w'.status = .resolved) (hruns : t.runs = s.runs)
      (hwaits : t.waits = s.waits.put w') :
      WorkChange s now (.resolveWait row.workId waitId leaseId fence expected resolution) t
  | finished {t : WorkKernelStore T} {runId leaseId outcome certainty : String} {fence expected : ℤ}
      {row : WorkItem T} {l : LeaseRecord T} {r r' : RunRecord} (hmoves : Moves s t row .finished)
      (hfrom : row.disposition = .running ∨ row.disposition = .ready)
      (hl : Holds s row.workId leaseId fence now l) (hrow : s.runs.get runId = some r)
      (hr : r.workId = row.workId ∧ r.status ≠ .finished ∧ r.leaseId = leaseId ∧ (r.fence : ℤ) = fence)
      (hr' : r'.runId = r.runId ∧ r'.workId = row.workId ∧ r'.status = .finished ∧ r'.fence = r.fence)
      (hruns : t.runs = s.runs.put r') (hwaits : t.waits = s.waits) :
      WorkChange s now (.finishRun row.workId runId leaseId fence expected outcome certainty) t

/-! ## Every call -/

omit [Seconds T] in
theorem write_cases {α : Type} (s : WorkKernelStore T) (o : Operation T α) (failpoint : Option FailPoint) :
    (o.write failpoint s).1 = s ∨
      ∃ a, o.checks = .ok () ∧ o.operation s = .ok ((o.write failpoint s).1,a) := by
  unfold Operation.write
  split
  · exact .inl rfl
  · rename_i hchecks
    split
    · exact .inl rfl
    · cases ho : o.operation s with
      | error e => exact .inl rfl
      | ok p =>
        obtain ⟨t,a⟩ := p
        dsimp only
        split
        · exact .inl rfl
        all_goals exact .inr ⟨a,hchecks,rfl⟩

omit [Seconds T] in
theorem answering_ok {α β : Type} {o : Operation T α} {f : α → β} {b : β}
    (h : (o.answering f).operation s = .ok (t,b)) : ∃ a, o.operation s = .ok (t,a) ∧ b = f a := by
  unfold Operation.answering at h
  dsimp only at h
  cases ho : o.operation s with
  | error e =>
    rw [ho] at h
    cases h
  | ok p =>
    rw [ho] at h
    obtain ⟨t',a⟩ := p
    cases h
    exact ⟨a,rfl,rfl⟩

section Operations

variable {runId waitId why resourceKey taskId kind ownerId resolution outcome certainty : String} {known : Option Bool}
  {ttl : T} {expected : ℤ}

theorem text_ok {value field : String} : text value field = .ok () ↔ idText value = true := require_ok

theorem createWorkItem_ok {a : WorkItem T} (hchecks : (createWorkItem workId taskId kind known now).checks = .ok ())
    (h : (createWorkItem workId taskId kind known now).operation s = .ok (t,a)) :
    t = s ∨ WorkChange s now (.createWorkItem workId taskId kind known) t := by
  obtain ⟨_,hid,-⟩ := bind_ok.mp hchecks
  simp only [createWorkItem] at h
  split at h
  · split at h
    · exact .inl (Prod.ext_iff.mp (pure_ok.mp h)).1.symm
    · cases h
  · rename_i hnew
    obtain ⟨items,hitems,h⟩ := of_need h
    obtain ⟨t',hfact,h⟩ := bind_ok.mp h
    cases pure_ok.mp h
    unfold appendFact at hfact
    obtain ⟨facts,hfacts,h⟩ := of_need hfact
    obtain rfl := pure_ok.mp h
    exact .inr (.created (text_ok.mp hid) hnew ⟨rfl,rfl,rfl⟩ hitems ⟨rfl,rfl,rfl,rfl⟩ hfacts rfl rfl rfl rfl)

theorem acquireLease_ok {a : LeaseRecord T} (hchecks : (acquireLease workId leaseId ownerId ttl now).checks = .ok ())
    (h : (acquireLease workId leaseId ownerId ttl now).operation s = .ok (t,a)) :
    WorkChange s now (.acquireLease workId leaseId ownerId ttl) t := by
  obtain ⟨_,_,_,hchecks⟩ := rest₃ hchecks
  have httl := require_ok.mp hchecks
  simp only [acquireLease] at h
  obtain ⟨w,hwork,h⟩ := bind_ok.mp h
  have hwork := requireWork_ok.mp hwork
  split at h
  · rename_i l hrow
    split at h
    · rename_i hsame
      cases pure_ok.mp h
      exact .renewed hrow hsame.1 hsame.2.1 hsame.2.2.1 hsame.2.2.2
    · obtain ⟨_,hover,h⟩ := bind_ok.mp h
      obtain ⟨_,h⟩ := rest_ok h
      have hover := require_ok.mp hover
      cases pure_ok.mp h
      exact .taken httl hrow hover
  · rename_i hnone
    obtain ⟨_,h⟩ := rest_ok h
    obtain ⟨leases,hinsert,h⟩ := of_need h
    cases pure_ok.mp h
    exact .leased hwork httl hnone rfl hinsert

theorem releaseLease_ok {a : LeaseRecord T} (h : (releaseLease workId leaseId fence now).operation s = .ok (t,a)) :
    WorkChange s now (.releaseLease workId leaseId fence) t := by
  simp only [releaseLease] at h
  obtain ⟨l,hl,h⟩ := bind_ok.mp h
  obtain ⟨-,-,hl⟩ := requireLease_ok.mp hl
  split at h
  · cases h
  · rename_i hnone
    cases pure_ok.mp h
    exact .leaseReleased hl hnone

theorem claimResource_ok {a : ResourceClaim}
    (hchecks : (claimResource workId resourceKey leaseId fence now).checks = .ok ())
    (h : (claimResource workId resourceKey leaseId fence now).operation s = .ok (t,a)) :
    t = s ∨ WorkChange s now (.claimResource workId resourceKey leaseId fence) t := by
  obtain ⟨_,-,hid⟩ := bind_ok.mp hchecks
  have hid := text_ok.mp hid
  simp only [claimResource] at h
  obtain ⟨w,hwork,h⟩ := bind_ok.mp h
  obtain ⟨_,hopen,h⟩ := bind_ok.mp h
  obtain ⟨l,hl,h⟩ := bind_ok.mp h
  have hwork := requireWork_ok.mp hwork
  have hopen := require_ok.mp hopen
  obtain ⟨-,-,hl⟩ := requireLease_ok.mp hl
  split at h
  · split at h
    · exact .inl (Prod.ext_iff.mp (pure_ok.mp h)).1.symm
    · cases h
  · rename_i hnone
    split at h
    · rename_i c hrow
      split at h
      · split at h
        · exact .inl (Prod.ext_iff.mp (pure_ok.mp h)).1.symm
        · cases h
      · rename_i hfree
        cases pure_ok.mp h
        exact .inr (.claimed hid hwork hopen hl hnone ⟨rfl,rfl,rfl,rfl,rfl⟩ (.inl ⟨c,hrow,hfree,rfl⟩)
          ⟨rfl,rfl,rfl,rfl,rfl⟩)
    · obtain ⟨claims,hinsert,h⟩ := of_need h
      cases pure_ok.mp h
      exact .inr (.claimed hid hwork hopen hl hnone ⟨rfl,rfl,rfl,rfl,rfl⟩ (.inr hinsert) ⟨rfl,rfl,rfl,rfl,rfl⟩)

theorem releaseResource_ok {a : ResourceClaim}
    (h : (releaseResource workId resourceKey leaseId fence now).operation s = .ok (t,a)) :
    t = s ∨ WorkChange s now (.releaseResource workId resourceKey leaseId fence) t := by
  simp only [releaseResource] at h
  obtain ⟨l,hl,h⟩ := bind_ok.mp h
  obtain ⟨c,hrow,h⟩ := of_need h
  obtain ⟨hsame,h⟩ := of_require h
  obtain ⟨-,-,hl⟩ := requireLease_ok.mp hl
  split at h
  · exact .inl (Prod.ext_iff.mp (pure_ok.mp h)).1.symm
  · rename_i hheld
    obtain ⟨_,h⟩ := rest_ok h
    cases pure_ok.mp h
    exact .inr (.claimReleased hl hrow ⟨hsame.1,hheld⟩)

theorem startRun_ok {a : RunRecord} (hchecks : (startRun workId runId leaseId fence expected now).checks = .ok ())
    (h : (startRun workId runId leaseId fence expected now).operation s = .ok (t,a)) :
    t = s ∨ WorkChange s now (.startRun workId runId leaseId fence expected) t := by
  obtain ⟨_,-,hid⟩ := bind_ok.mp hchecks
  simp only [startRun] at h
  split at h
  · obtain ⟨_,_,h⟩ := rest₂ h
    exact .inl (Prod.ext_iff.mp (pure_ok.mp h)).1.symm
  · obtain ⟨row,hrow,h⟩ := bind_ok.mp h
    obtain ⟨_,h⟩ := rest_ok h
    obtain ⟨_,hready,h⟩ := bind_ok.mp h
    obtain ⟨l,hl,h⟩ := bind_ok.mp h
    obtain ⟨hnone,h⟩ := of_require h
    obtain ⟨runs,hinsert,h⟩ := bind_ok.mp h
    obtain ⟨t',hfact,h⟩ := bind_ok.mp h
    cases pure_ok.mp h
    have hrow := requireWork_ok.mp hrow
    have hready := require_ok.mp hready
    obtain ⟨-,-,hl⟩ := requireLease_ok.mp hl
    obtain rfl := key_of_get hrow
    obtain ⟨hmoves,hruns,hwaits⟩ := moves_of_append hrow hready hfact ⟨rfl,rfl,rfl,rfl⟩
    have hinsert := need_ok.mp hinsert
    rw [← show t.runs = runs from hruns] at hinsert
    refine .inr (.started (text_ok.mp hid) hmoves hready hl hnone ?_ hinsert hwaits)
    exact ⟨rfl,rfl,rfl,rfl,rfl⟩

theorem enterWait_ok {a : WaitRecord}
    (h : (enterWait workId waitId why leaseId fence expected now).operation s = .ok (t,a)) :
    t = s ∨ WorkChange s now (.enterWait workId waitId why leaseId fence expected) t := by
  simp only [enterWait] at h
  split at h
  · obtain ⟨_,h⟩ := rest_ok h
    exact .inl (Prod.ext_iff.mp (pure_ok.mp h)).1.symm
  · obtain ⟨row,hrow,h⟩ := bind_ok.mp h
    obtain ⟨_,h⟩ := rest_ok h
    obtain ⟨_,hrunning,h⟩ := bind_ok.mp h
    obtain ⟨l,hl,h⟩ := bind_ok.mp h
    obtain ⟨_,_,h⟩ := rest₂ h
    obtain ⟨hnone,h⟩ := of_require h
    obtain ⟨waits,hinsert,h⟩ := bind_ok.mp h
    obtain ⟨t',hfact,h⟩ := bind_ok.mp h
    cases pure_ok.mp h
    have hrow := requireWork_ok.mp hrow
    have hrunning := require_ok.mp hrunning
    obtain ⟨-,-,hl⟩ := requireLease_ok.mp hl
    obtain rfl := key_of_get hrow
    obtain ⟨hmoves,hruns,hwaits⟩ := moves_of_append hrow hrunning hfact ⟨rfl,rfl,rfl,rfl⟩
    have hinsert := need_ok.mp hinsert
    rw [← show t.waits = waits from hwaits] at hinsert
    refine .inr (.waited hmoves hrunning hl ?_ hnone hruns hinsert)
    exact ⟨rfl,rfl⟩

theorem adoptActiveRun_ok {a : RunRecord}
    (h : (adoptActiveRun workId runId leaseId fence expected now).operation s = .ok (t,a)) :
    t = s ∨ WorkChange s now (.adoptActiveRun workId runId leaseId fence expected) t := by
  simp only [adoptActiveRun] at h
  obtain ⟨row,hrow,h⟩ := bind_ok.mp h
  obtain ⟨_,h⟩ := rest_ok h
  obtain ⟨_,hrunning,h⟩ := bind_ok.mp h
  obtain ⟨l,hl,h⟩ := bind_ok.mp h
  obtain ⟨r,hr,h⟩ := of_need h
  split at h
  · exact .inl (Prod.ext_iff.mp (pure_ok.mp h)).1.symm
  · obtain ⟨_,h⟩ := rest_ok h
    obtain ⟨t',hfact,h⟩ := bind_ok.mp h
    cases pure_ok.mp h
    have hrow := requireWork_ok.mp hrow
    have hrunning := require_ok.mp hrunning
    obtain ⟨-,-,hl⟩ := requireLease_ok.mp hl
    obtain ⟨hrun,hmatch⟩ := Option.filter_eq_some_iff.mp hr
    obtain rfl := key_of_get hrow
    obtain ⟨hmoves,hruns,hwaits⟩ := moves_of_append hrow hrunning hfact ⟨rfl,rfl,rfl,rfl⟩
    exact .inr (.adopted hmoves hrunning hl hrun (by simpa using hmatch) hruns hwaits)

theorem resolveWait_ok {a : WaitRecord}
    (h : (resolveWait workId waitId leaseId fence expected resolution now).operation s = .ok (t,a)) :
    t = s ∨ WorkChange s now (.resolveWait workId waitId leaseId fence expected resolution) t := by
  simp only [resolveWait] at h
  obtain ⟨w,hw,h⟩ := of_need h
  obtain ⟨_,hsame,h⟩ := bind_ok.mp h
  split at h
  · exact .inl (Prod.ext_iff.mp (pure_ok.mp h)).1.symm
  · rename_i hopen
    obtain ⟨row,hrow,h⟩ := bind_ok.mp h
    obtain ⟨_,h⟩ := rest_ok h
    obtain ⟨_,hwaiting,h⟩ := bind_ok.mp h
    obtain ⟨l,hl,h⟩ := bind_ok.mp h
    obtain ⟨t',hfact,h⟩ := bind_ok.mp h
    cases pure_ok.mp h
    have hrow := requireWork_ok.mp hrow
    have hwaiting := require_ok.mp hwaiting
    have hsame := require_ok.mp hsame
    obtain ⟨-,-,hl⟩ := requireLease_ok.mp hl
    obtain rfl := key_of_get hrow
    obtain ⟨hmoves,hruns,hwaits⟩ := moves_of_append hrow hwaiting hfact ⟨rfl,rfl,rfl,rfl⟩
    refine .inr (.resolved hmoves hwaiting hl hw ⟨hsame,hopen⟩ ?_ hruns hwaits)
    exact ⟨rfl,hsame,rfl⟩

theorem finishRun_ok {a : RunRecord}
    (h : (finishRun workId runId leaseId fence expected outcome certainty now).operation s = .ok (t,a)) :
    t = s ∨ WorkChange s now (.finishRun workId runId leaseId fence expected outcome certainty) t := by
  simp only [finishRun] at h
  obtain ⟨r,hr,h⟩ := of_need h
  split at h
  · split at h
    · exact .inl (Prod.ext_iff.mp (pure_ok.mp h)).1.symm
    · cases h
  · rename_i hactive
    obtain ⟨row,hrow,h⟩ := bind_ok.mp h
    obtain ⟨_,h⟩ := rest_ok h
    obtain ⟨hfrom,h⟩ := of_require h
    obtain ⟨l,hl,h⟩ := bind_ok.mp h
    obtain ⟨_,_,h⟩ := rest₂ h
    obtain ⟨_,howner,h⟩ := bind_ok.mp h
    obtain ⟨t',hfact,h⟩ := bind_ok.mp h
    cases pure_ok.mp h
    have hrow := requireWork_ok.mp hrow
    have howner := require_ok.mp howner
    obtain ⟨-,-,hl⟩ := requireLease_ok.mp hl
    obtain ⟨hrun,hmatch⟩ := Option.filter_eq_some_iff.mp hr
    have hwork : r.workId = workId := by simpa using hmatch
    obtain rfl := key_of_get hrow
    obtain ⟨hmoves,hruns,hwaits⟩ := moves_of_append hrow rfl hfact ⟨rfl,rfl,rfl,rfl⟩
    refine .inr (.finished hmoves hfrom hl hrun ⟨hwork,hactive,howner⟩ ?_ hruns hwaits)
    exact ⟨rfl,hwork,rfl,rfl⟩

end Operations

theorem next_cases (s : WorkKernelStore T) (e : WorkEvent T) :
    s.next e = s ∨ WorkChange s e.now e.call (s.next e) := by
  rcases write_cases s (e.call.operation e.now) e.failpoint with hsame | ⟨a,hchecks,ha⟩
  · exact .inl hsame
  · have hnext : (((e.call.operation e.now).write e.failpoint s).1) = s.next e := rfl
    rw [hnext] at ha
    cases hcall : e.call with
    | createWorkItem =>
      rw [hcall] at ha hchecks
      obtain ⟨b,hb,-⟩ := answering_ok ha
      exact createWorkItem_ok hchecks hb
    | acquireLease =>
      rw [hcall] at ha hchecks
      obtain ⟨b,hb,-⟩ := answering_ok ha
      exact .inr (acquireLease_ok hchecks hb)
    | releaseLease =>
      rw [hcall] at ha
      obtain ⟨b,hb,-⟩ := answering_ok ha
      exact .inr (releaseLease_ok hb)
    | claimResource =>
      rw [hcall] at ha hchecks
      obtain ⟨b,hb,-⟩ := answering_ok ha
      exact claimResource_ok hchecks hb
    | releaseResource =>
      rw [hcall] at ha
      obtain ⟨b,hb,-⟩ := answering_ok ha
      exact releaseResource_ok hb
    | startRun =>
      rw [hcall] at ha hchecks
      obtain ⟨b,hb,-⟩ := answering_ok ha
      exact startRun_ok hchecks hb
    | enterWait =>
      rw [hcall] at ha
      obtain ⟨b,hb,-⟩ := answering_ok ha
      exact enterWait_ok hb
    | adoptActiveRun =>
      rw [hcall] at ha
      obtain ⟨b,hb,-⟩ := answering_ok ha
      exact adoptActiveRun_ok hb
    | resolveWait =>
      rw [hcall] at ha
      obtain ⟨b,hb,-⟩ := answering_ok ha
      exact resolveWait_ok hb
    | finishRun =>
      rw [hcall] at ha
      obtain ⟨b,hb,-⟩ := answering_ok ha
      exact finishRun_ok hb

end Bdb.Work
