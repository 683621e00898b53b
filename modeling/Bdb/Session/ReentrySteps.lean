import Bdb.Continuation.OneSend
import Bdb.Session.Calls

/-! # What a re-entry request can do

A request of a re-entry leaves the records alone, creates the record of its packet, or makes
one guarded write to a record. Leases and intents are changed by the requests of their own
coordinators only.
-/
namespace Bdb.Session

open Bdb.Continuation SessionStore SessionLivenessState Table

variable {rt : Runtime} {p : ContinuationPacket rt} {s t : SessionStore rt} {r : SessionReentryRecord rt}
  {id : String} {w : Transition}

/-! ## Single transactions -/

variable {now : DateTime} {payload : String}

theorem logged_ok {eventType reason : String} (h : s.logged r eventType reason now = .ok t) :
    t.reentries = s.reentries ∧ t.base.leases = s.base.leases := by
  obtain ⟨bumped,hbumped,h⟩ := bind_ok.mp h
  obtain ⟨n,-,rfl⟩ := Database.bumpProjectRevision_ok hbumped
  cases pure_ok.mp h
  exact ⟨rfl,rfl⟩

theorem persistConversationBinding_ok {b : ExactConversationBinding} {generation : ℕ}
    (h : s.persistConversationBinding p b generation = .ok t) :
    t.reentries = s.reentries ∧ t.base = s.base := by
  unfold persistConversationBinding at h
  obtain ⟨_,_,_,h⟩ := rest₃ h
  split at h
  · obtain ⟨_,h⟩ := rest_ok h
    cases pure_ok.mp h
    exact ⟨rfl,rfl⟩
  · cases pure_ok.mp h
    exact ⟨rfl,rfl⟩

theorem bindConversation_ok (h : s.bindConversation w r = .ok t) : t.reentries = s.reentries ∧ t.base = s.base := by
  unfold bindConversation at h
  split at h
  · exact persistConversationBinding_ok h
  · cases h
    exact ⟨rfl,rfl⟩

theorem createCheckpoint_same :
    (s.createCheckpoint w r).reentries = s.reentries ∧ (s.createCheckpoint w r).base = s.base := by
  unfold createCheckpoint
  split <;> exact ⟨rfl,rfl⟩

theorem transition_ok {o : Option (SessionReentryRecord rt)} (h : s.transition id w = .ok (t,o)) :
    (t = s ∧ o = s.reentries.get id) ∨
      ∃ current, s.reentries.get id = some current ∧ w.Expects current ∧ o = some (w.apply current) ∧
        t.reentries = s.reentries.put (w.apply current) ∧ t.base.leases = s.base.leases := by
  unfold SessionStore.transition at h
  obtain ⟨_,h⟩ := rest_ok h
  split at h
  · rename_i hnone
    cases pure_ok.mp h
    exact .inl ⟨rfl,hnone.symm⟩
  · rename_i current hcurrent
    split at h
    · cases pure_ok.mp h
      exact .inl ⟨rfl,hcurrent.symm⟩
    · rename_i hexpects
      obtain ⟨bound,hbound,h⟩ := bind_ok.mp h
      obtain ⟨_,_,h⟩ := rest₂ h
      obtain ⟨done,hdone,h⟩ := bind_ok.mp h
      cases pure_ok.mp h
      obtain ⟨hbrows,hbbase⟩ := bindConversation_ok hbound
      obtain ⟨hcrows,hcbase⟩ := createCheckpoint_same (s := bound) (w := w) (r := current)
      obtain ⟨hrows,hleases⟩ := logged_ok hdone
      refine .inr ⟨current,hcurrent,not_not.mp hexpects,rfl,?_,?_⟩
      · rw [hrows,hcrows,hbrows]
      · rw [hleases,hcbase,hbbase]

theorem createOrRead_ok {o : Outcome (SessionReentryRecord rt)}
    (h : s.createOrRead p payload now = .ok (t,o)) :
    (t = s ∧ ∀ r, o = .ok r → s.recordFor p = some r) ∨
      ∃ generation reentries, o = .ok (pendingRecord s.base.projectId p payload generation now) ∧
        s.reentries.insert (pendingRecord s.base.projectId p payload generation now) = some reentries ∧
        t.reentries = reentries ∧ t.base.leases = s.base.leases := by
  unfold SessionStore.createOrRead at h
  obtain ⟨_,h⟩ := rest_ok h
  split at h
  · rename_i existing hfound
    split at h
    · cases pure_ok.mp h
      refine .inl ⟨rfl,?_⟩
      intro r hr
      cases hr
    · cases pure_ok.mp h
      refine .inl ⟨rfl,?_⟩
      intro r hr
      cases hr
      exact hfound
  · split at h
    · cases pure_ok.mp h
      refine .inl ⟨rfl,?_⟩
      intro r hr
      cases hr
    · rename_i generation _
      obtain ⟨_,h⟩ := rest_ok h
      obtain ⟨reentries,hinsert,h⟩ := of_need h
      obtain ⟨done,hdone,h⟩ := bind_ok.mp h
      cases pure_ok.mp h
      obtain ⟨hrows,hleases⟩ := logged_ok hdone
      exact .inr ⟨generation,reentries,rfl,hinsert,hrows,hleases⟩

/-! ## The records of one packet -/

/-- How far a record has come: an attempt prepares it, has it in progress, and ends it. -/
def SessionLivenessState.rank : SessionLivenessState → ℕ
  | reentryPrepared => 1
  | reentryInProgress => 2
  | reentryConfirmed => 3
  | reentryFailed => 3
  | reentryBlocked => 3
  | _ => 0

def SessionStore.rank (s : SessionStore rt) (p : ContinuationPacket rt) : ℕ :=
  ((s.reentries.get (reentryIdOf p)).map fun r => r.livenessState.rank).getD 0

/-- The record is of the packet. -/
structure OfPacket (p : ContinuationPacket rt) (r : SessionReentryRecord rt) : Prop where
  packet : r.packet = p
  reentryId : r.reentryId = reentryIdOf p

/-- All stored records are of the packet. -/
def AllOfPacket (p : ContinuationPacket rt) (s : SessionStore rt) : Prop := ∀ r ∈ s.reentries.rows, OfPacket p r

theorem OfPacket.apply (h : OfPacket p r) (w : Transition) : OfPacket p (w.apply r) := ⟨h.packet,h.reentryId⟩

theorem rank_of_get (h : s.reentries.get (reentryIdOf p) = some r) : s.rank p = r.livenessState.rank := by
  unfold SessionStore.rank
  rw [h]
  rfl

theorem rank_congr (h : t.reentries = s.reentries) : t.rank p = s.rank p := by
  unfold SessionStore.rank
  rw [h]

theorem AllOfPacket.get (h : AllOfPacket p s) (hr : r ∈ s.reentries.rows) :
    s.reentries.get (reentryIdOf p) = some r := by
  rw [← (h r hr).reentryId]
  exact get_of_mem hr

abbrev SessionEntry (rt : Runtime) := Entry (@SessionRequest.Answer rt)

def shown : SessionEntry rt → Option (SessionReentryRecord rt)
  | ⟨.createOrRead _ _ _,o⟩ => Except.toOption (o.toOption.getD (fail "" ""))
  | ⟨.readCheckpoint _,o⟩ => o
  | ⟨.transition _ _,o⟩ => o.toOption.getD none
  | _ => none

def Forward : SessionRequest rt → Prop
  | .transition _ w => ∀ state ∈ w.expectedStates, state.rank ≤ w.state.rank
  | _ => True

/-- What a request does to the records of the packet and shows of them. -/
structure RecordStep (p : ContinuationPacket rt) (s : SessionStore rt) (q : SessionRequest rt) : Prop where
  kept : AllOfPacket p (q.perform s).1
  forward : s.rank p ≤ (q.perform s).1.rank p
  shows : ∀ r ∈ shown ⟨q,(q.perform s).2⟩, OfPacket p r ∧ r.livenessState.rank = (q.perform s).1.rank p

variable {q : SessionRequest rt}

theorem recordStep_of_same (h : AllOfPacket p s) (hsame : (q.perform s).1.reentries = s.reentries)
    (hshows : ∀ r ∈ shown ⟨q,(q.perform s).2⟩, r ∈ s.reentries.rows) : RecordStep p s q where
  kept := by
    unfold AllOfPacket
    rw [hsame]
    exact h
  forward := (rank_congr hsame).ge
  shows := by
    intro r hr
    have hrow := hshows r hr
    rw [rank_congr hsame,rank_of_get (h.get hrow)]
    exact ⟨h r hrow,rfl⟩

theorem recordStep_transition (h : AllOfPacket p s) (hforward : Forward (.transition id w : SessionRequest rt)) :
    RecordStep p s (.transition id w) := by
  cases ho : s.transition id w with
  | error f =>
    have hout : (SessionRequest.transition id w).perform s = (s,.error f) := by
      simp only [SessionRequest.perform,ho]
      rfl
    refine recordStep_of_same h (by rw [hout]) ?_
    rw [hout]
    intro r hr
    cases hr
  | ok out =>
    obtain ⟨t,o⟩ := out
    have hout : (SessionRequest.transition id w).perform s = (t,.ok o) := by
      simp only [SessionRequest.perform,ho]
      rfl
    rcases transition_ok ho with ⟨rfl,rfl⟩ | ⟨current,hcurrent,hexpects,rfl,hrows,-⟩
    · refine recordStep_of_same h (by rw [hout]) ?_
      rw [hout]
      intro r hr
      exact mem_of_find hr
    · have hrow := mem_of_find hcurrent
      have hof := h current hrow
      have hget : t.reentries.get (reentryIdOf p) = some (w.apply current) := by
        rw [hrows,get_put (a := w.apply current) (b := current)]
        · exact if_pos hof.reentryId
        · exact get_of_mem hrow
      have hrank : t.rank p = w.state.rank := rank_of_get hget
      refine ⟨?_,?_,?_⟩ <;> rw [hout]
      · intro r hr
        rw [hrows] at hr
        obtain ⟨r',hr',rfl⟩ := List.mem_map.mp hr
        split
        · exact hof.apply w
        · exact h r' hr'
      · rw [hrank,rank_of_get (h.get hrow)]
        exact hforward _ hexpects.1
      · intro r hr
        cases hr
        exact ⟨hof.apply w,hrank.symm⟩

theorem recordStep_createOrRead (h : AllOfPacket p s) :
    RecordStep p s (.createOrRead p payload now) := by
  cases ho : s.createOrRead p payload now with
  | error f =>
    have hout : (SessionRequest.createOrRead p payload now).perform s = (s,.error f) := by
      simp only [SessionRequest.perform,ho]
      rfl
    refine recordStep_of_same h (by rw [hout]) ?_
    rw [hout]
    intro r hr
    cases hr
  | ok out =>
    obtain ⟨t,o⟩ := out
    have hout : (SessionRequest.createOrRead p payload now).perform s = (t,.ok o) := by
      simp only [SessionRequest.perform,ho]
      rfl
    rcases createOrRead_ok ho with ⟨rfl,hfound⟩ | ⟨generation,reentries,rfl,hinsert,hrows,-⟩
    · refine recordStep_of_same h (by rw [hout]) ?_
      rw [hout]
      intro r hr
      exact mem_of_find (hfound r (toOption_eq_some.mp hr))
    · have hof : OfPacket p (pendingRecord s.base.projectId p payload generation now) := ⟨rfl,rfl⟩
      have hget : t.reentries.get (reentryIdOf p) = some (pendingRecord s.base.projectId p payload generation now) := by
        rw [hrows,get_insert hinsert]
        exact if_pos rfl
      have hrank : t.rank p = 0 := rank_of_get hget
      refine ⟨?_,?_,?_⟩ <;> rw [hout]
      · intro r hr
        rw [hrows,(insert_some hinsert).2] at hr
        rcases List.mem_append.mp hr with hr | hr
        · exact h r hr
        · exact List.mem_singleton.mp hr ▸ hof
      · -- a record that can be created was not there before
        have hnone : s.reentries.get (reentryIdOf p) = none := (insert_some hinsert).1
        simp [SessionStore.rank,hnone]
      · intro r hr
        cases hr
        exact ⟨hof,hrank.symm⟩

theorem readCheckpoint_mem {checkpointId : String} (h : s.readCheckpoint checkpointId = some r) :
    r ∈ s.reentries.rows := by
  unfold SessionStore.readCheckpoint at h
  split at h
  · cases h
  · exact mem_of_find h

theorem recordStep (h : AllOfPacket p s) (q : SessionRequest rt) (hforward : Forward q)
    (hcreate : ∀ p' payload now, q = .createOrRead p' payload now → p' = p) : RecordStep p s q := by
  cases q with
  | send q =>
    refine recordStep_of_same h rfl ?_
    intro r hr
    cases hr
  | createOrRead p' payload now =>
    obtain rfl := hcreate p' payload now rfl
    exact recordStep_createOrRead h
  | readCheckpoint checkpointId => exact recordStep_of_same h rfl fun r hr => readCheckpoint_mem hr
  | existingIntent r now =>
    refine recordStep_of_same h rfl ?_
    intro r hr
    cases hr
  | transition id w => exact recordStep_transition h hforward

/-! ## The lease of the packet -/

def SessionStore.owner (s : SessionStore rt) (p : ContinuationPacket rt) : Option String :=
  (s.base.leaseFor p.resourceId).bind (·.ownerTokenHash)

/-- A re-entry claims, releases and completes the lease of its packet, and calls nothing else
of the leases. -/
def OwnLease (p : ContinuationPacket rt) : SessionRequest rt → Prop
  | .send (.lease (.claim _ p' _ _ _) _) => p' = p
  | .send (.lease (.release p' _ _) _) => p' = p
  | .send (.lease (.complete p' _) _) => p' = p
  | .send (.lease _ _) => False
  | _ => True

theorem leases_kept (h : ∀ call now, q ≠ .send (.lease call now)) :
    (q.perform s).1.base.leases = s.base.leases := by
  cases q with
  | send q => exact leases_of_other q s.base fun call now hq => h call now (congrArg _ hq)
  | createOrRead p payload now =>
    cases ho : s.createOrRead p payload now with
    | error f => simp only [SessionRequest.perform,ho,SessionStore.commit]
    | ok out =>
      simp only [SessionRequest.perform,ho,SessionStore.commit]
      rcases createOrRead_ok (t := out.1) (o := out.2) ho with ⟨hsame,-⟩ | ⟨_,_,-,-,-,hleases⟩
      · rw [hsame]
      · exact hleases
  | readCheckpoint checkpointId | existingIntent r now => rfl
  | transition id w =>
    cases ho : s.transition id w with
    | error f => simp only [SessionRequest.perform,ho,SessionStore.commit]
    | ok out =>
      simp only [SessionRequest.perform,ho,SessionStore.commit]
      rcases transition_ok (t := out.1) (o := out.2) ho with ⟨hsame,-⟩ | ⟨_,-,-,-,-,hleases⟩
      · rw [hsame]
      · exact hleases

theorem lease_row (q : SessionRequest rt) (s : SessionStore rt) (p : ContinuationPacket rt) :
    (q.perform s).1.base.leaseFor p.resourceId = s.base.leaseFor p.resourceId ∨
      ∃ call now l l', q = .send (.lease call now) ∧ RowBefore now s.base call l ∧ LeaseChange now call l l' ∧
        p.resourceId = call.packet.resourceId ∧ (q.perform s).1.base.leaseFor p.resourceId = some l' := by
  by_cases hlease : ∃ call now, q = .send (.lease call now)
  · obtain ⟨call,now,rfl⟩ := hlease
    rcases (lease_outcome call now s.base).row p.resourceId with hsame | ⟨hr,l,l',hbefore,hchange,hafter⟩
    · exact .inl hsame
    · exact .inr ⟨call,now,l,l',rfl,hbefore,hchange,hr,hafter⟩
  · exact .inl (leaseFor_congr (leases_kept fun call now hq => hlease ⟨call,now,hq⟩) _)

def handedOut : SessionEntry rt → Option String
  | ⟨.send (.lease (.claim _ _ _ _ _) _),o⟩ => o.toOption.bind ownerToken
  | _ => none

/-- The token a claim would hand out. -/
def claimToken : SessionRequest rt → Option String
  | .send (.lease (.claim _ _ _ _ token) _) => some token
  | _ => none

theorem owner_before {d : String} (hown : OwnLease p q) (h : (q.perform s).1.owner p = some d) :
    s.owner p = some d ∨ ∃ token ∈ claimToken q, d = tokenDigest rt token := by
  unfold SessionStore.owner at h ⊢
  rcases lease_row q s p with hsame | ⟨call,now,l,l',rfl,hbefore,hchange,hr,hafter⟩
  · rw [hsame] at h
    exact .inl h
  · rw [hafter] at h
    rcases change_hash hchange h with ⟨token,htoken,hd⟩ | hold
    · refine .inr ⟨token,?_,hd⟩
      cases hchange with
      | claimed => exact htoken
      | reclaimed => cases hown
      | _ => cases htoken
    · rcases hbefore with hl | ⟨-,rfl⟩
      · rw [← hr] at hl
        exact .inl (by rw [hl]; exact hold)
      · cases hold

def HandsOutOnly (token : String) (r : ContinuationLeaseResult) : Prop := ∀ token' ∈ r.ownerToken, token' = token

section HandsOut

variable {co : LeaseCoordinator} {db db' : Database} {authority : ContinuationAuthoritySnapshot}
  {l : ContinuationLeaseRecord} {ownerId token : String} {now : DateTime} {res : ContinuationLeaseResult}

theorem handsOutOnly_of_none (h : res.ownerToken = none) : HandsOutOnly token res := by
  intro token' htoken
  rw [h] at htoken
  cases htoken

theorem claim_handsOut (h : (claim co p authority ownerId token now db).2 = .ok res) : HandsOutOnly token res := by
  refine claim_ends (R := fun out => ∀ res, out.2 = .ok res → HandsOutOnly token res) (fun _ _ h => by cases h) ?_ ?_ res h
  · intro refused _ hnone res hres
    cases hres
    exact handsOutOnly_of_none hnone
  · intro base l expires t accepted _ _ _ _ _ htoken res hres token' htoken'
    cases hres
    exact Option.some.inj (htoken'.symm.trans htoken)

end HandsOut

theorem handedOut_claimToken {token : String}
    (h : handedOut ⟨q,(q.perform s).2⟩ = some token) : claimToken q = some token := by
  cases q with
  | send q =>
    cases q with
    | lease call now =>
      cases call with
      | claim co p authority ownerId token' =>
        obtain ⟨res,hres,htoken⟩ := Option.bind_eq_some_iff.mp h
        have hanswer : (claim co p authority ownerId token' now s.base).2 = .ok res := toOption_eq_some.mp hres
        unfold ownerToken at htoken
        split at htoken
        · exact congrArg some (claim_handsOut hanswer token htoken).symm
        · cases htoken
      | _ => cases h
    | _ => cases h
  | _ => cases h

theorem owner_of_begin {a : SendArgs rt} (h : acceptedResult (beginIntent a s.base).2 = true) :
    s.owner a.packet = some (tokenDigest rt a.token) := by
  have hout := begin_outcome a s.base
  generalize beginIntent a s.base = out at hout h
  cases hout with
  | @quiet o hquiet =>
    cases o with
    | error f => cases h
    | ok res =>
      have hrefused := (hquiet res rfl).refused rfl
      rw [show res.accepted = true from h] at hrefused
      cases hrefused
  | wrote hrow hchange hwritten hcounts =>
    obtain rfl := (hcounts.begun rfl).mp h
    cases hchange with
    | attempted hid hown hlease hstatus =>
      obtain ⟨l,hl⟩ := hlease
      unfold Database.liveLeaseCheck at hl
      obtain ⟨_,hl⟩ := rest_ok hl
      obtain ⟨l',hrow,hl⟩ := of_need hl
      obtain ⟨howner,hl⟩ := of_require hl
      unfold SessionStore.owner
      rw [hrow]
      exact howner

end Bdb.Session
