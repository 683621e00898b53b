import Bdb.Continuation.Acknowledge

/-! # Closing calls made again

A lease is closed by release, completion or abandonment. A completed or abandoned lease keeps the digest of
its owner, so the same call is recognised for ever; a released one forgets it.
-/
namespace Bdb.Continuation

open Step ContinuationLeaseResult LeaseWorld

variable {rt : Runtime} {w : LeaseWorld} {e : LeaseEvent rt} {r t : String} {l l' : ContinuationLeaseRecord}
  {db : Database} {now : DateTime} {p : ContinuationPacket rt} {token reason : String}

def LeaseCall.isRelease : LeaseCall rt → Bool
  | .release _ _ _ => true
  | _ => false

def Repeats (c : LeaseCall rt) (now : DateTime) (db : Database) : Prop :=
  ∃ res, c.perform now db = (db,.ok res) ∧ res.accepted = true ∧ res.mutated = false

def LeavesUnclaimed (r : String) (w : LeaseWorld) (e : LeaseEvent rt) : Prop :=
  ∀ c now, e = .call c now → c.packet.resourceId = r → c.issues.isSome = true → accepted (c.perform now w.db).2 = false

/-! ## The project stays -/

theorem registered_next (h : w.db.revision.isSome = true) : (next w e).db.revision.isSome = true := by
  cases e with
  | call c now =>
    have hout := lease_outcome c now w.db
    change (c.perform now w.db).1.revision.isSome = true
    generalize c.perform now w.db = out at hout
    cases hout with
    | quiet => exact h
    | wrote hopened hchange hwritten =>
      obtain ⟨ev,audit,-,-,rfl⟩ := hwritten.logged
      simpa using hwritten.registered
  | wait now => exact h
  | stop q =>
    rcases w.db.stop_cases q with heq | ⟨c,fences,audit,-,-,-,-,heq⟩ <;> simpa only [next,heq] using h
  | resume q =>
    rcases w.db.resume_cases q with heq | ⟨c,c',audit,-,-,-,heq⟩ <;> simpa only [next,heq] using h
  | elsewhere e => exact h

/-! ## Completed and abandoned leases -/

/-- The lease was closed for good by this token. -/
structure ClosedBy (rt : Runtime) (status : LeaseStatus) (r token : String) (db : Database) : Prop where
  shown : tokenDigest rt token ≠ ""
  registered : db.revision.isSome = true
  row : ∃ l, db.leaseFor r = some l ∧ l.ownerTokenHash = some (tokenDigest rt token) ∧ l.status = status

variable {status : LeaseStatus} {write : LeaseWrite}
  {out : Database × Outcome ContinuationLeaseResult}

theorem ClosedBy.next (hfinal : status = .completed ∨ status = .abandoned)
    (h : ClosedBy rt status r t w.db) (e : LeaseEvent rt) : ClosedBy rt status r t (next w e).db := by
  obtain ⟨l,hl,howner,hstatus⟩ := h.row
  refine ⟨h.shown,registered_next h.registered,l,final_next hl ?_,howner,hstatus⟩
  rw [hstatus]
  exact hfinal

/-- An accepted end of a claim leaves the row as it was ended before, or as it is written. -/
theorem EndOfClaim.accepted_row (h : EndOfClaim rt db r token now status write out) (haccepted : accepted out.2 = true) :
    tokenDigest rt token ≠ "" ∧ out.1.revision.isSome = true ∧ ∃ l, db.leaseFor r = some l ∧
      l.ownerTokenHash = some (tokenDigest rt token) ∧
      (out.1.leaseFor r = some l ∧ l.status = status ∨ out.1.leaseFor r = some (write.change l)) := by
  cases h with
  | @refused o h =>
    cases o with
    | error f => cases haccepted
    | ok res => cases haccepted.symm.trans (h res rfl)
  | @again l _ hown hstatus => exact ⟨hown.shown,hown.registered,l,hown.row,hown.owner,.inl ⟨hown.row,hstatus⟩⟩
  | @wrote l _ _ hown _ _ hwritten _ =>
    have hrow := leaseFor_put hown.row (write.keepsLease l) (write.keepsResource l) hwritten.leases
    have hregistered := hwritten.registered
    obtain ⟨ev,audit,-,-,rfl⟩ := hwritten.logged
    exact ⟨hown.shown,by simpa using hregistered,l,hown.row,hown.owner,.inr hrow⟩

theorem EndOfClaim.closes (h : EndOfClaim rt db r token now status write out) (hkeeps : ∀ l, (write.change l).ownerTokenHash = l.ownerTokenHash)
    (hstatus : ∀ l, (write.change l).status = status) (haccepted : accepted out.2 = true) : ClosedBy rt status r token out.1 := by
  obtain ⟨hshown,hregistered,l,-,howner,⟨hrow,hclosed⟩ | hrow⟩ := h.accepted_row haccepted
  · exact ⟨hshown,hregistered,l,hrow,howner,hclosed⟩
  · exact ⟨hshown,hregistered,_,hrow,(hkeeps l).trans howner,hstatus l⟩

theorem complete_closes (h : accepted (complete p token now db).2 = true) :
    ClosedBy rt .completed p.resourceId token (complete p token now db).1 :=
  complete_ends.closes (fun _ => rfl) (fun _ => rfl) h

theorem abandon_closes (h : accepted (abandon p token reason now db).2 = true) :
    ClosedBy rt .abandoned p.resourceId token (abandon p token reason now db).1 :=
  abandon_ends.closes (fun _ => rfl) (fun _ => rfl) h

/-! ## The same call again -/

theorem ownerDigest_of {message : String} (h : tokenDigest rt token ≠ "") :
    ownerDigest rt token message = .ok (tokenDigest rt token) := by
  unfold ownerDigest
  rw [answerUnless_of h]
  rfl

theorem ensureProject_of (h : db.revision.isSome = true) :
    (orRaise db.ensureProject : Step ContinuationLeaseResult Unit) = .ok () :=
  orRaise_ok.mpr (require_of h _ _)

theorem complete_repeats (now : DateTime) (h : ClosedBy rt .completed p.resourceId token db) :
    Repeats (.complete p token) now db := by
  obtain ⟨l,hrow,howner,hstatus⟩ := h.row
  refine ⟨repeated "ALREADY_COMPLETED" "continuation completion is idempotent" l,transaction_of_answer ?_,rfl,rfl⟩
  rw [ownerDigest_of h.shown,ok_bind,ensureProject_of h.registered,ok_bind,ownedRow_of hrow howner,ok_bind,
    answerUnless_answer.mpr ⟨not_not.mpr hstatus,rfl⟩]
  rfl

theorem abandon_repeats (now : DateTime) (h : ClosedBy rt .abandoned p.resourceId token db) :
    Repeats (.abandon p token reason) now db := by
  obtain ⟨l,hrow,howner,hstatus⟩ := h.row
  refine ⟨repeated "ALREADY_ABANDONED" "continuation abandon is idempotent" l,transaction_of_answer ?_,rfl,rfl⟩
  rw [ownerDigest_of h.shown,ok_bind,ensureProject_of h.registered,ok_bind,ownedRow_of hrow howner,ok_bind,
    answerUnless_answer.mpr ⟨not_not.mpr hstatus,rfl⟩]
  rfl

/-! ## Released leases -/

def Ownerless (w : LeaseWorld) : Prop :=
  ∀ r l, w.db.leaseFor r = some l → l.status = .available → l.ownerTokenHash = none

theorem ownerless_next (h : Ownerless w) : Ownerless (next w e) := by
  intro r l hl havailable
  rcases next_row w e r with hsame | ⟨c,now,l₀,l',-,-,hbefore,hchange,hafter⟩
  · exact h r l (hsame.symm.trans hl) havailable
  · obtain rfl := some_unique hl hafter
    cases hchange with
    | claimed | reclaimed => cases havailable
    | renewed hheld =>
      have hclaimed : l₀.status = .claimed := by
        simp only [claimedBy,decide_eq_true_eq] at hheld
        exact hheld.1
      cases hclaimed.symm.trans havailable
    | released => rfl
    | completed | abandoned => cases havailable

def Waiting (r : String) (w : LeaseWorld) : Prop :=
  ∃ l, w.db.leaseFor r = some l ∧ l.status = .available ∧ l.ownerTokenHash = none

theorem waiting_next (h : Waiting r w) (hquiet : LeavesUnclaimed r w e) : Waiting r (next w e) := by
  obtain ⟨l,hl,havailable,howner⟩ := h
  rcases next_row w e r with hsame | ⟨c,now,l₀,l',rfl,hr,hbefore,hchange,hafter⟩
  · exact ⟨l,hsame.trans hl,havailable,howner⟩
  · have hrow : l₀ = l := by
      rcases hbefore with hrow | ⟨hnone,-⟩
      · rw [← hr,hl] at hrow
        exact (Option.some.inj hrow).symm
      · rw [← hr,hl] at hnone
        cases hnone
    subst hrow
    have hfree : ∀ token : String, ¬ claimedBy (tokenDigest rt token) l₀ = true := by
      intro token hheld
      simp only [claimedBy,decide_eq_true_eq,havailable] at hheld
      cases hheld.1
    cases hchange with
    | @claimed co p authority ownerId token _ expires =>
      have hrefused := hquiet _ now rfl hr.symm rfl
      have hout := lease_outcome (.claim co p authority ownerId token) now w.db
      change ((LeaseCall.claim co p authority ownerId token).perform now w.db).1.leaseFor r = some _ at hafter
      generalize (LeaseCall.claim co p authority ownerId token).perform now w.db = out at hout hafter hrefused
      cases hout with
      | quiet =>
        rw [hl] at hafter
        have hstatus := congrArg ContinuationLeaseRecord.status (Option.some.inj hafter)
        cases havailable.symm.trans hstatus
      | wrote _ _ _ haccepted => cases haccepted.symm.trans hrefused
    | reclaimed hheld => cases havailable.symm.trans hheld
    | renewed hheld | released hheld | completed hheld | abandoned hheld => exact absurd hheld (hfree _)

theorem release_waits (hw : Ownerless w) (h : accepted (release p token reason now w.db).2 = true) :
    Waiting p.resourceId (next w (.call (.release p token reason) now)) := by
  obtain ⟨-,-,l,hl,-,⟨hrow,havailable⟩ | hrow⟩ := release_ends.accepted_row h
  · exact ⟨l,hrow,havailable,hw _ l hl havailable⟩
  · exact ⟨_,hrow,rfl,rfl⟩

theorem release_refused (now : DateTime) (h : Waiting p.resourceId w) : ¬ Repeats (.release p token reason) now w.db := by
  obtain ⟨l,hl,-,howner⟩ := h
  rintro ⟨res,hres,haccepted,-⟩
  have hout := lease_outcome (.release p token reason) now w.db
  rw [hres] at hout
  have hforeign : ∀ l', w.db.leaseFor p.resourceId = some l' → l'.ownerTokenHash ≠ some (tokenDigest rt token) := by
    intro l' hl' howner'
    rw [some_unique hl' hl,howner] at howner'
    cases howner'
  generalize hdb : w.db = before at hout hforeign
  cases hout with
  | quiet hquiet =>
    obtain ⟨l',hl',howner',-⟩ := (hquiet res rfl).ended token rfl haccepted
    exact hforeign l' hl' howner'
  | wrote hopened hchange =>
    cases hopened with
    | stored hrow =>
      cases hchange with
      | released hheld =>
        simp only [claimedBy,decide_eq_true_eq] at hheld
        exact hforeign _ hrow hheld.2

/-! ## Every closing call -/

theorem run_append (w : LeaseWorld) (before : List (LeaseEvent rt)) (e : LeaseEvent rt) (more : List (LeaseEvent rt)) :
    run w (before ++ e :: more) = run (next (run w before) e) more := by
  simp only [run,List.foldl_append,List.foldl_cons]

/-- After an accepted completion or abandonment the same call is accepted at any later time without a write;
after an accepted release it is not, as long as nobody claims the lease. -/
theorem closing_replays (db : Database) (clock : DateTime) (before more : List (LeaseEvent rt)) (c : LeaseCall rt)
    (now later : DateTime) (hcloses : c.EndsClaim t) (h : accepted (c.perform now (run (.begin db clock) before).db).2 = true) :
    (c.isRelease = false → Repeats c later (run (.begin db clock) (before ++ .call c now :: more)).db) ∧
      (c.isRelease = true →
        Along next (LeavesUnclaimed c.packet.resourceId) (run (.begin db clock) (before ++ [.call c now])) more →
        ¬ Repeats c later (run (.begin db clock) (before ++ .call c now :: more)).db) := by
  rw [run_append,run_append]
  have hownerless : Ownerless (run (.begin db clock) before) :=
    run_keeps (fun _ _ => ownerless_next) (by intro r l hl; cases hl) before
  have hclosed : ∀ {status r token}, status = .completed ∨ status = .abandoned → ∀ {w : LeaseWorld},
      ClosedBy rt status r token w.db → ClosedBy rt status r token (run w more).db := by
    intro status r token hfinal w hw
    exact run_keeps (I := fun w => ClosedBy rt status r token w.db) (fun _ e h => h.next hfinal e) hw more
  cases c with
  | release p token reason =>
    refine ⟨(by rintro ⟨⟩),fun _ hquiet => release_refused later ?_⟩
    exact Along.invariant (I := Waiting p.resourceId) (fun _ _ h hquiet => waiting_next h hquiet) hquiet (release_waits hownerless h)
  | complete p token => exact ⟨fun _ => complete_repeats later (hclosed (.inl rfl) (complete_closes h)),(by rintro ⟨⟩)⟩
  | abandon p token reason => exact ⟨fun _ => abandon_repeats later (hclosed (.inr rfl) (abandon_closes h)),(by rintro ⟨⟩)⟩
  | claim | reclaim | renew | authorizeEffect => cases hcloses

/-! ## A release and a completion made twice -/

def sampleClaimed : List (LeaseEvent sampleRuntime) :=
  [.call (.claim sampleCoordinator samplePacket sampleAuthority "owner" sampleToken) (sampleTime 1)]

theorem completion_repeats :
    Repeats (.complete samplePacket sampleToken) (sampleTime 900)
      (run (.begin sampleDatabase (sampleTime 0)) (sampleClaimed ++ [.call (.complete samplePacket sampleToken) (sampleTime 2)])).db :=
  (closing_replays sampleDatabase (sampleTime 0) sampleClaimed [] (.complete samplePacket sampleToken) (sampleTime 2) (sampleTime 900)
    rfl (by decide +kernel)).1 rfl

/-- A release made twice is accepted once. -/
theorem release_not_repeated :
    accepted (release samplePacket sampleToken "done" (sampleTime 2) (run (.begin sampleDatabase (sampleTime 0)) sampleClaimed).db).2 =
      true ∧
    ¬ Repeats (.release samplePacket sampleToken "done") (sampleTime 3)
      (run (.begin sampleDatabase (sampleTime 0))
        (sampleClaimed ++ [.call (.release samplePacket sampleToken "done") (sampleTime 2)])).db := by
  have haccepted : accepted (release samplePacket sampleToken "done" (sampleTime 2)
      (run (.begin sampleDatabase (sampleTime 0)) sampleClaimed).db).2 = true := by decide +kernel
  have hownerless : Ownerless (run (.begin sampleDatabase (sampleTime 0)) sampleClaimed) :=
    run_keeps (fun _ _ => ownerless_next) (by intro r l hl; cases hl) sampleClaimed
  refine ⟨haccepted,?_⟩
  rw [run_append]
  exact release_refused _ (release_waits hownerless haccepted)

end Bdb.Continuation
