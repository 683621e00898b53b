import Bdb.Queue.ReadableQueue

/-! # Claims on the pending launch

The clients of the queue compete for one launch. One lemma says what a call can do to
a readable document. From it follow the history of every held claim, the exclusion of
other clients while launch and claim are live, and the persistence of a live launch.
-/
namespace Bdb.Queue

variable {rt : QueueRuntime}

def AcceptedAck (file : QueueFile) (step : Moment rt × Call) : Prop :=
  ∃ launchId claimId file', step.2 = .acknowledge launchId claimId ∧
    runCall step.1 step.2 file = .ok (file',.flag true)

/-- What one call can do to a readable document. -/
inductive Effect (m : Moment rt) (c : Call) (file : QueueFile) (raw : QueueState) : Prop where
  | same (quiet : ¬ AcceptedAck file (m,c)) (hfile : after file (m,c) = file)
  | normal (quiet : ¬ AcceptedAck file (m,c))
      (hfile : readState rt (after file (m,c)) = .ok (keepLive rt m.reading raw))
  | enqueued (request : EnqueueRequest) (l : ProjectLaunch) (hcall : c = .enqueue request)
      (hl : candidate m request = .ok l) (hfree : (keepLive rt m.reading raw).1 = none)
      (hrun : runCall m c file = .ok (some (stateDocument (some l,none)),.launch (some l)))
  | claimed (launchId claimId : String) (leaseSeconds : Int) (expires : DateTime) (pending : ProjectLaunch)
      (hcall : c = .claim launchId claimId leaseSeconds)
      (hexpires : m.started.plus (leaseSeconds.toNat * 1000000) = .ok expires)
      (hnormal : keepLive rt m.reading raw = (some pending,none)) (hid : pending.launchId = launchId)
      (hrun : runCall m c file = .ok (after file (m,c),.launch (some pending)))
      (hfile : readState rt (after file (m,c)) = .ok (some pending,some (newClaim m launchId claimId expires)))
  | acknowledged (launchId claimId : String) (hcall : c = .acknowledge launchId claimId)
      (hholds : holds launchId claimId (keepLive rt m.reading raw) = true)
      (hrun : runCall m c file = .ok (some (stateDocument (none,none)),.flag true))

variable {m : Moment rt} {c : Call} {file file' : QueueFile} {step : Moment rt × Call}
  {done early later : List (Moment rt × Call)} {request : EnqueueRequest} {l : ProjectLaunch}
  {held : ProjectLaunchClaim} {raw state : QueueState} {now : DateTime} {launchId claimId : String}

theorem not_acceptedAck_of_ne (h : ∀ launchId claimId, c ≠ .acknowledge launchId claimId) : ¬ AcceptedAck file (m,c) := by
  rintro ⟨launchId,claimId,file',hc,-⟩
  exact h launchId claimId hc

theorem not_acceptedAck_of_reply {reply : Reply}
    (h : runCall m c file = .ok (file',reply)) (hr : reply ≠ .flag true) : ¬ AcceptedAck file (m,c) := by
  rintro ⟨launchId,claimId,file'',-,hrun⟩
  rw [h] at hrun
  cases hrun
  exact hr rfl

theorem not_acceptedAck_of_error {e : Failure}
    (h : runCall m c file = .error e) : ¬ AcceptedAck file (m,c) := by
  rintro ⟨launchId,claimId,file',-,hrun⟩
  rw [h] at hrun
  cases hrun

section Effects

variable {file : QueueFile} {raw : QueueState} (m : Moment rt) (hread : readState rt file = .ok raw)

include hread

theorem normal_of_writeBack {c : Call} {reply : Reply} (hr : ∀ l k, c ≠ .acknowledge l k ∨ reply ≠ .flag true)
    (h : runCall m c file = .ok (writeBack file raw (keepLive rt m.reading raw),reply)) :
    Effect m c file raw := by
  refine .normal ?_ ?_
  · rintro ⟨launchId,claimId,file',hc,hrun⟩
    rw [h] at hrun
    cases hrun
    rcases hr launchId claimId with hne | hne
    · exact hne hc
    · exact hne rfl
  · rw [after_eq h]
    exact readState_writeBack m hread

theorem claim_effect {launchId claimId : String} {leaseSeconds : Int} {p : QueueFile × Reply}
    (h : runCall m (.claim launchId claimId leaseSeconds) file = .ok p) :
    Effect m (.claim launchId claimId leaseSeconds) file raw := by
  obtain ⟨expires,hexpires,hsound,hp⟩ := claim_ok hread h
  have hafter : after file (m,.claim launchId claimId leaseSeconds) = p.1 := after_eq h
  have hquiet : ¬ AcceptedAck file (m,.claim launchId claimId leaseSeconds) := by
    refine not_acceptedAck_of_ne ?_
    intro l k heq
    cases heq
  rcases claimOn_cases (newClaim m launchId claimId expires) file raw (keepLive rt m.reading raw) with
    hsame | hback | ⟨pending,hnormal,hid,hnew⟩
  · exact .same hquiet (by rw [hafter,hp,hsame])
  · refine .normal hquiet ?_
    rw [hafter,hp,hback]
    exact readState_writeBack m hread
  · have hstate : StateSound rt (some pending,some (newClaim m launchId claimId expires)) := by
      have hkept : StateSound rt (keepLive rt m.reading raw) := keepLive_sound (readState_ok hread)
      rw [hnormal] at hkept
      refine ⟨hkept.pending,?_,?_⟩
      · intro c hc
        cases hc
        exact hsound
      · simp [claimFits,hid]
    have hreply : p.2 = .launch (some pending) := by
      rw [hp,hnormal]
      simp only [claimOn,if_pos hid]
    refine .claimed launchId claimId leaseSeconds expires pending rfl hexpires hnormal hid ?_ ?_
    · rw [hafter,h,← hreply]
    · rw [hafter,hp,hnew]
      exact readState_written hstate

theorem effect_of_call (c : Call) : Effect m c file raw := by
  cases hrun : runCall m c file with
  | error e => exact .same (not_acceptedAck_of_error hrun) (after_error hrun)
  | ok p =>
    have hcall := hrun
    cases c with
    | peek =>
      simp only [runCall,peek] at hrun
      rw [observed_eq m hread] at hrun
      cases hrun
      exact normal_of_writeBack m hread (fun _ _ => .inl (by rintro ⟨⟩)) hcall
    | enqueue request =>
      obtain ⟨file',reply⟩ := p
      obtain ⟨l,hl,⟨raw',hraw',hfree⟩,rfl,rfl⟩ := enqueue_ok.mp hrun
      rw [hread] at hraw'
      cases hraw'
      exact .enqueued request l rfl hl hfree hcall
    | claim launchId claimId leaseSeconds => exact claim_effect m hread hcall
    | acknowledge launchId claimId =>
      simp only [runCall,acknowledge] at hrun
      obtain ⟨_,hrun⟩ := rest_ok hrun
      rw [observed_eq m hread,ok_bind] at hrun
      split at hrun
      · rename_i hholds
        cases hrun
        exact .acknowledged launchId claimId rfl hholds hcall
      · cases hrun
        refine normal_of_writeBack m hread (fun _ _ => .inr ?_) hcall
        intro hflag
        cases hflag
    | claimMatches launchId claimId =>
      simp only [runCall,claimMatches] at hrun
      rw [observed_eq m hread] at hrun
      cases hrun
      exact normal_of_writeBack m hread (fun _ _ => .inl (by rintro ⟨⟩)) hcall

end Effects

theorem readable_of_ok {p : QueueFile × Reply} (h : runCall m c file = .ok p) : Readable rt file := by
  have hobs : ∃ q, observed m file = .ok q := by
    cases c with
    | peek =>
      obtain ⟨q,hq,-⟩ := bind_ok.mp h
      exact ⟨q,hq⟩
    | enqueue request =>
      obtain ⟨_,h⟩ := rest_ok h
      obtain ⟨q,hq,-⟩ := bind_ok.mp h
      exact ⟨q,hq⟩
    | claim launchId claimId leaseSeconds =>
      iterate 3 obtain ⟨_,-,h⟩ := bind_ok.mp h
      obtain ⟨q,hq,-⟩ := bind_ok.mp h
      exact ⟨q,hq⟩
    | acknowledge launchId claimId =>
      obtain ⟨_,h⟩ := rest_ok h
      obtain ⟨q,hq,-⟩ := bind_ok.mp h
      exact ⟨q,hq⟩
    | claimMatches launchId claimId =>
      obtain ⟨q,hq,-⟩ := bind_ok.mp h
      exact ⟨q,hq⟩
  obtain ⟨q,hq⟩ := hobs
  obtain ⟨raw,hraw,-⟩ := bind_ok.mp hq
  exact ⟨raw,hraw⟩

theorem after_unreadable (h : ¬ Readable rt file) (step : Moment rt × Call) :
    after file step = file := by
  obtain ⟨m,c⟩ := step
  cases hrun : runCall m c file with
  | error e => exact after_error hrun
  | ok p => exact absurd (readable_of_ok hrun) h

/-! ## The history of a claim -/

/-- No acknowledgement is accepted along these steps. -/
def Quiet : QueueFile → List (Moment rt × Call) → Prop
  | _, [] => True
  | file, step :: rest => ¬ AcceptedAck file step ∧ Quiet (after file step) rest

theorem quiet_snoc {steps : List (Moment rt × Call)}
    (h : Quiet file steps) (hstep : ¬ AcceptedAck (runCalls file steps) step) :
    Quiet file (steps ++ [step]) := by
  induction steps generalizing file with
  | nil => exact ⟨hstep,trivial⟩
  | cons first rest ih => exact ⟨h.1,ih h.2 hstep⟩

/-- The run enqueued this launch by that call, and has acknowledged nothing since. -/
structure Enqueued (done early later : List (Moment rt × Call)) (m : Moment rt) (request : EnqueueRequest)
    (l : ProjectLaunch) : Prop where
  split : done = early ++ (m,.enqueue request) :: later
  launch : candidate m request = .ok l
  accepted : runCall m (.enqueue request) (runCalls none early) =
    .ok (some (stateDocument (some l,none)),.launch (some l))
  quiet : Quiet (some (stateDocument (some l,none))) later

def ClaimedBy (l : ProjectLaunch) (held : ProjectLaunchClaim) (later : List (Moment rt × Call)) : Prop :=
  ∃ before m leaseSeconds expires rest file',
    later = before ++ (m,.claim l.launchId held.claimId leaseSeconds) :: rest ∧
    runCall m (.claim l.launchId held.claimId leaseSeconds)
      (runCalls (some (stateDocument (some l,none))) before) = .ok (file',.launch (some l)) ∧
    m.started.plus (leaseSeconds.toNat * 1000000) = .ok expires ∧
    held = newClaim m l.launchId held.claimId expires

/-- The launch and the claim of a state go back to calls of the run. -/
def Traced (done : List (Moment rt × Call)) (state : QueueState) : Prop :=
  ∀ l, state.1 = some l → ∃ early later m request, Enqueued done early later m request l ∧
    ∀ held, state.2 = some held → ClaimedBy l held later

theorem Enqueued.runCalls_eq (h : Enqueued done early later m request l) :
    runCalls none done = runCalls (some (stateDocument (some l,none))) later := by
  have hfirst : after (runCalls none early) (m,.enqueue request) = some (stateDocument (some l,none)) :=
    after_eq h.accepted
  rw [h.split,runCalls_append,← hfirst]
  rfl

theorem Enqueued.snoc (h : Enqueued done early later m request l) (hstep : ¬ AcceptedAck (runCalls none done) step) :
    Enqueued (done ++ [step]) early (later ++ [step]) m request l := by
  rw [h.runCalls_eq] at hstep
  exact ⟨by simp [h.split],h.launch,h.accepted,quiet_snoc h.quiet hstep⟩

theorem ClaimedBy.snoc (h : ClaimedBy l held later) (step : Moment rt × Call) : ClaimedBy l held (later ++ [step]) := by
  obtain ⟨before,m,leaseSeconds,expires,rest,file',hsplit,hrun,hexpires,hheld⟩ := h
  exact ⟨before,m,leaseSeconds,expires,rest ++ [step],file',by simp [hsplit],hrun,hexpires,hheld⟩

theorem Traced.snoc (h : Traced done raw) (hstep : ¬ AcceptedAck (runCalls none done) step)
    (hlaunch : ∀ l, state.1 = some l → raw.1 = some l)
    (hclaim : ∀ held, state.2 = some held → raw.2 = some held) : Traced (done ++ [step]) state := by
  intro l hl
  obtain ⟨early,later,m,request,horigin,hheld⟩ := h l (hlaunch l hl)
  refine ⟨early,later ++ [step],m,request,horigin.snoc hstep,?_⟩
  intro held hsome
  exact (hheld held (hclaim held hsome)).snoc step

theorem keepLive_launch (h : (keepLive rt now raw).1 = some l) : raw.1 = some l ∧ live rt now l.expiresAt = true := by
  obtain ⟨pending,claim⟩ := raw
  cases pending with
  | none => cases h
  | some p =>
    unfold keepLive at h
    dsimp only at h
    split at h
    · rename_i hlive
      cases h
      exact ⟨rfl,hlive⟩
    · cases h

theorem keepLive_claim (h : (keepLive rt now raw).2 = some held) : raw.2 = some held ∧ live rt now held.expiresAt = true := by
  obtain ⟨pending,claim⟩ := raw
  cases pending with
  | none => cases h
  | some p =>
    unfold keepLive at h
    dsimp only at h
    split at h
    · have hsome := Option.eq_some_of_filter_eq_some h
      subst hsome
      cases hlive : live rt now held.expiresAt with
      | true => exact ⟨rfl,rfl⟩
      | false => simp [Option.filter,hlive] at h
    · cases h

theorem traced_step (h : Traced done raw) (hread : readState rt (runCalls none done) = .ok raw)
    (hafter : readState rt (after (runCalls none done) (m,c)) = .ok state) :
    Traced (done ++ [(m,c)]) state := by
  cases effect_of_call m hread c with
  | same quiet hfile =>
    rw [hfile,hread] at hafter
    cases hafter
    exact h.snoc quiet (fun _ hl => hl) (fun _ hc => hc)
  | normal quiet hfile =>
    rw [hfile] at hafter
    cases hafter
    exact h.snoc quiet (fun _ hl => (keepLive_launch hl).1) (fun _ hc => (keepLive_claim hc).1)
  | enqueued request l hcall hl hfree hrun =>
    subst hcall
    rw [after_eq hrun] at hafter
    have hwell := (enqueue_readable_iff hl).mp ⟨state,hafter⟩
    have hsound : StateSound rt (some l,none) := by
      refine ⟨?_,?_,rfl⟩
      · intro l' hl'
        cases hl'
        exact candidate_sound hl hwell
      · intro c hc
        cases hc
    rw [readState_written hsound] at hafter
    cases hafter
    intro l' hl'
    cases hl'
    refine ⟨done,[],m,request,⟨rfl,hl,hrun,trivial⟩,?_⟩
    intro held hheld
    cases hheld
  | claimed launchId claimId leaseSeconds expires pending hcall hexpires hnormal hid hrun hfile =>
    subst hcall hid
    rw [hfile] at hafter
    cases hafter
    have hquiet : ¬ AcceptedAck (runCalls none done) (m,.claim pending.launchId claimId leaseSeconds) := by
      refine not_acceptedAck_of_ne ?_
      intro l k heq
      cases heq
    have hpending : raw.1 = some pending := (keepLive_launch (congrArg Prod.fst hnormal)).1
    obtain ⟨early,later,m',request,horigin,-⟩ := h pending hpending
    intro l hl
    cases hl
    refine ⟨early,_,m',request,horigin.snoc hquiet,?_⟩
    intro held hheld
    cases hheld
    rw [horigin.runCalls_eq] at hrun
    exact ⟨later,m,leaseSeconds,expires,[],_,rfl,hrun,hexpires,rfl⟩
  | acknowledged launchId claimId hcall hholds hrun =>
    rw [after_eq hrun,readState_written .empty] at hafter
    cases hafter
    intro l hl
    cases hl

theorem traced_run (done : List (Moment rt × Call))
    (h : readState rt (runCalls none done) = .ok state) : Traced done state := by
  induction done using List.reverseRecOn generalizing state with
  | nil =>
    cases h
    intro l hl
    cases hl
  | append_singleton done step ih =>
    rw [runCalls_append] at h
    change readState rt (after (runCalls none done) step) = .ok state at h
    by_cases hbefore : Readable rt (runCalls none done)
    · obtain ⟨raw,hraw⟩ := hbefore
      exact traced_step (ih hraw) hraw h
    · rw [after_unreadable hbefore] at h
      exact absurd ⟨state,h⟩ hbefore

/-! ## Exclusion -/

/-- The arguments that a claim call checks before it reads the queue. -/
structure ClaimArguments (m : Moment rt) (launchId claimId : String) (leaseSeconds : Int) : Prop where
  lease : 0 < leaseSeconds ∧ leaseSeconds ≤ 600
  launchId : isUuidText rt.uuidTable launchId = true
  claimId : isUuidText rt.uuidTable claimId = true
  inRange : m.started.val + leaseSeconds.toNat * 1000000 < dateTimeLimit

theorem checkedIds_of {code : String} (hlaunch : isUuidText rt.uuidTable launchId = true)
    (hclaim : isUuidText rt.uuidTable claimId = true) : checkedIds rt code launchId claimId = .ok () := by
  unfold checkedIds
  rw [recode_ok.mpr (uuidText_of hlaunch _),ok_bind,recode_ok.mpr (uuidText_of hclaim _)]
  rfl

section Exclusion

variable {m : Moment rt} {file : QueueFile} {l : ProjectLaunch} {held : ProjectLaunchClaim}
  (hread : readState rt file = .ok (some l,some held)) (hlaunch : live rt m.reading l.expiresAt = true)
  (hclaim : live rt m.reading held.expiresAt = true)

include hlaunch hclaim in
theorem keepLive_of_live : keepLive rt m.reading (some l,some held) = (some l,some held) := by
  simp [keepLive,hlaunch,Option.filter,hclaim]

include hread in
theorem held_launchId : held.launchId = l.launchId := by
  have hfits := (readState_ok hread).fits
  simpa [claimFits] using hfits

include hread hlaunch hclaim

theorem claim_excluded {launchId claimId : String} {leaseSeconds : Int} :
    (ClaimArguments m launchId claimId leaseSeconds →
      runCall m (.claim launchId claimId leaseSeconds) file =
        .ok (file,.launch (if launchId = l.launchId ∧ claimId = held.claimId then some l else none))) ∧
    after file (m,.claim launchId claimId leaseSeconds) = file := by
  have hkeep := keepLive_of_live (m := m) hlaunch hclaim
  have hsame := held_launchId hread
  have hon : ∀ expires, claimOn (newClaim m launchId claimId expires) file (some l,some held)
      (some l,some held) =
        (file,.launch (if launchId = l.launchId ∧ claimId = held.claimId then some l else none)) := by
    intro expires
    unfold claimOn newClaim
    dsimp only
    by_cases hid : l.launchId = launchId
    · by_cases hholder : held.claimId = claimId
      · simp [hid,hholder,hsame]
      · have hother : ¬ claimId = held.claimId := fun h => hholder h.symm
        simp [hid,hholder,hother]
    · have hother : ¬ launchId = l.launchId := fun h => hid h.symm
      simp [writeBack,hid,hother]
  constructor
  · intro hargs
    simp only [runCall,claim]
    rw [require_of hargs.lease,ok_bind,checkedIds_of hargs.launchId hargs.claimId,ok_bind,DateTime.plus,
      dif_pos hargs.inRange,ok_bind,observed_eq m hread,ok_bind,hkeep]
    exact congrArg Except.ok (hon _)
  · cases hrun : runCall m (.claim launchId claimId leaseSeconds) file with
    | error e => exact after_error hrun
    | ok p =>
      obtain ⟨expires,-,-,hp⟩ := claim_ok hread hrun
      rw [hkeep,hon expires] at hp
      exact (after_eq (show runCall m (.claim launchId claimId leaseSeconds) file = .ok (p.1,p.2) from hrun)).trans
        (congrArg Prod.fst hp)

theorem acknowledge_excluded {launchId claimId : String}
    (hother : ¬ (launchId = l.launchId ∧ claimId = held.claimId)) :
    ¬ AcceptedAck file (m,.acknowledge launchId claimId) ∧
      after file (m,.acknowledge launchId claimId) = file := by
  have hkeep := keepLive_of_live (m := m) hlaunch hclaim
  have hholds : holds launchId claimId (some l,some held) = false := by
    cases hh : holds launchId claimId (some l,some held) with
    | false => rfl
    | true =>
      simp only [holds,Bool.and_eq_true,beq_iff_eq] at hh
      exact absurd ⟨hh.1.1.symm,hh.2.symm⟩ hother
  cases hrun : runCall m (.acknowledge launchId claimId) file with
  | error e => exact ⟨not_acceptedAck_of_error hrun,after_error hrun⟩
  | ok p =>
    have hcall := hrun
    simp only [runCall,acknowledge] at hrun
    obtain ⟨_,hrun⟩ := rest_ok hrun
    rw [observed_eq m hread,ok_bind,hkeep] at hrun
    simp only [hholds,Bool.false_eq_true,if_false,writeBack,ne_eq,not_true_eq_false] at hrun
    cases hrun
    refine ⟨not_acceptedAck_of_reply hcall ?_,after_eq hcall⟩
    intro hflag
    cases hflag

theorem acknowledge_accepted :
    runCall m (.acknowledge l.launchId held.claimId) file =
      .ok (some (stateDocument (none,none)),.flag true) := by
  have hkeep := keepLive_of_live (m := m) hlaunch hclaim
  have hsound := readState_ok hread
  have hholds : holds l.launchId held.claimId (some l,some held) = true := by
    simp [holds,held_launchId hread]
  simp only [runCall,acknowledge]
  rw [checkedIds_of (hsound.pending l rfl).launchId (hsound.claim held rfl).claimId,ok_bind,
    observed_eq m hread,ok_bind,hkeep]
  simp only [hholds,if_true]
  rfl

end Exclusion

theorem launch_persists {claim : Option ProjectLaunchClaim} (hread : readState rt file = .ok (some l,claim))
    (hlive : live rt m.reading l.expiresAt = true) :
    (∃ claim', readState rt (after file (m,c)) = .ok (some l,claim')) ∨ AcceptedAck file (m,c) := by
  have hkept : keepLive rt m.reading (some l,claim) =
      (some l,claim.filter (fun c => live rt m.reading c.expiresAt)) := by
    simp [keepLive,hlive]
  cases effect_of_call m hread c with
  | same quiet hfile =>
    left
    rw [hfile]
    exact ⟨claim,hread⟩
  | normal quiet hfile =>
    left
    rw [hfile,hkept]
    exact ⟨_,rfl⟩
  | enqueued request l' hcall hl hfree hrun =>
    rw [hkept] at hfree
    cases hfree
  | claimed launchId claimId leaseSeconds expires pending hcall hexpires hnormal hid hrun hfile =>
    left
    rw [hnormal] at hkept
    have hpending : pending = l := Option.some.inj (congrArg Prod.fst hkept)
    rw [← hpending]
    exact ⟨_,hfile⟩
  | acknowledged launchId claimId hcall hholds hrun =>
    right
    exact ⟨launchId,claimId,_,hcall,hrun⟩

theorem acceptedAck_holder (h : runCall m (.acknowledge launchId claimId) file = .ok (file',.flag true)) :
    ∃ l held, readState rt file = .ok (some l,some held) ∧ l.launchId = launchId ∧
      held.launchId = launchId ∧ held.claimId = claimId ∧ live rt m.reading l.expiresAt = true ∧
      live rt m.reading held.expiresAt = true := by
  obtain ⟨raw,hraw⟩ := readable_of_ok h
  simp only [runCall,acknowledge] at h
  obtain ⟨_,h⟩ := rest_ok h
  rw [observed_eq m hraw,ok_bind] at h
  split at h
  · rename_i hholds
    cases hn : keepLive rt m.reading raw with
    | mk pending claim =>
      cases pending with
      | none => simp [hn,holds] at hholds
      | some l =>
        cases claim with
        | none => simp [hn,holds] at hholds
        | some held =>
          simp only [hn,holds,Bool.and_eq_true,beq_iff_eq] at hholds
          obtain ⟨hl,hlive⟩ := keepLive_launch (congrArg Prod.fst hn)
          obtain ⟨hc,hclive⟩ := keepLive_claim (congrArg Prod.snd hn)
          have hpair : raw = (some l,some held) := Prod.ext hl hc
          rw [hpair] at hraw
          exact ⟨l,held,hraw,hholds.1.1,hholds.1.2,hholds.2,hlive,hclive⟩
  · cases h

/-- In every run: while the pending launch and its claim are live only the holder gets the
launch or acknowledges it, and no other call changes the document; an accepted
acknowledgement goes back to one enqueue, with no other acknowledgement in between, and
to a claim by the same identity; a live launch leaves the queue by that acknowledgement
only. -/
theorem launch_claims_are_exclusive (done : List (Moment rt × Call)) (m : Moment rt) :
    (∀ l held, readState rt (runCalls none done) = .ok (some l,some held) →
      live rt m.reading l.expiresAt = true → live rt m.reading held.expiresAt = true →
      (∀ launchId claimId leaseSeconds,
        (ClaimArguments m launchId claimId leaseSeconds →
          runCall m (.claim launchId claimId leaseSeconds) (runCalls none done) = .ok (runCalls none done,
            .launch (if launchId = l.launchId ∧ claimId = held.claimId then some l else none))) ∧
        after (runCalls none done) (m,.claim launchId claimId leaseSeconds) = runCalls none done) ∧
      runCall m (.acknowledge l.launchId held.claimId) (runCalls none done) =
        .ok (some (stateDocument (none,none)),.flag true) ∧
      ∀ launchId claimId, ¬ (launchId = l.launchId ∧ claimId = held.claimId) →
        ¬ AcceptedAck (runCalls none done) (m,.acknowledge launchId claimId) ∧
        after (runCalls none done) (m,.acknowledge launchId claimId) = runCalls none done) ∧
    (∀ launchId claimId file',
      runCall m (.acknowledge launchId claimId) (runCalls none done) = .ok (file',.flag true) →
      ∃ l held early later m' request, l.launchId = launchId ∧ held.claimId = claimId ∧
        live rt m.reading l.expiresAt = true ∧ live rt m.reading held.expiresAt = true ∧
        Enqueued done early later m' request l ∧ ClaimedBy l held later) ∧
    (∀ c l claim, readState rt (runCalls none done) = .ok (some l,claim) →
      live rt m.reading l.expiresAt = true →
      (∃ claim', readState rt (after (runCalls none done) (m,c)) = .ok (some l,claim')) ∨
        AcceptedAck (runCalls none done) (m,c)) ∧
    (∀ c, ¬ Readable rt (runCalls none done) → after (runCalls none done) (m,c) = runCalls none done) := by
  refine ⟨?_,?_,?_,?_⟩
  · intro l held hread hlaunch hclaim
    refine ⟨?_,acknowledge_accepted hread hlaunch hclaim,?_⟩
    · intro launchId claimId leaseSeconds
      exact claim_excluded hread hlaunch hclaim
    · intro launchId claimId hother
      exact acknowledge_excluded hread hlaunch hclaim hother
  · intro launchId claimId file' hack
    obtain ⟨l,held,hread,hl,-,hc,hlaunch,hclaim⟩ := acceptedAck_holder hack
    obtain ⟨early,later,m',request,horigin,hheld⟩ := traced_run done hread l rfl
    exact ⟨l,held,early,later,m',request,hl,hc,hlaunch,hclaim,horigin,hheld held rfl⟩
  · intro c l claim hread hlive
    exact launch_persists hread hlive
  · intro c hunread
    exact after_unreadable hunread (m,c)

/-! ## A claim that outlives its launch -/

def sampleLaunchId : String := "123e4567-e89b-12d3-a456-426614174000"
def sampleClaimId : String := "123e4567-e89b-12d3-a456-42661417400a"
def otherClaimId : String := "123e4567-e89b-12d3-a456-42661417400b"

/-- Two minutes later. -/
def laterMoment : Moment sampleQueueRuntime :=
  ⟨⟨63850000120000000,by decide⟩,⟨63850000120000000,by decide⟩,le_rfl,sampleLaunchId,by decide +kernel⟩

def longClaim : List (Moment sampleQueueRuntime × Call) :=
  [(sampleMoment,.enqueue ⟨"bdb","hello",false,1,some sampleLaunchId,⟨none,none,none,none,none,none,none⟩⟩),
    (sampleMoment,.claim sampleLaunchId sampleClaimId 600)]

/-- The document holds a live claim by another identity than the given one. -/
def heldByOther (m : Moment sampleQueueRuntime) (claimId : String) (file : QueueFile) : Bool :=
  match readState sampleQueueRuntime file with
  | .ok (_,some held) => live sampleQueueRuntime m.reading held.expiresAt && held.claimId != claimId
  | _ => false

/-- The claim is still live, yet a claim call by another identity changes the document,
because the launch has expired. -/
theorem expired_launch_ends_claim :
    heldByOther laterMoment otherClaimId (runCalls none longClaim) = true ∧
      after (runCalls none longClaim) (laterMoment,.claim sampleLaunchId otherClaimId 30) ≠
        runCalls none longClaim := by
  constructor
  all_goals decide +kernel

end Bdb.Queue
