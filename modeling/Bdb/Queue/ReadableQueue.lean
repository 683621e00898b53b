import Bdb.Queue.Documents

/-! # When the queue stays readable

Every operation other than an enqueue leaves a document that the reader takes. An
enqueue stores its arguments unchecked, so the document stays readable exactly when
each enqueue that finds the queue free passes the reader's checks itself.
-/
namespace Bdb.Queue

variable {rt : QueueRuntime}

/-! ## What has not expired -/

/-- The timestamp lies after the clock reading. -/
def live (rt : QueueRuntime) (now : DateTime) (expiresAt : String) : Bool :=
  match parseUtc rt (.str expiresAt) "expires_at" with
  | .ok expires => decide (now < expires)
  | .error _ => false

def keepLive (rt : QueueRuntime) (now : DateTime) (state : QueueState) : QueueState :=
  match state with
  | (none,_) => (none,none)
  | (some l,claim) =>
    if live rt now l.expiresAt then (some l,claim.filter (fun c => live rt now c.expiresAt)) else (none,none)

variable {now : DateTime} {state raw : QueueState} {m : Moment rt} {r : EnqueueRequest}
  {l : ProjectLaunch} {file file' : QueueFile} {reply : Reply} {c : Call}
  {launchId claimId : String}

theorem live_iff {u : DateTime} {s : String} (h : ∀ field, parseUtc rt (.str s) field = .ok u) :
    live rt now s = true ↔ now < u := by
  simp [live,h "expires_at"]

theorem claimExpired_eq {c : ProjectLaunchClaim} (h : c.Sound rt) :
    claimExpired rt now (some c) = .ok (!live rt now c.expiresAt) := by
  obtain ⟨-,u,-,hu,-⟩ := h.times
  have hlive : live rt now c.expiresAt = decide (now < u) := by
    simp [live,hu "expires_at"]
  simp only [claimExpired]
  rw [hu,ok_bind,hlive]
  by_cases hlt : now < u
  · simp [pure,Except.pure,hlt]
  · simp [pure,Except.pure,not_lt.mp hlt]

theorem normalizeExpiry_eq (h : StateSound rt state) :
    normalizeExpiry rt now state = .ok (keepLive rt now state) := by
  obtain ⟨pending,claim⟩ := state
  cases pending with
  | none => rfl
  | some l =>
    obtain ⟨-,u,-,hu,-⟩ := (h.pending l rfl).times
    simp only [normalizeExpiry,keepLive]
    rw [hu,ok_bind]
    by_cases hlive : now < u
    · rw [if_neg (not_le.mpr hlive),if_pos ((live_iff hu).mpr hlive)]
      cases claim with
      | none => rfl
      | some c =>
        rw [claimExpired_eq (h.claim c rfl),ok_bind]
        cases hkeep : live rt now c.expiresAt <;> simp [pure,Except.pure,Option.filter,hkeep]
    · have hdead : ¬ live rt now l.expiresAt = true := fun hl => hlive ((live_iff hu).mp hl)
      rw [if_pos (not_lt.mp hlive),if_neg hdead]
      rfl

theorem keepLive_sound (h : StateSound rt state) :
    StateSound rt (keepLive rt now state) := by
  obtain ⟨pending,claim⟩ := state
  cases pending with
  | none => exact .empty
  | some l =>
    unfold keepLive
    dsimp only
    split
    · refine ⟨h.pending,?_,?_⟩
      · intro c hc
        exact h.claim c (Option.eq_some_of_filter_eq_some hc)
      · cases hc : claim.filter (fun c => live rt now c.expiresAt) with
        | none => rfl
        | some c =>
          have hfits := h.fits
          rw [Option.eq_some_of_filter_eq_some hc] at hfits
          exact hfits
    · exact .empty

section Specs

variable {file : QueueFile} {raw : QueueState} (m : Moment rt) (hread : readState rt file = .ok raw)

include hread

theorem observed_eq : observed m file = .ok (raw,keepLive rt m.reading raw) := by
  unfold observed
  rw [hread,ok_bind,normalizeExpiry_eq (readState_ok hread)]
  rfl

theorem readState_writeBack :
    readState rt (writeBack file raw (keepLive rt m.reading raw)) = .ok (keepLive rt m.reading raw) := by
  unfold writeBack
  split
  · exact readState_written (keepLive_sound (readState_ok hread))
  · rename_i hsame
    rw [not_not.mp hsame]
    exact hread

end Specs

/-! ## New launches -/

/-- The arguments of an enqueue pass the checks of the reader. -/
structure EnqueueRequest.WellFormed (rt : QueueRuntime) (r : EnqueueRequest) : Prop where
  launchId : ∀ s, r.launchId = some s → s ≠ "" → isUuidText rt.uuidTable s = true
  repoAlias : matchesAlias r.repoAlias = true
  prompt : r.prompt ≠ "" ∧ r.prompt.length ≤ maxProjectPromptChars
  metadata : r.metadata.Bounded

/-- The lifetime is in bounds and the queue holds no live launch. -/
structure Admits (m : Moment rt) (r : EnqueueRequest) (file : QueueFile) : Prop where
  ttl : 0 < r.ttlMinutes ∧ r.ttlMinutes ≤ 1440
  inRange : m.started.val + r.ttlMinutes.toNat * 60000000 < dateTimeLimit
  free : ∃ raw, readState rt file = .ok raw ∧ (keepLive rt m.reading raw).1 = none

def newLaunchId (m : Moment rt) (r : EnqueueRequest) : String := (r.launchId.filter (· ≠ "")).getD m.uuid

theorem newLaunchId_isUuid :
    isUuidText rt.uuidTable (newLaunchId m r) = true ↔
      ∀ s, r.launchId = some s → s ≠ "" → isUuidText rt.uuidTable s = true := by
  unfold newLaunchId
  cases hid : r.launchId with
  | none => simpa using m.isUuid
  | some s =>
    by_cases hs : s = ""
    · simp [Option.filter,hs,m.isUuid]
    · simp [Option.filter,hs]

theorem candidate_ok :
    candidate m r = .ok l ↔ (0 < r.ttlMinutes ∧ r.ttlMinutes ≤ 1440) ∧
      ∃ h : m.started.val + r.ttlMinutes.toNat * 60000000 < dateTimeLimit,
        l = ⟨newLaunchId m r,r.repoAlias,r.prompt,r.autoSend,utcText m.started,
          utcText ⟨m.started.val + r.ttlMinutes.toNat * 60000000,h⟩,r.metadata⟩ := by
  unfold candidate
  constructor
  · intro h
    obtain ⟨_,httl,h⟩ := bind_ok.mp h
    obtain ⟨expires,hplus,h⟩ := bind_ok.mp h
    obtain rfl := pure_ok.mp h
    have hval := DateTime.plus_ok hplus
    refine ⟨require_ok.mp httl,hval ▸ expires.isLt,?_⟩
    have hexpires : expires = ⟨m.started.val + r.ttlMinutes.toNat * 60000000,hval ▸ expires.isLt⟩ :=
      Fin.ext hval
    rw [← hexpires]
    rfl
  · rintro ⟨httl,h,rfl⟩
    rw [require_of httl,ok_bind,DateTime.plus,dif_pos h,ok_bind]
    rfl

theorem candidate_sound (h : candidate m r = .ok l) (hr : r.WellFormed rt) : l.Sound rt := by
  obtain ⟨httl,hrange,rfl⟩ := candidate_ok.mp h
  refine ⟨newLaunchId_isUuid.mpr hr.launchId,hr.repoAlias,hr.prompt,?_,hr.metadata⟩
  refine ⟨m.started,_,parseUtc_utcText m.started,parseUtc_utcText _,?_⟩
  have hpos : 0 < r.ttlMinutes.toNat := by omega
  exact Fin.lt_def.mpr (Nat.lt_add_of_pos_right (by omega))

theorem wellFormed_of_read {l' : ProjectLaunch}
    (h : candidate m r = .ok l) (hread : launchFromDict rt l.toDict = .ok l') : r.WellFormed rt := by
  obtain ⟨_,_,hl⟩ := candidate_ok.mp h
  change launchFromFields rt l.toDict.fields = .ok l' at hread
  have hid : Fields.get l.toDict.fields "launch_id" = .str l.launchId := rfl
  have halias : Fields.get l.toDict.fields "repo_alias" = .str l.repoAlias := rfl
  have hprompt : Fields.get l.toDict.fields "prompt" = .str l.prompt := rfl
  unfold launchFromFields at hread
  rw [hid,halias,hprompt,textOf_str,textOf_str] at hread
  obtain ⟨_,hread⟩ := rest_ok hread
  obtain ⟨_,huuid,hread⟩ := bind_ok.mp hread
  obtain ⟨hmatch,hread⟩ := of_require hread
  obtain ⟨hbound,hread⟩ := of_require hread
  iterate 4 obtain ⟨_,-,hread⟩ := bind_ok.mp hread
  obtain ⟨_,hmeta,-⟩ := bind_ok.mp hread
  obtain ⟨hsame,hvalid⟩ := uuidText_ok huuid
  have hbounded := bounded_of_metadataFrom hmeta
  cases hsame
  subst hl
  exact ⟨newLaunchId_isUuid.mp hvalid,hmatch,hbound,hbounded⟩

/-! ## Steps and runs -/

def Readable (rt : QueueRuntime) (file : QueueFile) : Prop := ∃ state, readState rt file = .ok state

/-- An enqueue that will store its launch passes the checks of the reader. -/
def StepSafe (file : QueueFile) (step : Moment rt × Call) : Prop :=
  ∀ request, step.2 = .enqueue request → Admits step.1 request file → request.WellFormed rt

theorem readable_writeBack (m : Moment rt)
    (hread : readState rt file = .ok raw) : Readable rt (writeBack file raw (keepLive rt m.reading raw)) :=
  ⟨_,readState_writeBack m hread⟩

theorem enqueue_ok :
    enqueue m r file = .ok (file',reply) ↔ ∃ l, candidate m r = .ok l ∧
      (∃ raw, readState rt file = .ok raw ∧ (keepLive rt m.reading raw).1 = none) ∧
      file' = some (stateDocument (some l,none)) ∧ reply = .launch (some l) := by
  constructor
  · intro h
    unfold enqueue at h
    obtain ⟨l,hl,h⟩ := bind_ok.mp h
    obtain ⟨p,hobs,h⟩ := bind_ok.mp h
    obtain ⟨raw,hraw,-⟩ := bind_ok.mp hobs
    rw [observed_eq m hraw] at hobs
    cases hobs
    obtain ⟨_,hfree,h⟩ := bind_ok.mp h
    cases pure_ok.mp h
    exact ⟨l,hl,⟨raw,hraw,require_ok.mp hfree⟩,rfl,rfl⟩
  · rintro ⟨l,hl,⟨raw,hraw,hfree⟩,rfl,rfl⟩
    unfold enqueue
    rw [hl,ok_bind,observed_eq m hraw,ok_bind]
    dsimp only
    rw [require_of hfree]
    rfl

theorem admits_of_candidate (hl : candidate m r = .ok l)
    (hfree : ∃ raw, readState rt file = .ok raw ∧ (keepLive rt m.reading raw).1 = none) :
    Admits m r file := by
  obtain ⟨httl,hrange,-⟩ := candidate_ok.mp hl
  exact ⟨httl,hrange,hfree⟩

theorem enqueue_of_admits (h : Admits m r file) :
    ∃ l, candidate m r = .ok l ∧
      enqueue m r file = .ok (some (stateDocument (some l,none)),.launch (some l)) := by
  have hl := candidate_ok.mpr ⟨h.ttl,h.inRange,rfl⟩
  exact ⟨_,hl,enqueue_ok.mpr ⟨_,hl,h.free,rfl,rfl⟩⟩

theorem enqueue_readable_iff (hl : candidate m r = .ok l) :
    Readable rt (some (stateDocument (some l,none))) ↔ r.WellFormed rt := by
  constructor
  · rintro ⟨state,hstate⟩
    change readDocument rt (stateDocument (some l,none)).fields = .ok state at hstate
    unfold readDocument at hstate
    obtain ⟨_,hstate⟩ := rest_ok hstate
    obtain ⟨_,hparts,-⟩ := bind_ok.mp hstate
    obtain ⟨pending,hpending,-⟩ := bind_ok.mp (recode_ok.mp hparts)
    have hget : Fields.get (stateDocument (some l,none)).fields "pending" = l.toDict := rfl
    rw [hget] at hpending
    cases hread : launchFromDict rt l.toDict with
    | error e =>
      have hpart : readPart (launchFromDict rt) l.toDict = (launchFromDict rt l.toDict).map some := rfl
      rw [hpart,hread] at hpending
      cases hpending
    | ok l' => exact wellFormed_of_read hl hread
  · intro hr
    refine ⟨_,readState_written ⟨?_,?_,rfl⟩⟩
    · intro l' hl'
      cases hl'
      exact candidate_sound hl hr
    · intro c hc
      cases hc

theorem after_eq (h : runCall m c file = .ok (file',reply)) : after file (m,c) = file' := by
  simp only [after,h]

theorem after_error {e : Failure} (h : runCall m c file = .error e) : after file (m,c) = file := by
  simp only [after,h]

theorem checkedIds_ok {code : String} {u : Unit} (h : checkedIds rt code launchId claimId = .ok u) :
    isUuidText rt.uuidTable launchId = true ∧ isUuidText rt.uuidTable claimId = true := by
  unfold checkedIds at h
  obtain ⟨_,hlaunch,h⟩ := bind_ok.mp h
  obtain ⟨_,hclaim,-⟩ := bind_ok.mp h
  obtain ⟨hl,hlaunchId⟩ := uuidText_ok (recode_ok.mp hlaunch)
  obtain ⟨hc,hclaimId⟩ := uuidText_ok (recode_ok.mp hclaim)
  cases hl
  cases hc
  exact ⟨hlaunchId,hclaimId⟩

def newClaim (m : Moment rt) (launchId claimId : String) (expires : DateTime) : ProjectLaunchClaim :=
  ⟨claimId,launchId,utcText m.started,utcText expires⟩

theorem claim_ok {leaseSeconds : Int} {r : QueueFile × Reply} (hread : readState rt file = .ok raw)
    (h : claim m launchId claimId leaseSeconds file = .ok r) :
    ∃ expires, m.started.plus (leaseSeconds.toNat * 1000000) = .ok expires ∧
      (newClaim m launchId claimId expires).Sound rt ∧
      r = claimOn (newClaim m launchId claimId expires) file raw (keepLive rt m.reading raw) := by
  unfold claim at h
  obtain ⟨hlease,h⟩ := of_require h
  obtain ⟨_,hids,h⟩ := bind_ok.mp h
  obtain ⟨expires,hexpires,h⟩ := bind_ok.mp h
  rw [observed_eq m hread,ok_bind] at h
  obtain ⟨hlaunch,hclaim⟩ := checkedIds_ok hids
  have hbounds := hlease
  refine ⟨expires,hexpires,⟨hclaim,hlaunch,?_⟩,(pure_ok.mp h).symm⟩
  refine ⟨m.started,expires,parseUtc_utcText m.started,parseUtc_utcText expires,?_⟩
  rw [Fin.lt_def,DateTime.plus_ok hexpires]
  omega

theorem claimOn_cases (claimed : ProjectLaunchClaim) (file : QueueFile) (raw normalized : QueueState) :
    (claimOn claimed file raw normalized).1 = file ∨
    (claimOn claimed file raw normalized).1 = writeBack file raw normalized ∨
    ∃ pending, normalized = (some pending,none) ∧ pending.launchId = claimed.launchId ∧
      (claimOn claimed file raw normalized).1 = some (stateDocument (some pending,some claimed)) := by
  obtain ⟨pending,held⟩ := normalized
  cases pending with
  | none => exact .inr (.inl rfl)
  | some l =>
    by_cases hid : l.launchId = claimed.launchId
    · cases held with
      | none =>
        refine .inr (.inr ⟨l,rfl,hid,?_⟩)
        simp only [claimOn,if_pos hid]
      | some c =>
        left
        simp only [claimOn,if_pos hid]
        split <;> rfl
    · right
      left
      simp only [claimOn,if_neg hid]

theorem runCall_readable (hread : readState rt file = .ok raw) (hc : ∀ request, c ≠ .enqueue request)
    (h : runCall m c file = .ok (file',reply)) : Readable rt file' := by
  cases c with
  | peek =>
    simp only [runCall,peek] at h
    rw [observed_eq m hread] at h
    cases h
    exact readable_writeBack m hread
  | enqueue request => exact absurd rfl (hc request)
  | claim launchId claimId leaseSeconds =>
    obtain ⟨expires,-,hsound,hr⟩ := claim_ok hread h
    have hfile : file' = (claimOn (newClaim m launchId claimId expires) file raw
        (keepLive rt m.reading raw)).1 := congrArg Prod.fst hr
    rcases claimOn_cases (newClaim m launchId claimId expires) file raw (keepLive rt m.reading raw) with
      hsame | hback | ⟨pending,hnorm,hid,hnew⟩
    · rw [hfile,hsame]
      exact ⟨raw,hread⟩
    · rw [hfile,hback]
      exact readable_writeBack m hread
    · have hnormal : StateSound rt (keepLive rt m.reading raw) := keepLive_sound (readState_ok hread)
      rw [hnorm] at hnormal
      rw [hfile,hnew]
      refine ⟨_,readState_written ⟨hnormal.pending,?_,?_⟩⟩
      · intro c hc
        cases hc
        exact hsound
      · simp [claimFits,hid]
  | acknowledge launchId claimId =>
    simp only [runCall,acknowledge] at h
    obtain ⟨_,h⟩ := rest_ok h
    rw [observed_eq m hread,ok_bind] at h
    split at h
    · cases h
      exact ⟨_,readState_written .empty⟩
    · cases h
      exact readable_writeBack m hread
  | claimMatches launchId claimId =>
    simp only [runCall,claimMatches] at h
    rw [observed_eq m hread] at h
    cases h
    exact readable_writeBack m hread

theorem after_readable_iff (h : Readable rt file) (step : Moment rt × Call) :
    Readable rt (after file step) ↔ StepSafe file step := by
  obtain ⟨raw,hraw⟩ := h
  obtain ⟨m,c⟩ := step
  by_cases henqueue : ∃ r, c = .enqueue r
  · obtain ⟨r,rfl⟩ := henqueue
    cases hrun : enqueue m r file with
    | error e =>
      rw [after_error (show runCall m (.enqueue r) file = .error e from hrun)]
      refine ⟨?_,fun _ => ⟨raw,hraw⟩⟩
      intro _ request hrequest hadmits
      cases hrequest
      obtain ⟨l,-,hok⟩ := enqueue_of_admits hadmits
      rw [hok] at hrun
      cases hrun
    | ok p =>
      obtain ⟨l,hl,hfree,hfile,-⟩ := enqueue_ok.mp (show enqueue m r file = .ok (p.1,p.2) from hrun)
      rw [after_eq (show runCall m (.enqueue r) file = .ok (p.1,p.2) from hrun),hfile,
        enqueue_readable_iff hl]
      refine ⟨?_,fun hsafe => hsafe r rfl (admits_of_candidate hl hfree)⟩
      intro hr request hrequest _
      cases hrequest
      exact hr
  · have hc : ∀ request, c ≠ .enqueue request := fun r hr => henqueue ⟨r,hr⟩
    refine ⟨fun _ request hr => absurd hr (hc request),fun _ => ?_⟩
    cases hrun : runCall m c file with
    | error e =>
      rw [after_error hrun]
      exact ⟨raw,hraw⟩
    | ok p =>
      rw [after_eq (show runCall m c file = .ok (p.1,p.2) from hrun)]
      exact runCall_readable hraw hc hrun

theorem runCalls_append (file : QueueFile) (done rest : List (Moment rt × Call)) :
    runCalls file (done ++ rest) = runCalls (runCalls file done) rest := List.foldl_append

/-- From a missing file, every document of a run is readable exactly when every step of
the run is safe in the document it starts from. -/
theorem queue_readable_iff_safe (steps : List (Moment rt × Call)) :
    (∀ done rest, steps = done ++ rest → Readable rt (runCalls none done)) ↔
      ∀ done step rest, steps = done ++ step :: rest → StepSafe (runCalls none done) step := by
  constructor
  · intro h done step rest hsteps
    have hbefore := h done (step :: rest) hsteps
    have hafter := h (done ++ [step]) rest (by simp [hsteps])
    rw [runCalls_append] at hafter
    exact (after_readable_iff hbefore step).mp hafter
  · intro h done
    induction done using List.reverseRecOn with
    | nil => exact fun _ _ => ⟨_,rfl⟩
    | append_singleton done step ih =>
      intro rest hsteps
      have hsplit : steps = done ++ step :: rest := by simpa using hsteps
      have hbefore := ih (step :: rest) hsplit
      rw [runCalls_append]
      exact (after_readable_iff hbefore step).mpr (h done step rest hsplit)

theorem runCalls_enqueue (h : enqueue m r file = .ok (file',reply)) : runCalls file [(m,.enqueue r)] = file' :=
  after_eq (c := .enqueue r) h

theorem readState_corrupt (h : ¬ Readable rt (some (stateDocument state))) :
    ∃ e, readState rt (some (stateDocument state)) = .error e ∧ e.code = "queue_corrupt" := by
  have hschema : Fields.get (stateDocument state).fields "schema" = .str projectLaunchQueueSchema := rfl
  have hdoc : readState rt (some (stateDocument state)) = readDocument rt (stateDocument state).fields := rfl
  rw [Readable,hdoc] at h
  rw [hdoc]
  unfold readDocument at h ⊢
  rw [hschema,require_of rfl,ok_bind] at h ⊢
  cases hparts : recode (readParts rt (stateDocument state).fields) "queue_corrupt"
      "project launch queue state is invalid" with
  | error e =>
    cases hread : readParts rt (stateDocument state).fields with
    | error e' =>
      rw [hread] at hparts
      cases hparts
      exact ⟨_,rfl,rfl⟩
    | ok s =>
      rw [hread] at hparts
      cases hparts
  | ok s =>
    rw [hparts,ok_bind] at h
    rw [ok_bind]
    by_cases hfits : claimFits s = true
    · rw [require_of hfits] at h
      exact absurd ⟨s,rfl⟩ h
    · exact ⟨_,by rw [require,if_neg hfits]; rfl,rfl⟩

/-! ## A launch that cannot be read back -/

def sampleQueueRuntime : QueueRuntime :=
  ⟨⟨fun c => [c],fun c => [c],fun _ => "",fun _ => none,fun _ => ""⟩,fun _ => false⟩

def sampleStart : DateTime := ⟨63850000000000000,by decide⟩

def sampleMoment : Moment sampleQueueRuntime :=
  ⟨sampleStart,sampleStart,le_rfl,"123e4567-e89b-12d3-a456-426614174000",by decide +kernel⟩

/-- A prompt of 50001 characters, which an outbox record may carry. -/
def oversizedRequest : EnqueueRequest :=
  ⟨"bdb",String.ofList (List.replicate 50001 'x'),false,10,none,⟨none,none,none,none,none,none,none⟩⟩

theorem oversizedRequest_not_wellFormed : ¬ oversizedRequest.WellFormed sampleQueueRuntime := by
  intro h
  have hlen := h.prompt.2
  simp only [oversizedRequest,String.length_ofList,List.length_replicate,maxProjectPromptChars] at hlen
  omega

theorem oversizedRequest_admitted : Admits sampleMoment oversizedRequest none :=
  ⟨by decide,by decide,(none,none),rfl,rfl⟩

/-- The oversized prompt is accepted and returned, and from then on the queue is corrupt. -/
theorem oversized_prompt_spoils_queue :
    (∃ l, runCall sampleMoment (.enqueue oversizedRequest) none =
      .ok (runCalls none [(sampleMoment,.enqueue oversizedRequest)],.launch (some l))) ∧
    ¬ Readable sampleQueueRuntime (runCalls none [(sampleMoment,.enqueue oversizedRequest)]) ∧
    ∀ m : Moment sampleQueueRuntime, ∃ e,
      peek m (runCalls none [(sampleMoment,.enqueue oversizedRequest)]) = .error e ∧
        e.code = "queue_corrupt" := by
  obtain ⟨l,hl,hrun⟩ := enqueue_of_admits oversizedRequest_admitted
  have hfile : runCalls none [(sampleMoment,.enqueue oversizedRequest)] =
      some (stateDocument (some l,none)) := runCalls_enqueue hrun
  have hnot : ¬ Readable sampleQueueRuntime (some (stateDocument (some l,none))) :=
    fun h => oversizedRequest_not_wellFormed ((enqueue_readable_iff hl).mp h)
  rw [hfile]
  refine ⟨⟨l,hrun⟩,hnot,?_⟩
  intro m
  obtain ⟨e,he,hcode⟩ := readState_corrupt hnot
  refine ⟨e,?_,hcode⟩
  unfold peek observed
  rw [he]
  rfl

end Bdb.Queue
