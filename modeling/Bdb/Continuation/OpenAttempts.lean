import Bdb.Continuation.ExactlyOnce
import Bdb.Continuation.Progress

/-! # Attempts whose delivery is open

After an accepted begin the message may be on screen. Such an attempt is to stay where
positive evidence can still confirm it, until it is reconciled or its owner cancels it.
The code keeps this except where a packet that is not valid any more fences an uncertain
intent.
-/
namespace Bdb.Continuation

open Step SendIntentResult

variable {rt : Runtime} {db : Database} {q : SendRequest rt} {kind : ChangeKind} {r r' : SendIntentRecord}
  {id : String}

/-- An attempt was begun and neither reconciled nor cancelled since. -/
def openAttempt (id : String) (log : List (SendEntry rt)) : Bool :=
  log.foldl (fun isOpen e => beginAccepted id e || (isOpen && !retryAccepted id e && !cancelAccepted id e)) false

def SparesUncertain (db : Database) (_ : List (SendEntry rt)) : SendRequest rt → Prop
  | .fence intentId _ _ =>
    ∀ r ∈ db.intents.get intentId, r.status ≠ .uncertain ∧ r.status ≠ .reconciliationRequired
  | _ => True

instance SparesUncertain.decidable (db : Database) (log : List (SendEntry rt)) (q : SendRequest rt) :
    Decidable (SparesUncertain db log q) := by
  unfold SparesUncertain
  split <;> infer_instance

theorem attempted_change (hspares : SparesUncertain db [] q) (hrow : db.intents.get id = some r)
    (hchange : IntentChange db q kind r r') (hattempted : attemptedOrLater r.status = true)
    (hretried : kind ≠ .retried) (hcancelled : kind ≠ .cancelled) : attemptedOrLater r'.status = true := by
  have hfenced : kind ≠ .fenced := by
    rintro rfl
    cases hchange with
    | fenced hid hstatus =>
      have hspared := hspares r (by rw [← hid,Table.key_of_get hrow]; exact hrow)
      revert hspared hattempted hstatus
      cases r.status <;> decide
    | fencedBeforeAllow hid hown hstatus | fencedBeforeBegin hid hown hstatus => rw [hstatus] at hattempted; cases hattempted
    | stopped hcursor hstatus => rcases hstatus with h | h <;> rw [h] at hattempted <;> cases hattempted
  obtain ⟨hstarts,hends⟩ := hchange.status
  rw [hends]
  revert hstarts hattempted hretried hcancelled hfenced
  cases kind <;> cases r.status <;> decide

def AttemptsKept (id : String) (db : Database) (log : List (SendEntry rt)) : Prop :=
  openAttempt id log = true → ∃ r, db.intents.get id = some r ∧ attemptedOrLater r.status = true

theorem attemptsKept_step (id : String) (db : Database) (log : List (SendEntry rt)) (q : SendRequest rt)
    (h : AttemptsKept id db log) (hspares : SparesUncertain db log q) :
    AttemptsKept id (q.perform db).1 (log ++ [⟨q,(q.perform db).2⟩]) := by
  intro hopen
  have hstep := intent_step q db id
  simp only [openAttempt,List.foldl_append,List.foldl_cons,List.foldl_nil] at hopen
  change (_ || (openAttempt id log && _ && _)) = true at hopen
  generalize beginAccepted id ⟨q,(q.perform db).2⟩ = begun at hstep hopen
  generalize retryAccepted id ⟨q,(q.perform db).2⟩ = retried at hstep hopen
  generalize cancelAccepted id ⟨q,(q.perform db).2⟩ = cancelled at hstep hopen
  cases hstep with
  | same hsame =>
    rw [hsame]
    exact h (by simpa using hopen)
  | created hq hid hprepared hnone hrow =>
    obtain ⟨r,hr,-⟩ := h (by simpa using hopen)
    rw [hr] at hnone
    cases hnone
  | @changed kind r r' hrow hchange hrow' =>
    refine ⟨r',hrow',?_⟩
    by_cases hkind : kind = .attempted
    · rw [hchange.status.2,hkind]
      decide
    · simp only [hkind,decide_false,Bool.false_or,Bool.and_eq_true,Bool.not_eq_true',decide_eq_false_iff_not] at hopen
      obtain ⟨⟨hold,hretried⟩,hcancelled⟩ := hopen
      obtain ⟨r₀,hr₀,hattempted⟩ := h hold
      obtain rfl := some_unique hrow hr₀
      exact attempted_change hspares hrow hchange hattempted hretried hcancelled

/-- In every run whose fences spare uncertain intents, an attempt that was neither
reconciled nor cancelled since its begin is at or past the send boundary in every state
reached, and unless it is confirmed already, exact positive evidence confirms it. -/
theorem open_attempts_stay_confirmable (db : Database) (moves : List (SendMove rt))
    (h : Along SendSystem.next (Shared.Admits SparesUncertain) (.begin db) moves) (id : String)
    (hopen : openAttempt id (SendSystem.run (.begin db) moves).log = true) :
    let s := SendSystem.run (.begin db) moves
    ∃ r, s.store.intents.get id = some r ∧ attemptedOrLater r.status = true ∧
      (confirmedSend r.status = false → ∀ (a : SendArgs rt) evidence, a.intentId = id → OwnIntent a r →
        evidence.positive = true → evidenceMatches r evidence = true →
        acceptedResult (confirmIntent a evidence s.store).2 = true ∧
          ∃ r', (confirmIntent a evidence s.store).1.intents.get id = some r' ∧ r'.status = .sendConfirmed) := by
  intro s
  have hkept : AttemptsKept id s.store s.log :=
    Shared.invariant_of_requests (fun t log q => attemptsKept_step id t log q) h nofun
  obtain ⟨r,hrow,hattempted⟩ := hkept hopen
  refine ⟨r,hrow,hattempted,?_⟩
  rintro hunconfirmed a evidence rfl hown hpositive hmatches
  have hawaiting : awaitingEvidence r.status = true := by
    revert hunconfirmed hattempted
    cases r.status <;> decide
  obtain ⟨done,res,hconfirm,haccepted,hwritten⟩ := confirm_accepts (trailed_run db moves) hrow hown hpositive
    hmatches hawaiting
  rw [hconfirm]
  refine ⟨haccepted,(confirmWrite evidence a.now).change r,?_,rfl⟩
  have hget := get_written hwritten hrow rfl a.intentId
  rw [if_pos rfl] at hget
  exact hget

theorem openAttempt_append (log : List (SendEntry rt)) (e : SendEntry rt) :
    openAttempt id (log ++ [e]) =
      (beginAccepted id e || (openAttempt id log && !retryAccepted id e && !cancelAccepted id e)) := by
  unfold openAttempt
  rw [List.foldl_append]
  rfl

theorem SampleAttempt.isOpen {Q : SendCondition sampleRuntime} {t : SendSystem sampleRuntime}
    {l : ContinuationLeaseRecord} (h : SampleAttempt Q t l r) : openAttempt r.intentId t.log = true := by
  obtain ⟨before,res,haccepted,hlog⟩ := h.begun
  rw [hlog,openAttempt_append]
  simp [beginAccepted,acceptedResult,haccepted]

/-- The sample's attempt is confirmed by its evidence. -/
theorem sample_attempt_is_confirmed :
    ∃ (moves : List (SendMove sampleRuntime)) (a : SendArgs sampleRuntime) (evidence : StructuredSendEvidence),
      Along SendSystem.next (Shared.Admits SparesUncertain) (.begin sampleDatabase) moves ∧
      acceptedResult (confirmIntent a evidence (SendSystem.run (.begin sampleDatabase) moves).store).2 = true := by
  obtain ⟨t,l,r,h⟩ := sample_attempt (Q := SparesUncertain)
    ⟨trivial,fun _ _ _ => trivial,fun _ _ _ _ => trivial,fun _ _ _ => trivial,fun _ _ _ => trivial,
      fun _ _ _ => trivial⟩
  obtain ⟨moves,halong,rfl⟩ := h.reached
  obtain ⟨r',hrow,-,hconfirm⟩ := open_attempts_stay_confirmable sampleDatabase moves halong r.intentId h.isOpen
  obtain rfl := some_unique h.row hrow
  let evidence : StructuredSendEvidence := ⟨r.intentId,r.continuationId,r.packetDigest,r.executionBindingId,"chat-1",
    r.messageDigest,"message-1","STRUCTURED_DOM_MESSAGE",true,false,false⟩
  refine ⟨moves,⟨r.intentId,samplePacket,sampleToken,sampleTime 1⟩,evidence,halong,?_⟩
  refine (hconfirm (by rw [h.status]; decide) _ evidence rfl h.own rfl ?_).1
  simp [evidenceMatches,evidence,h.chat]

/-- An uncertain attempt is fenced when its owner tries again after the packet has expired. -/
theorem expired_packet_fences_uncertain_attempt :
    ¬ ∀ (moves : List (SendMove sampleRuntime)) (id : String),
      openAttempt id (SendSystem.run (.begin sampleDatabase) moves).log = true →
      ∃ r, (SendSystem.run (.begin sampleDatabase) moves).store.intents.get id = some r ∧
        attemptedOrLater r.status = true := by
  intro hclaim
  obtain ⟨t,l,r,h⟩ := any_sample_attempt
  -- the owner reports an uncertain delivery
  obtain ⟨db₁,res₁,hmark,-,hwritten₁⟩ := markUncertain_accepts "timeout" h.holding.trailed h.row h.own h.status
  obtain ⟨t₁,hreach₁,hstore₁,hlog₁⟩ := reaches_of_completes (Q := anyRequest) (s := t)
    (show (ClientCall.markUncertain r.intentId sampleToken "timeout" (sampleTime 1)).program = .ask _ _ from rfl)
    (completes_request trivial)
  have hrow₁ : t₁.store.intents.get r.intentId =
      some ((uncertainWrite (boundedReason "timeout") (sampleTime 1)).change r) := by
    rw [hstore₁]
    change (markUncertainIntent sampleRuntime r.intentId sampleToken "timeout" (sampleTime 1) t.store).1.intents.get
      r.intentId = _
    rw [hmark]
    exact (get_written hwritten₁ h.row rfl r.intentId).trans (if_pos rfl)
  -- an hour later the packet has expired, and the owner asks for the send again
  obtain ⟨f,hexpired⟩ : ∃ f, validatePacket samplePacket sampleAuthority (sampleTime 3601) = .error f :=
    invalid_of_expired sampleAuthority (by decide)
  obtain ⟨t₂,hreach₂,hstore₂,hlog₂⟩ := reaches_of_completes (Q := anyRequest) (s := t₁)
    (program_allowSend (sampleSendCall r.intentId (sampleTime 3601)))
    (completes_throughDom_invalid hexpired trivial)
  obtain ⟨db₂,o,hfence,hwritten₂⟩ := fence_fences f.code (trailed_of_reaches (h.reached.trans hreach₁)) hrow₁ rfl
    (sampleTime 3601)
  have hrow₂ : t₂.store.intents.get r.intentId = some (fenceChange f.code (sampleTime 3601)
      ((uncertainWrite (boundedReason "timeout") (sampleTime 1)).change r)) := by
    rw [hstore₂]
    change (fenceIntent r.intentId f.code (sampleTime 3601) t₁.store).1.intents.get r.intentId = _
    rw [hfence]
    exact (get_written hwritten₂ hrow₁ rfl r.intentId).trans (if_pos rfl)
  obtain ⟨moves,-,hrun⟩ := (h.reached.trans hreach₁).trans hreach₂
  have hopen : openAttempt r.intentId t₂.log = true := by
    rw [hlog₂,openAttempt_append,hlog₁,openAttempt_append,h.isOpen]
    rfl
  change SendSystem.run (.begin sampleDatabase) moves = t₂ at hrun
  obtain ⟨r',hrow,hattempted⟩ := hclaim moves r.intentId (by rw [hrun]; exact hopen)
  rw [hrun,hrow₂] at hrow
  cases hrow
  cases hattempted

end Bdb.Continuation
