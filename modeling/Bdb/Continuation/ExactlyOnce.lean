import Bdb.Continuation.SendSteps

/-! # Exactly-once sending

Runs of any number of clients, each advanced one request at a time in any order. Every
accepted begin of an intent is paid for by its creation or by a no-delivery
reconciliation, and every physical send by an accepted begin. Final intents and stored
evidence stay as they are.
-/
namespace Bdb.Continuation

open SendIntentResult

variable {rt : Runtime} {db db' : Database} {q : SendRequest rt} {kind : ChangeKind} {r r' : SendIntentRecord}
  {id : String}

/-! ## Accepted begins -/

/-- A begin may have been accepted that no reconciliation has paid for. -/
def credit (s : SendStatus) : ℕ := if s = .prepared ∨ s = .sendAllowed then 0 else 1

theorem credit_change (h : IntentChange db q kind r r') :
    credit r.status + (if kind = .attempted then 1 else 0) ≤
      (if kind = .retried then 1 else 0) + credit r'.status := by
  obtain ⟨hstarts,hends⟩ := h.status
  rw [hends]
  revert hstarts
  cases kind <;> cases r.status <;> decide

/-- The begins of an intent are covered by its reconciliations and its credit; an intent
that does not exist was never begun. -/
def Accounted (id : String) (db : Database) (log : List (SendEntry rt)) : Prop :=
  match db.intents.get id with
  | none => log.countP (beginAccepted id) = 0
  | some r => log.countP (beginAccepted id) ≤ log.countP (retryAccepted id) + credit r.status

theorem accounted_step (id : String) (db : Database) (log : List (SendEntry rt)) (q : SendRequest rt)
    (h : Accounted id db log) :
    Accounted id (q.perform db).1 (log ++ [⟨q,(q.perform db).2⟩]) := by
  have hstep := intent_step q db id
  unfold Accounted at h ⊢
  simp only [List.countP_append,List.countP_singleton]
  generalize beginAccepted id ⟨q,(q.perform db).2⟩ = begun at hstep ⊢
  generalize retryAccepted id ⟨q,(q.perform db).2⟩ = retried at hstep ⊢
  generalize cancelAccepted id ⟨q,(q.perform db).2⟩ = cancelled at hstep
  cases hstep with
  | same hsame =>
    rw [hsame]
    simpa using h
  | created hq hid hprepared hnone hrow =>
    rw [hnone] at h
    rw [hrow]
    simp only [h,Bool.false_eq_true,if_false]
    omega
  | changed hrow hchange hrow' =>
    have hpaid := credit_change hchange
    rw [hrow] at h
    rw [hrow']
    simp only [decide_eq_true_eq] at h ⊢
    omega

theorem begins_le (db : Database) (moves : List (SendMove rt)) (id : String) :
    (SendSystem.run (.begin db) moves).log.countP (beginAccepted id) ≤
      1 + (SendSystem.run (.begin db) moves).log.countP (retryAccepted id) := by
  have h : Accounted id (SendSystem.run (.begin db) moves).store (SendSystem.run (.begin db) moves).log :=
    Shared.invariant_of_run (accounted_step id) (show Accounted id _ [] from rfl)
  unfold Accounted at h
  split at h
  · omega
  · unfold credit at h
    split at h <;> omega

/-! ## Physical sends -/

def sentPhysically (id : String) : SendEntry rt → Bool
  | ⟨.physicalSend intentId,_⟩ => decide (intentId = id)
  | _ => false

/-- With the given number of accepted begins left, the program pays for its sends. -/
structure PaidSends (id : String) {α : Type} (n : ℕ) (p : SendScript rt α) : Prop where
  covered : Script.Covered (beginAccepted id) (sentPhysically id) n p

variable {α β : Type} {n : ℕ}

theorem paidSends_done (a : α) : PaidSends id n (.done a : SendScript rt α) := ⟨trivial⟩

theorem paidSends_ask {k : q.Answer → SendScript rt α} (hq : ∀ a, sentPhysically id ⟨q,a⟩ = false)
    (hk : ∀ a m, PaidSends id m (k a)) : PaidSends id n (.ask q k) := by
  constructor
  intro a
  exact ⟨n + if beginAccepted id ⟨q,a⟩ then 1 else 0,by simp [hq a],(hk a _).covered⟩

theorem paidSends_send {intentId : String} {k : Unit → SendScript rt α} (hpaid : intentId = id → 0 < n)
    (hk : ∀ a m, PaidSends id m (k a)) : PaidSends id n (.ask (.physicalSend intentId) k) := by
  constructor
  intro a
  refine ⟨if intentId = id then n - 1 else n,?_,(hk a _).covered⟩
  by_cases hid : intentId = id
  · have hn := hpaid hid
    simp only [sentPhysically,beginAccepted,hid,decide_true,if_true,Bool.false_eq_true,if_false]
    omega
  · simp [sentPhysically,beginAccepted,hid]

variable {c : SendCall rt} {a : SendArgs rt} {P : SendIntentRecord → Prop}

theorem paidSends_throughDom {go : SendProgram rt} {k : Outcome SendIntentResult → SendScript rt α}
    (hrefused : ∀ o m, acceptedResult o = false → PaidSends id m (k o))
    (hgo : ∀ m, PaidSends id m (go.bind k)) : PaidSends id n ((throughDom c go).bind k) := by
  unfold throughDom
  split
  · refine paidSends_ask (fun _ => rfl) ?_
    intro fenced m
    cases fenced with
    | error e => exact hrefused (.error e) m rfl
    | ok r => exact hrefused _ m rfl
  · refine paidSends_ask (fun _ => rfl) ?_
    intro read m
    cases read with
    | none => exact hrefused _ m rfl
    | some r =>
      dsimp only
      split
      · exact hrefused _ m rfl
      · exact hgo m

theorem paidSends_prepare {c : PrepareCall rt} : PaidSends id n ((prepare c).bind fun _ => .done ()) := by
  unfold prepare
  split
  · exact paidSends_done ()
  · refine paidSends_ask (fun _ => rfl) ?_
    intro read m
    dsimp only
    split
    · exact paidSends_done ()
    · exact paidSends_ask (fun _ => rfl) fun _ _ => paidSends_done ()

theorem paidSends_reconcile {evidence : Option StructuredSendEvidence}
    {proof : Option NoDeliveryProof} : PaidSends id n ((reconcile a evidence proof).bind fun _ => .done ()) := by
  unfold reconcile
  refine paidSends_ask (fun _ => rfl) ?_
  intro read m
  cases read with
  | none => exact paidSends_done ()
  | some r =>
    dsimp only
    split
    · exact paidSends_done ()
    split
    · exact paidSends_done ()
    split
    · exact paidSends_ask (fun _ => rfl) fun _ _ => paidSends_done ()
    · exact paidSends_ask (fun _ => rfl) fun _ _ => paidSends_done ()
    · split
      all_goals exact paidSends_ask (fun _ => rfl) fun _ _ => paidSends_done ()

theorem paidSends_ack {acknowledgement : SendAck} {ackAt : DateTime} :
    PaidSends id n ((ack a acknowledgement ackAt).bind fun _ => .done ()) := by
  unfold ack
  refine paidSends_ask (fun _ => rfl) ?_
  intro read m
  cases read with
  | none => exact paidSends_done ()
  | some r =>
    dsimp only
    split
    · exact paidSends_done ()
    split
    · exact paidSends_done ()
    split
    · exact paidSends_done ()
    split
    · exact paidSends_done ()
    refine paidSends_ask (fun _ => rfl) ?_
    intro completed m
    cases completed with
    | error e => exact paidSends_done ()
    | ok res =>
      dsimp only
      split
      · exact paidSends_done ()
      · exact paidSends_ask (fun _ => rfl) fun _ _ => paidSends_done ()

theorem paidSends_sendOnce {beginAt endAt : DateTime} {physicalSend : PhysicalSend} :
    PaidSends id n ((sendOnce c beginAt endAt physicalSend).bind fun _ => .done ()) := by
  unfold sendOnce allowSend
  rw [Script.bind_assoc]
  refine paidSends_throughDom ?_ ?_
  · intro o m ho
    cases o with
    | error e => exact paidSends_done ()
    | ok res =>
      dsimp only
      rw [if_pos (show res.accepted = false from ho)]
      exact paidSends_done ()
  · intro m
    refine paidSends_ask (fun _ => rfl) ?_
    intro allowed m
    cases allowed with
    | error e => exact paidSends_done ()
    | ok allowed =>
      dsimp only [Script.bind]
      split
      · exact paidSends_done ()
      unfold beginPhysicalSend
      rw [Script.bind_assoc]
      refine paidSends_throughDom ?_ ?_
      · intro o m ho
        cases o with
        | error e => exact paidSends_done ()
        | ok res =>
          dsimp only
          rw [if_pos (show res.accepted = false from ho)]
          exact paidSends_done ()
      · intro m
        constructor
        intro o
        refine ⟨m + if beginAccepted id ⟨.begin (SendCall.args { c with now := beginAt }),o⟩ then 1 else 0,
          by simp [sentPhysically],PaidSends.covered ?_⟩
        cases o with
        | error e => exact paidSends_done ()
        | ok res =>
          have hearned : res.accepted = true → c.intentId = id →
              0 < m + if beginAccepted id ⟨.begin (SendCall.args { c with now := beginAt }),(.ok res)⟩ then 1 else 0 := by
            intro haccepted hid
            simp [beginAccepted,SendCall.args,acceptedResult,hid,haccepted]
          dsimp only [Script.bind]
          generalize m + _ = paid at hearned ⊢
          split
          · exact paidSends_done ()
          rename_i haccepted
          split
          · exact paidSends_done ()
          · refine paidSends_send (hearned (by simpa using haccepted)) ?_
            intro _ m
            split
            all_goals exact paidSends_ask (fun _ => rfl) fun _ _ => paidSends_done ()

theorem paidSends_allowSend : PaidSends id n ((allowSend c).bind fun _ => .done ()) := by
  unfold allowSend
  refine paidSends_throughDom (fun _ _ _ => paidSends_done ()) ?_
  intro m
  exact paidSends_ask (fun _ => rfl) fun _ _ => paidSends_done ()

theorem paidSends_beginPhysicalSend : PaidSends id n ((beginPhysicalSend c).bind fun _ => .done ()) := by
  unfold beginPhysicalSend
  refine paidSends_throughDom (fun _ _ _ => paidSends_done ()) ?_
  intro m
  exact paidSends_ask (fun _ => rfl) fun _ _ => paidSends_done ()

theorem paidSends_program (c : ClientCall rt) : PaidSends id 0 c.program := by
  cases c <;> unfold ClientCall.program
  case prepare => exact paidSends_prepare
  case allowSend => exact paidSends_allowSend
  case beginPhysicalSend => exact paidSends_beginPhysicalSend
  case reconcile => exact paidSends_reconcile
  case sendOnce => exact paidSends_sendOnce
  case ack => exact paidSends_ack
  -- the other calls ask once
  all_goals exact paidSends_ask (fun _ => rfl) fun _ _ => paidSends_done ()

theorem sends_le_begins (db : Database) (moves : List (SendMove rt)) (id : String) :
    (SendSystem.run (.begin db) moves).log.countP (sentPhysically id) ≤
      (SendSystem.run (.begin db) moves).log.countP (beginAccepted id) :=
  Shared.spent_le_earned (fun c => (paidSends_program c).covered) _ moves

/-! ## Final intents and stored evidence -/

theorem IntentChange.not_terminal (h : IntentChange db q kind r r') : terminalSend r.status = false := by
  have hstarts := h.status.1
  revert hstarts
  cases kind <;> cases r.status <;> decide

theorem kept_of_changes (hrow : db.intents.get id = some r) (hr : P r)
    (hchange : ∀ kind r', IntentChange db q kind r r' → P r') :
    ∃ r', (q.perform db).1.intents.get id = some r' ∧ P r' := by
  have hstep := intent_step q db id
  generalize beginAccepted id ⟨q,(q.perform db).2⟩ = begun at hstep
  generalize retryAccepted id ⟨q,(q.perform db).2⟩ = retried at hstep
  generalize cancelAccepted id ⟨q,(q.perform db).2⟩ = cancelled at hstep
  cases hstep with
  | same hsame => exact ⟨r,hsame.trans hrow,hr⟩
  | created hq hid hprepared hnone hrow' =>
    rw [hrow] at hnone
    cases hnone
  | changed hrow' hwrite hafter =>
    obtain rfl := some_unique hrow hrow'
    exact ⟨_,hafter,hchange _ _ hwrite⟩

def confirmedSend (s : SendStatus) : Bool := s = .sendConfirmed ∨ s = .acknowledged

/-- Evidence is stored exactly for confirmed sends, and it names the intent. -/
structure EvidenceKept (r : SendIntentRecord) : Prop where
  stored : confirmedSend r.status = true → ∃ e, r.deliveryEvidence = some e ∧ evidenceMatches r e = true
  confirmed : r.deliveryEvidence ≠ none → confirmedSend r.status = true

theorem evidenceMatches_congr (h : SameIntent r r') (e : StructuredSendEvidence) :
    evidenceMatches r' e = evidenceMatches r e := by
  rw [h]
  rfl

theorem IntentChange.of_confirmed (h : IntentChange db q kind r r') (hconfirmed : confirmedSend r.status = true) :
    kind = .acknowledged := by
  have hstarts := h.status.1
  revert hstarts hconfirmed
  cases kind <;> cases r.status <;> decide

theorem ChangeKind.confirmed_ends (kind : ChangeKind) :
    confirmedSend kind.ends = true ↔ kind = .confirmed ∨ kind = .acknowledged := by
  cases kind <;> decide

theorem evidenceKept_change (hchange : IntentChange db q kind r r') (h : EvidenceKept r) : EvidenceKept r' := by
  obtain ⟨hstarts,hends⟩ := hchange.status
  obtain ⟨hother,hnew⟩ := hchange.evidence
  constructor
  · intro hconfirmed
    rw [hends,kind.confirmed_ends] at hconfirmed
    rcases hconfirmed with hkind | hkind
    · exact hnew hkind
    · -- an acknowledged intent was confirmed, with the same evidence
      subst hkind
      obtain ⟨e,he,hmatches⟩ := h.stored (by simp_all [ChangeKind.starts,confirmedSend])
      refine ⟨e,?_,?_⟩
      · rw [hother nofun]
        exact he
      · rw [evidenceMatches_congr hchange.same]
        exact hmatches
  · intro hsome
    rw [hends,kind.confirmed_ends]
    by_cases hkind : kind = .confirmed
    · exact .inl hkind
    · rw [hother hkind] at hsome
      exact .inr (hchange.of_confirmed (h.confirmed hsome))

theorem evidence_change (hchange : IntentChange db q kind r r') (hconfirmed : confirmedSend r.status = true) :
    confirmedSend r'.status = true ∧ r'.deliveryEvidence = r.deliveryEvidence := by
  have hkind := hchange.of_confirmed hconfirmed
  subst hkind
  refine ⟨?_,hchange.evidence.1 nofun⟩
  rw [hchange.status.2]
  decide

/-- Every stored row keeps its evidence. -/
def AllEvidenceKept (db : Database) : Prop := ∀ id r, db.intents.get id = some r → EvidenceKept r

theorem allEvidenceKept_step (db : Database) (_ : List (SendEntry rt)) (q : SendRequest rt)
    (h : AllEvidenceKept db) : AllEvidenceKept (q.perform db).1 := by
  intro id r' hrow'
  have hstep := intent_step q db id
  generalize beginAccepted id ⟨q,(q.perform db).2⟩ = begun at hstep
  generalize retryAccepted id ⟨q,(q.perform db).2⟩ = retried at hstep
  generalize cancelAccepted id ⟨q,(q.perform db).2⟩ = cancelled at hstep
  cases hstep with
  | same hsame => exact h id r' (hsame.symm.trans hrow')
  | created hq hid hprepared hnone hrow =>
    obtain rfl := some_unique hrow hrow'
    exact ⟨nofun,fun hsome => absurd rfl hsome⟩
  | changed hrow hchange hafter =>
    obtain rfl := some_unique hafter hrow'
    exact evidenceKept_change hchange (h id _ hrow)

/-! ## The protocol -/

theorem allEvidenceKept_run (db : Database) (moves : List (SendMove rt)) :
    AllEvidenceKept (SendSystem.run (.begin db) moves).store :=
  Shared.invariant_of_run (I := fun d _ => AllEvidenceKept d) allEvidenceKept_step (fun _ _ h => nomatch h)

theorem run_keeps_row {s : SendSystem rt} (moves : List (SendMove rt))
    (hchange : ∀ db (q : SendRequest rt) kind r r', IntentChange db q kind r r' → P r → P r')
    (hrow : s.store.intents.get id = some r) (hr : P r) :
    ∃ r', (s.run moves).store.intents.get id = some r' ∧ P r' := by
  refine Shared.invariant_of_run (I := fun (d : Database) _ => ∃ r', d.intents.get id = some r' ∧ P r') ?_ ⟨r,hrow,hr⟩
  rintro d log q ⟨r,hrow,hr⟩
  exact kept_of_changes hrow hr fun kind r' h => hchange d q kind r r' h hr

/-- In every run, with crashes anywhere: the physical sends of an intent are at most its
accepted begins, and these at most one more than its accepted no-delivery reconciliations;
a confirmed or acknowledged intent has stored evidence that names it; and from any moment
on, final intents do not change and stored evidence is not replaced. -/
theorem sends_exactly_once (db : Database) (moves : List (SendMove rt)) :
    let s := SendSystem.run (.begin db) moves
    (∀ id, s.log.countP (sentPhysically id) ≤ s.log.countP (beginAccepted id) ∧
      s.log.countP (beginAccepted id) ≤ 1 + s.log.countP (retryAccepted id)) ∧
    (∀ id r, s.store.intents.get id = some r → confirmedSend r.status = true →
      ∃ e, r.deliveryEvidence = some e ∧ evidenceMatches r e = true) ∧
    ∀ later, let t := s.run later
      ∀ id r, s.store.intents.get id = some r →
        (terminalSend r.status = true → t.store.intents.get id = some r) ∧
        ∀ e, r.deliveryEvidence = some e →
          ∃ r', t.store.intents.get id = some r' ∧ r'.deliveryEvidence = some e := by
  intro s
  have hkept : AllEvidenceKept s.store := allEvidenceKept_run db moves
  refine ⟨?_,?_,?_⟩
  · intro id
    exact ⟨sends_le_begins db moves id,begins_le db moves id⟩
  · intro id r hrow
    exact (hkept id r hrow).stored
  · intro later t id r hrow
    constructor
    · intro hterminal
      have hkeep : ∀ d (q : SendRequest rt) kind r₁ r₂, IntentChange d q kind r₁ r₂ → r₁ = r → r₂ = r := by
        rintro d q kind r₁ r₂ hchange rfl
        rw [hchange.not_terminal] at hterminal
        cases hterminal
      obtain ⟨r',hrow',rfl⟩ := run_keeps_row later hkeep hrow rfl
      exact hrow'
    · intro e he
      have hconfirmed : confirmedSend r.status = true := (hkept id r hrow).confirmed (by rw [he]; nofun)
      have hkeep : ∀ d (q : SendRequest rt) kind r₁ r₂, IntentChange d q kind r₁ r₂ →
          confirmedSend r₁.status = true ∧ r₁.deliveryEvidence = some e →
          confirmedSend r₂.status = true ∧ r₂.deliveryEvidence = some e := by
        rintro d q kind r₁ r₂ hchange ⟨hconfirmed,he⟩
        obtain ⟨hafter,hsame⟩ := evidence_change hchange hconfirmed
        exact ⟨hafter,hsame.trans he⟩
      obtain ⟨r',hrow',-,hevidence⟩ := run_keeps_row later hkeep hrow ⟨hconfirmed,he⟩
      exact ⟨r',hrow',hevidence⟩

end Bdb.Continuation
