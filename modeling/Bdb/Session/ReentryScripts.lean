import Bdb.Session.ReentrySteps

/-! # What the requests of a re-entry rest on

A call begins a send only after its own claim was accepted and the record was shown to it
first as prepared and then as in progress, and it sends at most once. This is read off the
programs, whatever the answers are that other calls lead to.
-/
namespace Bdb.Session

open Bdb.Continuation SessionStore SessionLivenessState Script List

variable {rt : Runtime} {p p' : ContinuationPacket rt} {known more : List (SessionEntry rt)}
  {r : SessionReentryRecord rt} {token : String}

/-! ## Entries -/

def beginDigest : SessionEntry rt → Option String
  | ⟨.send (.begin a),o⟩ => if acceptedResult o then some (tokenDigest rt a.token) else none
  | _ => none

/-- A physical attempt was begun. -/
def begun (e : SessionEntry rt) : Bool := (beginDigest e).isSome

def sent : SessionEntry rt → Bool
  | ⟨.send (.physicalSend _),_⟩ => true
  | _ => false

def claimedWith (d : String) (e : SessionEntry rt) : Bool := (handedOut e).map (tokenDigest rt) = some d

/-! ## Grounds -/

def ShownIn (known : List (SessionEntry rt)) (r : SessionReentryRecord rt) : Prop := ∃ e ∈ known, shown e = some r

def OnPacket (p : ContinuationPacket rt) (known : List (SessionEntry rt)) (p' : ContinuationPacket rt) : Prop :=
  p' = p ∨ ∃ r, ShownIn known r ∧ r.packet = p'

/-- What a call has behind it when it begins a send: its claim was accepted, after that the
record was prepared and then in progress, and it has begun nothing yet. -/
structure MayBegin (token : String) (known : List (SessionEntry rt)) : Prop where
  prepared : ∃ before e after r, known = before ++ e :: after ∧ claimedWith (tokenDigest rt token) e = true ∧
    ShownIn after r ∧ r.livenessState = reentryPrepared
  started : ∃ r, ShownIn known r ∧ r.livenessState = reentryInProgress
  first : ∀ e ∈ known, begun e = false

def Grounded (p : ContinuationPacket rt) (known : List (SessionEntry rt)) : SessionRequest rt → Prop
  | .createOrRead p' _ _ => p' = p
  | .transition reentryId w => (∃ r, ShownIn known r ∧ r.reentryId = reentryId) ∧
    ∀ state ∈ w.expectedStates, state.rank ≤ w.state.rank
  | .send (.lease (.claim _ p' _ _ _) _) => OnPacket p known p'
  | .send (.lease (.release p' _ _) _) => OnPacket p known p'
  | .send (.lease (.complete p' _) _) => OnPacket p known p' ∧ ∃ e ∈ known, begun e = true
  | .send (.lease _ _) => False
  | .send (.begin a) => OnPacket p known a.packet ∧ MayBegin a.token known
  | .send (.physicalSend _) => (∃ e ∈ known, begun e = true) ∧ ∀ e ∈ known, sent e = false
  | _ => True

theorem ShownIn.append (h : ShownIn known r) (more : List (SessionEntry rt)) : ShownIn (known ++ more) r := by
  obtain ⟨e,he,hr⟩ := h
  exact ⟨e,mem_append_left _ he,hr⟩

variable {e : SessionEntry rt}

theorem ShownIn.last {known : List (SessionEntry rt)} (h : shown e = some r) : ShownIn (known ++ [e]) r :=
  ⟨e,mem_append_right _ (mem_singleton_self e),h⟩

theorem OnPacket.append (h : OnPacket p known p') (more : List (SessionEntry rt)) : OnPacket p (known ++ more) p' := by
  rcases h with h | ⟨r,hr,hp⟩
  · exact .inl h
  · exact .inr ⟨r,hr.append more,hp⟩

theorem MayBegin.append (h : MayBegin token known) (hmore : ∀ e ∈ more, begun e = false) :
    MayBegin token (known ++ more) where
  prepared := by
    obtain ⟨before,e,after,r,rfl,hclaimed,hshown,hstate⟩ := h.prepared
    exact ⟨before,e,after ++ more,r,by rw [append_assoc,cons_append],hclaimed,hshown.append more,hstate⟩
  started := by
    obtain ⟨r,hr,hstate⟩ := h.started
    exact ⟨r,hr.append more,hstate⟩
  first := by
    intro e he
    rcases mem_append.mp he with he | he
    · exact h.first e he
    · exact hmore e he

def Quiet : SendRequest rt → Prop
  | .lease _ _ => False
  | .begin _ => False
  | .physicalSend _ => False
  | _ => True

def Sends (Q : SendRequest rt → Prop) : SessionRequest rt → Prop
  | .send q => Q q
  | _ => False

theorem grounded_of_quiet {q : SessionRequest rt} (h : Sends Quiet q) : Grounded p known q := by
  cases q with
  | send q =>
    cases q with
    | lease call now => cases h
    | begin a => cases h
    | physicalSend intentId => cases h
    | _ => trivial
  | _ => cases h

theorem quiet_entry (h : Sends Quiet e.1) : begun e = false ∧ sent e = false := by
  obtain ⟨q,o⟩ := e
  cases q with
  | send q =>
    cases q with
    | begin a => cases h
    | physicalSend intentId => cases h
    | _ => exact ⟨rfl,rfl⟩
  | _ => cases h

theorem sending_asks {α : Type} {Q : SendRequest rt → Prop} {script : SendScript rt α} (h : script.AsksOnly Q) :
    (sending script).AsksOnly (Sends Q) :=
  h.lift fun _ hq => hq

theorem sending_bind {α β : Type} (script : SendScript rt α) (f : α → SendScript rt β) :
    sending (script.bind f) = (sending script).bind fun a => sending (f a) :=
  lift_bind _ _ script f

/-- Every request of the program has its grounds in what the call was told. -/
structure Rests (p : ContinuationPacket rt) (known : List (SessionEntry rt)) {α : Type}
    (script : SessionScript rt α) : Prop where
  informed : Informed (Grounded p) known script

/-! ## The attempt -/

section Attempt

variable {α : Type} {k : Outcome SendIntentResult → SessionScript rt α}

variable {q : SendRequest rt} {beginAt : DateTime}

theorem quiet_one {a : q.Answer} (h : Quiet q) :
    ∀ e ∈ [(⟨.send q,a⟩ : SessionEntry rt)], Sends Quiet e.1 := by
  intro e he
  rw [mem_singleton.mp he]
  exact h

theorem rests_send {f : q.Answer → SendProgram rt} (hq : Grounded p known (.send q))
    (h : ∀ a, Rests p (known ++ [⟨.send q,a⟩]) ((sending (f a)).bind k)) :
    Rests p known ((sending (.ask q f)).bind k) :=
  ⟨hq,fun a => (h a).informed⟩

theorem rests_throughDom {c : SendCall rt} {go : SendProgram rt}
    (hrefused : ∀ more o, (∀ e ∈ more, Sends Quiet e.1) → acceptedResult o = false →
      Rests p (known ++ more) (k o))
    (hgo : ∀ more, (∀ e ∈ more, Sends Quiet e.1) → Rests p (known ++ more) ((sending go).bind k)) :
    Rests p known ((sending (throughDom c go)).bind k) := by
  unfold throughDom
  split
  · refine rests_send trivial ?_
    intro fenced
    cases fenced with
    | error e => exact hrefused _ (.error e) (quiet_one trivial) rfl
    | ok r => exact hrefused _ _ (quiet_one trivial) rfl
  · refine rests_send trivial ?_
    intro read
    cases read with
    | none => exact hrefused _ _ (quiet_one trivial) rfl
    | some r =>
      dsimp only
      split
      · exact hrefused _ _ (quiet_one trivial) rfl
      · exact hgo _ (quiet_one trivial)

theorem asks_prepare (c : PrepareCall rt) : (prepare c).AsksOnly Quiet := by
  unfold prepare
  split
  · exact .done _
  · refine .ask trivial ?_
    intro read
    split
    · exact .done _
    · exact .ask trivial fun _ => .done _

/-- What an acknowledgement asks for: beside quiet requests it completes the lease. -/
def Acknowledges (p : ContinuationPacket rt) (q : SendRequest rt) : Prop :=
  Quiet q ∨ ∃ token now, q = .lease (.complete p token) now

theorem asks_ack (a : SendArgs rt) (acknowledgement : SendAck) (ackAt : DateTime) :
    (Continuation.ack a acknowledgement ackAt).AsksOnly (Acknowledges a.packet) := by
  unfold Continuation.ack
  refine .ask (.inl trivial) ?_
  intro read
  cases read with
  | none => exact .done _
  | some r =>
    dsimp only
    split
    · exact .done _
    split
    · exact .done _
    split
    · exact .done _
    split
    · exact .done _
    refine .ask (.inr ⟨_,_,rfl⟩) ?_
    intro completed
    cases completed with
    | error e => exact .done _
    | ok res =>
      dsimp only
      split
      · exact .done _
      · exact .ask (.inl trivial) fun _ => .done _

def afterBegin (c : SendCall rt) (endAt : DateTime) (physicalSend : PhysicalSend) :
    Outcome SendIntentResult → SendProgram rt
  | .error e => .done (.error e)
  | .ok attempted =>
    if attempted.accepted = false then reply attempted
    else
      match attempted.intent with
      | none => reply (SendIntentResult.invalid "INTENT_READBACK_FAILED" "physical attempt did not return an intent")
      | some intent => .ask (.physicalSend c.intentId) fun _ =>
        match physicalSend intent with
        | .error why => markUncertain c.intentId c.token why endAt
        | .ok evidence => confirm ⟨c.intentId,c.packet,c.token,endAt⟩ evidence

/-- What follows the permission for an attempt. -/
def afterAllow (c : SendCall rt) (beginAt endAt : DateTime) (physicalSend : PhysicalSend) :
    Outcome SendIntentResult → SendProgram rt
  | .error e => .done (.error e)
  | .ok allowed =>
    if allowed.accepted = false then reply allowed
    else (beginPhysicalSend { c with now := beginAt }).bind (afterBegin c endAt physicalSend)

theorem sendOnce_eq (c : SendCall rt) (beginAt endAt : DateTime) (physicalSend : PhysicalSend) :
    sendOnce c beginAt endAt physicalSend = (allowSend c).bind (afterAllow c beginAt endAt physicalSend) := rfl

variable {endAt : DateTime} {physicalSend : PhysicalSend} {o : Outcome SendIntentResult}

theorem afterBegin_refused {c : SendCall rt}
    (h : acceptedResult o = false) : afterBegin c endAt physicalSend o = .done o := by
  cases o with
  | error e => rfl
  | ok res => exact if_pos h

theorem afterAllow_refused {c : SendCall rt} (h : acceptedResult o = false) :
    afterAllow c beginAt endAt physicalSend o = .done o := by
  cases o with
  | error e => rfl
  | ok res => exact if_pos h

theorem rests_afterBegin {c : SendCall rt}
    (hbegun : ∃ e ∈ known, begun e = true) (hsent : ∀ e ∈ known, sent e = false)
    (hk : ∀ more o, Rests p (known ++ more) (k o)) :
    Rests p known ((sending (afterBegin c endAt physicalSend o)).bind k) := by
  have hdone : ∀ o, Rests p known ((sending (.done o)).bind k) := by
    intro o
    have ho := hk [] o
    rwa [append_nil] at ho
  by_cases hno : acceptedResult o = false
  · rw [afterBegin_refused hno]
    exact hdone o
  · cases o with
    | error e => exact absurd rfl hno
    | ok res =>
      unfold afterBegin
      dsimp only
      rw [if_neg (show ¬ res.accepted = false from hno)]
      cases res.intent with
      | none => exact hdone _
      | some intent =>
        refine rests_send ⟨hbegun,hsent⟩ ?_
        intro u
        change Rests _ _ (Script.bind k (sending (match physicalSend intent with
          | .error why => markUncertain c.intentId c.token why endAt
          | .ok evidence => confirm ⟨c.intentId,c.packet,c.token,endAt⟩ evidence)))
        split
        all_goals
          refine rests_send trivial ?_
          intro o
          rw [append_assoc]
          exact hk _ o

theorem rests_sendOnce {c : SendCall rt}
    (hpacket : OnPacket p known c.packet) (hmay : MayBegin c.token known) (hsent : ∀ e ∈ known, sent e = false)
    (hrefused : ∀ more o, acceptedResult o = false → Rests p (known ++ more) (k o))
    (hk : ∀ more o, (∃ e ∈ more, begun e = true) → Rests p (known ++ more) (k o)) :
    Rests p known ((sending (sendOnce c beginAt endAt physicalSend)).bind k) := by
  rw [sendOnce_eq,sending_bind,Script.bind_assoc,allowSend]
  refine rests_throughDom ?_ ?_
  · intro more o _ ho
    rw [afterAllow_refused ho]
    exact hrefused more o ho
  · intro allow hallow
    refine rests_send trivial ?_
    intro o
    have hbefore : ∀ e ∈ allow ++ [(⟨.send (.allow c.args),o⟩ : SessionEntry rt)], Sends Quiet e.1 := by
      intro e he
      rcases mem_append.mp he with he | he
      · exact hallow e he
      · rw [mem_singleton.mp he]
        trivial
    rw [append_assoc]
    generalize allow ++ [(⟨.send (.allow c.args),o⟩ : SessionEntry rt)] = more at hbefore
    by_cases hno : acceptedResult o = false
    · change Rests _ _ (Script.bind k (sending (afterAllow c beginAt endAt physicalSend o)))
      rw [afterAllow_refused hno]
      exact hrefused more o hno
    · have hmore := fun e he => quiet_entry (hbefore e he)
      have hsent' : ∀ e ∈ known ++ more, sent e = false := by
        intro e he
        rcases mem_append.mp he with he | he
        · exact hsent e he
        · exact (hmore e he).2
      have hmay' := hmay.append fun e he => (hmore e he).1
      cases o with
      | error e => exact absurd rfl hno
      | ok allowed =>
        change Rests _ _ (Script.bind k (sending (if allowed.accepted = false then reply allowed else
          (beginPhysicalSend { c with now := beginAt }).bind (afterBegin c endAt physicalSend))))
        rw [if_neg (show ¬ allowed.accepted = false from hno),sending_bind,Script.bind_assoc,beginPhysicalSend]
        refine rests_throughDom ?_ ?_
        · intro dom o _ ho
          rw [afterBegin_refused ho,append_assoc]
          exact hrefused _ o ho
        · intro dom hdom
          have hquiet := fun e he => quiet_entry (hdom e he)
          have hsent'' : ∀ e ∈ known ++ more ++ dom, sent e = false := by
            intro e he
            rcases mem_append.mp he with he | he
            · exact hsent' e he
            · exact (hquiet e he).2
          refine rests_send ⟨(hpacket.append more).append dom,hmay'.append fun e he => (hquiet e he).1⟩ ?_
          intro attempted
          change Rests _ _ (Script.bind k (sending (afterBegin c endAt physicalSend attempted)))
          by_cases hrefuse : acceptedResult attempted = false
          · rw [afterBegin_refused hrefuse,append_assoc,append_assoc]
            exact hrefused _ attempted hrefuse
          · have hbegun : begun (⟨.send (.begin (SendCall.args { c with now := beginAt })),attempted⟩ : SessionEntry rt) =
                true := by
              simp only [begun,beginDigest]
              rw [if_pos (by simpa using hrefuse)]
              rfl
            refine rests_afterBegin ⟨_,mem_append_right _ (mem_singleton_self _),hbegun⟩ ?_ ?_
            · intro e he
              rcases mem_append.mp he with he | he
              · exact hsent'' e he
              · rw [mem_singleton.mp he]
                rfl
            · intro rest o
              rw [append_assoc,append_assoc,append_assoc]
              refine hk _ o ⟨_,?_,hbegun⟩
              simp

end Attempt

section Flow

variable {α β : Type}

theorem rests_of_asks {Q : SendRequest rt → Prop} {script : SendScript rt β} {f : β → SessionScript rt α}
    (hscript : script.AsksOnly Q)
    (hask : ∀ more q, Q q → Grounded p (known ++ more) (.send q))
    (hf : ∀ more b, (∀ e ∈ more, Sends Q e.1) → Rests p (known ++ more) (f b)) :
    Rests p known ((sending script).bind f) := by
  refine ⟨Informed.bind_of_asks (sending_asks hscript) ?_ fun more b hmore => (hf more b hmore).informed⟩
  intro more q _ hq
  cases q with
  | send q => exact hask more q hq
  | _ => cases hq

/-- A call that has neither begun nor sent anything. -/
def Untouched (known : List (SessionEntry rt)) : Prop := ∀ e ∈ known, begun e = false ∧ sent e = false

theorem Untouched.append (h : Untouched known) (hmore : Untouched more) : Untouched (known ++ more) := by
  intro e he
  rcases mem_append.mp he with he | he
  · exact h e he
  · exact hmore e he

theorem untouched_one {e : SessionEntry rt} (hbegun : begun e = false) (hsent : sent e = false) :
    Untouched [e] := by
  intro e' he
  rw [mem_singleton.mp he]
  exact ⟨hbegun,hsent⟩

theorem rests_continueSameChat {authority : ContinuationAuthoritySnapshot} {binding : ExactConversationBinding}
    {browser : BrowserAdapter} {payload : String} {now : DateTime}
    {k : Outcome SameChatFlowResult → SessionScript rt α} (hpacket : OnPacket p known p')
    (hmay : MayBegin token known) (hsent : ∀ e ∈ known, sent e = false)
    (hk : ∀ more o, Rests p (known ++ more) (k o)) :
    Rests p known ((sending (continueSameChat p' authority token binding browser payload now)).bind k) := by
  unfold continueSameChat
  rw [sending_bind,Script.bind_assoc]
  refine rests_of_asks (asks_prepare _) (fun more q hq => grounded_of_quiet (q := .send q) hq) ?_
  intro more prepared hquiet
  have hmore := fun e he => quiet_entry (hquiet e he)
  have hmay' := hmay.append fun e he => (hmore e he).1
  have hsent' : ∀ e ∈ known ++ more, sent e = false := by
    intro e he
    rcases mem_append.mp he with he | he
    · exact hsent e he
    · exact (hmore e he).2
  cases prepared with
  | error f => exact hk more _
  | ok prepared =>
    dsimp only [onOk]
    split
    · split
      · exact hk more _
      · rename_i intent _ _ dom _
        rw [sending_bind,Script.bind_assoc]
        refine rests_sendOnce (hpacket.append more) hmay' hsent' ?_ ?_
        · intro rest o ho
          rw [append_assoc]
          cases o with
          | error f => exact hk _ _
          | ok res =>
            dsimp only [onOk]
            rw [if_pos (.inl ho)]
            exact hk _ _
        · intro rest o hbegun
          rw [append_assoc]
          cases o with
          | error f => exact hk _ _
          | ok res =>
            dsimp only [onOk]
            split
            · exact hk _ _
            · rw [sending_bind,Script.bind_assoc]
              refine rests_of_asks (asks_ack _ _ _) ?_ ?_
              · rintro rest' q (hq | ⟨token,now,rfl⟩)
                · exact grounded_of_quiet (q := .send q) hq
                · obtain ⟨e,he,hb⟩ := hbegun
                  exact ⟨(hpacket.append _).append _,e,by simp [he],hb⟩
              · intro rest' o _
                rw [append_assoc]
                cases o with
                | error f => exact hk _ _
                | ok acked => exact hk _ _
    · exact hk more _

end Flow

/-! ## The calls -/

section Calls

variable {c : SessionCall} {selection : ChannelSelection}

variable {α : Type} {browser : BrowserAdapter}

theorem rests_done (a : α) : Rests p known (.done a : SessionScript rt α) := ⟨trivial⟩

theorem rests_ask {q : SessionRequest rt} {f : q.Answer → SessionScript rt α} (hq : Grounded p known q)
    (h : ∀ a, Rests p (known ++ [⟨q,a⟩]) (f a)) : Rests p known (.ask q f) :=
  ⟨hq,fun a => (h a).informed⟩

theorem rests_raising {β : Type} {o : Outcome β} {f : β → SessionProgram rt} (h : ∀ b, o = .ok b → Rests p known (f b)) :
    Rests p known (raising o f) := by
  cases o with
  | error e => exact rests_done _
  | ok b => exact h b rfl

theorem rests_write {id : String} {w : Transition} {f : Option (SessionReentryRecord rt) → SessionReentryResult rt}
    (hshown : ∃ r, ShownIn known r ∧ r.reentryId = id) (hrank : ∀ state ∈ w.expectedStates, state.rank ≤ w.state.rank) :
    Rests p known (.ask (.transition id w) fun o => raising o fun written => answer (f written)) :=
  rests_ask ⟨hshown,hrank⟩ fun _ => rests_raising fun _ _ => rests_done _

theorem rests_releasing {k : SessionProgram rt} (hpacket : OnPacket p known p')
    (hk : ∀ more, Rests p (known ++ more) k) : Rests p known (releasing c p' token k) :=
  rests_ask hpacket fun _ => hk _

theorem rank_le_blocked (state : SessionLivenessState) : state.rank ≤ reentryBlocked.rank := by
  cases state <;> decide

theorem rank_of_singleton {state target : SessionLivenessState} (h : state.rank ≤ target.rank) :
    ∀ s ∈ [state], s.rank ≤ target.rank := by
  intro s hs
  rw [mem_singleton.mp hs]
  exact h

theorem rests_afterFlow {flow : Outcome SameChatFlowResult}
    (hpacket : OnPacket p known p') (hshown : ShownIn known r) :
    Rests p known (afterFlow c p' token selection browser r flow) := by
  have hlast : ∀ more, ∃ r', ShownIn (known ++ more) r' ∧ r'.reentryId = r.reentryId :=
    fun more => ⟨r,hshown.append more,rfl⟩
  have hnow : ∃ r', ShownIn known r' ∧ r'.reentryId = r.reentryId := ⟨r,hshown,rfl⟩
  have hfailed : reentryInProgress.rank ≤ reentryFailed.rank := by decide
  have hconfirmed : reentryInProgress.rank ≤ reentryConfirmed.rank := by decide
  unfold afterFlow
  dsimp only
  split
  · exact rests_write hnow (rank_of_singleton hfailed)
  · split
    · exact rests_write hnow (rank_of_singleton hconfirmed)
    · split
      · exact rests_releasing hpacket fun more => rests_write (hlast more) (rank_of_singleton hfailed)
      · exact rests_write hnow (rank_of_singleton hfailed)

theorem mayBegin_of_steps {e e' : SessionEntry rt} {r r' : SessionReentryRecord rt} (huntouched : Untouched known)
    (hclaim : ∃ before e after, known = before ++ e :: after ∧ claimedWith (tokenDigest rt token) e = true)
    (hprepared : shown e = some r) (hr : r.livenessState = reentryPrepared)
    (hstarted : shown e' = some r') (hr' : r'.livenessState = reentryInProgress)
    (he : begun e = false) (he' : begun e' = false) : MayBegin token (known ++ [e] ++ [e']) where
  prepared := by
    obtain ⟨before,claim,after,rfl,hclaimed⟩ := hclaim
    exact ⟨before,claim,after ++ [e] ++ [e'],r,by simp,hclaimed,(ShownIn.last hprepared).append _,hr⟩
  started := ⟨r',ShownIn.last hstarted,hr'⟩
  first := by
    intro x hx
    rcases mem_append.mp hx with hx | hx
    · rcases mem_append.mp hx with hx | hx
      · exact (huntouched x hx).1
      · exact mem_singleton.mp hx ▸ he
    · exact mem_singleton.mp hx ▸ he'

variable {payload : String}

theorem rests_underClaim {binding : ExactConversationBinding}
    (hpacket : OnPacket p known p') (hshown : ShownIn known r) (hrank : r.livenessState.rank = 0)
    (huntouched : Untouched known)
    (hclaim : ∃ before e after, known = before ++ e :: after ∧ claimedWith (tokenDigest rt token) e = true) :
    Rests p known (underClaim c p' payload token r selection binding browser) := by
  have hprepare : r.livenessState.rank ≤ reentryPrepared.rank := by
    rw [hrank]
    exact Nat.zero_le _
  have hprogress : reentryPrepared.rank ≤ reentryInProgress.rank := by decide
  unfold underClaim
  refine rests_ask ⟨⟨r,hshown,rfl⟩,rank_of_singleton hprepare⟩ ?_
  intro prepared
  cases prepared with
  | error f =>
    refine rests_releasing (hpacket.append _) fun more => ?_
    rw [append_assoc]
    exact rests_write ⟨r,hshown.append _,rfl⟩ (rank_of_singleton (rank_le_blocked _))
  | ok prepared =>
    cases prepared with
    | none => exact rests_done _
    | some prepared =>
      dsimp only
      split
      · exact rests_releasing (hpacket.append _) fun more => rests_done _
      · rename_i hstate
        have hstate : prepared.livenessState = reentryPrepared := not_not.mp hstate
        refine rests_ask ⟨⟨prepared,ShownIn.last rfl,rfl⟩,rank_of_singleton hprogress⟩ ?_
        intro inProgress
        refine rests_raising ?_
        rintro inProgress rfl
        cases inProgress with
        | none => exact rests_done _
        | some inProgress =>
          dsimp only
          split
          · exact rests_releasing ((hpacket.append _).append _) fun more => rests_done _
          · rename_i hbegin
            refine rests_continueSameChat ((hpacket.append _).append _)
              (mayBegin_of_steps huntouched hclaim rfl hstate rfl (not_not.mp hbegin) rfl rfl) ?_ ?_
            · intro e he
              exact ((huntouched.append (untouched_one rfl rfl)).append (untouched_one rfl rfl) e he).2
            · intro more flow
              exact rests_afterFlow (((hpacket.append _).append _).append _) ((ShownIn.last rfl).append _)

theorem rests_executeAutomated (hpacket : OnPacket p known p') (hshown : ShownIn known r)
    (hrank : r.livenessState.rank = 0) (huntouched : Untouched known) :
    Rests p known (executeAutomated c p' payload r selection) := by
  unfold executeAutomated
  split
  · refine rests_ask hpacket ?_
    intro claimed
    refine rests_raising ?_
    rintro claim rfl
    cases htoken : ownerToken claim with
    | some token =>
      refine rests_underClaim (hpacket.append _) (hshown.append _) hrank (huntouched.append (untouched_one rfl rfl)) ?_
      refine ⟨known,_,[],rfl,?_⟩
      simp [claimedWith,handedOut,Except.toOption,htoken]
    | none => exact rests_write ⟨r,hshown.append _,rfl⟩ (rank_of_singleton (rank_le_blocked _))
  · exact rests_done _

theorem rests_byIntent {status : Option SendStatus} (hshown : ShownIn known r)
    (hrank : r.livenessState.rank ≤ reentryConfirmed.rank) : Rests p known (byIntent c r status) := by
  unfold byIntent
  split
  · exact rests_write ⟨r,hshown,rfl⟩ (rank_of_singleton hrank)
  all_goals exact rests_done _

theorem rests_idempotentOrInProgress {otherwise : SessionProgram rt} (hshown : ShownIn known r)
    (hotherwise : r.livenessState.rank = 0 → Rests p known otherwise) :
    Rests p known (idempotentOrInProgress c r otherwise) := by
  have hprepared : reentryPrepared.rank ≤ reentryConfirmed.rank := by decide
  have hinProgress : reentryInProgress.rank ≤ reentryConfirmed.rank := by decide
  unfold idempotentOrInProgress
  cases hstate : r.livenessState with
  | reentryConfirmed | operatorCheckpoint | reentryFailed | reentryBlocked => exact rests_done _
  | reentryPrepared =>
    exact rests_ask trivial fun _ => rests_byIntent (hshown.append _) (by rw [hstate]; exact hprepared)
  | reentryInProgress =>
    exact rests_ask trivial fun _ => rests_byIntent (hshown.append _) (by rw [hstate]; exact hinProgress)
  | sessionActive | turnEnded | sessionUnavailable | continuationPending => exact hotherwise (by rw [hstate]; rfl)

theorem rests_toCheckpoint (hshown : ShownIn known r) (hrank : r.livenessState.rank = 0) :
    Rests p known (toCheckpoint c r selection) := by
  have hunavailable : r.livenessState.rank ≤ sessionUnavailable.rank := hrank.le
  have hcheckpoint : sessionUnavailable.rank ≤ operatorCheckpoint.rank := by decide
  unfold toCheckpoint
  refine rests_ask ⟨⟨r,hshown,rfl⟩,rank_of_singleton hunavailable⟩ ?_
  intro unavailable
  refine rests_raising ?_
  rintro unavailable rfl
  cases unavailable with
  | none => exact rests_done _
  | some unavailable =>
    refine rests_ask ⟨⟨unavailable,ShownIn.last rfl,rfl⟩,rank_of_singleton hcheckpoint⟩ ?_
    intro checkpoint
    refine rests_raising ?_
    rintro checkpoint rfl
    cases checkpoint with
    | none => exact rests_done _
    | some checkpoint => exact rests_done _

theorem rests_reenter (c : ReenterCall rt) (hpacket : c.packet = p) : Rests p [] (reenter c) := by
  unfold reenter
  split
  · exact rests_done _
  · rename_i payload _
    split
    · exact rests_done _
    · refine rests_ask hpacket ?_
      intro created
      refine rests_raising ?_
      rintro created rfl
      cases created with
      | error f => exact rests_done _
      | ok record =>
        have hshown : ShownIn [(⟨.createOrRead c.packet payload c.now,.ok (.ok record)⟩ : SessionEntry rt)] record :=
          ⟨_,mem_singleton_self _,rfl⟩
        refine rests_idempotentOrInProgress hshown ?_
        intro hrank
        split
        · exact rests_write ⟨record,hshown,rfl⟩ (rank_of_singleton (rank_le_blocked _))
        · dsimp only
          split
          · exact rests_toCheckpoint hshown hrank
          · exact rests_executeAutomated (.inl hpacket) hshown hrank (untouched_one rfl rfl)

theorem rests_handOff {c : CheckpointCall} (hshown : ShownIn known r) (huntouched : Untouched known) :
    Rests p known (handOff c r payload) := by
  have hpending : operatorCheckpoint.rank ≤ continuationPending.rank := by decide
  have hpacket : OnPacket p known r.packet := .inr ⟨r,hshown,rfl⟩
  unfold handOff
  dsimp only
  split
  · exact rests_done _
  · refine rests_ask ⟨⟨r,hshown,rfl⟩,rank_of_singleton hpending⟩ ?_
    intro reopened
    cases reopened with
    | error f => exact rests_write ⟨r,hshown.append _,rfl⟩ (rank_of_singleton (rank_le_blocked _))
    | ok reopened =>
      cases reopened with
      | none => exact rests_done _
      | some reopened =>
        dsimp only
        split
        · exact rests_done _
        · rename_i hstate
          refine rests_executeAutomated (hpacket.append _) (ShownIn.last rfl) ?_
            (huntouched.append (untouched_one rfl rfl))
          rw [not_not.mp hstate]
          rfl

theorem rests_continueFromOperatorCheckpoint (c : CheckpointCall) :
    Rests p [] (continueFromOperatorCheckpoint c : SessionProgram rt) := by
  unfold continueFromOperatorCheckpoint
  refine rests_ask trivial ?_
  intro read
  cases read with
  | none => exact rests_done _
  | some record =>
    have hshown : ShownIn [(⟨.readCheckpoint c.checkpointId,some record⟩ : SessionEntry rt)] record :=
      ⟨_,mem_singleton_self _,rfl⟩
    dsimp only
    split
    · exact rests_idempotentOrInProgress hshown fun _ => rests_done _
    · refine rests_raising ?_
      intro payload _
      split
      · exact rests_done _
      · split
        · exact rests_done _
        · exact rests_handOff hshown (untouched_one rfl rfl)

end Calls

/-! ## Answers -/

/-- The answer leaves the continuation to another attempt. The other answers that name a
record as it was found have codes of their own. -/
def InProgress (r : SessionReentryResult rt) : Prop := r.reasonCode = "REENTRY_IN_PROGRESS" ∧ r.idempotent = true

/-- No attempt and no acknowledgement is recorded for the intent. -/
def undecided : Option SendStatus → Bool
  | some .acknowledged => false
  | some .uncertain => false
  | some .reconciliationRequired => false
  | some .physicalSendAttempted => false
  | _ => true

/-- The result does not leave the continuation to another attempt. -/
def Silent (o : Outcome (SessionReentryResult rt)) : Prop := ∀ r, o = .ok r → ¬ InProgress r

/-- The last request of a call that leaves the continuation to another attempt is a look at
an undecided intent. -/
def LooksLast (now : DateTime) : SessionEntry rt → Outcome (SessionReentryResult rt) → Prop
  | ⟨.existingIntent _ now',status⟩, o => Silent o ∨ now' = now ∧ undecided status = true
  | _, o => Silent o

/-- A program that leaves the continuation to another attempt only after such a look. -/
structure Plain (now : DateTime) (script : SessionProgram rt) : Prop where
  closes : script.Closes (LooksLast now)
  silent : ∀ o, script = .done o → Silent o

section Answers

variable {now : DateTime} {c : SessionCall} {selection : ChannelSelection}

variable {o : Outcome (SessionReentryResult rt)} {payload : String}

theorem looksLast_of_silent {e : SessionEntry rt} (h : Silent o) : LooksLast now e o := by
  obtain ⟨q,a⟩ := e
  cases q with
  | existingIntent r now' => exact .inl h
  | _ => exact h

theorem plain_done (h : Silent o) : Plain now (.done o) :=
  ⟨.done o,fun _ ho => by cases ho; exact h⟩

theorem silent_error (f : Failure) : Silent (.error f : Outcome (SessionReentryResult rt)) := by
  intro r hr
  cases hr

theorem plain_answer {r : SessionReentryResult rt} (h : ¬ InProgress r) : Plain now (answer r) :=
  plain_done fun _ hr => by cases hr; exact h

theorem plain_fresh {r : SessionReentryResult rt} (h : r.idempotent = false) : Plain now (answer r) :=
  plain_answer fun hr => by
    rw [hr.2] at h
    cases h

theorem plain_coded {r : SessionReentryResult rt} (h : r.reasonCode ≠ "REENTRY_IN_PROGRESS") : Plain now (answer r) :=
  plain_answer fun hr => h hr.1

theorem plain_ask {q : SessionRequest rt} {f : q.Answer → SessionProgram rt} (h : ∀ a, Plain now (f a)) :
    Plain now (.ask q f) :=
  ⟨.ask (fun a o ho => looksLast_of_silent ((h a).silent o ho)) fun a => (h a).closes,fun _ ho => by cases ho⟩

theorem plain_raising {β : Type} {o : Outcome β} {f : β → SessionProgram rt} (h : ∀ b, Plain now (f b)) :
    Plain now (raising o f) := by
  cases o with
  | error e => exact plain_done (silent_error e)
  | ok b => exact h b

theorem plain_bind {α : Type} {script : SessionScript rt α} {f : α → SessionProgram rt} (h : ∀ a, Plain now (f a)) :
    Plain now (script.bind f) := by
  refine ⟨Closes.bind (fun a o e ho => looksLast_of_silent ((h a).silent o ho)) fun a => (h a).closes,?_⟩
  intro o ho
  cases script with
  | done a => exact (h a).silent o ho
  | ask q k => cases ho

theorem plain_write {id : String} {w : Transition} {f : Option (SessionReentryRecord rt) → SessionReentryResult rt}
    (h : ∀ written, (f written).idempotent = false ∨ (f written).reasonCode ≠ "REENTRY_IN_PROGRESS") :
    Plain now (.ask (.transition id w) fun o => raising o fun written => answer (f written)) := by
  refine plain_ask fun _ => plain_raising fun written => ?_
  rcases h written with hfresh | hcode
  · exact plain_fresh hfresh
  · exact plain_coded hcode

theorem plain_releasing {k : SessionProgram rt} (h : Plain now k) : Plain now (releasing c p' token k) :=
  plain_ask fun _ => h

theorem plain_afterFlow {browser : BrowserAdapter} {flow : Outcome SameChatFlowResult} :
    Plain now (afterFlow c p' token selection browser r flow) := by
  unfold afterFlow
  dsimp only
  split
  · exact plain_write fun _ => .inl rfl
  · split
    · exact plain_write fun _ => .inl rfl
    · split
      · exact plain_releasing (plain_write fun _ => .inl rfl)
      · exact plain_write fun _ => .inl rfl

theorem plain_underClaim {binding : ExactConversationBinding} {browser : BrowserAdapter} :
    Plain now (underClaim c p' payload token r selection binding browser) := by
  unfold underClaim
  refine plain_ask ?_
  intro prepared
  cases prepared with
  | error f => exact plain_releasing (plain_write fun _ => .inl rfl)
  | ok prepared =>
    cases prepared with
    | none => exact plain_fresh rfl
    | some prepared =>
      dsimp only
      split
      · exact plain_releasing (plain_coded (by simp [stateLost,SessionReentryResult.found]))
      · refine plain_ask fun inProgress => plain_raising fun inProgress => ?_
        cases inProgress with
        | none => exact plain_fresh rfl
        | some inProgress =>
          dsimp only
          split
          · exact plain_releasing (plain_coded (by simp [stateLost,SessionReentryResult.found]))
          · exact plain_bind fun _ => plain_afterFlow

theorem plain_executeAutomated : Plain now (executeAutomated c p' payload r selection) := by
  unfold executeAutomated
  split
  · refine plain_ask fun claimed => plain_raising fun claim => ?_
    cases ownerToken claim with
    | some token => exact plain_underClaim
    | none => exact plain_write fun _ => .inl rfl
  · exact plain_fresh rfl

theorem closes_byIntent (status : Option SendStatus) : (byIntent c r status).Closes (LooksLast now) := by
  unfold byIntent
  split
  · exact (plain_write fun _ => .inr (by simp [SessionReentryResult.wrote])).closes
  all_goals exact .done _

theorem silent_byIntent {status : Option SendStatus}
    (h : byIntent c r status = .done o) : Silent o ∨ undecided status = true := by
  have huncertain : Plain c.now (answer (SessionReentryResult.found false "DELIVERY_UNCERTAIN"
      "durable send intent is unresolved; blind re-entry send is forbidden" r)) :=
    plain_coded (by simp [SessionReentryResult.found])
  cases status with
  | none => exact .inr rfl
  | some status =>
    cases status with
    | acknowledged => cases h
    | uncertain => exact .inl (huncertain.silent o h)
    | reconciliationRequired => exact .inl (huncertain.silent o h)
    | physicalSendAttempted => exact .inl (huncertain.silent o h)
    | _ => exact .inr rfl

theorem plain_look : Plain now (.ask (.existingIntent r now) (byIntent c r)) := by
  refine ⟨.ask ?_ closes_byIntent,fun _ ho => by cases ho⟩
  intro status o ho
  exact (silent_byIntent ho).imp_right fun h => ⟨rfl,h⟩

theorem plain_idempotentOrInProgress {otherwise : SessionProgram rt} (h : Plain c.now otherwise) :
    Plain c.now (idempotentOrInProgress c r otherwise) := by
  unfold idempotentOrInProgress
  split
  · exact plain_coded (by simp [SessionReentryResult.found])
  · exact plain_coded (by simp [SessionReentryResult.checkpointResult,SessionReentryResult.found])
  · exact plain_look
  · exact plain_look
  · exact plain_coded (by simp [SessionReentryResult.found])
  · exact plain_coded (by simp [SessionReentryResult.found])
  · exact h

theorem plain_toCheckpoint : Plain now (toCheckpoint c r selection) := by
  unfold toCheckpoint
  refine plain_ask fun unavailable => plain_raising fun unavailable => ?_
  cases unavailable with
  | none => exact plain_fresh rfl
  | some unavailable =>
    refine plain_ask fun checkpoint => plain_raising fun checkpoint => ?_
    cases checkpoint with
    | none => exact plain_fresh rfl
    | some checkpoint => exact plain_fresh rfl

theorem plain_reenter (c : ReenterCall rt) : Plain c.now (reenter c) := by
  unfold reenter
  split
  · exact plain_fresh rfl
  · split
    · exact plain_fresh rfl
    · refine plain_ask fun created => plain_raising fun created => ?_
      cases created with
      | error f => exact plain_fresh rfl
      | ok record =>
        refine plain_idempotentOrInProgress ?_
        split
        · exact plain_write fun _ => .inl rfl
        · dsimp only
          split
          · exact plain_toCheckpoint
          · exact plain_executeAutomated

theorem plain_handOff {c : CheckpointCall} : Plain now (handOff c r payload) := by
  unfold handOff
  dsimp only
  split
  · exact plain_fresh rfl
  · refine plain_ask fun reopened => ?_
    cases reopened with
    | error f => exact plain_write fun _ => .inl rfl
    | ok reopened =>
      cases reopened with
      | none => exact plain_fresh rfl
      | some reopened =>
        dsimp only
        split
        · exact plain_coded (by simp [stateLost,SessionReentryResult.found])
        · exact plain_executeAutomated

theorem plain_continueFromOperatorCheckpoint (c : CheckpointCall) :
    Plain c.now (continueFromOperatorCheckpoint c : SessionProgram rt) := by
  unfold continueFromOperatorCheckpoint
  refine plain_ask fun read => ?_
  cases read with
  | none => exact plain_fresh rfl
  | some record =>
    dsimp only
    split
    · exact plain_idempotentOrInProgress (plain_coded (by simp [SessionReentryResult.found]))
    · refine plain_raising fun payload => ?_
      split
      · exact plain_fresh rfl
      · split
        · exact plain_fresh rfl
        · exact plain_handOff

end Answers

/-! ## Lost races -/

/-- The claim was refused because the lease is held by a live owner. -/
def Held : SessionEntry rt → Prop
  | ⟨.send (.lease (.claim _ _ _ _ _) _),o⟩ =>
    ∃ l, o = .ok (ContinuationLeaseResult.rejected "LEASE_HELD" "continuation is already claimed" l)
  | _ => False

/-- The write of a call that has lost the race for the lease to a live owner. -/
def LostWrite : SessionRequest rt → Prop
  | .transition _ w => w.trace = ["LEASE_CLAIM_REJECTED"] ∧ w.reason = "continuation is already claimed"
  | _ => False

/-- After a lost race a program makes only this write. -/
abbrev Heedful {α : Type} (script : SessionScript rt α) : Prop := script.Heeds Held LostWrite

section Races

variable {c : SessionCall} {selection : ChannelSelection} {α β : Type}

theorem heedful_ask {q : SessionRequest rt} {f : q.Answer → SessionScript rt α} (hq : claimToken q = none)
    (h : ∀ a, Heedful (f a)) : Heedful (.ask q f) := by
  refine .ask ?_ h
  intro a ha
  cases q with
  | send q =>
    cases q with
    | lease call now =>
      cases call with
      | claim => cases hq
      | _ => cases ha
    | _ => cases ha
  | _ => cases ha

theorem heedful_raising {o : Outcome β} {f : β → SessionProgram rt} (h : ∀ b, Heedful (f b)) :
    Heedful (raising o f) := by
  cases o with
  | error e => exact .done _
  | ok b => exact h b

theorem heedful_write {id : String} {w : Transition} {f : Option (SessionReentryRecord rt) → SessionReentryResult rt} :
    Heedful (.ask (.transition id w) fun o => raising o fun written => answer (f written)) :=
  heedful_ask rfl fun _ => heedful_raising fun _ => .done _

def NoClaim : SendRequest rt → Prop
  | .lease (.claim _ _ _ _ _) _ => False
  | _ => True

variable {q : SendRequest rt} {binding : ExactConversationBinding}

theorem Quiet.noClaim (h : Quiet q) : NoClaim q := by
  cases q with
  | lease call now => cases h
  | _ => trivial

theorem Acknowledges.noClaim (h : Acknowledges p q) : NoClaim q := by
  rcases h with h | ⟨token,now,rfl⟩
  · exact h.noClaim
  · trivial

theorem asks_throughDom {c : SendCall rt} {go : SendProgram rt} (hgo : go.AsksOnly NoClaim) :
    (throughDom c go).AsksOnly NoClaim := by
  unfold throughDom
  split
  · refine .ask trivial ?_
    intro fenced
    cases fenced with
    | error e | ok r => exact .done _
  · refine .ask trivial ?_
    intro read
    cases read with
    | none => exact .done _
    | some r =>
      dsimp only
      split
      · exact .done _
      · exact hgo

variable {physicalSend : PhysicalSend}

theorem asks_afterBegin {c : SendCall rt} {endAt : DateTime}
    (o : Outcome SendIntentResult) : (afterBegin c endAt physicalSend o).AsksOnly NoClaim := by
  cases o with
  | error e => exact .done _
  | ok res =>
    unfold afterBegin
    dsimp only
    split
    · exact .done _
    · split
      · exact .done _
      · refine .ask trivial fun _ => ?_
        split
        all_goals exact .ask trivial fun _ => .done _

theorem asks_sendOnce {c : SendCall rt} {beginAt endAt : DateTime} :
    (sendOnce c beginAt endAt physicalSend).AsksOnly NoClaim := by
  rw [sendOnce_eq]
  refine AsksOnly.bind (asks_throughDom (.ask trivial fun _ => .done _)) fun o => ?_
  cases o with
  | error e => exact .done _
  | ok res =>
    unfold afterAllow
    dsimp only
    split
    · exact .done _
    · exact AsksOnly.bind (asks_throughDom (.ask trivial fun _ => .done _)) asks_afterBegin

theorem asks_onOk {o : Outcome α} {f : α → SendScript rt (Outcome β)} (h : ∀ a, (f a).AsksOnly NoClaim) :
    (onOk o f).AsksOnly NoClaim := by
  cases o with
  | error e => exact .done _
  | ok a => exact h a

variable {browser : BrowserAdapter} {payload : String}

theorem asks_continueSameChat {authority : ContinuationAuthoritySnapshot}
     {now : DateTime} :
    (continueSameChat p authority token binding browser payload now).AsksOnly NoClaim := by
  unfold continueSameChat
  refine ((asks_prepare _).mono fun _ => Quiet.noClaim).bind fun prepared => asks_onOk fun prepared => ?_
  split
  · split
    · exact .done _
    · refine asks_sendOnce.bind fun sent => asks_onOk fun sent => ?_
      split
      · exact .done _
      · exact ((asks_ack _ _ _).mono fun _ => Acknowledges.noClaim).bind fun acked => asks_onOk fun _ => .done _
  · exact .done _

theorem heedful_sending {script : SendScript rt α} (hscript : script.AsksOnly NoClaim)
    {k : α → SessionProgram rt} (hk : ∀ a, Heedful (k a)) : Heedful ((sending script).bind k) := by
  induction hscript with
  | done a => exact hk a
  | @ask q f hq hf ih =>
    refine heedful_ask ?_ ih
    cases q with
    | lease call now =>
      cases call with
      | claim => cases hq
      | _ => rfl
    | _ => rfl

theorem heedful_releasing {k : SessionProgram rt} (h : Heedful k) : Heedful (releasing c p' token k) :=
  heedful_ask rfl fun _ => h

theorem heedful_afterFlow {flow : Outcome SameChatFlowResult} :
    Heedful (afterFlow c p' token selection browser r flow) := by
  unfold afterFlow
  dsimp only
  split
  · exact heedful_write
  · split
    · exact heedful_write
    · split
      · exact heedful_releasing heedful_write
      · exact heedful_write

theorem heedful_underClaim : Heedful (underClaim c p' payload token r selection binding browser) := by
  unfold underClaim
  refine heedful_ask rfl ?_
  intro prepared
  cases prepared with
  | error f => exact heedful_releasing heedful_write
  | ok prepared =>
    cases prepared with
    | none => exact .done _
    | some prepared =>
      dsimp only
      split
      · exact heedful_releasing (.done _)
      · refine heedful_ask rfl fun inProgress => heedful_raising fun inProgress => ?_
        cases inProgress with
        | none => exact .done _
        | some inProgress =>
          dsimp only
          split
          · exact heedful_releasing (.done _)
          · exact heedful_sending asks_continueSameChat fun _ => heedful_afterFlow

theorem heedful_executeAutomated : Heedful (executeAutomated c p' payload r selection) := by
  unfold executeAutomated
  split
  · refine .ask ?_ ?_
    · rintro o ⟨l,rfl⟩
      exact .ask ⟨rfl,rfl⟩ fun blocked => by
        cases blocked with
        | error f | ok blocked => exact .done _
    · intro claimed
      refine heedful_raising fun claim => ?_
      cases ownerToken claim with
      | some token => exact heedful_underClaim
      | none => exact heedful_write
  · exact .done _

theorem heedful_byIntent (status : Option SendStatus) : Heedful (byIntent c r status) := by
  unfold byIntent
  split
  · exact heedful_write
  all_goals exact .done _

theorem heedful_idempotentOrInProgress {otherwise : SessionProgram rt} (h : Heedful otherwise) :
    Heedful (idempotentOrInProgress c r otherwise) := by
  have hlook : Heedful (.ask (.existingIntent r c.now) (byIntent c r)) := heedful_ask rfl heedful_byIntent
  unfold idempotentOrInProgress
  split
  · exact .done _
  · exact .done _
  · exact hlook
  · exact hlook
  · exact .done _
  · exact .done _
  · exact h

theorem heedful_reenter (c : ReenterCall rt) : Heedful (reenter c) := by
  unfold reenter
  split
  · exact .done _
  · split
    · exact .done _
    · refine heedful_ask rfl fun created => heedful_raising fun created => ?_
      cases created with
      | error f => exact .done _
      | ok record =>
        refine heedful_idempotentOrInProgress ?_
        split
        · exact heedful_write
        · dsimp only
          split
          · unfold toCheckpoint
            refine heedful_ask rfl fun unavailable => heedful_raising fun unavailable => ?_
            cases unavailable with
            | none => exact .done _
            | some unavailable =>
              refine heedful_ask rfl fun checkpoint => heedful_raising fun checkpoint => ?_
              cases checkpoint with
              | none => exact .done _
              | some checkpoint => exact .done _
          · exact heedful_executeAutomated

theorem heedful_continueFromOperatorCheckpoint (c : CheckpointCall) :
    Heedful (continueFromOperatorCheckpoint c : SessionProgram rt) := by
  unfold continueFromOperatorCheckpoint
  refine heedful_ask rfl fun read => ?_
  cases read with
  | none => exact .done _
  | some record =>
    dsimp only
    split
    · exact heedful_idempotentOrInProgress (.done _)
    · refine heedful_raising fun payload => ?_
      split
      · exact .done _
      · split
        · exact .done _
        · unfold handOff
          dsimp only
          split
          · exact .done _
          · refine heedful_ask rfl fun reopened => ?_
            cases reopened with
            | error f => exact heedful_write
            | ok reopened =>
              cases reopened with
              | none => exact .done _
              | some reopened =>
                dsimp only
                split
                · exact .done _
                · exact heedful_executeAutomated

end Races

/-! ## Programs -/

theorem program_grounded (call : ReentryCall p) : Informed (Grounded p) [] call.program := by
  cases call with
  | reenter c onPacket => exact (rests_reenter c onPacket).informed.map _
  | continueFromOperatorCheckpoint c => exact (rests_continueFromOperatorCheckpoint c).informed.map _

theorem program_closes (call : ReentryCall p) :
    call.program.Closes fun e a => LooksLast a.now e a.result := by
  cases call with
  | reenter c onPacket => exact (plain_reenter c).closes.map fun _ _ h => h
  | continueFromOperatorCheckpoint c => exact (plain_continueFromOperatorCheckpoint c).closes.map fun _ _ h => h

theorem program_silent (call : ReentryCall p) {a : Answered rt} (h : call.program = .done a) : Silent a.result := by
  cases call with
  | reenter c onPacket =>
    dsimp only [ReentryCall.program] at h
    cases hscript : reenter c with
    | done o =>
      rw [hscript] at h
      cases h
      exact (plain_reenter c).silent o hscript
    | ask q k =>
      rw [hscript] at h
      cases h
  | continueFromOperatorCheckpoint c => cases h

theorem program_heedful (call : ReentryCall p) : Heedful call.program := by
  cases call with
  | reenter c onPacket => exact (heedful_reenter c).map _
  | continueFromOperatorCheckpoint c => exact (heedful_continueFromOperatorCheckpoint c).map _

end Bdb.Session
