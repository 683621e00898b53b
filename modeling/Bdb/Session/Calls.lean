import Bdb.Session.Reentry

/-! # Re-entry calls

A call records the end of a session, chooses a channel, claims the lease of the packet and
then makes one attempt to continue the chat. It is a program over the transactions of the
lease, of the intent and of the record, so that other calls may act, and the caller may
crash, between any two.
-/
namespace Bdb.Session

open Bdb.Continuation Json SessionStore SessionLivenessState

variable {rt : Runtime}

abbrev SessionScript (rt : Runtime) (α : Type) := Script (SessionRequest rt) SessionRequest.Answer α

/-! ## Channels -/

/-- What a call sees of a browser: the chat on screen when the channel is chosen (none when
the adapter raises) and when the message is to be sent, what a physical send does, and the
count and the trace the adapter reports at the end. -/
structure BrowserAdapter where
  snapshot : Option DomPreconditions
  sendSnapshot : Except String DomPreconditions
  physicalSend : PhysicalSend
  visibleSendCount : Int
  trace : List String

/-- An official capability to open a new conversation; none when it cannot be called, raises
or returns no binding. -/
structure OfficialNewConversationCapability where
  officialCapability : Bool
  identityVerifiable : Bool
  createAndVerify : Option (ExactConversationBinding × Option BrowserAdapter)

structure ChannelSelection where
  channel : ReentryChannel
  binding : Option ExactConversationBinding
  browser : Option BrowserAdapter
  reason : String

/-- The chat on screen is the one of the binding. -/
def BrowserAdapter.shows (browser : BrowserAdapter) (b : ExactConversationBinding) : Bool :=
  browser.snapshot.any fun dom => dom.conversationId == some b.conversationId

def officialNewChatPolicies : List String :=
  ["OFFICIAL_NEW_CONVERSATION_ALLOWED","EXISTING_OR_OFFICIAL_NEW_CHAT","EXISTING_OR_NEW_CONVERSATION",
    "OFFICIAL_NEW_CHAT_ALLOWED"]

def verifiedPair (rt : Runtime) (binding : Option ExactConversationBinding) (browser : Option BrowserAdapter) :
    Option (ExactConversationBinding × BrowserAdapter) := do
  let b ← binding
  let adapter ← browser
  guard (b.isExact rt = true ∧ adapter.shows b = true)
  pure (b,adapter)

def officialPair (rt : Runtime) (authority : ContinuationAuthoritySnapshot)
    (capability : Option OfficialNewConversationCapability) : Option (ExactConversationBinding × BrowserAdapter) := do
  guard (rt.upper authority.conversationBindingPolicy ∈ officialNewChatPolicies)
  let capability ← capability
  guard (capability.officialCapability = true ∧ capability.identityVerifiable = true)
  let (b,browser) ← capability.createAndVerify
  verifiedPair rt (some b) browser

def resolveChannel (rt : Runtime) (authority : ContinuationAuthoritySnapshot)
    (existingBinding : Option ExactConversationBinding) (browser : Option BrowserAdapter)
    (capability : Option OfficialNewConversationCapability) (policyAllowed : Bool) : ChannelSelection :=
  let unavailable : ChannelSelection :=
    ⟨.operatorAssistedCheckpointRequired,none,none,
      "policy denied or no safe identity-verifiable automated conversation channel is available"⟩
  if policyAllowed = false then unavailable
  else match verifiedPair rt existingBinding browser with
    | some (b,adapter) => ⟨.existingConversationVerified,some b,some adapter,
        "existing conversation identity and DOM identity match"⟩
    | none => match officialPair rt authority capability with
      | some (b,adapter) => ⟨.officialNewConversationCapabilityVerified,some b,some adapter,
          "official capability returned an exact verifiable conversation identity"⟩
      | none => unavailable

/-! ## Results -/

structure SessionReentryResult (rt : Runtime) where
  accepted : Bool
  reasonCode : String
  message : String
  record : Option (SessionReentryRecord rt)
  trace : List String
  effects : Int
  idempotent : Bool
  selectedChannel : Option ReentryChannel
  checkpointId : Option String

abbrev SessionProgram (rt : Runtime) := SessionScript rt (Outcome (SessionReentryResult rt))

namespace SessionReentryResult

/-- A refusal without a record. -/
def invalid (code message : String) : SessionReentryResult rt := ⟨false,code,message,none,[],0,false,none,none⟩

def found (accepted : Bool) (code message : String) (r : SessionReentryRecord rt) : SessionReentryResult rt :=
  ⟨accepted,code,message,some r,r.trace,0,true,r.selectedChannel,r.checkpointId⟩

/-- A refusal that names the record, without an effect. -/
def refused (code message : String) (r : SessionReentryRecord rt) : SessionReentryResult rt :=
  { found false code message r with idempotent := false }

/-- The answer after a write that follows a record that was read. -/
def wrote (accepted : Bool) (code message : String) (read : SessionReentryRecord rt)
    (written : Option (SessionReentryRecord rt)) (effects : Int) (channel : Option ReentryChannel) :
    SessionReentryResult rt :=
  ⟨accepted,code,message,written,(written.getD read).trace,effects,false,channel,read.checkpointId⟩

def checkpointResult (r : SessionReentryRecord rt) (idempotent : Bool) : SessionReentryResult rt :=
  { found true (if idempotent then "ALREADY_OPERATOR_CHECKPOINT" else "OPERATOR_CHECKPOINT_CREATED")
      "one-click operator-assisted re-entry checkpoint is durable and contains the exact continuation intent" r with
    idempotent := idempotent }

end SessionReentryResult

open SessionReentryResult

/-! ## One attempt to continue the chat -/

structure SameChatFlowResult where
  accepted : Bool
  intent : Option SendIntentRecord
  sendResult : Option SendIntentResult

def onOk {α β : Type} (o : Outcome α) (k : α → SendScript rt (Outcome β)) : SendScript rt (Outcome β) :=
  match o with
  | .error f => .done (.error f)
  | .ok a => k a

def continueSameChat (p : ContinuationPacket rt) (authority : ContinuationAuthoritySnapshot) (token : String)
    (binding : ExactConversationBinding) (browser : BrowserAdapter) (payload : String) (now : DateTime) :
    SendScript rt (Outcome SameChatFlowResult) :=
  (prepare ⟨p,authority,token,payload,some binding,none,now⟩).bind fun prepared => onOk prepared fun prepared =>
    match prepared.accepted, prepared.intent with
    | true, some intent =>
      match browser.sendSnapshot with
      | .error why => .done (fail "" why)
      | .ok dom =>
        (sendOnce ⟨intent.intentId,p,authority,token,dom,now⟩ now now browser.physicalSend).bind fun sent =>
          onOk sent fun sent =>
            if sent.accepted = false ∨ sent.intent = none then .done (.ok ⟨false,sent.intent,some sent⟩)
            else
              let acknowledgement : SendAck := ⟨intent.intentId,intent.continuationId,intent.packetDigest,
                intent.executionBindingId,intent.conversationBindingId.getD ""⟩
              (Continuation.ack ⟨intent.intentId,p,token,now⟩ acknowledgement now).bind fun acked => onOk acked fun acked =>
                .done (.ok ⟨acked.accepted,acked.intent,some sent⟩)
    | _, _ => .done (.ok ⟨false,prepared.intent,none⟩)

/-! ## Calls -/

/-- What every call is given: the coordinator of its leases, the live facts, the owner and
the fresh token a claim would hand out, its clock reading, and the readings before each of
its writes. -/
structure SessionCall where
  co : LeaseCoordinator
  authority : ContinuationAuthoritySnapshot
  ownerId : String
  token : String
  now : DateTime
  clock : SessionLivenessState → DateTime

def SessionCall.write (c : SessionCall) (state : SessionLivenessState) (reason : String) (trace : List String)
    (expectedStates : List SessionLivenessState) : Transition where
  state := state
  reason := reason
  trace := trace
  expectedStates := expectedStates
  now := c.clock state

def raising {α : Type} (o : Outcome α) (k : α → SessionProgram rt) : SessionProgram rt :=
  match o with
  | .error f => .done (.error f)
  | .ok a => k a

def answer (r : SessionReentryResult rt) : SessionProgram rt := .done (.ok r)

/-- The requests of the send coordinator, made by a re-entry. -/
def sending {α : Type} (p : SendScript rt α) : SessionScript rt α :=
  p.lift SessionRequest.send fun _ a => a

def byIntent (c : SessionCall) (r : SessionReentryRecord rt) : Option SendStatus → SessionProgram rt
  | some .acknowledged =>
    .ask (.transition r.reentryId
        { c.write reentryConfirmed "durable send intent was already acknowledged" ["REENTRY_CONFIRMED"]
            [r.livenessState] with effectCount := some 1 }) fun confirmed => raising confirmed fun confirmed =>
      answer { wrote true "ALREADY_REENTERED" "durable acknowledgement recovered without a physical resend" r
          confirmed 0 r.selectedChannel with idempotent := true }
  | some .uncertain | some .reconciliationRequired | some .physicalSendAttempted =>
    answer (found false "DELIVERY_UNCERTAIN"
      "durable send intent is unresolved; blind re-entry send is forbidden" r)
  | _ => answer (found false "REENTRY_IN_PROGRESS"
      "another canonical re-entry attempt owns this continuation" r)

/-- What a record that is already decided or in another attempt's hands is answered with. -/
def idempotentOrInProgress (c : SessionCall) (r : SessionReentryRecord rt) (otherwise : SessionProgram rt) :
    SessionProgram rt :=
  match r.livenessState with
  | reentryConfirmed => answer (found true "ALREADY_REENTERED" "the canonical continuation effect is already confirmed" r)
  | operatorCheckpoint => answer (checkpointResult r true)
  | reentryPrepared | reentryInProgress => .ask (.existingIntent r c.now) (byIntent c r)
  | reentryFailed | reentryBlocked => answer (found false "REENTRY_TERMINAL" r.lastReason r)
  | _ => otherwise

def leaseRejected (c : SessionCall) (record : SessionReentryRecord rt) (claim : ContinuationLeaseResult)
    (channel : ReentryChannel) : Transition :=
  { c.write reentryBlocked claim.message ["LEASE_CLAIM_REJECTED"] [record.livenessState] with
    channel := some channel }

/-- The lease is given back; whatever comes of it is ignored. -/
def releasing (c : SessionCall) (p : ContinuationPacket rt) (token : String) (k : SessionProgram rt) :
    SessionProgram rt :=
  .ask (.send (.lease (.release p token "RELEASED") c.now)) fun _ => k

def ownerToken (claim : ContinuationLeaseResult) : Option String :=
  if claim.accepted = true ∧ claim.lease.any (fun l => l.status == .claimed) = true then claim.ownerToken else none

def stateLost (message : String) (r : SessionReentryRecord rt) : SessionReentryResult rt :=
  found false "REENTRY_STATE_CAS_LOST" message r

def afterFlow (c : SessionCall) (p : ContinuationPacket rt) (token : String) (selection : ChannelSelection)
    (browser : BrowserAdapter) (inProgress : SessionReentryRecord rt) (flow : Outcome SameChatFlowResult) :
    SessionProgram rt :=
  let failing (code message reason : String) (trace : List String) : SessionProgram rt :=
    .ask (.transition inProgress.reentryId
        { c.write reentryFailed reason (trace ++ ["REENTRY_FAILED"]) [reentryInProgress] with
          effectCount := some browser.visibleSendCount }) fun failed => raising failed fun failed =>
      answer (wrote false code message inProgress failed browser.visibleSendCount (some selection.channel))
  match flow with
  | .error f => failing "REENTRY_EFFECT_FAILED" "re-entry effect failed closed" ("adapter failure: " ++ f.message) []
  | .ok flow =>
    if flow.accepted = true ∧ flow.intent.isSome = true ∧ browser.visibleSendCount = 1 then
      .ask (.transition inProgress.reentryId
          { c.write reentryConfirmed "same-chat continuation send and acknowledgement completed"
              (browser.trace ++ ["REENTRY_CONFIRMED"]) [reentryInProgress] with
            effectCount := some browser.visibleSendCount }) fun confirmed => raising confirmed fun confirmed =>
        answer (wrote true "REENTRY_CONFIRMED" "canonical same-chat continuation completed" inProgress confirmed
          browser.visibleSendCount (some selection.channel))
    else
      let code := (flow.sendResult.map (·.reasonCode)).getD "REENTRY_EFFECT_FAILED"
      let reason := (flow.sendResult.map (·.message)).getD "canonical re-entry effect failed closed"
      if browser.visibleSendCount = 0 then releasing c p token (failing code reason reason browser.trace)
      else failing code reason reason browser.trace

def underClaim (c : SessionCall) (p : ContinuationPacket rt) (payload token : String)
    (record : SessionReentryRecord rt) (selection : ChannelSelection) (binding : ExactConversationBinding)
    (browser : BrowserAdapter) : SessionProgram rt :=
  .ask (.transition record.reentryId
      { c.write reentryPrepared selection.reason ["LIVE_AUTHORITY_VALIDATED","LEASE_CLAIMED",selection.channel.value]
          [record.livenessState] with channel := some selection.channel, binding := some binding }) fun prepared =>
    match prepared with
    | .error f => releasing c p token <|
      .ask (.transition record.reentryId
          (c.write reentryBlocked f.message ["REENTRY_BLOCKED"] [record.livenessState])) fun blocked =>
        raising blocked fun blocked => answer (wrote false f.code f.message record blocked 0 (some selection.channel))
    | .ok none => answer (invalid "REENTRY_READBACK_FAILED" "prepared re-entry was not readable")
    | .ok (some prepared) =>
      if prepared.livenessState ≠ reentryPrepared then
        releasing c p token <|
          answer (stateLost "canonical re-entry state changed before preparation completed" prepared)
      else .ask (.transition prepared.reentryId
          (c.write reentryInProgress "re-entry effect is beginning after canonical preparation" []
            [reentryPrepared])) fun inProgress => raising inProgress fun inProgress =>
        match inProgress with
        | none => answer (invalid "REENTRY_READBACK_FAILED" "in-progress re-entry was not readable")
        | some inProgress =>
          if inProgress.livenessState ≠ reentryInProgress then
            releasing c p token <|
              answer (stateLost "canonical re-entry state changed before the effect boundary" inProgress)
          else (sending (continueSameChat p c.authority token binding browser payload c.now)).bind
            (afterFlow c p token selection browser inProgress)

def executeAutomated (c : SessionCall) (p : ContinuationPacket rt) (payload : String)
    (record : SessionReentryRecord rt) (selection : ChannelSelection) : SessionProgram rt :=
  match selection.binding, selection.browser with
  | some binding, some browser =>
    .ask (.send (.lease (.claim c.co p c.authority c.ownerId c.token) c.now)) fun claimed =>
      raising claimed fun claim =>
        match ownerToken claim with
        | some token => underClaim c p payload token record selection binding browser
        | none => .ask (.transition record.reentryId (leaseRejected c record claim selection.channel)) fun blocked =>
          raising blocked fun blocked =>
            answer (wrote false claim.reasonCode claim.message record blocked 0 (some selection.channel))
  | _, _ => answer
      { refused "NO_SAFE_AUTOMATED_CHANNEL"
          "no exact conversation binding and browser effect adapter are available" record with
        selectedChannel := some selection.channel }

def requirePayload (payload : String) : Outcome String := do
  require (strip payload ≠ "") "PAYLOAD_REQUIRED" "canonical re-entry requires a non-empty payload"
  require (byteLength payload.toList ≤ 64 * 1024) "PAYLOAD_TOO_LARGE"
    "canonical re-entry payload exceeds the bounded size"
  pure payload

structure ReenterCall (rt : Runtime) extends SessionCall where
  packet : ContinuationPacket rt
  payload : String
  existingBinding : Option ExactConversationBinding
  browser : Option BrowserAdapter
  capability : Option OfficialNewConversationCapability
  policyAllowed : Bool

/-- No safe channel: the session is recorded as unavailable, with a checkpoint for the
operator. -/
def toCheckpoint (c : SessionCall) (record : SessionReentryRecord rt) (selection : ChannelSelection) :
    SessionProgram rt :=
  .ask (.transition record.reentryId
      { c.write sessionUnavailable selection.reason
          ["LIVE_AUTHORITY_VALIDATED","SESSION_UNAVAILABLE","NO_SAFE_AUTOMATED_CHANNEL"] [record.livenessState] with
        channel := some selection.channel }) fun unavailable => raising unavailable fun unavailable =>
    match unavailable with
    | none => answer (invalid "REENTRY_READBACK_FAILED" "session-unavailable re-entry was not readable")
    | some unavailable =>
      .ask (.transition unavailable.reentryId
          { c.write operatorCheckpoint "D-017 requires deterministic operator-assisted fallback"
              ["OPERATOR_CHECKPOINT_CREATED"] [sessionUnavailable] with
            channel := some selection.channel, checkpoint := true }) fun checkpoint =>
        raising checkpoint fun checkpoint =>
          match checkpoint with
          | none => answer (invalid "REENTRY_READBACK_FAILED" "operator checkpoint was not readable")
          | some checkpoint => answer (checkpointResult checkpoint false)

def reenter (c : ReenterCall rt) : SessionProgram rt :=
  match requirePayload c.payload with
  | .error f => answer (invalid f.code f.message)
  | .ok payload =>
    match validatePacket c.packet c.authority c.now with
    | .error f => answer (invalid f.code f.message)
    | .ok _ => .ask (.createOrRead c.packet payload c.now) fun created => raising created fun created =>
      match created with
      | .error f => answer (invalid f.code f.message)
      | .ok record => idempotentOrInProgress c.toSessionCall record <|
        match validatePacket c.packet c.authority c.now with
        | .error f =>
          .ask (.transition record.reentryId
              (c.toSessionCall.write reentryBlocked f.message ["LIVE_AUTHORITY_REVALIDATION_FAILED"]
                [record.livenessState])) fun blocked => raising blocked fun blocked =>
            answer (wrote false f.code f.message record blocked 0 record.selectedChannel)
        | .ok _ =>
          let selection := resolveChannel rt c.authority c.existingBinding c.browser c.capability c.policyAllowed
          if selection.channel = .operatorAssistedCheckpointRequired then
            toCheckpoint c.toSessionCall record selection
          else executeAutomated c.toSessionCall c.packet payload record selection

structure CheckpointCall extends SessionCall where
  checkpointId : String
  binding : ExactConversationBinding
  browser : BrowserAdapter
  payload : Option String

/-- The operator's handoff: the checkpoint is opened again and the attempt is made. -/
def handOff (c : CheckpointCall) (record : SessionReentryRecord rt) (payload : String) : SessionProgram rt :=
  let selection := resolveChannel rt c.authority (some c.binding) (some c.browser) none true
  if selection.channel ≠ .existingConversationVerified then
    answer (refused "CONVERSATION_IDENTITY_UNVERIFIED"
      "operator action did not provide a verified exact existing conversation" record)
  else .ask (.transition record.reentryId
      { c.toSessionCall.write continuationPending
          "operator authorized the bounded handoff with an exact existing conversation"
          ["OPERATOR_AUTHORIZED_HANDOFF"] [operatorCheckpoint] with
        channel := some selection.channel, binding := selection.binding }) fun reopened =>
    match reopened with
    | .error f =>
      .ask (.transition record.reentryId
          (c.toSessionCall.write reentryBlocked f.message ["REENTRY_BLOCKED"] [operatorCheckpoint])) fun blocked =>
        raising blocked fun blocked => answer (wrote false f.code f.message record blocked 0 record.selectedChannel)
    | .ok none => answer (invalid "REENTRY_READBACK_FAILED" "checkpoint handoff was not readable")
    | .ok (some reopened) =>
      if reopened.livenessState ≠ continuationPending then
        answer (stateLost "operator checkpoint state changed before the handoff completed" reopened)
      else executeAutomated c.toSessionCall record.packet payload reopened selection

def continueFromOperatorCheckpoint (c : CheckpointCall) : SessionProgram rt :=
  .ask (.readCheckpoint c.checkpointId) fun read =>
    match read with
    | none => answer (invalid "CHECKPOINT_NOT_FOUND" "operator re-entry checkpoint does not exist")
    | some record =>
      if record.livenessState ≠ operatorCheckpoint then
        idempotentOrInProgress c.toSessionCall record
          (answer (found false "CHECKPOINT_NOT_OPEN" "operator checkpoint is no longer open" record))
      else raising (c.payload.elim (.ok record.payload) requirePayload) fun payload =>
        if payload ≠ record.payload then
          answer (refused "CHECKPOINT_PAYLOAD_MISMATCH"
            "operator checkpoint payload is canonical and cannot be replaced" record)
        else match validatePacket record.packet c.authority c.now with
          | .error f => answer (refused f.code f.message record)
          | .ok _ => handOff c record payload

/-! ## Runs -/

/-- The calls on one packet. The operator's call names a checkpoint, and all checkpoints are
of the packet. -/
inductive ReentryCall (p : ContinuationPacket rt) where
  | reenter (c : ReenterCall rt) (onPacket : c.packet = p)
  | continueFromOperatorCheckpoint (c : CheckpointCall)

/-- What a call ends with, beside its clock reading. -/
structure Answered (rt : Runtime) where
  now : DateTime
  result : Outcome (SessionReentryResult rt)

def ReentryCall.program {p : ContinuationPacket rt} : ReentryCall p → SessionScript rt (Answered rt)
  | .reenter c _ => (Session.reenter c).bind fun r => .done ⟨c.now,r⟩
  | .continueFromOperatorCheckpoint c => (Session.continueFromOperatorCheckpoint c).bind fun r => .done ⟨c.now,r⟩

abbrev SessionSystem (rt : Runtime) := Shared (SessionStore rt) (@SessionRequest.Answer rt) (Answered rt)

abbrev SessionMove (p : ContinuationPacket rt) := Move (ReentryCall p)

variable {p : ContinuationPacket rt}

namespace SessionSystem

def next (s : SessionSystem rt) (m : SessionMove p) : SessionSystem rt :=
  Shared.next SessionRequest.perform ReentryCall.program s m

def run (s : SessionSystem rt) (moves : List (SessionMove p)) : SessionSystem rt :=
  Shared.run SessionRequest.perform ReentryCall.program s moves

/-- No lease, no intent and no re-entry exists at the start. -/
def begin (db : Database) (bindings : Table ExecutionBinding (·.executionBindingId)) : SessionSystem rt :=
  Shared.begin
    { base := { db with leases := Table.empty, intents := Table.empty, audit := Table.empty }
      reentries := Table.empty
      executionBindings := bindings
      checkpoints := Table.empty }

end SessionSystem

end Bdb.Session
