import Bdb.Base.StampOrder
import Bdb.Base.Interleaving
import Bdb.Bridge.States
import Mathlib.Data.List.AList

/-! # The result outbox

A staged result is published on a branch of a remote. A processor reserves the outbox row, looks at
the branch, pushes the result onto the head that it saw, looks again and acknowledges the result in
the journal. Journal transactions and transport steps are requests; processors may crash between any
two of them.
-/
namespace Bdb.Bridge.Outbox

/-! ## The journal and the remote -/

structure CommandRow where
  sessionId : String
  sequence : ℕ
  state : CommandState
deriving DecidableEq

structure ResultRow where
  sessionId : String
  sequence : ℕ
  status : String
  errorCode : Option String
  sha : String
  json : String
  path : String
deriving DecidableEq

inductive OutboxState where
  | pending
  | published
  | collision
deriving DecidableEq

structure OutboxRow where
  commandId : String
  sessionId : String
  sequence : ℕ
  sha : String
  path : String
  state : OutboxState
  attempts : ℕ
  next : Option DateTime
  lastError : Option String
  publishedCommit : Option ℕ
  publishedAt : Option DateTime
  createdAt : DateTime
deriving DecidableEq

/-- The result files of the branch, newest first. A commit is named by the number of files it holds. -/
abbrev Remote := List (String × String)

def Remote.head (r : Remote) : ℕ := r.length

/-- The files at a commit of the branch. -/
def Remote.at (r : Remote) (head : ℕ) : Remote := r.drop (r.length - head)

def Remote.content (r : Remote) (head : ℕ) (path : String) : Option String := (r.at head).lookup path

/-- The commit that stored the file. -/
def Remote.origin (r : Remote) (head : ℕ) (path : String) : ℕ := ((r.at head).dropWhile fun f => f.1 ≠ path).length

structure OutboxWorld where
  commands : AList fun _ : String => CommandRow
  sessions : String → Option SessionState
  results : AList fun _ : String => ResultRow
  outbox : AList fun _ : String => OutboxRow
  remote : Remote

/-! ## Requests -/

/-- A transport step that fails answers so, or raises an exception. -/
inductive Trouble where
  | unavailable (diagnostic : String)
  | raised (name : String)

/-- What becomes of a transport step; after a lost answer the step was made all the same. -/
inductive Fate where
  | answered (moved : String)
  | unsent (trouble : Trouble)
  | lost (trouble : Trouble)

structure Processor where
  lease : ℕ
  /-- The delay after an attempt, in microseconds. -/
  delay : ℕ → ℕ

/-- What a claim comes to; a claimed row is read again after the transaction. -/
inductive Claim where
  | nothing
  | settled (row : OutboxRow)
  | claimed (commandId : String)
deriving DecidableEq

inductive RemoteResult where
  | absent
  | present (content sha : String) (commit : ℕ)
  | trouble (trouble : Trouble)

inductive PublishAttempt where
  | published (commit : ℕ)
  | identical (commit : ℕ)
  | collision (sha diagnostic : String)
  | branchMoved (diagnostic : String)
  | trouble (trouble : Trouble)

/-- A validated result, with the times of its staging. -/
structure StagedDocument where
  status : String
  errorCode : Option String
  json : String
  path : String
  now : DateTime

inductive OutboxRequest where
  | getCommand (commandId : String)
  | getOutbox (commandId : String)
  | getResult (commandId : String)
  | stage (commandId : String) (document : StagedDocument)
  | claimDue (p : Processor) (now : DateTime)
  | claimCommand (p : Processor) (commandId : String) (now : DateTime)
  | recordFailure (p : Processor) (claimed : OutboxRow) (now : DateTime) (diagnostic : String)
  | markPublished (commandId remoteSha : String) (commit : ℕ) (now : DateTime)
  | markCollision (commandId observedSha diagnostic : String)
  | fetchHead (fate : Fate)
  | readResult (head : ℕ) (path : String) (fate : Fate)
  | publish (path content : String) (head : ℕ) (fate : Fate)
  /-- What others do to commands before they have a result, and to sessions. -/
  | elsewhere (commandId : String) (command : CommandRow) (sessions : String → Option SessionState)

namespace OutboxRequest

def Answer : OutboxRequest → Type
  | getCommand _ => Option CommandRow
  | getOutbox _ => Option OutboxRow
  | getResult _ => Option ResultRow
  | stage _ _ => Outcome OutboxRow
  | claimDue _ _ => Outcome Claim
  | claimCommand _ _ _ => Outcome Claim
  | recordFailure _ _ _ _ => Outcome OutboxRow
  | markPublished _ _ _ _ => Outcome OutboxRow
  | markCollision _ _ _ => Outcome OutboxRow
  | fetchHead _ => Except String ℕ
  | readResult _ _ _ => RemoteResult
  | publish _ _ _ _ => PublishAttempt
  | elsewhere _ _ _ => Unit

end OutboxRequest

/-! ### Staging -/

def stageResult (sha256 : String → String) (commandId : String) (d : StagedDocument) (w : OutboxWorld) : OutboxWorld × Outcome OutboxRow :=
  let sha := sha256 d.json
  match w.commands.lookup commandId with
  | none => (w,fail "journal_conflict" ("Command not found: " ++ commandId))
  | some command =>
    match w.results.lookup commandId, w.outbox.lookup commandId with
    | none, none =>
      if command.state ≠ .effectRecorded then
        (w,fail "invalid_state_transition" ("New staged result requires EFFECT_RECORDED, got " ++ command.state.value))
      else if w.results.entries.any (fun e => e.2.sessionId = command.sessionId ∧ e.2.sequence = command.sequence) = true ∨
          w.outbox.entries.any (fun e => e.2.path = d.path) = true ∨
          w.results.entries.any (fun e => e.2.path = d.path ∧ e.1 ≠ commandId) = true then
        (w,fail "result_collision" "Result sequence or remote path is already occupied")
      else
        let row : OutboxRow :=
          ⟨commandId,command.sessionId,command.sequence,sha,d.path,.pending,0,none,none,none,none,d.now⟩
        ({ w with
          results := w.results.insert commandId ⟨command.sessionId,command.sequence,d.status,d.errorCode,sha,d.json,d.path⟩
          outbox := w.outbox.insert commandId row
          commands := w.commands.insert commandId { command with state := .resultStaged } },.ok row)
    | some result, some row =>
      if result.json = d.json ∧ result.sha = sha ∧ result.path = d.path ∧ result.status = d.status ∧ result.errorCode = d.errorCode ∧
          row.sessionId = result.sessionId ∧ row.sequence = result.sequence ∧ row.sha = result.sha ∧ row.path = result.path then
        if command.state = .resultStaged ∨ command.state = .resultPublished then (w,.ok row)
        else (w,fail "journal_conflict" "Replayed staged result has inconsistent command state")
      else (w,fail "result_collision" ("Result collision for command " ++ commandId))
    | _, _ => (w,fail "journal_corrupt" "Result/outbox atomicity invariant is broken")

/-! ### Reservations -/

/-- The row may be claimed: times are compared as texts. -/
def OutboxRow.due (row : OutboxRow) (now : DateTime) : Bool :=
  row.state = .pending ∧ (row.next.all fun next => isoText next ≤ isoText now) = true

def dueOrder (a b : OutboxRow) : Bool :=
  isoText a.createdAt < isoText b.createdAt ∨ isoText a.createdAt = isoText b.createdAt ∧
    (a.sessionId < b.sessionId ∨ a.sessionId = b.sessionId ∧
      (a.sequence < b.sequence ∨ a.sequence = b.sequence ∧ a.commandId ≤ b.commandId))

def firstDue (now : DateTime) (w : OutboxWorld) : Option OutboxRow :=
  (((w.outbox.entries.map (·.2)).filter fun row => row.due now).insertionSort fun a b => dueOrder a b = true).head?

def reservationUntil (p : Processor) (now : DateTime) : Outcome DateTime := do
  require (0 < p.lease ∧ p.lease ≤ 3600000000) "invalid_payload" "lease_seconds must be in (0, 3600]"
  now.plus p.lease

def setNext (commandId : String) (next : DateTime) (w : OutboxWorld) : OutboxWorld :=
  match w.outbox.lookup commandId with
  | some row => { w with outbox := w.outbox.insert commandId { row with next := some next } }
  | none => w

def claimDueRow (p : Processor) (now : DateTime) (w : OutboxWorld) : OutboxWorld × Outcome Claim :=
  match reservationUntil p now with
  | .error e => (w,.error e)
  | .ok reservation =>
    match firstDue now w with
    | none => (w,.ok .nothing)
    | some row => (setNext row.commandId reservation w,.ok (.claimed row.commandId))

def claimCommandRow (p : Processor) (commandId : String) (now : DateTime) (w : OutboxWorld) : OutboxWorld × Outcome Claim :=
  match reservationUntil p now with
  | .error e => (w,.error e)
  | .ok reservation =>
    match w.outbox.lookup commandId with
    | none => (w,.ok .nothing)
    | some row =>
      if row.state ≠ .pending then (w,.ok (.settled row))
      else if row.due now = true then (setNext commandId reservation w,.ok (.claimed commandId))
      else (w,.ok .nothing)

/-! ### Acknowledgements -/

/-- One line without null characters, cut at 500 characters. -/
def sanitizeText (value : String) : String :=
  let words := ((value.toList.filter fun c => c.toNat ≠ 0).splitOnP isSpace).filter fun word => word ≠ []
  String.ofList ((List.intercalate [' '] words).take 500)

def recordFailure (p : Processor) (claimed : OutboxRow) (now : DateTime) (diagnostic : String) (w : OutboxWorld) :
    OutboxWorld × Outcome OutboxRow :=
  match now.plus (p.delay claimed.attempts) with
  | .error e => (w,.error e)
  | .ok next =>
    match w.outbox.lookup claimed.commandId with
    | none => (w,fail "journal_conflict" ("Outbox entry not found: " ++ claimed.commandId))
    | some row =>
      if row.state ≠ .pending then (w,fail "invalid_state_transition" "Only pending outbox entries can record failure")
      else if row.attempts = claimed.attempts + 1 then
        if row.lastError = some (sanitizeText diagnostic) ∧ row.next = some next then (w,.ok row)
        else (w,fail "journal_conflict" "Outbox failure replay does not match persisted attempt")
      else if row.attempts ≠ claimed.attempts then (w,fail "journal_conflict" "Outbox attempt count CAS failed")
      else
        let updated := { row with
          attempts := claimed.attempts + 1, next := some next, lastError := some (sanitizeText diagnostic) }
        ({ w with outbox := w.outbox.insert claimed.commandId updated },.ok updated)

def markPublished (commandId remoteSha : String) (commit : ℕ) (now : DateTime) (w : OutboxWorld) : OutboxWorld × Outcome OutboxRow :=
  match w.results.lookup commandId, w.outbox.lookup commandId, w.commands.lookup commandId with
  | some result, some row, some command =>
    if result.sha ≠ row.sha ∨ result.sha ≠ remoteSha then
      (w,fail "result_collision" "Remote result hash differs from immutable staged result")
    else if row.state = .published then
      if command.state = .resultPublished ∧ row.publishedCommit = some commit then (w,.ok row)
      else (w,fail "journal_conflict" "Published outbox replay differs from persisted acknowledgement")
    else if row.state ≠ .pending ∨ command.state ≠ .resultStaged then
      (w,fail "invalid_state_transition" "Publish acknowledgement requires pending/RESULT_STAGED")
    else
      let updated := { row with
        state := .published, publishedCommit := some commit, publishedAt := some now, next := none, lastError := none }
      ({ w with
        outbox := w.outbox.insert commandId updated
        commands := w.commands.insert commandId { command with state := .resultPublished } },.ok updated)
  | _, _, _ => (w,fail "journal_conflict" "Command/result/outbox must exist before publish acknowledgement")

def markCollision (commandId observedSha diagnostic : String) (w : OutboxWorld) : OutboxWorld × Outcome OutboxRow :=
  match w.results.lookup commandId, w.outbox.lookup commandId, w.commands.lookup commandId with
  | some _, some row, some command =>
    match w.sessions row.sessionId with
    | none => (w,fail "journal_conflict" "Collision session is missing")
    | some session =>
      if row.state = .collision then
        if command.state = .manualReconciliationRequired ∧ session = .manualReconciliationRequired then (w,.ok row)
        else (w,fail "journal_conflict" "Collision replay has inconsistent command/session state")
      else if row.state ≠ .pending ∨ command.state ≠ .resultStaged then
        (w,fail "invalid_state_transition" "Collision requires pending/RESULT_STAGED")
      else if session ≠ .active ∧ session ≠ .completing ∧ session ≠ .manualReconciliationRequired then
        (w,fail "invalid_state_transition" "Collision session must be active or completing")
      else
        let detail := sanitizeText
          ("path=" ++ row.path ++ " expected=" ++ row.sha ++ " observed=" ++ observedSha ++ " " ++ diagnostic)
        let updated := { row with state := .collision, next := none, lastError := some detail }
        ({ w with
          outbox := w.outbox.insert commandId updated
          commands := w.commands.insert commandId { command with state := .manualReconciliationRequired }
          sessions := fun id => if id = row.sessionId then some .manualReconciliationRequired else w.sessions id },.ok updated)
  | _, _, _ => (w,fail "journal_conflict" "Command/result/outbox must exist before collision")

/-! ### The transport -/

def readRemote (sha256 : String → String) (head : ℕ) (path : String) (r : Remote) : RemoteResult :=
  match r.content head path with
  | some content => .present content (sha256 content) (r.origin head path)
  | none => .absent

/-- The result is pushed onto the head that was seen. -/
def publishRemote (sha256 : String → String) (path content : String) (head : ℕ) (moved : String) (r : Remote) : Remote × PublishAttempt :=
  match r.content head path with
  | some existing =>
    if existing = content then (r,.identical (r.origin head path))
    else (r,.collision (sha256 existing) "remote path already contains different exact bytes")
  | none => if head = r.head then ((path,content) :: r,.published (r.head + 1)) else (r,.branchMoved moved)

def Trouble.name : Trouble → String
  | unavailable _ => "BridgeError"
  | raised name => name

/-- Rows of commands that have a result are left to the processors. -/
def hasResult (state : CommandState) : Bool := state = .resultStaged ∨ state = .resultPublished

def OutboxRequest.perform (sha256 : String → String) : (q : OutboxRequest) → OutboxWorld → OutboxWorld × q.Answer
  | .getCommand commandId, w => (w,w.commands.lookup commandId)
  | .getOutbox commandId, w => (w,w.outbox.lookup commandId)
  | .getResult commandId, w => (w,w.results.lookup commandId)
  | .stage commandId document, w => stageResult sha256 commandId document w
  | .claimDue p now, w => claimDueRow p now w
  | .claimCommand p commandId now, w => claimCommandRow p commandId now w
  | .recordFailure p claimed now diagnostic, w => Outbox.recordFailure p claimed now diagnostic w
  | .markPublished commandId remoteSha commit now, w => Outbox.markPublished commandId remoteSha commit now w
  | .markCollision commandId observedSha diagnostic, w => Outbox.markCollision commandId observedSha diagnostic w
  | .fetchHead fate, w =>
    match fate with
    | .answered _ => (w,.ok w.remote.head)
    | .unsent trouble | .lost trouble => (w,.error trouble.name)
  | .readResult head path fate, w =>
    match fate with
    | .answered _ => (w,readRemote sha256 head path w.remote)
    | .unsent trouble | .lost trouble => (w,.trouble trouble)
  | .publish path content head fate, w =>
    match fate with
    | .answered moved =>
      let r := publishRemote sha256 path content head moved w.remote
      ({ w with remote := r.1 },r.2)
    | .unsent trouble => (w,.trouble trouble)
    | .lost trouble => ({ w with remote := (publishRemote sha256 path content head "" w.remote).1 },.trouble trouble)
  | .elsewhere commandId command sessions, w =>
    let kept : Bool := hasResult command.state || (w.commands.lookup commandId).any fun c => hasResult c.state
    ({ w with commands := if kept then w.commands else w.commands.insert commandId command, sessions := sessions },())

/-! ## Processors -/

abbrev OutboxScript := Script OutboxRequest OutboxRequest.Answer

inductive ProcessState where
  | noDue
  | published
  | alreadyPublished
  | retryScheduled
  | collision

structure ProcessOutcome where
  state : ProcessState
  commandId : Option String
  attempts : Option ℕ
  next : Option DateTime
  commit : Option ℕ
  diagnostic : Option String

abbrev Processing := OutboxScript (Outcome ProcessOutcome)

/-- What becomes of the transport steps of a call: before the push, the push, and after it. -/
structure Fates where
  fetch : Fate
  read : Fate
  publish : Fate
  refetch : Fate
  reread : Fate

def outcomeOf (state : ProcessState) (row : Option OutboxRow) (commit : Option ℕ) (diagnostic : Option String) : ProcessOutcome :=
  ⟨state,row.map (·.commandId),row.map (·.attempts),row.bind (·.next),commit,diagnostic⟩

def failure (p : Processor) (claimed : OutboxRow) (now : DateTime) (diagnostic : String) : Processing :=
  .ask (.recordFailure p claimed now diagnostic) fun
    | .error e => .done (.error e)
    | .ok updated => .done (.ok (outcomeOf .retryScheduled (some updated) none updated.lastError))

def collided (claimed : OutboxRow) (observedSha diagnostic : String) : Processing :=
  .ask (.markCollision claimed.commandId observedSha diagnostic) fun
    | .error e => .done (.error e)
    | .ok updated => .done (.ok (outcomeOf .collision (some updated) none updated.lastError))

def acknowledge (claimed : OutboxRow) (remoteSha : String) (commit : ℕ) (now : DateTime) : Processing :=
  .ask (.markPublished claimed.commandId remoteSha commit now) fun
    | .error e => .done (.error e)
    | .ok updated => .done (.ok (outcomeOf .published (some updated) updated.publishedCommit none))

def orElseText (text other : String) : String := if text = "" then other else text

def Trouble.diagnostic (step other : String) : Trouble → String
  | unavailable diagnostic => step ++ " unavailable: " ++ orElseText diagnostic other
  | raised name => step ++ " unavailable: " ++ name

def pushDiagnostic : Trouble → String
  | .unavailable diagnostic => "transport unavailable: " ++ orElseText diagnostic "no diagnostic"
  | .raised name => "publish unavailable: " ++ name

/-- The branch is looked at again after the push. -/
def verifyPush (p : Processor) (claimed : OutboxRow) (content : String) (commit : ℕ) (now : DateTime) (f : Fates) : Processing :=
  .ask (.fetchHead f.refetch) fun
    | .error name => failure p claimed now ("post-push fetch unavailable: " ++ name)
    | .ok freshHead => .ask (.readResult freshHead claimed.path f.reread) fun
      | .trouble t => failure p claimed now (t.diagnostic "post-push read" "unknown")
      | .absent => failure p claimed now "remote result missing after alleged push"
      | .present observed sha _ =>
        if observed ≠ content ∨ sha ≠ claimed.sha then collided claimed sha "remote bytes differ after publication attempt"
        else acknowledge claimed sha commit now

def processClaimed (p : Processor) (claimed : OutboxRow) (now : DateTime) (f : Fates) : Processing :=
  .ask (.getResult claimed.commandId) fun
    | none => .done (fail "journal_corrupt" "Outbox entry has no staged result")
    | some result =>
      if result.sha ≠ claimed.sha then .done (fail "journal_corrupt" "Result/outbox hash mismatch")
      else .ask (.fetchHead f.fetch) fun
        | .error name => failure p claimed now ("fetch unavailable: " ++ name)
        | .ok head => .ask (.readResult head claimed.path f.read) fun
          | .trouble t => failure p claimed now (t.diagnostic "read" "unknown")
          | .present content sha commit =>
            if content = result.json ∧ sha = claimed.sha then acknowledge claimed sha commit now
            else collided claimed sha "remote result path contains different exact bytes"
          | .absent => .ask (.publish claimed.path result.json head f.publish) fun
            | .collision sha diagnostic => collided claimed sha (orElseText diagnostic "publish collision")
            | .branchMoved diagnostic =>
              failure p claimed now ("transport branch_moved: " ++ orElseText diagnostic "no diagnostic")
            | .trouble t => failure p claimed now (pushDiagnostic t)
            | .published commit | .identical commit => verifyPush p claimed result.json commit now f

def processOneDue (p : Processor) (now : DateTime) (f : Fates) : Processing :=
  .ask (.claimDue p now) fun
    | .error e => .done (.error e)
    | .ok .nothing => .done (.ok (outcomeOf .noDue none none none))
    | .ok (.settled row) => processClaimed p row now f
    | .ok (.claimed commandId) => .ask (.getOutbox commandId) fun
      | none => .done (.ok (outcomeOf .noDue none none none))
      | some claimed => processClaimed p claimed now f

def notDue (current : Option OutboxRow) : Processing :=
  .done (.ok (outcomeOf .retryScheduled current none (some "outbox entry is not due or is claimed by another processor")))

def reconcileWithoutPush (record : OutboxRow) (now : DateTime) (f : Fates) : Processing :=
  .ask (.getResult record.commandId) fun
    | none => .done (fail "journal_corrupt" "Outbox entry has no staged result")
    | some result => .ask (.fetchHead f.fetch) fun
      | .error name => if name = "BridgeError" then notDue (some record) else .done (fail name "")
      | .ok head => .ask (.readResult head record.path f.read) fun
        | .trouble (.raised name) => .done (fail name "")
        | .trouble (.unavailable _) | .absent => notDue (some record)
        | .present content sha commit =>
          if content = result.json ∧ sha = record.sha then acknowledge record sha commit now
          else collided record sha "remote result path contains different exact bytes during recovery reconciliation"

def processClaim (p : Processor) (claimed : OutboxRow) (now : DateTime) (f : Fates) : Processing :=
  match claimed.state with
  | .published => .done (.ok (outcomeOf .alreadyPublished (some claimed) claimed.publishedCommit none))
  | .collision => .done (.ok (outcomeOf .collision (some claimed) none claimed.lastError))
  | .pending => processClaimed p claimed now f

def unclaimed (commandId : String) (now : DateTime) (f : Fates) : Processing :=
  .ask (.getOutbox commandId) fun
    | none => notDue none
    | some current => if current.state = .pending then reconcileWithoutPush current now f else notDue (some current)

def processCommand (p : Processor) (commandId : String) (now : DateTime) (f : Fates) : Processing :=
  .ask (.getCommand commandId) fun
    | none => .done (fail "journal_conflict" ("Command not found: " ++ commandId))
    | some command => .ask (.getOutbox commandId) fun record =>
      if command.state = .resultPublished then
        .done (.ok (outcomeOf .alreadyPublished record (record.bind (·.publishedCommit)) none))
      else if command.state = .manualReconciliationRequired then
        .done (.ok (outcomeOf .collision record none (some "manual reconciliation required")))
      else if command.state ≠ .resultStaged then
        .done (fail "invalid_state_transition" ("Outbox processing requires RESULT_STAGED, got " ++ command.state.value))
      else .ask (.claimCommand p commandId now) fun
        | .error e => .done (.error e)
        | .ok .nothing => unclaimed commandId now f
        | .ok (.settled row) => processClaim p row now f
        | .ok (.claimed _) => .ask (.getOutbox commandId) fun
          | none => unclaimed commandId now f
          | some claimed => processClaim p claimed now f

/-! ## Calls -/

inductive OutboxCall where
  | processOneDue (p : Processor) (now : DateTime) (f : Fates)
  | processCommand (p : Processor) (commandId : String) (now : DateTime) (f : Fates)
  | stage (commandId : String) (document : StagedDocument)
  | elsewhere (commandId : String) (command : CommandRow) (sessions : String → Option SessionState)

def program : OutboxCall → OutboxScript (Option (Outcome ProcessOutcome))
  | .processOneDue p now f => (processOneDue p now f).bind fun outcome => .done (some outcome)
  | .processCommand p commandId now f => (processCommand p commandId now f).bind fun outcome => .done (some outcome)
  | .stage commandId document => .ask (.stage commandId document) fun _ => .done none
  | .elsewhere commandId command sessions => .ask (.elsewhere commandId command sessions) fun _ => .done none

end Bdb.Bridge.Outbox
