import Bdb.Base.Table
import Bdb.Bridge.Envelopes
import Bdb.Bridge.ExactReplacement

/-! # The journal of the command queue

Sessions and commands with what is known of their documents. Every call is one transaction:
it either returns the changed journal or fails and leaves it unchanged. Events and the rows
that no decision of the queue reads are left out.
-/
namespace Bdb.Bridge

/-! ## Rows -/

structure Session where
  sessionId : String
  repositoryId : String
  baseSha : String
  state : SessionState
  createdAt : String
deriving DecidableEq

structure Command where
  commandId : String
  sessionId : String
  sequence : ℕ
  commandJson : String
  commandCommitSha : Option String
  state : CommandState
  expectedRevision : Option Int
  expectedStateHash : Option String
deriving DecidableEq

structure SessionIngestion where
  sessionId : String
  sourcePath : String
  manifestCommitSha : String
  rawSha256 : String
  manifestSha256 : String
  manifestJson : String
  createdRemoteAt : String
  expiresAt : String
deriving DecidableEq

structure CommandIngestion where
  commandId : String
  sourceId : String
  snapshotSha : String
  sourcePath : String
  documentCommitSha : String
  rawSha256 : String
  createdRemoteAt : Option String
  expiresAt : Option String
deriving DecidableEq

structure PendingDocument where
  sessionId : String
  sequence : ℕ
  sourceId : String
  snapshotSha : String
  sourcePath : String
  documentCommitSha : String
  rawSha256 : String
  content : Bytes
deriving DecidableEq

structure IngestionIssue where
  sourceId : String
  sourcePath : String
  snapshotSha : String
  rawSha256 : String
  errorCode : String
  blocking : Bool
  documentCommitSha : Option String
  sessionId : Option String
  commandId : Option String
deriving DecidableEq

def IngestionIssue.key (i : IngestionIssue) : String × String × String × String :=
  (i.sourceId,i.sourcePath,i.errorCode,i.rawSha256)

inductive OutboxState where
  | pending
  | published
  | collision
deriving DecidableEq

structure OutboxEntry where
  commandId : String
  sessionId : String
  state : OutboxState
deriving DecidableEq

inductive ServiceInstanceState where
  | running
  | stopping
  | stopped
  | stale
  | failed
deriving DecidableEq

structure ServiceInstance where
  instanceId : String
  state : ServiceInstanceState
  startedAt : String
deriving DecidableEq

structure WorkspaceRow where
  sessionId : String
  workspacePath : String
  baseSha : String
  revision : ℕ
  stateHash : String
deriving DecidableEq

inductive WorkspaceLifecycleState where
  | preserved
  | cleanupRequested
  | removing
  | removed
  | blocked
deriving DecidableEq

structure WorkspaceLifecycle where
  sessionId : String
  workspacePath : String
  baseSha : String
  expectedRevision : ℕ
  expectedStateHash : String
  /-- Whether the workspace is kept; otherwise it is cleaned up. -/
  preserve : Bool
  state : WorkspaceLifecycleState
deriving DecidableEq

/-- The tables that the queue reads and other parts of the program write. -/
structure Surroundings where
  outbox : List OutboxEntry
  services : List ServiceInstance
  workspaces : Table WorkspaceRow (·.sessionId)
  lifecycles : Table WorkspaceLifecycle (·.sessionId)

structure Journal where
  sessions : Table Session (·.sessionId)
  commands : Table Command (·.commandId)
  manifests : Table SessionIngestion (·.sessionId)
  ingestions : Table CommandIngestion (·.commandId)
  pending : Table PendingDocument (fun d => (d.sessionId,d.sequence))
  issues : Table IngestionIssue IngestionIssue.key
  around : Surroundings

namespace Journal

def empty : Journal :=
  ⟨.empty,.empty,.empty,.empty,.empty,.empty,⟨[],[],.empty,.empty⟩⟩

variable (rt : BridgeRuntime) (j : Journal)

/-! ## Rows changed in place -/

def withCommandState (commandId : String) (new : CommandState) : Journal :=
  { j with
    commands := j.commands.change (fun c => if c.commandId = commandId then { c with state := new } else c)
      (by intro c; split <;> rfl) }

def withSessionState (sessionId : String) (new : SessionState) : Journal :=
  { j with
    sessions := j.sessions.change (fun s => if s.sessionId = sessionId then { s with state := new } else s)
      (by intro s; split <;> rfl) }

def hasBlockingIngestionIssues : Bool := j.issues.rows.any (·.blocking)

def worker : Option Command := j.commands.find (·.state.isWorking)

def otherWorker (commandId : String) : Option Command :=
  j.commands.find fun c => c.state.isWorking && c.commandId != commandId

def isOpen (s : Session) : Bool := s.state == .active || s.state == .completing

def otherOpen (sessionId : String) : Option Session :=
  j.sessions.find fun s => isOpen s && s.sessionId != sessionId

def atSequence (sessionId : String) (sequence : ℕ) : Option Command :=
  j.commands.find fun c => c.sessionId = sessionId && c.sequence = sequence

def integrityError {α : Type} (what : String) : Outcome α :=
  fail "journal_corrupt" ("SQLite error during transaction: " ++ what)

/-- A new command obeys every constraint of its table. -/
def insertCommand (c : Command) : Outcome Journal := do
  if c.sequence = 0 then integrityError "CHECK constraint failed: sequence > 0"
  else if (j.sessions.get c.sessionId).isNone then integrityError "FOREIGN KEY constraint failed"
  else if (j.atSequence c.sessionId c.sequence).isSome then
    integrityError "UNIQUE constraint failed: commands.session_id, commands.sequence"
  else
    match j.commands.insert c with
    | none => integrityError "UNIQUE constraint failed: commands.command_id"
    | some commands => pure { j with commands := commands }

def insertCommandIngestion (i : CommandIngestion) : Outcome Journal :=
  match j.ingestions.insert i with
  | none => integrityError "UNIQUE constraint failed: command_ingestion.command_id"
  | some ingestions => .ok { j with ingestions := ingestions }

/-! ## Issues -/

def recordIngestionIssue (i : IngestionIssue) : Outcome Journal := do
  require (i.sourceId ≠ "") "ValueError" "source_id must be a non-empty string"
  validateSha40 rt "snapshot_sha" i.snapshotSha
  i.documentCommitSha.forM (validateSha40 rt "document_commit_sha")
  require (i.sourcePath ≠ "") "ValueError" "source_path must be a non-empty string"
  validateSha64 rt "raw_sha256" i.rawSha256
  match j.issues.insert i with
  | none => pure j
  | some issues => pure { j with issues := issues }

/-! ## Sessions and commands -/

def createSession (sessionId repositoryId baseSha now : String) : Outcome Journal := do
  validateSessionId sessionId
  require (repositoryId ≠ "") "invalid_payload" "repository_id must be a non-empty string"
  require (baseSha ≠ "") "invalid_payload" "base_sha must be a non-empty string"
  match j.sessions.insert ⟨sessionId,repositoryId,baseSha,.created,now⟩ with
  | none => fail "journal_conflict" ("Session already exists: " ++ sessionId)
  | some sessions => pure { j with sessions := sessions }

/-- Records a command directly; its identity and its expectations have been derived from its
document. -/
def recordCommand (c : Command) : Outcome Journal := do
  validateSessionId c.sessionId
  require (c.commandId ≠ "") "invalid_payload" "command_id must be a non-empty string"
  require (0 < c.sequence) "invalid_payload" "sequence must be a positive integer"
  match j.commands.get c.commandId with
  | some existing => do
    require ({ c with state := existing.state } = existing) "command_id_collision" ("Command ID collision for " ++ c.commandId)
    pure j
  | none => do
    require ((j.atSequence c.sessionId c.sequence).isNone = true) "sequence_collision"
      ("Sequence " ++ c.sequence.repr ++ " already used in session " ++ c.sessionId)
    j.insertCommand { c with state := .discovered }

def transitionCommand (commandId : String) (expected new : CommandState) : Outcome Journal := do
  let c ← need (j.commands.get commandId) "journal_conflict" ("Command not found: " ++ commandId)
  require (c.state = expected) "journal_conflict"
    ("Command state mismatch: expected " ++ expected.value ++ ", got " ++ c.state.value)
  validateCommandTransition c.state new
  require (new.isWorking = true → j.otherWorker commandId = none) "journal_conflict" "Another command is already active/worker"
  pure (j.withCommandState commandId new)

def transitionSession (sessionId : String) (expected new : SessionState) : Outcome Journal := do
  let s ← need (j.sessions.get sessionId) "journal_conflict" ("Session not found: " ++ sessionId)
  require (s.state = expected) "journal_conflict"
    ("Session state mismatch: expected " ++ expected.value ++ ", got " ++ s.state.value)
  validateSessionTransition s.state new
  require (new = .active ∨ new = .completing → j.otherOpen sessionId = none) "journal_conflict"
    "Another session is already active or completing"
  pure (j.withSessionState sessionId new)

/-! ## Manifests -/

def promoteCommand (j : Journal) (d : PendingDocument) : Outcome Journal :=
  let commandId := commandIdFor d.sessionId d.sequence
  let issue (code : String) (blocking : Bool) : IngestionIssue :=
    ⟨d.sourceId,d.sourcePath,d.snapshotSha,d.rawSha256,code,blocking,some d.documentCommitSha,some d.sessionId,some commandId⟩
  if (j.atSequence d.sessionId d.sequence).isSome then j.recordIngestionIssue rt (issue "sequence_collision" true)
  else
    match decodeUtf8 d.content with
    | none => j.recordIngestionIssue rt (issue "invalid_payload" false)
    | some text => do
      let j ← j.insertCommand ⟨commandId,d.sessionId,d.sequence,text,some d.documentCommitSha,.discovered,none,none⟩
      let j ← j.insertCommandIngestion
        ⟨commandId,d.sourceId,d.snapshotSha,d.sourcePath,d.documentCommitSha,d.rawSha256,none,none⟩
      pure { j with pending := j.pending.remove fun e => e.sessionId = d.sessionId && e.sequence = d.sequence }

def promotePendingCommands (j : Journal) (sessionId : String) : Outcome Journal :=
  (j.pending.rows.filter (·.sessionId = sessionId)).foldlM (promoteCommand rt) j

structure ManifestDocument where
  sourceId : String
  snapshotSha : String
  manifest : SessionIngestion
  repositoryId : String
  baseSha : String

def ManifestDocument.collision (d : ManifestDocument) : IngestionIssue :=
  ⟨d.sourceId,d.manifest.sourcePath,d.snapshotSha,d.manifest.rawSha256,"session_id_collision",true,
    some d.manifest.manifestCommitSha,some d.manifest.sessionId,none⟩

/-- A manifest that was seen before only takes staged documents along; one that differs from
it, or from the session of its name, is a blocking issue. -/
def recordSessionManifest (d : ManifestDocument) (now : String) : Outcome Journal := do
  let m := d.manifest
  validateSha40 rt "snapshot_sha" d.snapshotSha
  validateSha40 rt "manifest_commit_sha" m.manifestCommitSha
  validateSha64 rt "manifest_sha256" m.manifestSha256
  validateSha64 rt "raw_sha256" m.rawSha256
  match j.manifests.get m.sessionId with
  | some existing =>
    if existing.sourcePath = m.sourcePath ∧ existing.manifestCommitSha = m.manifestCommitSha ∧
        existing.rawSha256 = m.rawSha256 ∧ existing.manifestSha256 = m.manifestSha256 ∧
        existing.manifestJson = m.manifestJson then
      promotePendingCommands rt j m.sessionId
    else j.recordIngestionIssue rt d.collision
  | none =>
    match j.sessions.get m.sessionId with
    | some s =>
      if s.repositoryId ≠ d.repositoryId ∨ s.baseSha ≠ d.baseSha then j.recordIngestionIssue rt d.collision
      else
        match j.manifests.insert m with
        | none => integrityError "UNIQUE constraint failed: session_ingestion.session_id"
        | some manifests => promotePendingCommands rt { j with manifests := manifests } m.sessionId
    | none =>
      match j.sessions.insert ⟨m.sessionId,d.repositoryId,d.baseSha,.created,now⟩, j.manifests.insert m with
      | some sessions, some manifests =>
        promotePendingCommands rt { j with sessions := sessions, manifests := manifests } m.sessionId
      | _, _ => integrityError "UNIQUE constraint failed: session_ingestion.session_id"

/-! ## Command documents -/

def commandIssue (d : PendingDocument) (code : String) (blocking : Bool) : IngestionIssue :=
  ⟨d.sourceId,d.sourcePath,d.snapshotSha,d.rawSha256,code,blocking,some d.documentCommitSha,some d.sessionId,
    some (commandIdFor d.sessionId d.sequence)⟩

/-- A document without a manifest waits; the same place in a session is taken only once. -/
def stageDocument (d : PendingDocument) : Outcome Journal :=
  match j.pending.get (d.sessionId,d.sequence) with
  | some staged =>
    if staged.sourcePath = d.sourcePath ∧ staged.documentCommitSha = d.documentCommitSha ∧
        staged.rawSha256 = d.rawSha256 ∧ staged.content = d.content then .ok j
    else j.recordIngestionIssue rt (commandIssue d "sequence_collision" true)
  | none =>
    match j.pending.insert d with
    | none => integrityError "UNIQUE constraint failed: pending_command_documents"
    | some pending => .ok { j with pending := pending }

def ingestDocument (d : PendingDocument) (decoded : Option String) : Outcome Journal :=
  let commandId := commandIdFor d.sessionId d.sequence
  let row : CommandIngestion :=
    ⟨commandId,d.sourceId,d.snapshotSha,d.sourcePath,d.documentCommitSha,d.rawSha256,none,none⟩
  match j.ingestions.get commandId with
  | some existing =>
    if existing.sourcePath = d.sourcePath ∧ existing.documentCommitSha = d.documentCommitSha ∧
        existing.rawSha256 = d.rawSha256 then .ok j
    else j.recordIngestionIssue rt (commandIssue d "command_id_collision" true)
  | none =>
    match j.commands.get commandId with
    | some existing =>
      if existing.sessionId = d.sessionId ∧ existing.sequence = d.sequence ∧
          decoded = some existing.commandJson ∧
          existing.commandCommitSha = some d.documentCommitSha then
        j.insertCommandIngestion row
      else j.recordIngestionIssue rt (commandIssue d "sequence_collision" true)
    | none =>
      if (j.atSequence d.sessionId d.sequence).isSome then
        j.recordIngestionIssue rt (commandIssue d "sequence_collision" true)
      else
        match decoded with
        | none => j.recordIngestionIssue rt (commandIssue d "invalid_payload" false)
        | some text => do
          let j ← j.insertCommand ⟨commandId,d.sessionId,d.sequence,text,some d.documentCommitSha,.discovered,none,none⟩
          j.insertCommandIngestion row

/-- A document whose bytes have been decoded, if they could be. -/
def recordDecodedCommand (d : PendingDocument) (decoded : Option String) : Outcome Journal := do
  validateSha40 rt "snapshot_sha" d.snapshotSha
  validateSha40 rt "document_commit_sha" d.documentCommitSha
  validateSha64 rt "raw_sha256_value" d.rawSha256
  if (j.manifests.get d.sessionId).isNone then j.stageDocument rt d else j.ingestDocument rt d decoded

def recordIngestedCommand (d : PendingDocument) : Outcome Journal := j.recordDecodedCommand rt d (decodeUtf8 d.content)

/-! ## Validation and expiry -/

def expireDiscovered (sessionId : String) : Journal :=
  { j with
    commands := j.commands.change
      (fun c => if c.sessionId = sessionId ∧ c.state = .discovered then { c with state := .expired } else c)
      (by intro c; split <;> rfl) }

/-- A session that was never activated is aborted; the commands of an active one are left. -/
def expireSessionAndPendingCommands (sessionId : String) : Outcome Journal := do
  let s ← need (j.sessions.get sessionId) "journal_conflict" ("Session not found: " ++ sessionId)
  if s.state = .created then do
    validateSessionTransition .created .aborted
    pure ((j.withSessionState sessionId .aborted).expireDiscovered sessionId)
  else if s.state = .aborted then pure (j.expireDiscovered sessionId)
  else pure j

def discoveredCommand (commandId : String) : Outcome Command := do
  let c ← need (j.commands.get commandId) "journal_conflict" ("Command not found: " ++ commandId)
  require (c.state = .discovered) "journal_conflict" ("Command state mismatch: expected DISCOVERED, got " ++ c.state.value)
  pure c

/-- What a valid document says. -/
structure ValidatedDocument where
  commandJson : String
  expectedRevision : Option Int
  expectedStateHash : Option String
  createdRemoteAt : String
  expiresAt : String
  snapshotSha : String

def validateAndUpdateCommand (commandId : String) (v : ValidatedDocument) : Outcome Journal := do
  validateSha40 rt "snapshot_sha" v.snapshotSha
  let _ ← j.discoveredCommand commandId
  let _ ← need (j.ingestions.get commandId) "journal_conflict" ("Command ingestion metadata not found for " ++ commandId)
  pure
    { j with
      commands := j.commands.change
        (fun c => if c.commandId = commandId then
          { c with commandJson := v.commandJson, expectedRevision := v.expectedRevision,
                   expectedStateHash := v.expectedStateHash, state := .validated } else c)
        (by intro c; split <;> rfl)
      ingestions := j.ingestions.change
        (fun i => if i.commandId = commandId then
          { i with createdRemoteAt := some v.createdRemoteAt, expiresAt := some v.expiresAt,
                   snapshotSha := v.snapshotSha } else i)
        (by intro i; split <;> rfl) }

def rejectCommandDuringValidation (commandId errorCode : String) (i : CommandIngestion) : Outcome Journal := do
  let c ← j.discoveredCommand commandId
  (j.withCommandState commandId .rejected).recordIngestionIssue rt
    ⟨i.sourceId,i.sourcePath,i.snapshotSha,i.rawSha256,errorCode,false,some i.documentCommitSha,some c.sessionId,some commandId⟩

def expireCommandDuringValidation (commandId : String) : Outcome Journal := do
  let _ ← j.discoveredCommand commandId
  pure (j.withCommandState commandId .expired)

def countSessionCommandsBefore (sessionId : String) (sequence : ℕ) : ℕ :=
  j.commands.rows.countP fun c => c.sessionId = sessionId && c.sequence < sequence

end Journal

end Bdb.Bridge
