import Bdb.Bridge.QueueScheduling

/-! # Ingestion and validation passes

A poll takes the documents of a snapshot into the journal and then validates what is
discovered. A pass makes one call of the journal after another and stops at the first that
raises; what was committed before stays.
-/
namespace Bdb

/-- Steps taken one after another until one fails. -/
def walk {σ α : Type} (step : σ → α → Outcome σ) : List α → σ → σ × Outcome Unit
  | [], s => (s,.ok ())
  | a :: rest, s =>
    match step s a with
    | .ok t => walk step rest t
    | .error e => (s,.error e)

theorem walk_keeps {σ α : Type} {step : σ → α → Outcome σ} {R : σ → σ → Prop} (hrefl : ∀ s, R s s)
    (htrans : ∀ s t u, R s t → R t u → R s u) (hstep : ∀ s a t, step s a = .ok t → R s t) (as : List α) (s : σ) :
    R s (walk step as s).1 := by
  induction as generalizing s with
  | nil => exact hrefl s
  | cons a rest ih =>
    unfold walk
    cases ha : step s a with
    | error e => exact hrefl s
    | ok t => exact htrans s t _ (hstep s a t ha) (ih t)

theorem walk_done {σ α : Type} (step : σ → α → Outcome σ) (I : σ → Prop) (Q : α → σ → Prop) (as : List α)
    (hstep : ∀ s, I s → ∀ a ∈ as, ∃ t, step s a = .ok t ∧ I t ∧ Q a t ∧ ∀ b, Q b s → Q b t) {s : σ} (hs : I s) :
    ∃ t, walk step as s = (t,.ok ()) ∧ I t ∧ (∀ a ∈ as, Q a t) ∧ ∀ b, Q b s → Q b t := by
  induction as generalizing s with
  | nil => exact ⟨s,rfl,hs,nofun,fun _ => id⟩
  | cons a rest ih =>
    obtain ⟨t,hfirst,ht,hqa,hkeep⟩ := hstep s hs a (List.mem_cons_self ..)
    obtain ⟨u,hrest,hu,hall,hkeep'⟩ := ih (fun s hs b hb => hstep s hs b (List.mem_cons_of_mem a hb)) ht
    refine ⟨u,?_,hu,?_,fun b hb => hkeep' b (hkeep b hb)⟩
    · unfold walk
      rw [hfirst]
      exact hrest
    · intro b hb
      rcases List.mem_cons.mp hb with rfl | hb
      · exact hkeep' b hqa
      · exact hall b hb

namespace Bridge

/-- The codes of the bridge's own errors that documents and the journal raise; any other
failure is an exception of the language. -/
def bridgeCodes : List String :=
  ["invalid_json","invalid_payload","invalid_manifest","unsupported_schema","invalid_session_id","session_mismatch",
    "sequence_mismatch","command_id_mismatch","invalid_revision","invalid_base_sha","unsafe_path","journal_conflict",
    "journal_corrupt","invalid_state_transition"]

def isBridgeError (e : Failure) : Bool := bridgeCodes.contains e.code

structure RemoteDocument where
  path : String
  content : Bytes
  documentCommitSha : String

structure CommandSnapshot where
  snapshotSha : String
  manifests : List RemoteDocument
  commands : List RemoteDocument

def calculateRawSha256 (b : Bytes) : String := "sha256:" ++ Sha256.hexDigest b.nats

def sha256Text (s : String) : String := "sha256:" ++ Sha256.hexDigest (textBytes s)

namespace Journal

variable (rt : BridgeRuntime) (sourceId : String)

/-! ## Documents of a snapshot -/

/-- A document that is refused becomes an issue that blocks nothing. -/
def refuseDocument (j : Journal) (snapshotSha : String) (d : RemoteDocument) (sessionId commandId : Option String)
    (e : Failure) : Outcome Journal :=
  j.recordIngestionIssue rt
    ⟨sourceId,d.path,snapshotSha,calculateRawSha256 d.content,if isBridgeError e then e.code else "invalid_payload",false,
      some d.documentCommitSha,sessionId,commandId⟩

def takeManifest (j : Journal) (snapshotSha now : String) (d : RemoteDocument) : Outcome Journal := do
  let sessionId ← parseManifestPath d.path
  let decoded ← need (decodeUtf8 d.content) "invalid_payload" "Manifest content must be valid UTF-8"
  let parsed ← parseManifestEnvelope rt decoded d.path
  let repositoryId ← requireString parsed "repository_id"
  let baseText ← requireString parsed "base_sha"
  let baseSha ← validateBaseSha rt baseText
  let createdAt ← requireString parsed "created_at"
  let expiresAt ← requireString parsed "expires_at"
  let manifestJson := canonicalJson parsed
  j.recordSessionManifest rt
    { sourceId := sourceId
      snapshotSha := snapshotSha
      manifest := ⟨sessionId,d.path,d.documentCommitSha,calculateRawSha256 d.content,sha256Text manifestJson,manifestJson,
        createdAt,expiresAt⟩
      repositoryId := repositoryId
      baseSha := baseSha } now

def ingestManifest (snapshotSha now : String) (j : Journal) (d : RemoteDocument) : Outcome Journal :=
  match j.takeManifest rt sourceId snapshotSha now d with
  | .ok j => .ok j
  | .error e => j.refuseDocument rt sourceId snapshotSha d none none e

def takeCommand (j : Journal) (snapshotSha : String) (d : RemoteDocument) : Outcome Journal := do
  let (sessionId, sequence) ← parseCommandPath d.path
  j.recordIngestedCommand rt
    ⟨sessionId,sequence,sourceId,snapshotSha,d.path,d.documentCommitSha,calculateRawSha256 d.content,d.content⟩

def ingestCommand (snapshotSha : String) (j : Journal) (d : RemoteDocument) : Outcome Journal :=
  match j.takeCommand rt sourceId snapshotSha d with
  | .ok j => .ok j
  | .error e =>
    match parseCommandPath d.path with
    | .ok (sessionId, sequence) =>
      j.refuseDocument rt sourceId snapshotSha d (some sessionId) (some (commandIdFor sessionId sequence)) e
    | .error _ => j.refuseDocument rt sourceId snapshotSha d none none e

def byPath (documents : List RemoteDocument) : List RemoteDocument := documents.insertionSort (·.path ≤ ·.path)

def ingestSnapshot (snapshot : CommandSnapshot) (now : String) (j : Journal) : Journal × Outcome Unit :=
  match walk (ingestManifest rt sourceId snapshot.snapshotSha now) (byPath snapshot.manifests) j with
  | (j, .error e) => (j,.error e)
  | (j, .ok ()) => walk (ingestCommand rt sourceId snapshot.snapshotSha) (byPath snapshot.commands) j

/-! ## Validation -/

/-- A session that was never activated is aborted once its manifest has expired. -/
def expireStaleSession (now : DateTime) (j : Journal) (m : SessionIngestion) : Outcome Journal := do
  if ← isExpired rt m.expiresAt now then
    match j.sessions.get m.sessionId with
    | some s => if s.state = .created then j.expireSessionAndPendingCommands m.sessionId else pure j
    | none => pure j
  else pure j

def validatedDocument (parsed : Fields) (createdAt expiresAt snapshotSha : String) : ValidatedDocument where
  commandJson := canonicalJson parsed
  expectedRevision := match parsed.get "expected_revision" with | .int n => some n | _ => none
  expectedStateHash := match parsed.get "expected_state_hash" with | .str s => some s | _ => none
  createdRemoteAt := createdAt
  expiresAt := expiresAt
  snapshotSha := snapshotSha

def validateDocument (now : DateTime) (j : Journal) (c : Command) (i : CommandIngestion) : Outcome Journal :=
  match parseCommandEnvelope rt c.commandJson i.sourcePath with
  | .error e => if isBridgeError e then j.rejectCommandDuringValidation rt c.commandId e.code i else .error e
  | .ok parsed => do
    let expiresAt ← requireString parsed "expires_at"
    if ← isExpired rt expiresAt now then j.expireCommandDuringValidation c.commandId
    else if 1 < c.sequence ∧ j.countSessionCommandsBefore c.sessionId c.sequence ≠ c.sequence - 1 then pure j
    else do
      let createdAt ← requireString parsed "created_at"
      j.validateAndUpdateCommand rt c.commandId (validatedDocument parsed createdAt expiresAt i.snapshotSha)

def validateCommand (now : DateTime) (j : Journal) (c : Command) : Outcome Journal :=
  match j.commands.get c.commandId with
  | none => .ok j
  | some current =>
    if current.state ≠ .discovered then .ok j
    else
      match j.manifests.get c.sessionId with
      | none => .ok j
      | some m => do
        let i ← need (j.ingestions.get c.commandId) "journal_conflict"
          ("Command ingestion metadata missing for discovered command " ++ c.commandId)
        if i.sourceId ≠ sourceId then pure j
        else if ← isExpired rt m.expiresAt now then j.expireSessionAndPendingCommands c.sessionId
        else j.validateDocument rt now c i

def commandOrder (c : Command) : String ×ₗ ℕ := toLex (c.sessionId,c.sequence)

def listDiscoveredCommands (j : Journal) : List Command :=
  (j.commands.rows.filter (·.state == .discovered)).insertionSort (commandOrder · ≤ commandOrder ·)

def manifestsInOrder (j : Journal) : List SessionIngestion := j.manifests.rows.insertionSort (·.sessionId ≤ ·.sessionId)

def validateAt (now : DateTime) (j : Journal) : Journal × Outcome Unit :=
  match walk (expireStaleSession rt now) j.manifestsInOrder j with
  | (j, .error e) => (j,.error e)
  | (j, .ok ()) => walk (validateCommand rt sourceId now) j.listDiscoveredCommands j

def validatePending (now : String) (j : Journal) : Journal × Outcome Unit :=
  match parseStrictUtcTimestamp rt now "now" with
  | .error e => (j,.error e)
  | .ok now => j.validateAt rt sourceId now

def pollOnce (fetched : Option CommandSnapshot) (now : String) (j : Journal) : Journal × Outcome Unit :=
  match fetched with
  | none => (j,.ok ())
  | some snapshot =>
    match j.ingestSnapshot rt sourceId snapshot now with
    | (j, .error e) => (j,.error e)
    | (j, .ok ()) => j.validatePending rt sourceId now

end Journal

end Bridge

end Bdb
