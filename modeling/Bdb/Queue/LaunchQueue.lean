import Bdb.Base.Stamps

/-! # The project launch queue

One document holds at most one pending launch and at most one claim on it. Every
operation reads and checks the document, drops what has expired, and writes the
document back when it changed. The writer of a new launch does not apply the checks
that the reader makes.
-/
namespace Bdb.Queue

structure QueueRuntime where
  runtime : Runtime
  uuidTable : String → Bool

def projectLaunchSchema : String := "bdb-project-launch-v1"
def projectLaunchQueueSchema : String := "bdb-project-launch-queue-v1"
def projectLaunchClaimSchema : String := "bdb-project-launch-claim-v1"
def maxProjectPromptChars : ℕ := 50000

variable {α : Type} (rt : QueueRuntime)

def otherUtc (s field : String) : Outcome DateTime :=
  match rt.runtime.fromIsoFormat (String.ofList s.toList.dropLast ++ "+00:00") with
  | some (.utc text) => need (readUtc text) "ValueError" "year is out of range"
  | some .naive => fail "ValueError" (field ++ " must include timezone")
  | none => fail "ValueError" "Invalid isoformat string"

/-- A timestamp in UTC Z form; the runtime reads the forms this program does not write. -/
def parseUtc (value : Json) (field : String) : Outcome DateTime :=
  match value with
  | .str s =>
    if s.toList.getLast? = some 'Z' then
      match readUtc s with
      | some t => .ok t
      | none => otherUtc rt s field
    else fail "ValueError" (field ++ " must use canonical UTC Z form")
  | _ => fail "ValueError" (field ++ " must use canonical UTC Z form")

def uuidText (value : Json) (field : String) : Outcome String :=
  match value with
  | .str s =>
    if isUuidText rt.uuidTable s then .ok s else fail "ValueError" (field ++ " must be a UUID string")
  | _ => fail "ValueError" (field ++ " must be a UUID string")

def textOf (value : Json) : String := if value.truthy then rt.runtime.str value else ""

/-! ## Launches and claims -/

/-- The optional identity fields of a launch. -/
structure LaunchMetadata where
  projectId : Option String
  planVersion : Option String
  taskId : Option String
  executionBindingId : Option String
  correlationId : Option String
  commandId : Option String
  expectedRepoHeadBefore : Option String
deriving DecidableEq

structure ProjectLaunch where
  launchId : String
  repoAlias : String
  prompt : String
  autoSend : Bool
  createdAt : String
  expiresAt : String
  metadata : LaunchMetadata
deriving DecidableEq

def LaunchMetadata.values (m : LaunchMetadata) : List (String × Option String) :=
  [("project_id",m.projectId),("plan_version",m.planVersion),("task_id",m.taskId),
    ("execution_binding_id",m.executionBindingId),("correlation_id",m.correlationId),
    ("command_id",m.commandId),("expected_repo_head_before",m.expectedRepoHeadBefore)]

def optionalField (p : String × Option String) : Fields :=
  match p.2 with
  | some s => [(p.1,.str s)]
  | none => []

def ProjectLaunch.toDict (l : ProjectLaunch) : Json :=
  .obj ([("schema",.str projectLaunchSchema),("launch_id",.str l.launchId),("repo_alias",.str l.repoAlias),
    ("prompt",.str l.prompt),("auto_send",.bool l.autoSend),("created_at",.str l.createdAt),
    ("expires_at",.str l.expiresAt)] ++ l.metadata.values.flatMap optionalField)

/-- One optional identity field: absent, or a bounded non-empty text. -/
def metadataField (fs : Fields) (field : String) : Outcome (Option String) :=
  match fs.get field with
  | .null => .ok none
  | .str s =>
    if s ≠ "" ∧ s.length ≤ 256 then .ok (some s) else fail "ValueError" "project launch metadata is invalid"
  | _ => fail "ValueError" "project launch metadata is invalid"

def metadataFrom (fs : Fields) : Outcome LaunchMetadata := do
  let projectId ← metadataField fs "project_id"
  let planVersion ← metadataField fs "plan_version"
  let taskId ← metadataField fs "task_id"
  let executionBindingId ← metadataField fs "execution_binding_id"
  let correlationId ← metadataField fs "correlation_id"
  let commandId ← metadataField fs "command_id"
  let expectedRepoHeadBefore ← metadataField fs "expected_repo_head_before"
  pure ⟨projectId,planVersion,taskId,executionBindingId,correlationId,commandId,expectedRepoHeadBefore⟩

def boolField (value : Json) : Outcome Bool :=
  match value with
  | .bool b => .ok b
  | _ => fail "ValueError" "project launch auto_send must be boolean"

def launchFromFields (fs : Fields) : Outcome ProjectLaunch := do
  require (fs.get "schema" = .str projectLaunchSchema) "ValueError" "project launch schema is unsupported"
  let launchId ← uuidText rt (fs.get "launch_id") "launch_id"
  let repoAlias := textOf rt (fs.get "repo_alias")
  let prompt := textOf rt (fs.get "prompt")
  require (matchesAlias repoAlias = true) "ValueError" "repo_alias must match repository alias format"
  require (prompt ≠ "" ∧ prompt.length ≤ maxProjectPromptChars) "ValueError"
    "prompt must be non-empty and bounded"
  let autoSend ← boolField (fs.get "auto_send")
  let created ← parseUtc rt (fs.get "created_at") "created_at"
  let expires ← parseUtc rt (fs.get "expires_at") "expires_at"
  require (created < expires) "ValueError" "expires_at must be later than created_at"
  let metadata ← metadataFrom fs
  pure ⟨launchId,repoAlias,prompt,autoSend,rt.runtime.str (fs.get "created_at"),
    rt.runtime.str (fs.get "expires_at"),metadata⟩

def launchFromDict (value : Json) : Outcome ProjectLaunch :=
  match value with
  | .obj fs => launchFromFields rt fs
  | _ => fail "ValueError" "project launch schema is unsupported"

structure ProjectLaunchClaim where
  claimId : String
  launchId : String
  claimedAt : String
  expiresAt : String
deriving DecidableEq

def ProjectLaunchClaim.toDict (c : ProjectLaunchClaim) : Json :=
  .obj [("schema",.str projectLaunchClaimSchema),("claim_id",.str c.claimId),("launch_id",.str c.launchId),
    ("claimed_at",.str c.claimedAt),("expires_at",.str c.expiresAt)]

def claimFromFields (fs : Fields) : Outcome ProjectLaunchClaim := do
  require (fs.get "schema" = .str projectLaunchClaimSchema) "ValueError"
    "project launch claim schema is unsupported"
  let claimId ← uuidText rt (fs.get "claim_id") "claim_id"
  let launchId ← uuidText rt (fs.get "launch_id") "launch_id"
  let claimed ← parseUtc rt (fs.get "claimed_at") "claimed_at"
  let expires ← parseUtc rt (fs.get "expires_at") "expires_at"
  require (claimed < expires) "ValueError" "claim expires_at must be later than claimed_at"
  pure ⟨claimId,launchId,rt.runtime.str (fs.get "claimed_at"),rt.runtime.str (fs.get "expires_at")⟩

def claimFromDict (value : Json) : Outcome ProjectLaunchClaim :=
  match value with
  | .obj fs => claimFromFields rt fs
  | _ => fail "ValueError" "project launch claim schema is unsupported"

/-! ## The stored document -/

abbrev QueueFile := Option Json

abbrev QueueState := Option ProjectLaunch × Option ProjectLaunchClaim

def recode (x : Outcome α) (code message : String) : Outcome α :=
  match x with
  | .ok a => .ok a
  | .error _ => fail code message

/-- An absent part, or one that its reader takes. -/
def readPart (read : Json → Outcome α) (value : Json) : Outcome (Option α) :=
  match value with
  | .null => .ok none
  | v => (read v).map some

def readParts (fs : Fields) : Outcome QueueState := do
  let pending ← readPart (launchFromDict rt) (fs.get "pending")
  let claim ← readPart (claimFromDict rt) (fs.get "claim")
  pure (pending,claim)

def claimFits (state : QueueState) : Bool :=
  match state with
  | (some pending,some claim) => claim.launchId == pending.launchId
  | _ => true

def readDocument (fs : Fields) : Outcome QueueState := do
  require (fs.get "schema" = .str projectLaunchQueueSchema) "queue_schema_invalid"
    "project launch queue schema is unsupported"
  let state ← recode (readParts rt fs) "queue_corrupt" "project launch queue state is invalid"
  require (claimFits state = true) "queue_corrupt" "project launch claim does not match pending launch"
  pure state

def readState (file : QueueFile) : Outcome QueueState :=
  match file with
  | none => .ok (none,none)
  | some (.obj fs) => readDocument rt fs
  | some _ => fail "queue_schema_invalid" "project launch queue schema is unsupported"

def stateDocument (state : QueueState) : Json :=
  .obj [("schema",.str projectLaunchQueueSchema),("pending",(state.1.map ProjectLaunch.toDict).getD .null),
    ("claim",(state.2.map ProjectLaunchClaim.toDict).getD .null)]

def claimExpired (now : DateTime) (claim : Option ProjectLaunchClaim) : Outcome Bool :=
  match claim with
  | none => .ok false
  | some c => do
    let expires ← parseUtc rt (.str c.expiresAt) "claim.expires_at"
    pure (decide (expires ≤ now))

def normalizeExpiry (now : DateTime) (state : QueueState) : Outcome QueueState :=
  match state with
  | (none,_) => .ok (none,none)
  | (some pending,claim) => do
    let expires ← parseUtc rt (.str pending.expiresAt) "expires_at"
    if expires ≤ now then pure (none,none)
    else do
      let expired ← claimExpired rt now claim
      pure (some pending,if expired then none else claim)

/-- The file after a normalised state is written back, when it differs from what was read. -/
def writeBack (file : QueueFile) (raw normalized : QueueState) : QueueFile :=
  if normalized ≠ raw then some (stateDocument normalized) else file

/-! ## Operations -/

/-- The clock readings of one call, before and under the lock, and a fresh UUID. -/
structure Moment where
  started : DateTime
  reading : DateTime
  ordered : started ≤ reading
  uuid : String
  isUuid : isUuidText rt.uuidTable uuid = true

structure EnqueueRequest where
  repoAlias : String
  prompt : String
  autoSend : Bool
  ttlMinutes : Int
  launchId : Option String
  metadata : LaunchMetadata

inductive Call where
  | peek
  | enqueue (request : EnqueueRequest)
  | claim (launchId claimId : String) (leaseSeconds : Int)
  | acknowledge (launchId claimId : String)
  | claimMatches (launchId claimId : String)

inductive Reply where
  | launch (l : Option ProjectLaunch)
  | flag (b : Bool)
deriving DecidableEq

variable {rt}

def observed (m : Moment rt) (file : QueueFile) : Outcome (QueueState × QueueState) := do
  let raw ← readState rt file
  let normalized ← normalizeExpiry rt m.reading raw
  pure (raw,normalized)

def peek (m : Moment rt) (file : QueueFile) : Outcome (QueueFile × Reply) := do
  let (raw,normalized) ← observed m file
  pure (writeBack file raw normalized,.launch normalized.1)

def candidate (m : Moment rt) (request : EnqueueRequest) : Outcome ProjectLaunch := do
  require (0 < request.ttlMinutes ∧ request.ttlMinutes ≤ 1440) "queue_ttl_invalid"
    "ttl_minutes must be positive and bounded"
  let expires ← m.started.plus (request.ttlMinutes.toNat * 60000000)
  pure ⟨(request.launchId.filter (· ≠ "")).getD m.uuid,request.repoAlias,request.prompt,request.autoSend,
    utcText m.started,utcText expires,request.metadata⟩

def enqueue (m : Moment rt) (request : EnqueueRequest) (file : QueueFile) : Outcome (QueueFile × Reply) := do
  let launch ← candidate m request
  let (_,normalized) ← observed m file
  require (normalized.1 = none) "queue_pending" "queue already contains an unexpired launch"
  pure (some (stateDocument (some launch,none)),.launch (some launch))

/-- Both identities of a claim call are checked before the queue is read. -/
def checkedIds (rt : QueueRuntime) (code launchId claimId : String) : Outcome Unit := do
  let _ ← recode (uuidText rt (.str launchId) "launch_id") code "launch_id must be a UUID string"
  let _ ← recode (uuidText rt (.str claimId) "claim_id") code "claim_id must be a UUID string"
  pure ()

def claimOn (claimed : ProjectLaunchClaim) (file : QueueFile) (raw normalized : QueueState) :
    QueueFile × Reply :=
  match normalized with
  | (some pending,held) =>
    if pending.launchId = claimed.launchId then
      match held with
      | some c =>
        if c.claimId = claimed.claimId ∧ c.launchId = claimed.launchId then (file,.launch (some pending))
        else (file,.launch none)
      | none => (some (stateDocument (some pending,some claimed)),.launch (some pending))
    else (writeBack file raw normalized,.launch none)
  | (none,_) => (writeBack file raw normalized,.launch none)

def claim (m : Moment rt) (launchId claimId : String) (leaseSeconds : Int) (file : QueueFile) :
    Outcome (QueueFile × Reply) := do
  require (0 < leaseSeconds ∧ leaseSeconds ≤ 600) "queue_lease_invalid"
    "lease_seconds must be positive and bounded"
  checkedIds rt "queue_claim_invalid" launchId claimId
  let expires ← m.started.plus (leaseSeconds.toNat * 1000000)
  let (raw,normalized) ← observed m file
  pure (claimOn ⟨claimId,launchId,utcText m.started,utcText expires⟩ file raw normalized)

def holds (launchId claimId : String) (state : QueueState) : Bool :=
  match state with
  | (some pending,some c) =>
    pending.launchId == launchId && c.launchId == launchId && c.claimId == claimId
  | _ => false

def acknowledge (m : Moment rt) (launchId claimId : String) (file : QueueFile) :
    Outcome (QueueFile × Reply) := do
  checkedIds rt "queue_ack_invalid" launchId claimId
  let (raw,normalized) ← observed m file
  if holds launchId claimId normalized then pure (some (stateDocument (none,none)),.flag true)
  else pure (writeBack file raw normalized,.flag false)

def claimMatches (m : Moment rt) (launchId claimId : String) (file : QueueFile) :
    Outcome (QueueFile × Reply) := do
  let (raw,normalized) ← observed m file
  pure (writeBack file raw normalized,.flag (holds launchId claimId normalized))

def runCall (m : Moment rt) (c : Call) (file : QueueFile) : Outcome (QueueFile × Reply) :=
  match c with
  | .peek => peek m file
  | .enqueue request => enqueue m request file
  | .claim launchId claimId leaseSeconds => claim m launchId claimId leaseSeconds file
  | .acknowledge launchId claimId => acknowledge m launchId claimId file
  | .claimMatches launchId claimId => claimMatches m launchId claimId file

def after (file : QueueFile) (step : Moment rt × Call) : QueueFile :=
  match runCall step.1 step.2 file with
  | .ok (file',_) => file'
  | .error _ => file

def runCalls (file : QueueFile) (steps : List (Moment rt × Call)) : QueueFile := steps.foldl after file

end Bdb.Queue
