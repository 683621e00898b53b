import Bdb.Base.Stamps

/-! # The canonical snapshot of startup recovery

One read transaction takes the rows of one project from every canonical table, checks those
that a decision may rest on, and projects them into one document, whose digest names the
state. What cannot be read is an error of recovery; a value that the program cannot convert
is an error that nobody catches.
-/
namespace Bdb.Startup

/-- Python's own text primitives, the reading of JSON, and the integer that a text denotes. -/
structure RecoveryRuntime where
  runtime : Runtime
  loads : String → Option Json
  intOfText : String → Option Int

structure RecoveryError where
  code : String
  message : String
  table : Option String
  rowId : Option String
deriving DecidableEq

inductive Fault where
  | recovery (e : RecoveryError)
  | uncaught
deriving DecidableEq

abbrev Read (α : Type) := Except Fault α

def failRecovery {α : Type} (code message : String) (table rowId : Option String) : Read α :=
  .error (.recovery ⟨code,message,table,rowId⟩)

/-! ## Tables -/

structure SqlTable where
  columns : List String
  rows : List Fields

/-- The tables of a database by name. -/
abbrev Tables := String → Option SqlTable

def SqlTable.ownRows (t : SqlTable) (projectId : String) : List Fields :=
  t.rows.filter fun r => r.get "project_id" == .str projectId

def Tables.own (db : Tables) (projectId table : String) : Option SqlTable :=
  (db table).map fun t => { t with rows := t.ownRows projectId }

variable (rt : RecoveryRuntime) (db : Tables) (projectId : String)

def selectRows (table : String) : Read (List Fields) :=
  match db.own projectId table with
  | none => .ok []
  | some t =>
    if "project_id" ∈ t.columns then .ok t.rows
    else failRecovery "CANONICAL_READ_FAILED" ("canonical table " ++ table ++ " could not be read") (some table) none

/-! ## Conversions -/

def pyStr (value : Json) : String := rt.runtime.str value

def pyInt : Json → Option Int
  | .int n => some n
  | .bool b => some (if b then 1 else 0)
  | .str s => rt.intOfText s
  | _ => none

/-- `int(value)` where nobody catches what it raises. -/
def intOrRaise (value : Json) : Read Int :=
  match pyInt rt value with
  | some n => .ok n
  | none => .error .uncaught

def intOrZero (value : Json) : Read Int := if value.truthy = true then intOrRaise rt value else .ok 0

def column (row : Fields) (name : String) : Read Json :=
  match row.lookup name with
  | some value => .ok value
  | none => .error .uncaught

def replaceZ (s : String) : String :=
  String.ofList (s.toList.flatMap fun c => if c = 'Z' then "+00:00".toList else [c])

def parseUtc (s field : String) : Read DateTime :=
  match rt.runtime.fromIsoFormat (replaceZ s) with
  | none => failRecovery "INVALID_RECOVERY_CLOCK" (field ++ " is not ISO-8601") none none
  | some .naive => failRecovery "INVALID_RECOVERY_CLOCK" (field ++ " must be timezone-aware") none none
  | some (.utc text) =>
    match readUtc text with
    | some t => .ok t
    | none => .error .uncaught

def jsonObject (value : Json) (table name : String) (rowId : String) : Read Unit :=
  match value with
  | .obj _ => .ok ()
  | .str s =>
    match rt.loads s with
    | none => failRecovery "CANONICAL_JSON_CORRUPT" (table ++ "." ++ name ++ " is malformed JSON") (some table) (some rowId)
    | some (.obj _) => .ok ()
    | some _ =>
      failRecovery "CANONICAL_JSON_CORRUPT" (table ++ "." ++ name ++ " must be a JSON object") (some table) (some rowId)
  | _ => failRecovery "CANONICAL_JSON_CORRUPT" (table ++ "." ++ name ++ " is not JSON") (some table) (some rowId)

def jsonArray (value : Json) (table name : String) (rowId : String) : Read Unit :=
  match value with
  | .arr _ => .ok ()
  | .str s =>
    match rt.loads s with
    | none => failRecovery "CANONICAL_JSON_CORRUPT" (table ++ "." ++ name ++ " is malformed JSON") (some table) (some rowId)
    | some (.arr _) => .ok ()
    | some _ =>
      failRecovery "CANONICAL_JSON_CORRUPT" (table ++ "." ++ name ++ " must be a JSON array") (some table) (some rowId)
  | _ => failRecovery "CANONICAL_JSON_CORRUPT" (table ++ "." ++ name ++ " is not JSON") (some table) (some rowId)

def textColumn (row : Fields) (table name rowId : String) : Read Unit := do
  let value ← column row name
  match value with
  | .str s =>
    if s = "" then
      failRecovery "CANONICAL_IDENTITY_CORRUPT" (table ++ "." ++ name ++ " is not a non-empty text identity")
        (some table) (some rowId)
    else pure ()
  | _ =>
    failRecovery "CANONICAL_IDENTITY_CORRUPT" (table ++ "." ++ name ++ " is not a non-empty text identity")
      (some table) (some rowId)

/-! ## Statuses -/

def sendActive : List String := ["PREPARED","SEND_ALLOWED","PHYSICAL_SEND_ATTEMPTED","SEND_CONFIRMED"]

def sendUncertain : List String := ["UNCERTAIN","RECONCILIATION_REQUIRED"]

def leaseActive : List String := ["CLAIMED","ACTIVE"]

def leaseTerminal : List String := ["COMPLETED","ABANDONED","RELEASED","EXPIRED","AVAILABLE"]

def reentryPending : List String :=
  ["TURN_ENDED","SESSION_UNAVAILABLE","CONTINUATION_PENDING","REENTRY_PREPARED","REENTRY_IN_PROGRESS"]

def reentryBlocked : List String := ["REENTRY_FAILED","REENTRY_BLOCKED"]

def knownSendStatuses : List String := sendActive ++ sendUncertain ++ ["ACKNOWLEDGED","SEND_CONFIRMED","CANCELLED","FENCED"]

def knownLeaseStatuses : List String := leaseActive ++ leaseTerminal

def knownReentryStates : List String :=
  "SESSION_ACTIVE" :: reentryPending ++ ["OPERATOR_CHECKPOINT","REENTRY_CONFIRMED"] ++ reentryBlocked

/-! ## The checks -/

def validateSendIntent (row : Fields) : Read Unit := do
  let rowId := pyStr rt (← column row "intent_id")
  textColumn row "send_intents" "intent_id" rowId
  if pyStr rt (← column row "status") ∉ knownSendStatuses then
    failRecovery "CANONICAL_STATUS_CORRUPT" "send intent status is unsupported" (some "send_intents") (some rowId)
  textColumn row "send_intents" "continuation_id" rowId
  textColumn row "send_intents" "packet_digest" rowId
  textColumn row "send_intents" "execution_binding_id" rowId
  jsonObject rt (← column row "delivery_evidence_json") "send_intents" "delivery_evidence_json" rowId

def validateLeaseNumbers (row : Fields) (rowId : String) : Read Unit := do
  let invalid : Read Unit :=
    failRecovery "CANONICAL_LEASE_CORRUPT" "lease generation or revision is invalid" (some "leases") (some rowId)
  match pyInt rt (← column row "generation") with
  | none => invalid
  | some generation =>
    if generation < 0 then invalid
    else
      match pyInt rt (← column row "state_revision") with
      | none => invalid
      | some revision =>
        if revision < 1 then invalid
        else
          match parseUtc rt (pyStr rt (← column row "expires_at")) "lease.expires_at" with
          | .ok _ => pure ()
          | .error (.recovery _) =>
            failRecovery "CANONICAL_LEASE_CORRUPT" "lease expiry is invalid" (some "leases") (some rowId)
          | .error .uncaught => .error .uncaught

def validateLease (row : Fields) : Read Unit := do
  let rowId := pyStr rt (← column row "lease_id")
  if pyStr rt (← column row "status") ∉ knownLeaseStatuses then
    failRecovery "CANONICAL_STATUS_CORRUPT" "lease status is unsupported" (some "leases") (some rowId)
  if (← column row "lease_kind") = .str "CONTINUATION" then
    textColumn row "leases" "continuation_id" rowId
    textColumn row "leases" "packet_digest" rowId
    textColumn row "leases" "resource_id" rowId
  validateLeaseNumbers rt row rowId

def validateReentry (row : Fields) : Read Unit := do
  let rowId := pyStr rt (← column row "reentry_id")
  let state := pyStr rt (← column row "liveness_state")
  if state ∉ knownReentryStates then
    failRecovery "CANONICAL_STATUS_CORRUPT" "session re-entry state is unsupported" (some "session_reentries") (some rowId)
  textColumn row "session_reentries" "continuation_id" rowId
  textColumn row "session_reentries" "packet_digest" rowId
  textColumn row "session_reentries" "execution_binding_id" rowId
  jsonArray rt (← column row "trace_json") "session_reentries" "trace_json" rowId
  let effects ← intOrRaise rt (← column row "effect_count")
  let counters : Read Unit :=
    failRecovery "CANONICAL_REENTRY_CORRUPT" "session re-entry counters are invalid" (some "session_reentries") (some rowId)
  if effects < 0 then counters
  if (← intOrRaise rt (← column row "binding_generation")) < 1 then counters
  if state = "REENTRY_CONFIRMED" ∧ 1 < effects then
    failRecovery "CANONICAL_EFFECT_COUNT_CORRUPT" "confirmed session re-entry has more than one effect"
      (some "session_reentries") (some rowId)

def validateCursor (row : Fields) : Read Unit := do
  let rowId := pyStr rt (← column row "cursor_id")
  let invalid : Read Unit :=
    failRecovery "CANONICAL_CURSOR_CORRUPT" "scope cursor epoch or revision is invalid" (some "scope_cursors") (some rowId)
  match pyInt rt (← column row "scope_epoch") with
  | none => invalid
  | some epoch =>
    if epoch < 1 then invalid
    else
      match pyInt rt (← column row "state_revision") with
      | none => invalid
      | some revision => if revision < 1 then invalid
  match row.lookup "explanation_json" with
  | none => pure ()
  | some value => jsonObject rt value "scope_cursors" "explanation_json" rowId

def validateGeneration (row : Fields) (rowId : String) : Read Unit := do
  if (← intOrRaise rt (← column row "generation")) < 1 then
    failRecovery "CANONICAL_BINDING_CORRUPT" "execution binding generation is invalid" (some "execution_bindings") (some rowId)

def validateBindings : List (String × String) → List Fields → Read Unit
  | _, [] => pure ()
  | active, row :: rest => do
    let rowId := pyStr rt (← column row "execution_binding_id")
    if rt.runtime.upper (pyStr rt (← column row "status")) = "ACTIVE" then
      let key := (pyStr rt (← column row "task_id"),pyStr rt (← column row "project_id"))
      if key ∈ active then
        failRecovery "AMBIGUOUS_ACTIVE_BINDING" "more than one active binding exists for a task"
          (some "execution_bindings") (some rowId)
      validateGeneration rt row rowId
      validateBindings (key :: active) rest
    else
      validateGeneration rt row rowId
      validateBindings active rest

/-- Some key is paired with two different values. -/
def ambiguous {α : Type} [DecidableEq α] (pairs : List (α × String)) : Bool :=
  pairs.any fun p => pairs.any fun q => p.1 == q.1 && p.2 != q.2

def unresolvedIntents : List Fields → Read (List ((String × Int) × String))
  | [] => pure []
  | row :: rest => do
    if pyStr rt (← column row "status") ∈ sendActive ++ sendUncertain then
      let continuation := pyStr rt (← column row "continuation_id")
      let epoch ← intOrRaise rt (← column row "scope_epoch")
      let intent := pyStr rt (← column row "intent_id")
      return ((continuation,epoch),intent) :: (← unresolvedIntents rest)
    else unresolvedIntents rest

def activeResources : List Fields → Read (List (String × String))
  | [] => pure []
  | row :: rest => do
    if pyStr rt (← column row "lease_kind") = "CONTINUATION" ∧ pyStr rt (← column row "status") ∈ leaseActive then
      let resource := pyStr rt (← column row "resource_id")
      let lease := pyStr rt (← column row "lease_id")
      return (resource,lease) :: (← activeResources rest)
    else activeResources rest

def validateRows (sendIntents leases sessionReentries cursors bindings : List Fields) : Read Unit := do
  sendIntents.forM (validateSendIntent rt)
  leases.forM (validateLease rt)
  sessionReentries.forM (validateReentry rt)
  cursors.forM (validateCursor rt)
  validateBindings rt [] bindings
  if ambiguous (← unresolvedIntents rt sendIntents) = true then
    failRecovery "AMBIGUOUS_SEND_INTENTS" "multiple unresolved send intents share one continuation identity"
      (some "send_intents") none
  if ambiguous (← activeResources rt leases) = true then
    failRecovery "AMBIGUOUS_ACTIVE_LEASES" "multiple active continuation leases share one resource" (some "leases") none

/-! ## The projection -/

def rowDict (row : Fields) (names : List String) : Fields :=
  names.filterMap fun name => (row.lookup name).map fun value => (name,value)

/-- `_sort_rows`: by the texts of the given columns. -/
def sortRows (keys : List String) (rows : List Fields) : List Fields :=
  rows.insertionSort fun r₁ r₂ =>
    (keys.map fun k => pyStr rt (r₁.getOr k (.str ""))) ≤ keys.map fun k => pyStr rt (r₂.getOr k (.str ""))

structure Canonical where
  project : Fields
  cursor : Option Fields
  plans : List Fields
  runs : List Fields
  scopes : List Fields
  taskStates : List Fields
  bindings : List Fields
  attempts : List Fields
  checkpoints : List Fields
  launchOutbox : List Fields
  sendIntents : List Fields
  leases : List Fields
  stopFences : List Fields
  sessionReentries : List Fields
  ciWaits : List Fields
  retries : List Fields
  failures : List Fields
  attention : List Fields
  securityEvents : List Fields

def rowsJson (rows : List Fields) : Json := .arr (rows.map .obj)

def Canonical.toJson (c : Canonical) : Json := .obj [
  ("schema",.str "bdb-startup-recovery-v1"),
  ("version",.str "v1"),
  ("project",.obj c.project),
  ("cursor",c.cursor.elim .null .obj),
  ("plans",rowsJson c.plans),
  ("runs",rowsJson c.runs),
  ("scopes",rowsJson c.scopes),
  ("task_states",rowsJson c.taskStates),
  ("bindings",rowsJson c.bindings),
  ("attempts",rowsJson c.attempts),
  ("checkpoints",rowsJson c.checkpoints),
  ("launch_outbox",rowsJson c.launchOutbox),
  ("send_intents",rowsJson c.sendIntents),
  ("leases",rowsJson c.leases),
  ("stop_fences",rowsJson c.stopFences),
  ("session_reentries",rowsJson c.sessionReentries),
  ("ci_waits",rowsJson c.ciWaits),
  ("retries",rowsJson c.retries),
  ("failures",rowsJson c.failures),
  ("attention",rowsJson c.attention),
  ("security_events",rowsJson c.securityEvents)]

def digestJson (j : Json) : String := "sha256:" ++ rt.runtime.sha256 (Json.text (Json.canon j))

def cursorColumns : List String :=
  ["cursor_id","project_id","run_id","scope","scope_epoch","current_milestone_id","current_task_id","last_accepted_task_id",
    "last_accepted_gate","plan_identity","plan_version","state_revision","disposition","status","stop_requested_at",
    "stop_reason","scope_selection_explicit"]

def sendIntentColumns : List String :=
  ["intent_id","intent_key","continuation_id","packet_digest","lease_id","lease_generation","scope_epoch","run_id","task_id",
    "execution_binding_id","expected_repo_head_before","conversation_binding_id","conversation_binding_proof",
    "message_digest","intent_generation","state_revision","status","prepared_at","updated_at","physical_attempted_at",
    "confirmed_at","acknowledged_at","delivery_evidence_json","uncertainty_reason"]

def leaseColumns : List String :=
  ["lease_id","resource_type","resource_id","status","acquired_at","expires_at","fence","lease_kind","continuation_id",
    "packet_digest","run_id","scope_epoch","task_id","execution_binding_id","owner_id","generation","state_revision",
    "last_transition_reason","completed_at","abandoned_at"]

def reentryColumns : List String :=
  ["reentry_id","continuation_id","packet_digest","run_id","scope_epoch","task_id","execution_binding_id",
    "binding_generation","canonical_state_revision","canonical_state_digest","session_liveness_version","liveness_state",
    "selected_channel","conversation_id","conversation_binding_proof","checkpoint_id","trace_json","effect_count",
    "operator_prompt_build_required","operator_decision_required","state_revision","last_reason","created_at","updated_at"]

def ciWaitColumns : List String :=
  ["wait_id","run_id","task_id","provider","workflow","ci_run_id","expected_head","status","last_observed_status",
    "last_observed_head","next_poll_at","poll_count","deadline_at","evidence_digest","continuation_emitted"]

def retryColumns : List String :=
  ["retry_request_id","run_id","task_id","operation_id","fingerprint_digest","evidence_digest","generation","eligible_at",
    "status","execution_count","result_digest"]

def securityKinds : List String := ["SECURITY_FREEZE","DATA_CORRUPTION","SECURITY_DATA_CORRUPTION"]

structure CanonicalRecoverySnapshot where
  projectId : String
  canonicalRevision : Int
  snapshotDigest : String
  data : Canonical

/-- The row of the project itself, which is read without the fallbacks of the other tables. -/
def projectRow : Read Fields :=
  match db.own projectId "projects" with
  | none => failRecovery "PM_V2_SCHEMA_MISSING" "canonical projects table is missing" (some "projects") none
  | some t =>
    if "project_id" ∈ t.columns then
      match t.rows with
      | [] => failRecovery "PROJECT_NOT_FOUND" "canonical project does not exist" (some "projects") (some projectId)
      | row :: _ => .ok row
    else .error .uncaught

def onlyCursor : List Fields → Read (Option Fields)
  | [] => .ok none
  | [row] => .ok (some row)
  | _ => failRecovery "AMBIGUOUS_SCOPE_CURSOR" "more than one canonical scope cursor exists" (some "scope_cursors") none

def isSecurityEvent (row : Fields) : Read Bool := do
  return decide (rt.runtime.upper (pyStr rt (← column row "event_type")) ∈ securityKinds)

def snapshot : Read CanonicalRecoverySnapshot := do
  let project ← projectRow db projectId
  let cursors ← selectRows db projectId "scope_cursors"
  let cursor ← onlyCursor cursors
  match cursor with
  | some row => discard (column row "run_id")
  | none => pure ()
  let runs ← selectRows db projectId "runs"
  let scopes ← selectRows db projectId "scopes"
  let projectPlans ← selectRows db projectId "project_plans"
  let taskStates ← selectRows db projectId "task_execution_states"
  let bindings ← selectRows db projectId "execution_bindings"
  let attempts ← selectRows db projectId "attempts"
  let checkpoints ← selectRows db projectId "checkpoints"
  let outbox ← selectRows db projectId "launch_outbox"
  let sendIntents ← selectRows db projectId "send_intents"
  let leases ← selectRows db projectId "leases"
  let stopFences ← selectRows db projectId "stop_fences"
  let sessionReentries ← selectRows db projectId "session_reentries"
  let ciWaits ← selectRows db projectId "ci_wait_records"
  let retries ← selectRows db projectId "transient_retry_records"
  let failures ← selectRows db projectId "failures"
  let attention ← selectRows db projectId "attention_items"
  let auditEvents ← selectRows db projectId "audit_events"
  validateRows rt sendIntents leases sessionReentries cursors bindings
  let securityEvents ← auditEvents.filterM (isSecurityEvent rt)
  let canonical : Canonical := {
    project := rowDict project ["project_id","revision","updated_at"]
    cursor := cursor.map fun row => rowDict row cursorColumns
    plans := sortRows rt ["plan_version","plan_digest"] projectPlans
    runs := sortRows rt ["run_id"] runs
    scopes := sortRows rt ["scope_id"] scopes
    taskStates := sortRows rt ["task_id"] taskStates
    bindings := sortRows rt ["task_id","generation","execution_binding_id"] bindings
    attempts := sortRows rt ["attempt_id"] attempts
    checkpoints := sortRows rt ["checkpoint_id"] checkpoints
    launchOutbox := sortRows rt ["launch_id"] outbox
    sendIntents := sortRows rt ["continuation_id","scope_epoch","intent_id"] (sendIntents.map (rowDict · sendIntentColumns))
    leases := sortRows rt ["resource_id","generation","lease_id"] (leases.map (rowDict · leaseColumns))
    stopFences := sortRows rt ["scope_epoch","fence_id"] stopFences
    sessionReentries :=
      sortRows rt ["continuation_id","scope_epoch","reentry_id"] (sessionReentries.map (rowDict · reentryColumns))
    ciWaits := sortRows rt ["task_id","wait_id"] (ciWaits.map (rowDict · ciWaitColumns))
    retries := sortRows rt ["task_id","generation","retry_request_id"] (retries.map (rowDict · retryColumns))
    failures := sortRows rt ["task_id","failure_id"] failures
    attention := sortRows rt ["attention_id"] attention
    securityEvents :=
      sortRows rt ["revision","event_id"]
        (securityEvents.map (rowDict · ["event_id","event_type","task_id","revision"])) }
  let revision ← intOrRaise rt (← column project "revision")
  pure ⟨projectId,revision,digestJson rt canonical.toJson,canonical⟩

end Bdb.Startup
