import Bdb.Base.Stamps
import Bdb.Bridge.Paths
import Bdb.Bridge.States

/-! # Envelopes of manifests and commands

A session is published as a manifest, its commands as numbered documents. Paths, identifiers,
timestamps and fields of a document are checked before the journal accepts it.
-/
namespace Bdb.Bridge

/-- Python's own text primitives and the reading of JSON; a text that is no JSON fails with
the code `JSONDecodeError`. -/
structure BridgeRuntime where
  runtime : Runtime
  loads : String → Outcome Json

def schemaVersion : String := "1.1"

variable (rt : BridgeRuntime)

/-! ## Timestamps -/

def parseStrictUtcTimestamp (value field : String) : Outcome DateTime :=
  if value.toList.getLast? = some 'Z' then
    match rt.runtime.fromIsoFormat (String.ofList value.toList.dropLast ++ "+00:00") with
    | some (.utc text) => need (readUtc text) "invalid_payload" (field ++ " must be a valid UTC ISO-8601 timestamp")
    | some .naive => fail "invalid_payload" (field ++ " must include UTC timezone")
    | none => fail "invalid_payload" (field ++ " must be a valid UTC ISO-8601 timestamp")
  else fail "invalid_payload" (field ++ " must be a strict UTC ISO-8601 timestamp ending with Z")

def isExpired (expiresAt : String) (now : DateTime) : Outcome Bool := do
  let expiry ← parseStrictUtcTimestamp rt expiresAt "expires_at"
  pure (decide (expiry ≤ now))

/-! ## Identifiers and paths -/

def isHex (c : Char) : Bool := c.isDigit || "abcdefABCDEF".toList.contains c

/-- What a character of a UUID may be at a position. -/
def uuidChar (i : ℕ) (c : Char) : Bool :=
  if i = 8 ∨ i = 13 ∨ i = 18 ∨ i = 23 then c = '-'
  else if i = 14 then "12345".toList.contains c
  else if i = 19 then "89abAB".toList.contains c
  else isHex c

def ulidChar (c : Char) : Bool := c.isDigit || "ABCDEFGHJKMNPQRSTVWXYZ".toList.contains c

def isSessionId (value : String) : Bool :=
  let cs := value.toList
  (cs.length == 36 && cs.zipIdx.all fun p => uuidChar p.2 p.1) || (cs.length == 26 && cs.all ulidChar)

def validateSessionId (value : String) : Outcome Unit :=
  require (isSessionId value = true) "invalid_session_id" "session_id must be UUID or ULID"

/-- At least six digits. -/
def sequenceText (sequence : ℕ) : String :=
  if sequence < 1000000 then String.ofList (padded 6 sequence) else sequence.repr

def commandIdFor (sessionId : String) (sequence : ℕ) : String := sessionId ++ ":" ++ sequenceText sequence

def pathParts (path : String) : List (List Char) := path.toList.splitOn '/'

def parseCommandPath (path : String) : Outcome (String × ℕ) := do
  let _ ← validateRepoRelativePath path
  match pathParts path with
  | [sessions, session, commands, file] =>
    let digits := file.take 6
    if sessions = "sessions".toList ∧ session ≠ [] ∧ commands = "commands".toList ∧ file.length = 11 ∧
        digits.all Char.isDigit ∧ file.drop 6 = ".json".toList then do
      validateSessionId (String.ofList session)
      pure (String.ofList session,digitsValue digits)
    else fail "unsafe_path" ("Not a command path: " ++ path)
  | _ => fail "unsafe_path" ("Not a command path: " ++ path)

def parseManifestPath (path : String) : Outcome String := do
  let _ ← validateRepoRelativePath path
  match pathParts path with
  | [sessions, session, file] =>
    if sessions = "sessions".toList ∧ session ≠ [] ∧ file = "manifest.json".toList then do
      validateSessionId (String.ofList session)
      pure (String.ofList session)
    else fail "unsafe_path" ("Not a manifest path: " ++ path)
  | _ => fail "unsafe_path" ("Not a manifest path: " ++ path)

def validateSha40 (name value : String) : Outcome Unit :=
  require (value.toList.length = 40 ∧ value.toList.all isHex = true) "invalid_payload"
    (name ++ " must be a 40-character hex string, got " ++ rt.runtime.repr (.str value))

def validateSha64 (name value : String) : Outcome Unit :=
  let actual := if "sha256:".toList.isPrefixOf value.toList then value.toList.drop 7 else value.toList
  require (actual.length = 64 ∧ actual.all isHex = true) "invalid_payload"
    (name ++ " must be a 64-character hex string (optionally prefixed with sha256:), got " ++ rt.runtime.repr (.str value))

def validateBaseSha (value : String) : Outcome String := do
  require (value.toList.length = 40 ∧ value.toList.all isHex = true) "invalid_base_sha"
    "base_sha must be a 40-character hex SHA"
  pure (rt.runtime.lower value)

/-! ## Fields -/

def requireString (fs : Fields) (key : String) : Outcome String :=
  match fs.get key with
  | .str s => if s = "" then fail "invalid_payload" (key ++ " must be a string") else .ok s
  | _ => fail "invalid_payload" (key ++ " must be a string")

/-- A truth value counts as an integer for the language. -/
def requireInt (fs : Fields) (key : String) : Outcome Json :=
  match fs.get key with
  | .int n => .ok (.int n)
  | .bool b => .ok (.bool b)
  | _ => fail "invalid_payload" (key ++ " must be an integer")

def requireTimestamp (fs : Fields) (key : String) : Outcome DateTime := do
  let text ← requireString fs key
  parseStrictUtcTimestamp rt text key

def readObject (content kind sourcePath invalid : String) : Outcome Fields :=
  match rt.loads content with
  | .ok (.obj fs) => .ok fs
  | .ok _ => fail invalid (kind ++ " must be a JSON object at " ++ sourcePath)
  | .error e => .error e

/-- A text that is no JSON is refused; what else the reader raises is raised. -/
def decodeObject (content kind label sourcePath invalid : String) : Outcome Fields :=
  match readObject rt content kind sourcePath invalid with
  | .error e =>
    if e.code = "JSONDecodeError" then fail "invalid_json" ("Invalid " ++ label ++ " JSON at " ++ sourcePath ++ ": " ++ e.message)
    else .error e
  | .ok fs => .ok fs

/-! ## Repair correlation -/

def repairCorrelationSchema : String := "bdb-repair-correlation-v1"

def allowedKeys : List String := ["schema","correlation_id","role","predecessor_session_id"]

structure RepairCorrelation where
  correlationId : String
  role : String
  predecessorSessionId : Option String

def RepairCorrelation.asDict (c : RepairCorrelation) : Fields :=
  [("schema",.str repairCorrelationSchema),("correlation_id",.str c.correlationId),("role",.str c.role),
    ("predecessor_session_id",(c.predecessorSessionId.map Json.str).getD .null)]

def parsePredecessor (value : Fields) (sessionId field role : String) : Outcome (Option String) :=
  if role = "initial" then do
    require (value.get "predecessor_session_id" = .null) "invalid_payload"
      (field ++ ".predecessor_session_id must be null for initial role")
    pure none
  else
    match value.get "predecessor_session_id" with
    | .str predecessor => do
      validateSessionId predecessor
      require (predecessor ≠ sessionId) "invalid_payload"
        (field ++ ".predecessor_session_id cannot equal the current session_id")
      pure (some predecessor)
    | _ => fail "invalid_payload" (field ++ ".predecessor_session_id is required for repair role")

def parseRepairCorrelation (value : Json) (sessionId field : String) : Outcome (Option RepairCorrelation) :=
  match value with
  | .null => .ok none
  | .obj fs => do
    let unexpected := ((fs.map (·.1)).filter (· ∉ allowedKeys)).insertionSort (· ≤ ·)
    require (unexpected = []) "invalid_payload" (field ++ " contains unsupported keys: " ++ ", ".intercalate unexpected)
    require (Fields.get fs "schema" = .str repairCorrelationSchema) "unsupported_schema"
      (field ++ ".schema must be " ++ repairCorrelationSchema)
    match Fields.get fs "correlation_id" with
    | .str correlationId => do
      validateSessionId correlationId
      match Fields.get fs "role" with
      | .str role => do
        require (role = "initial" ∨ role = "repair") "invalid_payload" (field ++ ".role must be one of: initial, repair")
        let predecessor ← parsePredecessor fs sessionId field role
        pure (some ⟨correlationId,role,predecessor⟩)
      | _ => fail "invalid_payload" (field ++ ".role must be one of: initial, repair")
    | _ => fail "invalid_payload" (field ++ ".correlation_id must be a string")
  | _ => fail "invalid_payload" (field ++ " must be an object or null")

/-! ## Manifests and commands -/

def setField (fs : Fields) (key : String) (value : Json) : Fields :=
  if (fs.lookup key).isSome then fs.map fun p => if p.1 = key then (key,value) else p else fs ++ [(key,value)]

def parseManifestEnvelope (content sourcePath : String) : Outcome Fields := do
  let pathSessionId ← parseManifestPath sourcePath
  let parsed ← decodeObject rt content "Manifest" "manifest" sourcePath "invalid_manifest"
  require (parsed.get "schema_version" = .str schemaVersion) "unsupported_schema" ("Unsupported manifest schema at " ++ sourcePath)
  let sessionId ← requireString parsed "session_id"
  validateSessionId sessionId
  require (sessionId = pathSessionId) "session_mismatch" ("Manifest session_id does not match path " ++ sourcePath)
  let _ ← requireString parsed "repository_id"
  let baseSha ← requireString parsed "base_sha"
  let _ ← validateBaseSha rt baseSha
  let createdAt ← requireTimestamp rt parsed "created_at"
  let expiresAt ← requireTimestamp rt parsed "expires_at"
  require (createdAt < expiresAt) "invalid_manifest" "Manifest expires_at must be after created_at"
  let correlation ← parseRepairCorrelation (parsed.get "repair_correlation") sessionId "manifest.repair_correlation"
  match correlation with
  | some c => pure (setField parsed "repair_correlation" (.obj c.asDict))
  | none => pure parsed

/-- An identifier that may be left out. -/
def validateOptionalId (parsed : Fields) (key : String) : Outcome Unit :=
  match parsed.lookup key with
  | none => .ok ()
  | some (.str s) => require (isSessionId s = true) "invalid_payload" ("Command " ++ key ++ " must be UUID or ULID")
  | some _ => fail "invalid_payload" ("Command " ++ key ++ " must be a string")

def validateSequence (parsed : Fields) (pathSequence : ℕ) (sourcePath : String) : Outcome Unit := do
  match ← requireInt parsed "sequence" with
  | .int n => do
    require (0 < n) "invalid_payload" "Command sequence must be a positive integer"
    require (n = pathSequence) "sequence_mismatch" ("Command sequence does not match path " ++ sourcePath)
  | _ => fail "invalid_payload" "Command sequence must be a positive integer"

def validateExpectedRevision (parsed : Fields) : Outcome Unit := do
  match ← requireInt parsed "expected_revision" with
  | .int n => require (0 ≤ n) "invalid_revision" "Command expected_revision must be a non-negative integer"
  | _ => fail "invalid_revision" "Command expected_revision must be a non-negative integer"

def validateExpectedStateHash (parsed : Fields) : Outcome Unit :=
  match parsed.get "expected_state_hash" with
  | .null => .ok ()
  | .str s => require (s ≠ "") "invalid_payload" "Command expected_state_hash must be null or a non-empty string"
  | _ => fail "invalid_payload" "Command expected_state_hash must be null or a non-empty string"

def validatePayload (parsed : Fields) : Outcome Unit :=
  match parsed.get "payload" with
  | .obj _ => .ok ()
  | _ => fail "invalid_payload" "Command payload must be a JSON object"

def parseCommandEnvelope (content sourcePath : String) : Outcome Fields := do
  let (pathSessionId, pathSequence) ← parseCommandPath sourcePath
  let parsed ← decodeObject rt content "Command" "command" sourcePath "invalid_payload"
  require (parsed.get "schema_version" = .str schemaVersion) "unsupported_schema" ("Unsupported command schema at " ++ sourcePath)
  let sessionId ← requireString parsed "session_id"
  validateSessionId sessionId
  require (sessionId = pathSessionId) "session_mismatch" ("Command session_id does not match path " ++ sourcePath)
  validateOptionalId parsed "task_id"
  validateOptionalId parsed "attempt_id"
  validateOptionalId parsed "client_submission_nonce"
  validateSequence parsed pathSequence sourcePath
  let commandId ← requireString parsed "command_id"
  require (commandId = commandIdFor sessionId pathSequence) "command_id_mismatch"
    ("Command command_id does not match session and sequence for " ++ sourcePath)
  let _ ← requireString parsed "operation"
  validatePayload parsed
  validateExpectedRevision parsed
  validateExpectedStateHash parsed
  let createdAt ← requireTimestamp rt parsed "created_at"
  let expiresAt ← requireTimestamp rt parsed "expires_at"
  require (createdAt < expiresAt) "invalid_payload" "Command expires_at must be after created_at"
  pure parsed

def canonicalJson (fs : Fields) : String := String.ofList (Json.text (Json.canon (.obj fs)))

def documentExpiry (content : String) : Outcome DateTime := do
  match ← rt.loads content with
  | .obj fs => requireTimestamp rt fs "expires_at"
  | _ => fail "invalid_payload" "Command must be a JSON object"

end Bdb.Bridge
