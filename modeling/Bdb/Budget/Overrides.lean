import Bdb.Base.PyText
import Bdb.Base.Table
import Bdb.Budget.Spending

/-! # Audited overrides on one connection

A connection has what is committed and what it has written since. An override writes the
ledger before it writes its audit row, and an error in between leaves the first write for
whichever operation commits next. Overrides that can be recorded as they are applied keep
every change of the counters audited.
-/
namespace Bdb.Budget

open Step

/-! ## The tables -/

/-- A value as its column shows it. A float is its text, with its integer part and whether
it is whole unless it is not a number or infinite. -/
inductive Recorded where
  | json (j : Json)
  | float (text : String) (value : Option (Int × Bool))

structure BudgetOverride where
  overrideId : String
  taskId : String
  actorClass : String
  affectedBudget : String
  previousValue : Json
  newValue : Recorded
  reason : String
  createdAt : String

structure Books where
  ledgers : Table LedgerRow (·.taskId)
  overrides : Table BudgetOverride (·.overrideId)

/-- What is committed, and what the connection itself sees. -/
structure Connection where
  committed : Books
  working : Books

namespace Connection

def commit (s : Connection) : Connection := ⟨s.working,s.working⟩

def writeLedger (s : Connection) (row : LedgerRow) : Connection :=
  { s with working := { s.working with ledgers := s.working.ledgers.put row } }

def getOrCreateLedger (s : Connection) (c : Creation) : Connection × Outcome LedgerRow :=
  match s.working.ledgers.get c.taskId with
  | some row => (s,.ok row)
  | none =>
    if s.working.ledgers.rows.any (fun r => r.ledgerId = c.ledgerId) then
      (s,fail "IntegrityError" "UNIQUE constraint failed: budget_ledgers.ledger_id")
    else
      match s.working.ledgers.insert c.row with
      | some ledgers => (commit { s with working := { s.working with ledgers := ledgers } },.ok c.row)
      | none => (s,fail "IntegrityError" "UNIQUE constraint failed: budget_ledgers.project_id, budget_ledgers.task_id")

end Connection

/-! ## Overrides -/

/-- A new value as the caller gives it: a dictionary, another value with a JSON form, a
float, a dictionary whose keys cannot be sorted, or a value without a JSON form. The last
may still convert to an integer. -/
inductive NewValue where
  | dict (d : Dict Json)
  | plain (j : Json) (h : j.isObject = false)
  | float (text : String) (value : Option (Int × Bool))
  | mixedKeys (d : Dict Json)
  | unserialisable (isDict : Bool) (asInt : Option Int)

def dictJson (d : Dict Json) : Json := d.toJson id

variable (intOfText : String → Option Int)

/-- Conversion to an integer; texts are read by the runtime. -/
def NewValue.toInt : NewValue → Outcome Int
  | .plain (.int n) _ => .ok n
  | .plain (.bool b) _ => .ok (if b then 1 else 0)
  | .plain (.str s) _ => need (intOfText s) "ValueError" ("invalid literal for int() with base 10: '" ++ s ++ "'")
  | .float text value => need (value.map (·.1)) "ValueError" ("cannot convert float " ++ text ++ " to integer")
  | .unserialisable _ (some n) => .ok n
  | _ => fail "TypeError" "int() argument must be a string, a bytes-like object or a real number"

def NewValue.dumps : NewValue → Outcome Recorded
  | .dict d => .ok (.json (dictJson d))
  | .plain j _ => .ok (.json j)
  | .float text value => .ok (.float text value)
  | .mixedKeys d => .ok (.json (dictJson d))
  | .unserialisable _ _ => fail "TypeError" "Object is not JSON serializable"

/-- The counts that replace the stored ones; whatever is not a dictionary clears them. -/
def NewValue.counts : NewValue → Outcome (Dict Json)
  | .dict d => .ok d
  | .mixedKeys _ => fail "TypeError" "'<' not supported between these instances"
  | .unserialisable true _ => fail "TypeError" "Object is not JSON serializable"
  | _ => .ok ∅

structure OverrideArgs where
  actorClass : Option String
  affectedBudget : Option String
  newValue : NewValue
  reason : Option String
  now : Outcome String

/-- A text that was given and is more than blanks. -/
def presentText (o : Option String) (code message : String) : Outcome String := do
  let text ← need o code message
  require (strip text ≠ "") code message
  pure text

def OverrideArgs.texts (a : OverrideArgs) : Outcome (String × String × String) := do
  let actor ← presentText a.actorClass "ValueError" "actor_class is required and cannot be empty"
  let budget ← need a.affectedBudget "ValueError" "affected_budget is required"
  require (budget ≠ "") "ValueError" "affected_budget is required"
  let reason ← presentText a.reason "ValueError" "reason is required and cannot be empty"
  pure (actor,budget,reason)

def columnInt (n : Int) : Outcome Int := do
  require (-2 ^ 63 ≤ n ∧ n < 2 ^ 63) "OverflowError" "Python int too large to convert to SQLite INTEGER"
  pure n

/-- What an override of all budgets reports. -/
def allBudgets (transient total : Int) (counts : Dict Json) (status : String) : Json :=
  .obj [("transient_retry_count",.int transient),("total_repair_count",.int total),
    ("fingerprint_counts",dictJson counts),("exhausted_status",.str status)]

def overrideUpdate (row : LedgerRow) (budget : String) (value : NewValue) (now : String) :
    Outcome (LedgerRow × Json) :=
  if budget = "transient_retry_count" then do
    let n ← value.toInt intOfText
    let n ← columnInt n
    pure ({ row with transientRetryCount := n, updatedAt := now },.int row.transientRetryCount)
  else if budget = "total_repair_count" then do
    let n ← value.toInt intOfText
    let n ← columnInt n
    pure ({ row with totalRepairCount := n, updatedAt := now },.int row.totalRepairCount)
  else if budget = "same_fingerprint_count" then do
    let counts ← value.counts
    pure ({ row with fingerprintCounts := counts, updatedAt := now },dictJson row.fingerprintCounts)
  else if budget = "all" then
    pure
      ({ row with transientRetryCount := 0, totalRepairCount := 0, fingerprintCounts := ∅,
                  exhaustedStatus := "ACTIVE", updatedAt := now },
        allBudgets row.transientRetryCount row.totalRepairCount row.fingerprintCounts row.exhaustedStatus)
  else fail "ValueError" ("Unknown affected_budget: " ++ budget)

variable (rt : Runtime) (projectId : String)

def overrideIdOf (taskId now budget : String) : String :=
  "ovr-" ++ String.ofList ((rt.sha256 (projectId ++ ":" ++ taskId ++ ":" ++ now ++ ":" ++ budget).toList).toList.take 16)

/-- The ledger is written first. The value is then turned into JSON and the audit row is
inserted; an error in either leaves the ledger write behind. -/
def Connection.recordManualOverride (s : Connection) (c : Creation) (a : OverrideArgs) : Connection × Outcome Unit :=
  match a.texts with
  | .error f => (s,.error f)
  | .ok (actor,budget,reason) =>
    match s.getOrCreateLedger c with
    | (s,.error f) => (s,.error f)
    | (s,.ok row) =>
      match (do let now ← a.now; let p ← overrideUpdate intOfText row budget a.newValue now; pure (now,p)) with
      | .error f => (s,.error f)
      | .ok (now,updated,previous) =>
        let s := s.writeLedger updated
        match a.newValue.dumps with
        | .error f => (s,.error f)
        | .ok value =>
          match s.working.overrides.insert
            ⟨overrideIdOf rt projectId c.taskId now budget,c.taskId,actor,budget,previous,value,reason,now⟩ with
          | none => (s,fail "IntegrityError" "UNIQUE constraint failed: budget_overrides.override_id")
          | some overrides =>
            (Connection.commit { s with working := { s.working with overrides := overrides } },.ok ())

/-! ## The other operations -/

namespace Connection

variable (policy : FailureBudgetPolicy)

def onLedger (s : Connection) (c : Creation) (f : Connection → LedgerRow → Connection × Outcome Unit) :
    Connection × Outcome Unit :=
  match s.getOrCreateLedger c with
  | (s,.error e) => (s,.error e)
  | (s,.ok row) => f s row

/-- A computed update is written and committed; a refusal or an error writes nothing. -/
def settle {α : Type} (s : Connection) (body : Step BudgetEvaluationResult α) (apply : α → LedgerRow) :
    Connection × Outcome Unit :=
  match body with
  | .ok u => ((s.writeLedger (apply u)).commit,.ok ())
  | .error (.answer _) => (s,.ok ())
  | .error (.raised f) => (s,.error f)

def observe (s : Connection) (row : LedgerRow) (fingerprint : String) (now : Outcome String) : Connection × Outcome Unit :=
  match now with
  | .error f => (s,.error f)
  | .ok text =>
    match (observation row fingerprint text).1 with
    | some u => ((s.writeLedger (u.apply row)).commit,.ok ())
    | none => (s,.ok ())

def call (s : Connection) : LedgerCall → Connection × Outcome Unit
  | .evaluateFailure c => s.onLedger c fun s _ => (s,.ok ())
  | .recordFailureObservation c fingerprint now => s.onLedger c fun s row => s.observe row fingerprint now
  | .consumeTransientRetry c now => s.onLedger c fun s row =>
      s.settle (transientUpdate policy row now) (fun u => u.apply row)
  | .consumeRepairAttempt c fingerprint now => s.onLedger c fun s row =>
      s.settle (repairUpdate policy row fingerprint now) (fun u => u.apply row)

end Connection

inductive LedgerOperation where
  | call (k : LedgerCall)
  | recordManualOverride (c : Creation) (a : OverrideArgs)

def Connection.perform (policy : FailureBudgetPolicy) (s : Connection) : LedgerOperation → Connection × Outcome Unit
  | .call k => s.call policy k
  | .recordManualOverride c a => s.recordManualOverride intOfText rt projectId c a

end Bdb.Budget
