import Bdb.Bridge.Promotion

/-! # The promotion watcher

The watcher hands every result file it has not recorded yet to the promoter and records what came
of it. The record keeps the newest entries; it is written after every result.
-/
namespace Bdb.Bridge.Promotion

/-! ## The record -/

inductive SeenStatus where
  | ignoredExisting
  | answered (status : PromotionStatus) (sourceCommit : Oid)
  | blocked (errorCode detail : String)
deriving DecidableEq

structure SeenEntry where
  status : SeenStatus
  recordedAt : String
deriving DecidableEq

structure WatcherState where
  initialized : Bool
  seen : List (String × SeenEntry)
deriving DecidableEq

def maxStateEntries : ℕ := 5000

def trimState (state : WatcherState) : WatcherState :=
  if state.seen.length ≤ maxStateEntries then state
  else { state with
    seen := (state.seen.insertionSort fun a b => a.2.recordedAt ≤ b.2.recordedAt).drop (state.seen.length - maxStateEntries) }

/-- A written state is read with its keys in order. -/
def sortedKeys (state : WatcherState) : WatcherState := { state with seen := state.seen.insertionSort fun a b => a.1 ≤ b.1 }

def WatcherState.records (state : WatcherState) (key : String) : Bool := (state.seen.map (·.1)).contains key

def WatcherState.adding (state : WatcherState) (key : String) (entry : SeenEntry) : WatcherState :=
  { state with seen := state.seen ++ [(key,entry)] }

def setSeen (seen : List (String × SeenEntry)) (key : String) (entry : SeenEntry) : List (String × SeenEntry) :=
  if key ∈ seen.map (·.1) then seen.map fun e => if e.1 = key then (key,entry) else e else seen ++ [(key,entry)]

def entryOf (recordedAt : String) : Outcome PromotionOutcome → SeenEntry
  | .ok outcome => ⟨.answered outcome.status outcome.sourceCommit,recordedAt⟩
  | .error e => ⟨.blocked e.code (String.ofList (e.message.toList.take 500)),recordedAt⟩

/-! ## Requests -/

/-- The promoter's state, the result files by their keys, and the watcher's record. -/
structure WatcherWorld where
  promoter : PromoterWorld
  results : List (String × Option Fields)
  state : Option WatcherState
  temps : List ℕ

inductive WatcherRequest where
  | readState
  | listResults
  /-- The file that a process hands to the promoter; nothing, when it is no object. -/
  | readResult (pid : ℕ) (key : String)
  | promoter (q : PromoterRequest)
  | openTemp (pid : ℕ)
  | replaceState (pid : ℕ) (state : WatcherState)
  /-- Another result is stored. -/
  | addResult (key : String) (content : Option Fields)

namespace WatcherRequest

def Answer : WatcherRequest → Type
  | readState => WatcherState
  | listResults => List String
  | readResult _ _ => Option Fields
  | promoter q => q.Answer
  | openTemp _ => Outcome Unit
  | replaceState _ _ => Unit
  | addResult _ _ => Unit

/-- The keys of the result files, in the order of their paths. -/
def listed (w : WatcherWorld) : List String := (w.results.map (·.1)).insertionSort fun a b => pathParts a ≤ pathParts b

def perform (b : GitBehaviour) : (q : WatcherRequest) → WatcherWorld → WatcherWorld × q.Answer
  | readState, w => (w,w.state.getD ⟨false,[]⟩)
  | listResults, w => (w,listed w)
  | readResult _ key, w => (w,(w.results.lookup key).join)
  | promoter q, w => ({ w with promoter := (q.perform b w.promoter).1 },(q.perform b w.promoter).2)
  | openTemp pid, w =>
    if pid ∈ w.temps then (w,fail "FileExistsError" "File exists") else ({ w with temps := pid :: w.temps },.ok ())
  | replaceState pid state, w => ({ w with state := some state, temps := w.temps.erase pid },())
  | addResult key content, w =>
    (if key ∈ w.results.map (·.1) then w else { w with results := w.results ++ [(key,content)] },())

end WatcherRequest

/-! ## Scans -/

abbrev WatcherProgram := Script WatcherRequest WatcherRequest.Answer (Outcome (List PromotionOutcome))

/-- A process of the watcher, with the times it records. -/
structure WatcherProcess where
  pid : ℕ
  stamp : String
  recordedAt : String → String

def promoteResult (b : GitBehaviour) (cfg : PromoterConfig) (p : WatcherProcess) :
    Option Fields → Script WatcherRequest WatcherRequest.Answer (Outcome PromotionOutcome)
  | none => .done (fail "invalid_payload" "Promotion result must be an object")
  | some document => (promoteFile b cfg ⟨document,p.pid,p.stamp⟩).lift .promoter fun _ a => a

def writeState (pid : ℕ) (state : WatcherState) (next : WatcherProgram) : WatcherProgram :=
  .ask (.openTemp pid) fun
    | .error e => .done (.error e)
    | .ok _ => .ask (.replaceState pid (sortedKeys (trimState state))) fun _ => next

def scanResults (b : GitBehaviour) (cfg : PromoterConfig) (p : WatcherProcess) :
    List String → WatcherState → List PromotionOutcome → WatcherProgram
  | [], _, outcomes => .done (.ok outcomes)
  | key :: rest, state, outcomes =>
    if state.records key = true then scanResults b cfg p rest state outcomes
    else .ask (.readResult p.pid key) fun content =>
      (promoteResult b cfg p content).bind fun outcome =>
        let recorded := trimState (state.adding key (entryOf (p.recordedAt key) outcome))
        writeState p.pid recorded (scanResults b cfg p rest recorded (outcomes ++ outcome.toOption.toList))

def initializeExisting (p : WatcherProcess) (next : WatcherProgram) : WatcherProgram :=
  .ask .readState fun state =>
    if state.initialized = true then next
    else .ask .listResults fun keys =>
      writeState p.pid
        ⟨true,keys.foldl (fun seen key => setSeen seen key ⟨.ignoredExisting,p.recordedAt key⟩) state.seen⟩ next

def scanOnce (b : GitBehaviour) (cfg : PromoterConfig) (p : WatcherProcess) : WatcherProgram :=
  let scan (state : WatcherState) : WatcherProgram := .ask .listResults fun keys => scanResults b cfg p keys state []
  .ask .readState fun state =>
    if state.initialized = true then scan state else initializeExisting p (.ask .readState scan)

/-- What happens around the watcher: its calls, new results, and whatever others do to the checkout. -/
inductive WatcherCall where
  | initializing (p : WatcherProcess)
  | scan (p : WatcherProcess)
  | add (key : String) (content : Option Fields)
  | elsewhere (commits : AList fun _ : Oid => CommitNode) (branch : Option String) (source : WorkTree)
    (worktrees : String → Option Worktree) (sessions : String → Option Oid)

def WatcherCall.program (b : GitBehaviour) (cfg : PromoterConfig) : WatcherCall → WatcherProgram
  | .initializing p => initializeExisting p (.done (.ok []))
  | .scan p => scanOnce b cfg p
  | .add key content => .ask (.addResult key content) fun _ => .done (.ok [])
  | .elsewhere commits branch source worktrees sessions =>
    .ask (.promoter (.elsewhere commits branch source worktrees sessions)) fun _ => .done (.ok [])

end Bdb.Bridge.Promotion
