import Bdb.Continuation.SendSteps
import Bdb.Continuation.StopAvailability

/-! # The order of the audit events

The audit events of a project should carry strictly increasing revisions. Mutations of the
store and the writes of leases and intents take the greatest revision plus one; STOP and
resume take the revision of the cursor plus one. The order is kept exactly when the cursor
has kept pace with the events at every STOP and every resume that is recorded.
-/
namespace Bdb.Continuation

variable {rt : Runtime} {db db' : Database} {c : ScopeCursor}

/-! ## Mutations of the store -/

/-- The calls of the store that write an audit event, with what the event says. -/
inductive StoreCall where
  | appendEvent (eventType humanSummary : String) (taskId : Option String)
  | addDecision (title : String)
  | addInbox (title : String)
  | updateInbox (inboxId status : String)
  | addRisk (title : String)
  | resolveRisk (riskId status : String)
  | addDebt (title : String)
  | resolveDebt (debtId status : String)
  | addAttention (title : String)
  | resolveAttention (attentionId : String)
  | createCheckpoint (label : String)
  | ensureInitialPlan
  | applyUpdate (version : ℕ)

namespace StoreCall

def eventType : StoreCall → String
  | .appendEvent eventType _ _ => eventType
  | .addDecision _ => "DECISION_ADDED"
  | .addInbox _ => "INBOX_ITEM_ADDED"
  | .updateInbox _ status => if status = "resolved" then "INBOX_ITEM_RESOLVED" else "INBOX_ITEM_UPDATED"
  | .addRisk _ => "RISK_ADDED"
  | .resolveRisk _ _ => "RISK_RESOLVED"
  | .addDebt _ => "TECH_DEBT_ADDED"
  | .resolveDebt _ _ => "TECH_DEBT_RESOLVED"
  | .addAttention _ => "ATTENTION_ADDED"
  | .resolveAttention _ => "ATTENTION_RESOLVED"
  | .createCheckpoint _ => "CHECKPOINT_CREATED"
  | .ensureInitialPlan => "PLAN_IMPORTED"
  | .applyUpdate _ => "PLAN_UPDATED"

def humanSummary : StoreCall → String
  | .appendEvent _ humanSummary _ => humanSummary
  | .addDecision title => "Decision added: " ++ title
  | .addInbox title => "Inbox: " ++ title
  | .updateInbox inboxId status => "Inbox " ++ inboxId ++ ": " ++ status
  | .addRisk title => "Risk: " ++ title
  | .resolveRisk riskId status => "Risk " ++ riskId ++ ": " ++ status
  | .addDebt title => "Debt: " ++ title
  | .resolveDebt debtId status => "Debt " ++ debtId ++ ": " ++ status
  | .addAttention title => "Attention: " ++ title
  | .resolveAttention attentionId => "Attention " ++ attentionId ++ " resolved"
  | .createCheckpoint label => "Checkpoint: " ++ label
  | .ensureInitialPlan => "Zaimportowano plan v1"
  | .applyUpdate version => "Zaktualizowano plan do v" ++ naturalText version

def taskId : StoreCall → Option String
  | .appendEvent _ _ taskId => taskId
  | _ => none

end StoreCall

/-- A mutation of the store. Its own rows are in tables that nothing else here reads, so
they are given by what writing them answers. -/
structure StoreMutation where
  call : StoreCall
  rows : Outcome Unit
  now : DateTime

def sixDigits (n : ℕ) : String :=
  let digits := naturalText n
  String.ofList (List.replicate (6 - digits.length) '0') ++ digits

namespace Database

def storeEvent (db : Database) (m : StoreMutation) : AuditEvent where
  eventId := .scope (db.projectId ++ ":e" ++ sixDigits db.nextEventRevision)
  revision := db.nextEventRevision
  eventType := m.call.eventType
  humanSummary := m.call.humanSummary
  taskId := m.call.taskId
  payload := []
  timestamp := m.now

def writeTransaction (db : Database) (operation : Database → Outcome Database) : Outcome Database := do
  require (db.revision.isSome = true) "project_not_found" ("project " ++ db.projectId ++ " does not exist")
  let done ← operation db
  done.bumpProjectRevision

def mutate (db : Database) (m : StoreMutation) : Database × Outcome Unit :=
  db.commit do
    let done ← db.writeTransaction fun db => do
      m.rows
      db.appendEvent (db.storeEvent m)
    pure (done,())

end Database

/-! ## Runs -/

inductive AuditRequest (rt : Runtime) where
  | send (q : SendRequest rt)
  | store (m : StoreMutation)

def AuditRequest.next (db : Database) : AuditRequest rt → Database
  | .send q => (q.perform db).1
  | .store m => (db.mutate m).1

def AuditOrdered (db : Database) : Prop := db.audit.rows.Pairwise (fun e e' => e.revision < e'.revision)

/-- The greatest revision of an event. -/
def Database.lastRevision (db : Database) : ℕ := (db.audit.rows.map (·.revision)).foldl max 0

/-- A resume is recorded: it is of the current epoch, and the drawn identity is new. -/
structure ResumeRecords (db : Database) (c : ScopeCursor) (q : Database.ResumeRequest) : Prop where
  epoch : ∀ e ∈ q.expectedPriorEpoch, e = c.scopeEpoch
  eventId : db.audit.get (.scope ("ev-resume-" ++ q.eventSuffix)) = none

def InPace (db : Database) : AuditRequest rt → Prop
  | .send (.stop q) => ∀ c, db.cursor = some c → StopRecords db c q → db.lastRevision ≤ c.stateRevision
  | .send (.resume q) => ∀ c, db.cursor = some c → ResumeRecords db c q → db.lastRevision ≤ c.stateRevision
  | _ => True

/-! ## Appending an event -/

variable {n : ℕ} {e : AuditEvent} {q : AuditRequest rt}

theorem foldl_max_le {ns : List ℕ} {a : ℕ} : ns.foldl max a ≤ n ↔ a ≤ n ∧ ∀ m ∈ ns, m ≤ n := by
  induction ns generalizing a with
  | nil => simp
  | cons m ns ih =>
    rw [List.foldl_cons,ih]
    simp only [List.mem_cons,forall_eq_or_imp,max_le_iff,and_assoc]

theorem lastRevision_le : db.lastRevision ≤ n ↔ ∀ e ∈ db.audit.rows, e.revision ≤ n := by
  unfold Database.lastRevision
  rw [foldl_max_le]
  simp

theorem ordered_append (hinsert : db.audit.insert e = some db'.audit)
    (hrevision : e.revision = n + 1) : AuditOrdered db' ↔ AuditOrdered db ∧ db.lastRevision ≤ n := by
  unfold AuditOrdered
  rw [(Table.insert_some hinsert).2,List.pairwise_append,lastRevision_le]
  simp only [List.pairwise_singleton,List.mem_singleton,forall_eq,true_and,hrevision,Nat.lt_succ_iff]

/-! ## What a request appends -/

/-- What a request does to the audit events: nothing, and then it is in pace, or it appends
one event, whose revision is above every other exactly when the request is in pace. -/
inductive Appends (db : Database) (q : AuditRequest rt) (db' : Database) : Prop
  | nothing (haudit : db'.audit = db.audit) (hpace : InPace db q) : Appends db q db'
  | event {e : AuditEvent} {n : ℕ} (hinsert : db.audit.insert e = some db'.audit)
      (hrevision : e.revision = n + 1) (hpace : db.lastRevision ≤ n ↔ InPace db q) : Appends db q db'

theorem Appends.next (hinsert : db.audit.insert e = some db'.audit)
    (hrevision : e.revision = db.nextEventRevision) (hpace : InPace db q) : Appends db q db' :=
  .event hinsert hrevision ⟨fun _ => hpace,fun _ => le_refl _⟩

theorem stop_unrecorded {q : StopRequest} (h : ∀ c, db.cursor = some c → ¬ StopRecords db c q) :
    (db.stop q).1 = db := by
  rcases hstop : db.stop q with ⟨done,_ | ⟨f,replay⟩⟩
  · unfold Database.stop Database.commit at hstop
    split at hstop
    · cases hstop
    · cases hstop
      rfl
  · have hstop' := hstop
    unfold Database.stop Database.commit at hstop
    split at hstop
    · rename_i hok
      obtain ⟨c,hc,_⟩ := of_need hok
      have hcursor := hc
      rcases stop_ok hcursor hstop' with ⟨rfl,-⟩ | hrecords
      · rfl
      · exact absurd hrecords (h c hcursor)
    · cases hstop

theorem stop_appends (q : StopRequest) (db : Database) :
    Appends db (.send (.stop q) : AuditRequest rt) (db.stop q).1 := by
  by_cases h : ∃ c, db.cursor = some c ∧ StopRecords db c q
  · obtain ⟨c,hcursor,hrecords⟩ := h
    obtain ⟨fences,audit,-,haudit,hstop⟩ := stop_records hcursor hrecords
    rw [hstop]
    refine .event (n := c.stateRevision) haudit rfl ⟨?_,fun hpace => hpace c hcursor hrecords⟩
    intro hle c' hc' _
    obtain rfl := some_unique hcursor hc'
    exact hle
  · push Not at h
    refine .nothing ?_ (fun c hc hrecords => absurd hrecords (h c hc))
    rw [stop_unrecorded h]

theorem resume_unrecorded {q : Database.ResumeRequest} (h : ∀ c, db.cursor = some c → ¬ ResumeRecords db c q) :
    (db.resume q).1 = db := by
  unfold Database.resume Database.commit
  split
  · rename_i db' a hok
    obtain ⟨c,hc,hok⟩ := of_need hok
    obtain ⟨hepoch,hok⟩ := of_require hok
    dsimp only at hok
    obtain ⟨done,hdone,_⟩ := bind_ok.mp hok
    obtain ⟨audit,haudit,_⟩ := Database.appendEvent_ok hdone
    exact absurd ⟨hepoch,(Table.insert_some haudit).1⟩ (h c hc)
  · rfl

theorem resume_records {q : Database.ResumeRequest} (hcursor : db.cursor = some c) (h : ResumeRecords db c q) :
    ∃ runId, db.audit.insert (Database.resumeEvent c runId q) = some (db.resume q).1.audit := by
  obtain ⟨audit,haudit⟩ := Table.insert_of_new (t := db.audit)
    (a := Database.resumeEvent c (nonEmptyOr (q.newRunId.getD "") c.runId) q) h.eventId
  refine ⟨_,haudit.trans (congrArg some ?_)⟩
  unfold Database.resume Database.executeResume
  rw [hcursor]
  simp only [need,bind,Except.bind,require,if_pos h.epoch,Database.appendEvent,haudit]
  rfl

theorem resume_appends (q : Database.ResumeRequest) (db : Database) :
    Appends db (.send (.resume q) : AuditRequest rt) (db.resume q).1 := by
  by_cases h : ∃ c, db.cursor = some c ∧ ResumeRecords db c q
  · obtain ⟨c,hcursor,hrecords⟩ := h
    obtain ⟨runId,haudit⟩ := resume_records hcursor hrecords
    refine .event (n := c.stateRevision) haudit rfl ⟨?_,fun hpace => hpace c hcursor hrecords⟩
    intro hle c' hc' _
    obtain rfl := some_unique hcursor hc'
    exact hle
  · push Not at h
    refine .nothing ?_ (fun c hc hrecords => absurd hrecords (h c hc))
    rw [resume_unrecorded h]

theorem mutate_appends (m : StoreMutation) (db : Database) :
    Appends db (.store m : AuditRequest rt) (db.mutate m).1 := by
  unfold Database.mutate Database.commit
  split
  · rename_i db' a hok
    obtain ⟨done,hdone,hok⟩ := bind_ok.mp hok
    obtain ⟨_,hdone⟩ := rest_ok hdone
    obtain ⟨written,hwritten,hbump⟩ := bind_ok.mp hdone
    obtain ⟨_,_,hevent⟩ := bind_ok.mp hwritten
    obtain ⟨audit,haudit,rfl⟩ := Database.appendEvent_ok hevent
    obtain ⟨n,_,rfl⟩ := Database.bumpProjectRevision_ok hbump
    cases pure_ok.mp hok
    exact .next haudit rfl trivial
  · exact .nothing rfl trivial

theorem effect_appends {q : SendRequest rt} (hpace : InPace db (.send q)) (hstop : ∀ s, q ≠ .stop s)
    (hresume : ∀ s, q ≠ .resume s) (h : RequestEffect db q db') : Appends db (.send q) db' := by
  cases h with
  | nothing => exact .nothing rfl hpace
  | wrote hrow hchange hwritten =>
    obtain ⟨n,e,audit,-,⟨-,hrevision⟩,hinsert,rfl⟩ := hwritten.logged
    exact .next hinsert hrevision hpace
  | created hq hprepared hn he hinsert haudit => exact .next haudit he.2 hpace
  | leased hq hopened hchange hwritten =>
    obtain ⟨e,audit,⟨-,hrevision⟩,hinsert,rfl⟩ := hwritten.logged
    cases hopened with
    | stored h => exact .next hinsert hrevision hpace
    | created hnone hnew => exact .next hinsert hrevision hpace
  | stopped hq => exact absurd hq (hstop _)
  | resumed hq => exact absurd hq (hresume _)
  | elsewhere hq => exact .nothing rfl hpace

theorem send_appends (q : SendRequest rt) (db : Database) : Appends db (.send q) (q.perform db).1 := by
  have heffect := request_effect q db
  cases q with
  | stop s => exact stop_appends s db
  | resume s => exact resume_appends s db
  | _ => exact effect_appends trivial nofun nofun heffect

theorem next_appends (db : Database) (q : AuditRequest rt) : Appends db q (q.next db) := by
  cases q with
  | send q => exact send_appends q db
  | store m => exact mutate_appends m db

/-! ## Whole runs -/

theorem ordered_next_iff (h : AuditOrdered db) : AuditOrdered (q.next db) ↔ InPace db q := by
  cases next_appends db q with
  | nothing haudit hpace =>
    unfold AuditOrdered
    rw [haudit]
    exact ⟨fun _ => hpace,fun _ => h⟩
  | event hinsert hrevision hpace =>
    rw [ordered_append hinsert hrevision]
    exact ⟨fun hnext => hpace.mp hnext.2,fun hq => ⟨h,hpace.mpr hq⟩⟩

theorem ordered_of_next (h : AuditOrdered (q.next db)) : AuditOrdered db := by
  cases next_appends db q with
  | nothing haudit hpace =>
    unfold AuditOrdered at h
    rw [haudit] at h
    exact h
  | event hinsert hrevision hpace => exact ((ordered_append hinsert hrevision).mp h).1

/-- The events of a run strictly increase exactly when each STOP and each resume that is
recorded finds the cursor at or past every event. -/
theorem audit_ordered_iff_in_pace (db : Database) (requests : List (AuditRequest rt)) (hstart : db.audit.rows = []) :
    AuditOrdered (requests.foldl AuditRequest.next db) ↔ Along AuditRequest.next InPace db requests := by
  refine along_iff_of_invariant (J := fun _ => True) (fun _ _ _ => trivial) (fun _ _ _ => ordered_next_iff) (fun _ _ => ordered_of_next)
    trivial ?_
  unfold AuditOrdered
  rw [hstart]
  exact List.Pairwise.nil

def sampleMutation (title : String) : StoreMutation := ⟨.addInbox title,.ok (),sampleTime 1⟩

/-- One mutation, then STOP at a cursor of revision one. -/
theorem sample_audit_ordered : AuditOrdered ([(.store (sampleMutation "a") : AuditRequest sampleRuntime),
    .send (.stop sampleStopRequest)].foldl AuditRequest.next sampleDatabase) := by
  refine (audit_ordered_iff_in_pace sampleDatabase _ rfl).mpr ⟨trivial,?_,trivial⟩
  intro c hc _
  cases hc
  decide

/-- After two mutations STOP takes the revision of the second once more. -/
theorem stop_repeats_a_revision : ¬ AuditOrdered ([(.store (sampleMutation "a") : AuditRequest sampleRuntime),
    .store (sampleMutation "b"),.send (.stop sampleStopRequest)].foldl AuditRequest.next sampleDatabase) := by
  intro h
  have hrevisions : (List.foldl AuditRequest.next sampleDatabase
      [(.store (sampleMutation "a") : AuditRequest sampleRuntime),.store (sampleMutation "b"),
        .send (.stop sampleStopRequest)]).audit.rows.map (·.revision) = [1,2,2] := by
    decide +kernel
  have hpair : List.Pairwise (· < ·) _ := List.Pairwise.map AuditEvent.revision (fun _ _ h => h) h
  rw [hrevisions] at hpair
  exact absurd hpair (by decide)

end Bdb.Continuation
