import Bdb.Admission.Store
import Bdb.Base.Promises
import Bdb.Base.Table

/-! # One task for a submission

A submission key stays bound to one request and at most one task, whatever clients and operators do at the same time.
An entry of the outbox that is acknowledged stays so only while no client marks it as sent after another one has
acknowledged it: the two statements of that change do not share a transaction.
-/
namespace Bdb.Admission

open List

variable {dg : Digests} {db : Databases} {q : AdmissionRequest} {α : Type}

abbrev AdmissionLog := List (Entry AdmissionRequest.Answer)

/-- An entry is marked as sent only while it is not acknowledged. -/
def InOrder (db : Databases) : AdmissionRequest → Prop
  | .setSent key => ∀ e ∈ db.row key, e.state ≠ .acked
  | _ => True

instance (db : Databases) : (q : AdmissionRequest) → Decidable (InOrder db q)
  | .setSent key => Option.decidableForallMem (db.row key)
  | .killSwitch | .existing _ | .admitRequest _ _ | .tombstone _ _ _ | .setIntake _ | .prepare _ _ _ | .row _ | .setAcked _ _ =>
    .isTrue trivial

/-! ## What stays as it is -/

structure OutboxEntry.Goes (x y : OutboxEntry) : Prop where
  submissionKey : y.submissionKey = x.submissionKey
  requestDigest : y.requestDigest = x.requestDigest
  payload : y.payload = x.payload
  acked : x.state = .acked → y.state = .acked

theorem OutboxEntry.Goes.refl (x : OutboxEntry) : x.Goes x := ⟨rfl,rfl,rfl,id⟩

theorem OutboxEntry.Goes.trans {x y z : OutboxEntry} (hxy : x.Goes y) (hyz : y.Goes z) : x.Goes z where
  submissionKey := hyz.submissionKey.trans hxy.submissionKey
  requestDigest := hyz.requestDigest.trans hxy.requestDigest
  payload := hyz.payload.trans hxy.payload
  acked hx := hyz.acked (hxy.acked hx)

/-- Rows of the canonical store stay as they are, and the outbox keeps its entries and their acknowledgements. -/
structure Extends (a b : Databases) : Prop where
  submissions : a.submissions <+: b.submissions
  tasks : a.tasks <+: b.tasks
  intentRevisions : a.intentRevisions <+: b.intentRevisions
  consumerBindings : a.consumerBindings <+: b.consumerBindings
  outbox : ∀ x ∈ a.outbox, ∃ y ∈ b.outbox, x.Goes y

theorem Extends.refl (a : Databases) : Extends a a :=
  ⟨prefix_rfl,prefix_rfl,prefix_rfl,prefix_rfl,fun x hx => ⟨x,hx,.refl x⟩⟩

variable {x : Submission} {a b db' : Databases} {r : SubmissionRequest} {key digest reason : String}
    {e : OutboxEntry} {p : Payload} {receipt : Receipt} {log : AdmissionLog}

theorem Extends.trans {c : Databases} (hab : Extends a b) (hbc : Extends b c) : Extends a c where
  submissions := hab.submissions.trans hbc.submissions
  tasks := hab.tasks.trans hbc.tasks
  intentRevisions := hab.intentRevisions.trans hbc.intentRevisions
  consumerBindings := hab.consumerBindings.trans hbc.consumerBindings
  outbox x hx := by
    obtain ⟨y,hy,hxy⟩ := hab.outbox x hx
    obtain ⟨z,hz,hyz⟩ := hbc.outbox y hy
    exact ⟨z,hz,hxy.trans hyz⟩

/-- A receipt says what the canonical row of its key says. -/
def Databases.Holds (db : Databases) (r : Receipt) : Prop :=
  ∃ x ∈ db.submissions, x.submissionKey = r.submissionKey ∧ x.requestDigest = r.requestDigest ∧ x.disposition = r.disposition

theorem holds_receipt (hx : x ∈ db.submissions) (outcome : AdmissionOutcome) : db.Holds (x.receipt outcome) :=
  ⟨x,hx,rfl,rfl,rfl⟩

theorem Databases.Holds.extends {r : Receipt} (hr : a.Holds r) (h : Extends a b) : b.Holds r := by
  obtain ⟨x,hx,hrow⟩ := hr
  exact ⟨x,h.submissions.subset hx,hrow⟩

/-! ## Sound databases -/

def Submission.acceptance (x : Submission) : Option (String × String × String) :=
  match x.disposition with
  | .accepted taskId intentRevisionId => some (x.submissionKey,taskId,intentRevisionId)
  | .tombstoned _ => none

def Databases.accepted (db : Databases) : List (String × String × String) := db.submissions.filterMap Submission.acceptance

structure Sound (db : Databases) : Prop where
  keys : (db.submissions.map (·.submissionKey)).Nodup
  /-- Accepted submissions, tasks, intent revisions and consumer bindings are the same ones, in the same order. -/
  tasks : db.accepted = db.tasks.map fun t => (t.submissionKey,t.taskId,t.intentRevisionId)
  intentRevisions : db.tasks.map (fun t => (t.taskId,t.intentRevisionId,t.intentRevision,t.intentDigest)) =
    db.intentRevisions.map fun v => (v.taskId,v.intentRevisionId,v.intentRevision,v.intentDigest)
  consumerBindings : db.tasks.map (fun t => (t.submissionKey,t.conversationBinding,t.consumerBinding)) =
    db.consumerBindings.map fun b => (b.submissionKey,b.conversationBinding,b.consumerBinding)
  taskIds : (db.tasks.map (·.taskId)).Nodup
  taskKeys : (db.tasks.map (·.submissionKey)).Nodup
  revisionIds : (db.intentRevisions.map (·.intentRevisionId)).Nodup
  outboxKeys : (db.outbox.map (·.submissionKey)).Nodup
  receipts : ∀ e ∈ db.outbox, ∀ r, e.receipt = some r →
    db.Holds r ∧ r.submissionKey = e.submissionKey ∧ r.requestDigest = e.requestDigest
  acked : ∀ e ∈ db.outbox, e.state = .acked → e.receipt ≠ none

theorem sound_opened (enabled : Bool) : Sound (.opened enabled) where
  keys := nodup_nil
  tasks := rfl
  intentRevisions := rfl
  consumerBindings := rfl
  taskIds := nodup_nil
  taskKeys := nodup_nil
  revisionIds := nodup_nil
  outboxKeys := nodup_nil
  receipts _ he := absurd he not_mem_nil
  acked _ he := absurd he not_mem_nil

theorem existing_some (h : db.existing key = some x) : x ∈ db.submissions ∧ x.submissionKey = key :=
  ⟨mem_of_find?_eq_some h,by simpa using List.find?_some h⟩

theorem row_some (h : db.row key = some e) : e ∈ db.outbox ∧ e.submissionKey = key :=
  ⟨mem_of_find?_eq_some h,by simpa using List.find?_some h⟩

theorem row_none (h : db.row key = none) : ∀ e ∈ db.outbox, e.submissionKey ≠ key := by
  intro e he
  simpa using List.find?_eq_none.mp h e he

theorem Sound.row_of_mem (h : Sound db) (he : e ∈ db.outbox) : db.row e.submissionKey = some e := by
  cases hrow : db.row e.submissionKey with
  | none => exact absurd rfl (row_none hrow e he)
  | some x =>
    obtain ⟨hx,hkey⟩ := row_some hrow
    rw [inj_on_of_nodup_map h.outboxKeys hx he hkey]

/-! ## Transactions of the canonical store -/

theorem insertAccepted_some (h : db.insertAccepted dg p digest = some db') :
    (∀ y ∈ db.submissions, y.submissionKey ≠ p.submissionKey) ∧
    (∀ y ∈ db.tasks, y.taskId ≠ p.task dg ∧ y.submissionKey ≠ p.submissionKey) ∧
    (∀ y ∈ db.intentRevisions, y.intentRevisionId ≠ p.revision dg) ∧
    db' = { db with
      submissions := db.submissions ++ [⟨p.submissionKey,digest,.accepted (p.task dg) (p.revision dg)⟩]
      tasks := db.tasks ++ [⟨p.task dg,p.submissionKey,p.revision dg,p.intentRevision,p.intentDigest dg,
        p.conversationBinding,p.consumerBinding⟩]
      intentRevisions := db.intentRevisions ++ [⟨p.revision dg,p.task dg,p.intentRevision,p.intentDigest dg,p.intent⟩]
      consumerBindings := db.consumerBindings ++ [⟨p.submissionKey,p.conversationBinding,p.consumerBinding⟩] } := by
  unfold Databases.insertAccepted at h
  obtain ⟨db₁,h₁,h⟩ := Option.bind_eq_some_iff.mp h
  obtain ⟨db₂,h₂,h⟩ := Option.bind_eq_some_iff.mp h
  obtain ⟨db₃,h₃,h₄⟩ := Option.bind_eq_some_iff.mp h
  unfold Databases.insertSubmission at h₁
  unfold Databases.insertTask at h₂
  unfold Databases.insertIntentRevision at h₃
  unfold Databases.insertConsumerBinding at h₄
  split at h₁
  · rename_i hkey
    cases h₁
    split at h₂
    · rename_i htask
      cases h₂
      split at h₃
      · rename_i hrevision
        cases h₃
        split at h₄
        · exact ⟨hkey,htask,fun y hy => (hrevision y hy).1,(Option.some.inj h₄).symm⟩
        · cases h₄
      · cases h₃
    · cases h₂
  · cases h₁

theorem Sound.insertAccepted (h : Sound db)
    (hinsert : db.insertAccepted dg p digest = some db') : Extends db db' ∧ Sound db' := by
  obtain ⟨hkey,htask,hrevision,rfl⟩ := insertAccepted_some hinsert
  have hextends : Extends db { db with
      submissions := db.submissions ++ [⟨p.submissionKey,digest,.accepted (p.task dg) (p.revision dg)⟩]
      tasks := db.tasks ++ [⟨p.task dg,p.submissionKey,p.revision dg,p.intentRevision,p.intentDigest dg,
        p.conversationBinding,p.consumerBinding⟩]
      intentRevisions := db.intentRevisions ++ [⟨p.revision dg,p.task dg,p.intentRevision,p.intentDigest dg,p.intent⟩]
      consumerBindings := db.consumerBindings ++ [⟨p.submissionKey,p.conversationBinding,p.consumerBinding⟩] } :=
    ⟨prefix_append ..,prefix_append ..,prefix_append ..,prefix_append ..,fun x hx => ⟨x,hx,.refl x⟩⟩
  refine ⟨hextends,?_⟩
  exact {
    keys := nodup_map_concat h.keys hkey
    tasks := by
      have htasks := h.tasks
      unfold Databases.accepted at htasks ⊢
      rw [filterMap_append,map_append,htasks]
      rfl
    intentRevisions := by
      rw [map_append,map_append,h.intentRevisions]
      rfl
    consumerBindings := by
      rw [map_append,map_append,h.consumerBindings]
      rfl
    taskIds := nodup_map_concat h.taskIds fun y hy => (htask y hy).1
    taskKeys := nodup_map_concat h.taskKeys fun y hy => (htask y hy).2
    revisionIds := nodup_map_concat h.revisionIds hrevision
    outboxKeys := h.outboxKeys
    receipts := fun e he r hr => ⟨(h.receipts e he r hr).1.extends hextends,(h.receipts e he r hr).2⟩
    acked := h.acked }

theorem insertSubmission_some (h : db.insertSubmission x = some db') :
    (∀ y ∈ db.submissions, y.submissionKey ≠ x.submissionKey) ∧ db' = { db with submissions := db.submissions ++ [x] } := by
  unfold Databases.insertSubmission at h
  split at h
  · exact ⟨‹_›,(Option.some.inj h).symm⟩
  · cases h

theorem accepted_insertTombstone (hx : x.disposition = .tombstoned reason)
    (hinsert : db.insertSubmission x = some db') : db'.accepted = db.accepted := by
  rw [(insertSubmission_some hinsert).2]
  unfold Databases.accepted Submission.acceptance
  rw [filterMap_append,filterMap_cons,hx]
  simp

theorem Sound.insertTombstone (h : Sound db)
    (hx : x.disposition = .tombstoned reason) (hinsert : db.insertSubmission x = some db') : Extends db db' ∧ Sound db' := by
  have haccepted := accepted_insertTombstone hx hinsert
  obtain ⟨hkey,rfl⟩ := insertSubmission_some hinsert
  have hextends : Extends db { db with submissions := db.submissions ++ [x] } :=
    ⟨prefix_append ..,prefix_rfl,prefix_rfl,prefix_rfl,fun y hy => ⟨y,hy,.refl y⟩⟩
  refine ⟨hextends,{ h with keys := ?_, tasks := ?_, receipts := ?_ }⟩
  · exact nodup_map_concat h.keys hkey
  · rw [haccepted]
    exact h.tasks
  · exact fun e he r hr => ⟨(h.receipts e he r hr).1.extends hextends,(h.receipts e he r hr).2⟩

variable {fault : Fault} {answer : Outcome Receipt} {s : AdmissionState}

theorem admission_ok (h : db.admission dg r fault = .ok (db',receipt)) :
    db.admissionEnabled = true ∧ ((db' = db ∧ db.Holds receipt) ∨
      ∃ digest, db.insertAccepted dg r.payload digest = some db' ∧ db'.Holds receipt) := by
  unfold Databases.admission at h
  obtain ⟨digest,-,h⟩ := bind_ok.mp h
  obtain ⟨_,h⟩ := rest_ok h
  obtain ⟨henabled,h⟩ := of_require h
  refine ⟨henabled,?_⟩
  split at h
  · rename_i x hx
    obtain ⟨receipt',hcheck,h⟩ := bind_ok.mp h
    cases pure_ok.mp h
    unfold checkExisting at hcheck
    split at hcheck
    · cases hcheck
    · split at hcheck
      · cases hcheck
      · cases hcheck
        exact .inl ⟨rfl,holds_receipt (existing_some hx).1 _⟩
  · obtain ⟨_,h⟩ := rest_ok h
    obtain ⟨db'',hinsert,h⟩ := bind_ok.mp h
    obtain ⟨_,h⟩ := rest_ok h
    cases pure_ok.mp h
    refine .inr ⟨digest,need_ok.mp hinsert,?_⟩
    obtain ⟨-,-,-,rfl⟩ := insertAccepted_some (need_ok.mp hinsert)
    exact ⟨_,mem_append_right _ (mem_singleton_self _),rfl,rfl,rfl⟩

theorem admit_cases (dg : Digests) (r : SubmissionRequest) (fault : Fault) (db : Databases) :
    ((db.admitRequest dg r fault).1 = db ∨ (db.admissionEnabled = true ∧
      ∃ digest, db.insertAccepted dg r.payload digest = some (db.admitRequest dg r fault).1)) ∧
    ∀ receipt, (db.admitRequest dg r fault).2 = .ok receipt → (db.admitRequest dg r fault).1.Holds receipt := by
  unfold Databases.admitRequest
  cases h : db.admission dg r fault with
  | error e => exact ⟨.inl rfl,fun receipt hreceipt => by cases hreceipt⟩
  | ok out =>
    obtain ⟨db',receipt⟩ := out
    obtain ⟨henabled,hcommit⟩ := admission_ok h
    have hchange : db' = db ∨ (db.admissionEnabled = true ∧ ∃ digest, db.insertAccepted dg r.payload digest = some db') := by
      rcases hcommit with ⟨rfl,-⟩ | ⟨digest,hinsert,-⟩
      · exact .inl rfl
      · exact .inr ⟨henabled,digest,hinsert⟩
    have hholds : db'.Holds receipt := by
      rcases hcommit with ⟨rfl,hreceipt⟩ | ⟨digest,-,hreceipt⟩
      all_goals exact hreceipt
    dsimp only
    split
    · exact ⟨hchange,fun receipt' hreceipt => by cases hreceipt⟩
    · exact ⟨hchange,fun receipt' hreceipt => Except.ok.inj hreceipt ▸ hholds⟩

theorem step_admitRequest (h : Sound db) (r : SubmissionRequest) (fault : Fault) :
    Extends db (db.admitRequest dg r fault).1 ∧ Sound (db.admitRequest dg r fault).1 := by
  rcases (admit_cases dg r fault db).1 with hsame | ⟨-,digest,hinsert⟩
  · rw [hsame]
    exact ⟨.refl db,h⟩
  · exact h.insertAccepted hinsert

theorem tombstone_cases (dg : Digests) (r : SubmissionRequest) (reason : String) (busy : Bool) (db : Databases) :
    ((db.tombstone dg r reason busy).1 = db ∨ ∃ x reason', x.disposition = .tombstoned reason' ∧
      db.insertSubmission x = some (db.tombstone dg r reason busy).1) ∧
    ∀ receipt, (db.tombstone dg r reason busy).2 = .ok receipt → (db.tombstone dg r reason busy).1.Holds receipt := by
  unfold Databases.tombstone
  cases hburial : db.burial dg r reason busy with
  | error e => exact ⟨.inl rfl,fun receipt hreceipt => by cases hreceipt⟩
  | ok out =>
    obtain ⟨db',receipt⟩ := out
    unfold Databases.burial at hburial
    obtain ⟨_,_,_,hburial⟩ := rest₃ hburial
    split at hburial
    · rename_i x hx
      obtain ⟨_,hburial⟩ := rest_ok hburial
      split at hburial
      · obtain ⟨rfl,rfl⟩ := Prod.mk.inj (pure_ok.mp hburial)
        exact ⟨.inl rfl,fun receipt' hreceipt => Except.ok.inj hreceipt ▸ holds_receipt (existing_some hx).1 _⟩
      · cases hburial
    · obtain ⟨db'',hinsert,hburial⟩ := bind_ok.mp hburial
      obtain ⟨rfl,rfl⟩ := Prod.mk.inj (pure_ok.mp hburial)
      have hinserted := need_ok.mp hinsert
      refine ⟨.inr ⟨_,reason,rfl,hinserted⟩,fun receipt' hreceipt => Except.ok.inj hreceipt ▸ holds_receipt ?_ _⟩
      rw [(insertSubmission_some hinserted).2]
      exact mem_append_right _ (mem_singleton_self _)

theorem step_tombstone (h : Sound db) (r : SubmissionRequest) (reason : String) (busy : Bool) :
    Extends db (db.tombstone dg r reason busy).1 ∧ Sound (db.tombstone dg r reason busy).1 := by
  rcases (tombstone_cases dg r reason busy db).1 with hsame | ⟨x,reason',hx,hinsert⟩
  · rw [hsame]
    exact ⟨.refl db,h⟩
  · exact h.insertTombstone hx hinsert

theorem admit_error {e : Failure} (h : (db.admitRequest dg r fault).2 = .error e)
    (hfault : fault ≠ .afterCommit) : (db.admitRequest dg r fault).1 = db := by
  unfold Databases.admitRequest at h ⊢
  cases hcommit : db.admission dg r fault with
  | error e' => rfl
  | ok out =>
    rw [hcommit] at h
    simp [hfault] at h

theorem tombstone_error {busy : Bool} {e : Failure}
    (h : (db.tombstone dg r reason busy).2 = .error e) : (db.tombstone dg r reason busy).1 = db := by
  unfold Databases.tombstone at h ⊢
  cases hcommit : db.burial dg r reason busy with
  | error e' => rfl
  | ok out =>
    rw [hcommit] at h
    cases h

/-! ## Statements of the outbox -/

theorem step_prepare (h : Sound db) (p : Payload) (digest : String) (maxEntries : ℕ) :
    Extends db (db.prepare p digest maxEntries).1 ∧ Sound (db.prepare p digest maxEntries).1 := by
  unfold Databases.prepare
  split
  · split <;> exact ⟨.refl db,h⟩
  · rename_i hnone
    split
    · exact ⟨.refl db,h⟩
    · refine ⟨⟨prefix_rfl,prefix_rfl,prefix_rfl,prefix_rfl,
        fun x hx => ⟨x,mem_append_left _ hx,.refl x⟩⟩,{ h with outboxKeys := ?_, receipts := ?_, acked := ?_ }⟩
      · exact nodup_map_concat h.outboxKeys (row_none hnone)
      · intro e he r hr
        rcases mem_append.mp he with he | he
        · exact h.receipts e he r hr
        · rw [mem_singleton.mp he] at hr
          cases hr
      · intro e he hacked
        rcases mem_append.mp he with he | he
        · exact h.acked e he hacked
        · rw [mem_singleton.mp he] at hacked
          cases hacked

theorem prepare_ok {maxEntries : ℕ}
    (h : (db.prepare p digest maxEntries).2 = .ok e) : e ∈ (db.prepare p digest maxEntries).1.outbox := by
  unfold Databases.prepare at h ⊢
  cases hrow : db.row p.submissionKey with
  | some x =>
    simp only [hrow] at h ⊢
    split at h
    · rw [if_pos ‹_›]
      exact Except.ok.inj h ▸ (row_some hrow).1
    · cases h
  | none =>
    simp only [hrow] at h ⊢
    split at h
    · cases h
    · rw [if_neg ‹_›]
      exact Except.ok.inj h ▸ mem_append_right _ (mem_singleton_self _)

theorem Sound.updateEntry (h : Sound db) (key : String) {f : OutboxEntry → OutboxEntry}
    (hgoes : ∀ e ∈ db.outbox, e.submissionKey = key → e.Goes (f e))
    (hreceipts : ∀ e ∈ db.outbox, e.submissionKey = key → ∀ r, (f e).receipt = some r →
      db.Holds r ∧ r.submissionKey = e.submissionKey ∧ r.requestDigest = e.requestDigest)
    (hacked : ∀ e ∈ db.outbox, e.submissionKey = key → (f e).state = .acked → (f e).receipt ≠ none) :
    Extends db (db.updateEntry key f) ∧ Sound (db.updateEntry key f) := by
  have hchange : ∀ e ∈ db.outbox, e.Goes (if e.submissionKey = key then f e else e) := by
    intro e he
    split
    · exact hgoes e he ‹_›
    · exact .refl e
  refine ⟨⟨prefix_rfl,prefix_rfl,prefix_rfl,prefix_rfl,
    fun x hx => ⟨_,mem_map_of_mem hx,hchange x hx⟩⟩,{ h with outboxKeys := ?_, receipts := ?_, acked := ?_ }⟩
  · have hkeys : ((db.updateEntry key f).outbox.map (·.submissionKey)) = db.outbox.map (·.submissionKey) := by
      unfold Databases.updateEntry
      rw [map_map]
      exact map_congr_left fun e he => (hchange e he).submissionKey
    rw [hkeys]
    exact h.outboxKeys
  · intro e he r hr
    obtain ⟨x,hx,rfl⟩ := mem_map.mp he
    obtain ⟨hkey,hdigest,-,-⟩ := hchange x hx
    rw [hkey,hdigest]
    split at hr
    · exact hreceipts x hx ‹_› r hr
    · exact h.receipts x hx r hr
  · intro e he
    obtain ⟨x,hx,rfl⟩ := mem_map.mp he
    split
    · exact hacked x hx ‹_›
    · exact h.acked x hx

theorem step_setSent (h : Sound db) (horder : InOrder db (.setSent key)) :
    Extends db (db.setSent key) ∧ Sound (db.setSent key) := by
  refine h.updateEntry key ?_ ?_ ?_
  · rintro e he rfl
    exact ⟨rfl,rfl,rfl,fun hacked => absurd hacked (horder e (h.row_of_mem he))⟩
  · exact fun e he _ r hr => h.receipts e he r hr
  · rintro e - - ⟨⟩

/-- The receipt an entry is acknowledged with is the one of its canonical row. -/
def Rests (db : Databases) : AdmissionRequest → Prop
  | .setAcked key receipt => db.Holds receipt ∧
    ∃ e ∈ db.outbox, e.submissionKey = key ∧ receipt.submissionKey = key ∧ receipt.requestDigest = e.requestDigest
  | _ => True

theorem step_setAcked (h : Sound db) (hrests : Rests db (.setAcked key receipt)) :
    Extends db (db.setAcked key receipt) ∧ Sound (db.setAcked key receipt) := by
  obtain ⟨hholds,x,hx,hkey,hreceipt,hdigest⟩ := hrests
  refine h.updateEntry key ?_ ?_ ?_
  · exact fun e _ _ => ⟨rfl,rfl,rfl,fun _ => rfl⟩
  · rintro e he he' r ⟨⟩
    obtain rfl := inj_on_of_nodup_map h.outboxKeys hx he (hkey.trans he'.symm)
    exact ⟨hholds,hreceipt.trans he'.symm,hdigest⟩
  · rintro e - - - ⟨⟩

theorem step_performed (h : Sound db) (horder : InOrder db q) (hrests : Rests db q) :
    Extends db (q.perform dg db).1 ∧ Sound (q.perform dg db).1 := by
  cases q with
  | killSwitch | existing key => exact ⟨.refl db,h⟩
  | admitRequest r fault => exact step_admitRequest h r fault
  | tombstone r reason busy => exact step_tombstone h r reason busy
  | setIntake enabled =>
    exact ⟨⟨prefix_rfl,prefix_rfl,prefix_rfl,prefix_rfl,fun x hx => ⟨x,hx,.refl x⟩⟩,{ h with }⟩
  | prepare p digest maxEntries => exact step_prepare h p digest maxEntries
  | row key => exact ⟨.refl db,h⟩
  | setSent key => exact step_setSent h horder
  | setAcked key receipt => exact step_setAcked h hrests

/-! ## What the calls promise -/

variable (dg) in
/-- A call whose requests are as `Rests` says, and whose result has the property, as long as the databases are sound. -/
abbrev Promising (Post : Databases → α → Prop) (s : AdmissionScript α) (db : Databases) : Prop :=
  s.Promises (AdmissionRequest.perform dg) Extends (fun db q => Sound db ∧ InOrder db q) Rests Post db

/-- A receipt that a call returns is the one of its canonical row. -/
def Kept (db : Databases) : Result → Prop
  | .receipt r => db.Holds r
  | _ => True

def KeptReceipt (db : Databases) : Outcome Receipt → Prop
  | .ok r => db.Holds r
  | .error _ => True

theorem Kept.extends {x : Result} (h : Extends a b) (ha : Kept a x) : Kept b x := by
  cases x with
  | receipt r => exact Databases.Holds.extends ha h
  | failed _ | missing | intake _ => trivial

theorem keptReceipt_of (h : ∀ r, answer = .ok r → db.Holds r) : KeptReceipt db answer := by
  cases answer with
  | error e => trivial
  | ok r => exact h r rfl

variable {Post : Databases → α → Prop}

theorem promising_ask {f : q.Answer → AdmissionScript α} : Promising dg Post (ask q >>= f) db ↔
    ∀ db', Extends db db' → Sound db' ∧ InOrder db' q →
      Rests db' q ∧ Promising dg Post (f (q.perform dg db').2) (q.perform dg db').1 :=
  Iff.rfl

theorem promising_done {x : α} (h : Post db x) : Promising dg Post (pure x) db := h

theorem promising_bind {β : Type} {Post' : Databases → β → Prop} {s : AdmissionScript α} {f : α → AdmissionScript β}
    (h : Promising dg Post s db) (hf : ∀ db' a, Post db' a → Promising dg Post' (f a) db') : Promising dg Post' (s >>= f) db :=
  Script.Promises.bind h hf

theorem promising_markAcked (hreceipt : db.Holds receipt) (key : String) :
    Promising dg Kept (markAcked key receipt) db := by
  unfold markAcked
  split
  · exact promising_done trivial
  · rename_i hkey
    refine promising_ask.mpr fun db₁ h₁ _ => ⟨trivial,?_⟩
    cases hrow : (AdmissionRequest.perform dg (.row key) db₁).2 with
    | none => exact promising_done trivial
    | some e =>
      dsimp only
      split
      · exact promising_done trivial
      · rename_i hdigest
        refine promising_ask.mpr fun db₂ h₂ _ => ⟨⟨hreceipt.extends (h₁.trans h₂),?_⟩,?_⟩
        · obtain ⟨he,hkey'⟩ := row_some (show db₁.row key = some e from hrow)
          obtain ⟨e',he',hgoes⟩ := h₂.outbox e he
          exact ⟨e',he',hgoes.submissionKey.trans hkey',of_not_not hkey,
            (of_not_not hdigest).symm.trans hgoes.requestDigest.symm⟩
        · exact promising_done (show Kept db₂ (.receipt receipt) from hreceipt.extends (h₁.trans h₂))

theorem promising_lookup (key digest : String) : Promising dg Kept (lookup key digest) db := by
  refine promising_ask.mpr fun db₁ _ _ => ⟨trivial,?_⟩
  cases hrow : (AdmissionRequest.perform dg (.existing key) db₁).2 with
  | none => exact promising_done trivial
  | some x =>
    dsimp only
    split
    · exact promising_done trivial
    · exact promising_done (holds_receipt (existing_some (show db₁.existing key = some x from hrow)).1 _)

theorem promising_recover (key : String) : Promising dg Kept (recover key) db := by
  refine promising_ask.mpr fun db₁ _ hsound => ⟨trivial,?_⟩
  cases hrow : (AdmissionRequest.perform dg (.row key) db₁).2 with
  | none => exact promising_done trivial
  | some e =>
    dsimp only
    cases hreceipt : e.receipt with
    | some receipt => exact promising_done (hsound.1.receipts e (row_some (show db₁.row key = some e from hrow)).1 receipt hreceipt).1
    | none =>
      refine promising_bind (promising_lookup e.payload.submissionKey e.requestDigest) fun db₂ x hx => ?_
      cases x with
      | receipt receipt => exact promising_markAcked hx key
      | failed _ | missing | intake _ => exact promising_done trivial

theorem promising_markSent (key : String) : Promising dg (fun _ _ => True) (markSent key) db := by
  refine promising_ask.mpr fun db₁ _ _ => ⟨trivial,?_⟩
  cases (AdmissionRequest.perform dg (.row key) db₁).2 with
  | none => exact promising_done trivial
  | some e =>
    dsimp only
    split
    · exact promising_done trivial
    · exact promising_ask.mpr fun db₂ _ _ => ⟨trivial,promising_done trivial⟩

theorem promising_admitRequest (r : SubmissionRequest) (fault : Fault) : Promising dg KeptReceipt (admitRequest r fault) db := by
  refine promising_ask.mpr fun db₁ _ _ => ⟨trivial,?_⟩
  have hrest : ∀ enabled : Bool, Promising dg KeptReceipt
      (if enabled = true then (ask (.admitRequest r fault) : AdmissionScript (Outcome Receipt))
        else return fail "admission_disabled" "vNext admission is disabled by the kill switch") db₁ := by
    intro enabled
    cases enabled with
    | false => exact promising_done trivial
    | true => exact fun db₂ _ _ => ⟨trivial,keptReceipt_of (admit_cases dg r fault db₂).2⟩
  exact hrest _

theorem promising_deliver (r : SubmissionRequest) (key : String) (crash : CrashPoint) (busy : Bool) :
    Promising dg Kept (deliver r key crash busy) db := by
  refine promising_bind (promising_markSent key) fun db₁ sent _ => ?_
  cases sent with
  | error e => exact promising_done trivial
  | ok _ =>
    dsimp only
    split
    · exact promising_done trivial
    · refine promising_bind (promising_admitRequest r _) fun db₂ answer hanswer => ?_
      cases answer with
      | error e => exact promising_done trivial
      | ok receipt =>
        dsimp only
        split
        · exact promising_done trivial
        · exact promising_markAcked hanswer key

theorem promising_submit (r : SubmissionRequest) (crash : CrashPoint) (busy : Bool) (maxEntries : ℕ) :
    Promising dg Kept (submit dg r crash busy maxEntries) db := by
  unfold submit
  cases r.validatedDigest dg with
  | error e => exact promising_done trivial
  | ok digest =>
    refine promising_ask.mpr fun db₁ _ hsound => ⟨trivial,?_⟩
    cases hprepared : (AdmissionRequest.perform dg (.prepare r.payload digest maxEntries) db₁).2 with
    | error e => exact promising_done trivial
    | ok prepared =>
      dsimp only
      cases hstate : prepared.state with
      | acked =>
        dsimp only
        cases hreceipt : prepared.receipt with
        | none => exact promising_done trivial
        | some receipt =>
          obtain ⟨hextends,hnow⟩ := step_prepare hsound.1 r.payload digest maxEntries
          exact promising_done (hnow.receipts prepared (prepare_ok hprepared) receipt hreceipt).1
      | sent =>
        refine promising_bind (promising_recover r.payload.submissionKey) fun db₂ x hx => ?_
        cases x with
        | missing => exact promising_deliver _ _ _ _
        | receipt _ | failed _ | intake _ => exact promising_done hx
      | pending => exact promising_deliver _ _ _ _

theorem promising_retry (key : String) (busy : Bool) : Promising dg Kept (retry key busy) db := by
  refine promising_ask.mpr fun db₁ _ _ => ⟨trivial,?_⟩
  cases (AdmissionRequest.perform dg (.row key) db₁).2 with
  | none => exact promising_done trivial
  | some e =>
    refine promising_bind (promising_recover key) fun db₂ x hx => ?_
    cases x with
    | missing => exact promising_deliver _ _ _ _
    | receipt _ | failed _ | intake _ => exact promising_done hx

theorem kept_answered (h : KeptReceipt db answer) : Kept db (answered answer) := by
  cases answer with
  | error e => trivial
  | ok receipt => exact h

theorem promising_call (call : AdmissionCall) (db : Databases) : Promising dg Kept (call.script dg) db := by
  cases call with
  | submit r crash busy maxEntries => exact promising_submit r crash busy maxEntries
  | recover key => exact promising_recover key
  | retry key busy => exact promising_retry key busy
  | admitRequest r fault =>
    exact promising_bind (promising_admitRequest r fault) fun db₁ answer hanswer => promising_done (kept_answered hanswer)
  | tombstone r reason busy =>
    refine promising_ask.mpr fun db₁ _ _ => ⟨trivial,promising_done (kept_answered ?_)⟩
    exact keptReceipt_of (tombstone_cases dg r reason busy db₁).2
  | lookup key digest => exact promising_lookup key digest
  | setIntake enabled busy =>
    change Promising dg Kept (setIntake enabled busy) db
    unfold setIntake
    split
    · exact promising_done trivial
    · exact promising_ask.mpr fun db₁ _ _ => ⟨trivial,promising_done trivial⟩

/-! ## The switch -/

def Enables (e : Entry AdmissionRequest.Answer) : Prop := e.1 = .setIntake true

def intakeAfter (enabled : Bool) (log : AdmissionLog) : Bool :=
  log.foldl (fun on e => match e.1 with | .setIntake b => b | _ => on) enabled

theorem intakeAfter_concat (enabled : Bool) (log : AdmissionLog) (e : Entry AdmissionRequest.Answer) :
    intakeAfter enabled (log ++ [e]) = match e.1 with | .setIntake b => b | _ => intakeAfter enabled log := by
  unfold intakeAfter
  rw [foldl_append]
  rfl

theorem intakeAfter_of_disabled (h : ∀ e ∈ log, ¬ Enables e) : intakeAfter false log = false := by
  induction log using List.reverseRecOn with
  | nil => rfl
  | append_singleton log e ih =>
    rw [intakeAfter_concat]
    split
    · rename_i b hb
      cases b with
      | false => rfl
      | true => exact absurd hb (h e (mem_append_right _ (mem_singleton_self e)))
    · exact ih fun x hx => h x (mem_append_left _ hx)

theorem intakeAfter_disable (enabled : Bool) (before after : AdmissionLog) (h : ∀ e ∈ after, ¬ Enables e) :
    intakeAfter enabled (before ++ ⟨.setIntake false,()⟩ :: after) = false := by
  have hsplit : intakeAfter enabled (before ++ ⟨.setIntake false,()⟩ :: after) = intakeAfter false after := by
    unfold intakeAfter
    rw [foldl_append,foldl_cons]
  rw [hsplit]
  exact intakeAfter_of_disabled h

theorem step_intake (dg : Digests) (db : Databases) (q : AdmissionRequest) :
    (q.perform dg db).1.admissionEnabled = (match q with | .setIntake b => b | _ => db.admissionEnabled) ∧
      (db.admissionEnabled = false → (q.perform dg db).1.accepted = db.accepted) := by
  cases q with
  | killSwitch | existing _ | row _ | setSent _ | setAcked _ _ | setIntake _ => exact ⟨rfl,fun _ => rfl⟩
  | admitRequest r fault =>
    rcases (admit_cases dg r fault db).1 with hsame | ⟨henabled,digest,hinsert⟩
    · change (db.admitRequest dg r fault).1.admissionEnabled = _ ∧ (_ → (db.admitRequest dg r fault).1.accepted = _)
      rw [hsame]
      exact ⟨rfl,fun _ => rfl⟩
    · obtain ⟨-,-,-,heq⟩ := insertAccepted_some hinsert
      change (db.admitRequest dg r fault).1.admissionEnabled = _ ∧ (_ → (db.admitRequest dg r fault).1.accepted = _)
      rw [heq,henabled]
      exact ⟨rfl,nofun⟩
  | tombstone r reason busy =>
    change (db.tombstone dg r reason busy).1.admissionEnabled = _ ∧ (_ → (db.tombstone dg r reason busy).1.accepted = _)
    rcases (tombstone_cases dg r reason busy db).1 with hsame | ⟨x,reason',hx,hinsert⟩
    · rw [hsame]
      exact ⟨rfl,fun _ => rfl⟩
    · refine ⟨?_,fun _ => accepted_insertTombstone hx hinsert⟩
      rw [(insertSubmission_some hinsert).2]
  | prepare p digest maxEntries =>
    change (db.prepare p digest maxEntries).1.admissionEnabled = _ ∧ (_ → (db.prepare p digest maxEntries).1.accepted = _)
    unfold Databases.prepare
    split
    all_goals split <;> exact ⟨rfl,fun _ => rfl⟩

/-! ## Runs -/

variable {enabled : Bool}

variable (dg enabled) in
/-- No entry is marked as sent after another client has acknowledged it. -/
def Orderly (moves : List (Move AdmissionCall)) : Prop :=
  Along (Shared.next (AdmissionRequest.perform dg) (AdmissionCall.script dg))
    (Shared.Admits fun db _ q => InOrder db q) (Shared.begin (.opened enabled) : AdmissionState) moves

def Since (s : AdmissionState) (db : Databases) (log : AdmissionLog) : Prop :=
  ∃ more, log = s.log ++ more ∧ (s.store.admissionEnabled = false → (∀ e ∈ more, ¬ Enables e) →
    db.admissionEnabled = false ∧ db.accepted = s.store.accepted)

theorem Since.step (h : Since s db log) (q : AdmissionRequest) :
    Since s (q.perform dg db).1 (log ++ [⟨q,(q.perform dg db).2⟩]) := by
  obtain ⟨more,rfl,hmore⟩ := h
  refine ⟨more ++ [⟨q,(q.perform dg db).2⟩],append_assoc ..,fun hoff hquiet => ?_⟩
  obtain ⟨hdisabled,haccepted⟩ := hmore hoff fun e he => hquiet e (mem_append_left _ he)
  obtain ⟨hswitch,hnothing⟩ := step_intake dg db q
  refine ⟨?_,(hnothing hdisabled).trans haccepted⟩
  rw [hswitch]
  split
  · rename_i b
    cases b with
    | false => rfl
    | true => exact absurd rfl (hquiet _ (mem_append_right _ (mem_singleton_self _)))
  · exact hdisabled

theorem Since.refl (s : AdmissionState) : Since s s.store s.log :=
  ⟨[],(append_nil _).symm,fun hoff _ => ⟨hoff,rfl⟩⟩

/-- The databases are sound, and the log says how the switch is and what happened since a state. -/
structure Recorded (enabled : Bool) (s : AdmissionState) (db : Databases) (log : AdmissionLog) : Prop where
  sound : Sound db
  switch : db.admissionEnabled = intakeAfter enabled log
  since : Since s db log

theorem Recorded.step (h : Recorded enabled s db log) (horder : InOrder db q)
    (hrests : Rests db q) : Recorded enabled s (q.perform dg db).1 (log ++ [⟨q,(q.perform dg db).2⟩]) where
  sound := (step_performed h.sound horder hrests).2
  switch := by rw [intakeAfter_concat,(step_intake dg db q).1,h.switch]
  since := h.since.step q

theorem promised_run {done rest : List (Move AdmissionCall)} (h : Orderly dg enabled (done ++ rest)) :
    Shared.Promised (AdmissionRequest.perform dg) Extends (fun db q => Sound db ∧ InOrder db q) Rests Kept
        (Recorded enabled (admissionRun dg enabled done)) (admissionRun dg enabled (done ++ rest)) ∧
      (admissionRun dg enabled done).store.admissionEnabled = intakeAfter enabled (admissionRun dg enabled done).log ∧
      Extends (admissionRun dg enabled done).store (admissionRun dg enabled (done ++ rest)).store := by
  obtain ⟨hdone,hrest⟩ := along_append.mp h
  have hpost : ∀ a b x, Extends a b → Kept a x → Kept b x := fun a b x hext hkept => hkept.extends hext
  have hadmits : ∀ (s : AdmissionState) (t : Databases) (log : AdmissionLog) q, Recorded enabled s t log → InOrder t q →
      Sound t ∧ InOrder t q := fun s t log q hi hq => ⟨hi.sound,hq⟩
  have hstep : ∀ (s : AdmissionState) (t : Databases) (log : AdmissionLog) q, Recorded enabled s t log → InOrder t q →
      Rests t q → Extends t (q.perform dg t).1 ∧ Recorded enabled s (q.perform dg t).1 (log ++ [⟨q,(q.perform dg t).2⟩]) :=
    fun s t log q hi hq hp => ⟨(step_performed hi.sound hq hp).1,hi.step hq hp⟩
  have hbegin : Shared.Promised (AdmissionRequest.perform dg) Extends (fun db q => Sound db ∧ InOrder db q) Rests Kept
      (Recorded enabled (Shared.begin (.opened enabled))) (Shared.begin (.opened enabled) : AdmissionState) :=
    ⟨⟨sound_opened enabled,rfl,.refl _⟩,fun p hp => absurd hp not_mem_nil⟩
  obtain ⟨⟨hrecorded,hclients⟩,-⟩ := Shared.run_promised Extends.refl (fun _ _ _ => Extends.trans) hpost
    (hadmits _) (hstep _) promising_call hbegin hdone
  have hmiddle : Shared.Promised (AdmissionRequest.perform dg) Extends (fun db q => Sound db ∧ InOrder db q) Rests Kept
      (Recorded enabled (admissionRun dg enabled done)) (admissionRun dg enabled done) :=
    ⟨⟨hrecorded.sound,hrecorded.switch,.refl _⟩,hclients⟩
  obtain ⟨hlast,hextends⟩ := Shared.run_promised Extends.refl (fun _ _ _ => Extends.trans) hpost
    (hadmits _) (hstep _) promising_call hmiddle hrest
  have hrun : Shared.run (AdmissionRequest.perform dg) (AdmissionCall.script dg) (admissionRun dg enabled done) rest =
      admissionRun dg enabled (done ++ rest) := (foldl_append ..).symm
  rw [← hrun]
  exact ⟨hlast,hrecorded.switch,hextends⟩

/-- What holds in one state of a run: a key has one request, and one task if it is accepted; acknowledged entries and
returned receipts name the task of the canonical row. -/
structure OneTask (s : AdmissionState) : Prop where
  keys : (s.store.submissions.map (·.submissionKey)).Nodup
  tasks : s.store.accepted = s.store.tasks.map fun t => (t.submissionKey,t.taskId,t.intentRevisionId)
  intentRevisions : s.store.tasks.map (fun t => (t.taskId,t.intentRevisionId,t.intentRevision,t.intentDigest)) =
    s.store.intentRevisions.map fun v => (v.taskId,v.intentRevisionId,v.intentRevision,v.intentDigest)
  consumerBindings : s.store.tasks.map (fun t => (t.submissionKey,t.conversationBinding,t.consumerBinding)) =
    s.store.consumerBindings.map fun b => (b.submissionKey,b.conversationBinding,b.consumerBinding)
  taskIds : (s.store.tasks.map (·.taskId)).Nodup
  taskKeys : (s.store.tasks.map (·.submissionKey)).Nodup
  revisionIds : (s.store.intentRevisions.map (·.intentRevisionId)).Nodup
  outboxKeys : (s.store.outbox.map (·.submissionKey)).Nodup
  acknowledged : ∀ e ∈ s.store.outbox, e.state = .acked → ∃ r, e.receipt = some r ∧ r.submissionKey = e.submissionKey ∧
    r.requestDigest = e.requestDigest ∧ s.store.Holds r
  returned : ∀ r, .done (.receipt r) ∈ s.clients → s.store.Holds r

/-- Nothing is accepted between two states when the switch was set to off before the first one and nothing has enabled it
since. -/
def StaysShut (s t : AdmissionState) : Prop :=
  ∀ before after, t.log = before ++ ⟨.setIntake false,()⟩ :: after → before.length < s.log.length →
    (∀ e ∈ after, ¬ Enables e) → t.store.accepted = s.store.accepted

/-- As long as no entry is marked as sent after another client has acknowledged it, every submission gets one task at
most, every later state goes on from the state before, and nothing is accepted while intake is off. A call that fails
before its commit changes no table. -/
theorem one_task (dg : Digests) (enabled : Bool) (done rest : List (Move AdmissionCall)) (h : Orderly dg enabled (done ++ rest)) :
    OneTask (admissionRun dg enabled (done ++ rest)) ∧
    Extends (admissionRun dg enabled done).store (admissionRun dg enabled (done ++ rest)).store ∧
    StaysShut (admissionRun dg enabled done) (admissionRun dg enabled (done ++ rest)) ∧
    (∀ (db : Databases) r fault e, (db.admitRequest dg r fault).2 = .error e → fault ≠ .afterCommit → (db.admitRequest dg r fault).1 = db) ∧
    ∀ (db : Databases) r reason busy e, (db.tombstone dg r reason busy).2 = .error e → (db.tombstone dg r reason busy).1 = db := by
  obtain ⟨⟨⟨hsound,-,more,hmore,hshut⟩,hclients⟩,hswitch,hextends⟩ := promised_run h
  refine ⟨{ hsound with acknowledged := ?_, returned := ?_ },hextends,?_,
    fun db r fault e he hfault => admit_error he hfault,fun db r reason busy e he => tombstone_error he⟩
  · intro e he hacked
    obtain ⟨r,hr⟩ := Option.ne_none_iff_exists'.mp (hsound.acked e he hacked)
    obtain ⟨hholds,hkey,hdigest⟩ := hsound.receipts e he r hr
    exact ⟨r,hr,hkey,hdigest,hholds⟩
  · intro r hr
    exact hclients _ hr
  · intro before after hlog hbefore hquiet
    have hsplit : ∃ after', (admissionRun dg enabled done).log = before ++ ⟨.setIntake false,()⟩ :: after' ∧ after = after' ++ more := by
      rw [hmore] at hlog
      rcases append_eq_append_iff.mp hlog with ⟨as,has,-⟩ | ⟨bs,hbs,hrest⟩
      · rw [has,length_append] at hbefore
        omega
      · cases bs with
        | nil =>
          rw [hbs,append_nil] at hbefore
          omega
        | cons b bs =>
          obtain ⟨rfl,rfl⟩ := List.cons.inj hrest
          exact ⟨bs,hbs,rfl⟩
    obtain ⟨after',hearlier,rfl⟩ := hsplit
    refine (hshut ?_ fun e he => hquiet e (mem_append_right _ he)).2
    rw [hswitch,hearlier]
    exact intakeAfter_disable enabled before after' fun e he => hquiet e (mem_append_left _ he)

/-! ## A run that is in order, and one that is not -/

def sampleDigests : Digests where
  request p := p.submissionKey ++ p.intentRevision
  task key := "task-" ++ key
  intent revision _ := revision
  revision task revision _ := task ++ revision

def sampleRequest (key : String) : SubmissionRequest := ⟨⟨key,"i",[],[],[],none,none⟩,none⟩

def sampleSubmit (key : String) : AdmissionCall := .submit (sampleRequest key) .none false 8

def atOnce (call : AdmissionCall) (client requests : ℕ) : List (Move AdmissionCall) :=
  .start call :: List.replicate requests (.advance client)

/-- Both clients submit, one after the other; then intake is disabled. -/
def submittedTwice : List (Move AdmissionCall) :=
  atOnce (sampleSubmit "k") 0 7 ++ atOnce (sampleSubmit "k") 1 1 ++ atOnce (.setIntake false false) 2 1

theorem one_task_submitted :
    OneTask (admissionRun sampleDigests true (submittedTwice ++ atOnce (sampleSubmit "l") 3 4)) := by
  have horderly : Orderly sampleDigests true (submittedTwice ++ atOnce (sampleSubmit "l") 3 4) := by
    unfold Orderly
    decide +kernel
  exact (one_task sampleDigests true submittedTwice _ horderly).1

/-- A client has read its entry and not yet marked it as sent when another one sends and acknowledges it. -/
def heldSend : List (Move AdmissionCall) := atOnce (sampleSubmit "k") 0 2 ++ atOnce (sampleSubmit "k") 1 7

/-- The acknowledged entry becomes sent again. -/
theorem acknowledgement_lost :
    (admissionRun sampleDigests true heldSend).store.outbox.map (·.state) = [.acked] ∧
    (admissionRun sampleDigests true (heldSend ++ [.advance 0])).store.outbox.map (·.state) = [.sent] ∧
    ¬ Extends (admissionRun sampleDigests true heldSend).store
      (admissionRun sampleDigests true (heldSend ++ [.advance 0])).store := by
  have hbefore : (admissionRun sampleDigests true heldSend).store.outbox.map (·.state) = [.acked] := by decide +kernel
  have hafter : (admissionRun sampleDigests true (heldSend ++ [.advance 0])).store.outbox.map (·.state) = [.sent] := by
    decide +kernel
  refine ⟨hbefore,hafter,fun h => ?_⟩
  obtain ⟨x,hx,hacked⟩ := mem_map.mp (hbefore ▸ mem_singleton_self _ : OutboxState.acked ∈ _)
  obtain ⟨y,hy,hgoes⟩ := h.outbox x hx
  have hstate := mem_map_of_mem (f := (·.state)) hy
  rw [hafter,hgoes.acked hacked] at hstate
  cases mem_singleton.mp hstate

end Bdb.Admission
