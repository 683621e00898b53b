import Bdb.Recovery.RepairLoop

/-! # The discipline of the repair loop

A repair goes from stage to stage until a verdict ends it, and each verdict was paid for. The
calls keep this in every order but two: an effect applied to a repair that is past its effect
sends it back, and a request repeated after the budget is spent is not found again.
-/
namespace Bdb.Recovery

open Budget Floats List Option Table

variable {F : Type} [Floats F] {rt : Runtime} {ctl : RepairController F}

/-! ## What is promised -/

def RepairStage.rank : RepairStage → ℕ
  | .intentRecorded => 0
  | .effectApplied => 1
  | .readyForRetest => 2
  | .retestRunning => 3
  | .accepted => 4
  | .repairFailed => 4

def RepairStage.isFinal (s : RepairStage) : Bool := s = .accepted || s = .repairFailed

/-- Every repair stays or moves forward, and stays once it has its verdict. -/
def Advances (t t' : RepairTables) : Prop :=
  ∀ id r, t.records.get id = some r → ∃ r', t'.records.get id = some r' ∧
    (r'.stage = r.stage ∨ r.stage.rank < r'.stage.rank) ∧ (r.stage.isFinal = true → r'.stage = r.stage)

def consumed (t : RepairTables) (taskId : String) : Int :=
  ((t.ledgers.get taskId).map (·.totalRepairCount)).getD 0

def AcceptedByRepair (t : RepairTables) : Prop :=
  ∀ row ∈ t.accepted.rows, ∃ r ∈ t.records.rows, r.stage = .accepted ∧ r.taskId = row.taskId ∧ r.runId = row.runId ∧
    r.bindingId = row.bindingId ∧ r.attemptId = row.attemptId

def OneAcceptance (t : RepairTables) : Prop :=
  ∀ row ∈ t.accepted.rows, ∀ row' ∈ t.accepted.rows, row.taskId = row'.taskId → row = row'

/-- The tables and the tasks of the verdicts recorded so far. -/
structure RepairWorld where
  tables : RepairTables
  verdicts : List String

namespace RepairWorld

def empty : RepairWorld := ⟨.empty,[]⟩

def recorded (t : RepairTables) : RepairCall F → Outcome RepairAnswer → List String
  | .executeExactRetest a, .ok answer =>
    if answer.reason = "accepted" ∨ answer.reason = "retest_failed" then
      (t.requests.get a.repairRequestId).toList.map (·.taskId)
    else []
  | _, _ => []

variable (rt ctl) in
def next (s : RepairWorld) (call : RepairCall F) : RepairWorld :=
  ⟨(call.perform rt ctl s.tables).1,s.verdicts ++ recorded s.tables call (call.perform rt ctl s.tables).2⟩

end RepairWorld

open RepairWorld (next)

variable (rt ctl) in
/-- What a call leaves and answers. -/
structure Disciplined (s : RepairWorld) (call : RepairCall F) : Prop where
  advances : Advances s.tables (next rt ctl s call).tables
  oneAcceptance : OneAcceptance (next rt ctl s call).tables
  acceptedByRepair : AcceptedByRepair (next rt ctl s call).tables
  paid : ∀ taskId, ((next rt ctl s call).verdicts.count taskId : Int) ≤ consumed (next rt ctl s call).tables taskId
  repeated : ∀ a req, call = .createRepairRequest a → s.tables.requests.get (a.requestId ctl) = some req →
    (∃ reason, (call.perform rt ctl s.tables).2 = .ok ⟨true,some req,reason⟩) ∧
      ∀ taskId, consumed (next rt ctl s call).tables taskId = consumed s.tables taskId

variable (rt ctl) in
def Affordable (t : RepairTables) (a : CreateArgs F) : Prop :=
  ∃ row evaluated, (ctl.getOrCreateLedger t a.taskId (some a.runId) a.clockText).2 = .ok row ∧
    a.evaluation rt ctl row = .ok evaluated ∧ evaluated.allowed = true

variable (rt ctl) in
/-- A repeated request can still be paid for, and an effect comes before the retest. -/
def InOrder (s : RepairWorld) : RepairCall F → Prop
  | .createRepairRequest a => (s.tables.requests.get (a.requestId ctl)).isSome = true → Affordable rt ctl s.tables a
  | .applyRepairEffect a => ∀ req r, s.tables.requests.get a.repairRequestId = some req →
      s.tables.records.get a.repairRequestId = some r → req.scopeEnvelope.validateMutation rt a.changedPaths = .ok () →
      r.stage = .intentRecorded ∨ r.stage = .effectApplied
  | _ => True

/-! ## The invariant -/

def judged (taskId : String) (r : RepairRecord) : Bool := decide (r.taskId = taskId) && r.stage.isFinal

/-- Requests and records come in pairs, every record was paid for, and every verdict is the
end of one. -/
structure Sound (s : RepairWorld) : Prop where
  paired : ∀ id r, s.tables.records.get id = some r → ∃ req, s.tables.requests.get id = some req ∧
    req.taskId = r.taskId ∧ req.runId = r.runId
  noted : ∀ id req, s.tables.requests.get id = some req → ∃ r, s.tables.records.get id = some r
  ended : ∀ taskId, s.verdicts.count taskId ≤ s.tables.records.rows.countP (judged taskId)
  paid : ∀ taskId, (s.tables.records.rows.countP (fun r => r.taskId = taskId) : Int) ≤ consumed s.tables taskId
  acceptedByRepair : AcceptedByRepair s.tables

theorem empty_sound : Sound .empty where
  paired := fun _ _ h => by cases h
  noted := fun _ _ h => by cases h
  ended := fun _ => Nat.zero_le _
  paid := fun _ => Int.le_refl 0
  acceptedByRepair := fun _ h => by cases h

variable {s : RepairWorld} {a : CreateArgs F} {records : Table RepairRecord (·.repairRequestId)}
  {req : RepairRequest}

theorem Sound.verdicts_paid (h : Sound s) (taskId : String) :
    (s.verdicts.count taskId : Int) ≤ consumed s.tables taskId := by
  have hended := h.ended taskId
  have hpaid := h.paid taskId
  have hjudged : s.tables.records.rows.countP (judged taskId) ≤ s.tables.records.rows.countP (fun r => r.taskId = taskId) := by
    refine countP_mono_left fun r _ hr => ?_
    exact (Bool.and_eq_true _ _ ▸ hr).1
  omega

theorem oneAcceptance (t : RepairTables) : OneAcceptance t :=
  fun _ hrow _ hrow' htask => eq_of_key hrow hrow' htask

theorem advances_refl {t t' : RepairTables} (h : t'.records = t.records) : Advances t t' := by
  intro id r hr
  exact ⟨r,h ▸ hr,.inl rfl,fun _ => rfl⟩

/-! ## Ledgers -/

variable {t t' : RepairTables}

def SameRepairs (t t' : RepairTables) : Prop :=
  t'.requests = t.requests ∧ t'.records = t.records ∧ t'.accepted = t.accepted

theorem SameRepairs.trans {t'' : RepairTables} (h : SameRepairs t t') (h' : SameRepairs t' t'') : SameRepairs t t'' :=
  ⟨h'.1.trans h.1,h'.2.1.trans h.2.1,h'.2.2.trans h.2.2⟩

omit [Floats F] in
theorem getOrCreateLedger_keeps (ctl : RepairController F) (t : RepairTables) (taskId : String) (runId : Option String)
    (now : String) :
    SameRepairs t (ctl.getOrCreateLedger t taskId runId now).1 ∧
      (∀ task, consumed (ctl.getOrCreateLedger t taskId runId now).1 task = consumed t task) ∧
      ∀ row, (ctl.getOrCreateLedger t taskId runId now).2 = .ok row →
        (ctl.getOrCreateLedger t taskId runId now).1.ledgers.get taskId = some row := by
  unfold RepairController.getOrCreateLedger
  split
  · rename_i row hrow
    exact ⟨⟨rfl,rfl,rfl⟩,fun _ => rfl,fun _ h => Except.ok.inj h ▸ hrow⟩
  · rename_i hnone
    dsimp only
    split
    · exact ⟨⟨rfl,rfl,rfl⟩,fun _ => rfl,fun _ h => by cases h⟩
    · split
      · rename_i ledgers hinsert
        have hget := fun k => get_insert hinsert k
        refine ⟨⟨rfl,rfl,rfl⟩,fun task => ?_,fun row h => ?_⟩
        · unfold consumed
          rw [hget task]
          by_cases htask : taskId = task
          · subst htask
            rw [hnone]
            simp [newLedger]
          · exact congrArg (fun row => Option.getD (Option.map LedgerRow.totalRepairCount row) 0) (if_neg htask)
        · cases h
          exact (hget taskId).trans (if_pos rfl)
      · exact ⟨⟨rfl,rfl,rfl⟩,fun _ => rfl,fun _ h => by cases h⟩

omit [Floats F] in
theorem consumeRepairAttempt_counts (ctl : RepairController F) (t : RepairTables) (a : CreateArgs F) :
    SameRepairs t (consumeRepairAttempt ctl t a).1 ∧
      ∀ task, consumed t task ≤ consumed (consumeRepairAttempt ctl t a).1 task ∧
        ((consumeRepairAttempt ctl t a).2 = .ok (.ok ()) →
          consumed (consumeRepairAttempt ctl t a).1 task = consumed t task + if a.taskId = task then 1 else 0) := by
  obtain ⟨hsame,hconsumed,hrow⟩ := getOrCreateLedger_keeps ctl t a.taskId none a.clockText
  unfold consumeRepairAttempt
  generalize ctl.getOrCreateLedger t a.taskId none a.clockText = found at hsame hconsumed hrow ⊢
  obtain ⟨t₁,o⟩ := found
  cases o with
  | error e => exact ⟨hsame,fun task => ⟨(hconsumed task).ge,(by rintro ⟨⟩)⟩⟩
  | ok row =>
    have hget := hrow row rfl
    dsimp only at hsame hconsumed hget ⊢
    split
    · exact ⟨hsame,fun task => ⟨(hconsumed task).ge,(by rintro ⟨⟩)⟩⟩
    · exact ⟨hsame,fun task => ⟨(hconsumed task).ge,(by rintro ⟨⟩)⟩⟩
    · rename_i u hu
      obtain ⟨-,-,-,-,-,htotal,-⟩ := repairUpdate_ok hu
      have hkey : row.taskId = a.taskId := key_of_get hget
      have hput : ∀ task, (t₁.ledgers.put (u.apply row)).get task =
          if a.taskId = task then some (u.apply row) else t₁.ledgers.get task := by
        intro task
        have hold : t₁.ledgers.get (u.apply row).taskId = some row := (congrArg t₁.ledgers.get hkey).trans hget
        rw [get_put hold task,show (u.apply row).taskId = a.taskId from hkey]
      have hcount : ∀ task, consumed { t₁ with ledgers := t₁.ledgers.put (u.apply row) } task =
          consumed t task + if a.taskId = task then 1 else 0 := by
        intro task
        rw [← hconsumed task]
        unfold consumed
        dsimp only
        rw [hput task]
        split
        · rename_i htask
          rw [← htask,hget]
          exact htotal
        · simp
      refine ⟨⟨hsame.1,hsame.2.1,hsame.2.2⟩,fun task => ⟨?_,fun _ => hcount task⟩⟩
      rw [hcount task]
      split <;> omega

/-! ## Requests -/

theorem Sound.of_same {s' : RepairWorld} (h : Sound s) (hsame : SameRepairs s.tables s'.tables)
    (hconsumed : ∀ task, consumed s.tables task ≤ consumed s'.tables task) (hverdicts : s'.verdicts = s.verdicts) :
    Sound s' := by
  obtain ⟨hrequests,hrecords,haccepted⟩ := hsame
  refine ⟨?_,?_,?_,?_,?_⟩
  · rw [hrequests,hrecords]
    exact h.paired
  · rw [hrequests,hrecords]
    exact h.noted
  · rw [hrecords,hverdicts]
    exact h.ended
  · intro task
    rw [hrecords]
    exact (h.paid task).trans (hconsumed task)
  · unfold AcceptedByRepair
    rw [hrecords,haccepted]
    exact h.acceptedByRepair

omit [Floats F] in
theorem Sound.insert {requests : Table RepairRequest (·.repairRequestId)} (h : Sound s)
    (hrequests : s.tables.requests.insert (a.request ctl) = some requests)
    (hrecords : s.tables.records.insert (a.record ctl) = some records)
    (hroom : ∀ task, (s.tables.records.rows.countP (fun r => r.taskId = task) : Int) + (if a.taskId = task then 1 else 0) ≤
      consumed s.tables task) :
    Sound ⟨{ s.tables with requests := requests, records := records },s.verdicts⟩ := by
  have hrequest := fun k => get_insert hrequests k
  have hrecord := fun k => get_insert hrecords k
  have hrows := (insert_some hrecords).2
  refine ⟨?_,?_,?_,?_,?_⟩
  · intro id r hr
    rw [hrecord id] at hr
    by_cases hid : a.requestId ctl = id
    · cases (if_pos hid).symm.trans hr
      exact ⟨a.request ctl,(hrequest id).trans (if_pos hid),rfl,rfl⟩
    · obtain ⟨req,hreq,hsame⟩ := h.paired id r ((if_neg hid).symm.trans hr)
      exact ⟨req,(hrequest id).trans ((if_neg hid).trans hreq),hsame⟩
  · intro id req hreq
    rw [hrequest id] at hreq
    by_cases hid : a.requestId ctl = id
    · exact ⟨a.record ctl,(hrecord id).trans (if_pos hid)⟩
    · obtain ⟨r,hr⟩ := h.noted id req ((if_neg hid).symm.trans hreq)
      exact ⟨r,(hrecord id).trans ((if_neg hid).trans hr)⟩
  · intro task
    rw [hrows,countP_append]
    exact (h.ended task).trans (Nat.le_add_right _ _)
  · intro task
    have hcount : (s.tables.records.rows ++ [a.record ctl]).countP (fun r => r.taskId = task) =
        s.tables.records.rows.countP (fun r => r.taskId = task) + if a.taskId = task then 1 else 0 := by
      rw [countP_append,countP_singleton]
      exact congrArg (_ + ·) (if_congr decide_eq_true_iff rfl rfl)
    rw [hrows,hcount]
    refine le_trans (le_of_eq ?_) (hroom task)
    split <;> rfl
  · intro row hrow
    obtain ⟨r,hr,hsame⟩ := h.acceptedByRepair row hrow
    exact ⟨r,hrows ▸ mem_append_left _ hr,hsame⟩

variable {r : RepairRecord} {id : String} {f : RepairRecord → RepairRecord}

theorem advances_insert
    (h : t.records.insert r = some records) (ht : t'.records = records) : Advances t t' := by
  intro id old hold
  refine ⟨old,?_,.inl rfl,fun _ => rfl⟩
  rw [ht,get_insert h id]
  refine (if_neg ?_).trans hold
  rintro rfl
  cases (insert_some h).1.symm.trans hold

theorem createRepairRequest_cases (rt : Runtime) (ctl : RepairController F) (t : RepairTables) (a : CreateArgs F) :
    (SameRepairs t (createRepairRequest rt ctl t a).1 ∧
        ∀ task, consumed t task ≤ consumed (createRepairRequest rt ctl t a).1 task) ∨
      ∃ t₂ requests, SameRepairs t t₂ ∧
        (∀ task, consumed t₂ task = consumed t task + if a.taskId = task then 1 else 0) ∧
        t₂.requests.insert (a.request ctl) = some requests ∧
        ((t₂.records.insert (a.record ctl) = none ∧
            (createRepairRequest rt ctl t a).1 = { t₂ with requests := requests }) ∨
          ∃ records, t₂.records.insert (a.record ctl) = some records ∧
            (createRepairRequest rt ctl t a).1 = { t₂ with requests := requests, records := records }) := by
  obtain ⟨hsame,hconsumed,-⟩ := getOrCreateLedger_keeps ctl t a.taskId (some a.runId) a.clockText
  unfold createRepairRequest
  generalize ctl.getOrCreateLedger t a.taskId (some a.runId) a.clockText = found at hsame hconsumed ⊢
  obtain ⟨t₁,o⟩ := found
  cases o with
  | error e => exact .inl ⟨hsame,fun task => (hconsumed task).ge⟩
  | ok row =>
    dsimp only at hsame hconsumed ⊢
    split
    · exact .inl ⟨hsame,fun task => (hconsumed task).ge⟩
    · split
      · exact .inl ⟨hsame,fun task => (hconsumed task).ge⟩
      · split
        · exact .inl ⟨hsame,fun task => (hconsumed task).ge⟩
        · obtain ⟨hsame₂,hcount⟩ := consumeRepairAttempt_counts ctl t₁ a
          generalize consumeRepairAttempt ctl t₁ a = taken at hsame₂ hcount ⊢
          obtain ⟨t₂,o⟩ := taken
          have hmore : ∀ task, consumed t task ≤ consumed t₂ task := by
            intro task
            rw [← hconsumed task]
            exact (hcount task).1
          rcases o with e | reason | ⟨⟩
          · exact .inl ⟨hsame.trans hsame₂,hmore⟩
          · exact .inl ⟨hsame.trans hsame₂,hmore⟩
          · dsimp only [insertRequest]
            split
            · exact .inl ⟨hsame.trans hsame₂,hmore⟩
            · split
              · exact .inl ⟨hsame.trans hsame₂,hmore⟩
              · rename_i requests hrequests
                refine .inr ⟨t₂,requests,hsame.trans hsame₂,fun task => ?_,hrequests,?_⟩
                · rw [(hcount task).2 rfl,hconsumed task]
                · split
                  · rename_i hrecords
                    exact .inl ⟨hrecords,rfl⟩
                  · rename_i records hrecords
                    exact .inr ⟨records,hrecords,rfl⟩

variable (rt ctl) in
theorem createRepairRequest_keeps (h : Sound s) (a : CreateArgs F) :
    Sound ⟨(createRepairRequest rt ctl s.tables a).1,s.verdicts⟩ ∧
      Advances s.tables (createRepairRequest rt ctl s.tables a).1 := by
  rcases createRepairRequest_cases rt ctl s.tables a with ⟨hsame,hmore⟩ | ⟨t₂,requests,hsame,hcount,hrequests,hrest⟩
  · exact ⟨h.of_same hsame hmore rfl,advances_refl hsame.2.1⟩
  · have hsound : Sound ⟨t₂,s.verdicts⟩ := by
      refine h.of_same hsame (fun task => ?_) rfl
      rw [hcount task]
      split <;> omega
    rcases hrest with ⟨hrecords,-⟩ | ⟨records,hrecords,htables⟩
    · -- a record without its request
      exfalso
      cases hr : t₂.records.get (a.requestId ctl) with
      | none =>
        obtain ⟨records,hinsert⟩ := insert_of_new (a := a.record ctl) hr
        cases hrecords.symm.trans hinsert
      | some r =>
        obtain ⟨req,hreq,-⟩ := hsound.paired _ r hr
        cases (insert_some hrequests).1.symm.trans hreq
    · rw [htables]
      refine ⟨hsound.insert hrequests hrecords fun task => ?_,advances_insert (hsame.2.1 ▸ hrecords) rfl⟩
      have hpaid := h.paid task
      rw [hsame.2.1,hcount task]
      omega

variable (rt) in
theorem createRepairRequest_repeated (h : t.requests.get (a.requestId ctl) = some req) :
    ((∃ reason, (createRepairRequest rt ctl t a).2 = .ok ⟨true,some req,reason⟩) ↔ Affordable rt ctl t a) ∧
      ∀ task, consumed (createRepairRequest rt ctl t a).1 task = consumed t task := by
  obtain ⟨hsame,hconsumed,-⟩ := getOrCreateLedger_keeps ctl t a.taskId (some a.runId) a.clockText
  unfold createRepairRequest Affordable
  generalize ctl.getOrCreateLedger t a.taskId (some a.runId) a.clockText = found at hsame hconsumed ⊢
  obtain ⟨t₁,o⟩ := found
  have hget : t₁.requests.get (a.requestId ctl) = some req := hsame.1 ▸ h
  cases o with
  | error e => exact ⟨⟨(by rintro ⟨_,⟨⟩⟩),(by rintro ⟨_,_,⟨⟩,-⟩)⟩,hconsumed⟩
  | ok row =>
    dsimp only at hconsumed ⊢
    cases hevaluated : a.evaluation rt ctl row with
    | error e =>
      refine ⟨⟨(by rintro ⟨_,⟨⟩⟩),?_⟩,hconsumed⟩
      rintro ⟨row',evaluated,hrow,hok,-⟩
      cases hrow
      cases hevaluated.symm.trans hok
    | ok evaluated =>
      dsimp only
      by_cases hallowed : evaluated.allowed = false
      · rw [if_pos hallowed]
        refine ⟨⟨(by rintro ⟨_,⟨⟩⟩),?_⟩,hconsumed⟩
        rintro ⟨row',evaluated',hrow,hok,hallowed'⟩
        cases hrow
        cases hevaluated.symm.trans hok
        rw [hallowed] at hallowed'
        cases hallowed'
      · rw [if_neg hallowed,hget]
        exact ⟨⟨fun _ => ⟨row,evaluated,rfl,hevaluated,by simpa using hallowed⟩,fun _ => ⟨_,rfl⟩⟩,hconsumed⟩

/-! ## Records -/

theorem get_updateRecord {hf : ∀ r, (f r).repairRequestId = r.repairRequestId}
    (k : String) : (t.updateRecord id f hf).records.get k =
      (t.records.get k).map fun r => if r.repairRequestId = id then f r else r := by
  simp only [RepairTables.updateRecord,get_change]

theorem updateRecord_missing
    {hf : ∀ r, (f r).repairRequestId = r.repairRequestId} (h : t.records.get id = none) :
    (t.updateRecord id f hf).records.rows = t.records.rows := by
  refine (map_congr_left ?_).trans (map_id _)
  intro r hr
  refine if_neg ?_
  rintro rfl
  cases (Table.get_of_mem hr).symm.trans h

theorem countP_updateRecord
    {hf : ∀ r, (f r).repairRequestId = r.repairRequestId} (hr : t.records.get id = some r)
    (p : RepairRecord → Bool) :
    (t.updateRecord id f hf).records.rows.countP p + (if p r then 1 else 0) =
      t.records.rows.countP p + if p (f r) then 1 else 0 := by
  simp only [RepairTables.updateRecord]
  exact countP_change hr p

theorem advances_update {hf : ∀ r, (f r).repairRequestId = r.repairRequestId}
    (hstep : ∀ r, t.records.get id = some r → ((f r).stage = r.stage ∨ r.stage.rank < (f r).stage.rank) ∧
      (r.stage.isFinal = true → (f r).stage = r.stage)) : Advances t (t.updateRecord id f hf) := by
  intro k r hr
  refine ⟨_,(get_updateRecord k).trans (congrArg _ hr),?_⟩
  have hkey := key_of_get hr
  dsimp only
  split
  · rename_i hid
    obtain rfl : k = id := hkey.symm.trans hid
    exact hstep r hr
  · exact ⟨.inl rfl,fun _ => rfl⟩

section

variable (hf : ∀ r, (f r).repairRequestId = r.repairRequestId) (h : Sound s)
  (htask : ∀ r, (f r).taskId = r.taskId ∧ (f r).runId = r.runId ∧ (f r).bindingId = r.bindingId ∧ (f r).attemptId = r.attemptId)

include hf h htask

theorem Sound.update
    (hfinal : ∀ r, s.tables.records.get id = some r → r.stage.isFinal = true → (f r).stage = r.stage) :
    Sound ⟨s.tables.updateRecord id f hf,s.verdicts⟩ := by
  have hpaired : ∀ k r, (s.tables.updateRecord id f hf).records.get k = some r →
      ∃ old, s.tables.records.get k = some old ∧ r.taskId = old.taskId ∧ r.runId = old.runId := by
    intro k r hr
    rw [get_updateRecord] at hr
    obtain ⟨old,hold,rfl⟩ := map_eq_some_iff.mp hr
    refine ⟨old,hold,?_⟩
    split
    · exact ⟨(htask old).1,(htask old).2.1⟩
    · exact ⟨rfl,rfl⟩
  have hcount : ∀ p : RepairRecord → Bool, (∀ r, s.tables.records.get id = some r → p r = true → p (f r) = true) →
      s.tables.records.rows.countP p ≤ (s.tables.updateRecord id f hf).records.rows.countP p := by
    intro p hp
    cases hr : s.tables.records.get id with
    | none => exact (congrArg _ (updateRecord_missing hr)).ge
    | some r =>
      have hsum : (s.tables.updateRecord id f hf).records.rows.countP p + (if p r then 1 else 0) =
          s.tables.records.rows.countP p + if p (f r) then 1 else 0 := countP_updateRecord hr p
      have hr' := hp r hr
      cases hpr : p r with
      | true => simp only [hpr,hr' hpr,if_true] at hsum; omega
      | false => simp only [hpr,Bool.false_eq_true,if_false] at hsum; omega
  refine ⟨?_,?_,?_,?_,?_⟩
  · intro k r hr
    obtain ⟨old,hold,hsame⟩ := hpaired k r hr
    obtain ⟨req,hreq,hold'⟩ := h.paired k old hold
    exact ⟨req,hreq,hold'.1.trans hsame.1.symm,hold'.2.trans hsame.2.symm⟩
  · intro k req hreq
    obtain ⟨r,hr⟩ := h.noted k req hreq
    refine ⟨if r.repairRequestId = id then f r else r,?_⟩
    rw [get_updateRecord k,hr]
    rfl
  · intro task
    refine (h.ended task).trans (hcount _ fun r hr hjudged => ?_)
    obtain ⟨hrtask,hrfinal⟩ := Bool.and_eq_true .. ▸ hjudged
    unfold judged
    rw [(htask r).1,hfinal r hr hrfinal]
    exact hjudged
  · intro task
    have hsame : (s.tables.updateRecord id f hf).records.rows.countP (fun r => r.taskId = task) =
        s.tables.records.rows.countP (fun r => r.taskId = task) := by
      refine countP_map.trans (countP_congr fun r _ => ?_)
      dsimp only [Function.comp_apply]
      split
      · rw [(htask r).1]
      · exact Iff.rfl
    rw [hsame]
    exact h.paid task
  · intro row hrow
    obtain ⟨r,hr,hstage,hsame⟩ := h.acceptedByRepair row hrow
    refine ⟨_,mem_map_of_mem hr,?_⟩
    split
    · rename_i hid
      have hget : s.tables.records.get id = some r := hid ▸ Table.get_of_mem hr
      refine ⟨(hfinal r hget (by simp [RepairStage.isFinal,hstage])).trans hstage,?_⟩
      rw [(htask r).1,(htask r).2.1,(htask r).2.2.1,(htask r).2.2.2]
      exact hsame
    · exact ⟨hstage,hsame⟩

theorem Sound.verdict
    (hr : s.tables.records.get id = some r) (hready : r.stage.isFinal = false) (hfinal : (f r).stage.isFinal = true) :
    Sound ⟨s.tables.updateRecord id f hf,s.verdicts ++ [r.taskId]⟩ := by
  have hkept := h.update hf htask (fun r' hr' hfinal' => by
    cases hr.symm.trans hr'
    rw [hready] at hfinal'
    cases hfinal')
  refine ⟨hkept.paired,hkept.noted,fun task => ?_,hkept.paid,hkept.acceptedByRepair⟩
  have hsum : (s.tables.updateRecord id f hf).records.rows.countP (judged task) + (if judged task r then 1 else 0) =
      s.tables.records.rows.countP (judged task) + if judged task (f r) then 1 else 0 := countP_updateRecord hr _
  have hbefore : judged task r = false := by
    unfold judged
    rw [hready,Bool.and_false]
  have hafter : judged task (f r) = decide (r.taskId = task) := by
    unfold judged
    rw [hfinal,Bool.and_true,(htask r).1]
  have hended := h.ended task
  rw [hbefore,hafter] at hsum
  rw [count_append,count_singleton]
  by_cases hid : r.taskId = task
  · simp only [hid,decide_true,if_true,Bool.false_eq_true,if_false,beq_self_eq_true] at hsum ⊢
    omega
  · simp only [hid,decide_false,Bool.false_eq_true,if_false,beq_eq_false_iff_ne.mpr hid] at hsum ⊢
    omega

end

/-! ## Calls -/

theorem applyRepairEffect_cases (rt : Runtime) (t : RepairTables) (a : ApplyArgs) :
    (applyRepairEffect rt t a).1 = t ∨
      ∃ req, t.requests.get a.repairRequestId = some req ∧
        req.scopeEnvelope.validateMutation rt a.changedPaths = .ok () ∧
        (applyRepairEffect rt t a).1 = t.updateRecord a.repairRequestId (·.withEffect a) fun _ => rfl := by
  unfold applyRepairEffect
  split
  · exact .inl rfl
  · rename_i req hreq
    split
    · exact .inl rfl
    · rename_i hscope
      exact .inr ⟨req,hreq,hscope,rfl⟩

theorem markReadyForRetest_cases (t : RepairTables) (id clockText : String) :
    (markReadyForRetest t id clockText).1 = t ∨
      ∃ r, t.records.get id = some r ∧ r.stage = .effectApplied ∧ (markReadyForRetest t id clockText).1 =
        t.updateRecord id (fun r => { r with stage := .readyForRetest, updatedAt := clockText }) fun _ => rfl := by
  unfold markReadyForRetest
  split
  · exact .inl rfl
  · rename_i r hr
    split
    · exact .inl rfl
    · rename_i hstage
      exact .inr ⟨r,hr,not_not.mp hstage,rfl⟩

theorem recordPass_cases (projectId : String) (t : RepairTables) (req : RepairRequest) (r : RepairRecord)
    (digest clockText : String) :
    recordPass projectId t req r digest clockText = told t false "duplicate_acceptance_rejected" ∨
      ∃ accepted, t.accepted.insert (acceptance projectId req r digest clockText) = some accepted ∧
        recordPass projectId t req r digest clockText =
          told ({ t with accepted := accepted }.updateRecord req.repairRequestId
            (·.withVerdict .accepted "PASS" digest clockText) fun _ => rfl) true "accepted" := by
  unfold recordPass
  dsimp only
  split
  · exact .inl rfl
  · split
    · exact .inl rfl
    · rename_i accepted haccepted
      exact .inr ⟨accepted,haccepted,rfl⟩

omit [Floats F] in
theorem executeExactRetest_cases (projectId : String) (t : RepairTables) (a : RetestArgs) :
    ((executeExactRetest projectId t a).1 = t ∧
        RepairWorld.recorded (F := F) t (.executeExactRetest a) (executeExactRetest projectId t a).2 = []) ∨
      ∃ req r, t.requests.get a.repairRequestId = some req ∧ t.records.get a.repairRequestId = some r ∧
        r.stage = .readyForRetest ∧
        RepairWorld.recorded (F := F) t (.executeExactRetest a) (executeExactRetest projectId t a).2 = [req.taskId] ∧
        ((∃ digest, (executeExactRetest projectId t a).1 = t.updateRecord a.repairRequestId
            (·.withVerdict .repairFailed "FAIL" digest a.clockText) fun _ => rfl) ∨
          ∃ digest accepted, t.accepted.insert (acceptance projectId req r digest a.clockText) = some accepted ∧
            (executeExactRetest projectId t a).1 = { t with accepted := accepted }.updateRecord req.repairRequestId
              (·.withVerdict .accepted "PASS" digest a.clockText) fun _ => rfl) := by
  unfold executeExactRetest
  split
  · exact .inl ⟨rfl,rfl⟩
  · rename_i req hreq
    split
    · exact .inl ⟨rfl,rfl⟩
    · rename_i r hr
      split
      · exact .inl ⟨rfl,rfl⟩
      · rename_i hstage
        split
        · exact .inl ⟨rfl,rfl⟩
        · rename_i result _
          split
          · exact .inl ⟨rfl,rfl⟩
          · split
            · exact .inl ⟨rfl,rfl⟩
            · split
              · rcases recordPass_cases projectId t req r result.evidenceDigest a.clockText with
                  hpass | ⟨accepted,haccepted,hpass⟩
                · exact .inl (by rw [hpass]; exact ⟨rfl,rfl⟩)
                · rw [hpass]
                  exact .inr ⟨req,r,hreq,hr,not_not.mp hstage,by simp [RepairWorld.recorded,told,hreq],
                    .inr ⟨_,accepted,haccepted,rfl⟩⟩
              · exact .inr ⟨req,r,hreq,hr,not_not.mp hstage,by simp [RepairWorld.recorded,told,hreq],.inl ⟨_,rfl⟩⟩

/-! ## One call -/

variable {s : RepairWorld}

theorem applyRepairEffect_keeps (h : Sound s) (a : ApplyArgs)
    (horder : InOrder rt ctl s (.applyRepairEffect a)) :
    Sound ⟨(applyRepairEffect rt s.tables a).1,s.verdicts⟩ ∧ Advances s.tables (applyRepairEffect rt s.tables a).1 := by
  rcases applyRepairEffect_cases rt s.tables a with hsame | ⟨req,hreq,hscope,htables⟩
  · rw [hsame]
    exact ⟨h,advances_refl rfl⟩
  · rw [htables]
    have hstage : ∀ r, s.tables.records.get a.repairRequestId = some r →
        r.stage = .intentRecorded ∨ r.stage = .effectApplied := fun r hr => horder req r hreq hr hscope
    constructor
    · refine h.update _ (fun r => ⟨rfl,rfl,rfl,rfl⟩) fun r hr hfinal => ?_
      rcases hstage r hr with hr' | hr' <;> simp [hr',RepairStage.isFinal] at hfinal
    · refine advances_update fun r hr => ?_
      rcases hstage r hr with hr' | hr' <;> simp [hr',RepairRecord.withEffect,RepairStage.rank,RepairStage.isFinal]

theorem markReadyForRetest_keeps (h : Sound s) (id clockText : String) :
    Sound ⟨(markReadyForRetest s.tables id clockText).1,s.verdicts⟩ ∧
      Advances s.tables (markReadyForRetest s.tables id clockText).1 := by
  rcases markReadyForRetest_cases s.tables id clockText with hsame | ⟨r,hr,hstage,htables⟩
  · rw [hsame]
    exact ⟨h,advances_refl rfl⟩
  · rw [htables]
    constructor
    · refine h.update _ (fun r => ⟨rfl,rfl,rfl,rfl⟩) fun r' hr' hfinal => ?_
      cases hr.symm.trans hr'
      simp [hstage,RepairStage.isFinal] at hfinal
    · refine advances_update fun r' hr' => ?_
      cases hr.symm.trans hr'
      simp [hstage,RepairStage.rank,RepairStage.isFinal]

theorem advances_verdict {status digest clockText : String} {stage : RepairStage}
    (hr : t.records.get id = some r) (hready : r.stage = .readyForRetest) (hfinal : stage.isFinal = true) :
    Advances t (t.updateRecord id (·.withVerdict stage status digest clockText) fun _ => rfl) := by
  refine advances_update fun r' hr' => ?_
  cases hr.symm.trans hr'
  cases stage with
  | accepted | repairFailed => simp [hready,RepairRecord.withVerdict,RepairStage.rank,RepairStage.isFinal]
  | _ => cases hfinal

theorem Sound.accept {projectId digest clockText : String}
    {accepted : Table AcceptedRepairResult (·.taskId)} (h : Sound s) (hr : s.tables.records.get req.repairRequestId = some r)
    (hready : r.stage = .readyForRetest) (htask : req.taskId = r.taskId) (hrun : req.runId = r.runId)
    (haccepted : s.tables.accepted.insert (acceptance projectId req r digest clockText) = some accepted) :
    Sound ⟨{ s.tables with accepted := accepted }.updateRecord req.repairRequestId
      (·.withVerdict .accepted "PASS" digest clockText) fun _ => rfl,s.verdicts ++ [r.taskId]⟩ := by
  have hended := h.verdict (f := (·.withVerdict .accepted "PASS" digest clockText)) (fun _ => rfl)
    (fun _ => ⟨rfl,rfl,rfl,rfl⟩) hr (by simp [hready,RepairStage.isFinal]) (by rfl)
  refine ⟨hended.paired,hended.noted,hended.ended,hended.paid,fun row hrow => ?_⟩
  rcases (mem_insert haccepted).mp hrow with hold | rfl
  · exact hended.acceptedByRepair row hold
  · refine ⟨_,mem_map_of_mem (get_eq_some.mp hr).1,?_⟩
    rw [if_pos (key_of_get hr)]
    exact ⟨rfl,htask.symm,hrun.symm,rfl,rfl⟩

theorem executeExactRetest_keeps (h : Sound s) (a : RetestArgs) :
    Sound (next rt ctl s (.executeExactRetest a)) ∧ Advances s.tables (next rt ctl s (.executeExactRetest a)).tables := by
  unfold RepairWorld.next RepairCall.perform
  rcases executeExactRetest_cases (F := F) ctl.projectId s.tables a with
    ⟨hsame,hnone⟩ | ⟨req,r,hreq,hr,hready,hone,htables⟩
  · rw [hsame,hnone,append_nil]
    exact ⟨h,advances_refl rfl⟩
  · obtain ⟨req',hreq',htask,hrun⟩ := h.paired _ r hr
    cases hreq.symm.trans hreq'
    have hid : req.repairRequestId = a.repairRequestId := key_of_get hreq
    have hopen : r.stage.isFinal = false := by simp [hready,RepairStage.isFinal]
    rw [hone,htask]
    rcases htables with ⟨digest,htables⟩ | ⟨digest,accepted,haccepted,htables⟩
    · rw [htables]
      exact ⟨h.verdict _ (fun _ => ⟨rfl,rfl,rfl,rfl⟩) hr hopen rfl,advances_verdict hr hready rfl⟩
    · rw [htables]
      exact ⟨h.accept (hid ▸ hr) hready htask hrun haccepted,
        advances_verdict (t := { s.tables with accepted := accepted }) (hid ▸ hr) hready rfl⟩

theorem next_keeps (h : Sound s) (call : RepairCall F) (horder : InOrder rt ctl s call) :
    Sound (next rt ctl s call) ∧ Advances s.tables (next rt ctl s call).tables := by
  have hnone : ∀ o, (∀ a, call ≠ .executeExactRetest a) → RepairWorld.recorded s.tables call o = [] := by
    intro o hcall
    cases call with
    | executeExactRetest a => exact absurd rfl (hcall a)
    | _ => rfl
  cases call with
  | createRepairRequest a =>
    have hkeeps := createRepairRequest_keeps rt ctl h a
    unfold RepairWorld.next
    rw [hnone _ (by rintro _ ⟨⟩),append_nil]
    exact hkeeps
  | applyRepairEffect a =>
    have hkeeps := applyRepairEffect_keeps h a horder
    unfold RepairWorld.next
    rw [hnone _ (by rintro _ ⟨⟩),append_nil]
    exact hkeeps
  | markReadyForRetest id clockText =>
    have hkeeps := markReadyForRetest_keeps h id clockText
    unfold RepairWorld.next
    rw [hnone _ (by rintro _ ⟨⟩),append_nil]
    exact hkeeps
  | executeExactRetest a => exact executeExactRetest_keeps h a

theorem disciplined_iff (h : Sound s) (call : RepairCall F) : Disciplined rt ctl s call ↔ InOrder rt ctl s call := by
  constructor
  · intro hcall
    cases call with
    | createRepairRequest a =>
      intro hknown
      obtain ⟨req,hreq⟩ := isSome_iff_exists.mp hknown
      exact (createRepairRequest_repeated rt hreq).1.mp (hcall.repeated a req rfl hreq).1
    | applyRepairEffect a =>
      intro req r hreq hr hscope
      obtain ⟨r',hr',hforward,-⟩ := hcall.advances _ r hr
      have htables : (next rt ctl s (.applyRepairEffect a)).tables =
          s.tables.updateRecord a.repairRequestId (·.withEffect a) fun _ => rfl := by
        change (applyRepairEffect rt s.tables a).1 = _
        unfold applyRepairEffect
        rw [hreq]
        dsimp only
        rw [hscope]
        rfl
      rw [htables] at hr'
      have hafter := (get_updateRecord a.repairRequestId).symm.trans hr'
      rw [hr,map_some,if_pos (key_of_get hr)] at hafter
      cases hafter
      revert hforward
      cases r.stage <;> simp [RepairRecord.withEffect,RepairStage.rank]
    | markReadyForRetest id clockText | executeExactRetest a => exact trivial
  · intro horder
    obtain ⟨hsound,hadvances⟩ := next_keeps h call horder
    refine ⟨hadvances,oneAcceptance _,hsound.acceptedByRepair,hsound.verdicts_paid,?_⟩
    rintro a req rfl hreq
    obtain ⟨hfound,hconsumed⟩ := createRepairRequest_repeated rt hreq
    exact ⟨hfound.mpr (horder (isSome_iff_exists.mpr ⟨req,hreq⟩)),hconsumed⟩

/-! ## Runs -/

/-- The calls of a run are disciplined exactly when they come in order. -/
theorem repair_disciplined_iff (rt : Runtime) (ctl : RepairController F) (calls : List (RepairCall F)) :
    Along (next rt ctl) (Disciplined rt ctl) .empty calls ↔ Along (next rt ctl) (InOrder rt ctl) .empty calls :=
  along_congr (fun _ call h => disciplined_iff h call) (fun _ call h horder => (next_keeps h call horder).1) empty_sound

/-! ## A repair sent back -/

def repairRuntime : Runtime where
  upperTable := fun c => [c]
  lowerTable := fun c => [c]
  repr := fun _ => ""
  fromIsoFormat := fun _ => none
  sha256 := fun _ => ""

def sampleRepairController : RepairController ℤ := ⟨"p1",⟨⟨3,[2,10,30],0⟩,2,4,3600⟩⟩

def sampleCreate : CreateArgs ℤ where
  runId := "r1"
  taskId := "T1"
  failedBindingId := "b1"
  failedAttemptId := none
  fingerprint := ⟨"fp1:0",.projectRepairable,"RULE_EXPLICIT",[]⟩
  classification := .projectRepairable
  evidenceDigest := "sha256:0"
  scopeEnvelope := ⟨["src"],[],10⟩
  expectedSourceHead := "h0"
  expectedSourceTree := "t0"
  retestSelector := ⟨"pytest","tests/a.py","v1",[]⟩
  currentBindingGeneration := 1
  now := 0
  clockText := "0"

def sampleRepairId : String := sampleCreate.requestId sampleRepairController

def sampleApply : RepairCall ℤ := .applyRepairEffect ⟨sampleRepairId,["src/a.py"],"h1","1"⟩

/-- The effect is applied once more after the retest has passed. -/
def sentBack : List (RepairCall ℤ) :=
  [.createRepairRequest sampleCreate,sampleApply,.markReadyForRetest sampleRepairId "2",
    .executeExactRetest ⟨sampleRepairId,fun _ => .ok ⟨"v1","tests/a.py","PASS","sha256:1"⟩,"3"⟩]

def stageOf (s : RepairWorld) : Option RepairStage := (s.tables.records.get sampleRepairId).map (·.stage)

theorem effect_after_acceptance :
    ¬ Along (next repairRuntime sampleRepairController) (Disciplined repairRuntime sampleRepairController) .empty
      (sentBack ++ [sampleApply]) := by
  intro h
  have hlast := ((along_append.mp h).2).1
  have hbefore : stageOf (sentBack.foldl (next repairRuntime sampleRepairController) .empty) = some .accepted := by
    decide +kernel
  have hafter : stageOf (next repairRuntime sampleRepairController
      (sentBack.foldl (next repairRuntime sampleRepairController) .empty) sampleApply) = some .effectApplied := by
    decide +kernel
  obtain ⟨r,hr,hstage⟩ := map_eq_some_iff.mp hbefore
  obtain ⟨r',hr',-,hfinal⟩ := hlast.advances sampleRepairId r hr
  have hkept := hfinal (by simp [hstage,RepairStage.isFinal])
  unfold stageOf at hafter
  rw [hr',map_some,hkept,hstage] at hafter
  cases hafter

end Bdb.Recovery
