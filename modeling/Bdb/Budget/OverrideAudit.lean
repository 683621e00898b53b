import Bdb.Base.Sha256
import Bdb.Budget.Overrides

/-! # Every change of a counter is accounted for

A committed change of the counters of a task is a consumption or has one audit row with the
value before and the value after. This holds in every run whose overrides can be recorded
as they are applied. An override that cannot is left pending by its error and committed
later without a row.
-/
namespace Bdb.Budget

open Step Table

/-! ## Counters -/

structure Counters where
  transient : Int
  total : Int
  counts : Dict Json

def LedgerRow.counters (row : LedgerRow) : Counters :=
  ⟨row.transientRetryCount,row.totalRepairCount,row.fingerprintCounts⟩

def Books.counters (b : Books) (taskId : String) : Counters :=
  ((b.ledgers.get taskId).map LedgerRow.counters).getD ⟨0,0,∅⟩

/-- A recorded value that is this number. -/
def Recorded.IsCount (r : Recorded) (n : Int) : Prop :=
  match r with
  | .json (.int m) => m = n
  | .json (.bool b) => (if b then 1 else 0) = n
  | .float _ (some (m,whole)) => whole = true ∧ m = n
  | _ => False

def Recorded.IsDocument (r : Recorded) (k : Counters) : Prop :=
  ∃ fields, r = .json (.obj fields) ∧ ("transient_retry_count",.int k.transient) ∈ fields ∧
    ("total_repair_count",.int k.total) ∈ fields ∧ ("fingerprint_counts",dictJson k.counts) ∈ fields

def Holds (budget : String) (r : Recorded) (k : Counters) : Prop :=
  if budget = "transient_retry_count" then r.IsCount k.transient
  else if budget = "total_repair_count" then r.IsCount k.total
  else if budget = "same_fingerprint_count" then r = .json (dictJson k.counts)
  else budget = "all" ∧ r.IsDocument k

/-- The counters that a budget does not name are as they were. -/
structure OthersKept (budget : String) (k k' : Counters) : Prop where
  transient : budget ≠ "transient_retry_count" → budget ≠ "all" → k'.transient = k.transient
  total : budget ≠ "total_repair_count" → budget ≠ "all" → k'.total = k.total
  counts : budget ≠ "same_fingerprint_count" → budget ≠ "all" → k'.counts = k.counts

/-- One retry, or one repair of one fingerprint. -/
def Consumption (k k' : Counters) : Prop :=
  k' = { k with transient := k.transient + 1 } ∨
    ∃ fingerprint n, countOf (k.counts.get fingerprint (.int 0)) = .ok n ∧
      k' = { k with total := k.total + 1, counts := k.counts.insert fingerprint (.int (n + 1)) }

/-- What one operation may commit. -/
inductive Accounted (b b' : Books) : Prop
  | unchanged (hrows : b'.overrides.rows = b.overrides.rows) (hall : ∀ t, b'.counters t = b.counters t)
  | consumed (taskId : String) (hrows : b'.overrides.rows = b.overrides.rows)
      (hthis : Consumption (b.counters taskId) (b'.counters taskId))
      (hothers : ∀ t, t ≠ taskId → b'.counters t = b.counters t)
  | overridden (o : BudgetOverride) (hrows : b'.overrides.rows = b.overrides.rows ++ [o])
      (hbefore : Holds o.affectedBudget (.json o.previousValue) (b.counters o.taskId))
      (hafter : Holds o.affectedBudget o.newValue (b'.counters o.taskId))
      (hkept : OthersKept o.affectedBudget (b.counters o.taskId) (b'.counters o.taskId))
      (hothers : ∀ t, t ≠ o.taskId → b'.counters t = b.counters t)

/-! ## The condition -/

variable (intOfText : String → Option Int) (rt : Runtime) (projectId : String) (policy : FailureBudgetPolicy)

/-- The arguments convert to what the column of the budget takes. -/
def Applies (budget : String) (value : NewValue) : Prop :=
  if budget = "transient_retry_count" ∨ budget = "total_repair_count" then
    ∃ n, value.toInt intOfText = .ok n ∧ -2 ^ 63 ≤ n ∧ n < 2 ^ 63
  else if budget = "same_fingerprint_count" then ∃ d, value.counts = .ok d
  else budget = "all"

def ResetDocument (d : Dict Json) : Prop :=
  d.lookup "transient_retry_count" = some (.int 0) ∧ d.lookup "total_repair_count" = some (.int 0) ∧
    d.lookup "fingerprint_counts" = some (.obj [])

/-- A count is given as a whole number, counts as a dictionary, and a reset of all budgets
as the document of the reset counters. -/
def Recordable (budget : String) : NewValue → Prop
  | .plain (.int _) _ => budget = "transient_retry_count" ∨ budget = "total_repair_count"
  | .plain (.bool _) _ => budget = "transient_retry_count" ∨ budget = "total_repair_count"
  | .float _ (some (_,true)) => budget = "transient_retry_count" ∨ budget = "total_repair_count"
  | .dict d => budget = "same_fingerprint_count" ∨ budget = "all" ∧ ResetDocument d
  | .mixedKeys d => budget = "all" ∧ ResetDocument d
  | _ => False

/-- An override whose arguments convert can be recorded, and its identity is new. One whose
arguments do not convert meets a task that has a ledger. -/
def Clean (s : Connection) : LedgerOperation → Prop
  | .call _ => True
  | .recordManualOverride c a => ∀ actor budget reason, a.texts = .ok (actor,budget,reason) →
      (∀ now, a.now = .ok now → Applies intOfText budget a.newValue →
        Recordable budget a.newValue ∧ s.working.overrides.get (overrideIdOf rt projectId c.taskId now budget) = none) ∧
      (s.working.ledgers.get c.taskId = none → (∃ now, a.now = .ok now) ∧ Applies intOfText budget a.newValue)

/-! ## One ledger -/

variable {s s' : Connection} {c : Creation} {row : LedgerRow} {f : Failure} {b : Books} {intOfText rt projectId policy}

/-- Nothing is pending. -/
def Connection.Settled (s : Connection) : Prop := s.working = s.committed

theorem counters_of_get {taskId : String} (h : b.ledgers.get taskId = some row) : b.counters taskId = row.counters := by
  unfold Books.counters
  rw [h]
  rfl

/-- A ledger was found, or an empty one was opened. -/
structure Opened (s : Connection) (c : Creation) (s' : Connection) (row : LedgerRow) : Prop where
  overrides : s'.working.overrides = s.working.overrides
  counters : ∀ t, s'.working.counters t = s.working.counters t
  found : s'.working.ledgers.get c.taskId = some row
  settled : s'.Settled
  same : s.working.ledgers.get c.taskId ≠ none → s' = s

theorem getOrCreateLedger_error (h : s.getOrCreateLedger c = (s',.error f)) : s' = s := by
  unfold Connection.getOrCreateLedger at h
  split at h
  · cases h
  · split at h
    · cases h
      rfl
    · split at h
      · cases h
      · cases h
        rfl

theorem getOrCreateLedger_ok (hs : s.Settled) (h : s.getOrCreateLedger c = (s',.ok row)) : Opened s c s' row := by
  unfold Connection.getOrCreateLedger at h
  split at h
  · rename_i hfound
    cases h
    exact ⟨rfl,fun _ => rfl,hfound,hs,fun _ => rfl⟩
  · rename_i hmissing
    split at h
    · cases h
    · split at h
      · rename_i ledgers hinsert
        cases h
        have hget := get_insert hinsert
        refine ⟨rfl,?_,?_,rfl,fun hfound => absurd hmissing hfound⟩
        · intro t
          -- a fresh row counts what a missing one counts
          unfold Books.counters
          change ((ledgers.get t).map _).getD _ = _
          rw [hget t]
          split
          · rename_i ht
            rw [← ht,show s.working.ledgers.get c.row.taskId = none from hmissing]
            rfl
          · rfl
        · exact (hget c.taskId).trans (if_pos rfl)
      · cases h

theorem counters_writeLedger {row' : LedgerRow} (hopened : Opened s c s' row) (hkey : row'.taskId = row.taskId) (t : String) :
    (s'.writeLedger row').working.counters t = if t = c.taskId then row'.counters else s.working.counters t := by
  have htask : row'.taskId = c.taskId := hkey.trans (key_of_get hopened.found)
  have hfound : s'.working.ledgers.get row'.taskId = some row := htask ▸ hopened.found
  have hget := get_put hfound t
  unfold Books.counters Connection.writeLedger
  change ((Table.get (Table.put _ row') t).map _).getD _ = _
  rw [hget,htask]
  by_cases ht : t = c.taskId
  · rw [if_pos ht,if_pos ht.symm]
    rfl
  · rw [if_neg ht,if_neg (Ne.symm ht)]
    exact hopened.counters t

theorem Opened.counters_row (hopened : Opened s c s' row) (hs : s.Settled) : s.committed.counters c.taskId = row.counters := by
  rw [← hs,← hopened.counters,counters_of_get hopened.found]

/-! ## Consumptions and observations -/

/-- A step leaves nothing pending and commits only what is accounted for. -/
structure Sound (s t : Connection) : Prop where
  settled : t.Settled
  accounted : Accounted s.committed t.committed

theorem Opened.sound (hopened : Opened s c s' row) (hs : s.Settled) : Sound s s' := by
  refine ⟨hopened.settled,.unchanged ?_ ?_⟩
  · rw [← hopened.settled,← hs,hopened.overrides]
  · intro t
    rw [← hopened.settled,← hs,hopened.counters]

theorem sound_self (hs : s.Settled) : Sound s s := ⟨hs,.unchanged rfl fun _ => rfl⟩

theorem onLedger_sound {k : Connection → LedgerRow → Connection × Outcome Unit} (hs : s.Settled)
    (hk : ∀ s' row, Opened s c s' row → Sound s (k s' row).1) : Sound s (s.onLedger c k).1 := by
  unfold Connection.onLedger
  split
  · rename_i t e he
    rw [getOrCreateLedger_error he]
    exact sound_self hs
  · rename_i t row hrow
    exact hk t row (getOrCreateLedger_ok hs hrow)

theorem write_sound {row' : LedgerRow} (hopened : Opened s c s' row) (hs : s.Settled) (hkey : row'.taskId = row.taskId)
    (h : row'.counters = row.counters ∨ Consumption row.counters row'.counters) :
    Sound s (s'.writeLedger row').commit := by
  have hwritten := counters_writeLedger hopened hkey
  have hrows : (s'.writeLedger row').working.overrides.rows = s.committed.overrides.rows := by
    rw [← hs,← hopened.overrides]
    rfl
  refine ⟨rfl,?_⟩
  rcases h with hsame | hone
  · refine .unchanged hrows fun t => ?_
    refine (hwritten t).trans ?_
    split
    · rename_i ht
      rw [hsame,ht,hopened.counters_row hs]
    · rw [hs]
  · refine .consumed c.taskId hrows ?_ ?_
    · rw [hopened.counters_row hs]
      exact ((hwritten c.taskId).trans (if_pos rfl)) ▸ hone
    · intro t ht
      rw [← hs]
      exact (hwritten t).trans (if_neg ht)

theorem settle_sound {α : Type} {body : Step BudgetEvaluationResult α} {apply : α → LedgerRow} (hopened : Opened s c s' row)
    (hs : s.Settled) (h : ∀ u, body = .ok u → (apply u).taskId = row.taskId ∧ Consumption row.counters (apply u).counters) :
    Sound s (s'.settle body apply).1 := by
  unfold Connection.settle
  split
  · rename_i u
    obtain ⟨hkey,hone⟩ := h u rfl
    exact write_sound hopened hs hkey (.inr hone)
  all_goals exact hopened.sound hs

theorem observe_sound {fingerprint : String} {now : Outcome String} (hopened : Opened s c s' row) (hs : s.Settled) :
    Sound s (s'.observe row fingerprint now).1 := by
  unfold Connection.observe
  split
  · exact hopened.sound hs
  · split
    · exact write_sound hopened hs rfl (.inl rfl)
    · exact hopened.sound hs

theorem call_sound (hs : s.Settled) (k : LedgerCall) : Sound s (s.call policy k).1 := by
  cases k with
  | evaluateFailure c => exact onLedger_sound hs fun s' row hopened => hopened.sound hs
  | recordFailureObservation c fingerprint now =>
    exact onLedger_sound hs fun s' row hopened => observe_sound hopened hs
  | consumeTransientRetry c now =>
    refine onLedger_sound hs fun s' row hopened => settle_sound hopened hs ?_
    intro u hu
    obtain ⟨-,hcount⟩ := transientUpdate_ok hu
    refine ⟨rfl,.inl ?_⟩
    rw [LedgerRow.counters,LedgerRow.counters,TransientUpdate.apply,hcount]
  | consumeRepairAttempt c fingerprint now =>
    refine onLedger_sound hs fun s' row hopened => settle_sound hopened hs ?_
    intro u hu
    obtain ⟨-,stored,hstored,-,-,htotal,hcounts⟩ := repairUpdate_ok hu
    refine ⟨rfl,.inr ⟨u.fingerprint,stored,hstored,?_⟩⟩
    rw [LedgerRow.counters,LedgerRow.counters,RepairUpdate.apply,htotal,hcounts]

/-! ## Overrides -/

section Override

variable {row' : LedgerRow} {budget now : String} {value : NewValue} {previous : Json}

/-- What the update of an override does to the counters. -/
structure Updated (budget : String) (value : NewValue) (row row' : LedgerRow) (previous : Json) : Prop where
  task : row'.taskId = row.taskId
  before : Holds budget (.json previous) row.counters
  kept : OthersKept budget row.counters row'.counters
  after : Recordable budget value → ∃ r, value.dumps = .ok r ∧ Holds budget r row'.counters

theorem recordable_count (hbudget : budget = "transient_retry_count" ∨ budget = "total_repair_count") {n : Int}
    (hn : value.toInt intOfText = .ok n) (h : Recordable budget value) : ∃ r, value.dumps = .ok r ∧ r.IsCount n := by
  have hother : ¬ budget = "same_fingerprint_count" ∧ ¬ budget = "all" := by
    rcases hbudget with rfl | rfl
    · decide
    · decide
  cases value with
  | dict d => exact absurd h (by simp [Recordable,hother])
  | plain j hj =>
    refine ⟨.json j,rfl,?_⟩
    cases j with
    | int m =>
      cases hn
      rfl
    | bool b =>
      cases hn
      rfl
    | _ => exact absurd h id
  | float text v =>
    refine ⟨.float text v,rfl,?_⟩
    match v, h with
    | some (m,true), _ =>
      cases hn
      exact ⟨rfl,rfl⟩
  | mixedKeys d => exact absurd h.1 hother.2
  | unserialisable d n => exact absurd h id

theorem recordable_counts {d : Dict Json} (hd : value.counts = .ok d) (h : Recordable "same_fingerprint_count" value) :
    value.dumps = .ok (.json (dictJson d)) := by
  cases value with
  | dict d' =>
    cases hd
    rfl
  | plain j hj =>
    cases j with
    | int m => simp [Recordable] at h
    | bool b => simp [Recordable] at h
    | _ => exact absurd h id
  | float text v =>
    match v, h with
    | some (m,true), h => simp [Recordable] at h
  | mixedKeys d' => simp [Recordable] at h
  | unserialisable d' n => exact absurd h id

theorem mem_dictJson {d : Dict Json} {k : String} {v : Json} (h : d.lookup k = some v) :
    (k,v) ∈ d.entries.map (fun e => (e.1,e.2)) := by
  refine List.mem_map.mpr ⟨⟨k,v⟩,?_,rfl⟩
  exact List.of_mem_dlookup h

theorem ResetDocument.isDocument {d : Dict Json} (h : ResetDocument d) :
    Recorded.IsDocument (.json (dictJson d)) ⟨0,0,∅⟩ :=
  ⟨_,rfl,mem_dictJson h.1,mem_dictJson h.2.1,mem_dictJson h.2.2⟩

theorem recordable_all (h : Recordable "all" value) :
    ∃ r, value.dumps = .ok r ∧ r.IsDocument ⟨0,0,∅⟩ := by
  cases value with
  | dict d =>
    have hreset : ResetDocument d := by simpa [Recordable] using h
    exact ⟨_,rfl,hreset.isDocument⟩
  | plain j hj =>
    cases j with
    | int m => simp [Recordable] at h
    | bool b => simp [Recordable] at h
    | _ => exact absurd h id
  | float text v =>
    match v, h with
    | some (m,true), h => simp [Recordable] at h
  | mixedKeys d => exact ⟨_,rfl,ResetDocument.isDocument h.2⟩
  | unserialisable d n => exact absurd h id

theorem allBudgets_isDocument (k : Counters) (status : String) :
    Recorded.IsDocument (.json (allBudgets k.transient k.total k.counts status)) k :=
  ⟨_,rfl,by simp,by simp,by simp⟩

theorem columnInt_ok {n m : Int} (h : columnInt n = .ok m) : m = n ∧ -2 ^ 63 ≤ n ∧ n < 2 ^ 63 := by
  obtain ⟨hrange,h⟩ := of_require h
  exact ⟨(pure_ok.mp h).symm,hrange⟩

theorem overrideUpdate_ok (h : overrideUpdate intOfText row budget value now = .ok (row',previous)) :
    Applies intOfText budget value ∧ Updated budget value row row' previous := by
  unfold overrideUpdate at h
  split at h
  · rename_i hbudget
    subst hbudget
    obtain ⟨n,hn,h⟩ := bind_ok.mp h
    obtain ⟨m,hm,hrow⟩ := bind_ok.mp h
    obtain ⟨rfl,hrange⟩ := columnInt_ok hm
    cases pure_ok.mp hrow
    refine ⟨⟨m,hn,hrange⟩,rfl,rfl,⟨fun h => absurd rfl h,fun _ _ => rfl,fun _ _ => rfl⟩,?_⟩
    intro hrecordable
    exact recordable_count (.inl rfl) hn hrecordable
  · split at h
    · rename_i hbudget
      subst hbudget
      obtain ⟨n,hn,h⟩ := bind_ok.mp h
      obtain ⟨m,hm,hrow⟩ := bind_ok.mp h
      obtain ⟨rfl,hrange⟩ := columnInt_ok hm
      cases pure_ok.mp hrow
      refine ⟨⟨m,hn,hrange⟩,rfl,rfl,⟨fun _ _ => rfl,fun h => absurd rfl h,fun _ _ => rfl⟩,?_⟩
      intro hrecordable
      exact recordable_count (.inr rfl) hn hrecordable
    · split at h
      · rename_i hbudget
        subst hbudget
        obtain ⟨d,hd,h⟩ := bind_ok.mp h
        cases pure_ok.mp h
        refine ⟨⟨d,hd⟩,rfl,rfl,⟨fun _ _ => rfl,fun _ _ => rfl,fun h => absurd rfl h⟩,?_⟩
        intro hrecordable
        exact ⟨_,recordable_counts hd hrecordable,rfl⟩
      · split at h
        · rename_i hbudget
          subst hbudget
          cases pure_ok.mp h
          have hall : ∀ h : "all" ≠ "all", False := fun h => h rfl
          refine ⟨rfl,rfl,⟨rfl,allBudgets_isDocument row.counters _⟩,
            ⟨fun _ h => (hall h).elim,fun _ h => (hall h).elim,fun _ h => (hall h).elim⟩,?_⟩
          intro hrecordable
          obtain ⟨r,hr,hdocument⟩ := recordable_all hrecordable
          exact ⟨r,hr,rfl,hdocument⟩
        · cases h

theorem overrideUpdate_of_applies (h : Applies intOfText budget value) (row : LedgerRow) (now : String) :
    ∃ p, overrideUpdate intOfText row budget value now = .ok p := by
  unfold Applies at h
  unfold overrideUpdate
  split at h
  · rename_i hcount
    obtain ⟨n,hn,hrange⟩ := h
    have hcolumn : columnInt n = .ok n := by
      unfold columnInt
      rw [require_of hrange]
      rfl
    rw [hn]
    simp only [ok_bind,hcolumn]
    by_cases hbudget : budget = "transient_retry_count"
    · rw [if_pos hbudget]
      exact ⟨_,rfl⟩
    · rw [if_neg hbudget,if_pos (hcount.resolve_left hbudget)]
      exact ⟨_,rfl⟩
  · rename_i hcount
    rw [if_neg (fun h => hcount (.inl h)),if_neg (fun h => hcount (.inr h))]
    split at h
    · rename_i hbudget
      obtain ⟨d,hd⟩ := h
      rw [if_pos hbudget,hd]
      exact ⟨_,rfl⟩
    · rename_i hbudget
      rw [if_neg hbudget,if_pos h]
      exact ⟨_,rfl⟩

end Override

theorem recordManualOverride_clean {a : OverrideArgs} (hs : s.Settled)
    (hclean : Clean intOfText rt projectId s (.recordManualOverride c a)) :
    (∃ f, s.recordManualOverride intOfText rt projectId c a = (s,.error f)) ∨
      ∃ t, s.recordManualOverride intOfText rt projectId c a = (t,.ok ()) ∧ Sound s t := by
  unfold Connection.recordManualOverride
  split
  · exact .inl ⟨_,rfl⟩
  · rename_i actor budget reason htexts
    obtain ⟨hrecord,hledger⟩ := hclean actor budget reason htexts
    split
    · rename_i t f hcreate
      rw [getOrCreateLedger_error hcreate]
      exact .inl ⟨f,rfl⟩
    · rename_i t row hcreate
      have hopened := getOrCreateLedger_ok hs hcreate
      split
      · rename_i f hupdate
        -- a missing ledger would have made the arguments convert
        have hfound : s.working.ledgers.get c.taskId ≠ none := by
          intro hmissing
          obtain ⟨⟨now,hnow⟩,happlies⟩ := hledger hmissing
          obtain ⟨p,hp⟩ := overrideUpdate_of_applies happlies row now
          rw [hnow,ok_bind,hp] at hupdate
          cases hupdate
        rw [hopened.same hfound]
        exact .inl ⟨f,rfl⟩
      · rename_i now row' previous hupdate
        obtain ⟨now',hnow,hupdate⟩ := bind_ok.mp hupdate
        obtain ⟨p,hp,hupdate⟩ := bind_ok.mp hupdate
        cases pure_ok.mp hupdate
        obtain ⟨happlies,hupdated⟩ := overrideUpdate_ok hp
        obtain ⟨hrecordable,hnew⟩ := hrecord now hnow happlies
        obtain ⟨r,hr,hafter⟩ := hupdated.after hrecordable
        rw [hr]
        have hfree : (t.writeLedger row').working.overrides.get (overrideIdOf rt projectId c.taskId now budget) = none := by
          rw [← hnew,← hopened.overrides]
          rfl
        obtain ⟨overrides,hinsert⟩ := insert_of_new
          (a := (⟨overrideIdOf rt projectId c.taskId now budget,c.taskId,actor,budget,previous,r,reason,now⟩ : BudgetOverride)) hfree
        simp only [hinsert]
        refine .inr ⟨_,rfl,rfl,?_⟩
        have hwritten := counters_writeLedger hopened hupdated.task
        have hthis := (hwritten c.taskId).trans (if_pos rfl)
        have hrow := hopened.counters_row hs
        refine .overridden ⟨overrideIdOf rt projectId c.taskId now budget,c.taskId,actor,budget,previous,r,reason,now⟩
          ?_ ?_ ?_ ?_ ?_
        · rw [← hs,← hopened.overrides]
          exact (insert_some hinsert).2
        · rw [hrow]
          exact hupdated.before
        · exact hthis ▸ hafter
        · rw [hrow]
          exact hthis ▸ hupdated.kept
        · intro task htask
          rw [← hs]
          exact (hwritten task).trans (if_neg htask)

/-! ## Whole runs -/

variable (intOfText rt projectId policy)

def ledgerNext (s : Connection) (op : LedgerOperation) : Connection := (s.perform intOfText rt projectId policy op).1

/-- Everything the run commits is accounted for, and an override that raises is as if it had
not been called. -/
structure AuditedRun (books : Books) (ops : List LedgerOperation) : Prop where
  accounted : ∀ done op rest, ops = done ++ op :: rest →
    Accounted (done.foldl (ledgerNext intOfText rt projectId policy) ⟨books,books⟩).committed
      ((done ++ [op]).foldl (ledgerNext intOfText rt projectId policy) ⟨books,books⟩).committed
  traceless : ∀ done c a more rest f, ops = done ++ .recordManualOverride c a :: (more ++ rest) →
    ((done.foldl (ledgerNext intOfText rt projectId policy) ⟨books,books⟩).perform intOfText rt projectId policy
      (.recordManualOverride c a)).2 = .error f →
    ((done ++ .recordManualOverride c a :: more).foldl (ledgerNext intOfText rt projectId policy) ⟨books,books⟩).committed =
      ((done ++ more).foldl (ledgerNext intOfText rt projectId policy) ⟨books,books⟩).committed

variable {intOfText rt projectId policy}

theorem ledgerNext_sound (hs : s.Settled) (op : LedgerOperation) (hclean : Clean intOfText rt projectId s op) :
    Sound s (ledgerNext intOfText rt projectId policy s op) := by
  cases op with
  | call k => exact call_sound hs k
  | recordManualOverride c a =>
    change Sound s (s.recordManualOverride intOfText rt projectId c a).1
    rcases recordManualOverride_clean hs hclean with ⟨f,hraised⟩ | ⟨t,hdone,hsound⟩
    · rw [hraised]
      exact sound_self hs
    · rw [hdone]
      exact hsound

theorem settled_run {books : Books} {ops : List LedgerOperation}
    (h : Along (ledgerNext intOfText rt projectId policy) (Clean intOfText rt projectId) ⟨books,books⟩ ops) :
    (ops.foldl (ledgerNext intOfText rt projectId policy) ⟨books,books⟩).Settled := by
  refine h.invariant (I := Connection.Settled) ?_ rfl
  intro s op hs hclean
  exact (ledgerNext_sound hs op hclean).settled

/-- Every run of overrides that can be recorded as they are applied is audited. -/
theorem clean_run_audited (intOfText : String → Option Int) (rt : Runtime) (projectId : String)
    (policy : FailureBudgetPolicy) (books : Books) (ops : List LedgerOperation)
    (h : Along (ledgerNext intOfText rt projectId policy) (Clean intOfText rt projectId) ⟨books,books⟩ ops) :
    AuditedRun intOfText rt projectId policy books ops := by
  constructor
  · intro done op rest hops
    have hsettled := settled_run (hops ▸ h : Along _ _ _ (done ++ op :: rest)).left
    rw [List.foldl_append]
    exact (ledgerNext_sound hsettled op (h.at hops)).accounted
  · intro done c a more rest f hops hraised
    have hsettled := settled_run (hops ▸ h : Along _ _ _ (done ++ _ :: _)).left
    rw [List.foldl_append,List.foldl_append,List.foldl_cons]
    have hsame : ledgerNext intOfText rt projectId policy
        (done.foldl (ledgerNext intOfText rt projectId policy) ⟨books,books⟩) (.recordManualOverride c a) =
        done.foldl (ledgerNext intOfText rt projectId policy) ⟨books,books⟩ := by
      change (Connection.recordManualOverride _ _ _ _ c a).2 = _ at hraised
      change (Connection.recordManualOverride _ _ _ _ c a).1 = _
      rcases recordManualOverride_clean hsettled (h.at hops) with ⟨f,hsame⟩ | ⟨t,hdone,-⟩
      · rw [hsame]
      · rw [hdone] at hraised
        cases hraised
    rw [hsame]

/-! ## An override that is recorded, and one that is not -/

def overrideRuntime : Runtime where
  upperTable c := [c]
  lowerTable c := [c]
  repr _ := ""
  fromIsoFormat _ := none
  sha256 := Sha256.sha256

def emptyBooks : Books := ⟨.empty,.empty⟩

def sampleCreation : Creation := ⟨"bl-1","t1",none,"2026-01-01T00:00:00+00:00"⟩

def sampleRepair : LedgerOperation :=
  .call (.consumeRepairAttempt sampleCreation "fp" (.ok "2026-01-01T00:00:01+00:00"))

def sampleOverride (value : NewValue) : LedgerOperation :=
  .recordManualOverride sampleCreation
    ⟨some "OPERATOR",some "same_fingerprint_count",value,some "reviewed",.ok "2026-01-01T00:00:02+00:00"⟩

abbrev sampleLedgerRun (ops : List LedgerOperation) : Connection :=
  ops.foldl (ledgerNext (fun _ => none) overrideRuntime "p" samplePolicy) ⟨emptyBooks,emptyBooks⟩

theorem sample_override_audited :
    AuditedRun (fun _ => none) overrideRuntime "p" samplePolicy emptyBooks [sampleRepair,sampleOverride (.dict ∅)] ∧
      (sampleLedgerRun [sampleRepair,sampleOverride (.dict ∅)]).committed.overrides.rows.length = 1 := by
  refine ⟨clean_run_audited _ _ _ _ _ _ ⟨trivial,?_,trivial⟩,by decide +kernel⟩
  intro actor budget reason htexts
  have hsame : ("OPERATOR","same_fingerprint_count","reviewed") = (actor,budget,reason) := by
    have hcompute : OverrideArgs.texts ⟨some "OPERATOR",some "same_fingerprint_count",.dict ∅,some "reviewed",
        .ok "2026-01-01T00:00:02+00:00"⟩ = .ok ("OPERATOR","same_fingerprint_count","reviewed") := by decide +kernel
    exact Except.ok.inj (hcompute.symm.trans htexts)
  cases hsame
  refine ⟨fun now _ _ => ⟨.inl rfl,rfl⟩,fun _ => ⟨⟨_,rfl⟩,⟨∅,rfl⟩⟩⟩

/-- The counts are cleared by an override that raises; the next retry commits this. -/
def unauditedOps : List LedgerOperation :=
  [sampleRepair,sampleOverride (.unserialisable false none),
    .call (.consumeTransientRetry sampleCreation (.ok "2026-01-01T00:00:03+00:00"))]

theorem raising_override_is_committed :
    (sampleLedgerRun unauditedOps).committed.overrides.rows.length = 0 ∧
      ¬ AuditedRun (fun _ => none) overrideRuntime "p" samplePolicy emptyBooks unauditedOps := by
  refine ⟨by decide +kernel,?_⟩
  intro h
  have hwithout : ((sampleLedgerRun [sampleRepair,unauditedOps[2]]).committed.counters "t1").counts.lookup "fp" =
      some (.int 1) := by
    decide +kernel
  have hwith : ((sampleLedgerRun unauditedOps).committed.counters "t1").counts.lookup "fp" = none := by
    decide +kernel
  have hraised : ((sampleLedgerRun [sampleRepair]).perform (fun _ => none) overrideRuntime "p" samplePolicy
      unauditedOps[1]).2 = fail "TypeError" "Object is not JSON serializable" := by
    decide +kernel
  have hsame : (sampleLedgerRun unauditedOps).committed = (sampleLedgerRun [sampleRepair,unauditedOps[2]]).committed :=
    h.traceless [sampleRepair] _ _ [unauditedOps[2]] [] _ rfl hraised
  rw [hsame,hwithout] at hwith
  cases hwith

end Bdb.Budget
