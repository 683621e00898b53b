import Bdb.Base.Histories
import Bdb.Base.Sha256
import Bdb.Bridge.OutboxSafety

/-! # Reservations of outbox rows

A claim reserves a row until a later time. The reservation is respected as long as no whole second is
compared with a fraction of it, and nobody records a failure after another processor has claimed the
row.
-/
namespace Bdb.Bridge.Outbox

open List AList

variable {sha256 : String → String} {w : OutboxWorld} {log : List (Entry OutboxRequest.Answer)} {q : OutboxRequest}

/-- A successful claim. -/
structure Reservation where
  commandId : String
  lease : ℕ
  now : DateTime
deriving DecidableEq

def Reservation.until (r : Reservation) : Outcome DateTime := r.now.plus r.lease

def reservation : Entry OutboxRequest.Answer → Option Reservation
  | ⟨.claimDue p now,.ok (.claimed id)⟩ => some ⟨id,p.lease,now⟩
  | ⟨.claimCommand p _ now,.ok (.claimed id)⟩ => some ⟨id,p.lease,now⟩
  | _ => none

def released : Entry OutboxRequest.Answer → Option Reservation
  | ⟨.recordFailure p claimed now _,.ok _⟩ => some ⟨claimed.commandId,p.lease,now⟩
  | _ => none

def lastReservation (id : String) (log : List (Entry OutboxRequest.Answer)) : Option Reservation :=
  ((log.filterMap reservation).filter fun r => r.commandId = id).getLast?

/-- A claim meets no reservation that ends within the whole second of the claim, and a failure is
recorded by the processor that claimed the row last. -/
def InTurn (w : OutboxWorld) (log : List (Entry OutboxRequest.Answer)) : OutboxRequest → Prop
  | .claimDue _ now => ∀ row ∈ firstDue now w, ∀ next ∈ row.next, ¬ WholeBefore now next
  | .claimCommand _ id now => ∀ row ∈ w.outbox.lookup id, ∀ next ∈ row.next, ¬ WholeBefore now next
  | .recordFailure p claimed now _ => ∀ row ∈ w.outbox.lookup claimed.commandId, row.state = .pending →
      row.attempts = claimed.attempts → lastReservation claimed.commandId log = some ⟨claimed.commandId,p.lease,now⟩
  | _ => True

instance InTurn.decidable (w : OutboxWorld) (log : List (Entry OutboxRequest.Answer)) : (q : OutboxRequest) → Decidable (InTurn w log q)
  | .claimDue _ now => have (row : OutboxRow) : Decidable (∀ next ∈ row.next, ¬ WholeBefore now next) :=
      Option.decidableForallMem _
    Option.decidableForallMem (firstDue now w)
  | .claimCommand _ id now => have (row : OutboxRow) : Decidable (∀ next ∈ row.next, ¬ WholeBefore now next) :=
      Option.decidableForallMem _
    Option.decidableForallMem (w.outbox.lookup id)
  | .recordFailure _ claimed _ _ => Option.decidableForallMem (w.outbox.lookup claimed.commandId)
  | .getCommand _ | .getOutbox _ | .getResult _ | .stage _ _ | .markPublished _ _ _ _ | .markCollision _ _ _ | .fetchHead _
  | .readResult _ _ _ | .publish _ _ _ _ | .elsewhere _ _ _ => .isTrue trivial

/-- A row is claimed again only after its reservation, unless it was given up. -/
def Respected (log : List (Entry OutboxRequest.Answer)) : Prop :=
  ∀ before e between e' after r r' u, log = before ++ e :: between ++ e' :: after → reservation e = some r →
    r.until = .ok u → reservation e' = some r' → r'.commandId = r.commandId → (∀ x ∈ between, released x ≠ some r) →
    u ≤ r'.now

/-! ## Steps -/

variable {row : OutboxRow} {now u : DateTime} {id commandId : String} {p : Processor} {r : Reservation}

variable {next : DateTime} {diagnostic : String} {x : Entry OutboxRequest.Answer}

theorem due_le (hdue : row.due now = true) (hnext : row.next = some next)
    (hwhole : ¬ WholeBefore now next) : next ≤ now := by
  simp only [OutboxRow.due,decide_eq_true_eq,hnext,Option.all_some] at hdue
  by_contra hlate
  exact absurd hdue.2 (not_le.mpr (isoText_lt (not_le.mp hlate) hwhole))

theorem setNext_outbox (hrow : w.outbox.lookup id = some row) (next : DateTime) :
    (setNext id next w).outbox = w.outbox.insert id { row with next := some next } := by
  simp only [setNext,hrow]

theorem reservationUntil_ok (h : reservationUntil p now = .ok u) (id : String) :
    Reservation.until ⟨id,p.lease,now⟩ = .ok u := by
  obtain ⟨_,h⟩ := rest_ok h
  exact h

/-- What a successful claim did. -/
structure ClaimStep (w w' : OutboxWorld) (r : Reservation) (row : OutboxRow) (u : DateTime) : Prop where
  found : w.outbox.lookup r.commandId = some row
  due : row.due r.now = true
  ends : r.until = .ok u
  stored : w'.outbox = w.outbox.insert r.commandId { row with next := some u }

theorem claimDueRow_claimed (hsound : Sound sha256 w) (h : (claimDueRow p now w).2 = .ok (.claimed id)) :
    ∃ row u, ClaimStep w (claimDueRow p now w).1 ⟨id,p.lease,now⟩ row u ∧ firstDue now w = some row := by
  unfold claimDueRow at h ⊢
  cases hreservation : reservationUntil p now with
  | error e => rw [hreservation] at h; cases h
  | ok u =>
    rw [hreservation] at h
    cases hfirst : firstDue now w with
    | none => rw [hfirst] at h; cases h
    | some row =>
      rw [hfirst] at h
      obtain ⟨⟨key,hkey⟩,hdue⟩ := firstDue_found hfirst
      obtain rfl := hsound.named key row hkey
      injection h with h
      injection h with h
      subst h
      exact ⟨row,u,⟨hkey,hdue,reservationUntil_ok hreservation _,setNext_outbox hkey u⟩,rfl⟩

theorem claimCommandRow_claimed (h : (claimCommandRow p commandId now w).2 = .ok (.claimed id)) :
    id = commandId ∧ ∃ row u, ClaimStep w (claimCommandRow p commandId now w).1 ⟨commandId,p.lease,now⟩ row u := by
  unfold claimCommandRow at h ⊢
  cases hreservation : reservationUntil p now with
  | error e => rw [hreservation] at h; cases h
  | ok u =>
    rw [hreservation] at h
    cases hrow : w.outbox.lookup commandId with
    | none => rw [hrow] at h; cases h
    | some row =>
      rw [hrow] at h
      dsimp only at h ⊢
      split at h
      · injection h with h
        cases h
      · rename_i hpending
        split at h
        · rename_i hdue
          injection h with h
          injection h with h
          rw [if_neg hpending,if_pos hdue]
          exact ⟨h.symm,row,u,hrow,hdue,reservationUntil_ok hreservation _,setNext_outbox hrow u⟩
        · cases h

theorem claim_step (hsound : Sound sha256 w) (h : reservation ⟨q,(q.perform sha256 w).2⟩ = some r) :
    ∃ row u, ClaimStep w (q.perform sha256 w).1 r row u ∧
      (∀ log, InTurn w log q → ∀ next ∈ row.next, ¬ WholeBefore r.now next) := by
  unfold reservation at h
  split at h
  · rename_i p now id heq
    obtain ⟨rfl,hanswer⟩ := Sigma.ext_iff.mp heq
    obtain ⟨row,u,hstep,hfirst⟩ := claimDueRow_claimed hsound (eq_of_heq hanswer)
    cases h
    exact ⟨row,u,hstep,fun _ hturn => hturn row hfirst⟩
  · rename_i p commandId now id heq
    obtain ⟨rfl,hanswer⟩ := Sigma.ext_iff.mp heq
    obtain ⟨rfl,row,u,hstep⟩ := claimCommandRow_claimed (eq_of_heq hanswer)
    cases h
    exact ⟨row,u,hstep,fun _ hturn => hturn row hstep.found⟩
  · cases h

/-- The row stays as it is, is settled, or waits after a failure. -/
inductive RowStep (w : OutboxWorld) (e : Entry OutboxRequest.Answer) (id : String) (row : OutboxRow) : OutboxRow → Prop
  | kept : RowStep w e id row row
  | settled {row' : OutboxRow} (h : row'.state ≠ .pending) : RowStep w e id row row'
  | failed {row' : OutboxRow} {p : Processor} {claimed : OutboxRow} {now next : DateTime} {diagnostic : String}
    (hrequest : e.1 = .recordFailure p claimed now diagnostic) (hid : claimed.commandId = id) (hpending : row.state = .pending)
    (hattempts : row.attempts = claimed.attempts) (hnext : now.plus (p.delay claimed.attempts) = .ok next)
    (hreleased : released e = some ⟨id,p.lease,now⟩) (hstored : row'.next = some next) : RowStep w e id row row'

section

variable (hrow : w.outbox.lookup id = some row)

include hrow

theorem recordFailure_row {claimed : OutboxRow} :
    ∃ row', (recordFailure p claimed now diagnostic w).1.outbox.lookup id = some row' ∧
      RowStep w ⟨.recordFailure p claimed now diagnostic,(recordFailure p claimed now diagnostic w).2⟩ id row row' := by
  unfold recordFailure
  cases hnext : now.plus (p.delay claimed.attempts) with
  | error e => exact ⟨row,hrow,.kept⟩
  | ok next =>
    cases hfound : w.outbox.lookup claimed.commandId with
    | none => exact ⟨row,hrow,.kept⟩
    | some found =>
      dsimp only
      split
      · exact ⟨row,hrow,.kept⟩
      rename_i hpending
      split
      · split <;> exact ⟨row,hrow,.kept⟩
      split
      · exact ⟨row,hrow,.kept⟩
      rename_i hattempts
      by_cases hid : id = claimed.commandId
      · subst hid
        obtain rfl := some_unique hrow hfound
        exact ⟨_,lookup_insert ..,.failed rfl rfl (not_not.mp hpending) (not_not.mp hattempts) hnext rfl rfl⟩
      · exact ⟨row,(lookup_insert_ne hid).trans hrow,.kept⟩

theorem row_of_insert {updated : OutboxRow}
    (hsettled : updated.state ≠ .pending) (e : Entry OutboxRequest.Answer) :
    ∃ row', (w.outbox.insert commandId updated).lookup id = some row' ∧ RowStep w e id row row' := by
  by_cases hid : id = commandId
  · subst hid
    exact ⟨updated,lookup_insert ..,.settled hsettled⟩
  · exact ⟨row,(lookup_insert_ne hid).trans hrow,.kept⟩

theorem markPublished_row {remoteSha : String} {commit : ℕ}
    (e : Entry OutboxRequest.Answer) :
    ∃ row', (markPublished commandId remoteSha commit now w).1.outbox.lookup id = some row' ∧ RowStep w e id row row' := by
  unfold markPublished
  split
  · split
    · exact ⟨row,hrow,.kept⟩
    split
    · split <;> exact ⟨row,hrow,.kept⟩
    split
    · exact ⟨row,hrow,.kept⟩
    exact row_of_insert hrow (by simp) e
  · exact ⟨row,hrow,.kept⟩

theorem markCollision_row {observedSha : String}
    (e : Entry OutboxRequest.Answer) :
    ∃ row', (markCollision commandId observedSha diagnostic w).1.outbox.lookup id = some row' ∧ RowStep w e id row row' := by
  unfold markCollision
  split
  · split
    · exact ⟨row,hrow,.kept⟩
    split
    · split <;> exact ⟨row,hrow,.kept⟩
    split
    · exact ⟨row,hrow,.kept⟩
    split
    · exact ⟨row,hrow,.kept⟩
    exact row_of_insert hrow (by simp) e
  · exact ⟨row,hrow,.kept⟩

theorem stage_row {d : StagedDocument} :
    (stageResult sha256 commandId d w).1.outbox.lookup id = some row := by
  unfold stageResult
  dsimp only
  split
  · exact hrow
  · split
    · split
      · exact hrow
      split
      · exact hrow
      rename_i hnone _ _
      refine (lookup_insert_ne ?_).trans hrow
      rintro rfl
      exact absurd (hrow.symm.trans hnone) (by simp)
    · split
      · split <;> exact hrow
      · exact hrow
    · exact hrow

end

theorem claimDueRow_kept (h : ∀ id, (claimDueRow p now w).2 ≠ .ok (.claimed id)) :
    (claimDueRow p now w).1 = w := by
  unfold claimDueRow at h ⊢
  split
  · rfl
  · split
    · rfl
    · rename_i row hfirst
      refine absurd ?_ (h row.commandId)
      simp [*]

theorem claimCommandRow_kept
    (h : ∀ id, (claimCommandRow p commandId now w).2 ≠ .ok (.claimed id)) : (claimCommandRow p commandId now w).1 = w := by
  unfold claimCommandRow at h ⊢
  split
  · rfl
  · split
    · rfl
    · split
      · rfl
      · split
        · refine absurd ?_ (h commandId)
          simp [*]
        · rfl

theorem other_step (h : reservation ⟨q,(q.perform sha256 w).2⟩ = none)
    (hrow : w.outbox.lookup id = some row) :
    ∃ row', (q.perform sha256 w).1.outbox.lookup id = some row' ∧ RowStep w ⟨q,(q.perform sha256 w).2⟩ id row row' := by
  cases q with
  | getCommand id' | getOutbox id' | getResult id' => exact ⟨row,hrow,.kept⟩
  | stage id' d => exact ⟨row,stage_row hrow,.kept⟩
  | claimDue p now =>
    have hkept : (claimDueRow p now w).1 = w := by
      refine claimDueRow_kept fun id' hid' => ?_
      simp only [OutboxRequest.perform,hid',reservation] at h
      cases h
    exact ⟨row,by simp only [OutboxRequest.perform,hkept,hrow],.kept⟩
  | claimCommand p id' now =>
    have hkept : (claimCommandRow p id' now w).1 = w := by
      refine claimCommandRow_kept fun id' hid' => ?_
      simp only [OutboxRequest.perform,hid',reservation] at h
      cases h
    exact ⟨row,by simp only [OutboxRequest.perform,hkept,hrow],.kept⟩
  | recordFailure p claimed now diagnostic => exact recordFailure_row hrow
  | markPublished id' remoteSha commit now => exact markPublished_row hrow _
  | markCollision id' observedSha diagnostic => exact markCollision_row hrow _
  | fetchHead fate | readResult head path fate | publish path content head fate => cases fate <;> exact ⟨row,hrow,.kept⟩
  | elsewhere id' command sessions => exact ⟨row,hrow,.kept⟩

/-! ## Reservations along a run -/

@[simp] theorem lastReservation_same (h : ∀ r ∈ reservation x, r.commandId ≠ id) :
    lastReservation id (log ++ [x]) = lastReservation id log := by
  unfold lastReservation
  cases hr : reservation x with
  | none => simp [hr]
  | some r =>
    have hne := h r (by simp [hr])
    simp [hr,hne]

theorem lastReservation_self (h : reservation x = some r) :
    lastReservation r.commandId (log ++ [x]) = some r := by
  simp [lastReservation,h]

/-- While its reservation is not given up, a pending row waits at least as long, and it was claimed last
by its holder, or after the reservation. -/
def Standing (w : OutboxWorld) (log : List (Entry OutboxRequest.Answer)) : Prop :=
  ∀ before e rest r u, log = before ++ e :: rest → reservation e = some r → r.until = .ok u →
    (∀ x ∈ rest, released x ≠ some r) →
    ∃ row, w.outbox.lookup r.commandId = some row ∧ (row.state = .pending →
      ∃ next last, row.next = some next ∧ lastReservation r.commandId log = some last ∧ u ≤ next ∧ (last = r ∨ u ≤ last.now))

theorem Reservation.now_le (h : r.until = .ok u) : r.now ≤ u := by
  have hval := DateTime.plus_ok h
  exact Fin.le_def.mpr (by omega)

theorem now_le_plus {n : ℕ} (h : now.plus n = .ok next) : now ≤ next := by
  have hval := DateTime.plus_ok h
  exact Fin.le_def.mpr (by omega)

theorem Standing.step (hsound : Sound sha256 w) (h : Standing w log) (hturn : InTurn w log q) :
    Standing (q.perform sha256 w).1 (log ++ [⟨q,(q.perform sha256 w).2⟩]) := by
  intro before e rest r u hlog hr hu hheld
  rcases split_concat hlog with ⟨rfl,rfl,rfl⟩ | ⟨rest,rfl,hbefore⟩
  · obtain ⟨row,u',hstep,-⟩ := claim_step hsound hr
    obtain rfl : u = u' := Except.ok.inj (hu.symm.trans hstep.ends)
    refine ⟨{ row with next := some u },by rw [hstep.stored,lookup_insert],fun _ => ?_⟩
    exact ⟨u,r,rfl,lastReservation_self hr,le_refl u,.inl rfl⟩
  obtain ⟨row,hrow,hwaits⟩ := h before e rest r u hbefore hr hu fun x hx => hheld x (mem_append_left _ hx)
  cases hclaim : reservation ⟨q,(q.perform sha256 w).2⟩ with
  | some r' =>
    obtain ⟨row',u',hstep,hwhole⟩ := claim_step hsound hclaim
    by_cases hid : r'.commandId = r.commandId
    · -- claimed again, after the reservation
      have hfound := hstep.found
      rw [hid] at hfound
      obtain rfl := some_unique hrow hfound
      obtain ⟨next,last,hnext,-,hle,-⟩ := hwaits (due_pending hstep.due)
      have hlater : u ≤ r'.now := hle.trans (due_le hstep.due hnext (hwhole log hturn next hnext))
      refine ⟨{ row with next := some u' },by rw [hstep.stored,hid,lookup_insert],fun _ => ?_⟩
      exact ⟨u',r',rfl,hid ▸ lastReservation_self hclaim,hlater.trans (Reservation.now_le hstep.ends),.inr hlater⟩
    · refine ⟨row,by rw [hstep.stored,lookup_insert_ne (Ne.symm hid),hrow],fun hpending => ?_⟩
      obtain ⟨next,last,hnext,hlast,hrest⟩ := hwaits hpending
      refine ⟨next,last,hnext,?_,hrest⟩
      rw [lastReservation_same (by simp [hclaim,hid]),hlast]
  | none =>
    obtain ⟨row',hrow',hstep⟩ := other_step hclaim hrow
    refine ⟨row',hrow',fun hpending' => ?_⟩
    have hsame : lastReservation r.commandId (log ++ [⟨q,(q.perform sha256 w).2⟩]) = lastReservation r.commandId log :=
      lastReservation_same (by simp [hclaim])
    rw [hsame]
    cases hstep with
    | kept => exact hwaits hpending'
    | settled hsettled => exact absurd hpending' hsettled
    | @failed _ p claimed now next' diagnostic hrequest hid hpending hattempts hnext' hreleased hstored =>
      obtain ⟨next,last,hnext,hlast,hle,hholder⟩ := hwaits hpending
      obtain rfl : q = .recordFailure p claimed now diagnostic := hrequest
      have howner : lastReservation claimed.commandId log = some ⟨claimed.commandId,p.lease,now⟩ :=
        hturn row (by rw [hid]; exact hrow) hpending hattempts
      rw [hid] at howner
      obtain rfl := some_unique hlast howner
      refine ⟨next',_,hstored,hlast,?_,hholder⟩
      rcases hholder with hself | hlater
      · exact absurd (hreleased.trans (congrArg some hself)) (hheld _ (mem_append_right _ (mem_singleton_self _)))
      · exact hlater.trans (now_le_plus hnext')

theorem Respected.step (hsound : Sound sha256 w) (hstanding : Standing w log) (h : Respected log) (hturn : InTurn w log q) :
    Respected (log ++ [⟨q,(q.perform sha256 w).2⟩]) := by
  intro before e between e' after r r' u hlog hr hu hr' hid hheld
  rcases split_concat hlog with ⟨hlast,rfl,rfl⟩ | ⟨rest,rfl,hbefore⟩
  · obtain ⟨row,hrow,hwaits⟩ := hstanding before e between r u hlast.symm hr hu hheld
    obtain ⟨row',u',hstep,hwhole⟩ := claim_step hsound hr'
    have hfound := hstep.found
    rw [hid] at hfound
    obtain rfl := some_unique hrow hfound
    obtain ⟨next,last,hnext,-,hle,-⟩ := hwaits (due_pending hstep.due)
    exact hle.trans (due_le hstep.due hnext (hwhole log hturn next hnext))
  · exact h before e between e' rest r r' u hbefore hr hu hr' hid hheld

/-- Runs in which every claim and every failure is in turn. -/
def AllInTurn (sha256 : String → String) (w : OutboxWorld) (moves : List (Move OutboxCall)) : Prop :=
  Along (Shared.next (OutboxRequest.perform sha256) program) (Shared.Admits InTurn)
    (Shared.begin w : OutboxShared) moves

theorem run_respected (h : Fresh w) (moves : List (Move OutboxCall)) (hturn : AllInTurn sha256 w moves) :
    Standing (runFrom sha256 w moves).store (runFrom sha256 w moves).log ∧ Respected (runFrom sha256 w moves).log := by
  induction moves using List.reverseRecOn with
  | nil => exact ⟨fun before e rest r u hlog => absurd hlog (by simp [runFrom,Shared.run,Shared.begin]),
      fun before e between e' after r r' u hlog => absurd hlog (by simp [runFrom,Shared.run,Shared.begin])⟩
  | append_singleton moves m ih =>
    obtain ⟨hturns,hlast⟩ := along_append.mp hturn
    obtain ⟨hstanding,hrespected⟩ := ih hturns
    have hsound : Sound sha256 (runFrom sha256 w moves).store := (runFrom_sound h moves).2
    have hrun : runFrom sha256 w (moves ++ [m]) =
        Shared.next (OutboxRequest.perform sha256) program (runFrom sha256 w moves) m := Shared.run_concat ..
    rw [hrun]
    rcases Shared.next_cases (OutboxRequest.perform sha256) program (runFrom sha256 w moves) m with ⟨hstore,hlog⟩ | ⟨q,hq,hstore,hlog⟩
    · rw [hstore,hlog]
      exact ⟨hstanding,hrespected⟩
    · rw [hstore,hlog]
      exact ⟨hstanding.step hsound (hlast.1 q hq),hrespected.step hsound hstanding (hlast.1 q hq)⟩

/-! ## The outbox -/

/-- What holds of the journal and the branch in every state. -/
structure Intact (w : OutboxWorld) : Prop where
  once : (w.remote.map (·.1)).Nodup
  exact : ∀ id result content, w.results.lookup id = some result → (result.path,content) ∈ w.remote → content = result.json
  own : ∀ file ∈ w.remote, ∃ id result, w.results.lookup id = some result ∧ (result.path,result.json) = file
  acknowledged : ∀ id, (∃ row, w.outbox.lookup id = some row ∧ row.state = .published) ↔
    ∃ command, w.commands.lookup id = some command ∧ command.state = .resultPublished
  stored : ∀ id row, w.outbox.lookup id = some row → row.state = .published →
    ∃ result, w.results.lookup id = some result ∧ (row.path,result.json) ∈ w.remote
  uncollided : ∀ id row, w.outbox.lookup id = some row → row.state ≠ .collision

theorem Sound.intact (h : Sound sha256 w) : Intact w where
  once := h.once
  exact id result content hresult hfile := by
    obtain ⟨id',result',hresult',hfile'⟩ := h.stored _ hfile
    obtain ⟨hpath,hcontent⟩ := Prod.mk.injEq .. ▸ hfile'
    obtain rfl := h.paths id' id result' result hresult' hresult hpath
    obtain rfl := some_unique hresult' hresult
    exact hcontent.symm
  own := h.stored
  acknowledged id := by
    constructor
    · rintro ⟨row,hrow,hpublished⟩
      obtain ⟨command,hcommand,⟨hpending,-⟩ | ⟨-,hstate⟩⟩ := h.command id row hrow
      · exact absurd (hpublished.symm.trans hpending) (by decide)
      · exact ⟨command,hcommand,hstate⟩
    · rintro ⟨command,hcommand,hstate⟩
      obtain ⟨row,hrow⟩ := h.command_row id command hcommand (by rw [hstate]; decide)
      obtain ⟨command',hcommand',hstates⟩ := h.command id row hrow
      obtain rfl := some_unique hcommand hcommand'
      rcases hstates with ⟨-,hstaged⟩ | ⟨hpublished,-⟩
      · exact absurd (hstate.symm.trans hstaged) (by decide)
      · exact ⟨row,hrow,hpublished⟩
  stored id row hrow hpublished := by
    obtain ⟨result,hresult,-,hpath⟩ := h.row_result id row hrow
    exact ⟨result,hresult,hpath ▸ h.published id row result hrow hpublished hresult⟩
  uncollided id row hrow hcollision := by
    obtain ⟨command,-,⟨hpending,-⟩ | ⟨hpublished,-⟩⟩ := h.command id row hrow
    · exact absurd (hcollision.symm.trans hpending) (by decide)
    · exact absurd (hcollision.symm.trans hpublished) (by decide)

/-- Along every run results are written once and never change, and reservations are respected while every
claim and every failure is in turn. -/
theorem results_writtenOnce (h : Fresh w) (moves more : List (Move OutboxCall)) :
    let s := runFrom sha256 w moves
    let s' := runFrom sha256 w (moves ++ more)
    Intact s.store ∧ Persists s.store s'.store ∧ (AllInTurn sha256 w moves → Respected s.log) := by
  obtain ⟨hrelied,hsound⟩ : Relied sha256 (runFrom sha256 w moves) ∧ Sound sha256 (runFrom sha256 w moves).store := runFrom_sound h moves
  obtain ⟨-,-,hpersists⟩ := run_sound hrelied hsound more
  refine ⟨hsound.intact,?_,fun hturn => (run_respected h moves hturn).2⟩
  unfold runFrom
  rw [Shared.run_append]
  exact hpersists

/-! ## A reservation that is not respected

A processor reserves the row at half a second past midnight for one second. A whole second is written
without a fraction, so another processor claims the row one second past midnight.
-/

def midnight : ℕ := 63902822400000000

def sampleTime (micros : Fin 86400000000) : DateTime := ⟨midnight + micros.val,by unfold midnight dateTimeLimit; omega⟩

def sampleSession : String := "00000000000000000000000001"

def sampleCommand : String := "00000000000000000000000001:000001"

def resultSha256 (s : String) : String := "sha256:" ++ Sha256.sha256 s.toList

def sampleResult : String :=
  "\x7b
  \"artifacts\": [],
  \"changed_files\": [
    \"a.py\"
  ],
  \"command_commit_sha\": \"aaaaaaaaaaaaaaaaaaaaaaaaaaaaaaaaaaaaaaaa\",
  \"command_id\": \"00000000000000000000000001:000001\",
  \"diff\": \"\",
  \"diff_sha256\": \"sha256:e3b0c44298fc1c149afbf4c8996fb92427ae41e4649b934ca495991b7852b855\",
  \"duration_ms\": 0,
  \"end_marker\": \"BDB-END:sha256:ad15a47ac77d48b9ef6280733cf422fd98dba31a84f07d4c8ca15be066256316\",
  \"error_code\": null,
  \"executor_version\": \"0.5.0-ghb0\",
  \"exit_code\": null,
  \"finished_at\": \"2026-01-01T00:00:00Z\",
  \"schema_version\": \"1.1\",
  \"sequence\": 1,
  \"session_id\": \"00000000000000000000000001\",
  \"started_at\": \"2026-01-01T00:00:00Z\",
  \"state_hash_after\": \"sha256:e3b0c44298fc1c149afbf4c8996fb92427ae41e4649b934ca495991b7852b855\",
  \"state_hash_before\": \"sha256:e3b0c44298fc1c149afbf4c8996fb92427ae41e4649b934ca495991b7852b855\",
  \"status\": \"success\",
  \"stderr_sha256\": \"sha256:e3b0c44298fc1c149afbf4c8996fb92427ae41e4649b934ca495991b7852b855\",
  \"stderr_tail\": \"\",
  \"stdout_sha256\": \"sha256:e3b0c44298fc1c149afbf4c8996fb92427ae41e4649b934ca495991b7852b855\",
  \"stdout_tail\": \"\",
  \"summary\": \"\",
  \"truncated\": false,
  \"workspace_revision_after\": 0,
  \"workspace_revision_before\": 0\n\x7d"

def sampleDocument : StagedDocument :=
  ⟨"success",none,sampleResult,"sessions/" ++ sampleSession ++ "/results/000001.json",sampleTime 0⟩

def sampleOutbox : OutboxWorld where
  commands := (∅ : AList fun _ => CommandRow).insert sampleCommand ⟨sampleSession,1,.effectRecorded⟩
  sessions := fun id => if id = sampleSession then some .active else none
  results := ∅
  outbox := ∅
  remote := []

def sampleProcessor : Processor := ⟨1000000,fun attempts => min 60000000 (1000000 * 2 ^ attempts)⟩

def sampleFates : Fates := ⟨.answered "",.answered "",.answered "",.answered "",.answered ""⟩

/-- A staged result is claimed at two times. -/
def claimsAt (first second : Fin 86400000000) : List (Move OutboxCall) :=
  [.start (.stage sampleCommand sampleDocument),.advance 0,
    .start (.processOneDue sampleProcessor (sampleTime first) sampleFates),.advance 1,
    .start (.processOneDue sampleProcessor (sampleTime second) sampleFates),.advance 2]

theorem sampleOutbox_fresh : Fresh sampleOutbox where
  results := rfl
  outbox := rfl
  remote := rfl
  commands id command hcommand := by
    by_cases hid : id = sampleCommand
    · subst hid
      obtain rfl := some_unique (lookup_insert ..) hcommand
      rfl
    · cases (lookup_insert_ne hid).symm.trans hcommand

theorem Respected.entries {log : List (Entry OutboxRequest.Answer)} (h : Respected log) {i j : ℕ} (r r' : Reservation)
    (hij : i < j) (hi : log[i]?.bind reservation = some r) (hj : log[j]?.bind reservation = some r') (hu : r.until = .ok u)
    (hid : r'.commandId = r.commandId) (hheld : ∀ x ∈ (log.take j).drop (i + 1), released x ≠ some r) : u ≤ r'.now := by
  obtain ⟨e,he,hr⟩ := Option.bind_eq_some_iff.mp hi
  obtain ⟨e',he',hr'⟩ := Option.bind_eq_some_iff.mp hj
  refine h (log.take i) e ((log.take j).drop (i + 1)) e' (log.drop (j + 1)) r r' u ?_ hr hu hr' hid hheld
  have htake : (log.take j)[i]? = some e := by rw [List.getElem?_take_of_lt hij,he]
  obtain ⟨hlt,hget⟩ := List.getElem?_eq_some_iff.mp htake
  obtain ⟨hlt',hget'⟩ := List.getElem?_eq_some_iff.mp he'
  have hfirst : log.take j = log.take i ++ e :: (log.take j).drop (i + 1) := by
    have hdrop := drop_eq_getElem_cons hlt
    rw [hget] at hdrop
    rw [← hdrop,show log.take i = (log.take j).take i by rw [take_take,min_eq_left hij.le],take_append_drop]
  have hsecond : log.drop j = e' :: log.drop (j + 1) := by
    rw [drop_eq_getElem_cons hlt',hget']
  rw [← hfirst,← hsecond,take_append_drop]

/-- A reservation whose end has a fraction is passed over within its last second. -/
theorem reservation_disregarded : ¬ Respected (runFrom resultSha256 sampleOutbox (claimsAt 500000 1000000)).log := by
  intro h
  have hle : sampleTime 1500000 ≤ sampleTime 1000000 :=
    h.entries ⟨sampleCommand,1000000,sampleTime 500000⟩ ⟨sampleCommand,1000000,sampleTime 1000000⟩
      (show 1 < 2 by decide) (by decide +kernel) (by decide +kernel) (by decide +kernel) rfl (by decide +kernel)
  exact absurd hle (by decide +kernel)

/-- A second later the claim comes after the reservation. -/
theorem sampleClaims_respected :
    AllInTurn resultSha256 sampleOutbox (claimsAt 500000 2000000) ∧
      Respected (runFrom resultSha256 sampleOutbox (claimsAt 500000 2000000)).log := by
  have hturn : AllInTurn resultSha256 sampleOutbox (claimsAt 500000 2000000) := by
    unfold AllInTurn
    decide +kernel
  exact ⟨hturn,(results_writtenOnce sampleOutbox_fresh (claimsAt 500000 2000000) []).2.2 hturn⟩

end Bdb.Bridge.Outbox
