import Bdb.Bridge.OutboxReservations
import Mathlib.Data.Rat.Floor

/-! # The delay after a failed publication

The delay doubles with every attempt up to a maximum. Its two formulas agree, and the row is due again from
the retry time on, as long as the doubling stays inside the floating-point range and no whole second is
compared with a fraction of it.
-/
namespace Bdb.Bridge.Outbox

open List AList

/-! ## Delays -/

/-- Seconds in microseconds, rounded to the nearest one and to an even one in the middle. -/
def roundMicros (seconds : ℚ) : ℕ :=
  let q := seconds * 1000000
  let n := q.floor.toNat
  if q - n < 1 / 2 ∨ q - n = 1 / 2 ∧ n % 2 = 0 then n else n + 1

def timedelta (seconds : ℚ) : Outcome ℕ := do
  let days := roundMicros seconds / dayMicros
  require (days < 2 ^ 31) "OverflowError" "Python int too large to convert to C int"
  require (days ≤ 999999999) "OverflowError" ("days=" ++ toString days ++ "; must have magnitude <= 999999999")
  pure (roundMicros seconds)

/-- A power of two that no float holds is refused. Doubling is exact, and a product beyond the largest float
is infinite, which the maximum cuts off like the exact one. -/
def retryDelay (base max : ℚ) (attempts : ℕ) : Outcome ℚ := do
  require (¬ (base ≤ 0 ∨ max ≤ 0 ∨ max < base)) "invalid_payload" "invalid retry delay bounds"
  require (attempts < 1024) "OverflowError" "int too large to convert to float"
  pure (min max (base * 2 ^ attempts))

def computeBackoffDelay (attempts : ℕ) (base max : ℚ) : ℚ :=
  if attempts = 0 then 0
  else
    let base := if base ≤ 0 then 1 else base
    let max := if max ≤ 0 then 60 else max
    let max := if max < base then base else max
    if 100 < attempts then max else min (base * 2 ^ (attempts - 1)) max

def recordOutboxFailure (base max : ℚ) (claimed : OutboxRow) (now : DateTime) (diagnostic : String) (w : OutboxWorld) :
    OutboxWorld × Outcome OutboxRow :=
  match retryDelay base max claimed.attempts >>= timedelta with
  | .error e => (w,.error e)
  | .ok micros => recordFailure ⟨0,fun _ => micros⟩ claimed now diagnostic w

variable {base max : ℚ} {row updated : OutboxRow} {now later next t u : DateTime} {diagnostic : String} {p : Processor}
  {w : OutboxWorld} {n micros : ℕ}

theorem retryDelay_ok {delay : ℚ} (hbase : 0 < base) (hle : base ≤ max) :
    retryDelay base max n = .ok delay ↔ n < 1024 ∧ min max (base * 2 ^ n) = delay := by
  have hmax := hbase.trans_le hle
  simp only [retryDelay,bind_ok,require_ok,pure_ok,exists_and_left,exists_const]
  simp [hbase,hle,hmax]

theorem delay_mono (hbase : 0 < base) {m : ℕ} (hmn : m ≤ n) : min max (base * 2 ^ m) ≤ min max (base * 2 ^ n) :=
  min_le_min_left max (mul_le_mul_of_nonneg_left (pow_le_pow_right₀ one_le_two hmn) hbase.le)

theorem backoff_agrees_iff (hbase : 0 < base) (hle : base ≤ max) :
    min max (base * 2 ^ n) = computeBackoffDelay (n + 1) base max ↔ n < 100 ∨ max ≤ base * 2 ^ n := by
  have hmax := hbase.trans_le hle
  unfold computeBackoffDelay
  rw [if_neg (Nat.succ_ne_zero n),if_neg hbase.not_ge,if_neg hmax.not_ge]
  dsimp only
  rw [if_neg hle.not_gt]
  split
  · simp [show ¬ n < 100 by omega]
  · simp [min_comm,show n < 100 by omega]

theorem timedelta_ok {seconds : ℚ} (h : now.plus (roundMicros seconds) = .ok next) : timedelta seconds = .ok (roundMicros seconds) := by
  have hnext := next.isLt
  rw [DateTime.plus_ok h] at hnext
  have hdays : roundMicros seconds / dayMicros ≤ 999999999 :=
    (Nat.div_le_div_right (Nat.le_of_lt ((Nat.le_add_left _ _).trans_lt hnext))).trans (by decide)
  exact bind_ok.mpr ⟨(),require_of (hdays.trans_lt (by decide)) _ _,bind_ok.mpr ⟨(),require_of hdays _ _,rfl⟩⟩

/-! ## Retry times -/

/-- A whole second is after its fractions as a text. -/
theorem isoText_whole (h : WholeBefore t u) : isoText u < isoText t := by
  obtain ⟨hsecond,ht,hu⟩ := h
  unfold isoText
  rw [secondText_congr hsecond,if_pos ht,if_neg hu]
  exact append_lt_append _ (cons_lt_cons_iff.mpr (.inl (by decide)))

theorem isoText_le_iff : (isoText t ≤ isoText u ↔ t ≤ u) ↔ ¬ WholeBefore t u ∧ ¬ WholeBefore u t := by
  have hlt : ∀ {t u : DateTime}, WholeBefore t u → t < u := fun {t u} ⟨hsecond,ht,hu⟩ => show t.val < u.val by omega
  constructor
  · intro h
    refine ⟨fun hwhole => ?_,fun hwhole => ?_⟩
    · exact absurd (isoText_whole hwhole) (not_lt.mpr (h.mpr (hlt hwhole).le))
    · exact absurd (hlt hwhole) (not_lt.mpr (h.mp (isoText_whole hwhole).le))
  · rintro ⟨htu,hut⟩
    constructor
    · intro hle
      by_contra hlate
      exact absurd (isoText_lt (not_le.mp hlate) hut) (not_lt.mpr hle)
    · intro hle
      rcases hle.lt_or_eq with hlt | rfl
      · exact (isoText_lt hlt htu).le
      · exact le_rfl

theorem recordOutboxFailure_eq (diagnostic : String) (hrow : w.outbox.lookup row.commandId = some row) (hpending : row.state = .pending)
    (hmicros : (retryDelay base max row.attempts >>= timedelta) = .ok micros) (hnext : now.plus micros = .ok next) :
    ∃ updated, recordOutboxFailure base max row now diagnostic w =
        ({ w with outbox := w.outbox.insert row.commandId updated },.ok updated) ∧
      updated.attempts = row.attempts + 1 ∧ updated.next = some next ∧ updated.state = .pending ∧
      updated.commandId = row.commandId := by
  unfold recordOutboxFailure recordFailure
  rw [hmicros]
  dsimp only
  rw [hnext,hrow]
  dsimp only
  rw [if_neg (not_not.mpr hpending),if_neg (Nat.succ_ne_self _).symm,if_neg (not_not.mpr rfl)]
  exact ⟨_,rfl,rfl,rfl,hpending,rfl⟩

/-- The only row that can be due is claimed when its retry time is not later as a text. -/
theorem claimed_iff (hupdated : w.outbox.lookup updated.commandId = some updated) (hpending : updated.state = .pending)
    (hnext : updated.next = some next) (hlease : ∃ u, reservationUntil p later = .ok u)
    (hothers : ∀ id other, id ≠ updated.commandId → w.outbox.lookup id = some other → other.due later = false) :
    (claimDueRow p later w).2 = .ok (.claimed updated.commandId) ↔ isoText next ≤ isoText later := by
  obtain ⟨reservation,hreservation⟩ := hlease
  have hdue : updated.due later = true ↔ isoText next ≤ isoText later := by simp [OutboxRow.due,hpending,hnext]
  unfold claimDueRow
  rw [hreservation,← hdue]
  have honly : ∀ r, firstDue later w = some r → r = updated ∧ updated.due later = true := by
    intro r hr
    obtain ⟨⟨id,hid⟩,hrdue⟩ := firstDue_found hr
    by_cases hsame : id = updated.commandId
    · subst hsame
      obtain rfl := some_unique hid hupdated
      exact ⟨rfl,hrdue⟩
    · rw [hothers id r hsame hid] at hrdue
      cases hrdue
  cases hfirst : firstDue later w with
  | none =>
    refine iff_of_false (by simp) fun h => ?_
    have hmem : updated ∈ (w.outbox.entries.map (·.2)).filter fun row => row.due later :=
      mem_filter.mpr ⟨mem_map.mpr ⟨_,mem_lookup_iff.mp hupdated,rfl⟩,h⟩
    have hnone := head?_eq_none_iff.mp hfirst
    rw [← mem_insertionSort (fun a b => dueOrder a b = true),hnone] at hmem
    cases hmem
  | some r =>
    obtain ⟨rfl,h⟩ := honly r hfirst
    exact ⟨fun _ => h,fun _ => rfl⟩

/-- A failure is recorded, with a delay that never shrinks and is that of the other formula, and the row is
claimed again from the retry time on. -/
def Retried (base max : ℚ) (row : OutboxRow) (now later : DateTime) (diagnostic : String) (p : Processor) (w : OutboxWorld) : Prop :=
  ∃ delay next updated, retryDelay base max row.attempts = .ok delay ∧ delay ≤ max ∧
    (∀ m ≤ row.attempts, ∀ earlier, retryDelay base max m = .ok earlier → earlier ≤ delay) ∧
    delay = computeBackoffDelay (row.attempts + 1) base max ∧
    now.plus (roundMicros delay) = .ok next ∧ (recordOutboxFailure base max row now diagnostic w).2 = .ok updated ∧
    updated.attempts = row.attempts + 1 ∧ updated.next = some next ∧
    ((claimDueRow p later (recordOutboxFailure base max row now diagnostic w).1).2 = .ok (.claimed row.commandId) ↔ next ≤ later)

/-- Fewer than 1024 failures, of which all from the hundredth on have the greatest delay; a retry time that
the calendar holds, and that is no whole second before nor a fraction after the one of the claim. -/
def Lasts (base max : ℚ) (attempts : ℕ) (now later : DateTime) : Prop :=
  attempts < 1024 ∧ (attempts < 100 ∨ max ≤ base * 2 ^ attempts) ∧
    ∃ next, now.plus (roundMicros (min max (base * 2 ^ attempts))) = .ok next ∧ ¬ WholeBefore next later ∧ ¬ WholeBefore later next

def failedRow : OutboxRow :=
  ⟨sampleCommand,sampleSession,1,resultSha256 sampleResult,sampleDocument.path,.pending,6,some sampleDocument.now,some "offline",
    none,none,sampleDocument.now⟩

def failedOutbox : OutboxWorld :=
  { (stageResult resultSha256 sampleCommand sampleDocument sampleOutbox).1 with
    outbox := (∅ : AList fun _ => OutboxRow).insert sampleCommand failedRow }

end Bdb.Bridge.Outbox
