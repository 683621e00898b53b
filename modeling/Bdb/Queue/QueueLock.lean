import Mathlib.Data.Fintype.Basic
import Bdb.Base.Runs

/-! # The lock file of the queue

Every use of the queue runs one lock call, named by its fresh owner token. The call is
a sequence of file steps, and the steps of all calls interleave freely with each other
and with crashes of their processes. A stale lock is removed by its path, after two
looks at its content.
-/
namespace Bdb.Queue.Lock

variable {Token Proc : Type} [DecidableEq Token]

/-- Which process makes a lock call, and the process identifiers the system gave out. -/
structure World (Token Proc : Type) where
  process : Token → Proc
  pid : Proc → ℕ
  posix : Bool

structure LockInfo (Token : Type) where
  ownerToken : Token
  pid : ℕ
  acquiredAt : ℕ
deriving DecidableEq

/-- The file at the lock path: the call that created it, and its metadata once they are
written in full. -/
structure LockFile (Token : Type) where
  creator : Token
  info : Option (LockInfo Token)
deriving DecidableEq

/-- Where a lock call stands. -/
inductive Pc (Token : Type) where
  | idle
  | trying
  | created
  | critical
  | comparing
  | releasing
  | finished
  | contended
  | testing (info : Option (LockInfo Token))
  | rereading (info : LockInfo Token)
  | reclaiming (info : LockInfo Token)
  | dead
deriving DecidableEq

inductive ProcStatus where
  | future
  | running
  | exited
deriving DecidableEq

structure State (Token Proc : Type) where
  lock : Option (LockFile Token)
  pc : Token → Pc Token
  status : Proc → ProcStatus

def initial : State Token Proc := ⟨none,fun _ => .idle,fun _ => .future⟩

/-- What the system answers about a process identifier. -/
inductive Probe where
  | running
  | gone
  | denied
deriving DecidableEq

/-- On POSIX a refused signal counts as a dead process, on Windows a refused handle
counts as a live one. -/
def isPidAlive (posix : Bool) : Probe → Bool
  | .running => true
  | .gone => false
  | .denied => !posix

inductive Written where
  | full
  | short
  | refused
  | failed
deriving DecidableEq

/-- One file step of a call, or a process that starts or ends. A `denied` step meets a
sharing violation, an unreadable file is reported as one without metadata. -/
inductive Event (Token Proc : Type) where
  | boot (p : Proc)
  | crash (p : Proc)
  | start (t : Token)
  | create (t : Token) (denied : Bool)
  | write (t : Token) (now : ℕ) (written : Written)
  | leave (t : Token)
  | compare (t : Token) (readable : Bool)
  | release (t : Token) (denied : Bool)
  | inspect (t : Token) (readable : Bool)
  | test (t : Token) (probe : Probe) (now : ℕ) (late : Bool)
  | reread (t : Token) (readable : Bool)
  | reclaim (t : Token) (denied : Bool)

/-- Ten seconds in microseconds. -/
def staleLockMicros : ℕ := 10000000

def State.goto (s : State Token Proc) (t : Token) (pc : Pc Token) : State Token Proc :=
  { s with pc := Function.update s.pc t pc }

/-- The metadata on disk, when they can be read. -/
def State.readLockInfo (s : State Token Proc) (readable : Bool) : Option (LockInfo Token) :=
  if readable then s.lock.bind (·.info) else none

def isLockStale (posix : Bool) (probe : Probe) (now : ℕ) (info : LockInfo Token) : Bool :=
  !isPidAlive posix probe && decide (info.acquiredAt + staleLockMicros ≤ now)

variable (w : World Token Proc)

/-- The metadata a call writes into the file it created. -/
def ownInfo (t : Token) (now : ℕ) : LockInfo Token := ⟨t,w.pid (w.process t),now⟩

/-- The write goes to the created file, also when the path no longer names it. -/
def writeInfo (t : Token) (now : ℕ) (lock : Option (LockFile Token)) : Option (LockFile Token) :=
  lock.map (fun f => if f.creator = t then { f with info := some (ownInfo w t now) } else f)

def step [DecidableEq Proc] (s : State Token Proc) : Event Token Proc → State Token Proc
  | .boot p => if s.status p = .future then { s with status := Function.update s.status p .running } else s
  | .crash p =>
    if s.status p = .running then
      { s with
        status := Function.update s.status p .exited
        pc := fun t => if w.process t = p then .dead else s.pc t }
    else s
  | .start t => if s.pc t = .idle ∧ s.status (w.process t) = .running then s.goto t .trying else s
  | .create t denied =>
    if s.pc t = .trying then
      if s.lock = none ∧ denied = false then { s.goto t .created with lock := some ⟨t,none⟩ }
      else s.goto t .contended
    else s
  | .write t now written =>
    if s.pc t = .created then
      match written with
      | .full => { s.goto t .critical with lock := writeInfo w t now s.lock }
      | .short => s.goto t .critical
      | .refused => s.goto t .contended
      | .failed => s.goto t .finished
    else s
  | .leave t => if s.pc t = .critical then s.goto t .comparing else s
  | .compare t readable =>
    if s.pc t = .comparing then
      match s.readLockInfo readable with
      | some info => if info.ownerToken = t then s.goto t .releasing else s.goto t .finished
      | none => s.goto t .finished
    else s
  | .release t denied =>
    if s.pc t = .releasing then
      if denied then s.goto t .finished else { s.goto t .finished with lock := none }
    else s
  | .inspect t readable =>
    if s.pc t = .contended then s.goto t (.testing (s.readLockInfo readable)) else s
  | .test t probe now late =>
    match s.pc t with
    | .testing (some info) =>
      if isLockStale w.posix probe now info then s.goto t (.rereading info)
      else s.goto t (if late then .finished else .trying)
    | .testing none => s.goto t (if late then .finished else .trying)
    | _ => s
  | .reread t readable =>
    match s.pc t with
    | .rereading info =>
      match s.readLockInfo readable with
      | some current =>
        if current.ownerToken = info.ownerToken then s.goto t (.reclaiming info) else s.goto t .trying
      | none => s.goto t .trying
    | _ => s
  | .reclaim t denied =>
    match s.pc t with
    | .reclaiming _ => if denied then s.goto t .trying else { s.goto t .trying with lock := none }
    | _ => s

def run [DecidableEq Proc] (events : List (Event Token Proc)) : State Token Proc := events.foldl (step w) initial

/-! ## What is assumed of the system, and of the steps -/

/-- The metadata a call is about to test. -/
def State.tested (s : State Token Proc) (t : Token) : Option (LockInfo Token) :=
  match s.pc t with
  | .testing info => info
  | _ => none

/-- The metadata that justified the unlink a call is about to make. -/
def State.condemned (s : State Token Proc) (t : Token) : Option (LockInfo Token) :=
  match s.pc t with
  | .reclaiming info => some info
  | _ => none

/-- No process with the identifier in the metadata runs. -/
def OwnerGone (s : State Token Proc) (info : LockInfo Token) : Prop :=
  ∀ p, w.pid p = info.pid → s.status p ≠ .running

/-- The system reports a process as gone only when no process with its identifier runs. -/
def Honest (s : State Token Proc) : Event Token Proc → Prop
  | .test t .gone _ _ => ∀ info ∈ s.tested t, OwnerGone w s info
  | _ => True

/-- A reclaiming unlink meets no file but the one whose token was read again. -/
def SameFile (s : State Token Proc) : Event Token Proc → Prop
  | .reclaim t false => ∀ info ∈ s.condemned t, ∀ f ∈ s.lock,
      f.info.map (·.ownerToken) = some info.ownerToken
  | _ => True

/-- On POSIX no running owner refuses the signal of a stale test. -/
def Signalled (s : State Token Proc) : Event Token Proc → Prop
  | .test t .denied _ _ => w.posix = true → ∀ info ∈ s.tested t, OwnerGone w s info
  | _ => True

section Decide

variable [Fintype Proc]

instance (s : State Token Proc) (info : LockInfo Token) : Decidable (OwnerGone w s info) :=
  inferInstanceAs (Decidable (∀ p, w.pid p = info.pid → s.status p ≠ .running))

instance (s : State Token Proc) : (e : Event Token Proc) → Decidable (Honest w s e)
  | .test t .gone _ _ => inferInstanceAs (Decidable (∀ info ∈ s.tested t, OwnerGone w s info))
  | .test _ .running _ _ | .test _ .denied _ _ | .boot _ | .crash _ | .start _ | .create _ _ | .write _ _ _
  | .leave _ | .compare _ _ | .release _ _ | .inspect _ _ | .reread _ _ | .reclaim _ _ => .isTrue trivial

instance (s : State Token Proc) : (e : Event Token Proc) → Decidable (Signalled w s e)
  | .test t .denied _ _ =>
    inferInstanceAs (Decidable (w.posix = true → ∀ info ∈ s.tested t, OwnerGone w s info))
  | .test _ .running _ _ | .test _ .gone _ _ | .boot _ | .crash _ | .start _ | .create _ _ | .write _ _ _
  | .leave _ | .compare _ _ | .release _ _ | .inspect _ _ | .reread _ _ | .reclaim _ _ => .isTrue trivial

omit [Fintype Proc] in
instance (s : State Token Proc) : (e : Event Token Proc) → Decidable (SameFile s e)
  | .reclaim t false => inferInstanceAs (Decidable (∀ info ∈ s.condemned t, ∀ f ∈ s.lock,
      f.info.map (·.ownerToken) = some info.ownerToken))
  | .reclaim _ true | .test _ _ _ _ | .boot _ | .crash _ | .start _ | .create _ _ | .write _ _ _
  | .leave _ | .compare _ _ | .release _ _ | .inspect _ _ | .reread _ _ => .isTrue trivial

end Decide

/-- A step that is reported honestly and meets the two conditions. -/
def Careful (s : State Token Proc) (e : Event Token Proc) : Prop :=
  Honest w s e ∧ SameFile s e ∧ Signalled w s e

instance [Fintype Proc] (s : State Token Proc) (e : Event Token Proc) : Decidable (Careful w s e) :=
  inferInstanceAs (Decidable (Honest w s e ∧ SameFile s e ∧ Signalled w s e))

/-! ## The invariant -/

/-- The call has created the lock file and not yet given it up. -/
def Pc.owning : Pc Token → Bool
  | .created | .critical | .comparing | .releasing => true
  | _ => false

/-- The call is under way. -/
def Pc.active : Pc Token → Bool
  | .idle | .finished | .dead => false
  | _ => true

/-- The metadata name the call that wrote them and its process. -/
def Wrote (s : State Token Proc) (info : LockInfo Token) : Prop :=
  info.pid = w.pid (w.process info.ownerToken) ∧ s.pc info.ownerToken ≠ .idle

structure Inv (s : State Token Proc) : Prop where
  owner : ∀ t, (s.pc t).owning = true → ∃ f, s.lock = some f ∧ f.creator = t
  running : ∀ t, (s.pc t).active = true → s.status (w.process t) = .running
  started : ∀ t, s.pc t ≠ .idle → s.status (w.process t) ≠ .future
  exited : ∀ t, s.status (w.process t) = .exited → s.pc t = .dead
  file : ∀ f info, s.lock = some f → f.info = some info → info.ownerToken = f.creator ∧ Wrote w s info
  seen : ∀ t info, s.pc t = .testing (some info) → Wrote w s info
  stale : ∀ t info, s.pc t = .rereading info ∨ s.pc t = .reclaiming info →
    s.status (w.process info.ownerToken) = .exited

variable {w} {s : State Token Proc}

omit [DecidableEq Token] in
theorem inv_initial : Inv w (initial : State Token Proc) := by
  refine ⟨?_,?_,?_,?_,?_,?_,?_⟩
  · intro t h
    cases h
  · intro t h
    cases h
  · intro t h
    exact absurd rfl h
  · intro t h
    cases h
  · intro f info h
    cases h
  · intro t info h
    cases h
  · intro t info h
    rcases h with h | h <;> cases h

theorem goto_pc (s : State Token Proc) (t u : Token) (pc : Pc Token) :
    (s.goto t pc).pc u = if u = t then pc else s.pc u := by
  simp [State.goto,Function.update_apply]

variable {t : Token} {pc : Pc Token} {info : LockInfo Token}

theorem wrote_goto (h : Wrote w s info) (hidle : pc ≠ .idle) : Wrote w (s.goto t pc) info := by
  refine ⟨h.1,?_⟩
  rw [goto_pc]
  split
  · exact hidle
  · exact h.2

section

variable (h : Inv w s) (hrun : s.status (w.process t) = .running)

include h hrun

theorem Inv.move {lock : Option (LockFile Token)} (hidle : pc ≠ .idle)
    (howner : ∀ u, ((s.goto t pc).pc u).owning = true → ∃ f, lock = some f ∧ f.creator = u)
    (hfile : ∀ f info, lock = some f → f.info = some info →
      info.ownerToken = f.creator ∧ Wrote w (s.goto t pc) info)
    (hseen : ∀ info, pc = .testing (some info) → Wrote w s info)
    (hstale : ∀ info, pc = .rereading info ∨ pc = .reclaiming info →
      s.status (w.process info.ownerToken) = .exited) :
    Inv w { s.goto t pc with lock := lock } := by
  refine ⟨howner,?_,?_,?_,hfile,?_,?_⟩
  · intro u hu
    change ((s.goto t pc).pc u).active = true at hu
    rw [goto_pc] at hu
    split at hu
    · rename_i hut
      rw [hut]
      exact hrun
    · exact h.running u hu
  · intro u hu
    change (s.goto t pc).pc u ≠ .idle at hu
    rw [goto_pc] at hu
    split at hu
    · rename_i hut
      change s.status (w.process u) ≠ .future
      rw [hut,hrun]
      exact nofun
    · exact h.started u hu
  · intro u hu
    change s.status (w.process u) = .exited at hu
    change (s.goto t pc).pc u = .dead
    rw [goto_pc]
    split
    · rename_i hut
      rw [hut,hrun] at hu
      cases hu
    · exact h.exited u hu
  · intro u info hu
    change (s.goto t pc).pc u = .testing (some info) at hu
    refine wrote_goto ?_ hidle
    rw [goto_pc] at hu
    split at hu
    · exact hseen info hu
    · exact h.seen u info hu
  · intro u info hu
    change (s.goto t pc).pc u = .rereading info ∨ (s.goto t pc).pc u = .reclaiming info at hu
    rw [goto_pc] at hu
    split at hu
    · exact hstale info hu
    · exact h.stale u info hu

theorem Inv.goto (hidle : pc ≠ .idle) (howner : pc.owning = true → (s.pc t).owning = true)
    (hseen : ∀ info, pc = .testing (some info) → Wrote w s info)
    (hstale : ∀ info, pc = .rereading info ∨ pc = .reclaiming info →
      s.status (w.process info.ownerToken) = .exited) : Inv w (s.goto t pc) := by
  refine h.move hrun hidle ?_ ?_ hseen hstale
  · intro u hu
    rw [goto_pc] at hu
    split at hu
    · rename_i hut
      rw [hut]
      exact h.owner t (howner hu)
    · exact h.owner u hu
  · intro f info hf hinfo
    obtain ⟨hcreator,hwrote⟩ := h.file f info hf hinfo
    exact ⟨hcreator,wrote_goto hwrote hidle⟩

theorem Inv.pass (howner : pc.owning = true → (s.pc t).owning = true)
    (hpc : pc = .trying ∨ pc = .critical ∨ pc = .comparing ∨ pc = .releasing ∨ pc = .finished ∨
      pc = .contended ∨ pc = .testing none) : Inv w (s.goto t pc) := by
  refine h.goto hrun ?_ howner ?_ ?_
  · rcases hpc with rfl | rfl | rfl | rfl | rfl | rfl | rfl <;> exact nofun
  · intro info hinfo
    rcases hpc with rfl | rfl | rfl | rfl | rfl | rfl | rfl <;> cases hinfo
  · intro info hinfo
    rcases hpc with rfl | rfl | rfl | rfl | rfl | rfl | rfl <;> rcases hinfo with hi | hi <;> cases hi

end

omit [DecidableEq Token] in
theorem Inv.wrote_of_read (h : Inv w s) {readable : Bool} (hread : s.readLockInfo readable = some info) :
    ∃ f, s.lock = some f ∧ f.info = some info ∧ info.ownerToken = f.creator ∧ Wrote w s info := by
  unfold State.readLockInfo at hread
  split at hread
  · obtain ⟨f,hf,hinfo⟩ := Option.bind_eq_some_iff.mp hread
    exact ⟨f,hf,hinfo,h.file f info hf hinfo⟩
  · cases hread

omit [DecidableEq Token] in
theorem Inv.owner_unique (h : Inv w s) {u : Token} (ht : (s.pc t).owning = true)
    (hu : (s.pc u).owning = true) : t = u := by
  obtain ⟨f,hf,rfl⟩ := h.owner t ht
  obtain ⟨g,hg,rfl⟩ := h.owner u hu
  rw [hf] at hg
  cases hg
  rfl

omit [DecidableEq Token] in
theorem Inv.exited_of_stale (h : Inv w s) {probe : Probe} {now : ℕ} {late : Bool}
    (hpc : s.pc t = .testing (some info))
    (hstale : isLockStale w.posix probe now info = true)
    (honest : Honest w s (.test t probe now late)) (hsignal : Signalled w s (.test t probe now late)) :
    s.status (w.process info.ownerToken) = .exited := by
  obtain ⟨hpid,hstarted⟩ := h.seen t info hpc
  have htested : info ∈ s.tested t := by simp [State.tested,hpc]
  have hnot : s.status (w.process info.ownerToken) ≠ .running := by
    unfold isLockStale at hstale
    rw [Bool.and_eq_true] at hstale
    cases probe with
    | running => cases hstale.1
    | gone => exact honest info htested _ hpid.symm
    | denied =>
      have hposix : w.posix = true := by simpa [isPidAlive] using hstale.1
      exact hsignal hposix info htested _ hpid.symm
  have hfuture := h.started info.ownerToken hstarted
  cases hst : s.status (w.process info.ownerToken) with
  | future => exact absurd hst hfuture
  | running => exact absurd hst hnot
  | exited => rfl

omit [DecidableEq Token] in
theorem Inv.boot [DecidableEq Proc] (h : Inv w s) {p : Proc} (hp : s.status p = .future) :
    Inv w { s with status := Function.update s.status p .running } := by
  have hkeep : ∀ u, s.pc u ≠ .idle → w.process u ≠ p := by
    intro u hu hup
    exact h.started u hu (hup ▸ hp)
  have hstatus : ∀ u, w.process u ≠ p →
      Function.update s.status p .running (w.process u) = s.status (w.process u) :=
    fun u hu => Function.update_of_ne hu _ _
  refine ⟨h.owner,?_,?_,?_,h.file,h.seen,?_⟩
  · intro u hu
    have hidle : s.pc u ≠ .idle := by
      intro hi
      rw [hi] at hu
      cases hu
    exact (hstatus u (hkeep u hidle)).trans (h.running u hu)
  · intro u hu
    change Function.update s.status p .running (w.process u) ≠ .future
    rw [hstatus u (hkeep u hu)]
    exact h.started u hu
  · intro u hu
    change Function.update s.status p .running (w.process u) = .exited at hu
    by_cases hup : w.process u = p
    · rw [hup,Function.update_self] at hu
      cases hu
    · rw [hstatus u hup] at hu
      exact h.exited u hu
  · intro u info hu
    have hex := h.stale u info hu
    have hne : w.process info.ownerToken ≠ p := by
      intro hp'
      rw [hp',hp] at hex
      cases hex
    exact (hstatus info.ownerToken hne).trans hex

omit [DecidableEq Token] in
theorem Inv.crash [DecidableEq Proc] (h : Inv w s) {p : Proc} (hp : s.status p = .running) :
    Inv w { s with
      status := Function.update s.status p .exited
      pc := fun t => if w.process t = p then .dead else s.pc t } := by
  have hwrote : ∀ info, Wrote w s info → Wrote w { s with
      status := Function.update s.status p .exited
      pc := fun t => if w.process t = p then .dead else s.pc t } info := by
    intro info hi
    refine ⟨hi.1,?_⟩
    dsimp only
    split
    · exact nofun
    · exact hi.2
  refine ⟨?_,?_,?_,?_,?_,?_,?_⟩
  · intro u hu
    dsimp only at hu
    split at hu
    · cases hu
    · exact h.owner u hu
  · intro u hu
    dsimp only at hu ⊢
    split at hu
    · cases hu
    · rename_i hup
      rw [Function.update_of_ne hup]
      exact h.running u hu
  · intro u hu
    dsimp only at hu ⊢
    split at hu
    · rename_i hup
      rw [hup,Function.update_self]
      exact nofun
    · rename_i hup
      rw [Function.update_of_ne hup]
      exact h.started u hu
  · intro u hu
    dsimp only at hu ⊢
    split
    · rfl
    · rename_i hup
      rw [Function.update_of_ne hup] at hu
      exact h.exited u hu
  · intro f info hf hinfo
    obtain ⟨hcreator,hi⟩ := h.file f info hf hinfo
    exact ⟨hcreator,hwrote info hi⟩
  · intro u info hu
    dsimp only at hu
    split at hu
    · cases hu
    · exact hwrote info (h.seen u info hu)
  · intro u info hu
    dsimp only at hu ⊢
    have hex : s.status (w.process info.ownerToken) = .exited := by
      split at hu
      · rcases hu with hu | hu <;> cases hu
      · exact h.stale u info hu
    by_cases hup : w.process info.ownerToken = p
    · rw [hup,hp] at hex
      cases hex
    · rw [Function.update_of_ne hup]
      exact hex

theorem Inv.create (h : Inv w s) (ht : s.pc t = .trying) (hlock : s.lock = none) :
    Inv w { s.goto t .created with lock := some ⟨t,none⟩ } := by
  refine h.move (h.running t (by rw [ht]; rfl)) nofun ?_ ?_ nofun ?_
  · intro u hu
    rw [goto_pc] at hu
    split at hu
    · rename_i hut
      exact ⟨_,rfl,hut.symm⟩
    · obtain ⟨f,hf,-⟩ := h.owner u hu
      rw [hlock] at hf
      cases hf
  · intro f info hf hinfo
    cases hf
    cases hinfo
  · intro info hinfo
    rcases hinfo with hi | hi <;> cases hi

theorem Inv.writeFull (h : Inv w s) (ht : s.pc t = .created) (now : ℕ) :
    Inv w { s.goto t .critical with lock := writeInfo w t now s.lock } := by
  obtain ⟨f,hf,hcreator⟩ := h.owner t (by rw [ht]; rfl)
  have hlock : writeInfo w t now s.lock = some { f with info := some (ownInfo w t now) } := by
    simp [writeInfo,hf,hcreator]
  rw [hlock]
  refine h.move (h.running t (by rw [ht]; rfl)) nofun ?_ ?_ nofun ?_
  · intro u hu
    rw [goto_pc] at hu
    split at hu
    · rename_i hut
      exact ⟨_,rfl,hcreator.trans hut.symm⟩
    · obtain ⟨g,hg,hgu⟩ := h.owner u hu
      rw [hf] at hg
      cases hg
      exact ⟨_,rfl,hgu⟩
  · intro g info hg hinfo
    cases hg
    cases hinfo
    refine ⟨hcreator.symm,rfl,?_⟩
    change (s.goto t .critical).pc t ≠ .idle
    rw [goto_pc,if_pos rfl]
    exact nofun
  · intro info hinfo
    rcases hinfo with hi | hi <;> cases hi

theorem Inv.unlink (h : Inv w s) (hrun : s.status (w.process t) = .running)
    (hpc : pc = .trying ∨ pc = .finished)
    (hcreator : ∀ f, s.lock = some f → f.creator = t ∨ s.status (w.process f.creator) = .exited) :
    Inv w { s.goto t pc with lock := none } := by
  have hidle : pc ≠ .idle := by rcases hpc with rfl | rfl <;> exact nofun
  refine h.move hrun hidle ?_ ?_ ?_ ?_
  · intro u hu
    rw [goto_pc] at hu
    split at hu
    · rcases hpc with rfl | rfl <;> cases hu
    · rename_i hut
      obtain ⟨f,hf,rfl⟩ := h.owner u hu
      rcases hcreator f hf with hsame | hex
      · exact absurd hsame hut
      · rw [h.exited f.creator hex] at hu
        cases hu
  · intro f info hf
    cases hf
  · intro info hinfo
    rcases hpc with rfl | rfl <;> cases hinfo
  · intro info hinfo
    rcases hpc with rfl | rfl <;> rcases hinfo with hi | hi <;> cases hi

omit [DecidableEq Token] in
theorem Inv.unlinked_creator (h : Inv w s) {f : LockFile Token}
    (hpc : s.pc t = .reclaiming info) (hlock : s.lock = some f) (same : SameFile s (.reclaim t false)) :
    s.status (w.process f.creator) = .exited := by
  have htoken := same info (by simp [State.condemned,hpc]) f hlock
  obtain ⟨current,hcurrent,hequal⟩ := Option.map_eq_some_iff.mp htoken
  have hcreator := (h.file f current hlock hcurrent).1
  have hex := h.stale t info (.inr hpc)
  rw [← hequal,hcreator] at hex
  exact hex

variable [DecidableEq Proc]

theorem inv_step (h : Inv w s) (e : Event Token Proc) (honest : Honest w s e) (same : SameFile s e)
    (signal : Signalled w s e) : Inv w (step w s e) := by
  have hactive : ∀ t, (s.pc t).active = true → s.status (w.process t) = .running := h.running
  cases e with
  | boot p =>
    simp only [step]
    split
    · exact h.boot ‹_›
    · exact h
  | crash p =>
    simp only [step]
    split
    · exact h.crash ‹_›
    · exact h
  | start t =>
    simp only [step]
    split
    · rename_i ht
      exact h.pass ht.2 nofun (by simp)
    · exact h
  | create t denied =>
    simp only [step]
    split
    · rename_i ht
      split
      · rename_i hfree
        exact h.create ht hfree.1
      · exact h.pass (hactive t (by rw [ht]; rfl)) nofun (by simp)
    · exact h
  | write t now written =>
    simp only [step]
    split
    · rename_i ht
      have hrun := hactive t (by rw [ht]; rfl)
      cases written with
      | full => exact h.writeFull ht now
      | short => exact h.pass hrun (fun _ => by rw [ht]; rfl) (by simp)
      | refused => exact h.pass hrun nofun (by simp)
      | failed => exact h.pass hrun nofun (by simp)
    · exact h
  | leave t =>
    simp only [step]
    split
    · rename_i ht
      exact h.pass (hactive t (by rw [ht]; rfl)) (fun _ => by rw [ht]; rfl) (by simp)
    · exact h
  | compare t readable =>
    simp only [step]
    split
    · rename_i ht
      have hrun := hactive t (by rw [ht]; rfl)
      split
      · split
        · exact h.pass hrun (fun _ => by rw [ht]; rfl) (by simp)
        · exact h.pass hrun nofun (by simp)
      · exact h.pass hrun nofun (by simp)
    · exact h
  | release t denied =>
    simp only [step]
    split
    · rename_i ht
      have hrun := hactive t (by rw [ht]; rfl)
      split
      · exact h.pass hrun nofun (by simp)
      · refine h.unlink hrun (.inr rfl) ?_
        intro f hf
        obtain ⟨g,hg,hcreator⟩ := h.owner t (by rw [ht]; rfl)
        rw [hf] at hg
        cases hg
        exact .inl hcreator
    · exact h
  | inspect t readable =>
    simp only [step]
    split
    · rename_i ht
      refine h.goto (hactive t (by rw [ht]; rfl)) nofun nofun ?_ ?_
      · intro info hinfo
        obtain ⟨f,-,-,-,hwrote⟩ := h.wrote_of_read (Pc.testing.inj hinfo)
        exact hwrote
      · intro info hinfo
        rcases hinfo with hi | hi <;> cases hi
    · exact h
  | test t probe now late =>
    have hback : s.status (w.process t) = .running → Inv w (s.goto t (if late then .finished else .trying)) := by
      intro hrun
      cases late
      all_goals exact h.pass hrun nofun (by simp)
    simp only [step]
    split
    · rename_i info ht
      have hrun := hactive t (by rw [ht]; rfl)
      split
      · rename_i hstale
        have hex := h.exited_of_stale ht hstale honest signal
        refine h.goto hrun nofun nofun nofun ?_
        intro info' hinfo
        rcases hinfo with hi | hi
        · cases hi
          exact hex
        · cases hi
      · exact hback hrun
    · rename_i ht
      exact hback (hactive t (by rw [ht]; rfl))
    · exact h
  | reread t readable =>
    simp only [step]
    split
    · rename_i info ht
      have hrun := hactive t (by rw [ht]; rfl)
      split
      · split
        · refine h.goto hrun nofun nofun nofun ?_
          intro info' hinfo
          rcases hinfo with hi | hi
          · cases hi
          · cases hi
            exact h.stale t info (.inl ht)
        · exact h.pass hrun nofun (by simp)
      · exact h.pass hrun nofun (by simp)
    · exact h
  | reclaim t denied =>
    simp only [step]
    split
    · rename_i info ht
      have hrun := hactive t (by rw [ht]; rfl)
      cases denied with
      | true => exact h.pass hrun nofun (by simp)
      | false =>
        refine h.unlink hrun (.inl rfl) ?_
        intro f hf
        exact .inr (h.unlinked_creator ht hf same)
    · exact h

theorem inv_run {events : List (Event Token Proc)} (h : Along (step w) (Careful w) initial events) :
    Inv w (run w events) :=
  Along.invariant (I := Inv w) (fun _ e hs hc => inv_step hs e hc.1 hc.2.1 hc.2.2) h inv_initial

theorem unlinked_cases {f : LockFile Token} {e : Event Token Proc} (hf : s.lock = some f)
    (hgone : (step w s e).lock = none) :
    (∃ t, e = .release t false ∧ s.pc t = .releasing) ∨
      ∃ t info, e = .reclaim t false ∧ s.pc t = .reclaiming info := by
  cases e with
  | release t denied =>
    simp only [step] at hgone
    split at hgone
    · rename_i ht
      cases denied with
      | true =>
        simp only [State.goto,if_true,hf] at hgone
        cases hgone
      | false => exact .inl ⟨t,rfl,ht⟩
    · rw [hf] at hgone
      cases hgone
  | reclaim t denied =>
    simp only [step] at hgone
    split at hgone
    · rename_i info ht
      cases denied with
      | true =>
        simp only [State.goto,if_true,hf] at hgone
        cases hgone
      | false => exact .inr ⟨t,info,rfl,ht⟩
    · rw [hf] at hgone
      cases hgone
  | write t now written =>
    exfalso
    simp only [step] at hgone
    split at hgone
    · cases written with
      | full => simp [writeInfo,hf] at hgone
      | short => simp [State.goto,hf] at hgone
      | refused => simp [State.goto,hf] at hgone
      | failed => simp [State.goto,hf] at hgone
    · rw [hf] at hgone
      cases hgone
  | _ =>
    exfalso
    simp only [step] at hgone
    repeat' split at hgone
    all_goals simp [State.goto,hf] at hgone

/-- In every careful run at most one live call is in its critical section, and no step
unlinks the lock file of a live owner other than the call that takes the step. -/
theorem queue_lock_is_exclusive {events : List (Event Token Proc)}
    (h : Along (step w) (Careful w) initial events) :
    (∀ done rest t u, events = done ++ rest → (run w done).pc t = .critical →
      (run w done).pc u = .critical → t = u) ∧
    ∀ done e rest f, events = done ++ e :: rest → (run w done).lock = some f →
      (step w (run w done) e).lock = none →
        e = .release f.creator false ∨ (run w done).status (w.process f.creator) = .exited := by
  constructor
  · intro done rest t u hsplit ht hu
    subst hsplit
    exact (inv_run h.left).owner_unique (by rw [ht]; rfl) (by rw [hu]; rfl)
  · intro done e rest f hsplit hf hgone
    obtain ⟨-,same,-⟩ := h.at hsplit
    subst hsplit
    have hinv := inv_run h.left
    rcases unlinked_cases hf hgone with ⟨t,rfl,ht⟩ | ⟨t,info,rfl,ht⟩
    · obtain ⟨g,hg,rfl⟩ := hinv.owner t (by rw [ht]; rfl)
      rw [hf] at hg
      cases hg
      exact .inl rfl
    · exact .inr (hinv.unlinked_creator ht hf same)

/-! ## Three processes -/

def sampleWorld : World (Fin 3) (Fin 3) := ⟨id,fun p => p.val + 1,true⟩

/-- The first process crashes in its critical section and leaves its lock behind. -/
def abandoned : List (Event (Fin 3) (Fin 3)) :=
  [.boot 0,.boot 1,.boot 2,.start 0,.create 0 false,.write 0 0 .full,.crash 0]

/-- A process finds the abandoned lock stale, and reads it again. -/
def condemn (t : Fin 3) : List (Event (Fin 3) (Fin 3)) :=
  [.start t,.create t false,.inspect t true,.test t .gone 10000000 false,.reread t true]

/-- A process removes the file it has condemned and takes the lock. -/
def takeOver (t : Fin 3) : List (Event (Fin 3) (Fin 3)) :=
  [.reclaim t false,.create t false,.write t 10000001 .full]

/-- One reclaimer alone recovers the lock safely. -/
theorem queue_lock_is_exclusive_recovered :
    (run sampleWorld (abandoned ++ condemn 1 ++ takeOver 1)).pc 1 = .critical ∧
    ∀ t, (run sampleWorld (abandoned ++ condemn 1 ++ takeOver 1)).pc t = .critical → t = 1 := by
  have hcritical : (run sampleWorld (abandoned ++ condemn 1 ++ takeOver 1)).pc 1 = .critical := by decide
  have hcareful : Along (step sampleWorld) (Careful sampleWorld) initial
      (abandoned ++ condemn 1 ++ takeOver 1) := by decide
  refine ⟨hcritical,?_⟩
  intro t ht
  exact (queue_lock_is_exclusive hcareful).1 _ [] t 1 (by simp) ht hcritical

/-- Two reclaimers of one abandoned lock: the slower unlink removes the live lock of the
faster process, and both are in their critical sections. -/
theorem two_reclaimers_share_the_lock :
    Along (step sampleWorld) (Honest sampleWorld) initial
      (abandoned ++ condemn 1 ++ condemn 2 ++ takeOver 1 ++ takeOver 2) ∧
    (run sampleWorld (abandoned ++ condemn 1 ++ condemn 2 ++ takeOver 1 ++ takeOver 2)).pc 1 = .critical ∧
    (run sampleWorld (abandoned ++ condemn 1 ++ condemn 2 ++ takeOver 1 ++ takeOver 2)).pc 2 = .critical ∧
    (run sampleWorld (abandoned ++ condemn 1 ++ condemn 2 ++ takeOver 1)).lock.map (·.creator) = some 1 ∧
    (step sampleWorld (run sampleWorld (abandoned ++ condemn 1 ++ condemn 2 ++ takeOver 1))
      (.reclaim 2 false)).lock = none := by
  decide

end Bdb.Queue.Lock
