import Bdb.Base.Runs

/-! # A lock file that is reclaimed by its age

A call creates a lock file, works on a document and removes the file if it still holds the call's token. A
file that is too old is removed by whoever looks at it. The steps of all calls interleave freely, and a call
may die at any of them. Times are in microseconds.
-/
namespace Bdb.AgedLock

variable {Token σ : Type} [DecidableEq Token]

/-- The file at the lock path: the call that created it, whether it wrote its token, and its last change. -/
structure LockFile (Token : Type) where
  creator : Token
  written : Bool
  modified : ℕ
deriving DecidableEq

/-- Where a call stands. -/
inductive Pc (Token σ : Type) where
  | idle
  | trying
  | contended
  | condemning (creator : Token)
  | created
  | inside
  | working (read : σ)
  | leaving
  | checking
  | removing
  | finished
  | dead

structure State (Token σ : Type) where
  lock : Option (LockFile Token)
  pc : Token → Pc Token σ
  document : σ
  /-- The commits, latest first, with what each was computed from. -/
  commits : List (Token × σ × σ)

def begin (document : σ) : State Token σ := ⟨none,fun _ => .idle,document,[]⟩

inductive Written where
  | full
  | refused
  | failed
deriving DecidableEq

/-- One file step of a call. A `denied` step meets an error of the system. -/
inductive Event (Token : Type) where
  | start (t : Token)
  | create (t : Token) (now : ℕ) (denied : Bool)
  | write (t : Token) (now : ℕ) (written : Written)
  | stat (t : Token) (now : ℕ) (denied : Bool)
  | reclaim (t : Token) (denied : Bool)
  | giveUp (t : Token)
  | read (t : Token) (denied : Bool)
  | commit (t : Token) (denied : Bool)
  | exists (t : Token)
  | readToken (t : Token) (readable : Bool)
  | unlink (t : Token) (denied : Bool)
  | crash (t : Token)
deriving DecidableEq

def State.goto (s : State Token σ) (t : Token) (pc : Pc Token σ) : State Token σ :=
  { s with pc := Function.update s.pc t pc }

/-- The write goes to the created file, also when the path no longer names it. -/
def writeToken (t : Token) (now : ℕ) (lock : Option (LockFile Token)) : Option (LockFile Token) :=
  lock.map fun f => if f.creator = t then { f with written := true, modified := now } else f

/-- How old a file has to be, and what a call makes of the document it reads. -/
structure Setting (Token σ : Type) where
  limit : ℕ
  update : Token → σ → Option σ

variable (w : Setting Token σ)

def step (s : State Token σ) : Event Token → State Token σ
  | .start t =>
    match s.pc t with
    | .idle => s.goto t .trying
    | _ => s
  | .create t now denied =>
    match s.pc t with
    | .trying =>
      if s.lock = none ∧ denied = false then { s.goto t .created with lock := some ⟨t,false,now⟩ }
      else s.goto t .contended
    | _ => s
  | .write t now written =>
    match s.pc t with
    | .created =>
      match written with
      | .full => { s.goto t .inside with lock := writeToken t now s.lock }
      | .refused => s.goto t .inside
      | .failed => s.goto t .finished
    | _ => s
  | .stat t now denied =>
    match s.pc t with
    | .contended =>
      match s.lock with
      | some f => if denied = false ∧ f.modified + w.limit < now then s.goto t (.condemning f.creator) else s.goto t .trying
      | none => s.goto t .trying
    | _ => s
  | .reclaim t denied =>
    match s.pc t with
    | .condemning _ => if denied = true then s.goto t .trying else { s.goto t .trying with lock := none }
    | _ => s
  | .giveUp t =>
    match s.pc t with
    | .trying => s.goto t .finished
    | _ => s
  | .read t denied =>
    match s.pc t with
    | .inside => if denied = true then s.goto t .leaving else s.goto t (.working s.document)
    | _ => s
  | .commit t denied =>
    match s.pc t with
    | .working base =>
      match if denied = true then none else w.update t base with
      | some new => { s.goto t .leaving with document := new, commits := (t,base,new) :: s.commits }
      | none => s.goto t .leaving
    | _ => s
  | .exists t =>
    match s.pc t with
    | .leaving => if s.lock = none then s.goto t .finished else s.goto t .checking
    | _ => s
  | .readToken t readable =>
    match s.pc t with
    | .checking =>
      match s.lock with
      | some f =>
        if readable = true ∧ f.written = true ∧ f.creator = t then s.goto t .removing else s.goto t .finished
      | none => s.goto t .finished
    | _ => s
  | .unlink t denied =>
    match s.pc t with
    | .removing => if denied = true then s.goto t .finished else { s.goto t .finished with lock := none }
    | _ => s
  | .crash t => s.goto t .dead

def run (document : σ) (events : List (Event Token)) : State Token σ := events.foldl (step w) (begin document)

/-! ## Owners -/

namespace Pc

/-- The call has created the lock file and not yet given it up. -/
def owning : Pc Token σ → Bool
  | .created | .inside | .working _ | .leaving | .checking | .removing => true
  | _ => false

/-- The call is in its critical section. -/
def critical : Pc Token σ → Bool
  | .inside | .working _ => true
  | _ => false

/-- The call takes no further step. -/
def left : Pc Token σ → Bool
  | .finished | .dead => true
  | _ => false

/-- The call is about to look at the age of a lock file. -/
def looking : Pc Token σ → Bool
  | .contended => true
  | _ => false

/-- Whose file the call found too old. -/
def condemned : Pc Token σ → Option Token
  | .condemning c => some c
  | _ => none

end Pc

/-- No file of a call that still owns it is too old when its age is looked at. -/
def Prompt (s : State Token σ) : Event Token → Prop
  | .stat t now _ => (s.pc t).looking = true → ∀ f ∈ s.lock, f.modified + w.limit < now → (s.pc f.creator).owning = false
  | _ => True

/-- A reclaiming unlink meets no file but the one whose age was looked at. -/
def SameFile (s : State Token σ) : Event Token → Prop
  | .reclaim t false => ∀ c ∈ (s.pc t).condemned, ∀ f ∈ s.lock, f.creator = c
  | _ => True

def Careful (s : State Token σ) (e : Event Token) : Prop := Prompt w s e ∧ SameFile s e

instance (s : State Token σ) : (e : Event Token) → Decidable (Prompt w s e)
  | .stat t now _ => inferInstanceAs (Decidable ((s.pc t).looking = true → ∀ f ∈ s.lock, f.modified + w.limit < now →
      (s.pc f.creator).owning = false))
  | .start _ | .create _ _ _ | .write _ _ _ | .reclaim _ _ | .giveUp _ | .read _ _ | .commit _ _ | .exists _
  | .readToken _ _ | .unlink _ _ | .crash _ => .isTrue trivial

instance (s : State Token σ) : (e : Event Token) → Decidable (SameFile s e)
  | .reclaim t false => inferInstanceAs (Decidable (∀ c ∈ (s.pc t).condemned, ∀ f ∈ s.lock, f.creator = c))
  | .reclaim _ true | .start _ | .create _ _ _ | .write _ _ _ | .stat _ _ _ | .giveUp _ | .read _ _ | .commit _ _
  | .exists _ | .readToken _ _ | .unlink _ _ | .crash _ => .isTrue trivial

instance (s : State Token σ) (e : Event Token) : Decidable (Careful w s e) :=
  inferInstanceAs (Decidable (Prompt w s e ∧ SameFile s e))

/-! ## What careful runs keep -/

/-- Every commit was computed from what the one before it wrote. -/
def Chained (start : σ) : List (Token × σ × σ) → σ → Prop
  | [], document => document = start
  | (t, base, new) :: rest, document => document = new ∧ w.update t base = some new ∧ Chained start rest base

structure Inv (start : σ) (s : State Token σ) : Prop where
  owner : ∀ t, (s.pc t).owning = true → ∃ f, s.lock = some f ∧ f.creator = t
  past : ∀ f, s.lock = some f → (s.pc f.creator).owning = true ∨ (s.pc f.creator).left = true
  stale : ∀ t c, s.pc t = .condemning c → (s.pc c).left = true
  fresh : ∀ t x, s.pc t = .working x → x = s.document
  chained : Chained w start s.commits s.document

variable {w} {start : σ} {s : State Token σ} {t u : Token} {pc : Pc Token σ}

omit [DecidableEq Token] in
theorem inv_begin (start : σ) : Inv w start (begin start : State Token σ) where
  owner t h := by cases h
  past f h := by cases h
  stale t c h := by cases h
  fresh t x h := by cases h
  chained := rfl

theorem goto_self (s : State Token σ) (t : Token) (pc : Pc Token σ) : (s.goto t pc).pc t = pc := Function.update_self ..

theorem goto_other (s : State Token σ) (pc : Pc Token σ) (h : u ≠ t) : (s.goto t pc).pc u = s.pc u := Function.update_of_ne h ..

variable {pc : Pc Token σ} {events : List (Event Token)}

omit [DecidableEq Token] in
theorem not_over_of_owning (h : pc.owning = true) : pc.left = false := by
  cases pc <;> first | rfl | cases h

omit [DecidableEq Token] in
theorem Inv.owner_unique (h : Inv w start s) (ht : (s.pc t).owning = true) (hu : (s.pc u).owning = true) : t = u := by
  obtain ⟨f,hf,rfl⟩ := h.owner t ht
  obtain ⟨g,hg,rfl⟩ := h.owner u hu
  rw [Option.some.inj (hf.symm.trans hg)]

theorem Inv.goto (h : Inv w start s) (hown : pc.owning = true → (s.pc t).owning = true)
    (hpast : (s.pc t).owning = true ∨ (s.pc t).left = true → pc.owning = true ∨ pc.left = true)
    (hover : (s.pc t).left = true → pc.left = true) (hstale : ∀ c, pc = .condemning c → (s.pc c).left = true)
    (hfresh : ∀ x, pc = .working x → x = s.document) : Inv w start (s.goto t pc) where
  owner u hu := by
    by_cases hut : u = t
    · subst hut
      rw [goto_self] at hu
      exact h.owner u (hown hu)
    · rw [goto_other s pc hut] at hu
      exact h.owner u hu
  past f hf := by
    by_cases hft : f.creator = t
    · rw [hft,goto_self]
      exact hpast (hft ▸ h.past f hf)
    · rw [goto_other s pc hft]
      exact h.past f hf
  stale u c hu := by
    have hc : (s.pc c).left = true := by
      by_cases hut : u = t
      · subst hut
        rw [goto_self] at hu
        exact hstale c hu
      · rw [goto_other s pc hut] at hu
        exact h.stale u c hu
    by_cases hct : c = t
    · subst hct
      rw [goto_self]
      exact hover hc
    · rw [goto_other s pc hct]
      exact hc
  fresh u x hu := by
    by_cases hut : u = t
    · subst hut
      rw [goto_self] at hu
      exact hfresh x hu
    · rw [goto_other s pc hut] at hu
      exact h.fresh u x hu
  chained := h.chained

omit [DecidableEq Token] in
theorem Inv.unlock (h : Inv w start s) (hfree : ∀ u, (s.pc u).owning = false) : Inv w start { s with lock := none } where
  owner u hu := absurd (hu.symm.trans (hfree u)) nofun
  past f hf := by cases hf
  stale := h.stale
  fresh := h.fresh
  chained := h.chained

theorem Inv.create (h : Inv w start s) (ht : s.pc t = .trying) (hlock : s.lock = none) (now : ℕ) :
    Inv w start { s.goto t .created with lock := some ⟨t,false,now⟩ } where
  owner u hu := by
    by_cases hut : u = t
    · exact ⟨_,rfl,hut.symm⟩
    · change ((s.goto t .created).pc u).owning = true at hu
      rw [goto_other s _ hut] at hu
      obtain ⟨f,hf,-⟩ := h.owner u hu
      rw [hlock] at hf
      cases hf
  past f hf := by
    cases hf
    left
    change ((s.goto t .created).pc t).owning = true
    rw [goto_self]
    rfl
  stale u c hu := by
    change (s.goto t .created).pc u = .condemning c at hu
    have hut : u ≠ t := by
      rintro rfl
      rw [goto_self] at hu
      cases hu
    rw [goto_other s _ hut] at hu
    have hc := h.stale u c hu
    have hct : c ≠ t := by
      rintro rfl
      rw [ht] at hc
      cases hc
    change ((s.goto t .created).pc c).left = true
    rwa [goto_other s _ hct]
  fresh u x hu := by
    change (s.goto t .created).pc u = .working x at hu
    have hut : u ≠ t := by
      rintro rfl
      rw [goto_self] at hu
      cases hu
    rw [goto_other s _ hut] at hu
    exact h.fresh u x hu
  chained := h.chained

theorem Inv.ended (h : Inv w start s) (hover : pc.left = true) : Inv w start (s.goto t pc) := by
  refine h.goto ?_ (fun _ => .inr hover) (fun _ => hover) ?_ ?_
  · intro hown
    rw [not_over_of_owning hown] at hover
    cases hover
  · rintro c rfl
    cases hover
  · rintro x rfl
    cases hover

theorem Inv.keeps (h : Inv w start s) (ht : (s.pc t).owning = true) (hown : pc.owning = true)
    (hfresh : ∀ x, pc = .working x → x = s.document) : Inv w start (s.goto t pc) := by
  refine h.goto (fun _ => ht) (fun _ => .inl hown) ?_ ?_ hfresh
  · intro hover
    rw [not_over_of_owning ht] at hover
    cases hover
  · rintro c rfl
    cases hown

theorem Inv.tries (h : Inv w start s) (ht : (s.pc t).owning = false) (hlive : (s.pc t).left = false)
    (hown : pc.owning = false) (hstale : ∀ c, pc = .condemning c → (s.pc c).left = true) : Inv w start (s.goto t pc) := by
  refine h.goto ?_ ?_ ?_ hstale ?_
  · intro hpc
    rw [hown] at hpc
    cases hpc
  · rintro (hpc | hpc)
    · rw [ht] at hpc
      cases hpc
    · rw [hlive] at hpc
      cases hpc
  · intro hpc
    rw [hlive] at hpc
    cases hpc
  · rintro x rfl
    cases hown

theorem Inv.writes (h : Inv w start s) (now : ℕ) : Inv w start { s with lock := writeToken t now s.lock } where
  owner u hu := by
    obtain ⟨f,hf,rfl⟩ := h.owner u hu
    refine ⟨_,congrArg (writeToken t now) hf,?_⟩
    dsimp only
    split <;> rfl
  past f hf := by
    change writeToken t now s.lock = some f at hf
    obtain ⟨g,hg,rfl⟩ := Option.map_eq_some_iff.mp hf
    have hcreator : (if g.creator = t then { g with written := true, modified := now } else g).creator = g.creator := by
      split <;> rfl
    rw [hcreator]
    exact h.past g hg
  stale := h.stale
  fresh := h.fresh
  chained := h.chained

theorem goto_lock (s : State Token σ) (t : Token) (pc : Pc Token σ) (lock : Option (LockFile Token)) :
    { s.goto t pc with lock := lock } = ({ s with lock := lock } : State Token σ).goto t pc := rfl

theorem Inv.commits (h : Inv w start s) {base new : σ} (ht : s.pc t = .working base) (hnew : w.update t base = some new) :
    Inv w start { s.goto t .leaving with document := new, commits := (t,base,new) :: s.commits } := by
  have hown : (s.pc t).owning = true := by
    rw [ht]
    rfl
  have hbase := h.fresh t base ht
  have hgoto : Inv w start (s.goto t .leaving) := h.keeps hown rfl nofun
  refine ⟨hgoto.owner,hgoto.past,hgoto.stale,?_,rfl,hnew,?_⟩
  · intro u x hu
    change (s.goto t .leaving).pc u = .working x at hu
    by_cases hut : u = t
    · subst hut
      rw [goto_self] at hu
      cases hu
    · rw [goto_other s _ hut] at hu
      have hu' : (s.pc u).owning = true := by
        rw [hu]
        rfl
      exact absurd (h.owner_unique hu' hown) hut
  · rw [hbase]
    exact h.chained

omit [DecidableEq Token] in
theorem Inv.free (h : Inv w start s) (hlock : ∀ f ∈ s.lock, (s.pc f.creator).owning = false) (u : Token) :
    (s.pc u).owning = false := by
  cases hu : (s.pc u).owning with
  | false => rfl
  | true =>
    obtain ⟨f,hf,rfl⟩ := h.owner u hu
    rw [hlock f hf] at hu
    cases hu

omit [DecidableEq Token] in
theorem not_owning_of_over (h : pc.left = true) : pc.owning = false := by
  cases pc <;> first | rfl | cases h

theorem Inv.reclaims (h : Inv w start s) {c : Token} (ht : s.pc t = .condemning c) (hsame : ∀ f ∈ s.lock, f.creator = c) :
    Inv w start { s.goto t .trying with lock := none } := by
  have hover := h.stale t c ht
  rw [goto_lock]
  refine (h.unlock (h.free ?_)).tries ?_ ?_ rfl nofun
  · intro f hf
    rw [hsame f hf]
    exact not_owning_of_over hover
  · rw [ht]
    rfl
  · rw [ht]
    rfl

theorem Inv.unlinks (h : Inv w start s) (ht : s.pc t = .removing) : Inv w start { s.goto t .finished with lock := none } := by
  have hown : (s.pc t).owning = true := by
    rw [ht]
    rfl
  have hend : Inv w start (s.goto t .finished) := h.ended rfl
  refine hend.unlock ?_
  intro u
  by_cases hut : u = t
  · subst hut
    rw [goto_self]
    rfl
  · rw [goto_other s _ hut]
    cases hu : (s.pc u).owning with
    | false => rfl
    | true => exact absurd (h.owner_unique hu hown) hut

theorem inv_step (s : State Token σ) (e : Event Token) (h : Inv w start s) (hc : Careful w s e) : Inv w start (step w s e) := by
  obtain ⟨hprompt,hsame⟩ := hc
  cases e with
  | start t =>
    cases hpc : s.pc t <;> simp only [step,hpc] <;> try exact h
    exact h.tries (by rw [hpc]; rfl) (by rw [hpc]; rfl) rfl nofun
  | create t now denied =>
    cases hpc : s.pc t <;> simp only [step,hpc] <;> try exact h
    split
    · rename_i hfree
      exact h.create hpc hfree.1 now
    · exact h.tries (by rw [hpc]; rfl) (by rw [hpc]; rfl) rfl nofun
  | write t now written =>
    cases hpc : s.pc t <;> simp only [step,hpc] <;> try exact h
    have hown : (s.pc t).owning = true := by
      rw [hpc]
      rfl
    cases written with
    | full =>
      dsimp only
      rw [goto_lock]
      exact (h.writes now).keeps hown rfl nofun
    | refused => exact h.keeps hown rfl nofun
    | failed => exact h.ended rfl
  | stat t now denied =>
    cases hpc : s.pc t <;> simp only [step,hpc] <;> try exact h
    have hown : (s.pc t).owning = false := by
      rw [hpc]
      rfl
    have hlive : (s.pc t).left = false := by
      rw [hpc]
      rfl
    cases hlock : s.lock with
    | none => exact h.tries hown hlive rfl nofun
    | some f =>
      dsimp only
      split
      · rename_i hold
        refine h.tries hown hlive rfl ?_
        rintro c ⟨⟩
        have hlooking : (s.pc t).looking = true := by
          rw [hpc]
          rfl
        rcases h.past f hlock with hlast | hlast
        · rw [hprompt hlooking f hlock hold.2] at hlast
          cases hlast
        · exact hlast
      · exact h.tries hown hlive rfl nofun
  | reclaim t denied =>
    cases hpc : s.pc t <;> simp only [step,hpc] <;> try exact h
    cases denied with
    | true => exact h.tries (by rw [hpc]; rfl) (by rw [hpc]; rfl) rfl nofun
    | false => exact h.reclaims hpc (hsame _ (congrArg Pc.condemned hpc))
  | giveUp t =>
    cases hpc : s.pc t <;> simp only [step,hpc] <;> try exact h
    exact h.ended rfl
  | read t denied =>
    cases hpc : s.pc t <;> simp only [step,hpc] <;> try exact h
    split
    · exact h.keeps (by rw [hpc]; rfl) rfl nofun
    · refine h.keeps (by rw [hpc]; rfl) rfl ?_
      rintro x ⟨⟩
      rfl
  | commit t denied =>
    cases hpc : s.pc t <;> simp only [step,hpc] <;> try exact h
    split
    · rename_i new hnew
      split at hnew
      · cases hnew
      · exact h.commits hpc hnew
    · exact h.keeps (by rw [hpc]; rfl) rfl nofun
  | «exists» t =>
    cases hpc : s.pc t <;> simp only [step,hpc] <;> try exact h
    split
    · exact h.ended rfl
    · exact h.keeps (by rw [hpc]; rfl) rfl nofun
  | readToken t readable =>
    cases hpc : s.pc t <;> simp only [step,hpc] <;> try exact h
    cases hlock : s.lock with
    | none => exact h.ended rfl
    | some f =>
      dsimp only
      split
      · exact h.keeps (by rw [hpc]; rfl) rfl nofun
      · exact h.ended rfl
  | unlink t denied =>
    cases hpc : s.pc t <;> simp only [step,hpc] <;> try exact h
    split
    · exact h.ended rfl
    · exact h.unlinks hpc
  | crash t => exact h.ended rfl

theorem inv_run (h : Along (step w) (Careful w) (begin start) events) :
    Inv w start (run w start events) := h.invariant inv_step (inv_begin start)

/-! ## What the lock is for -/

omit [DecidableEq Token] in
theorem owning_of_critical (h : pc.critical = true) : pc.owning = true := by
  cases pc <;> first | rfl | cases h

theorem Inv.removes (h : Inv w start s) {e : Event Token} (hc : Careful w s e) {f : LockFile Token} (hf : s.lock = some f)
    (hgone : (step w s e).lock = none) : e = .unlink f.creator false ∨ (s.pc f.creator).owning = false := by
  obtain ⟨-,hsame⟩ := hc
  cases e with
  | reclaim t denied =>
    cases hpc : s.pc t with
    | condemning c =>
      cases denied with
      | true => simp [step,hpc,hf,State.goto] at hgone
      | false =>
        right
        rw [hsame c (congrArg Pc.condemned hpc) f hf]
        exact not_owning_of_over (h.stale t c hpc)
    | idle | trying | contended | created | inside | working | leaving | checking | removing | finished | dead =>
      simp [step,hpc,hf] at hgone
  | unlink t denied =>
    cases hpc : s.pc t with
    | removing =>
      have hown : (s.pc t).owning = true := by
        rw [hpc]
        rfl
      obtain ⟨g,hg,rfl⟩ := h.owner t hown
      obtain rfl := Option.some.inj (hf.symm.trans hg)
      cases denied with
      | false => exact .inl rfl
      | true => simp [step,hpc,hf,State.goto] at hgone
    | idle | trying | contended | condemning | created | inside | working | leaving | checking | finished | dead =>
      simp [step,hpc,hf] at hgone
  | write t now written =>
    exfalso
    cases hpc : s.pc t with
    | created => cases written <;> simp [step,hpc,hf,State.goto,writeToken] at hgone
    | idle | trying | contended | condemning | inside | working | leaving | checking | removing | finished | dead =>
      simp [step,hpc,hf] at hgone
  | create t now denied =>
    exfalso
    cases hpc : s.pc t <;> simp [step,hpc,hf,State.goto] at hgone
  | stat t now denied =>
    exfalso
    simp only [step,hf] at hgone
    cases hpc : s.pc t <;> simp only [hpc] at hgone <;> (try split at hgone) <;> simp [hf,State.goto] at hgone
  | read t denied | commit t denied =>
    exfalso
    cases hpc : s.pc t <;> simp only [step,hpc] at hgone <;> (try split at hgone) <;> simp [hf,State.goto] at hgone
  | readToken t readable =>
    exfalso
    simp only [step,hf] at hgone
    cases hpc : s.pc t <;> simp only [hpc] at hgone <;> (try split at hgone) <;> simp [hf,State.goto] at hgone
  | start | giveUp | «exists» =>
    rename_i t
    exfalso
    cases hpc : s.pc t <;> simp [step,hpc,hf,State.goto] at hgone
  | crash t =>
    exfalso
    simp [step,hf,State.goto] at hgone

variable (w) in
/-- What the lock is for: one call at a time works on the document, no call loses its lock file to another, and every
commit was computed from what the commit before it wrote. -/
structure Guarded (start : σ) (events : List (Event Token)) : Prop where
  exclusive : ∀ t u, ((run w start events).pc t).critical = true → ((run w start events).pc u).critical = true → t = u
  kept : ∀ done e rest f, events = done ++ e :: rest → (run w start done).lock = some f →
    (step w (run w start done) e).lock = none →
      e = .unlink f.creator false ∨ ((run w start done).pc f.creator).owning = false
  chained : Chained w start (run w start events).commits (run w start events).document

theorem guarded_run (h : Along (step w) (Careful w) (begin start) events) :
    Guarded w start events where
  exclusive t u ht hu := (inv_run h).owner_unique (owning_of_critical ht) (owning_of_critical hu)
  kept := by
    rintro done e rest f rfl hf hgone
    exact (inv_run h.left).removes (h.at rfl) hf hgone
  chained := (inv_run h).chained

end Bdb.AgedLock
