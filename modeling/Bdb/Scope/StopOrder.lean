import Bdb.Scope.StopStatements

/-! # STOP takes effect in order

After a STOP has returned the cursor stays stopped until a resume that was begun later is
committed, epochs only grow, and no boundary opens in a fenced epoch. This holds in every
interleaving in which the writes of STOP and of a resume come in turn: nothing that matters
to them has happened since their read.
-/
namespace Bdb.Scope

open List Option

open Continuation (ScopeCursor StopFenceRecord StopRequest EffectBoundary Database)
open Continuation.Database (ResumeRequest stopEvent resumeEvent)

/-! ## Reading the log -/

def stopReturned : StopEntry → Bool
  | ⟨.stopFence _,fence⟩ => Option.isSome fence
  | ⟨.stopWrite _ _,written⟩ =>
    match written with
    | Except.ok (.committed _ _) => true
    | _ => false
  | _ => false

/-- A resume whose update has found its row: what it read, and when. -/
def resumedFrom : StopEntry → Option (ScopeCursor × ℕ)
  | ⟨.resumeWrite read readAt _,written⟩ =>
    match written with
    | Except.ok true => some (read,readAt)
    | _ => none
  | _ => none

/-- A STOP or a resume that returns although its update has found no row. -/
def lostUpdate : StopEntry → Bool
  | ⟨.stopWrite _ _,written⟩ =>
    match written with
    | Except.ok (.committed _ matched) => !matched
    | _ => false
  | ⟨.resumeWrite _ _ _,written⟩ =>
    match written with
    | Except.ok matched => !matched
    | _ => false
  | _ => false

def fencedEpoch : StopEntry → Option ℕ
  | ⟨.stopWrite _ _,written⟩ =>
    match written with
    | Except.ok (.committed fence _) => some fence.scopeEpoch
    | _ => none
  | _ => none

def allowedEpoch : StopEntry → Option ℕ
  | ⟨.guardFence epoch,fence⟩ => if Option.isNone fence then some epoch else none
  | _ => none

def toldOf : StopEntry → Option (Option ScopeCursor × ℕ)
  | ⟨.readCursor,told⟩ => some told
  | _ => none

def CursorStopped (db : Database) : Prop := ∃ c, db.cursor = some c ∧ c.status = "STOPPED"

/-- A resume in `after` that read the cursor later than the given statement. -/
def ResumedAfter (log : List StopEntry) (time : ℕ) (after : List StopEntry) : Prop :=
  ∃ e ∈ after, ∃ read readAt, resumedFrom e = some (read,readAt) ∧ time < readAt ∧
    log[readAt]? = some ⟨.readCursor,(some read,readAt)⟩

/-- What STOP promises of a state and its log. -/
structure Linearised (s : StopRun) : Prop where
  staysStopped : ∀ before e after, s.log = before ++ e :: after → stopReturned e = true →
    CursorStopped s.store.db ∨ ResumedAfter s.log before.length after
  fencedNotActive : ∀ c, s.store.db.cursor = some c → c.status ≠ "STOPPED" → s.store.db.fenceOf c.scopeEpoch = none
  guarded : ∀ before e after epoch, s.log = before ++ e :: after → allowedEpoch e = some epoch →
    ∀ e' ∈ before, fencedEpoch e' ≠ some epoch
  noLostUpdate : ∀ e ∈ s.log, lostUpdate e = false

def epochOf (db : Database) : ℕ := (db.cursor.map (·.scopeEpoch)).getD 0

/-! ## The condition -/

/-- The fence that ends a STOP is read before a resume leaves its epoch. The write of STOP
finds the revision that was read, or a fence. The write of a resume finds the revision that
was read, and no STOP has returned since the read. -/
def InTurn (s : StopStore) (log : List StopEntry) : StopStatement → Prop
  | .stopFence read => s.db.fenceOf read.scopeEpoch ≠ none → s.db.cursor.map (·.scopeEpoch) = some read.scopeEpoch
  | .stopWrite read _ => s.db.fenceOf read.scopeEpoch ≠ none ∨ matchesAt s.db read.stateRevision = true
  | .resumeWrite read readAt _ => matchesAt s.db read.stateRevision = true ∧
      ∀ e ∈ log.drop readAt, stopReturned e = false
  | _ => True

instance InTurn.decidable (s : StopStore) (log : List StopEntry) : (q : StopStatement) → Decidable (InTurn s log q)
  | .readCursor => .isTrue trivial
  | .insertCursor _ => .isTrue trivial
  | .casCursor _ _ => .isTrue trivial
  | .guardFence _ => .isTrue trivial
  | .stopFence read => inferInstanceAs (Decidable (s.db.fenceOf read.scopeEpoch ≠ none →
      s.db.cursor.map (·.scopeEpoch) = some read.scopeEpoch))
  | .stopWrite read _ => inferInstanceAs (Decidable (s.db.fenceOf read.scopeEpoch ≠ none ∨
      matchesAt s.db read.stateRevision = true))
  | .resumeWrite read readAt _ => inferInstanceAs (Decidable (matchesAt s.db read.stateRevision = true ∧
      ∀ e ∈ log.drop readAt, stopReturned e = false))

/-! ## What the clients know -/

def shownBy : StopEntry → Option ScopeCursor
  | ⟨.readCursor,row⟩ => Prod.fst row
  | ⟨.insertCursor c,created⟩ =>
    match created with
    | Except.ok _ => some c
    | Except.error _ => none
  | _ => none

/-- A write rests on a row that its client was shown. A tick keeps its status and epoch. -/
def Justified (known : List StopEntry) : StopStatement → Prop
  | .casCursor c expected => ∃ read, (∃ e ∈ known, shownBy e = some read) ∧ expected = read.stateRevision ∧
      c.scopeEpoch = read.scopeEpoch ∧ c.status = read.status
  | .stopWrite read _ => ∃ e ∈ known, shownBy e = some read
  | .resumeWrite read readAt _ => ⟨.readCursor,(some read,readAt)⟩ ∈ known
  | _ => True

theorem tick_keeps (projectId : String) (plan : CanonicalPlanGraph) (read : ScopeCursor) (i : TickInputs) :
    (tick projectId plan read i).2.2.scopeEpoch = read.scopeEpoch ∧
      (tick projectId plan read i).2.2.status = read.status := by
  unfold tick
  split
  all_goals exact ⟨rfl,rfl⟩

variable {known : List StopEntry} {q : StopRequest}

variable {read : ScopeCursor} {readAt : ℕ} {done : Database} {matched : Bool}

theorem storeTick_informed {projectId : String} {plan : CanonicalPlanGraph} {i : TickInputs}
    (h : ∃ e ∈ known, shownBy e = some read) :
    Script.Informed Justified known (storeTick projectId plan i read) := by
  obtain ⟨hepoch,hstatus⟩ := tick_keeps projectId plan read i
  exact ⟨⟨read,h,rfl,hepoch,hstatus⟩,fun _ => trivial⟩

theorem stopWriteProgram_informed
    (h : ∃ e ∈ known, shownBy e = some read) : Script.Informed Justified known (stopWriteProgram read q) := by
  unfold stopWriteProgram
  split
  · exact trivial
  · refine ⟨h,?_⟩
    intro written
    dsimp only
    split
    · exact trivial
    · exact trivial
    · exact ⟨trivial,fun _ => trivial⟩

theorem program_informed (projectId : String) (c : StopClient) :
    Script.Informed Justified [] (c.program projectId) := by
  cases c with
  | tick plan i runId scope planIdentity planVersion explicit =>
    refine ⟨trivial,?_⟩
    intro row
    dsimp only
    split
    · rename_i read hread
      exact storeTick_informed ⟨_,mem_singleton.mpr rfl,hread⟩
    · refine ⟨trivial,?_⟩
      intro created
      dsimp only
      split
      · exact storeTick_informed ⟨_,mem_append_right _ (mem_singleton.mpr rfl),rfl⟩
      · exact trivial
  | stop q =>
    refine ⟨trivial,?_⟩
    intro row
    dsimp only
    split
    · exact trivial
    · rename_i read hread
      have hshown : ∀ known : List StopEntry, ∃ e ∈ [⟨.readCursor,row⟩] ++ known, shownBy e = some read :=
        fun known => ⟨_,mem_append_left _ (mem_singleton.mpr rfl),hread⟩
      split
      · refine ⟨trivial,?_⟩
        intro fence
        dsimp only
        split
        · exact trivial
        · exact stopWriteProgram_informed (hshown _)
      · exact stopWriteProgram_informed (hshown [])
  | resume q =>
    refine ⟨trivial,?_⟩
    intro row
    dsimp only
    split
    · exact trivial
    · rename_i read hread
      split
      · exact trivial
      · refine ⟨?_,?_⟩
        · refine mem_singleton.mpr ?_
          rw [← hread]
          rfl
        · intro written
          dsimp only
          split
          all_goals exact trivial
  | check epoch boundary =>
    refine ⟨trivial,?_⟩
    intro row
    dsimp only
    split
    · exact trivial
    · split
      · exact trivial
      · exact ⟨trivial,fun _ => trivial⟩

/-! ## The invariant -/

variable {db db' : Database} {log : List StopEntry} {e : StopEntry} {n : ℕ} {cur read c : ScopeCursor}

structure StopInv (s : StopStore) (log : List StopEntry) : Prop where
  performed : s.performed = log.length
  stamped : ∀ (i : ℕ) (e : StopEntry), log[i]? = some e → ∀ told, toldOf e = some told → told.2 = i
  shown : ∀ e ∈ log, ∀ c, shownBy e = some c → ∃ cur, s.db.cursor = some cur ∧ c.stateRevision ≤ cur.stateRevision ∧
    (c.stateRevision = cur.stateRevision → c = cur)
  fenced : ∀ f ∈ s.db.fences.rows, ∃ c, s.db.cursor = some c ∧ f.scopeEpoch ≤ c.scopeEpoch
  active : ∀ c, s.db.cursor = some c → c.status ≠ "STOPPED" → s.db.fenceOf c.scopeEpoch = none
  logged : ∀ e ∈ log, ∀ epoch, fencedEpoch e = some epoch → s.db.fenceOf epoch ≠ none
  guarded : ∀ before e after epoch, log = before ++ e :: after → allowedEpoch e = some epoch →
    ∀ e' ∈ before, fencedEpoch e' ≠ some epoch
  lost : ∀ e ∈ log, lostUpdate e = false
  stays : ∀ before e after, log = before ++ e :: after → stopReturned e = true →
    CursorStopped s.db ∨ ResumedAfter log before.length after

/-- What a statement in turn may do, with its entry in the log. -/
structure Permitted (db : Database) (log : List StopEntry) (e : StopEntry) (db' : Database) : Prop where
  cursor : ∀ cur, db.cursor = some cur → ∃ c, db'.cursor = some c ∧ cur.stateRevision ≤ c.stateRevision ∧
    (cur.stateRevision = c.stateRevision → c = cur) ∧ cur.scopeEpoch ≤ c.scopeEpoch
  stamped : ∀ told, toldOf e = some told → told.2 = log.length
  shown : ∀ c, shownBy e = some c → db'.cursor = some c
  fences : ∀ f ∈ db'.fences.rows, f ∈ db.fences.rows ∨ ∃ c, db'.cursor = some c ∧ f.scopeEpoch ≤ c.scopeEpoch
  kept : ∀ epoch, db.fenceOf epoch ≠ none → db'.fenceOf epoch ≠ none
  active : ∀ c, db'.cursor = some c → c.status ≠ "STOPPED" → db'.fenceOf c.scopeEpoch = none
  logged : ∀ epoch, fencedEpoch e = some epoch → db'.fenceOf epoch ≠ none
  allowed : ∀ epoch, allowedEpoch e = some epoch → db.fenceOf epoch = none
  lost : lostUpdate e = false
  returned : stopReturned e = true → CursorStopped db'
  stays : CursorStopped db → CursorStopped db' ∨ ∃ read readAt, resumedFrom e = some (read,readAt) ∧
    log[readAt]? = some ⟨.readCursor,(some read,readAt)⟩ ∧ ∀ x ∈ log.drop readAt, stopReturned x = false

theorem ResumedAfter.append {time : ℕ} {after : List StopEntry} (h : ResumedAfter log time after) (e : StopEntry) :
    ResumedAfter (log ++ [e]) time (after ++ [e]) := by
  obtain ⟨x,hx,read,readAt,hresumed,hlater,hread⟩ := h
  refine ⟨x,mem_append_left _ hx,read,readAt,hresumed,hlater,?_⟩
  rw [List.getElem?_append_left (List.getElem?_eq_some_iff.mp hread).1]
  exact hread

theorem later_of_drop {before after : List StopEntry} (hlog : log = before ++ e :: after)
    (he : stopReturned e = true) (h : ∀ x ∈ log.drop readAt, stopReturned x = false) : before.length < readAt := by
  by_contra hle
  have hmem : e ∈ log.drop readAt := by
    rw [hlog,drop_append_of_le_length (Nat.le_of_not_lt hle)]
    exact mem_append_right _ mem_cons_self
  rw [h e hmem] at he
  cases he

theorem StopInv.step (h : StopInv ⟨db,n⟩ log) (hm : Permitted db log e db') : StopInv ⟨db',n + 1⟩ (log ++ [e]) where
  performed := by
    rw [length_append,← h.performed]
    rfl
  stamped := by
    intro i x hi told htold
    by_cases hlt : i < log.length
    · rw [List.getElem?_append_left hlt] at hi
      exact h.stamped i x hi told htold
    · rw [List.getElem?_append_right (Nat.le_of_not_lt hlt)] at hi
      obtain ⟨hone,hget⟩ := List.getElem?_eq_some_iff.mp hi
      have hi' : i = log.length := by
        rw [length_singleton] at hone
        omega
      obtain rfl : e = x := by simpa using hget
      rw [hm.stamped told htold,hi']
  shown := by
    intro x hx c hc
    rcases mem_append.mp hx with hx | hx
    · obtain ⟨cur,hcur,hle,heq⟩ := h.shown x hx c hc
      obtain ⟨c',hc',hle',heq',-⟩ := hm.cursor cur hcur
      refine ⟨c',hc',hle.trans hle',?_⟩
      intro hrevision
      rw [heq' (by omega)]
      exact heq (by omega)
    · rw [mem_singleton.mp hx] at hc
      exact ⟨c,hm.shown c hc,le_rfl,fun _ => rfl⟩
  fenced := by
    intro f hf
    rcases hm.fences f hf with hold | hnew
    · obtain ⟨cur,hcur,hle⟩ := h.fenced f hold
      obtain ⟨c',hc',-,-,hepoch⟩ := hm.cursor cur hcur
      exact ⟨c',hc',hle.trans hepoch⟩
    · exact hnew
  active := hm.active
  logged := by
    intro x hx epoch hepoch
    rcases mem_append.mp hx with hx | hx
    · exact hm.kept epoch (h.logged x hx epoch hepoch)
    · exact hm.logged epoch (mem_singleton.mp hx ▸ hepoch)
  guarded := by
    intro before x after epoch hsplit hallowed x' hx' hfenced
    rcases split_concat hsplit with ⟨rfl,rfl,rfl⟩ | ⟨rest,rfl,hrest⟩
    · exact h.logged x' hx' epoch hfenced (hm.allowed epoch hallowed)
    · exact h.guarded before x rest epoch hrest hallowed x' hx' hfenced
  lost := by
    intro x hx
    rcases mem_append.mp hx with hx | hx
    · exact h.lost x hx
    · exact mem_singleton.mp hx ▸ hm.lost
  stays := by
    intro before x after hsplit hreturned
    rcases split_concat hsplit with ⟨rfl,rfl,rfl⟩ | ⟨rest,rfl,hrest⟩
    · exact .inl (hm.returned hreturned)
    · rcases h.stays before x rest hrest hreturned with hstopped | hresumed
      · rcases hm.stays hstopped with hstopped | ⟨read,readAt,hfrom,hread,hquiet⟩
        · exact .inl hstopped
        · refine .inr ⟨e,mem_append_right _ (mem_singleton.mpr rfl),read,readAt,hfrom,
            later_of_drop hrest hreturned hquiet,?_⟩
          rw [List.getElem?_append_left (List.getElem?_eq_some_iff.mp hread).1]
          exact hread
      · exact .inr (hresumed.append e)

theorem absent {α : Type} {o : Option α} {P : α → Prop} (h : o = none) : ∀ a, o = some a → P a := by
  rintro a rfl
  cases h

theorem unset {b : Bool} {P : Prop} (h : b = false) : b = true → P := by
  rintro rfl
  cases h

/-! ## Statements that change nothing -/

section

variable (h : StopInv ⟨db,n⟩ log)

include h

theorem Permitted.quiet (hstamped : ∀ told, toldOf e = some told → told.2 = log.length)
    (hshown : ∀ c, shownBy e = some c → db.cursor = some c) (hfenced : fencedEpoch e = none)
    (hallowed : ∀ epoch, allowedEpoch e = some epoch → db.fenceOf epoch = none) (hlost : lostUpdate e = false)
    (hreturned : stopReturned e = true → CursorStopped db) : Permitted db log e db where
  cursor cur hcur := ⟨cur,hcur,le_rfl,fun _ => rfl,le_rfl⟩
  stamped := hstamped
  shown := hshown
  fences f hf := .inl hf
  kept _ hfence := hfence
  active := h.active
  logged epoch hepoch := by
    rw [hfenced] at hepoch
    cases hepoch
  allowed := hallowed
  lost := hlost
  returned := hreturned
  stays := .inl

theorem cursor_of_matches (he : e ∈ log) (hshown : shownBy e = some read)
    (hmatches : matchesAt db read.stateRevision = true) : db.cursor = some read := by
  obtain ⟨cur,hcursor,-,heq⟩ := h.shown e he read hshown
  have hcur : db.cursor = some cur := hcursor
  have hrevision : cur.stateRevision = read.stateRevision := by simpa [matchesAt,hcur] using hmatches
  rw [heq hrevision.symm]
  exact hcur

theorem stopped_of_fenced (hc : db.cursor = some c) (hfence : db.fenceOf c.scopeEpoch ≠ none) :
    CursorStopped db := by
  refine ⟨c,hc,?_⟩
  by_contra hactive
  exact hfence (h.active c hc hactive)

theorem readCursor_permitted : Permitted db log ⟨.readCursor,(db.cursor,n)⟩ db := by
  refine .quiet h ?_ (fun c hc => hc) rfl (absent rfl) rfl (unset rfl)
  intro told htold
  cases htold
  exact h.performed

theorem guardFence_permitted (epoch : ℕ) :
    Permitted db log ⟨.guardFence epoch,db.fenceOf epoch⟩ db := by
  refine .quiet h (absent rfl) (absent rfl) rfl ?_ rfl (unset rfl)
  intro epoch' hepoch
  change (if (db.fenceOf epoch).isNone then some epoch else none) = some epoch' at hepoch
  split at hepoch
  · rename_i hnone
    cases hepoch
    exact isNone_iff_eq_none.mp hnone
  · cases hepoch

theorem stopFence_permitted (hq : InTurn ⟨db,n⟩ log (.stopFence read)) :
    Permitted db log ⟨.stopFence read,db.fenceOf read.scopeEpoch⟩ db := by
  refine .quiet h (absent rfl) (absent rfl) rfl (absent rfl) rfl ?_
  intro hreturned
  have hfence : db.fenceOf read.scopeEpoch ≠ none := by
    intro hnone
    change (db.fenceOf read.scopeEpoch).isSome = true at hreturned
    rw [hnone] at hreturned
    cases hreturned
  obtain ⟨c,hc,hepoch⟩ := map_eq_some_iff.mp (hq hfence)
  exact stopped_of_fenced h hc (hepoch ▸ hfence)

end

/-! ## Statements that write -/

theorem insertCursor_permitted (h : StopInv ⟨db,n⟩ log) (c : ScopeCursor) :
    Permitted db log ⟨.insertCursor c,(StopStatement.on db n (.insertCursor c)).2⟩
      (StopStatement.on db n (.insertCursor c)).1 := by
  cases hcursor : db.cursor with
  | some cur =>
    simp only [StopStatement.on,hcursor]
    exact .quiet h (absent rfl) (absent rfl) rfl (absent rfl) rfl (unset rfl)
  | none =>
    simp only [StopStatement.on,hcursor]
    -- without a cursor nothing was ever fenced
    have hempty : ∀ f, f ∉ db.fences.rows := by
      intro f hf
      obtain ⟨cur,hcur,-⟩ := h.fenced f hf
      rw [hcursor] at hcur
      cases hcur
    refine
      { cursor := fun cur hcur => by
          rw [hcursor] at hcur
          cases hcur
        stamped := absent rfl
        shown := fun c' hc' => hc'
        fences := fun f hf => .inl hf
        kept := fun _ hfence => hfence
        active := fun c' _ _ => List.find?_eq_none.mpr fun f hf => absurd hf (hempty f)
        logged := absent rfl
        allowed := absent rfl
        lost := rfl
        returned := unset rfl
        stays := ?_ }
    rintro ⟨cur,hcur,-⟩
    rw [hcursor] at hcur
    cases hcur

theorem casCursor_permitted {expected : ℕ} (h : StopInv ⟨db,n⟩ log) (hknown : known ⊆ log)
    (hj : Justified known (.casCursor c expected)) :
    Permitted db log ⟨.casCursor c expected,(StopStatement.on db n (.casCursor c expected)).2⟩
      (StopStatement.on db n (.casCursor c expected)).1 := by
  obtain ⟨read,⟨x,hx,hshown⟩,rfl,hepoch,hstatus⟩ := hj
  simp only [StopStatement.on]
  split
  · rename_i updated hupdated
    obtain ⟨stored,hstored,hcas⟩ := bind_eq_some_iff.mp hupdated
    unfold updateCursorCas at hcas
    split at hcas
    · rename_i hrevision
      cases hcas
      have hcur : db.cursor = some read :=
        cursor_of_matches h (hknown hx) hshown (by simp [matchesAt,hstored,hrevision])
      obtain rfl : stored = read := some_unique hstored hcur
      refine
        { cursor := ?_
          stamped := absent rfl
          shown := absent rfl
          fences := fun f hf => .inl hf
          kept := fun _ hfence => hfence
          active := ?_
          logged := absent rfl
          allowed := absent rfl
          lost := rfl
          returned := unset rfl
          stays := ?_ }
      · intro cur hcur'
        obtain rfl : stored = cur := some_unique hcur hcur'
        exact ⟨_,rfl,Nat.le_succ _,fun hsame => absurd hsame (Nat.succ_ne_self _).symm,hepoch.ge⟩
      · rintro c' hc' hactive
        cases hc'
        change db.fenceOf c.scopeEpoch = none
        rw [hepoch]
        exact h.active stored hcur (hstatus ▸ hactive)
      · rintro ⟨cur,hcur',hstopped⟩
        obtain rfl : stored = cur := some_unique hcur hcur'
        exact .inl ⟨_,rfl,hstatus.trans hstopped⟩
    · cases hcas
  · exact .quiet h (absent rfl) (absent rfl) rfl (absent rfl) rfl (unset rfl)

theorem writeStop_committed {fence : StopFenceRecord}
    (h : writeStop db read q = .ok (done,.committed fence matched)) :
    fence.scopeEpoch = read.scopeEpoch ∧ db.fenceOf read.scopeEpoch = none ∧ matched = matchesAt db read.stateRevision ∧
      db.fences.insert fence = some done.fences ∧
      done.cursor = (updateAt db read.stateRevision (stopCursor read q)).cursor := by
  obtain ⟨_,h⟩ := rest_ok h
  dsimp only at h
  split at h
  · cases pure_ok.mp h
  · rename_i fences hinsert
    obtain ⟨done',hdone,h⟩ := bind_ok.mp h
    obtain ⟨audit,-,rfl⟩ := Database.appendEvent_ok hdone
    cases pure_ok.mp h
    unfold Database.insertFence at hinsert
    split at hinsert
    · cases hinsert
    · rename_i hnew
      exact ⟨rfl,by simpa [Database.stopFence] using hnew,rfl,hinsert,rfl⟩

theorem writeResume_ok {q : ResumeRequest} (h : writeResume db read q = .ok (done,matched)) :
    matched = matchesAt db read.stateRevision ∧ done.fences = db.fences ∧
      done.cursor = (updateAt db read.stateRevision (resumeCursor read q)).cursor := by
  obtain ⟨done',hdone,h⟩ := bind_ok.mp h
  obtain ⟨audit,-,rfl⟩ := Database.appendEvent_ok hdone
  cases pure_ok.mp h
  exact ⟨rfl,rfl,rfl⟩

theorem stopWrite_permitted (h : StopInv ⟨db,n⟩ log) (hknown : known ⊆ log)
    (hq : InTurn ⟨db,n⟩ log (.stopWrite read q)) (hj : Justified known (.stopWrite read q)) :
    Permitted db log ⟨.stopWrite read q,(StopStatement.on db n (.stopWrite read q)).2⟩
      (StopStatement.on db n (.stopWrite read q)).1 := by
  obtain ⟨x,hx,hshown⟩ := hj
  simp only [StopStatement.on,Database.commit]
  cases hwrite : writeStop db read q with
  | error f => exact .quiet h (absent rfl) (absent rfl) rfl (absent rfl) rfl (unset rfl)
  | ok p =>
    obtain ⟨done,written⟩ := p
    cases written with
    | fenceTaken =>
      rw [writeStop_taken hwrite]
      exact .quiet h (absent rfl) (absent rfl) rfl (absent rfl) rfl (unset rfl)
    | committed fence matched =>
      obtain ⟨hepoch,hfree,rfl,hinsert,hcursor⟩ := writeStop_committed hwrite
      have hmatches : matchesAt db read.stateRevision = true := hq.resolve_left (fun hfence => hfence hfree)
      have hcur := cursor_of_matches h (hknown hx) hshown hmatches
      have hdone : done.cursor = some (stopCursor read q read) := by
        rw [hcursor,updateAt_of_cursor hcur]
      have hfind := Table.find_insert hinsert
      refine
        { cursor := ?_
          stamped := absent rfl
          shown := absent rfl
          fences := ?_
          kept := ?_
          active := ?_
          logged := ?_
          allowed := absent rfl
          lost := ?_
          returned := fun _ => ⟨_,hdone,rfl⟩
          stays := fun _ => .inl ⟨_,hdone,rfl⟩ }
      · intro cur hcur'
        obtain rfl : read = cur := some_unique hcur hcur'
        exact ⟨_,hdone,Nat.le_succ _,fun hsame => absurd hsame (Nat.succ_ne_self _).symm,le_rfl⟩
      · intro f hf
        rw [(Table.insert_some hinsert).2] at hf
        rcases mem_append.mp hf with hf | hf
        · exact .inl hf
        · exact .inr ⟨_,hdone,(mem_singleton.mp hf ▸ hepoch).le⟩
      · intro epoch hold hnew
        have hboth := (hfind _).symm.trans hnew
        exact hold (or_eq_none_iff.mp hboth).1
      · intro c' hc' hactive
        obtain rfl : stopCursor read q read = c' := some_unique hdone hc'
        exact absurd rfl hactive
      · intro epoch hfenced hnew
        obtain rfl : fence.scopeEpoch = epoch := Option.some.inj hfenced
        have hboth := (hfind _).symm.trans hnew
        have hnone := (or_eq_none_iff.mp hboth).2
        simp at hnone
      · change (!matchesAt db read.stateRevision) = false
        rw [hmatches]
        rfl

theorem resumeWrite_permitted {q : ResumeRequest} (h : StopInv ⟨db,n⟩ log)
    (hknown : known ⊆ log) (hq : InTurn ⟨db,n⟩ log (.resumeWrite read readAt q))
    (hj : Justified known (.resumeWrite read readAt q)) :
    Permitted db log ⟨.resumeWrite read readAt q,(StopStatement.on db n (.resumeWrite read readAt q)).2⟩
      (StopStatement.on db n (.resumeWrite read readAt q)).1 := by
  obtain ⟨hmatches,hquiet⟩ := hq
  have hread := hknown hj
  have hcur := cursor_of_matches h hread rfl hmatches
  simp only [StopStatement.on,Database.commit]
  cases hwrite : writeResume db read q with
  | error f => exact .quiet h (absent rfl) (absent rfl) rfl (absent rfl) rfl (unset rfl)
  | ok p =>
    obtain ⟨done,matched⟩ := p
    obtain ⟨rfl,hfences,hcursor⟩ := writeResume_ok hwrite
    have hdone : done.cursor = some (resumeCursor read q read) := by
      rw [hcursor,updateAt_of_cursor hcur]
    have hfenceOf : ∀ epoch, done.fenceOf epoch = db.fenceOf epoch := by
      intro epoch
      unfold Database.fenceOf
      rw [hfences]
    refine
      { cursor := ?_
        stamped := absent rfl
        shown := absent rfl
        fences := fun f hf => .inl (hfences ▸ hf)
        kept := fun epoch hfence => hfenceOf epoch ▸ hfence
        active := ?_
        logged := absent rfl
        allowed := absent rfl
        lost := ?_
        returned := unset rfl
        stays := ?_ }
    · intro cur hcur'
      obtain rfl : read = cur := some_unique hcur hcur'
      exact ⟨_,hdone,Nat.le_succ _,fun hsame => absurd hsame (Nat.succ_ne_self _).symm,Nat.le_succ _⟩
    · -- every fence is of an epoch that is left
      intro c' hc' _
      obtain rfl : resumeCursor read q read = c' := some_unique hdone hc'
      rw [hfenceOf]
      refine List.find?_eq_none.mpr ?_
      intro f hf hepoch
      obtain ⟨cur,hcur',hle⟩ := h.fenced f hf
      obtain rfl : read = cur := some_unique hcur hcur'
      have hsame : f.scopeEpoch = read.scopeEpoch + 1 := by simpa [resumeCursor] using hepoch
      omega
    · change (!matchesAt db read.stateRevision) = false
      rw [hmatches]
      rfl
    · intro _
      obtain ⟨i,hi⟩ := List.getElem?_of_mem hread
      obtain rfl : readAt = i := h.stamped i _ hi _ rfl
      refine .inr ⟨read,_,?_,hi,hquiet⟩
      rw [hmatches]
      rfl

theorem permitted {q : StopStatement} (h : StopInv ⟨db,n⟩ log) (hq : InTurn ⟨db,n⟩ log q)
    (hknown : known ⊆ log) (hj : Justified known q) :
    Permitted db log ⟨q,(q.on db n).2⟩ (q.on db n).1 := by
  cases q with
  | readCursor => exact readCursor_permitted h
  | insertCursor c => exact insertCursor_permitted h c
  | casCursor c expected => exact casCursor_permitted h hknown hj
  | guardFence epoch => exact guardFence_permitted h epoch
  | stopFence read => exact stopFence_permitted h hq
  | stopWrite read q => exact stopWrite_permitted h hknown hq hj
  | resumeWrite read readAt q => exact resumeWrite_permitted h hknown hq hj

/-! ## Whole runs -/

variable {moves : List (Move StopClient)} {m : Move StopClient}

def stopRun (db : Database) (moves : List (Move StopClient)) : StopRun :=
  Shared.run StopStatement.perform (StopClient.program db.projectId) (Shared.begin ⟨db,0⟩) moves

def InTurnRun (db : Database) (moves : List (Move StopClient)) : Prop :=
  Along (Shared.next StopStatement.perform (StopClient.program db.projectId)) (Shared.Admits InTurn)
    (Shared.begin ⟨db,0⟩ : StopRun) moves

theorem stopInv_start (hfresh : db.fences.rows = []) : StopInv ⟨db,0⟩ [] where
  performed := rfl
  stamped i e h := absurd h (by simp)
  shown e he := absurd he not_mem_nil
  fenced f hf := by
    rw [hfresh] at hf
    cases hf
  active c _ _ := List.find?_eq_none.mpr fun f hf => by
    rw [hfresh] at hf
    cases hf
  logged e he := absurd he not_mem_nil
  guarded before e after _ h := absurd h.symm (append_ne_nil_of_right_ne_nil _ (cons_ne_nil _ _))
  lost e he := absurd he not_mem_nil
  stays before e after h := absurd h.symm (append_ne_nil_of_right_ne_nil _ (cons_ne_nil _ _))

theorem run_inv (hfresh : db.fences.rows = []) (h : InTurnRun db moves) :
    StopInv (stopRun db moves).store (stopRun db moves).log := by
  refine Shared.invariant_of_informed (program_informed db.projectId) ?_ h (stopInv_start hfresh)
  intro s log q known hinv hq hknown hj
  exact hinv.step (permitted hinv hq hknown.subset hj)

theorem stopRun_append (db : Database) (moves : List (Move StopClient)) (m : Move StopClient) :
    stopRun db (moves ++ [m]) = Shared.next StopStatement.perform (StopClient.program db.projectId) (stopRun db moves) m := by
  unfold stopRun Shared.run
  rw [foldl_append]
  rfl

theorem epoch_step (hfresh : db.fences.rows = []) (h : InTurnRun db (moves ++ [m])) :
    epochOf (stopRun db moves).store.db ≤ epochOf (stopRun db (moves ++ [m])).store.db := by
  have hinv := run_inv hfresh h.left
  have hinformed : Shared.JustifiedLog Justified (stopRun db (moves ++ [m])).log := by
    unfold stopRun
    exact Shared.log_informed (program_informed db.projectId) _ (moves ++ [m])
  have hturn := (along_append.mp h).2.1
  rw [stopRun_append] at hinformed ⊢
  rcases Shared.next_cases StopStatement.perform (StopClient.program db.projectId) (stopRun db moves) m with
    ⟨hstore,-⟩ | ⟨q,hq,hstore,hlog⟩
  · rw [hstore]
  · rw [hlog] at hinformed
    obtain ⟨known,hknown,hj⟩ := hinformed.last
    have hpermitted := permitted hinv (hturn q hq) hknown.subset hj
    rw [hstore]
    unfold epochOf
    cases hcur : (stopRun db moves).store.db.cursor with
    | none => exact Nat.zero_le _
    | some cur =>
      obtain ⟨c,hc,-,-,hepoch⟩ := hpermitted.cursor cur hcur
      change _ ≤ ((StopStatement.on _ _ q).1.cursor.map _).getD 0
      rw [hc]
      exact hepoch

theorem epoch_run (hfresh : db.fences.rows = []) {post : List (Move StopClient)} (h : InTurnRun db (moves ++ post)) :
    epochOf (stopRun db moves).store.db ≤ epochOf (stopRun db (moves ++ post)).store.db := by
  induction post using List.reverseRecOn with
  | nil => rw [append_nil]
  | append_singleton post m ih =>
    rw [← append_assoc] at h ⊢
    exact (ih h.left).trans (epoch_step hfresh h)

/-- The whole promise of STOP for a run of clients on a project. -/
structure StopLinearises (db : Database) (moves : List (Move StopClient)) : Prop where
  linearised : Linearised (stopRun db moves)
  epochs : ∀ pre post, moves = pre ++ post → epochOf (stopRun db pre).store.db ≤ epochOf (stopRun db moves).store.db
  neverAgain : ∀ pre post, moves = pre ++ post → ∀ f ∈ (stopRun db pre).store.db.fences.rows,
    f.scopeEpoch ≠ epochOf (stopRun db pre).store.db → f.scopeEpoch ≠ epochOf (stopRun db moves).store.db

/-- STOP keeps its promise in every run, from a project without fences, whose statements come
in turn. -/
theorem stop_linearises (db : Database) (moves : List (Move StopClient)) (hfresh : db.fences.rows = [])
    (h : InTurnRun db moves) : StopLinearises db moves := by
  have hinv := run_inv hfresh h
  refine ⟨⟨hinv.stays,hinv.active,hinv.guarded,hinv.lost⟩,?_,?_⟩
  · rintro pre post rfl
    exact epoch_run hfresh h
  · rintro pre post rfl f hf hleft
    have hmono := epoch_run hfresh h
    obtain ⟨c,hc,hle⟩ := (run_inv hfresh h.left).fenced f hf
    have hepoch : epochOf (stopRun db pre).store.db = c.scopeEpoch := by
      unfold epochOf
      rw [hc]
      rfl
    omega

/-! ## Two runs

A tick creates the cursor. A STOP and a resume that are made one after the other come in
turn; a STOP that a tick overtakes does not.
-/

def emptyDatabase : Database where
  projectId := "p1"
  revision := some 1
  cursor := none
  fences := Table.empty
  leases := Table.empty
  intents := Table.empty
  audit := Table.empty
  bindings := []
  pendingLaunches := []

def idleInputs : TickInputs where
  taskStatuses _ := none
  milestoneGateStatuses _ := none
  manualApprovals _ := false
  policyApprovals _ := false
  stopRequested := false
  ciWaitingTasks := []
  transientBackoffTasks := []
  approvedPlanExhausted := false

def idleTick : StopClient := .tick ⟨"plan:v1",1,[],[]⟩ idleInputs "run-1" .milestone "plan:v1" 1 false

def stopTime : DateTime := ⟨63902822400000000,sampleMicros_lt⟩

def operatorStop : StopClient := .stop ⟨none,"pause","operator","0a","0b",stopTime⟩

def operatorResume : StopClient := .resume ⟨none,none,"operator","0c",stopTime⟩

def orderlyMoves : List (Move StopClient) :=
  [.start idleTick,.advance 0,.advance 0,.advance 0,.start operatorStop,.advance 1,.advance 1,
    .start operatorResume,.advance 2,.advance 2]

theorem sample_stop_linearises : StopLinearises emptyDatabase orderlyMoves ∧
    (stopRun emptyDatabase orderlyMoves).log.countP stopReturned = 1 ∧
    (stopRun emptyDatabase orderlyMoves).log.countP (fun e => (resumedFrom e).isSome) = 1 :=
  ⟨stop_linearises _ _ rfl (by unfold InTurnRun; decide +kernel),by decide +kernel,by decide +kernel⟩

/-- The tick of the third client comes between the read and the write of STOP. -/
def overtakenStop : List (Move StopClient) :=
  [.start idleTick,.advance 0,.advance 0,.advance 0,.start operatorStop,.advance 1,.start idleTick,.advance 2,.advance 2,
    .advance 1]

theorem overtaken_stop_returns :
    ((stopRun emptyDatabase overtakenStop).store.db.cursor.map (·.status)) = some "ACTIVE" ∧
      (stopRun emptyDatabase overtakenStop).log.countP stopReturned = 1 ∧
      ¬ StopLinearises emptyDatabase overtakenStop := by
  refine ⟨by decide +kernel,by decide +kernel,?_⟩
  intro h
  have hlost : (stopRun emptyDatabase overtakenStop).log.any lostUpdate = true := by decide +kernel
  obtain ⟨e,he,hlost⟩ := any_eq_true.mp hlost
  rw [h.linearised.noLostUpdate e he] at hlost
  cases hlost

end Bdb.Scope
