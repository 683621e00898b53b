import Bdb.Bridge.QueueMoves

/-! # Calls on the queue and what they keep

Every call keeps at most one command in work and at most one session open, and moves
commands and sessions along their transitions only.
-/
namespace Bdb.Bridge

open List Table

/-- The calls of the journal; the tables that other parts of the program write change freely
between them. -/
inductive QueueCall where
  | createSession (sessionId repositoryId baseSha now : String)
  | recordCommand (command : Command)
  | recordSessionManifest (document : Journal.ManifestDocument) (now : String)
  | recordIngestedCommand (document : PendingDocument)
  | recordIngestionIssue (issue : IngestionIssue)
  | expireSession (sessionId : String)
  | validateCommand (commandId : String) (document : Journal.ValidatedDocument)
  | rejectCommand (commandId errorCode : String) (ingestion : CommandIngestion)
  | expireCommand (commandId : String)
  | claimNextCommand (now : String)
  | transitionCommand (commandId : String) (expected new : CommandState)
  | transitionSession (sessionId : String) (expected new : SessionState)
  | finalize (sessionId : String) (lockHeld : Bool) (now : String)
  | handoffReadySession (serviceInstanceId now : String)
  | elsewhere (around : Surroundings)

namespace Journal

variable (rt : BridgeRuntime)

def perform (j : Journal) : QueueCall → Outcome (Journal × Option Command)
  | .createSession sessionId repositoryId baseSha now => (j.createSession sessionId repositoryId baseSha now).map (·,none)
  | .recordCommand c => (j.recordCommand c).map (·,none)
  | .recordSessionManifest d now => (j.recordSessionManifest rt d now).map (·,none)
  | .recordIngestedCommand d => (j.recordIngestedCommand rt d).map (·,none)
  | .recordIngestionIssue i => (j.recordIngestionIssue rt i).map (·,none)
  | .expireSession sessionId => (j.expireSessionAndPendingCommands sessionId).map (·,none)
  | .validateCommand commandId v => (j.validateAndUpdateCommand rt commandId v).map (·,none)
  | .rejectCommand commandId errorCode i => (j.rejectCommandDuringValidation rt commandId errorCode i).map (·,none)
  | .expireCommand commandId => (j.expireCommandDuringValidation commandId).map (·,none)
  | .claimNextCommand now => j.claimNextCommand rt now
  | .transitionCommand commandId expected new => (j.transitionCommand commandId expected new).map (·,none)
  | .transitionSession sessionId expected new => (j.transitionSession sessionId expected new).map (·,none)
  | .finalize sessionId lockHeld now => (j.finalize rt sessionId lockHeld now).map (·,none)
  | .handoffReadySession serviceInstanceId now => (j.handoffReadySession rt serviceInstanceId now).map (fun r => (r.1,none))
  | .elsewhere around => .ok ({ j with around := around },none)

/-- A call that fails is rolled back. -/
def next (j : Journal) (call : QueueCall) : Journal :=
  match j.perform rt call with
  | .ok (t, _) => t
  | .error _ => j

def claimed (j : Journal) (call : QueueCall) : Option Command :=
  match j.perform rt call with
  | .ok (_, c) => c
  | .error _ => none

def after (j : Journal) (calls : List QueueCall) : Journal := calls.foldl (next rt) j

variable {rt} {s t u : Journal}

/-! ## What is kept -/

/-- At most one command in work and one session open, and no two commands in one place. -/
structure Sound (j : Journal) : Prop where
  placed : j.Placed
  oneWorker : ∀ c ∈ j.commands.rows, ∀ d ∈ j.commands.rows, c.state.isWorking = true → d.state.isWorking = true → c = d
  oneOpen : ∀ x ∈ j.sessions.rows, ∀ y ∈ j.sessions.rows, isOpen x = true → isOpen y = true → x = y

/-- Commands and sessions stay where they are and move along their transitions. -/
structure Follows (s t : Journal) : Prop where
  sessions : ∀ x ∈ s.sessions.rows, ∃ y ∈ t.sessions.rows, y.sessionId = x.sessionId ∧ x.state.Leads y.state
  commands : ∀ c ∈ s.commands.rows, ∃ d ∈ t.commands.rows, d.commandId = c.commandId ∧ d.sessionId = c.sessionId ∧
    d.sequence = c.sequence ∧ c.state.Leads d.state

theorem Follows.refl (s : Journal) : s.Follows s where
  sessions x hx := ⟨x,hx,rfl,.refl⟩
  commands c hc := ⟨c,hc,rfl,rfl,rfl,.refl⟩

theorem Follows.trans (h : s.Follows t) (h' : t.Follows u) : s.Follows u where
  sessions x hx := by
    obtain ⟨y,hy,hid,hlead⟩ := h.sessions x hx
    obtain ⟨z,hz,hid',hlead'⟩ := h'.sessions y hy
    exact ⟨z,hz,hid'.trans hid,Relation.ReflTransGen.trans hlead hlead'⟩
  commands c hc := by
    obtain ⟨d,hd,hid,hsession,hsequence,hlead⟩ := h.commands c hc
    obtain ⟨e,he,hid',hsession',hsequence',hlead'⟩ := h'.commands d hd
    exact ⟨e,he,hid'.trans hid,hsession'.trans hsession,hsequence'.trans hsequence,
      Relation.ReflTransGen.trans hlead hlead'⟩

/-- What holds across one call or several. -/
structure Keeps (s t : Journal) : Prop where
  sound : s.Sound → t.Sound
  follows : s.Follows t

theorem Keeps.refl (s : Journal) : s.Keeps s := ⟨id,.refl s⟩

theorem Keeps.trans (h : s.Keeps t) (h' : t.Keeps u) : s.Keeps u :=
  ⟨fun hs => h'.sound (h.sound hs),h.follows.trans h'.follows⟩

theorem Intake.keeps (h : s.Intake t) : s.Keeps t where
  sound hs :=
    { placed := h.placed hs.placed
      oneWorker := fun c hc d hd hcw hdw => hs.oneWorker c (h.started c hc hcw) d (h.started d hd hdw) hcw hdw
      oneOpen := fun x hx y hy hxo hyo => hs.oneOpen x (h.opened x hx hxo) y (h.opened y hy hyo) hxo hyo }
  follows :=
    { sessions := by
        intro x hx
        rcases h.sessions x hx with hx | ⟨hstate,hx⟩
        · exact ⟨x,hx,rfl,.refl⟩
        · exact ⟨_,hx,rfl,.single (by rw [hstate]; simp [SessionState.transitions])⟩
      commands := by
        intro c hc
        rcases h.commands c hc with hc | ⟨hstate,d,hd,hid,hsession,hsequence,hmove⟩
        · exact ⟨c,hc,rfl,rfl,rfl,.refl⟩
        · exact ⟨d,hd,hid,hsession,hsequence,.single (hstate ▸ hmove)⟩ }

theorem Keeps.of_same (hsessions : t.sessions = s.sessions) (hcommands : t.commands = s.commands) : s.Keeps t where
  sound hs :=
    { placed := ⟨hcommands ▸ hs.placed.positive,hcommands ▸ hs.placed.unique⟩
      oneWorker := hcommands ▸ hs.oneWorker
      oneOpen := hsessions ▸ hs.oneOpen }
  follows := ⟨fun x hx => ⟨x,hsessions ▸ hx,rfl,.refl⟩,fun c hc => ⟨c,hcommands ▸ hc,rfl,rfl,rfl,.refl⟩⟩

variable {new : CommandState}

variable {c : Command} {commandId : String} {expected : CommandState} {r : Option Command}

theorem Keeps.setCommand (hc : c ∈ s.commands.rows) (hnew : new ∈ c.state.transitions)
    (hworking : new.isWorking = true → s.otherWorker c.commandId = none) : s.Keeps (s.withCommandState c.commandId new) where
  sound hs := by
    have hrow : ∀ d ∈ (s.withCommandState c.commandId new).commands.rows, d.state.isWorking = true →
        d = { c with state := new } ∧ new.isWorking = true ∨ d ∈ s.commands.rows ∧ d.commandId ≠ c.commandId := by
      intro d hd hdw
      obtain ⟨d',hd',rfl⟩ := mem_map.mp hd
      split
      · rename_i hid
        rw [if_pos hid] at hdw
        obtain rfl : d' = c := eq_of_key hd' hc hid
        exact .inl ⟨rfl,hdw⟩
      · rename_i hid
        exact .inr ⟨hd',hid⟩
    have hother : new.isWorking = true → ∀ d ∈ s.commands.rows, d.commandId ≠ c.commandId → d.state.isWorking = false := by
      intro hw d hd hid
      have hnone := find_eq_none.mp (hworking hw) d hd
      simpa [hid] using hnone
    refine ⟨hs.placed.map (f := fun d => if d.commandId = c.commandId then { d with state := new } else d) ?_ rfl,?_,hs.oneOpen⟩
    · intro d
      dsimp only
      split <;> exact ⟨rfl,rfl,rfl⟩
    · intro d hd e he hdw hew
      rcases hrow d hd hdw with ⟨rfl,hw⟩ | ⟨hd,hdid⟩ <;> rcases hrow e he hew with ⟨rfl,hw'⟩ | ⟨he,heid⟩
      · rfl
      · rw [hother hw e he heid] at hew
        cases hew
      · rw [hother hw' d hd hdid] at hdw
        cases hdw
      · exact hs.oneWorker d hd e he hdw hew
  follows :=
    { sessions := fun x hx => ⟨x,hx,rfl,.refl⟩
      commands := by
        intro d hd
        refine ⟨_,mem_map_of_mem hd,?_⟩
        split
        · rename_i hid
          obtain rfl : d = c := eq_of_key hd hc hid
          exact ⟨rfl,rfl,rfl,.single hnew⟩
        · exact ⟨rfl,rfl,rfl,.refl⟩ }

theorem Keeps.setSession {x : Session} (new : SessionState) (hx : x ∈ s.sessions.rows) (hnew : new ∈ x.state.transitions)
    (hopen : new = .active ∨ new = .completing → s.otherOpen x.sessionId = none) :
    s.Keeps (s.withSessionState x.sessionId new) where
  sound hs := by
    have hrow : ∀ y ∈ (s.withSessionState x.sessionId new).sessions.rows, isOpen y = true →
        y = { x with state := new } ∧ (new = .active ∨ new = .completing) ∨ y ∈ s.sessions.rows ∧ y.sessionId ≠ x.sessionId := by
      intro y hy hyo
      obtain ⟨y',hy',rfl⟩ := mem_map.mp hy
      split
      · rename_i hid
        rw [if_pos hid] at hyo
        obtain rfl : y' = x := eq_of_key hy' hx hid
        refine .inl ⟨rfl,?_⟩
        simpa [isOpen] using hyo
      · rename_i hid
        exact .inr ⟨hy',hid⟩
    have hother : new = .active ∨ new = .completing → ∀ y ∈ s.sessions.rows, y.sessionId ≠ x.sessionId → isOpen y = false := by
      intro ho y hy hid
      have hnone := find_eq_none.mp (hopen ho) y hy
      simpa [hid] using hnone
    refine ⟨⟨hs.placed.positive,hs.placed.unique⟩,hs.oneWorker,?_⟩
    intro y hy z hz hyo hzo
    rcases hrow y hy hyo with ⟨rfl,ho⟩ | ⟨hy,hyid⟩ <;> rcases hrow z hz hzo with ⟨rfl,ho'⟩ | ⟨hz,hzid⟩
    · rfl
    · rw [hother ho z hz hzid] at hzo
      cases hzo
    · rw [hother ho' y hy hyid] at hyo
      cases hyo
    · exact hs.oneOpen y hy z hz hyo hzo
  follows :=
    { sessions := by
        intro y hy
        refine ⟨_,mem_map_of_mem hy,?_⟩
        split
        · rename_i hid
          obtain rfl : y = x := eq_of_key hy hx hid
          exact ⟨rfl,.single hnew⟩
        · exact ⟨rfl,.refl⟩
      commands := fun c hc => ⟨c,hc,rfl,rfl,rfl,.refl⟩ }

/-! ## Transitions -/

theorem transitionCommand_ok (h : s.transitionCommand commandId expected new = .ok t) :
    ∃ c ∈ s.commands.rows, c.commandId = commandId ∧ c.state = expected ∧ new ∈ c.state.transitions ∧
      (new.isWorking = true → s.otherWorker commandId = none) ∧ t = s.withCommandState commandId new := by
  unfold transitionCommand at h
  obtain ⟨c,hget,h⟩ := of_need h
  obtain ⟨hstate,h⟩ := of_require h
  obtain ⟨_,hmove,h⟩ := bind_ok.mp h
  obtain ⟨hother,h⟩ := of_require h
  cases h
  obtain ⟨hc,hid⟩ := get_eq_some.mp hget
  exact ⟨c,hc,hid,hstate,validateCommandTransition_ok.mp hmove,hother,rfl⟩

theorem transitionSession_ok {sessionId : String} {expected new : SessionState}
    (h : s.transitionSession sessionId expected new = .ok t) :
    ∃ x ∈ s.sessions.rows, x.sessionId = sessionId ∧ x.state = expected ∧ new ∈ x.state.transitions ∧
      (new = .active ∨ new = .completing → s.otherOpen sessionId = none) ∧ t = s.withSessionState sessionId new := by
  unfold transitionSession at h
  obtain ⟨x,hget,h⟩ := of_need h
  obtain ⟨hstate,h⟩ := of_require h
  obtain ⟨_,hmove,h⟩ := bind_ok.mp h
  obtain ⟨hother,h⟩ := of_require h
  cases h
  obtain ⟨hx,hid⟩ := get_eq_some.mp hget
  exact ⟨x,hx,hid,hstate,validateSessionTransition_ok.mp hmove,hother,rfl⟩

theorem Keeps.transitionCommand (h : s.transitionCommand commandId expected new = .ok t) : s.Keeps t := by
  obtain ⟨c,hc,rfl,-,hmove,hother,rfl⟩ := transitionCommand_ok h
  exact .setCommand hc hmove hother

theorem Keeps.transitionSession {sessionId : String} {expected new : SessionState}
    (h : s.transitionSession sessionId expected new = .ok t) : s.Keeps t := by
  obtain ⟨x,hx,rfl,-,hmove,hother,rfl⟩ := transitionSession_ok h
  exact .setSession _ hx hmove hother

/-! ## Claims -/

/-- What a claim has found before it moves anything. -/
structure ClaimOf (rt : BridgeRuntime) (j : Journal) (now : DateTime) (target : Session) (c : Command) : Prop where
  noIssue : j.hasBlockingIngestionIssues = false
  idle : j.worker = none
  chosen : j.targetSession = some target
  manifest : j.manifestExpired rt target.sessionId now = .ok false
  command : j.validatedCommand target.sessionId = some c
  predecessors : j.predecessorsDone c = true

theorem claimNextCommand_cases {now : String} (h : s.claimNextCommand rt now = .ok (t,r)) :
    (t = s ∧ r = none) ∨ ∃ nowDt target c, parseStrictUtcTimestamp rt now "now" = .ok nowDt ∧
      s.ClaimOf rt nowDt target c ∧ s.claimOf target c = .ok (t,r) := by
  unfold claimNextCommand at h
  obtain ⟨nowDt,hnow,h⟩ := bind_ok.mp h
  split at h
  · cases h
    exact .inl ⟨rfl,rfl⟩
  · rename_i hissue
    split at h
    · cases h
      exact .inl ⟨rfl,rfl⟩
    · rename_i hidle
      split at h
      · cases h
        exact .inl ⟨rfl,rfl⟩
      · rename_i target htarget
        obtain ⟨expired,hmanifest,h⟩ := bind_ok.mp h
        cases expired with
        | true =>
          cases h
          exact .inl ⟨rfl,rfl⟩
        | false =>
          simp only [Bool.false_eq_true,if_false] at h
          split at h
          · cases h
            exact .inl ⟨rfl,rfl⟩
          · rename_i c hcommand
            split at h
            · rename_i hdone
              refine .inr ⟨nowDt,target,c,hnow,⟨by simpa using hissue,by simpa using hidle,htarget,hmanifest,hcommand,hdone⟩,h⟩
            · cases h
              exact .inl ⟨rfl,rfl⟩

theorem claimOf_ok {target : Session} (h : s.claimOf target c = .ok (t,r)) :
    r = some { c with state := .claimed } ∧ s.otherWorker c.commandId = none ∧
      (target.state = .created ∧ s.otherOpen target.sessionId = none ∧
          t = (s.withSessionState target.sessionId .active).withCommandState c.commandId .claimed ∨
        target.state ≠ .created ∧ t = s.withCommandState c.commandId .claimed) := by
  unfold claimOf at h
  obtain ⟨u,hu,h⟩ := bind_ok.mp h
  obtain ⟨_,h⟩ := rest_ok h
  obtain ⟨hother,h⟩ := of_require h
  cases h
  unfold activate at hu
  split at hu
  · rename_i hstate
    obtain ⟨_,hu⟩ := rest_ok hu
    obtain ⟨hopen,hu⟩ := of_require hu
    cases hu
    exact ⟨rfl,hother,.inl ⟨hstate,hopen,rfl⟩⟩
  · rename_i hstate
    cases hu
    exact ⟨rfl,hother,.inr ⟨hstate,rfl⟩⟩

end Journal

variable {α κ : Type}

variable {key : α → κ} {l : List α} {a : α}

theorem mem_of_head_sort [LinearOrder κ] (h : (l.insertionSort (key · ≤ key ·)).head? = some a) : a ∈ l :=
  (mem_insertionSort _).mp (mem_of_mem_head? h)

theorem le_of_head_sort [LinearOrder κ] (h : (l.insertionSort (key · ≤ key ·)).head? = some a) : ∀ b ∈ l, key a ≤ key b := by
  have hsorted : (l.insertionSort (key · ≤ key ·)).Pairwise (key · ≤ key ·) := by
    have : Std.Total (fun x y : α => key x ≤ key y) := ⟨fun x y => le_total (key x) (key y)⟩
    have : IsTrans α (fun x y : α => key x ≤ key y) := ⟨fun x y z => le_trans⟩
    exact pairwise_insertionSort _ l
  intro b hb
  have hmem := (mem_insertionSort (key · ≤ key ·)).mpr hb
  cases hl : l.insertionSort (key · ≤ key ·) with
  | nil =>
    rw [hl] at hmem
    cases hmem
  | cons c rest =>
    rw [hl] at h hmem hsorted
    cases h
    rcases mem_cons.mp hmem with rfl | hrest
    · exact le_rfl
    · exact (pairwise_cons.mp hsorted).1 b hrest

namespace Journal

variable {rt : BridgeRuntime} {s t : Journal}

theorem target_cases {target : Session} (h : s.targetSession = some target) :
    target ∈ s.sessions.rows ∧ (isOpen target = true ∨
      s.openSession = none ∧ s.waits target = true ∧ ∀ y ∈ s.sessions.rows, s.waits y = true → target.queueKey ≤ y.queueKey) := by
  unfold targetSession at h
  rcases Option.or_eq_some_iff.mp h with hopen | ⟨hnone,hwaiting⟩
  · have hmem := mem_of_head_sort hopen
    rw [mem_filter] at hmem
    exact ⟨hmem.1,.inl hmem.2⟩
  · have hmem := mem_of_head_sort hwaiting
    have hle := le_of_head_sort hwaiting
    rw [mem_filter] at hmem
    exact ⟨hmem.1,.inr ⟨hnone,hmem.2,fun y hy hw => hle y (mem_filter.mpr ⟨hy,hw⟩)⟩⟩

variable {sessionId now : String} {x : Session}

theorem validatedCommand_some {c : Command} (h : s.validatedCommand sessionId = some c) :
    (c ∈ s.commands.rows ∧ c.sessionId = sessionId ∧ c.state = .validated) ∧
      ∀ d ∈ s.commands.rows, d.sessionId = sessionId → d.state = .validated → c.sequence ≤ d.sequence := by
  have hmem := mem_of_head_sort h
  have hle := le_of_head_sort h
  rw [mem_filter] at hmem
  refine ⟨⟨hmem.1,by simpa using hmem.2⟩,fun d hd hsession hstate => hle d (mem_filter.mpr ⟨hd,?_⟩)⟩
  simp [hsession,hstate]

variable {r : Option Command} {includeServiceState : Bool} {serviceInstanceId : String}

theorem Keeps.claimNextCommand (h : s.claimNextCommand rt now = .ok (t,r)) : s.Keeps t := by
  rcases claimNextCommand_cases h with ⟨rfl,-⟩ | ⟨nowDt,target,c,-,hclaim,hof⟩
  · exact .refl _
  · obtain ⟨⟨hc,-,hstate⟩,-⟩ := validatedCommand_some hclaim.command
    have hmove : CommandState.claimed ∈ c.state.transitions := by rw [hstate]; simp [CommandState.transitions]
    obtain ⟨-,hother,⟨hcreated,hopen,rfl⟩ | ⟨-,rfl⟩⟩ := claimOf_ok hof
    · have hmove' : SessionState.active ∈ target.state.transitions := by rw [hcreated]; simp [SessionState.transitions]
      have hfirst : s.Keeps (s.withSessionState target.sessionId .active) :=
        .setSession _ (target_cases hclaim.chosen).1 hmove' fun _ => hopen
      exact hfirst.trans (.setCommand (s := s.withSessionState target.sessionId .active) hc hmove fun _ => hother)
    · exact .setCommand hc hmove fun _ => hother

/-! ## Finalization and hand-off -/

theorem Keeps.ensurePreserve (h : s.ensurePreserve rt sessionId now = .ok t) : s.Keeps t := by
  unfold Journal.ensurePreserve at h
  obtain ⟨_,h⟩ := rest_ok h
  dsimp only at h
  split at h
  · obtain ⟨_,_,h⟩ := rest₂ h
    cases h
    exact .of_same rfl rfl
  · split at h
    · split at h
      · cases h
        exact .of_same rfl rfl
      · cases h
    · cases h

theorem otherOpen_none (hs : s.Sound) (hx : x ∈ s.sessions.rows) (hopen : isOpen x = true) :
    s.otherOpen x.sessionId = none := by
  refine find_eq_none.mpr fun y hy => ?_
  cases hyo : isOpen y with
  | false => rfl
  | true => simp [hs.oneOpen y hy x hx hyo hopen]

theorem withSessionState_twice (s : Journal) (sessionId : String) (a b : SessionState) :
    (s.withSessionState sessionId a).withSessionState sessionId b = s.withSessionState sessionId b := by
  unfold withSessionState
  have hrows : ((s.sessions.change (fun x => if x.sessionId = sessionId then { x with state := a } else x) (by intro c; split <;> rfl)).change
      (fun x => if x.sessionId = sessionId then { x with state := b } else x) (by intro c; split <;> rfl)) =
      s.sessions.change (fun x => if x.sessionId = sessionId then { x with state := b } else x) (by intro c; split <;> rfl) := by
    simp only [Table.change,map_map,Table.mk.injEq]
    refine map_congr_left fun x _ => ?_
    dsimp only [Function.comp_apply]
    by_cases hx : x.sessionId = sessionId <;> simp [hx]
  simp only [hrows]

theorem finalizeActive_ok (h : s.finalizeActive rt sessionId now includeServiceState = .ok t) :
    (s.withSessionState sessionId .completed).ensurePreserve rt sessionId now = .ok t := by
  unfold finalizeActive at h
  obtain ⟨_,_,h⟩ := rest₂ h
  obtain ⟨_,_,h⟩ := rest₂ h
  rw [withSessionState_twice] at h
  exact h

theorem Keeps.complete (hx : x ∈ s.sessions.rows) (hactive : x.state = .active) :
    s.Keeps (s.withSessionState x.sessionId .completed) where
  sound hs := by
    have hfirst : s.Keeps (s.withSessionState x.sessionId .completing) := by
      refine .setSession _ hx (by rw [hactive]; simp [SessionState.transitions]) fun _ => ?_
      exact otherOpen_none hs hx (by simp [isOpen,hactive])
    have hmem : { x with state := .completing } ∈ (s.withSessionState x.sessionId .completing).sessions.rows :=
      mem_map.mpr ⟨x,hx,if_pos rfl⟩
    have hlast := Keeps.setSession .completed hmem (by simp [SessionState.transitions]) (by rintro (h | h) <;> cases h)
    rw [← withSessionState_twice s x.sessionId .completing .completed]
    exact hlast.sound (hfirst.sound hs)
  follows :=
    { sessions := by
        intro y hy
        refine ⟨_,mem_map_of_mem hy,?_⟩
        split
        · rename_i hid
          obtain rfl : y = x := eq_of_key hy hx hid
          refine ⟨rfl,?_⟩
          rw [hactive]
          exact Relation.ReflTransGen.tail (.single (b := .completing) (by simp [SessionState.transitions]))
            (by simp [SessionState.transitions])
        · exact ⟨rfl,.refl⟩
      commands := fun c hc => ⟨c,hc,rfl,rfl,rfl,.refl⟩ }

theorem Keeps.finalizeActive (hx : x ∈ s.sessions.rows)
    (hactive : x.state = .active) (h : s.finalizeActive rt x.sessionId now includeServiceState = .ok t) : s.Keeps t :=
  (Keeps.complete hx hactive).trans (.ensurePreserve (finalizeActive_ok h))

theorem Keeps.finalize {lockHeld : Bool} (h : s.finalize rt sessionId lockHeld now = .ok t) : s.Keeps t := by
  unfold Journal.finalize at h
  obtain ⟨_,_,h⟩ := rest₂ h
  obtain ⟨x,hget,h⟩ := of_need h
  obtain ⟨hx,rfl⟩ := get_eq_some.mp hget
  split at h
  · obtain ⟨_,h⟩ := rest_ok h
    exact .ensurePreserve h
  · obtain ⟨hactive,h⟩ := of_require h
    exact .finalizeActive hx hactive h

theorem activeSession_some (h : s.activeSession = some x) : x ∈ s.sessions.rows ∧ x.state = .active := by
  have hmem := mem_of_head_sort h
  rw [mem_filter] at hmem
  exact ⟨hmem.1,by simpa using hmem.2⟩

theorem handoffReadySession_cases {r : Option (String × String)}
    (h : s.handoffReadySession rt serviceInstanceId now = .ok (t,r)) :
    (t = s ∧ r = none) ∨ ∃ x, s.activeSession = some x ∧ s.finalizeActive rt x.sessionId now false = .ok t := by
  unfold handoffReadySession at h
  obtain ⟨_,_,h⟩ := rest₂ h
  split at h
  · cases h
    exact .inl ⟨rfl,rfl⟩
  · split at h
    · cases h
      exact .inl ⟨rfl,rfl⟩
    · split at h
      · cases h
        exact .inl ⟨rfl,rfl⟩
      · rename_i x hactive
        obtain ⟨_,h⟩ := rest_ok h
        split at h
        · cases h
          exact .inl ⟨rfl,rfl⟩
        · split at h
          · cases h
            exact .inl ⟨rfl,rfl⟩
          · obtain ⟨u,hu,h⟩ := bind_ok.mp h
            cases h
            exact .inr ⟨x,hactive,hu⟩

theorem Keeps.handoffReadySession {r : Option (String × String)}
    (h : s.handoffReadySession rt serviceInstanceId now = .ok (t,r)) : s.Keeps t := by
  rcases handoffReadySession_cases h with ⟨rfl,-⟩ | ⟨x,hactive,hfinal⟩
  · exact .refl _
  · obtain ⟨hx,hstate⟩ := activeSession_some hactive
    exact .finalizeActive hx hstate hfinal

/-! ## Every call -/

theorem map_ok {α β : Type} {o : Outcome α} {f : α → β} {b : β} (h : o.map f = .ok b) : ∃ a, o = .ok a ∧ f a = b := by
  cases o with
  | error e => cases h
  | ok a =>
    cases h
    exact ⟨a,rfl,rfl⟩

theorem Keeps.perform {call : QueueCall} (h : s.perform rt call = .ok (t,r)) : s.Keeps t := by
  have hintake : ∀ {o : Outcome Journal}, o.map (·,(none : Option Command)) = .ok (t,r) →
      (∀ u, o = .ok u → s.Keeps u) → s.Keeps t := by
    intro o ho hkeep
    obtain ⟨u,hu,heq⟩ := map_ok ho
    cases heq
    exact hkeep _ hu
  cases call with
  | createSession => exact hintake h fun u hu => (Intake.createSession hu).keeps
  | recordCommand => exact hintake h fun u hu => (Intake.recordCommand hu).keeps
  | recordSessionManifest => exact hintake h fun u hu => (Intake.recordSessionManifest hu).keeps
  | recordIngestedCommand => exact hintake h fun u hu => (Intake.recordIngestedCommand hu).keeps
  | recordIngestionIssue => exact hintake h fun u hu => (Intake.recordIngestionIssue hu).keeps
  | expireSession => exact hintake h fun u hu => (Intake.expireSession hu).keeps
  | validateCommand => exact hintake h fun u hu => (Intake.validateAndUpdateCommand hu).keeps
  | rejectCommand => exact hintake h fun u hu => (Intake.rejectCommand hu).keeps
  | expireCommand => exact hintake h fun u hu => (Intake.expireCommand hu).keeps
  | claimNextCommand => exact .claimNextCommand h
  | transitionCommand => exact hintake h fun u hu => .transitionCommand hu
  | transitionSession => exact hintake h fun u hu => .transitionSession hu
  | finalize => exact hintake h fun u hu => .finalize hu
  | handoffReadySession =>
    obtain ⟨⟨u,r'⟩,hu,heq⟩ := map_ok h
    cases heq
    exact .handoffReadySession hu
  | elsewhere =>
    cases h
    exact .of_same rfl rfl

variable (rt) in
theorem Keeps.next (j : Journal) (call : QueueCall) : j.Keeps (j.next rt call) := by
  unfold Journal.next
  split
  · rename_i hperform
    exact .perform hperform
  · exact .refl j

variable (rt) in
theorem Keeps.after (j : Journal) (calls : List QueueCall) : j.Keeps (j.after rt calls) := by
  induction calls generalizing j with
  | nil => exact .refl j
  | cons call rest ih => exact (Keeps.next rt j call).trans (ih (j.next rt call))

theorem sound_empty : empty.Sound := by
  refine ⟨⟨?_,?_⟩,?_,?_⟩ <;> intro c hc <;> cases hc

end Journal

end Bdb.Bridge
