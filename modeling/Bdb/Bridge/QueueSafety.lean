import Bdb.Base.Runs
import Bdb.Bridge.QueueCalls
import Mathlib.Order.Interval.Finset.Nat

/-! # Safety of the command queue

A claim finds the first validated command of the session whose turn it is, with every
command before it done and nothing in work. Its manifest is checked for expiry, its own
document is not: the queue is safe exactly in the runs that claim in time.
-/
namespace Bdb.Bridge

open List

theorem length_eq_iff_fills {l : List ℕ} {n : ℕ} (hl : l.Nodup) (hrange : ∀ k ∈ l, 0 < k ∧ k < n) :
    l.length = n - 1 ↔ ∀ k, 0 < k → k < n → k ∈ l := by
  have hsub : l.toFinset ⊆ Finset.Ico 1 n := by
    intro k hk
    rw [mem_toFinset] at hk
    exact Finset.mem_Ico.mpr (hrange k hk)
  have hcard : l.toFinset.card = l.length := toFinset_card_of_nodup hl
  constructor
  · intro hlen k hpos hlt
    have heq := Finset.eq_of_subset_of_card_le hsub (by rw [hcard,Nat.card_Ico,hlen])
    exact mem_toFinset.mp (heq ▸ Finset.mem_Ico.mpr ⟨hpos,hlt⟩)
  · intro hfill
    have heq : l.toFinset = Finset.Ico 1 n := by
      refine Finset.Subset.antisymm hsub fun k hk => ?_
      obtain ⟨hpos,hlt⟩ := Finset.mem_Ico.mp hk
      exact mem_toFinset.mpr (hfill k hpos hlt)
    rw [← hcard,heq,Nat.card_Ico]

namespace Journal

variable (rt : BridgeRuntime) {s t : Journal}

/-! ## When a command is claimed -/

/-- All earlier places of the session are taken, by commands that are done. -/
def AllBefore (j : Journal) (c : Command) (P : CommandState → Prop) : Prop :=
  ∀ k, 0 < k → k < c.sequence → ∃ p ∈ j.commands.rows, p.sessionId = c.sessionId ∧ p.sequence = k ∧ P p.state

def TurnOf (j : Journal) (sessionId : String) : Prop :=
  ∃ x ∈ j.sessions.rows, x.sessionId = sessionId ∧ (isOpen x = true ∨
    (∀ y ∈ j.sessions.rows, isOpen y = false) ∧ j.waits x = true ∧
      ∀ y ∈ j.sessions.rows, j.waits y = true → x.queueKey ≤ y.queueKey)

/-- The command is the next of the queue. -/
structure Ready (j : Journal) (now : DateTime) (c : Command) : Prop where
  noIssue : ∀ i ∈ j.issues.rows, i.blocking = false
  idle : ∀ d ∈ j.commands.rows, d.state.isWorking = false
  turn : j.TurnOf c.sessionId
  manifest : j.manifestExpired rt c.sessionId now = .ok false
  validated : c ∈ j.commands.rows ∧ c.state = .validated
  first : ∀ d ∈ j.commands.rows, d.sessionId = c.sessionId → d.state = .validated → c.sequence ≤ d.sequence
  predecessors : j.AllBefore c (·.isSchedulerDone = true)

theorem filled_iff (hs : s.Placed) (c : Command) {ps : List Command} (hrows : ps.Nodup)
    (hmem : ∀ p, p ∈ ps ↔ p ∈ s.commands.rows ∧ p.sessionId = c.sessionId ∧ p.sequence < c.sequence) :
    ps.length = c.sequence - 1 ↔ s.AllBefore c fun _ => True := by
  have hnodup : (ps.map (·.sequence)).Nodup := by
    refine (nodup_map_iff_inj_on hrows).mpr fun p hp q hq heq => ?_
    obtain ⟨hp,hpsession,-⟩ := (hmem p).mp hp
    obtain ⟨hq,hqsession,-⟩ := (hmem q).mp hq
    exact hs.unique p hp q hq (hpsession.trans hqsession.symm) heq
  have hrange : ∀ k ∈ ps.map (·.sequence), 0 < k ∧ k < c.sequence := by
    intro k hk
    obtain ⟨p,hp,rfl⟩ := mem_map.mp hk
    obtain ⟨hp,-,hlt⟩ := (hmem p).mp hp
    exact ⟨hs.positive p hp,hlt⟩
  have hfill := length_eq_iff_fills hnodup hrange
  rw [length_map] at hfill
  rw [hfill]
  constructor
  · intro hall k hpos hlt
    obtain ⟨p,hp,rfl⟩ := mem_map.mp (hall k hpos hlt)
    obtain ⟨hrow,hsession,-⟩ := (hmem p).mp hp
    exact ⟨p,hrow,hsession,rfl,trivial⟩
  · intro hall k hpos hlt
    obtain ⟨p,hp,hsession,rfl,-⟩ := hall k hpos hlt
    exact mem_map.mpr ⟨p,(hmem p).mpr ⟨hp,hsession,hlt⟩,rfl⟩

theorem rows_nodup (s : Journal) : s.commands.rows.Nodup := .of_map _ s.commands.unique

theorem predecessorsDone_iff (hs : s.Placed) (c : Command) :
    s.predecessorsDone c = true ↔ s.AllBefore c (·.isSchedulerDone = true) := by
  unfold predecessorsDone
  have hmem : ∀ p, p ∈ s.commands.rows.filter (fun p => p.sessionId == c.sessionId && decide (p.sequence < c.sequence)) ↔
      p ∈ s.commands.rows ∧ p.sessionId = c.sessionId ∧ p.sequence < c.sequence := by
    intro p
    simp [mem_filter]
  rw [Bool.and_eq_true,beq_iff_eq,filled_iff hs c ((rows_nodup s).filter _) hmem,all_eq_true]
  constructor
  · rintro ⟨hall,hdone⟩ k hpos hlt
    obtain ⟨p,hp,hsession,rfl,-⟩ := hall k hpos hlt
    exact ⟨p,hp,hsession,rfl,hdone p ((hmem p).mpr ⟨hp,hsession,hlt⟩)⟩
  · intro hall
    refine ⟨fun k hpos hlt => ?_,fun p hp => ?_⟩
    · obtain ⟨p,hp,hsession,hsequence,-⟩ := hall k hpos hlt
      exact ⟨p,hp,hsession,hsequence,trivial⟩
    · obtain ⟨hrow,hsession,hlt⟩ := (hmem p).mp hp
      obtain ⟨q,hq,hqsession,hsequence,hdone⟩ := hall p.sequence (hs.positive p hrow) hlt
      rw [hs.unique p hrow q hq (hsession.trans hqsession.symm) hsequence.symm]
      exact hdone

theorem countSessionCommandsBefore_iff (hs : s.Placed) (c : Command) :
    s.countSessionCommandsBefore c.sessionId c.sequence = c.sequence - 1 ↔ s.AllBefore c fun _ => True := by
  unfold countSessionCommandsBefore
  rw [countP_eq_length_filter]
  refine filled_iff hs c ((rows_nodup s).filter _) fun p => ?_
  simp [mem_filter]

variable {rt}

theorem blocking_iff (s : Journal) : s.hasBlockingIngestionIssues = false ↔ ∀ i ∈ s.issues.rows, i.blocking = false := by
  simp [hasBlockingIngestionIssues]

theorem worker_none_iff (s : Journal) : s.worker = none ↔ ∀ d ∈ s.commands.rows, d.state.isWorking = false :=
  Table.find_eq_none

theorem openSession_none_iff (s : Journal) : s.openSession = none ↔ ∀ y ∈ s.sessions.rows, isOpen y = false := by
  unfold openSession oldest
  rw [List.head?_eq_none_iff,← length_eq_zero_iff,length_insertionSort,length_eq_zero_iff,filter_eq_nil_iff]
  simp

theorem ClaimOf.ready {now : DateTime} {target : Session} {c : Command} (hs : s.Placed) (h : s.ClaimOf rt now target c) :
    s.Ready rt now c := by
  obtain ⟨⟨hc,hsession,hstate⟩,hfirst⟩ := validatedCommand_some h.command
  obtain ⟨hx,hturn⟩ := target_cases h.chosen
  refine ⟨(blocking_iff s).mp h.noIssue,(worker_none_iff s).mp h.idle,⟨target,hx,hsession.symm,?_⟩,hsession ▸ h.manifest,
    ⟨hc,hstate⟩,fun d hd hd' => hfirst d hd (hd'.trans hsession),(predecessorsDone_iff hs c).mp h.predecessors⟩
  rcases hturn with hopen | ⟨hnone,hwaits,hle⟩
  · exact .inl hopen
  · exact .inr ⟨(openSession_none_iff s).mp hnone,hwaits,hle⟩

theorem head_sort_isSome {α κ : Type} [LinearOrder κ] (key : α → κ) {l : List α} {a : α} (h : a ∈ l) :
    ∃ b, (l.insertionSort (key · ≤ key ·)).head? = some b := by
  have hmem := (mem_insertionSort (key · ≤ key ·)).mpr h
  cases hl : l.insertionSort (key · ≤ key ·) with
  | nil =>
    rw [hl] at hmem
    cases hmem
  | cons b rest => exact ⟨b,rfl⟩

variable {sessionId : String} {call : QueueCall} {d : Command}

theorem targetSession_of_turn (hs : s.Sound) (h : s.TurnOf sessionId) :
    ∃ x, s.targetSession = some x ∧ x.sessionId = sessionId := by
  obtain ⟨x,hx,hid,hopen | ⟨hnone,hwaits,hle⟩⟩ := h
  · obtain ⟨y,hy⟩ := head_sort_isSome Session.queueKey (mem_filter.mpr ⟨hx,hopen⟩ : x ∈ s.sessions.rows.filter isOpen)
    have hmem := mem_of_head_sort hy
    rw [mem_filter] at hmem
    obtain rfl := hs.oneOpen y hmem.1 x hx hmem.2 hopen
    refine ⟨y,?_,hid⟩
    unfold targetSession
    rw [show s.openSession = some y from hy]
    rfl
  · obtain ⟨y,hy⟩ := head_sort_isSome Session.queueKey (mem_filter.mpr ⟨hx,hwaits⟩ : x ∈ s.sessions.rows.filter s.waits)
    have hmem := mem_of_head_sort hy
    rw [mem_filter] at hmem
    have hkey : x.queueKey = y.queueKey := le_antisymm (hle y hmem.1 hmem.2)
      (le_of_head_sort hy x (mem_filter.mpr ⟨hx,hwaits⟩))
    have hname : x.sessionId = y.sessionId := congrArg (fun k => (ofLex k).2) hkey
    refine ⟨y,?_,hname.symm.trans hid⟩
    unfold targetSession
    rw [(openSession_none_iff s).mpr hnone,show s.waitingSession = some y from hy]
    rfl

theorem Ready.claimed (hs : s.Sound) {now : String} {nowDt : DateTime} {c : Command}
    (hnow : parseStrictUtcTimestamp rt now "now" = .ok nowDt) (h : s.Ready rt nowDt c) :
    ∃ t, s.claimNextCommand rt now = .ok (t,some { c with state := .claimed }) := by
  obtain ⟨hc,hstate⟩ := h.validated
  obtain ⟨x,htarget,hid⟩ := targetSession_of_turn hs h.turn
  obtain ⟨d,hd⟩ := head_sort_isSome Command.sequence
    (mem_filter.mpr ⟨hc,by simp [hid,hstate]⟩ : c ∈ s.commands.rows.filter fun c => c.sessionId == x.sessionId && c.state == .validated)
  have hcommand : s.validatedCommand x.sessionId = some d := hd
  obtain ⟨⟨hd,hdsession,hdstate⟩,hdfirst⟩ := validatedCommand_some hcommand
  have hsequence : c.sequence = d.sequence :=
    Nat.le_antisymm (h.first d hd (hdsession.trans hid) hdstate) (hdfirst c hc hid.symm hstate)
  obtain rfl : c = d := hs.placed.unique c hc d hd (hid.symm.trans hdsession.symm) hsequence
  have hother : s.otherWorker c.commandId = none := by
    refine Table.find_eq_none.mpr fun e he => ?_
    rw [h.idle e he,Bool.false_and]
  obtain ⟨u,hu⟩ : ∃ u, s.activate x = .ok u ∧ u.otherWorker c.commandId = none := by
    unfold activate
    split
    · rename_i hcreated
      refine ⟨s.withSessionState x.sessionId .active,?_,hother⟩
      have hopen : s.otherOpen x.sessionId = none := by
        rcases (target_cases htarget).2 with hopen | ⟨hnone,-,-⟩
        · rw [isOpen,hcreated] at hopen
          cases hopen
        · refine Table.find_eq_none.mpr fun y hy => ?_
          rw [(openSession_none_iff s).mp hnone y hy,Bool.false_and]
      rw [validateSessionTransition_ok.mpr (by rw [hcreated]; simp [SessionState.transitions]),ok_bind,require_of hopen,ok_bind]
      rfl
    · exact ⟨s,rfl,hother⟩
  have hmanifest : s.manifestExpired rt x.sessionId nowDt = .ok false := by
    rw [hid]
    exact h.manifest
  refine ⟨u.withCommandState c.commandId .claimed,?_⟩
  unfold claimNextCommand
  rw [hnow,ok_bind,(blocking_iff s).mpr h.noIssue,(worker_none_iff s).mpr h.idle,htarget]
  simp only [Bool.false_eq_true,if_false,Option.isSome_none]
  rw [hmanifest,ok_bind,hcommand]
  simp only [Bool.false_eq_true,if_false]
  rw [(predecessorsDone_iff hs.placed c).mpr h.predecessors,if_pos rfl]
  unfold claimOf
  rw [hu.1,ok_bind,validateCommandTransition_ok.mpr (by simp [CommandState.transitions]),ok_bind,require_of hu.2,ok_bind]
  rfl

theorem performed_of_claimed (h : s.claimed rt call = some d) :
    s.perform rt call = .ok (s.next rt call,some d) := by
  unfold Journal.claimed at h
  unfold Journal.next
  cases hperform : s.perform rt call with
  | error e =>
    rw [hperform] at h
    cases h
  | ok r =>
    obtain ⟨t,r⟩ := r
    rw [hperform] at h
    dsimp only at h
    rw [h]

theorem claimed_some (h : s.claimed rt call = some d) :
    ∃ now nowDt target c, call = .claimNextCommand now ∧ parseStrictUtcTimestamp rt now "now" = .ok nowDt ∧
      s.ClaimOf rt nowDt target c ∧ s.claimOf target c = .ok (s.next rt call,some d) := by
  have hperform := performed_of_claimed h
  have hnone : ∀ {o : Outcome Journal}, o.map (·,(none : Option Command)) ≠ .ok (s.next rt call,some d) := by
    intro o ho
    obtain ⟨u,-,heq⟩ := map_ok ho
    cases congrArg Prod.snd heq
  cases call with
  | claimNextCommand now =>
    rcases claimNextCommand_cases hperform with ⟨-,hr⟩ | ⟨nowDt,target,c,hnow,hof,hmoves⟩
    · cases hr
    · exact ⟨now,nowDt,target,c,rfl,hnow,hof,hmoves⟩
  | handoffReadySession serviceInstanceId now =>
    obtain ⟨u,-,heq⟩ := map_ok hperform
    cases congrArg Prod.snd heq
  | elsewhere around => cases congrArg Prod.snd (Except.ok.inj hperform)
  | createSession | recordCommand | recordSessionManifest | recordIngestedCommand | recordIngestionIssue | expireSession
    | validateCommand | rejectCommand | expireCommand | transitionCommand | transitionSession | finalize =>
    exact absurd hperform hnone

theorem claimed_iff (hs : s.Sound) :
    s.claimed rt call = some d ↔ ∃ now nowDt c, call = .claimNextCommand now ∧
      parseStrictUtcTimestamp rt now "now" = .ok nowDt ∧ s.Ready rt nowDt c ∧ d = { c with state := .claimed } := by
  constructor
  · intro h
    obtain ⟨now,nowDt,target,c,hcall,hnow,hof,hmoves⟩ := claimed_some h
    exact ⟨now,nowDt,c,hcall,hnow,hof.ready hs.placed,Option.some.inj (claimOf_ok hmoves).1⟩
  · rintro ⟨now,nowDt,c,rfl,hnow,hready,rfl⟩
    obtain ⟨t,ht⟩ := hready.claimed hs hnow
    have hperform : s.perform rt (.claimNextCommand now) = .ok (t,some { c with state := .claimed }) := ht
    unfold Journal.claimed
    rw [hperform]

theorem mem_next_of_claimed (h : s.claimed rt call = some d) : d ∈ (s.next rt call).commands.rows := by
  obtain ⟨now,nowDt,target,c,-,-,hof,hmoves⟩ := claimed_some h
  obtain ⟨⟨hc,-⟩,-⟩ := validatedCommand_some hof.command
  obtain ⟨hd,-,⟨-,-,ht⟩ | ⟨-,ht⟩⟩ := claimOf_ok hmoves
  all_goals
    rw [Option.some.inj hd,ht]
    exact mem_map.mpr ⟨c,hc,if_pos rfl⟩

/-! ## Places that are passed -/

def Left (state : CommandState) : Prop := state ≠ .discovered ∧ state ≠ .validated

/-- Every place up to the number is taken by a command that waits no longer. -/
def Passed (j : Journal) (sessionId : String) (n : ℕ) : Prop :=
  ∀ k, 0 < k → k ≤ n → ∃ p ∈ j.commands.rows, p.sessionId = sessionId ∧ p.sequence = k ∧ Left p.state

theorem Passed.follows {n : ℕ} (h : s.Passed sessionId n) (hst : s.Follows t) : t.Passed sessionId n := by
  intro k hpos hle
  obtain ⟨p,hp,hsession,hsequence,hleft⟩ := h k hpos hle
  obtain ⟨q,hq,-,hqsession,hqsequence,hlead⟩ := hst.commands p hp
  exact ⟨q,hq,hqsession.trans hsession,hqsequence.trans hsequence,CommandState.leads_left hleft hlead⟩

theorem left_of_done {state : CommandState} (h : state.isSchedulerDone = true) : Left state := by
  constructor <;> rintro rfl <;> cases h

theorem passed_of_claim (hs : s.Sound) (h : s.claimed rt call = some d) :
    (s.next rt call).Passed d.sessionId d.sequence := by
  obtain ⟨now,nowDt,c,rfl,-,hready,rfl⟩ := (claimed_iff hs).mp h
  have hmem := mem_next_of_claimed h
  intro k hpos hle
  rcases Nat.lt_or_eq_of_le hle with hlt | rfl
  · obtain ⟨p,hp,hsession,hsequence,hdone⟩ := hready.predecessors k hpos hlt
    obtain ⟨q,hq,-,hqsession,hqsequence,hlead⟩ := (Keeps.next rt s (.claimNextCommand now)).follows.commands p hp
    exact ⟨q,hq,hqsession.trans hsession,hqsequence.trans hsequence,CommandState.leads_left (left_of_done hdone) hlead⟩
  · exact ⟨_,hmem,rfl,rfl,nofun,nofun⟩

theorem lt_of_passed (hs : s.Sound) {n : ℕ}
    (hpassed : s.Passed sessionId n) (h : s.claimed rt call = some d) (hsession : sessionId = d.sessionId) : n < d.sequence := by
  obtain ⟨now,nowDt,c,-,-,hready,rfl⟩ := (claimed_iff hs).mp h
  obtain ⟨hc,hstate⟩ := hready.validated
  by_contra hle
  obtain ⟨p,hp,hpsession,hpsequence,hleft⟩ := hpassed c.sequence (hs.placed.positive c hc) (Nat.le_of_not_lt hle)
  obtain rfl := hs.placed.unique p hp c hc (hpsession.trans hsession) hpsequence
  exact hleft.2 hstate

end Journal

/-! ## Safety of every run -/

variable (rt : BridgeRuntime)

/-- What a claim must not disregard. -/
structure ClaimSafe (j : Journal) (now : DateTime) (c : Command) : Prop where
  noIssue : ∀ i ∈ j.issues.rows, i.blocking = false
  predecessors : j.AllBefore c (·.isSchedulerDone = true)
  manifest : ∀ m ∈ j.manifests.rows, m.sessionId = c.sessionId →
    ∃ expiry, parseStrictUtcTimestamp rt m.expiresAt "expires_at" = .ok expiry ∧ now < expiry
  document : ∀ expiry, documentExpiry rt c.commandJson = .ok expiry → now < expiry

def journalAfter (calls : List QueueCall) : Journal := Journal.empty.after rt calls

structure QueueSafe (calls : List QueueCall) : Prop where
  oneWorker : ∀ done rest, calls = done ++ rest → ∀ c ∈ (journalAfter rt done).commands.rows,
    ∀ d ∈ (journalAfter rt done).commands.rows, c.state.isWorking = true → d.state.isWorking = true → c = d
  oneOpen : ∀ done rest, calls = done ++ rest → ∀ x ∈ (journalAfter rt done).sessions.rows,
    ∀ y ∈ (journalAfter rt done).sessions.rows, Journal.isOpen x = true → Journal.isOpen y = true → x = y
  terminalCommands : ∀ done more rest, calls = done ++ more ++ rest → ∀ c ∈ (journalAfter rt done).commands.rows,
    c.state.isTerminal = true →
      ∃ d ∈ (journalAfter rt (done ++ more)).commands.rows, d.commandId = c.commandId ∧ d.state = c.state
  terminalSessions : ∀ done more rest, calls = done ++ more ++ rest → ∀ x ∈ (journalAfter rt done).sessions.rows,
    x.state.isTerminal = true →
      ∃ y ∈ (journalAfter rt (done ++ more)).sessions.rows, y.sessionId = x.sessionId ∧ y.state = x.state
  /-- A later claim of a session is of a later command. -/
  inOrder : ∀ done call more call' rest, calls = done ++ call :: (more ++ call' :: rest) → ∀ c d,
    (journalAfter rt done).claimed rt call = some c → (journalAfter rt (done ++ call :: more)).claimed rt call' = some d →
      c.sessionId = d.sessionId → c.sequence < d.sequence
  claims : ∀ done call rest, calls = done ++ call :: rest → ∀ c, (journalAfter rt done).claimed rt call = some c →
    ∃ now nowDt, call = .claimNextCommand now ∧ parseStrictUtcTimestamp rt now "now" = .ok nowDt ∧
      ClaimSafe rt (journalAfter rt done) nowDt c

def InTime (j : Journal) : QueueCall → Prop
  | .claimNextCommand now => ∀ nowDt, parseStrictUtcTimestamp rt now "now" = .ok nowDt → ∀ c, j.Ready rt nowDt c →
      ∀ expiry, documentExpiry rt c.commandJson = .ok expiry → nowDt < expiry
  | _ => True

variable {rt}

theorem journalAfter_append (done more : List QueueCall) :
    journalAfter rt (done ++ more) = (journalAfter rt done).after rt more :=
  foldl_append ..

theorem sound_after (calls : List QueueCall) : (journalAfter rt calls).Sound :=
  (Journal.Keeps.after rt Journal.empty calls).sound Journal.sound_empty

theorem follows_after (done more : List QueueCall) : (journalAfter rt done).Follows (journalAfter rt (done ++ more)) := by
  rw [journalAfter_append]
  exact (Journal.Keeps.after rt _ more).follows

theorem isExpired_false {text : String} {now : DateTime} (h : isExpired rt text now = .ok false) :
    ∃ expiry, parseStrictUtcTimestamp rt text "expires_at" = .ok expiry ∧ now < expiry := by
  unfold isExpired at h
  obtain ⟨expiry,hexpiry,h⟩ := bind_ok.mp h
  cases h' : decide (expiry ≤ now) with
  | true =>
    rw [h'] at h
    cases h
  | false => exact ⟨expiry,hexpiry,not_le.mp (of_decide_eq_false h')⟩

theorem claimSafe_of_ready {j : Journal} {now : DateTime} {c : Command} (h : j.Ready rt now c)
    (hdocument : ∀ expiry, documentExpiry rt c.commandJson = .ok expiry → now < expiry) :
    ClaimSafe rt j now { c with state := .claimed } := by
  refine ⟨h.noIssue,h.predecessors,?_,hdocument⟩
  intro m hm hsession
  have hmanifest := h.manifest
  unfold Journal.manifestExpired at hmanifest
  rw [Table.get_eq_some.mpr ⟨hm,hsession⟩] at hmanifest
  exact isExpired_false hmanifest

/-- The queue is safe exactly in the runs whose claims are made before the document of the
next command expires. -/
theorem queue_safe_iff (calls : List QueueCall) :
    QueueSafe rt calls ↔ Along (Journal.next rt) (InTime rt) Journal.empty calls := by
  constructor
  · intro h
    have hclaims := h.claims
    clear h
    suffices hrun : ∀ done rest, calls = done ++ rest → Along (Journal.next rt) (InTime rt) (journalAfter rt done) rest from
      hrun [] calls rfl
    intro done rest hsplit
    induction rest generalizing done with
    | nil => exact trivial
    | cons call rest ih =>
      refine ⟨?_,?_⟩
      · cases call with
        | claimNextCommand now =>
          intro nowDt hnow c hready
          have hc := (Journal.claimed_iff (sound_after done)).mpr ⟨now,nowDt,c,rfl,hnow,hready,rfl⟩
          obtain ⟨now',nowDt',hcall,hnow',hsafe⟩ := hclaims done _ rest hsplit _ hc
          cases hcall
          obtain rfl : nowDt = nowDt' := Except.ok.inj (hnow.symm.trans hnow')
          exact hsafe.document
        | _ => exact trivial
      · have hnext := ih (done ++ [call]) (by rw [hsplit,append_assoc]; rfl)
        rw [journalAfter_append] at hnext
        exact hnext
  · intro h
    refine ⟨fun done rest _ => (sound_after done).oneWorker,fun done rest _ => (sound_after done).oneOpen,?_,?_,?_,?_⟩
    · intro done more rest _ c hc hterminal
      obtain ⟨d,hd,hid,-,-,hlead⟩ := (follows_after done more).commands c hc
      exact ⟨d,hd,hid,CommandState.leads_terminal hterminal hlead⟩
    · intro done more rest _ x hx hterminal
      obtain ⟨y,hy,hid,hlead⟩ := (follows_after done more).sessions x hx
      exact ⟨y,hy,hid,SessionState.leads_terminal hterminal hlead⟩
    · intro done call more call' rest _ c d hc hd hsession
      have hpassed := Journal.passed_of_claim (sound_after done) hc
      have hkept : (journalAfter rt (done ++ call :: more)).Passed c.sessionId c.sequence := by
        rw [journalAfter_append]
        exact hpassed.follows (Journal.Keeps.after rt _ more).follows
      exact Journal.lt_of_passed (sound_after _) hkept hd hsession
    · intro done call rest hsplit c hc
      obtain ⟨now,nowDt,c,rfl,hnow,hready,rfl⟩ := (Journal.claimed_iff (sound_after done)).mp hc
      exact ⟨now,nowDt,rfl,hnow,claimSafe_of_ready hready (h.at hsplit nowDt hnow c hready)⟩

/-! ## A command claimed late -/

namespace Journal

variable {j : Journal}

theorem text_of_validated {commandId : String} {v : ValidatedDocument}
    (h : j.validateAndUpdateCommand rt commandId v = .ok t) : ∀ c ∈ t.commands.rows, c.commandId = commandId →
      c.commandJson = v.commandJson := by
  unfold validateAndUpdateCommand at h
  obtain ⟨_,_,_,h⟩ := rest₃ h
  cases h
  intro c hc hid
  obtain ⟨d,-,rfl⟩ := mem_map.mp hc
  split at hid
  · rename_i hd
    rw [if_pos hd]
  · rename_i hd
    exact absurd hid hd

/-- The journal after a call that claims nothing. -/
def settle (j : Journal) (o : Outcome Journal) : Journal :=
  match o with
  | .ok t => t
  | .error _ => j

theorem next_ingested {d : PendingDocument} {text : String} (h : decodeUtf8 d.content = some text) :
    j.next rt (.recordIngestedCommand d) = j.settle (j.recordDecodedCommand rt d (some text)) := by
  have hperform : j.perform rt (.recordIngestedCommand d) = (j.recordDecodedCommand rt d (some text)).map (·,none) := by
    rw [← h]
    rfl
  unfold next settle
  rw [hperform]
  cases j.recordDecodedCommand rt d (some text) <;> rfl

theorem next_validated {commandId : String} {v : ValidatedDocument} :
    j.next rt (.validateCommand commandId v) = j.settle (j.validateAndUpdateCommand rt commandId v) := by
  have hperform : j.perform rt (.validateCommand commandId v) = (j.validateAndUpdateCommand rt commandId v).map (·,none) := rfl
  unfold next settle
  rw [hperform]
  cases j.validateAndUpdateCommand rt commandId v <;> rfl

end Journal

/-- The reading of a few documents and of timestamps in UTC. -/
def readerOf (documents : List (String × Fields)) : BridgeRuntime where
  runtime :=
    { upperTable := fun c => [c]
      lowerTable := fun c => [c]
      repr := fun j => String.ofList (Json.text j)
      fromIsoFormat := fun s =>
        if "+00:00".toList.isSuffixOf s.toList then some (.utc (String.ofList (s.toList.take (s.toList.length - 6)) ++ "Z"))
        else none
      sha256 := Sha256.sha256 }
  loads := fun s => need ((documents.lookup s).map Json.obj) "JSONDecodeError" "Expecting value"

theorem readerOf_loads {entry : String × Fields} {rest : List (String × Fields)} :
    (readerOf (entry :: rest)).loads entry.1 = .ok (.obj entry.2) := by
  obtain ⟨text,fs⟩ := entry
  change need ((List.lookup text ((text,fs) :: rest)).map Json.obj) _ _ = _
  rw [lookup_cons_self]
  rfl

def sampleSha40 : String := "0123456789abcdef0123456789abcdef01234567"

def sampleSha64 : String := "0123456789abcdef0123456789abcdef0123456789abcdef0123456789abcdef"

def sampleSession : String := "01ARZ3NDEKTSV4RRFFQ69G5FAV"

def minute (m : String) : String := "2026-01-01T00:" ++ m ++ ":00.000000Z"

def sampleCommandFields (sessionId : String) (sequence : ℕ) (expiresAt : String) : Fields :=
  [("command_id",.str (commandIdFor sessionId sequence)),("created_at",.str (minute "00")),("expected_revision",.int 0),
    ("expires_at",.str expiresAt),("operation",.str "replace_exact_and_test"),("payload",.obj []),("schema_version",.str "1.1"),
    ("sequence",.int sequence),("session_id",.str sessionId)]

/-- The document and its text. -/
def sampleEntry (sessionId : String) (sequence : ℕ) (expiresAt : String) : String × Fields :=
  (canonicalJson (sampleCommandFields sessionId sequence expiresAt),sampleCommandFields sessionId sequence expiresAt)

def sampleManifest (sessionId expiresAt : String) : Journal.ManifestDocument where
  sourceId := "commands"
  snapshotSha := sampleSha40
  manifest := ⟨sessionId,"sessions/" ++ sessionId ++ "/manifest.json",sampleSha40,sampleSha64,sampleSha64,"\x7b\x7d",minute "00",expiresAt⟩
  repositoryId := "repo"
  baseSha := sampleSha40

def sampleDocument (sessionId : String) (sequence : ℕ) (expiresAt : String) : PendingDocument :=
  ⟨sessionId,sequence,"commands",sampleSha40,"sessions/" ++ sessionId ++ "/commands/" ++ sequenceText sequence ++ ".json",
    sampleSha40,sampleSha64,encodeUtf8 (sampleEntry sessionId sequence expiresAt).1⟩

def sampleValidation (sessionId : String) (sequence : ℕ) (expiresAt : String) : Journal.ValidatedDocument :=
  ⟨(sampleEntry sessionId sequence expiresAt).1,some 0,none,minute "00",expiresAt,sampleSha40⟩

def sampleReader : BridgeRuntime := readerOf [sampleEntry sampleSession 1 (minute "10")]

def lateCalls : List QueueCall :=
  [.recordSessionManifest (sampleManifest sampleSession (minute "50")) (minute "01"),
    .recordIngestedCommand (sampleDocument sampleSession 1 (minute "10")),
    .validateCommand (commandIdFor sampleSession 1) (sampleValidation sampleSession 1 (minute "10"))]

def lateJournal : Journal :=
  let j := Journal.empty.next sampleReader (.recordSessionManifest (sampleManifest sampleSession (minute "50")) (minute "01"))
  j.settle (j.recordDecodedCommand sampleReader (sampleDocument sampleSession 1 (minute "10"))
    (some (sampleEntry sampleSession 1 (minute "10")).1))

theorem lateCalls_after : journalAfter sampleReader lateCalls = lateJournal.settle (lateJournal.validateAndUpdateCommand
    sampleReader (commandIdFor sampleSession 1) (sampleValidation sampleSession 1 (minute "10"))) := by
  unfold journalAfter lateCalls Journal.after
  rw [foldl_cons,foldl_cons,Journal.next_ingested (decodeUtf8_encodeUtf8 _),foldl_cons,Journal.next_validated]
  rfl

/-- A command that was validated in time is claimed ten minutes after its document expired. -/
theorem claimed_after_expiry : ¬ QueueSafe sampleReader (lateCalls ++ [.claimNextCommand (minute "20")]) := by
  intro h
  have hvalidated : ∃ t, lateJournal.validateAndUpdateCommand sampleReader (commandIdFor sampleSession 1)
      (sampleValidation sampleSession 1 (minute "10")) = .ok t := by
    have hsome : (lateJournal.validateAndUpdateCommand sampleReader (commandIdFor sampleSession 1)
        (sampleValidation sampleSession 1 (minute "10"))).toOption.isSome = true := by decide +kernel
    obtain ⟨t,ht⟩ := Option.isSome_iff_exists.mp hsome
    exact ⟨t,toOption_eq_some.mp ht⟩
  have hclaimed : ((journalAfter sampleReader lateCalls).claimed sampleReader (.claimNextCommand (minute "20"))).any
      (fun c => c.commandId = commandIdFor sampleSession 1) = true := by
    rw [lateCalls_after]
    decide +kernel
  obtain ⟨t,ht⟩ := hvalidated
  obtain ⟨c,hc,hid⟩ := (Option.any_eq_true _ _).mp hclaimed
  obtain ⟨now,nowDt,hcall,hnow,hsafe⟩ := h.claims lateCalls _ [] rfl c hc
  cases hcall
  have htext : c.commandJson = (sampleEntry sampleSession 1 (minute "10")).1 := by
    obtain ⟨now,nowDt,d,-,-,hready,rfl⟩ := (Journal.claimed_iff (sound_after lateCalls)).mp hc
    refine Journal.text_of_validated ht d ?_ (of_decide_eq_true hid)
    have hmem := hready.validated.1
    rw [lateCalls_after,ht] at hmem
    exact hmem
  have hexpiry : documentExpiry sampleReader c.commandJson = parseStrictUtcTimestamp sampleReader (minute "10") "expires_at" := by
    unfold documentExpiry sampleReader
    rw [htext,readerOf_loads,ok_bind]
    rfl
  have hlate : (parseStrictUtcTimestamp sampleReader (minute "10") "expires_at").toOption.any (fun expiry =>
      (parseStrictUtcTimestamp sampleReader (minute "20") "now").toOption.any fun nowDt => decide (expiry ≤ nowDt)) = true := by
    decide +kernel
  cases hparse : parseStrictUtcTimestamp sampleReader (minute "10") "expires_at" with
  | error e =>
    rw [hparse] at hlate
    cases hlate
  | ok expiry =>
    rw [hparse,hnow] at hlate
    exact absurd (hsafe.document expiry (hexpiry.trans hparse)) (not_lt.mpr (of_decide_eq_true hlate))

end Bdb.Bridge
