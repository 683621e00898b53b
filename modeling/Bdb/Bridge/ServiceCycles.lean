import Bdb.Bridge.ValidationPass

/-! # Service cycles

A service cycle polls, claims, hands an idle session over and claims again; a command that
is claimed is worked off before the next cycle. What the queue promises, and when it can keep
it, is said of one state of the journal and of the cycles that may follow it.
-/
namespace Bdb.Bridge

open List

/-- The running service: the source it polls and the instance it is registered as. -/
structure Service where
  sourceId : String
  instanceId : String
  named : instanceId ≠ ""

structure Cycle where
  fetched : Option CommandSnapshot
  now : String

namespace Journal

variable (rt : BridgeRuntime) (service : Service)

def polled (cycle : Cycle) (j : Journal) : Journal := (j.pollOnce rt service.sourceId cycle.fetched cycle.now).1

def serviceCycle (cycle : Cycle) (j : Journal) : Journal × Outcome (Option Command) :=
  match j.pollOnce rt service.sourceId cycle.fetched cycle.now with
  | (j, .error e) => (j,.error e)
  | (j, .ok ()) => j.claimNext rt service.instanceId cycle.now

def claimedIn (cycle : Cycle) (j : Journal) : Option Command :=
  match (j.serviceCycle rt service cycle).2 with
  | .ok c => c
  | .error _ => none

/-- The claimed command is worked off: it ends in some final state with its result published,
and the workspace of its session can be kept as before. -/
structure Served (s : Journal) (c : Command) (t : Journal) : Prop where
  command : ∃ final, final.isFinal = true ∧ CommandState.claimed.Leads final ∧
    t.commands = (s.withCommandState c.commandId final).commands
  sessions : t.sessions = s.sessions
  manifests : t.manifests = s.manifests
  ingestions : t.ingestions = s.ingestions
  issues : t.issues = s.issues
  services : t.around.services = s.around.services
  outbox : ∀ o ∈ t.around.outbox, o ∈ s.around.outbox ∨ o.state = .published
  workspace : ∀ now, (∃ u, s.ensurePreserve rt c.sessionId now = .ok u) → ∃ u, t.ensurePreserve rt c.sessionId now = .ok u

/-- The goal is reached in a cycle at some later time, however the commands claimed before are
worked off. -/
inductive Comes (fetches : Option CommandSnapshot → Prop) (goal : Journal → Cycle → DateTime → Prop) : DateTime → Journal → Prop
  | reached {start now : DateTime} {j : Journal} (cycle : Cycle) : fetches cycle.fetched →
      parseStrictUtcTimestamp rt cycle.now "now" = .ok now → start ≤ now → goal j cycle now → Comes fetches goal start j
  | idle {start now : DateTime} {j : Journal} (cycle : Cycle) : fetches cycle.fetched →
      parseStrictUtcTimestamp rt cycle.now "now" = .ok now → start ≤ now → j.claimedIn rt service cycle = none →
      Comes fetches goal now (j.serviceCycle rt service cycle).1 → Comes fetches goal start j
  | worked {start now : DateTime} {j : Journal} (cycle : Cycle) (c : Command) : fetches cycle.fetched →
      parseStrictUtcTimestamp rt cycle.now "now" = .ok now → start ≤ now → j.claimedIn rt service cycle = some c →
      (∃ t, Served rt (j.serviceCycle rt service cycle).1 c t) →
      (∀ t, Served rt (j.serviceCycle rt service cycle).1 c t → Comes fetches goal now t) → Comes fetches goal start j

/-! ## What the queue promises -/

/-- A validated command of a session that was not activated, with nothing expired and every
command before it present and done. -/
structure Waiting (j : Journal) (now : DateTime) (c : Command) : Prop where
  validated : c ∈ j.commands.rows ∧ c.state = .validated
  created : ∃ x ∈ j.sessions.rows, x.sessionId = c.sessionId ∧ x.state = .created
  manifest : ManifestValid rt j c.sessionId now
  document : DocumentValid rt j c.commandId now
  predecessors : j.AllBefore c (·.isSchedulerDone = true)

/-- Nothing blocks, is in work or is still to be published, and the service runs. -/
structure Quiet (j : Journal) : Prop where
  noIssue : ∀ i ∈ j.issues.rows, i.blocking = false
  noWorker : ∀ c ∈ j.commands.rows, c.state.isWorking = false
  noPending : ∀ o ∈ j.around.outbox, o.state ≠ .pending
  running : j.servedBy service.instanceId = true

def ClaimsWaiting (j : Journal) (cycle : Cycle) (now : DateTime) : Prop :=
  ∃ c, Waiting rt (j.polled rt service cycle) now c ∧ j.claimedIn rt service cycle = some { c with state := .claimed }

def LeavesState (commandId : String) (j : Journal) (cycle : Cycle) (_ : DateTime) : Prop :=
  ∀ d ∈ (j.serviceCycle rt service cycle).1.commands.rows, d.commandId = commandId → Left d.state

structure NoWedge (fetches : Option CommandSnapshot → Prop) (j : Journal) (start : DateTime) : Prop where
  claims : Quiet service j → (∃ c, Waiting rt j start c) → Comes rt service fetches (ClaimsWaiting rt service) start j
  leaves : ∀ c ∈ j.commands.rows, c.state = .discovered ∨ c.state = .validated →
    (∃ x ∈ j.sessions.rows, x.sessionId = c.sessionId ∧ x.state.isTerminal = true) →
      Comes rt service fetches (LeavesState rt service c.commandId) start j

/-! ## When it keeps the promise -/

/-- The first command of some session waits, and so does the first command of every session
ahead of it whose manifest has not expired. -/
def InLine (j : Journal) (now : DateTime) : Prop :=
  ∃ c x, Waiting rt j now c ∧ c.sequence = 1 ∧ x ∈ j.sessions.rows ∧ x.sessionId = c.sessionId ∧
    ∀ d ∈ j.commands.rows, d.sequence = 1 → d.state = .validated → ∀ y ∈ j.sessions.rows, y.sessionId = d.sessionId →
      y.state = .created → y.queueKey ≤ x.queueKey → ¬ ManifestPast rt j d.sessionId now → Waiting rt j now d

/-- A command of the open session that is final, or that can be claimed in its turn or
decided while the manifest is valid. -/
def Resolves (j : Journal) (now : DateTime) (c : Command) : Prop :=
  c.state.isFinal = true ∨ ManifestValid rt j c.sessionId now ∧
    (c.state = .validated ∧ j.AllPresent c ∨ c.state = .discovered ∧ Decided rt service.sourceId j now c)

/-- The open session can be cleared and completed. -/
structure Clearable (j : Journal) (text : String) (now : DateTime) (x : Session) : Prop where
  active : x.state = .active
  commands : ∃ c ∈ j.commands.rows, c.sessionId = x.sessionId
  resolves : ∀ c ∈ j.commands.rows, c.sessionId = x.sessionId → Resolves rt service j now c
  published : ∀ o ∈ j.around.outbox, o.sessionId = x.sessionId → o.state = .published
  workspace : ∃ t, j.ensurePreserve rt x.sessionId text = .ok t

structure Unwedged (j : Journal) (start : DateTime) : Prop where
  readable : Readable rt service.sourceId j
  claims : Quiet service j → (∃ c, Waiting rt j start c) → ∃ text now, parseStrictUtcTimestamp rt text "now" = .ok now ∧
    start ≤ now ∧ InLine rt j now ∧ ∀ x ∈ j.sessions.rows, isOpen x = true → Clearable rt service j text now x
  leaves : ∀ c ∈ j.commands.rows, c.state = .discovered ∨ c.state = .validated →
    (∃ x ∈ j.sessions.rows, x.sessionId = c.sessionId ∧ x.state.isTerminal = true) →
      c.state = .discovered ∧ ∃ text now, parseStrictUtcTimestamp rt text "now" = .ok now ∧ start ≤ now ∧
        Ended rt service.sourceId j now c

variable {rt service} {now : DateTime} {s t u : Journal}

/-! ## A poll that brings nothing new -/

def nothingNew (snapshotSha : String) : Option CommandSnapshot := some ⟨snapshotSha,[],[]⟩

variable {text : String} {x : Session}

variable {sourceId sessionId : String}

theorem pollOnce_nothingNew {snapshotSha : String} (hnow : parseStrictUtcTimestamp rt text "now" = .ok now)
    (j : Journal) : j.pollOnce rt sourceId (nothingNew snapshotSha) text = j.validateAt rt sourceId now := by
  change j.validatePending rt sourceId text = _
  unfold validatePending
  rw [hnow]

theorem InLine.pass (h : InLine rt s now) (hst : Pass rt now s t) : InLine rt t now := by
  have hkept : ∀ {d : Command}, Waiting rt s now d → d.sequence = 1 → Waiting rt t now d := by
    intro d hd hone
    obtain ⟨⟨hmem,hstate⟩,⟨x,hx,hxid,hcreated⟩,hmanifest,⟨i,hi,hiid,hdocument⟩,-⟩ := hd
    have hleft : d.state ≠ .discovered := by
      rw [hstate]
      nofun
    refine ⟨⟨?_,hstate⟩,⟨x,?_,hxid,hcreated⟩,?_,⟨i,hst.ingestion_kept hmem hleft hi hiid,hiid,hdocument⟩,?_⟩
    · rcases hst.intake.commands d hmem with hmem | ⟨hstate',-⟩
      · exact hmem
      · exact absurd hstate' hleft
    · rcases hst.sessions x hx with hx | hpast
      · exact hx
      · exact absurd (hxid ▸ hpast) hmanifest.not_past
    · unfold ManifestValid
      rw [hst.manifests]
      exact hmanifest
    · intro k hpos hlt
      omega
  obtain ⟨c,x,hc,hone,hx,hxid,hahead⟩ := h
  have hxt : x ∈ t.sessions.rows := by
    rcases hst.sessions x hx with hx | hpast
    · exact hx
    · exact absurd (hxid ▸ hpast) hc.manifest.not_past
  refine ⟨c,x,hkept hc hone,hone,hxt,hxid,?_⟩
  intro d hd hdone hstate y hy hyid hcreated hle hfuture
  rcases hst.commands d hd with hds | ⟨hv,-⟩
  · obtain ⟨y',hy',hyid',rfl | ⟨-,haborted⟩⟩ := hst.aborted y hy
    · refine hkept (hahead d hds hdone hstate y hy' hyid hcreated hle fun hpast => hfuture ?_) hdone
      unfold ManifestPast
      rw [hst.manifests]
      exact hpast
    · rw [haborted] at hcreated
      cases hcreated
  · rcases hv with hv | hv | ⟨-,-,hvalid,hdocument⟩
    · rw [hv] at hstate
      cases hstate
    · rw [hv] at hstate
      cases hstate
    · exact ⟨⟨hd,hstate⟩,⟨y,hy,hyid,hcreated⟩,hvalid,hdocument,fun k hpos hlt => by omega⟩

/-- After a pass nothing of a clearable session is left to decide. -/
def Settled (rt : BridgeRuntime) (j : Journal) (now : DateTime) (c : Command) : Prop :=
  c.state.isFinal = true ∨ ManifestValid rt j c.sessionId now ∧ c.state = .validated ∧ j.AllPresent c

theorem Settled.resolves {c : Command} (h : Settled rt s now c) : Resolves rt service s now c :=
  h.imp_right fun hvalid => ⟨hvalid.1,.inl hvalid.2⟩

theorem Resolves.settled (hst : Pass rt now s t)
    (hgone : ∀ c ∈ s.commands.rows, c.state = .discovered → Decided rt service.sourceId s now c → Gone c.commandId t)
    (h : ∀ c ∈ s.commands.rows, c.sessionId = sessionId → Resolves rt service s now c) :
    ∀ d ∈ t.commands.rows, d.sessionId = sessionId → Settled rt t now d := by
  intro d hd hsession
  rcases hst.commands d hd with hds | ⟨hv,-⟩
  · rcases h d hds hsession with hfinal | ⟨hvalid,⟨hstate,hpresent⟩ | ⟨hstate,hdecided⟩⟩
    · exact .inl hfinal
    · refine .inr ⟨?_,hstate,hpresent.intake hst.intake⟩
      unfold ManifestValid
      rw [hst.manifests]
      exact hvalid
    · exact absurd hstate (hgone d hds hstate hdecided d hd rfl)
  · rcases hv with hv | hv | ⟨hstate,hpresent,hvalid,-⟩
    · exact .inl (by rw [hv]; rfl)
    · exact .inl (by rw [hv]; rfl)
    · exact .inr ⟨hvalid,hstate,hpresent⟩

theorem ensurePreserve_ok (haround : t.around = s.around)
    (h : ∃ u, s.ensurePreserve rt sessionId text = .ok u) :
    ∃ lifecycles, t.ensurePreserve rt sessionId text = .ok { t with around := { t.around with lifecycles := lifecycles } } := by
  obtain ⟨u,h⟩ := h
  unfold Journal.ensurePreserve lifecycleAccepted at h ⊢
  rw [haround]
  obtain ⟨w,hw,h⟩ := bind_ok.mp h
  dsimp only at h
  rw [hw,ok_bind]
  dsimp only
  split at h
  · obtain ⟨_,hsame,h⟩ := bind_ok.mp h
    obtain ⟨_,hstate,h⟩ := bind_ok.mp h
    rw [hsame,ok_bind,hstate,ok_bind]
    exact ⟨_,rfl⟩
  · split at h
    · rename_i haccepted
      rw [if_pos haccepted]
      split at h
      · rename_i lifecycles hinsert
        exact ⟨lifecycles,rfl⟩
      · cases h
    · cases h

/-! ## Claims -/

theorem manifestExpired_of_valid (h : ManifestValid rt s sessionId now) :
    s.manifestExpired rt sessionId now = .ok false := by
  obtain ⟨m,hm,hid,expiry,hexpiry,hlt⟩ := h
  unfold manifestExpired
  rw [Table.get_eq_some.mpr ⟨hm,hid⟩]
  dsimp only
  rw [isExpired_of hexpiry,decide_eq_false (not_le.mpr hlt)]

theorem InLine.claimed (h : InLine rt s now) (hs : s.Sound) (hissue : ∀ i ∈ s.issues.rows, i.blocking = false)
    (hidle : ∀ c ∈ s.commands.rows, c.state.isWorking = false) (hclosed : ∀ x ∈ s.sessions.rows, isOpen x = false)
    (hfresh : ∀ sessionId, Fresh rt now sessionId s) (hnow : parseStrictUtcTimestamp rt text "now" = .ok now) :
    ∃ d t, Waiting rt s now d ∧ s.claimNextCommand rt text = .ok (t,some { d with state := .claimed }) := by
  obtain ⟨c,x,hc,hone,hx,hxid,hahead⟩ := h
  have hwaits : s.waits x = true := by
    obtain ⟨y,hy,hyid,hcreated⟩ := hc.created
    obtain rfl : y = x := Table.eq_of_key hy hx (hyid.trans hxid.symm)
    unfold waits
    rw [Bool.and_eq_true,any_eq_true]
    exact ⟨by simp [hcreated],c,hc.validated.1,by simp [hxid,hone,hc.validated.2]⟩
  have hmem : x ∈ s.sessions.rows.filter s.waits := mem_filter.mpr ⟨hx,hwaits⟩
  obtain ⟨y,hy⟩ := head_sort_isSome Session.queueKey hmem
  have hle := le_of_head_sort hy
  obtain ⟨hyrow,hywaits⟩ := mem_filter.mp (mem_of_head_sort hy)
  obtain ⟨hcreated,d,hd,hdcase⟩ : y.state = .created ∧ ∃ d ∈ s.commands.rows, d.sessionId = y.sessionId ∧ d.sequence = 1 ∧
      d.state = .validated := by
    unfold waits at hywaits
    rw [Bool.and_eq_true,any_eq_true] at hywaits
    obtain ⟨hcreated,d,hd,hcase⟩ := hywaits
    exact ⟨by simpa using hcreated,d,hd,by simpa [and_assoc] using hcase⟩
  obtain ⟨hsession,hdone,hstate⟩ := hdcase
  have hwaiting : Waiting rt s now d :=
    hahead d hd hdone hstate y hyrow hsession.symm hcreated (hle x hmem) (hfresh d.sessionId y hyrow hsession.symm hcreated)
  have hready : s.Ready rt now d := by
    refine ⟨hissue,hidle,⟨y,hyrow,hsession.symm,.inr ⟨hclosed,hywaits,?_⟩⟩,manifestExpired_of_valid hwaiting.manifest,
      ⟨hd,hstate⟩,?_,hwaiting.predecessors⟩
    · intro z hz hzw
      exact hle z (mem_filter.mpr ⟨hz,hzw⟩)
    · intro e he _ _
      rw [hdone]
      exact hs.placed.positive e he
  obtain ⟨t,ht⟩ := hready.claimed hs hnow
  exact ⟨d,t,hwaiting,ht⟩

theorem isSchedulerDone_of_final {state : CommandState} (h : state.isFinal = true) : state.isSchedulerDone = true := by
  cases state <;> first | rfl | cases h

theorem claimed_of_settled (hs : s.Sound) (hissue : ∀ i ∈ s.issues.rows, i.blocking = false)
    (hidle : ∀ c ∈ s.commands.rows, c.state.isWorking = false) (hx : x ∈ s.sessions.rows) (hactive : x.state = .active)
    (hsettled : ∀ c ∈ s.commands.rows, c.sessionId = x.sessionId → Settled rt s now c)
    (hmore : ∃ c ∈ s.commands.rows, c.sessionId = x.sessionId ∧ c.state = .validated)
    (hnow : parseStrictUtcTimestamp rt text "now" = .ok now) :
    ∃ c ∈ s.commands.rows, c.sessionId = x.sessionId ∧ c.state = .validated ∧
      s.claimNextCommand rt text = .ok (s.withCommandState c.commandId .claimed,some { c with state := .claimed }) := by
  obtain ⟨c₀,hc₀,hsession₀,hstate₀⟩ := hmore
  have hopen : isOpen x = true := by
    unfold isOpen
    rw [hactive]
    rfl
  obtain ⟨c,hc⟩ := head_sort_isSome Command.sequence
    (mem_filter.mpr ⟨hc₀,by simp [hsession₀,hstate₀]⟩ : c₀ ∈ s.commands.rows.filter fun c => c.sessionId == x.sessionId && c.state == .validated)
  have hvalidated : s.validatedCommand x.sessionId = some c := hc
  obtain ⟨⟨hmem,hsession,hstate⟩,hfirst⟩ := validatedCommand_some hvalidated
  obtain ⟨hvalid,hpresent⟩ : ManifestValid rt s c.sessionId now ∧ s.AllPresent c := by
    rcases hsettled c hmem hsession with hfinal | ⟨hvalid,-,hpresent⟩
    · rw [hstate] at hfinal
      cases hfinal
    · exact ⟨hvalid,hpresent⟩
  have hready : s.Ready rt now c := by
    refine ⟨hissue,hidle,⟨x,hx,hsession.symm,.inl hopen⟩,manifestExpired_of_valid hvalid,⟨hmem,hstate⟩,
      fun d hd hdsession => hfirst d hd (hdsession.trans hsession),?_⟩
    intro k hpos hlt
    obtain ⟨p,hp,hpsession,rfl,-⟩ := hpresent k hpos hlt
    refine ⟨p,hp,hpsession,rfl,?_⟩
    rcases hsettled p hp (hpsession.trans hsession) with hfinal | ⟨-,hpstate,-⟩
    · exact isSchedulerDone_of_final hfinal
    · exact absurd (hfirst p hp (hpsession.trans hsession) hpstate) (not_le.mpr hlt)
  obtain ⟨t,ht⟩ := hready.claimed hs hnow
  refine ⟨c,hmem,hsession,hstate,?_⟩
  rcases claimNextCommand_cases ht with ⟨-,hnone⟩ | ⟨nowDt,target,c',-,hof,hmoves⟩
  · cases hnone
  · obtain ⟨htarget,hturn⟩ := target_cases hof.chosen
    have hx' : target = x := by
      rcases hturn with htopen | ⟨hnone,-⟩
      · exact hs.oneOpen target htarget x hx htopen hopen
      · rw [(openSession_none_iff s).mp hnone x hx] at hopen
        cases hopen
    obtain ⟨hr,-,⟨hcreated,-⟩ | ⟨-,rfl⟩⟩ := claimOf_ok hmoves
    · rw [hx',hactive] at hcreated
      cases hcreated
    · have hc' : c' = c := by
        have hcommand := hof.command
        rw [hx',hvalidated] at hcommand
        exact (Option.some.inj hcommand).symm
      rw [hc'] at ht
      exact ht

variable (now) in
theorem manifestExpired_readable (hread : Readable rt sourceId s) (sessionId : String) :
    ∃ b, s.manifestExpired rt sessionId now = .ok b := by
  unfold manifestExpired
  cases hget : s.manifests.get sessionId with
  | none => exact ⟨false,rfl⟩
  | some m =>
    obtain ⟨expiry,hexpiry⟩ := hread.manifests m (Table.mem_of_find hget)
    exact ⟨_,isExpired_of hexpiry⟩

theorem claims_none_of_final (hs : s.Sound) (hread : Readable rt sourceId s)
    (hissue : ∀ i ∈ s.issues.rows, i.blocking = false) (hidle : ∀ c ∈ s.commands.rows, c.state.isWorking = false)
    (hx : x ∈ s.sessions.rows) (hopen : isOpen x = true)
    (hfinal : ∀ c ∈ s.commands.rows, c.sessionId = x.sessionId → c.state ≠ .validated)
    (hnow : parseStrictUtcTimestamp rt text "now" = .ok now) : s.claimNextCommand rt text = .ok (s,none) := by
  obtain ⟨y,hy,hyid⟩ := targetSession_of_turn hs (⟨x,hx,rfl,.inl hopen⟩ : s.TurnOf x.sessionId)
  obtain ⟨b,hb⟩ := manifestExpired_readable now hread y.sessionId
  have hnone : s.validatedCommand y.sessionId = none := by
    unfold validatedCommand firstOf
    rw [List.head?_eq_none_iff,← length_eq_zero_iff,length_insertionSort,length_eq_zero_iff,filter_eq_nil_iff]
    intro c hc hcase
    have hcase : c.sessionId = y.sessionId ∧ c.state = .validated := by simpa using hcase
    exact hfinal c hc (hcase.1.trans hyid) hcase.2
  unfold claimNextCommand
  rw [hnow,ok_bind,(blocking_iff s).mpr hissue,(worker_none_iff s).mpr hidle,hy]
  simp only [Bool.false_eq_true,if_false,Option.isSome_none]
  rw [hb,ok_bind,hnone]
  cases b <;> rfl

/-! ## Hand-off -/

theorem firstUnexpired_some (hread : Readable rt sourceId s) {l : List Session}
    (h : ∃ x ∈ l, ManifestValid rt s x.sessionId now) : ∃ w, s.firstUnexpired rt now l = .ok (some w) := by
  induction l with
  | nil =>
    obtain ⟨x,hx,-⟩ := h
    cases hx
  | cons y rest ih =>
    have hrest : ¬ ManifestValid rt s y.sessionId now → ∃ w, s.firstUnexpired rt now rest = .ok (some w) := by
      intro hy
      obtain ⟨x,hx,hvalid⟩ := h
      rcases mem_cons.mp hx with rfl | hx
      · exact absurd hvalid hy
      · exact ih ⟨x,hx,hvalid⟩
    unfold firstUnexpired
    cases hget : s.manifests.get y.sessionId with
    | none =>
      refine hrest ?_
      rintro ⟨m,hm,hid,-⟩
      rw [← hid,Table.get_of_mem hm] at hget
      cases hget
    | some m =>
      obtain ⟨hm,hid⟩ := Table.get_eq_some.mp hget
      obtain ⟨expiry,hexpiry⟩ := hread.manifests m hm
      dsimp only
      rw [isExpired_of hexpiry,ok_bind]
      by_cases hpast : expiry ≤ now
      · rw [decide_eq_true hpast,if_pos rfl]
        exact hrest fun hvalid => hvalid.not_past ⟨m,hm,hid,expiry,hexpiry,hpast⟩
      · rw [decide_eq_false hpast,if_neg Bool.false_ne_true]
        exact ⟨y,rfl⟩

theorem blockingReasons_nil (hissue : ∀ i ∈ s.issues.rows, i.blocking = false)
    (hcommands : ∃ c ∈ s.commands.rows, c.sessionId = sessionId)
    (hfinal : ∀ c ∈ s.commands.rows, c.sessionId = sessionId → c.state.isFinal = true)
    (hpublished : ∀ o ∈ s.around.outbox, o.sessionId = sessionId → o.state = .published) :
    s.blockingReasons sessionId false = [] := by
  have hmem : ∀ c ∈ s.commandsOf sessionId, c.state.isFinal = true := by
    intro c hc
    obtain ⟨hc,hid⟩ := mem_filter.mp hc
    exact hfinal c hc (by simpa using hid)
  have hsome : (s.commandsOf sessionId).isEmpty = false := by
    obtain ⟨c,hc,hid⟩ := hcommands
    have hc : c ∈ s.commandsOf sessionId := mem_filter.mpr ⟨hc,by simp [hid]⟩
    cases hl : s.commandsOf sessionId with
    | nil =>
      rw [hl] at hc
      cases hc
    | cons => rfl
  have hmanual : ((s.commandsOf sessionId).any fun c => c.state == .manualReconciliationRequired) = false := by
    refine any_eq_false.mpr fun c hc hstate => ?_
    have hf := hmem c hc
    rw [beq_iff_eq.mp hstate] at hf
    cases hf
  have hunresolved : ((s.commandsOf sessionId).any fun c => !c.state.isFinal) = false :=
    any_eq_false.mpr fun c hc => by simp [hmem c hc]
  have houtbox : (s.around.outbox.any fun o => o.sessionId == sessionId && o.state != .published) = false := by
    refine any_eq_false.mpr fun o ho hcase => ?_
    have hcase : o.sessionId = sessionId ∧ o.state ≠ .published := by simpa using hcase
    exact hcase.2 (hpublished o ho hcase.1)
  have hissues : (s.issues.rows.any fun i => i.sessionId == some sessionId && i.blocking) = false :=
    any_eq_false.mpr fun i hi => by simp [hissue i hi]
  unfold blockingReasons
  dsimp only
  rw [hsome,hmanual,hunresolved,houtbox,hissues]
  rfl

theorem activeSession_of (hs : s.Sound) (hx : x ∈ s.sessions.rows) (hactive : x.state = .active) :
    s.activeSession = some x := by
  obtain ⟨y,hy⟩ := head_sort_isSome Session.queueKey
    (mem_filter.mpr ⟨hx,by simp [hactive]⟩ : x ∈ s.sessions.rows.filter (·.state == .active))
  have hsome : s.activeSession = some y := hy
  obtain ⟨hyrow,hystate⟩ := activeSession_some hsome
  rw [hsome,hs.oneOpen y hyrow x hx (by simp [isOpen,hystate]) (by simp [isOpen,hactive])]

theorem handoff_done (hs : s.Sound) (hread : Readable rt sourceId s) (hissue : ∀ i ∈ s.issues.rows, i.blocking = false)
    (hrunning : s.servedBy service.instanceId = true) (hx : x ∈ s.sessions.rows) (hactive : x.state = .active)
    (hcommands : ∃ c ∈ s.commands.rows, c.sessionId = x.sessionId)
    (hfinal : ∀ c ∈ s.commands.rows, c.sessionId = x.sessionId → c.state.isFinal = true)
    (hpublished : ∀ o ∈ s.around.outbox, o.sessionId = x.sessionId → o.state = .published)
    (hworkspace : ∃ u, s.ensurePreserve rt x.sessionId text = .ok u) (hnow : parseStrictUtcTimestamp rt text "now" = .ok now)
    (hnext : ∃ y ∈ s.sessions.rows, s.waits y = true ∧ ManifestValid rt s y.sessionId now) :
    ∃ around r, s.handoffReadySession rt service.instanceId text =
      .ok ({ s.withSessionState x.sessionId .completed with around := around },some r) := by
  obtain ⟨w,hw⟩ : ∃ w, s.handoffCandidate rt now = .ok (some w) := by
    obtain ⟨y,hy,hwaits,hvalid⟩ := hnext
    exact firstUnexpired_some hread ⟨y,(mem_insertionSort _).mpr (mem_filter.mpr ⟨hy,hwaits⟩),hvalid⟩
  have hreasons := blockingReasons_nil hissue hcommands hfinal hpublished
  obtain ⟨lifecycles,hkeep⟩ := ensurePreserve_ok (t := s.withSessionState x.sessionId .completed) (s := s) rfl hworkspace
  have hrefuse : refuseReasons [] = .ok () := rfl
  have hcompleted : s.finalizeActive rt x.sessionId text false =
      .ok { s.withSessionState x.sessionId .completed with
        around := { (s.withSessionState x.sessionId .completed).around with lifecycles := lifecycles } } := by
    unfold finalizeActive
    rw [hreasons,hrefuse,ok_bind,validateSessionTransition_ok.mpr (by simp [SessionState.transitions]),ok_bind]
    dsimp only
    rw [show (s.withSessionState x.sessionId .completing).blockingReasons x.sessionId false = [] from hreasons,hrefuse,ok_bind,
      validateSessionTransition_ok.mpr (by simp [SessionState.transitions]),ok_bind,withSessionState_twice]
    exact hkeep
  refine ⟨{ s.around with lifecycles := lifecycles },(x.sessionId,w.sessionId),?_⟩
  unfold handoffReadySession
  rw [require_of service.named,ok_bind,hnow,ok_bind,hrunning,(blocking_iff s).mpr hissue,activeSession_of hs hx hactive]
  simp only [Bool.not_true,Bool.false_eq_true,if_false]
  rw [hw,ok_bind]
  dsimp only
  rw [hreasons,if_neg (not_not.mpr rfl),hcompleted,ok_bind]
  rfl

end Journal

end Bdb.Bridge
