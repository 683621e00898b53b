import Bdb.Bridge.ServiceCycles

/-! # Progress of the command queue

Cycles at a suitable time claim a waiting command when the open session can be cleared: its
commands are decided, claimed and worked off one by one, and it is handed over. An active
session with a validated command and an expired manifest is a dead end.
-/
namespace Bdb.Bridge

open List Table

namespace Journal

variable {rt : BridgeRuntime} {service : Service} {now : DateTime} {s t u : Journal}

/-! ## Cycles -/

theorem withCommandState_twice (s : Journal) (commandId : String) (a b : CommandState) :
    (s.withCommandState commandId a).withCommandState commandId b = s.withCommandState commandId b := by
  have hrows : ∀ c : Command, (fun c : Command => if c.commandId = commandId then { c with state := b } else c)
      (if c.commandId = commandId then { c with state := a } else c) =
        if c.commandId = commandId then { c with state := b } else c := by
    intro c
    by_cases hc : c.commandId = commandId <;> simp [hc]
  simp only [withCommandState,Table.change,map_map,Function.comp_def,hrows]

theorem Quiet.pass (h : Quiet service s) (hst : Pass rt now s t) : Quiet service t where
  noIssue i hi := by
    cases hblocking : i.blocking with
    | false => rfl
    | true =>
      rw [h.noIssue i (hst.issues i hi hblocking)] at hblocking
      cases hblocking
  noWorker c hc := by
    cases hworking : c.state.isWorking with
    | false => rfl
    | true =>
      rw [h.noWorker c (hst.intake.started c hc hworking)] at hworking
      cases hworking
  noPending := hst.intake.around ▸ h.noPending
  running := by
    unfold servedBy
    rw [hst.intake.around]
    exact h.running

/-- The commands that stand between a session and its completion. -/
def unresolved (j : Journal) (sessionId : String) : Finset String :=
  ((j.commands.rows.filter fun c => c.sessionId == sessionId && !c.state.isFinal).map (·.commandId)).toFinset

theorem mem_unresolved {sessionId commandId : String} : commandId ∈ s.unresolved sessionId ↔
    ∃ c ∈ s.commands.rows, c.sessionId = sessionId ∧ c.state.isFinal = false ∧ c.commandId = commandId := by
  simp [unresolved,and_assoc]

theorem unresolved_pass (hst : Pass rt now s t) (sessionId : String) : t.unresolved sessionId ⊆ s.unresolved sessionId := by
  intro commandId h
  rw [mem_unresolved] at h ⊢
  obtain ⟨d,hd,hsession,hfinal,hid⟩ := h
  rcases hst.commands d hd with hd | ⟨-,c,hc,hcid,hcsession,-,hstate,-⟩
  · exact ⟨d,hd,hsession,hfinal,hid⟩
  · exact ⟨c,hc,hcsession.trans hsession,by rw [hstate]; rfl,hcid.trans hid⟩

/-- An open session that can be cleared, with another one waiting behind it. -/
structure Clearing (rt : BridgeRuntime) (service : Service) (text : String) (now : DateTime) (x : Session) (j : Journal) : Prop where
  sound : j.Sound
  readable : Readable rt service.sourceId j
  quiet : Quiet service j
  inLine : InLine rt j now
  row : x ∈ j.sessions.rows
  active : x.state = .active
  commands : ∃ c ∈ j.commands.rows, c.sessionId = x.sessionId
  published : ∀ o ∈ j.around.outbox, o.sessionId = x.sessionId → o.state = .published
  workspace : ∃ t, j.ensurePreserve rt x.sessionId text = .ok t

variable {text snapshotSha : String} {x : Session} {c : Command}

theorem Clearing.pass (h : Clearing rt service text now x s) (hst : Pass rt now s t)
    (hread : Readable rt service.sourceId t) : Clearing rt service text now x t where
  sound := hst.intake.keeps.sound h.sound
  readable := hread
  quiet := h.quiet.pass hst
  inLine := h.inLine.pass hst
  row := by
    rcases hst.intake.sessions x h.row with hx | ⟨hcreated,-⟩
    · exact hx
    · rw [h.active] at hcreated
      cases hcreated
  active := h.active
  commands := by
    obtain ⟨c,hc,hsession⟩ := h.commands
    rcases hst.intake.commands c hc with hc | ⟨-,d,hd,-,hdsession,-⟩
    · exact ⟨c,hc,hsession⟩
    · exact ⟨d,hd,hdsession.trans hsession⟩
  published := hst.intake.around ▸ h.published
  workspace := by
    obtain ⟨_,h⟩ := ensurePreserve_ok hst.intake.around h.workspace
    exact ⟨_,h⟩

theorem Served.rows (h : Served rt (s.withCommandState c.commandId .claimed) { c with state := .claimed } u) :
    ∃ final, final.isFinal = true ∧
      u.commands.rows = s.commands.rows.map fun d => if d.commandId = c.commandId then { d with state := final } else d := by
  obtain ⟨final,hfinal,-,hrows⟩ := h.command
  refine ⟨final,hfinal,?_⟩
  rw [hrows]
  exact congrArg (·.commands.rows) (withCommandState_twice s c.commandId .claimed final)

theorem not_working_of_final {state : CommandState} (h : state.isFinal = true) : state.isWorking = false := by
  cases state <;> first | rfl | cases h

theorem Clearing.served (h : Clearing rt service text now x s)
    (hsettled : ∀ d ∈ s.commands.rows, d.sessionId = x.sessionId → Settled rt s now d) (hc : c ∈ s.commands.rows)
    (hsession : c.sessionId = x.sessionId) (hstate : c.state = .validated)
    (hu : Served rt (s.withCommandState c.commandId .claimed) { c with state := .claimed } u) :
    Clearing rt service text now x u ∧ (∀ d ∈ u.commands.rows, d.sessionId = x.sessionId → Settled rt u now d) ∧
      u.unresolved x.sessionId ⊂ s.unresolved x.sessionId := by
  obtain ⟨final,hfinal,hrows⟩ := hu.rows
  have hsessions : u.sessions = s.sessions := hu.sessions
  have hmanifests : u.manifests = s.manifests := hu.manifests
  have hingestions : u.ingestions = s.ingestions := hu.ingestions
  -- a command of the new rows is the one worked off or an old one
  have hback : ∀ d ∈ u.commands.rows, d = { c with state := final } ∨ d ∈ s.commands.rows ∧ d.commandId ≠ c.commandId := by
    intro d hd
    rw [hrows] at hd
    obtain ⟨e,he,rfl⟩ := mem_map.mp hd
    by_cases hid : e.commandId = c.commandId
    · rw [if_pos hid,eq_of_key he hc hid]
      exact .inl rfl
    · rw [if_neg hid]
      exact .inr ⟨he,hid⟩
  have hforth : ∀ d ∈ s.commands.rows, d.commandId ≠ c.commandId → d ∈ u.commands.rows := by
    intro d hd hid
    rw [hrows]
    exact mem_map.mpr ⟨d,hd,if_neg hid⟩
  have hnew : { c with state := final } ∈ u.commands.rows := by
    rw [hrows]
    exact mem_map.mpr ⟨c,hc,if_pos rfl⟩
  have hplace : ∀ d ∈ s.commands.rows, ∃ e ∈ u.commands.rows, e.sessionId = d.sessionId ∧ e.sequence = d.sequence := by
    intro d hd
    by_cases hid : d.commandId = c.commandId
    · rw [eq_of_key hd hc hid]
      exact ⟨_,hnew,rfl,rfl⟩
    · exact ⟨d,hforth d hd hid,rfl,rfl⟩
  have hvalid : ∀ {sessionId : String}, ManifestValid rt s sessionId now → ManifestValid rt u sessionId now := by
    intro sessionId hm
    unfold ManifestValid
    rw [hmanifests]
    exact hm
  have hidle : ∀ d ∈ u.commands.rows, d.state.isWorking = false := by
    intro d hd
    rcases hback d hd with rfl | ⟨hd,-⟩
    · exact not_working_of_final hfinal
    · exact h.quiet.noWorker d hd
  have hplaced : u.Placed := by
    refine h.sound.placed.map (f := fun d => if d.commandId = c.commandId then { d with state := final } else d) ?_ hrows
    intro d
    dsimp only
    split <;> exact ⟨rfl,rfl,rfl⟩
  have hwaiting : ∀ {d : Command}, Waiting rt s now d → d.sequence = 1 → Waiting rt u now d := by
    intro d hd hone
    obtain ⟨⟨hmem,hdstate⟩,⟨y,hy,hyid,hcreated⟩,hmanifest,hdocument,-⟩ := hd
    have hid : d.commandId ≠ c.commandId := by
      intro hid
      obtain rfl : d = c := eq_of_key hmem hc hid
      obtain rfl : y = x := eq_of_key hy h.row (hyid.trans hsession)
      rw [h.active] at hcreated
      cases hcreated
    refine ⟨⟨hforth d hmem hid,hdstate⟩,⟨y,hsessions ▸ hy,hyid,hcreated⟩,hvalid hmanifest,?_,fun k hpos hlt => by omega⟩
    unfold DocumentValid
    rw [hingestions]
    exact hdocument
  refine ⟨⟨⟨hplaced,?_,?_⟩,⟨?_,?_,?_⟩,⟨?_,hidle,?_,?_⟩,?_,?_,h.active,?_,?_,?_⟩,?_,?_⟩
  · intro d hd e he hdw
    rw [hidle d hd] at hdw
    cases hdw
  · rw [hsessions]
    exact h.sound.oneOpen
  · rw [hmanifests]
    exact h.readable.manifests
  · rw [hsessions]
    intro d hd
    rcases hback d hd with rfl | ⟨hd,-⟩
    · exact h.readable.sessions c hc
    · exact h.readable.sessions d hd
  · rw [hingestions]
    intro d hd hdiscovered
    rcases hback d hd with rfl | ⟨hd,-⟩
    · cases hdiscovered
      cases hfinal
    · exact h.readable.documents d hd hdiscovered
  · rw [hu.issues]
    exact h.quiet.noIssue
  · intro o ho
    rcases hu.outbox o ho with ho | hpublished
    · exact h.quiet.noPending o ho
    · rw [hpublished]
      nofun
  · unfold servedBy
    rw [hu.services]
    exact h.quiet.running
  · obtain ⟨d,y,hd,hone,hy,hyid,hahead⟩ := h.inLine
    refine ⟨d,y,hwaiting hd hone,hone,hsessions ▸ hy,hyid,?_⟩
    rw [hsessions]
    intro e he heone hestate z hz hzid hcreated hle hfuture
    rcases hback e he with rfl | ⟨he,-⟩
    · cases hestate
      cases hfinal
    · refine hwaiting (hahead e he heone hestate z hz hzid hcreated hle fun hpast => hfuture ?_) heone
      unfold ManifestPast
      rw [hmanifests]
      exact hpast
  · rw [hsessions]
    exact h.row
  · exact ⟨_,hnew,hsession⟩
  · intro o ho hosession
    rcases hu.outbox o ho with ho | hpublished
    · exact h.published o ho hosession
    · exact hpublished
  · have hkept := hu.workspace text
    rw [show ({ c with state := .claimed } : Command).sessionId = x.sessionId from hsession] at hkept
    obtain ⟨_,hw⟩ := ensurePreserve_ok (t := s.withCommandState c.commandId .claimed) (s := s) rfl h.workspace
    exact hkept ⟨_,hw⟩
  · intro d hd hdsession
    rcases hback d hd with rfl | ⟨hd,-⟩
    · exact .inl hfinal
    · rcases hsettled d hd hdsession with hdfinal | ⟨hm,hdstate,hpresent⟩
      · exact .inl hdfinal
      · refine .inr ⟨hvalid hm,hdstate,fun k hpos hlt => ?_⟩
        obtain ⟨p,hp,hpsession,hpsequence,-⟩ := hpresent k hpos hlt
        obtain ⟨q,hq,hqsession,hqsequence⟩ := hplace p hp
        exact ⟨q,hq,hqsession.trans hpsession,hqsequence.trans hpsequence,trivial⟩
  · refine Finset.ssubset_iff_subset_ne.mpr ⟨?_,fun heq => ?_⟩
    · intro commandId hmem
      rw [mem_unresolved] at hmem ⊢
      obtain ⟨d,hd,hdsession,hdfinal,hid⟩ := hmem
      rcases hback d hd with rfl | ⟨hd,-⟩
      · rw [hfinal] at hdfinal
        cases hdfinal
      · exact ⟨d,hd,hdsession,hdfinal,hid⟩
    · have hmem : c.commandId ∈ s.unresolved x.sessionId := mem_unresolved.mpr ⟨c,hc,hsession,by rw [hstate]; rfl,rfl⟩
      rw [← heq,mem_unresolved] at hmem
      obtain ⟨d,hd,-,hdfinal,hid⟩ := hmem
      rcases hback d hd with rfl | ⟨-,hne⟩
      · rw [hfinal] at hdfinal
        cases hdfinal
      · exact hne hid

/-! ## Progress -/

theorem serviceCycle_nothingNew (snapshotSha : String) (hnow : parseStrictUtcTimestamp rt text "now" = .ok now)
    (h : s.validateAt rt service.sourceId now = (t,.ok ())) :
    s.polled rt service ⟨nothingNew snapshotSha,text⟩ = t ∧
      s.serviceCycle rt service ⟨nothingNew snapshotSha,text⟩ = t.claimNext rt service.instanceId text := by
  unfold polled serviceCycle
  rw [pollOnce_nothingNew hnow,h]
  exact ⟨rfl,rfl⟩

theorem claimNext_claimed {instanceId : String} (h : s.claimNextCommand rt text = .ok (t,some c)) :
    s.claimNext rt instanceId text = (t,.ok (some c)) := by
  unfold claimNext
  rw [h]

theorem comes_of_closed {start : DateTime} (hnow : parseStrictUtcTimestamp rt text "now" = .ok now)
    (hstart : start ≤ now) (hs : s.Sound) (hread : Readable rt service.sourceId s) (hquiet : Quiet service s) (hline : InLine rt s now)
    (hclosed : ∀ x ∈ s.sessions.rows, isOpen x = false) :
    Comes rt service (· = nothingNew snapshotSha) (ClaimsWaiting rt service) start s := by
  obtain ⟨t,hpoll,hpass,-,hfresh,-⟩ := validateAt_done now hs.placed hread
  obtain ⟨hpolled,hcycle⟩ := serviceCycle_nothingNew snapshotSha hnow hpoll
  have hquiet' := hquiet.pass hpass
  have hclosed' : ∀ x ∈ t.sessions.rows, isOpen x = false := by
    intro x hx
    cases hopen : isOpen x with
    | false => rfl
    | true =>
      rw [hclosed x (hpass.intake.opened x hx hopen)] at hopen
      cases hopen
  obtain ⟨d,u,hwaiting,hclaimed⟩ := (hline.pass hpass).claimed (hpass.intake.keeps.sound hs) hquiet'.noIssue hquiet'.noWorker
    hclosed' hfresh hnow
  refine .reached ⟨nothingNew snapshotSha,text⟩ rfl hnow hstart ⟨d,?_,?_⟩
  · rw [hpolled]
    exact hwaiting
  · unfold claimedIn
    rw [hcycle,claimNext_claimed hclaimed]

theorem Clearing.hands_over (h : Clearing rt service text now x s)
    (hfresh : ∀ sessionId, Fresh rt now sessionId s) (hnow : parseStrictUtcTimestamp rt text "now" = .ok now)
    (hfinal : ∀ c ∈ s.commands.rows, c.sessionId = x.sessionId → c.state.isFinal = true) :
    ∃ d u, Waiting rt s now d ∧ s.claimNext rt service.instanceId text = (u,.ok (some { d with state := .claimed })) := by
  have hopen : isOpen x = true := by
    unfold isOpen
    rw [h.active]
    rfl
  have hnone : s.claimNextCommand rt text = .ok (s,none) := by
    refine claims_none_of_final h.sound h.readable h.quiet.noIssue h.quiet.noWorker h.row hopen (fun c hc hsession hstate => ?_) hnow
    have hf := hfinal c hc hsession
    rw [hstate] at hf
    cases hf
  have hnext : ∃ y ∈ s.sessions.rows, s.waits y = true ∧ ManifestValid rt s y.sessionId now := by
    obtain ⟨c,y,hc,hone,hy,hyid,-⟩ := h.inLine
    obtain ⟨z,hz,hzid,hcreated⟩ := hc.created
    obtain rfl : z = y := eq_of_key hz hy (hzid.trans hyid.symm)
    refine ⟨z,hz,?_,hyid ▸ hc.manifest⟩
    unfold waits
    rw [Bool.and_eq_true,any_eq_true]
    exact ⟨by simp [hcreated],c,hc.validated.1,by simp [hyid,hone,hc.validated.2]⟩
  obtain ⟨around,r,hhandoff⟩ := handoff_done h.sound h.readable h.quiet.noIssue h.quiet.running h.row h.active h.commands hfinal
    h.published h.workspace hnow hnext
  -- after the hand-off no session is open and the waiting ones are as they were
  have hback : ∀ y ∈ (s.withSessionState x.sessionId .completed).sessions.rows, y.state = .created ∨ isOpen y = true →
      y ∈ s.sessions.rows ∧ y.sessionId ≠ x.sessionId := by
    intro y hy hstate
    obtain ⟨z,hz,rfl⟩ := mem_map.mp hy
    split at hstate
    · rcases hstate with hstate | hstate <;> cases hstate
    · rename_i hid
      rw [if_neg hid]
      exact ⟨hz,hid⟩
  have hforth : ∀ y ∈ s.sessions.rows, y.state = .created → y ∈ (s.withSessionState x.sessionId .completed).sessions.rows := by
    intro y hy hcreated
    refine mem_map.mpr ⟨y,hy,if_neg fun hid => ?_⟩
    rw [eq_of_key hy h.row hid,h.active] at hcreated
    cases hcreated
  obtain ⟨t,ht⟩ : ∃ t : Journal, t = { s.withSessionState x.sessionId .completed with around := around } := ⟨_,rfl⟩
  have hwaiting : ∀ d, Waiting rt s now d ↔ Waiting rt t now d := by
    intro d
    rw [ht]
    constructor
    · rintro ⟨hd,⟨y,hy,hyid,hcreated⟩,hmanifest,hdocument,hbefore⟩
      exact ⟨hd,⟨y,hforth y hy hcreated,hyid,hcreated⟩,hmanifest,hdocument,hbefore⟩
    · rintro ⟨hd,⟨y,hy,hyid,hcreated⟩,hmanifest,hdocument,hbefore⟩
      exact ⟨hd,⟨y,(hback y hy (.inl hcreated)).1,hyid,hcreated⟩,hmanifest,hdocument,hbefore⟩
  have hline : InLine rt t now := by
    obtain ⟨c,y,hc,hone,hy,hyid,hahead⟩ := h.inLine
    obtain ⟨z,hz,hzid,hcreated⟩ := hc.created
    obtain rfl : z = y := eq_of_key hz hy (hzid.trans hyid.symm)
    refine ⟨c,z,(hwaiting c).mp hc,hone,ht ▸ hforth z hz hcreated,hzid,?_⟩
    intro d hd hdone hstate w hw hwid hwcreated hle hfuture
    rw [ht] at hd hw hfuture
    exact (hwaiting d).mp (hahead d hd hdone hstate w (hback w hw (.inl hwcreated)).1 hwid hwcreated hle hfuture)
  have hsound : t.Sound := by
    have hcompleted := (Keeps.complete h.row h.active).sound h.sound
    rw [ht]
    exact ⟨⟨hcompleted.placed.positive,hcompleted.placed.unique⟩,hcompleted.oneWorker,hcompleted.oneOpen⟩
  have hclosed : ∀ y ∈ t.sessions.rows, isOpen y = false := by
    intro y hy
    rw [ht] at hy
    cases hyopen : isOpen y with
    | false => rfl
    | true =>
      obtain ⟨hyrow,hid⟩ := hback y hy (.inr hyopen)
      exact absurd (congrArg Session.sessionId (h.sound.oneOpen y hyrow x h.row hyopen hopen)) hid
  have hfresh' : ∀ sessionId, Fresh rt now sessionId t := by
    intro sessionId y hy hid hcreated
    rw [ht] at hy ⊢
    exact hfresh sessionId y (hback y hy (.inl hcreated)).1 hid hcreated
  obtain ⟨d,u,hd,hclaimed⟩ := hline.claimed hsound (ht ▸ h.quiet.noIssue) (ht ▸ h.quiet.noWorker) hclosed hfresh' hnow
  refine ⟨d,u,(hwaiting d).mpr hd,?_⟩
  unfold claimNext
  rw [hnone]
  dsimp only
  rw [hhandoff]
  dsimp only
  rw [← ht,hclaimed]

theorem published_of_claimed : CommandState.claimed.Leads .resultPublished := by
  refine Relation.ReflTransGen.head (b := .executing) (by simp [CommandState.transitions]) ?_
  refine Relation.ReflTransGen.head (b := .resultStaged) (by simp [CommandState.transitions]) ?_
  exact .single (by simp [CommandState.transitions])

theorem Clearing.comes (hnow : parseStrictUtcTimestamp rt text "now" = .ok now) (n : ℕ) :
    ∀ s : Journal, (s.unresolved x.sessionId).card = n → Clearing rt service text now x s →
      (∀ c ∈ s.commands.rows, c.sessionId = x.sessionId → Resolves rt service s now c) → ∀ start ≤ now,
        Comes rt service (· = nothingNew snapshotSha) (ClaimsWaiting rt service) start s := by
  induction n using Nat.strong_induction_on with
  | _ n ih =>
    intro s hcard h hresolves start hstart
    obtain ⟨t,hpoll,hpass,hread,hfresh,hgone⟩ := validateAt_done now h.sound.placed h.readable
    obtain ⟨hpolled,hcycle⟩ := serviceCycle_nothingNew snapshotSha hnow hpoll
    have ht := h.pass hpass hread
    have hsettled := Resolves.settled hpass hgone hresolves
    by_cases hmore : ∃ c ∈ t.commands.rows, c.sessionId = x.sessionId ∧ c.state = .validated
    · obtain ⟨c,hc,hsession,hstate,hclaimed⟩ := claimed_of_settled ht.sound ht.quiet.noIssue ht.quiet.noWorker ht.row ht.active
        hsettled hmore hnow
      have hstep : s.serviceCycle rt service ⟨nothingNew snapshotSha,text⟩ =
          (t.withCommandState c.commandId .claimed,.ok (some { c with state := .claimed })) := by
        rw [hcycle,claimNext_claimed hclaimed]
      refine .worked ⟨nothingNew snapshotSha,text⟩ { c with state := .claimed } rfl hnow hstart ?_ ?_ ?_
      · unfold claimedIn
        rw [hstep]
      · rw [hstep]
        refine ⟨(t.withCommandState c.commandId .claimed).withCommandState c.commandId .resultPublished,?_⟩
        refine ⟨⟨.resultPublished,rfl,published_of_claimed,rfl⟩,rfl,rfl,rfl,rfl,rfl,fun _ ho => .inl ho,fun _ hw => ?_⟩
        obtain ⟨_,hw⟩ := ensurePreserve_ok
          (t := (t.withCommandState c.commandId .claimed).withCommandState c.commandId .resultPublished)
          (s := t.withCommandState c.commandId .claimed) rfl hw
        exact ⟨_,hw⟩
      · rw [hstep]
        intro u hu
        obtain ⟨hclearing,hsettledu,hlt⟩ := ht.served hsettled hc hsession hstate hu
        have hless : (u.unresolved x.sessionId).card < n := by
          rw [← hcard]
          exact Finset.card_lt_card (Finset.ssubset_of_ssubset_of_subset hlt (unresolved_pass hpass x.sessionId))
        exact ih _ hless u rfl hclearing (fun d hd hdsession => (hsettledu d hd hdsession).resolves) now le_rfl
    · have hfinal : ∀ c ∈ t.commands.rows, c.sessionId = x.sessionId → c.state.isFinal = true := by
        intro c hc hsession
        rcases hsettled c hc hsession with hfinal | ⟨-,hstate,-⟩
        · exact hfinal
        · exact absurd ⟨c,hc,hsession,hstate⟩ hmore
      obtain ⟨d,u,hwaiting,hclaimed⟩ := ht.hands_over hfresh hnow hfinal
      refine .reached ⟨nothingNew snapshotSha,text⟩ rfl hnow hstart ⟨d,hpolled ▸ hwaiting,?_⟩
      unfold claimedIn
      rw [hcycle,hclaimed]

theorem Keeps.claimNext (s : Journal) (instanceId text : String) : s.Keeps (s.claimNext rt instanceId text).1 := by
  unfold Journal.claimNext
  cases hfirst : s.claimNextCommand rt text with
  | error e => exact .refl s
  | ok r =>
    obtain ⟨t,_ | c⟩ := r
    · have hst := Keeps.claimNextCommand hfirst
      dsimp only
      cases hhandoff : t.handoffReadySession rt instanceId text with
      | error e => exact hst
      | ok r =>
        obtain ⟨u,_ | p⟩ := r
        · exact hst.trans (.handoffReadySession hhandoff)
        · have hsu := hst.trans (.handoffReadySession hhandoff)
          dsimp only
          cases hlast : u.claimNextCommand rt text with
          | error e => exact hsu
          | ok r => exact hsu.trans (.claimNextCommand hlast)
    · exact .claimNextCommand hfirst

theorem comes_of_ended {start : DateTime} (hnow : parseStrictUtcTimestamp rt text "now" = .ok now)
    (hstart : start ≤ now) (hs : s.Placed) (hread : Readable rt service.sourceId s) (hc : c ∈ s.commands.rows)
    (hstate : c.state = .discovered) (hended : Ended rt service.sourceId s now c) :
    Comes rt service (· = nothingNew snapshotSha) (LeavesState rt service c.commandId) start s := by
  obtain ⟨t,hpoll,hpass,-,-,hgone⟩ := validateAt_done now hs hread
  obtain ⟨-,hcycle⟩ := serviceCycle_nothingNew snapshotSha hnow hpoll
  refine .reached ⟨nothingNew snapshotSha,text⟩ rfl hnow hstart fun d hd hid => ?_
  rw [hcycle] at hd
  obtain ⟨e,he,heid⟩ : ∃ e ∈ t.commands.rows, e.commandId = c.commandId := by
    rcases hpass.intake.commands c hc with hc | ⟨-,e,he,heid,-⟩
    · exact ⟨c,hc,rfl⟩
    · exact ⟨e,he,heid⟩
  have hleft := hpass.left_of_ended hc hended (hgone c hc hstate hended.decided) e he heid hstate
  obtain ⟨d',hd',hid',-,-,hlead⟩ := (Keeps.claimNext t service.instanceId text).follows.commands e he
  rw [eq_of_key hd hd' (hid.trans (heid.symm.trans hid'.symm))]
  exact CommandState.leads_left hleft hlead

end Journal

namespace Journal

/-- An active session keeps a validated command past the expiry of its manifest. -/
structure Wedged (rt : BridgeRuntime) (now : DateTime) (j : Journal) : Prop where
  sound : j.Sound
  session : ∃ x ∈ j.sessions.rows, x.state = .active ∧ ManifestPast rt j x.sessionId now ∧
    ∃ c ∈ j.commands.rows, c.sessionId = x.sessionId ∧ c.state = .validated

theorem ManifestPast.later {sessionId : String} {later : DateTime} (h : ManifestPast rt s sessionId now) (hle : now ≤ later)
    (hkept : ∀ m ∈ s.manifests.rows, m ∈ t.manifests.rows) : ManifestPast rt t sessionId later := by
  obtain ⟨m,hm,hid,expiry,hexpiry,hpast⟩ := h
  exact ⟨m,hkept m hm,hid,expiry,hexpiry,hpast.trans hle⟩

theorem Wedged.intake {later : DateTime} (h : Wedged rt now s) (hle : now ≤ later) (hst : s.Intake t) : Wedged rt later t := by
  obtain ⟨hs,x,hx,hactive,hpast,c,hc,hsession,hstate⟩ := h
  refine ⟨hst.keeps.sound hs,x,?_,hactive,hpast.later hle hst.manifests,c,?_,hsession,hstate⟩
  · rcases hst.sessions x hx with hx | ⟨hcreated,-⟩
    · exact hx
    · rw [hactive] at hcreated
      cases hcreated
  · rcases hst.commands c hc with hc | ⟨hdiscovered,-⟩
    · exact hc
    · rw [hstate] at hdiscovered
      cases hdiscovered

theorem Wedged.claimNext (h : Wedged rt now s) (instanceId : String) {text : String} (hnow : parseStrictUtcTimestamp rt text "now" = .ok now) :
    (s.claimNext rt instanceId text).1 = s ∧ ∀ c, (s.claimNext rt instanceId text).2 ≠ .ok (some c) := by
  obtain ⟨hs,x,hx,hactive,⟨m,hm,hid,expiry,hexpiry,hpast⟩,c,hc,hsession,hstate⟩ := h
  have hopen : isOpen x = true := by
    unfold isOpen
    rw [hactive]
    rfl
  have hfirst : ∀ {u r}, s.claimNextCommand rt text = .ok (u,r) → u = s ∧ r = none := by
    intro u r hclaim
    rcases claimNextCommand_cases hclaim with ⟨hu,hr⟩ | ⟨nowDt,target,d,hnow',hof,-⟩
    · exact ⟨hu,hr⟩
    · cases Except.ok.inj (hnow.symm.trans hnow')
      obtain ⟨htarget,hopen' | ⟨hnone,-⟩⟩ := target_cases hof.chosen
      · obtain rfl := hs.oneOpen target htarget x hx hopen' hopen
        have hmanifest := hof.manifest
        unfold manifestExpired at hmanifest
        rw [get_eq_some.mpr ⟨hm,hid⟩] at hmanifest
        dsimp only at hmanifest
        rw [isExpired_of hexpiry,decide_eq_true hpast] at hmanifest
        cases hmanifest
      · rw [(openSession_none_iff s).mp hnone x hx] at hopen
        cases hopen
  have hsecond : ∀ {u r}, s.handoffReadySession rt instanceId text = .ok (u,r) → u = s ∧ r = none := by
    intro u r hhandoff
    rcases handoffReadySession_cases hhandoff with ⟨hu,hr⟩ | ⟨y,hy,hfinal⟩
    · exact ⟨hu,hr⟩
    · obtain rfl : y = x := some_unique hy (activeSession_of hs hx hactive)
      unfold finalizeActive refuseReasons at hfinal
      obtain ⟨_,hrefuse,-⟩ := bind_ok.mp hfinal
      obtain ⟨_,hrefuse⟩ := rest_ok hrefuse
      have hnil := require_ok.mp hrefuse
      have hunresolved : ((s.commandsOf y.sessionId).any fun c => !c.state.isFinal) = true :=
        any_eq_true.mpr ⟨c,mem_filter.mpr ⟨hc,by simp [hsession]⟩,by rw [hstate]; rfl⟩
      have hmem : BlockingReason.unresolvedCommands ∈ s.blockingReasons y.sessionId false := by
        unfold blockingReasons
        dsimp only
        rw [hunresolved]
        simp
      rw [hnil] at hmem
      cases hmem
  unfold Journal.claimNext
  cases hclaim : s.claimNextCommand rt text with
  | error e => exact ⟨rfl,nofun⟩
  | ok r =>
    obtain ⟨u,r⟩ := r
    obtain ⟨rfl,rfl⟩ := hfirst hclaim
    dsimp only
    cases hhandoff : u.handoffReadySession rt instanceId text with
    | error e => exact ⟨rfl,nofun⟩
    | ok r =>
      obtain ⟨v,r⟩ := r
      obtain ⟨rfl,rfl⟩ := hsecond hhandoff
      exact ⟨rfl,nofun⟩

theorem Wedged.cycle {later : DateTime} (h : Wedged rt now s) (hle : now ≤ later) {cycle : Cycle}
    (hlater : parseStrictUtcTimestamp rt cycle.now "now" = .ok later) :
    s.claimedIn rt service cycle = none ∧ Wedged rt later (s.serviceCycle rt service cycle).1 := by
  have hpolled := h.intake hle (Intake.pollOnce rt service.sourceId cycle.fetched cycle.now s)
  unfold claimedIn serviceCycle
  cases hpoll : s.pollOnce rt service.sourceId cycle.fetched cycle.now with
  | mk t o =>
    rw [hpoll] at hpolled
    cases o with
    | error e => exact ⟨rfl,hpolled⟩
    | ok =>
      obtain ⟨hsame,hnone⟩ := hpolled.claimNext service.instanceId hlater
      dsimp only
      rw [hsame]
      refine ⟨?_,hpolled⟩
      cases hr : (t.claimNext rt service.instanceId cycle.now).2 with
      | error e => rfl
      | ok r =>
        cases r with
        | none => rfl
        | some c => exact absurd hr (hnone c)

theorem Wedged.never_claims {fetches : Option CommandSnapshot → Prop} {start : DateTime} {j : Journal}
    (hcomes : Comes rt service fetches (ClaimsWaiting rt service) start j) : ¬ Wedged rt start j := by
  induction hcomes with
  | reached cycle _ hnow hle hgoal =>
    intro h
    obtain ⟨c,-,hclaimed⟩ := hgoal
    rw [(h.cycle hle hnow).1] at hclaimed
    cases hclaimed
  | idle cycle _ hnow hle _ _ ih => exact fun h => ih (h.cycle hle hnow).2
  | worked cycle c _ hnow hle hclaimed _ _ =>
    intro h
    rw [(h.cycle hle hnow).1] at hclaimed
    cases hclaimed

end Journal

/-! ## Two sessions -/

def sampleNextSession : String := "01ARZ3NDEKTSV4RRFFQ69G5FAW"

def busyReader : BridgeRuntime :=
  readerOf [sampleEntry sampleSession 1 (minute "09"),sampleEntry sampleSession 2 (minute "09"),
    sampleEntry sampleNextSession 1 (minute "40")]

def sampleService : Service := ⟨"commands","service",by decide⟩

def sampleSurroundings : Surroundings where
  outbox := []
  services := [⟨"service",.running,minute "00"⟩]
  workspaces := ⟨[⟨sampleSession,"workspace","base",1,"hash"⟩],nodup_singleton _⟩
  lifecycles := ⟨[⟨sampleSession,"workspace","base",1,"hash",true,.preserved⟩],nodup_singleton _⟩

/-- The first session is active with its first command denied and its second one validated;
its manifest expires at minute ten. The second session waits with its first command. -/
def busyCalls : List QueueCall :=
  [.recordSessionManifest (sampleManifest sampleSession (minute "10")) (minute "01"),
    .recordIngestedCommand (sampleDocument sampleSession 1 (minute "09")),
    .recordIngestedCommand (sampleDocument sampleSession 2 (minute "09")),
    .validateCommand (commandIdFor sampleSession 1) (sampleValidation sampleSession 1 (minute "09")),
    .validateCommand (commandIdFor sampleSession 2) (sampleValidation sampleSession 2 (minute "09")),
    .claimNextCommand (minute "02"),
    .transitionCommand (commandIdFor sampleSession 1) .claimed .policyDenied,
    .recordSessionManifest (sampleManifest sampleNextSession (minute "50")) (minute "03"),
    .recordIngestedCommand (sampleDocument sampleNextSession 1 (minute "40")),
    .validateCommand (commandIdFor sampleNextSession 1) (sampleValidation sampleNextSession 1 (minute "40")),
    .elsewhere sampleSurroundings]

def takenIn (j : Journal) (sessionId : String) (sequence : ℕ) (expiresAt : String) : Journal :=
  j.settle (j.recordDecodedCommand busyReader (sampleDocument sessionId sequence expiresAt)
    (some (sampleEntry sessionId sequence expiresAt).1))

theorem next_takenIn (j : Journal) (sessionId : String) (sequence : ℕ) (expiresAt : String) :
    j.next busyReader (.recordIngestedCommand (sampleDocument sessionId sequence expiresAt)) =
      takenIn j sessionId sequence expiresAt :=
  Journal.next_ingested (decodeUtf8_encodeUtf8 _)

def busyJournal : Journal :=
  let first := takenIn (takenIn
    (Journal.empty.next busyReader (.recordSessionManifest (sampleManifest sampleSession (minute "10")) (minute "01")))
    sampleSession 1 (minute "09")) sampleSession 2 (minute "09")
  let second := takenIn (first.after busyReader ((busyCalls.drop 3).take 5)) sampleNextSession 1 (minute "40")
  second.after busyReader (busyCalls.drop 9)

theorem busyCalls_after : journalAfter busyReader busyCalls = busyJournal := by
  unfold journalAfter busyJournal busyCalls Journal.after
  simp only [foldl_cons,foldl_nil,drop_succ_cons,drop_zero,take_succ_cons,take_zero,next_takenIn]

/-- The rows that decide about claims. -/
structure BusyRows (j : Journal) : Prop where
  sessions : j.sessions.rows.map (fun x => (x.sessionId,x.state)) = [(sampleSession,.active),(sampleNextSession,.created)]
  commands : j.commands.rows.map (fun c => (c.commandId,c.sessionId,c.sequence,c.state)) =
    [(commandIdFor sampleSession 1,sampleSession,1,.policyDenied),(commandIdFor sampleSession 2,sampleSession,2,.validated),
      (commandIdFor sampleNextSession 1,sampleNextSession,1,.validated)]
  manifests : j.manifests.rows.map (fun m => (m.sessionId,m.expiresAt)) =
    [(sampleSession,minute "10"),(sampleNextSession,minute "50")]
  ingestions : (commandIdFor sampleNextSession 1,some (minute "40")) ∈ j.ingestions.rows.map fun i => (i.commandId,i.expiresAt)
  issues : j.issues.rows.isEmpty = true
  around : j.around = sampleSurroundings

theorem busyRows : BusyRows (journalAfter busyReader busyCalls) := by
  have hrows : (busyJournal.sessions.rows.map (fun x => (x.sessionId,x.state)) = [(sampleSession,.active),(sampleNextSession,.created)]) ∧
      (busyJournal.commands.rows.map (fun c => (c.commandId,c.sessionId,c.sequence,c.state)) =
        [(commandIdFor sampleSession 1,sampleSession,1,.policyDenied),(commandIdFor sampleSession 2,sampleSession,2,.validated),
          (commandIdFor sampleNextSession 1,sampleNextSession,1,.validated)]) ∧
      (busyJournal.manifests.rows.map (fun m => (m.sessionId,m.expiresAt)) =
        [(sampleSession,minute "10"),(sampleNextSession,minute "50")]) ∧
      ((commandIdFor sampleNextSession 1,some (minute "40")) ∈ busyJournal.ingestions.rows.map fun i => (i.commandId,i.expiresAt)) ∧
      busyJournal.issues.rows.isEmpty = true := by
    decide +kernel
  rw [busyCalls_after]
  exact ⟨hrows.1,hrows.2.1,hrows.2.2.1,hrows.2.2.2.1,hrows.2.2.2.2,rfl⟩

section

open Journal

theorem compared {rt : BridgeRuntime} {R : DateTime → DateTime → Bool} {a f b g : String} {y : DateTime}
    (h : ((parseStrictUtcTimestamp rt a f).toOption.any fun x => (parseStrictUtcTimestamp rt b g).toOption.any fun y => R x y) = true)
    (hy : parseStrictUtcTimestamp rt b g = .ok y) : ∃ x, parseStrictUtcTimestamp rt a f = .ok x ∧ R x y = true := by
  cases hx : parseStrictUtcTimestamp rt a f with
  | error e =>
    rw [hx] at h
    cases h
  | ok x =>
    rw [hx,hy] at h
    exact ⟨x,rfl,h⟩

variable {j : Journal} {now : DateTime}

theorem BusyRows.quiet (h : BusyRows j) : Quiet sampleService j := by
  have hissues : j.issues.rows = [] := isEmpty_iff.mp h.issues
  refine ⟨?_,?_,?_,?_⟩
  · rw [hissues]
    nofun
  · intro c hc
    have hmem := mem_map_of_mem (f := fun c : Command => (c.commandId,c.sessionId,c.sequence,c.state)) hc
    rw [h.commands] at hmem
    simp only [mem_cons,Prod.mk.injEq,not_mem_nil,or_false] at hmem
    rcases hmem with ⟨-,-,-,hstate⟩ | ⟨-,-,-,hstate⟩ | ⟨-,-,-,hstate⟩ <;> rw [hstate] <;> rfl
  · rw [h.around]
    nofun
  · unfold servedBy
    rw [h.around]
    decide

theorem BusyRows.manifestAt (h : BusyRows j) (sessionId text : String) (hmem : (sessionId,text) ∈
    [(sampleSession,minute "10"),(sampleNextSession,minute "50")]) :
    ∃ m ∈ j.manifests.rows, m.sessionId = sessionId ∧ m.expiresAt = text := by
  rw [← h.manifests] at hmem
  obtain ⟨m,hm,heq⟩ := mem_map.mp hmem
  exact ⟨m,hm,congrArg Prod.fst heq,congrArg Prod.snd heq⟩

theorem BusyRows.activeRow (h : BusyRows j) : ∃ x ∈ j.sessions.rows, x.sessionId = sampleSession ∧ x.state = .active := by
  have hmem : (sampleSession,SessionState.active) ∈ j.sessions.rows.map fun x => (x.sessionId,x.state) := by
    rw [h.sessions]
    exact mem_cons_self ..
  obtain ⟨x,hx,heq⟩ := mem_map.mp hmem
  exact ⟨x,hx,congrArg Prod.fst heq,congrArg Prod.snd heq⟩

theorem BusyRows.commandAt (h : BusyRows j) (row : String × String × ℕ × CommandState) (hmem : row ∈
    [(commandIdFor sampleSession 1,sampleSession,1,.policyDenied),(commandIdFor sampleSession 2,sampleSession,2,.validated),
      (commandIdFor sampleNextSession 1,sampleNextSession,1,.validated)]) :
    ∃ c ∈ j.commands.rows, c.commandId = row.1 ∧ c.sessionId = row.2.1 ∧ c.sequence = row.2.2.1 ∧ c.state = row.2.2.2 := by
  rw [← h.commands] at hmem
  obtain ⟨c,hc,rfl⟩ := mem_map.mp hmem
  exact ⟨c,hc,rfl,rfl,rfl,rfl⟩

theorem BusyRows.waiting (h : BusyRows j)
    (hdocument : ∃ e, parseStrictUtcTimestamp busyReader (minute "40") "expires_at" = .ok e ∧ now < e)
    (hmanifest : ∃ e, parseStrictUtcTimestamp busyReader (minute "50") "expires_at" = .ok e ∧ now < e) :
    ∃ c, Waiting busyReader j now c ∧ c.commandId = commandIdFor sampleNextSession 1 ∧ c.sessionId = sampleNextSession ∧
      c.sequence = 1 := by
  obtain ⟨c,hc,hid,hsession,hsequence,hstate⟩ := h.commandAt (commandIdFor sampleNextSession 1,sampleNextSession,1,.validated)
    (mem_cons_of_mem _ (mem_cons_of_mem _ (mem_cons_self ..)))
  have hmem : (sampleNextSession,SessionState.created) ∈ j.sessions.rows.map fun x => (x.sessionId,x.state) := by
    rw [h.sessions]
    exact mem_cons_of_mem _ (mem_cons_self ..)
  obtain ⟨x,hx,heq⟩ := mem_map.mp hmem
  obtain ⟨m,hm,hmid,hmtext⟩ := h.manifestAt sampleNextSession (minute "50")
    (mem_cons_of_mem _ (mem_cons_self ..))
  obtain ⟨i,hi,hieq⟩ := mem_map.mp h.ingestions
  obtain ⟨e,he,hlt⟩ := hdocument
  refine ⟨c,⟨⟨hc,hstate⟩,⟨x,hx,?_,congrArg Prod.snd heq⟩,⟨m,hm,hmid.trans hsession.symm,hmtext ▸ hmanifest⟩,
    ⟨i,hi,?_,minute "40",e,congrArg Prod.snd hieq,he,hlt⟩,?_⟩,hid,hsession,hsequence⟩
  · exact (congrArg Prod.fst heq).trans hsession.symm
  · exact (congrArg Prod.fst hieq).trans hid.symm
  · intro k hpos hlt
    have hone : c.sequence = 1 := hsequence
    omega

theorem BusyRows.commandCases (h : BusyRows j) {c : Command} (hc : c ∈ j.commands.rows) :
    c.commandId = commandIdFor sampleSession 1 ∧ c.sessionId = sampleSession ∧ c.sequence = 1 ∧ c.state = .policyDenied ∨
    c.commandId = commandIdFor sampleSession 2 ∧ c.sessionId = sampleSession ∧ c.sequence = 2 ∧ c.state = .validated ∨
    c.commandId = commandIdFor sampleNextSession 1 ∧ c.sessionId = sampleNextSession ∧ c.sequence = 1 ∧ c.state = .validated := by
  have hmem := mem_map_of_mem (f := fun c : Command => (c.commandId,c.sessionId,c.sequence,c.state)) hc
  rw [h.commands] at hmem
  simpa only [mem_cons,Prod.mk.injEq,not_mem_nil,or_false] using hmem

theorem BusyRows.sessionCases (h : BusyRows j) {x : Session} (hx : x ∈ j.sessions.rows) :
    x.sessionId = sampleSession ∧ x.state = .active ∨ x.sessionId = sampleNextSession ∧ x.state = .created := by
  have hmem := mem_map_of_mem (f := fun x : Session => (x.sessionId,x.state)) hx
  rw [h.sessions] at hmem
  simpa only [mem_cons,Prod.mk.injEq,not_mem_nil,or_false] using hmem

theorem BusyRows.readable (h : BusyRows j)
    (htimes : ∀ text ∈ [minute "10",minute "50"], ∃ e, parseStrictUtcTimestamp busyReader text "expires_at" = .ok e) :
    Readable busyReader sampleService.sourceId j := by
  refine ⟨?_,?_,?_⟩
  · intro m hm
    have hmem := mem_map_of_mem (f := fun m : SessionIngestion => (m.sessionId,m.expiresAt)) hm
    rw [h.manifests] at hmem
    simp only [mem_cons,Prod.mk.injEq,not_mem_nil,or_false] at hmem
    rcases hmem with ⟨-,htext⟩ | ⟨-,htext⟩ <;> rw [htext]
    · exact htimes _ (mem_cons_self ..)
    · exact htimes _ (mem_cons_of_mem _ (mem_cons_self ..))
  · intro c hc
    have hrow : ∀ row ∈ [(sampleSession,SessionState.active),(sampleNextSession,.created)],
        ∃ x ∈ j.sessions.rows, x.sessionId = row.1 := by
      intro row hmem
      rw [← h.sessions] at hmem
      obtain ⟨x,hx,rfl⟩ := mem_map.mp hmem
      exact ⟨x,hx,rfl⟩
    rcases h.commandCases hc with ⟨-,hsession,-⟩ | ⟨-,hsession,-⟩ | ⟨-,hsession,-⟩ <;> rw [hsession]
    · exact hrow _ (mem_cons_self ..)
    · exact hrow _ (mem_cons_self ..)
    · exact hrow _ (mem_cons_of_mem _ (mem_cons_self ..))
  · intro c hc hstate
    rcases h.commandCases hc with ⟨-,-,-,hstate'⟩ | ⟨-,-,-,hstate'⟩ | ⟨-,-,-,hstate'⟩ <;> rw [hstate'] at hstate <;> cases hstate

theorem BusyRows.clearable (h : BusyRows j) {x : Session} (hx : x ∈ j.sessions.rows) (hopen : isOpen x = true)
    (hmanifest : ∃ e, parseStrictUtcTimestamp busyReader (minute "10") "expires_at" = .ok e ∧ now < e) :
    Clearable busyReader sampleService j (minute "05") now x := by
  obtain ⟨hid,hactive⟩ : x.sessionId = sampleSession ∧ x.state = .active := by
    rcases h.sessionCases hx with hcase | ⟨-,hcreated⟩
    · exact hcase
    · unfold isOpen at hopen
      rw [hcreated] at hopen
      cases hopen
  obtain ⟨c,hc,-,hsession,hsequence,-⟩ := h.commandAt (commandIdFor sampleSession 1,sampleSession,1,.policyDenied)
    (mem_cons_self ..)
  obtain ⟨m,hm,hmid,hmtext⟩ := h.manifestAt sampleSession (minute "10") (mem_cons_self ..)
  refine ⟨hactive,⟨c,hc,hsession.trans hid.symm⟩,fun d hd hdsession => ?_,?_,?_⟩
  · rcases h.commandCases hd with ⟨-,-,-,hstate⟩ | ⟨-,hdsession',hdsequence,hstate⟩ | ⟨-,hdsession',-⟩
    · exact .inl (by rw [hstate]; rfl)
    · refine .inr ⟨⟨m,hm,hmid.trans hdsession'.symm,hmtext ▸ hmanifest⟩,.inl ⟨hstate,fun k hpos hlt => ?_⟩⟩
      have hone : c.sequence = 1 := hsequence
      exact ⟨c,hc,hsession.trans hdsession'.symm,by omega,trivial⟩
    · rw [hdsession,hid] at hdsession'
      exact absurd hdsession' (by decide)
  · rw [h.around]
    nofun
  · have hsome : (({ Journal.empty with around := sampleSurroundings } : Journal).ensurePreserve busyReader sampleSession
        (minute "05")).toOption.isSome = true := by decide +kernel
    obtain ⟨u,hu⟩ := Option.isSome_iff_exists.mp hsome
    obtain ⟨_,hkeep⟩ := ensurePreserve_ok (t := j) (s := { Journal.empty with around := sampleSurroundings }) h.around
      ⟨u,toOption_eq_some.mp hu⟩
    rw [hid]
    exact ⟨_,hkeep⟩

end

end Bdb.Bridge
