import Bdb.Bridge.QueueSafety

/-! # What a validation pass does

A pass aborts the sessions that were never activated and whose manifest has expired. Of the
discovered commands it refuses, expires or validates those it can decide; the others keep
waiting. What it validates has an unexpired document in an unexpired session.
-/
namespace Bdb.Bridge

open List Table

namespace Journal

variable (rt : BridgeRuntime) (sourceId : String)

/-! ## What can be decided -/

def ManifestValid (j : Journal) (sessionId : String) (now : DateTime) : Prop :=
  ∃ m ∈ j.manifests.rows, m.sessionId = sessionId ∧
    ∃ expiry, parseStrictUtcTimestamp rt m.expiresAt "expires_at" = .ok expiry ∧ now < expiry

def ManifestPast (j : Journal) (sessionId : String) (now : DateTime) : Prop :=
  ∃ m ∈ j.manifests.rows, m.sessionId = sessionId ∧
    ∃ expiry, parseStrictUtcTimestamp rt m.expiresAt "expires_at" = .ok expiry ∧ expiry ≤ now

def DocumentValid (j : Journal) (commandId : String) (now : DateTime) : Prop :=
  ∃ i ∈ j.ingestions.rows, i.commandId = commandId ∧ ∃ text expiry, i.expiresAt = some text ∧
    parseStrictUtcTimestamp rt text "expires_at" = .ok expiry ∧ now < expiry

def AllPresent (j : Journal) (c : Command) : Prop := j.AllBefore c fun _ => True

def DocumentOver (now : DateTime) (c : Command) (i : CommandIngestion) : Prop :=
  (∃ e, parseCommandEnvelope rt c.commandJson i.sourcePath = .error e) ∨
  ∃ parsed, parseCommandEnvelope rt c.commandJson i.sourcePath = .ok parsed ∧
    ∃ expiry, requireTimestamp rt parsed "expires_at" = .ok expiry ∧ expiry ≤ now

/-- A pass of this source takes the discovered command out of its state, given what it needs
to know of the document. -/
def Decides (j : Journal) (now : DateTime) (c : Command) (document : CommandIngestion → Prop) : Prop :=
  ∃ i ∈ j.ingestions.rows, i.commandId = c.commandId ∧ i.sourceId = sourceId ∧
    (ManifestPast rt j c.sessionId now ∧ (∃ x ∈ j.sessions.rows, x.sessionId = c.sessionId ∧
        (x.state = .created ∨ x.state = .aborted)) ∨
      ManifestValid rt j c.sessionId now ∧ document i)

/-- The command is rejected or expired. -/
def Ended (j : Journal) (now : DateTime) (c : Command) : Prop := Decides rt sourceId j now c (DocumentOver rt now c)

/-- The command is rejected, expired or validated. -/
def Decided (j : Journal) (now : DateTime) (c : Command) : Prop :=
  Decides rt sourceId j now c fun i => DocumentOver rt now c i ∨ j.AllPresent c

/-- A document whose refusal can be recorded. -/
structure ReadableRow (c : Command) (i : CommandIngestion) : Prop where
  sourceId : i.sourceId ≠ ""
  snapshotSha : i.snapshotSha.toList.length = 40 ∧ i.snapshotSha.toList.all isHex = true
  documentCommitSha : i.documentCommitSha.toList.length = 40 ∧ i.documentCommitSha.toList.all isHex = true
  sourcePath : i.sourcePath ≠ ""
  rawSha256 : validateSha64 rt "raw_sha256" i.rawSha256 = .ok ()
  refused : ∀ e, parseCommandEnvelope rt c.commandJson i.sourcePath = .error e → isBridgeError e = true

/-- No row makes a pass raise. -/
structure Readable (j : Journal) : Prop where
  manifests : ∀ m ∈ j.manifests.rows, ∃ expiry, parseStrictUtcTimestamp rt m.expiresAt "expires_at" = .ok expiry
  sessions : ∀ c ∈ j.commands.rows, ∃ x ∈ j.sessions.rows, x.sessionId = c.sessionId
  documents : ∀ c ∈ j.commands.rows, c.state = .discovered →
    ∃ i ∈ j.ingestions.rows, i.commandId = c.commandId ∧ (i.sourceId = sourceId → ReadableRow rt c i)

/-- What became of a command that was discovered. -/
def Validated (j : Journal) (now : DateTime) (d : Command) : Prop :=
  d.state = .rejected ∨ d.state = .expired ∨
    d.state = .validated ∧ j.AllPresent d ∧ ManifestValid rt j d.sessionId now ∧ DocumentValid rt j d.commandId now

/-! ## What a pass may change -/

structure Pass (now : DateTime) (s t : Journal) : Prop where
  intake : s.Intake t
  manifests : t.manifests = s.manifests
  issues : ∀ i ∈ t.issues.rows, i.blocking = true → i ∈ s.issues.rows
  sessions : ∀ x ∈ s.sessions.rows, x ∈ t.sessions.rows ∨ ManifestPast rt s x.sessionId now
  aborted : ∀ y ∈ t.sessions.rows, ∃ x ∈ s.sessions.rows, x.sessionId = y.sessionId ∧ (y = x ∨ x.state = .created ∧ y.state = .aborted)
  commands : ∀ d ∈ t.commands.rows, d ∈ s.commands.rows ∨ Validated rt t now d ∧
    ∃ c ∈ s.commands.rows, c.commandId = d.commandId ∧ c.sessionId = d.sessionId ∧ c.sequence = d.sequence ∧
      c.state = .discovered ∧
      (d.state = .validated → ∀ i ∈ s.ingestions.rows, i.commandId = c.commandId → ¬ DocumentOver rt now c i)
  ingestions : ∀ i ∈ s.ingestions.rows, i ∈ t.ingestions.rows ∨
    (∃ c ∈ s.commands.rows, c.commandId = i.commandId ∧ c.state = .discovered) ∧
      ∃ d ∈ t.commands.rows, d.commandId = i.commandId ∧ d.state ≠ .discovered

variable {rt sourceId} {now : DateTime} {s t u : Journal}

variable {c : Command} {new : CommandState} {x : Session} {sessionId : String}

theorem AllPresent.intake (h : s.AllPresent c) (hst : s.Intake t) : t.AllPresent c := by
  intro k hpos hlt
  obtain ⟨p,hp,hsession,hsequence,-⟩ := h k hpos hlt
  rcases hst.commands p hp with hp | ⟨-,q,hq,-,hqsession,hqsequence,-⟩
  · exact ⟨p,hp,hsession,hsequence,trivial⟩
  · exact ⟨q,hq,hqsession.trans hsession,hqsequence.trans hsequence,trivial⟩

variable {d : Command} {i : CommandIngestion} {commandId : String}

theorem Validated.not_discovered (h : Validated rt t now d) : d.state ≠ .discovered := by
  rcases h with h | h | ⟨h,-⟩ <;> rw [h] <;> nofun

theorem Pass.discovered (h : Pass rt now s t) (hd : d ∈ t.commands.rows) (hstate : d.state = .discovered) :
    d ∈ s.commands.rows := by
  rcases h.commands d hd with hd | ⟨hv,-⟩
  · exact hd
  · exact absurd hstate hv.not_discovered

theorem Pass.ingestion_kept (h : Pass rt now s t) (hd : d ∈ s.commands.rows) (hstate : d.state ≠ .discovered)
    (hi : i ∈ s.ingestions.rows) (hid : i.commandId = d.commandId) : i ∈ t.ingestions.rows := by
  rcases h.ingestions i hi with hi | ⟨⟨c,hc,hcid,hdiscovered⟩,-⟩
  · exact hi
  · rw [eq_of_key hc hd (hcid.trans hid)] at hdiscovered
    exact absurd hdiscovered hstate

theorem Pass.ingestion_waiting (h : Pass rt now s t) (hd : d ∈ t.commands.rows) (hstate : d.state = .discovered)
    (hi : i ∈ s.ingestions.rows) (hid : i.commandId = d.commandId) : i ∈ t.ingestions.rows := by
  rcases h.ingestions i hi with hi | ⟨-,c,hc,hcid,hleft⟩
  · exact hi
  · rw [eq_of_key hc hd (hcid.trans hid)] at hleft
    exact absurd hstate hleft

theorem Validated.pass (h : Validated rt t now d) (hd : d ∈ t.commands.rows) (htu : Pass rt now t u) :
    Validated rt u now d := by
  rcases h with h | h | ⟨hstate,hpresent,hmanifest,i,hi,hid,htext⟩
  · exact .inl h
  · exact .inr (.inl h)
  · refine .inr (.inr ⟨hstate,hpresent.intake htu.intake,?_,i,?_,hid,htext⟩)
    · unfold ManifestValid
      rw [htu.manifests]
      exact hmanifest
    · exact htu.ingestion_kept hd (by rw [hstate]; nofun) hi hid

theorem Pass.refl (now : DateTime) (s : Journal) : Pass rt now s s where
  intake := .refl s
  manifests := rfl
  issues _ hi _ := hi
  sessions _ hx := .inl hx
  aborted y hy := ⟨y,hy,rfl,.inl rfl⟩
  commands _ hd := .inl hd
  ingestions _ hi := .inl hi

theorem Pass.trans (h : Pass rt now s t) (h' : Pass rt now t u) : Pass rt now s u where
  intake := h.intake.trans h'.intake
  manifests := h'.manifests.trans h.manifests
  issues i hi hblocking := h.issues i (h'.issues i hi hblocking) hblocking
  sessions x hx := by
    rcases h.sessions x hx with hx | hpast
    · rcases h'.sessions x hx with hx | hpast
      · exact .inl hx
      · right
        unfold ManifestPast at hpast
        rw [h.manifests] at hpast
        exact hpast
    · exact .inr hpast
  aborted z hz := by
    obtain ⟨y,hy,hyid,hyz⟩ := h'.aborted z hz
    obtain ⟨x,hx,hxid,hxy⟩ := h.aborted y hy
    refine ⟨x,hx,hxid.trans hyid,?_⟩
    rcases hyz with rfl | ⟨hcreated,haborted⟩
    · exact hxy
    · rcases hxy with rfl | ⟨hcreated',haborted'⟩
      · exact .inr ⟨hcreated,haborted⟩
      · exact .inr ⟨hcreated',haborted⟩
  commands e he := by
    rcases h'.commands e he with hd | ⟨hv,d,hd,hid,hsession,hsequence,hstate,hdocument⟩
    · rcases h.commands e hd with hc | ⟨hv,hc⟩
      · exact .inl hc
      · exact .inr ⟨hv.pass hd h',hc⟩
    · refine .inr ⟨hv,d,h.discovered hd hstate,hid,hsession,hsequence,hstate,fun hvalidated i hi hiid => ?_⟩
      exact hdocument hvalidated i (h.ingestion_waiting hd hstate hi hiid) hiid
  ingestions i hi := by
    rcases h.ingestions i hi with hi | ⟨hc,d,hd,hid,hleft⟩
    · rcases h'.ingestions i hi with hi | ⟨⟨c,hc,hid,hstate⟩,hd⟩
      · exact .inl hi
      · exact .inr ⟨⟨c,h.discovered hc hstate,hid,hstate⟩,hd⟩
    · refine .inr ⟨hc,?_⟩
      rcases h'.intake.commands d hd with hd | ⟨hstate,-⟩
      · exact ⟨d,hd,hid,hleft⟩
      · exact absurd hstate hleft

theorem Readable.pass (h : Readable rt sourceId s) (hst : Pass rt now s t) : Readable rt sourceId t where
  manifests := hst.manifests ▸ h.manifests
  sessions d hd := by
    have hsession : ∃ x ∈ s.sessions.rows, x.sessionId = d.sessionId := by
      rcases hst.commands d hd with hd | ⟨-,c,hc,-,hsession,-⟩
      · exact h.sessions d hd
      · exact hsession ▸ h.sessions c hc
    obtain ⟨x,hx,hid⟩ := hsession
    rcases hst.intake.sessions x hx with hx | ⟨-,hx⟩
    · exact ⟨x,hx,hid⟩
    · exact ⟨_,hx,hid⟩
  documents d hd hstate := by
    obtain ⟨i,hi,hid,hreadable⟩ := h.documents d (hst.discovered hd hstate) hstate
    exact ⟨i,hst.ingestion_waiting hd hstate hi hid,hid,hreadable⟩

theorem Decides.pass {D E : CommandIngestion → Prop} (h : Decides rt sourceId s now c D) (hst : Pass rt now s t)
    (hc : c ∈ t.commands.rows) (hstate : c.state = .discovered) (himp : ∀ i, D i → E i) : Decides rt sourceId t now c E := by
  obtain ⟨i,hi,hid,hsource,hcase⟩ := h
  refine ⟨i,hst.ingestion_waiting hc hstate hi hid,hid,hsource,?_⟩
  unfold ManifestPast ManifestValid at hcase ⊢
  rw [hst.manifests]
  rcases hcase with ⟨hpast,x,hx,hxid,hxstate⟩ | ⟨hvalid,hdocument⟩
  · refine .inl ⟨hpast,?_⟩
    rcases hst.intake.sessions x hx with hx | ⟨-,hx⟩
    · exact ⟨x,hx,hxid,hxstate⟩
    · exact ⟨_,hx,hxid,.inr rfl⟩
  · exact .inr ⟨hvalid,himp i hdocument⟩

theorem Ended.decided (h : Ended rt sourceId s now c) : Decided rt sourceId s now c := by
  obtain ⟨i,hi,hid,hsource,hcase⟩ := h
  exact ⟨i,hi,hid,hsource,hcase.imp_right fun hvalid => ⟨hvalid.1,.inl hvalid.2⟩⟩

theorem Decided.pass (h : Decided rt sourceId s now c) (hst : Pass rt now s t) (hc : c ∈ t.commands.rows)
    (hstate : c.state = .discovered) : Decided rt sourceId t now c :=
  Decides.pass h hst hc hstate fun _ => Or.imp_right fun hpresent => hpresent.intake hst.intake

/-- No command of this name waits any longer. -/
def Gone (commandId : String) (j : Journal) : Prop := ∀ d ∈ j.commands.rows, d.commandId = commandId → d.state ≠ .discovered

theorem Gone.pass (h : Gone commandId s) (hst : Pass rt now s t) : Gone commandId t :=
  fun d hd hid hstate => h d (hst.discovered hd hstate) hid hstate

/-! ## Single calls -/

theorem Pass.of_change {f : Command → Command} (hsessions : t.sessions = s.sessions)
    (hrows : t.commands.rows = s.commands.rows.map f) (hmanifests : t.manifests = s.manifests) (haround : t.around = s.around)
    (hingestions : t.ingestions = s.ingestions) (hissues : ∀ i ∈ t.issues.rows, i.blocking = true → i ∈ s.issues.rows)
    (hplace : SamePlace f)
    (hf : ∀ c ∈ s.commands.rows, f c = c ∨ c.state = .discovered ∧ ((f c).state = .rejected ∨ (f c).state = .expired)) :
    Pass rt now s t where
  intake := by
    refine .of_change hsessions hrows hmanifests haround hplace fun c hc => ?_
    rcases hf c hc with hsame | ⟨hstate,hmove | hmove⟩
    · exact .inl hsame
    all_goals exact .inr ⟨hstate,by rw [hmove]; simp [CommandState.transitions]⟩
  manifests := hmanifests
  issues := hissues
  sessions x hx := .inl (hsessions ▸ hx)
  aborted y hy := ⟨y,hsessions ▸ hy,rfl,.inl rfl⟩
  commands d hd := by
    rw [hrows] at hd
    obtain ⟨c,hc,rfl⟩ := mem_map.mp hd
    rcases hf c hc with hsame | ⟨hstate,hmove⟩
    · exact .inl (hsame.symm ▸ hc)
    · refine .inr ⟨?_,c,hc,(hplace c).1.symm,(hplace c).2.1.symm,(hplace c).2.2.symm,hstate,fun hvalidated => ?_⟩
      · rcases hmove with hmove | hmove
        · exact .inl hmove
        · exact .inr (.inl hmove)
      · rw [hvalidated] at hmove
        rcases hmove with hmove | hmove <;> cases hmove
  ingestions i hi := .inl (hingestions ▸ hi)

theorem Pass.recordIngestionIssue {i : IngestionIssue} (h : s.recordIngestionIssue rt i = .ok t) (hblocking : i.blocking = false) :
    Pass rt now s t := by
  unfold Journal.recordIngestionIssue at h
  obtain ⟨_,_,_,h⟩ := rest₃ h
  obtain ⟨_,_,h⟩ := rest₂ h
  split at h
  · cases h
    exact .refl _ _
  · rename_i issues hinsert
    cases h
    refine .of_change (f := id) rfl (map_id _).symm rfl rfl rfl ?_ (fun c => ⟨rfl,rfl,rfl⟩) fun c _ => .inl rfl
    intro e he hblocks
    rcases (mem_insert hinsert).mp he with he | rfl
    · exact he
    · rw [hblocking] at hblocks
      cases hblocks

theorem Pass.expireDiscovered (s : Journal) (sessionId : String) : Pass rt now s (s.expireDiscovered sessionId) := by
  refine .of_change rfl rfl rfl rfl rfl (fun _ hi _ => hi) ?_ ?_
  · intro c
    dsimp only
    split <;> exact ⟨rfl,rfl,rfl⟩
  · intro c _
    split
    · rename_i hc
      exact .inr ⟨hc.2,.inr rfl⟩
    · exact .inl rfl

theorem Pass.setDiscovered (hc : s.discoveredCommand commandId = .ok c)
    (hnew : new = .rejected ∨ new = .expired) : Pass rt now s (s.withCommandState commandId new) := by
  obtain ⟨hget,hstate⟩ := discoveredCommand_ok hc
  obtain rfl := key_of_get hget
  refine .of_change rfl rfl rfl rfl rfl (fun _ hi _ => hi) ?_ ?_
  · intro d
    dsimp only
    split <;> exact ⟨rfl,rfl,rfl⟩
  · intro d hd
    split
    · rename_i hid
      obtain rfl : d = c := eq_of_key hd (mem_of_find hget) hid
      exact .inr ⟨hstate,hnew⟩
    · exact .inl rfl

theorem Pass.abortSession (hx : s.sessions.get x.sessionId = some x) (hstate : x.state = .created)
    (hpast : ManifestPast rt s x.sessionId now) : Pass rt now s (s.withSessionState x.sessionId .aborted) where
  intake := .abortSession hx hstate
  manifests := rfl
  issues _ hi _ := hi
  sessions y hy := by
    by_cases hid : y.sessionId = x.sessionId
    · exact .inr (hid ▸ hpast)
    · exact .inl (mem_map.mpr ⟨y,hy,if_neg hid⟩)
  aborted y hy := by
    obtain ⟨z,hz,rfl⟩ := mem_map.mp hy
    refine ⟨z,hz,?_⟩
    split
    · rename_i hid
      obtain rfl : z = x := eq_of_key hz (mem_of_find hx) hid
      exact ⟨rfl,.inr ⟨hstate,rfl⟩⟩
    · exact ⟨rfl,.inl rfl⟩
  commands _ hd := .inl hd
  ingestions _ hi := .inl hi

theorem Pass.expireSession (hx : s.sessions.get x.sessionId = some x)
    (hpast : ManifestPast rt s x.sessionId now) : ∃ t, s.expireSessionAndPendingCommands x.sessionId = .ok t ∧ Pass rt now s t ∧
      (x.state = .created ∨ x.state = .aborted → (∀ y ∈ t.sessions.rows, y.sessionId = x.sessionId → y.state = .aborted) ∧
        ∀ c ∈ s.commands.rows, c.sessionId = x.sessionId → Gone c.commandId t) := by
  have hgone : ∀ t : Journal, t.commands = s.commands → ∀ c ∈ s.commands.rows, c.sessionId = x.sessionId →
      Gone c.commandId (t.expireDiscovered x.sessionId) := by
    intro t ht c hc hsession d hd hid
    obtain ⟨e,he,rfl⟩ := mem_map.mp hd
    rw [ht] at he
    have heid : e.commandId = c.commandId := by
      split at hid <;> exact hid
    obtain rfl : e = c := eq_of_key he hc heid
    split
    · nofun
    · rename_i hne
      exact fun hstate => hne ⟨hsession,hstate⟩
  unfold expireSessionAndPendingCommands
  rw [need_ok.mpr hx,ok_bind]
  by_cases hcreated : x.state = .created
  · rw [if_pos hcreated,validateSessionTransition_ok.mpr (by simp [SessionState.transitions]),ok_bind]
    refine ⟨_,rfl,(Pass.abortSession hx hcreated hpast).trans (.expireDiscovered _ _),fun _ => ⟨?_,hgone _ rfl⟩⟩
    intro y hy hid
    obtain ⟨z,hz,rfl⟩ := mem_map.mp hy
    split
    · rfl
    · rename_i hne
      rw [if_neg hne] at hid
      exact absurd hid hne
  · rw [if_neg hcreated]
    by_cases haborted : x.state = .aborted
    · rw [if_pos haborted]
      refine ⟨_,rfl,.expireDiscovered _ _,fun _ => ⟨?_,hgone s rfl⟩⟩
      intro y hy hid
      rw [eq_of_key hy (mem_of_find hx) hid]
      exact haborted
    · rw [if_neg haborted]
      refine ⟨s,rfl,.refl _ _,?_⟩
      rintro (h | h)
      · exact absurd h hcreated
      · exact absurd h haborted

theorem Pass.validateAndUpdateCommand {v : ValidatedDocument} (hc : c ∈ s.commands.rows)
    (hpresent : s.AllPresent c) (hmanifest : ManifestValid rt s c.sessionId now)
    (hdocument : ∃ expiry, parseStrictUtcTimestamp rt v.expiresAt "expires_at" = .ok expiry ∧ now < expiry)
    (hnotOver : ∀ i ∈ s.ingestions.rows, i.commandId = c.commandId → ¬ DocumentOver rt now c i)
    (h : s.validateAndUpdateCommand rt c.commandId v = .ok t) :
    Pass rt now s t ∧ ∀ d ∈ t.commands.rows, d.commandId = c.commandId → d.state ≠ .discovered := by
  have hintake := Intake.validateAndUpdateCommand h
  unfold Journal.validateAndUpdateCommand at h
  obtain ⟨_,h⟩ := rest_ok h
  obtain ⟨c',hc',h⟩ := bind_ok.mp h
  obtain ⟨i,hi,h⟩ := of_need h
  cases h
  obtain ⟨hget,hstate⟩ := discoveredCommand_ok hc'
  obtain ⟨hmem,hid⟩ := get_eq_some.mp hget
  obtain rfl : c' = c := eq_of_key hmem hc hid
  obtain ⟨hrow,hiid⟩ := get_eq_some.mp hi
  have hfresh : ∃ d, d ∈ s.commands.rows.map (fun d => if d.commandId = c'.commandId then
      { d with commandJson := v.commandJson, expectedRevision := v.expectedRevision,
               expectedStateHash := v.expectedStateHash, state := .validated } else d) ∧ d.commandId = c'.commandId ∧
        d.state ≠ .discovered :=
    ⟨_,mem_map_of_mem hc,by rw [if_pos rfl],by rw [if_pos rfl]; nofun⟩
  refine ⟨⟨hintake,rfl,fun _ he _ => he,fun x hx => .inl hx,fun y hy => ⟨y,hy,rfl,.inl rfl⟩,?_,?_⟩,?_⟩
  · intro d hd
    obtain ⟨e,he,rfl⟩ := mem_map.mp hd
    split
    · rename_i heid
      obtain rfl : e = c' := eq_of_key he hc heid
      obtain ⟨expiry,hexpiry,hlt⟩ := hdocument
      refine .inr ⟨.inr (.inr ⟨rfl,hpresent.intake hintake,hmanifest,_,mem_map_of_mem hrow,?_,v.expiresAt,expiry,?_,hexpiry,hlt⟩),
        e,hc,rfl,rfl,rfl,hstate,fun _ => hnotOver⟩
      · split <;> exact hiid
      · rw [if_pos hiid]
    · exact .inl he
  · intro e he
    by_cases heid : e.commandId = c'.commandId
    · obtain ⟨d,hd,hdid,hleft⟩ := hfresh
      exact .inr ⟨⟨c',hc,heid.symm,hstate⟩,d,hd,hdid.trans heid.symm,hleft⟩
    · exact .inl (mem_map.mpr ⟨e,he,if_neg heid⟩)
  · intro d hd hdid
    obtain ⟨e,he,rfl⟩ := mem_map.mp hd
    split
    · nofun
    · rename_i hne
      rw [if_neg hne] at hdid
      exact absurd hdid hne

/-! ## The passes -/

theorem timestamps_of_parsed {content sourcePath : String} {parsed : Fields}
    (h : parseCommandEnvelope rt content sourcePath = .ok parsed) :
    (∃ text, requireString parsed "created_at" = .ok text) ∧ ∃ text expiry, requireString parsed "expires_at" = .ok text ∧
      parseStrictUtcTimestamp rt text "expires_at" = .ok expiry := by
  unfold parseCommandEnvelope at h
  obtain ⟨_,_,_,h⟩ := rest₃ h
  obtain ⟨_,_,_,h⟩ := rest₃ h
  obtain ⟨_,_,_,h⟩ := rest₃ h
  obtain ⟨_,_,_,h⟩ := rest₃ h
  obtain ⟨_,_,h⟩ := rest₂ h
  obtain ⟨_,_,h⟩ := rest₂ h
  obtain ⟨_,hcreated,h⟩ := bind_ok.mp h
  obtain ⟨expiry,hexpires,h⟩ := bind_ok.mp h
  obtain ⟨_,h⟩ := rest_ok h
  cases h
  obtain ⟨created,hcreated,-⟩ := bind_ok.mp hcreated
  obtain ⟨text,htext,hexpiry⟩ := bind_ok.mp hexpires
  exact ⟨⟨created,hcreated⟩,text,expiry,htext,hexpiry⟩

theorem isExpired_of {text : String} {expiry : DateTime} (h : parseStrictUtcTimestamp rt text "expires_at" = .ok expiry) :
    isExpired rt text now = .ok (decide (expiry ≤ now)) := by
  unfold isExpired
  rw [h]
  rfl

theorem manifest_unique {m m' : SessionIngestion} (hm : m ∈ s.manifests.rows) (hm' : m' ∈ s.manifests.rows)
    (h : m.sessionId = m'.sessionId) : m = m' :=
  eq_of_key hm hm' h

theorem ManifestValid.not_past (h : ManifestValid rt s sessionId now) : ¬ ManifestPast rt s sessionId now := by
  rintro ⟨m',hm',hid',expiry',hexpiry',hle⟩
  obtain ⟨m,hm,hid,expiry,hexpiry,hlt⟩ := h
  obtain rfl := manifest_unique hm hm' (hid.trans hid'.symm)
  cases Except.ok.inj (hexpiry.symm.trans hexpiry')
  exact absurd hlt (not_lt.mpr hle)

/-- No session of this name waits with an expired manifest. -/
def Fresh (rt : BridgeRuntime) (now : DateTime) (sessionId : String) (j : Journal) : Prop :=
  ∀ y ∈ j.sessions.rows, y.sessionId = sessionId → y.state = .created → ¬ ManifestPast rt j sessionId now

theorem Fresh.pass (h : Fresh rt now sessionId s) (hst : Pass rt now s t) : Fresh rt now sessionId t := by
  intro y hy hid hcreated
  unfold ManifestPast
  rw [hst.manifests]
  obtain ⟨x,hx,hxid,rfl | ⟨-,haborted⟩⟩ := hst.aborted y hy
  · exact h y hx hid hcreated
  · rw [haborted] at hcreated
    cases hcreated

variable (now) in
theorem expireStaleSession_done (hread : Readable rt sourceId s) {m : SessionIngestion} (hm : m ∈ s.manifests.rows) :
    ∃ t, expireStaleSession rt now s m = .ok t ∧ Pass rt now s t ∧ Fresh rt now m.sessionId t := by
  obtain ⟨expiry,hexpiry⟩ := hread.manifests m hm
  unfold expireStaleSession
  rw [isExpired_of hexpiry,ok_bind]
  by_cases hpast : expiry ≤ now
  · rw [decide_eq_true hpast]
    cases hget : s.sessions.get m.sessionId with
    | none =>
      refine ⟨s,rfl,.refl _ _,fun y hy hid => ?_⟩
      rw [← hid,Table.get_of_mem hy] at hget
      cases hget
    | some x =>
      obtain ⟨hx,hxid⟩ := get_eq_some.mp hget
      by_cases hcreated : x.state = .created
      · obtain ⟨t,ht,hpass,hleft⟩ := @Pass.expireSession rt now s x
          (by rw [hxid]; exact hget) ⟨m,hm,hxid.symm,expiry,hexpiry,hpast⟩
        refine ⟨t,?_,hpass,fun y hy hid hstate => ?_⟩
        · rw [if_pos rfl]
          dsimp only
          rw [if_pos hcreated,← hxid]
          exact ht
        · rw [(hleft (.inl hcreated)).1 y hy (hid.trans hxid.symm)] at hstate
          cases hstate
      · refine ⟨s,?_,.refl _ _,fun y hy hid hstate => ?_⟩
        · rw [if_pos rfl]
          dsimp only
          rw [if_neg hcreated]
          rfl
        · rw [eq_of_key hy hx (hid.trans hxid.symm)] at hstate
          exact absurd hstate hcreated
  · rw [decide_eq_false hpast]
    refine ⟨s,rfl,.refl _ _,fun y _ _ _ hpast' => ?_⟩
    have hvalid : ManifestValid rt s m.sessionId now := ⟨m,hm,rfl,expiry,hexpiry,not_le.mp hpast⟩
    exact hvalid.not_past hpast'

theorem withCommandState_state
    (hd : d ∈ (s.withCommandState commandId new).commands.rows) (hid : d.commandId = commandId) : d.state = new := by
  obtain ⟨e,he,rfl⟩ := mem_map.mp hd
  split
  · rfl
  · rename_i hne
    rw [if_neg hne] at hid
    exact absurd hid hne

theorem recordIngestionIssue_done (h : ReadableRow rt c i) (code : String)
    (sessionId : String) : ∃ t, s.recordIngestionIssue rt
      ⟨i.sourceId,i.sourcePath,i.snapshotSha,i.rawSha256,code,false,some i.documentCommitSha,some sessionId,some c.commandId⟩ =
        .ok t := by
  have hsnapshot : validateSha40 rt "snapshot_sha" i.snapshotSha = .ok () := require_of h.snapshotSha _ _
  have hdocument : (some i.documentCommitSha).forM (validateSha40 rt "document_commit_sha") = .ok () :=
    require_of h.documentCommitSha _ _
  unfold Journal.recordIngestionIssue
  dsimp only
  rw [require_of h.sourceId,ok_bind,hsnapshot,ok_bind,hdocument,ok_bind,require_of h.sourcePath,ok_bind,h.rawSha256,ok_bind]
  split
  all_goals exact ⟨_,rfl⟩

theorem discoveredCommand_of (hc : c ∈ s.commands.rows) (hstate : c.state = .discovered) :
    s.discoveredCommand c.commandId = .ok c := by
  unfold discoveredCommand
  rw [Table.get_of_mem (t := s.commands) hc]
  change (require (c.state = .discovered) _ _ >>= fun _ => pure c) = Except.ok c
  rw [require_of hstate]
  rfl

theorem validateDocument_done (hs : s.Placed) (hc : c ∈ s.commands.rows) (hstate : c.state = .discovered)
    (hi : s.ingestions.get c.commandId = some i) (hreadable : ReadableRow rt c i)
    (hmanifest : ManifestValid rt s c.sessionId now) :
    ∃ t, validateDocument rt now s c i = .ok t ∧ Pass rt now s t ∧
      (DocumentOver rt now c i ∨ s.AllPresent c → Gone c.commandId t) := by
  have hcommand := discoveredCommand_of hc hstate
  have hgone : ∀ new, new ≠ .discovered → Gone c.commandId (s.withCommandState c.commandId new) := by
    intro new hnew d hd hid
    rw [withCommandState_state hd hid]
    exact hnew
  unfold validateDocument
  cases hparse : parseCommandEnvelope rt c.commandJson i.sourcePath with
  | error e =>
    dsimp only
    rw [if_pos (hreadable.refused e hparse)]
    obtain ⟨t,ht⟩ := recordIngestionIssue_done (s := s.withCommandState c.commandId .rejected) hreadable e.code c.sessionId
    have hlast : Pass rt now (s.withCommandState c.commandId .rejected) t := .recordIngestionIssue ht rfl
    refine ⟨t,?_,(Pass.setDiscovered hcommand (.inl rfl)).trans hlast,fun _ => (hgone .rejected nofun).pass hlast⟩
    unfold rejectCommandDuringValidation
    rw [hcommand,ok_bind]
    exact ht
  | ok parsed =>
    obtain ⟨⟨created,hcreated⟩,text,expiry,htext,hexpiry⟩ := timestamps_of_parsed hparse
    dsimp only
    rw [htext,ok_bind,isExpired_of hexpiry,ok_bind]
    by_cases hpast : expiry ≤ now
    · rw [decide_eq_true hpast,if_pos rfl]
      refine ⟨s.withCommandState c.commandId .expired,?_,.setDiscovered hcommand (.inr rfl),fun _ => hgone .expired nofun⟩
      unfold expireCommandDuringValidation
      rw [hcommand]
      rfl
    · rw [decide_eq_false hpast,if_neg Bool.false_ne_true]
      have hnotOver : ¬ DocumentOver rt now c i := by
        rintro (⟨e,he⟩ | ⟨parsed',hparsed,expiry',hexpiry',hle⟩)
        · rw [hparse] at he
          cases he
        · cases Except.ok.inj (hparse.symm.trans hparsed)
          unfold requireTimestamp at hexpiry'
          rw [htext,ok_bind,hexpiry] at hexpiry'
          cases hexpiry'
          exact absurd hle hpast
      by_cases hgap : 1 < c.sequence ∧ s.countSessionCommandsBefore c.sessionId c.sequence ≠ c.sequence - 1
      · rw [if_pos hgap]
        refine ⟨s,rfl,.refl _ _,?_⟩
        rintro (hover | hpresent)
        · exact absurd hover hnotOver
        · exact absurd ((countSessionCommandsBefore_iff hs c).mpr hpresent) hgap.2
      · rw [if_neg hgap,hcreated,ok_bind]
        have hpresent : s.AllPresent c := by
          by_cases hone : 1 < c.sequence
          · exact (countSessionCommandsBefore_iff hs c).mp (not_not.mp fun hne => hgap ⟨hone,hne⟩)
          · intro k hpos hlt
            omega
        obtain ⟨t,ht⟩ : ∃ t, s.validateAndUpdateCommand rt c.commandId (validatedDocument parsed created text i.snapshotSha) = .ok t := by
          have hsnapshot : validateSha40 rt "snapshot_sha" (validatedDocument parsed created text i.snapshotSha).snapshotSha =
            .ok () := require_of hreadable.snapshotSha _ _
          unfold Journal.validateAndUpdateCommand
          rw [hsnapshot,ok_bind,hcommand,ok_bind,need_ok.mpr hi]
          exact ⟨_,rfl⟩
        have hrow : ∀ i' ∈ s.ingestions.rows, i'.commandId = c.commandId → ¬ DocumentOver rt now c i' := by
          intro i' hi' hid'
          obtain ⟨hmem,hid⟩ := get_eq_some.mp hi
          rw [eq_of_key hi' hmem (hid'.trans hid.symm)]
          exact hnotOver
        obtain ⟨hpass,hgone⟩ :=
          Pass.validateAndUpdateCommand hc hpresent hmanifest ⟨expiry,hexpiry,not_le.mp hpast⟩ hrow ht
        exact ⟨t,ht,hpass,fun _ => hgone⟩

variable (now) in
theorem validateCommand_done (hs : s.Placed) (hread : Readable rt sourceId s) (hc : c ∈ s.commands.rows)
    (hstate : c.state = .discovered) :
    ∃ t, validateCommand rt sourceId now s c = .ok t ∧ Pass rt now s t ∧ (Decided rt sourceId s now c → Gone c.commandId t) := by
  obtain ⟨i,hi,hid,hreadable⟩ := hread.documents c hc hstate
  have hrow : s.ingestions.get c.commandId = some i := get_eq_some.mpr ⟨hi,hid⟩
  have hsame : ∀ i' ∈ s.ingestions.rows, i'.commandId = c.commandId → i' = i :=
    fun i' hi' hid' => eq_of_key hi' hi (hid'.trans hid.symm)
  unfold validateCommand
  rw [Table.get_of_mem (t := s.commands) hc]
  dsimp only
  rw [if_neg (not_not.mpr hstate)]
  cases hmanifest : s.manifests.get c.sessionId with
  | none =>
    have hnone : ∀ m ∈ s.manifests.rows, m.sessionId ≠ c.sessionId := by
      intro m hm hid'
      rw [← hid',Table.get_of_mem hm] at hmanifest
      cases hmanifest
    refine ⟨s,rfl,.refl _ _,?_⟩
    rintro ⟨-,-,-,-,⟨⟨m,hm,hid',-⟩,-⟩ | ⟨⟨m,hm,hid',-⟩,-⟩⟩
    all_goals exact absurd hid' (hnone m hm)
  | some m =>
    obtain ⟨hm,hmid⟩ := get_eq_some.mp hmanifest
    obtain ⟨expiry,hexpiry⟩ := hread.manifests m hm
    dsimp only
    rw [need_ok.mpr hrow,ok_bind]
    by_cases hsource : i.sourceId = sourceId
    · rw [if_neg (not_not.mpr hsource),isExpired_of hexpiry,ok_bind]
      by_cases hpast : expiry ≤ now
      · rw [decide_eq_true hpast,if_pos rfl]
        have hpastManifest : ManifestPast rt s c.sessionId now := ⟨m,hm,hmid,expiry,hexpiry,hpast⟩
        obtain ⟨x,hx,hxid⟩ := hread.sessions c hc
        obtain ⟨t,ht,hpass,hleft⟩ := Pass.expireSession (s := s) (x := x) (Table.get_of_mem hx) (hxid.symm ▸ hpastManifest)
        rw [hxid] at ht
        refine ⟨t,ht,hpass,?_⟩
        rintro ⟨-,-,-,-,⟨-,y,hy,hyid,hstate'⟩ | ⟨hvalid,-⟩⟩
        · obtain rfl : y = x := eq_of_key hy hx (hyid.trans hxid.symm)
          exact (hleft hstate').2 c hc hxid.symm
        · exact absurd hpastManifest hvalid.not_past
      · rw [decide_eq_false hpast,if_neg Bool.false_ne_true]
        have hvalid : ManifestValid rt s c.sessionId now := ⟨m,hm,hmid,expiry,hexpiry,not_le.mp hpast⟩
        obtain ⟨t,ht,hpass,hgone⟩ := validateDocument_done hs hc hstate hrow (hreadable hsource) hvalid
        refine ⟨t,ht,hpass,?_⟩
        rintro ⟨i',hi',hid',-,⟨hpast',-⟩ | ⟨-,hdocument⟩⟩
        · exact absurd hpast' hvalid.not_past
        · rw [hsame i' hi' hid'] at hdocument
          exact hgone hdocument
    · rw [if_pos hsource]
      refine ⟨s,rfl,.refl _ _,?_⟩
      rintro ⟨i',hi',hid',hsource',-⟩
      rw [hsame i' hi' hid'] at hsource'
      exact absurd hsource' hsource

theorem Pass.kept_or_gone (h : Pass rt now s t) (hc : c ∈ s.commands.rows) :
    c ∈ t.commands.rows ∨ Gone c.commandId t := by
  rcases h.intake.commands c hc with hc | ⟨-,d,hd,hid,-,-,hmove⟩
  · exact .inl hc
  · refine .inr fun e he heid hstate => ?_
    rw [eq_of_key he hd (heid.trans hid.symm)] at hstate
    rw [hstate] at hmove
    simp [CommandState.transitions] at hmove

theorem validateCommand_gone {b : Journal} (hb : Pass rt now b s) (hc : c ∈ b.commands.rows)
    (h : Gone c.commandId s) : validateCommand rt sourceId now s c = .ok s := by
  obtain ⟨d,hd,hid⟩ : ∃ d ∈ s.commands.rows, d.commandId = c.commandId := by
    rcases hb.intake.commands c hc with hc | ⟨-,d,hd,hid,-⟩
    · exact ⟨c,hc,rfl⟩
    · exact ⟨d,hd,hid⟩
  unfold validateCommand
  rw [get_eq_some.mpr ⟨hd,hid⟩]
  exact if_pos (h d hd hid)

variable (now) in
theorem validateAt_done (hs : s.Placed) (hread : Readable rt sourceId s) :
    ∃ t, s.validateAt rt sourceId now = (t,.ok ()) ∧ Pass rt now s t ∧ Readable rt sourceId t ∧
      (∀ sessionId, Fresh rt now sessionId t) ∧
      ∀ c ∈ s.commands.rows, c.state = .discovered → Decided rt sourceId s now c → Gone c.commandId t := by
  obtain ⟨u,hu,⟨hsu,hreadu⟩,hfresh,-⟩ := walk_done (expireStaleSession rt now)
    (fun u => Pass rt now s u ∧ Readable rt sourceId u) (fun m u => Fresh rt now m.sessionId u) s.manifestsInOrder
    (by
      rintro u ⟨hsu,hreadu⟩ m hm
      have hmem : m ∈ u.manifests.rows := by
        rw [hsu.manifests]
        exact (mem_insertionSort _).mp hm
      obtain ⟨t,ht,hpass,hfresh⟩ := expireStaleSession_done now hreadu hmem
      exact ⟨t,ht,⟨hsu.trans hpass,hreadu.pass hpass⟩,hfresh,fun m' h => h.pass hpass⟩)
    ⟨.refl now s,hread⟩
  have hplaced := hsu.intake.placed hs
  obtain ⟨t,ht,⟨hut,hreadt⟩,hgone,-⟩ := walk_done (validateCommand rt sourceId now)
    (fun t => Pass rt now u t ∧ Readable rt sourceId t)
    (fun c t => Decided rt sourceId u now c → Gone c.commandId t) u.listDiscoveredCommands
    (by
      rintro v ⟨huv,hreadv⟩ c hc
      obtain ⟨hcu,hstate⟩ : c ∈ u.commands.rows ∧ c.state = .discovered := by
        have hmem := (mem_insertionSort _).mp hc
        rw [mem_filter] at hmem
        exact ⟨hmem.1,by simpa using hmem.2⟩
      rcases huv.kept_or_gone hcu with hcv | hgone
      · obtain ⟨t,ht,hpass,hgone⟩ := validateCommand_done now (huv.intake.placed hplaced) hreadv hcv hstate
        exact ⟨t,ht,⟨huv.trans hpass,hreadv.pass hpass⟩,fun hdecided => hgone (hdecided.pass huv hcv hstate),
          fun c' h hdecided => (h hdecided).pass hpass⟩
      · exact ⟨v,validateCommand_gone huv hcu hgone,⟨huv,hreadv⟩,fun _ => hgone,fun c' h => h⟩)
    ⟨.refl now u,hreadu⟩
  refine ⟨t,?_,hsu.trans hut,hreadt,fun sessionId y hy hid hcreated hpast => ?_,fun c hc hstate hdecided => ?_⟩
  · unfold validateAt
    rw [hu]
    exact ht
  · obtain ⟨m,hm,hmid,hexpiry⟩ := hpast
    have hmem : m ∈ s.manifestsInOrder := by
      refine (mem_insertionSort _).mpr ?_
      rw [← (hsu.trans hut).manifests]
      exact hm
    exact (hfresh m hmem).pass hut y hy (hid.trans hmid.symm) hcreated ⟨m,hm,rfl,hexpiry⟩
  · rcases hsu.kept_or_gone hc with hcu | hleft
    · have hmem : c ∈ u.listDiscoveredCommands :=
        (mem_insertionSort _).mpr (mem_filter.mpr ⟨hcu,by simp [hstate]⟩)
      exact hgone c hmem (hdecided.pass hsu hcu hstate)
    · exact hleft.pass hut

theorem Pass.left_of_ended (h : Pass rt now s t) (hc : c ∈ s.commands.rows) (hended : Ended rt sourceId s now c)
    (hgone : Gone c.commandId t) : ∀ d ∈ t.commands.rows, d.commandId = c.commandId → c.state = .discovered → Left d.state := by
  intro d hd hid hstate
  refine ⟨hgone d hd hid,fun hvalidated => ?_⟩
  rcases h.commands d hd with hd | ⟨hv,c',hc',hcid,hsession,-,-,hdocument⟩
  · rw [eq_of_key hd hc hid,hstate] at hvalidated
    cases hvalidated
  · obtain rfl : c' = c := eq_of_key hc' hc (hcid.trans hid)
    obtain ⟨i,hi,hiid,-,⟨hpast,-⟩ | ⟨-,hover⟩⟩ := hended
    · rcases hv with hv | hv | ⟨-,-,hvalid,-⟩
      · rw [hv] at hvalidated
        cases hvalidated
      · rw [hv] at hvalidated
        cases hvalidated
      · unfold ManifestPast at hpast
        rw [← h.manifests,hsession] at hpast
        exact hvalid.not_past hpast
    · exact hdocument hvalidated i hi hiid hover

end Journal

end Bdb.Bridge
