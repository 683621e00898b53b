import Bdb.Bridge.QueueIngestion

/-! # What the calls of the journal may change

Ingestion and validation open no session and start no work: they abort sessions that were
never activated, and they validate, reject or expire what was discovered. Every call moves
commands and sessions along their transitions and keeps their places.
-/
namespace Bdb.Bridge

open List Table

def CommandState.Leads : CommandState → CommandState → Prop := Relation.ReflTransGen fun a b => b ∈ a.transitions

def SessionState.Leads : SessionState → SessionState → Prop := Relation.ReflTransGen fun a b => b ∈ a.transitions

variable {a b : CommandState}

theorem CommandState.leads_terminal (ha : a.isTerminal = true) (h : a.Leads b) : b = a := by
  induction h with
  | refl => rfl
  | tail _ hstep ih =>
    subst ih
    rw [CommandState.transitions_terminal ha] at hstep
    cases hstep

theorem SessionState.leads_terminal {a b : SessionState} (ha : a.isTerminal = true) (h : a.Leads b) : b = a := by
  induction h with
  | refl => rfl
  | tail _ hstep ih =>
    subst ih
    rw [SessionState.transitions_terminal ha] at hstep
    cases hstep

theorem CommandState.leads_left (ha : a ≠ .discovered ∧ a ≠ .validated) (h : a.Leads b) :
    b ≠ .discovered ∧ b ≠ .validated := by
  induction h with
  | refl => exact ha
  | @tail b c _ hstep ih =>
    obtain ⟨hdiscovered,hvalidated⟩ := ih
    cases b <;> simp [CommandState.transitions] at hstep hdiscovered hvalidated <;>
      rcases hstep with rfl | rfl | rfl | rfl | rfl | rfl <;> exact ⟨nofun,nofun⟩

namespace Journal

variable {rt : BridgeRuntime} {s t u : Journal}

/-! ## Places of commands -/

/-- No two commands have the same place in a session, and places count from one. -/
structure Placed (j : Journal) : Prop where
  positive : ∀ c ∈ j.commands.rows, 0 < c.sequence
  unique : ∀ c ∈ j.commands.rows, ∀ d ∈ j.commands.rows, c.sessionId = d.sessionId → c.sequence = d.sequence → c = d

/-- A change of commands that moves none of them. -/
def SamePlace (f : Command → Command) : Prop :=
  ∀ c, (f c).commandId = c.commandId ∧ (f c).sessionId = c.sessionId ∧ (f c).sequence = c.sequence

variable {f : Command → Command} {x : Session} {m : SessionIngestion} {sessionId : String} {α : Type}

theorem Placed.map (h : s.Placed) (hf : SamePlace f)
    (ht : t.commands.rows = s.commands.rows.map f) : t.Placed := by
  constructor
  · intro c' hc'
    rw [ht] at hc'
    obtain ⟨c,hc,rfl⟩ := mem_map.mp hc'
    rw [(hf c).2.2]
    exact h.positive c hc
  · intro c' hc' d' hd' hsession hsequence
    rw [ht] at hc' hd'
    obtain ⟨c,hc,rfl⟩ := mem_map.mp hc'
    obtain ⟨d,hd,rfl⟩ := mem_map.mp hd'
    rw [(hf c).2.1,(hf d).2.1] at hsession
    rw [(hf c).2.2,(hf d).2.2] at hsequence
    rw [h.unique c hc d hd hsession hsequence]

variable {c : Command} {i : CommandIngestion} {d : RemoteDocument} {commandId snapshotSha : String}

theorem insertCommand_ok (h : s.insertCommand c = .ok t) :
    0 < c.sequence ∧ (∀ d ∈ s.commands.rows, d.sessionId = c.sessionId → d.sequence ≠ c.sequence) ∧
      ∃ commands, s.commands.insert c = some commands ∧ t = { s with commands := commands } := by
  unfold insertCommand at h
  split at h
  · cases h
  · rename_i hsequence
    split at h
    · cases h
    · split at h
      · cases h
      · rename_i hfree
        split at h
        · cases h
        · rename_i commands hinsert
          cases h
          refine ⟨Nat.pos_of_ne_zero hsequence,?_,commands,hinsert,rfl⟩
          intro d hd hsession hseq
          apply hfree
          unfold atSequence
          cases hfind : s.commands.find fun c' => c'.sessionId = c.sessionId && c'.sequence = c.sequence with
          | some _ => rfl
          | none =>
            have hnone := find_eq_none.mp hfind d hd
            simp [hsession,hseq] at hnone

/-! ## Intake -/

/-- What ingestion and validation may change. -/
structure Intake (s t : Journal) : Prop where
  sessions : ∀ x ∈ s.sessions.rows, x ∈ t.sessions.rows ∨ x.state = .created ∧ { x with state := .aborted } ∈ t.sessions.rows
  commands : ∀ c ∈ s.commands.rows, c ∈ t.commands.rows ∨ c.state = .discovered ∧ ∃ d ∈ t.commands.rows,
    d.commandId = c.commandId ∧ d.sessionId = c.sessionId ∧ d.sequence = c.sequence ∧ d.state ∈ CommandState.discovered.transitions
  opened : ∀ y ∈ t.sessions.rows, isOpen y = true → y ∈ s.sessions.rows
  started : ∀ d ∈ t.commands.rows, d.state.isWorking = true → d ∈ s.commands.rows
  manifests : ∀ m ∈ s.manifests.rows, m ∈ t.manifests.rows
  around : t.around = s.around
  placed : s.Placed → t.Placed

theorem Intake.refl (s : Journal) : s.Intake s where
  sessions _ hx := .inl hx
  commands _ hc := .inl hc
  opened _ hy _ := hy
  started _ hd _ := hd
  manifests _ hm := hm
  around := rfl
  placed h := h

theorem Intake.trans (h : s.Intake t) (h' : t.Intake u) : s.Intake u where
  sessions x hx := by
    rcases h.sessions x hx with hx | ⟨hstate,hx⟩
    · exact h'.sessions x hx
    · rcases h'.sessions _ hx with hx | ⟨haborted,-⟩
      · exact .inr ⟨hstate,hx⟩
      · cases haborted
  commands c hc := by
    rcases h.commands c hc with hc | ⟨hstate,d,hd,hid,hsession,hsequence,hmove⟩
    · exact h'.commands c hc
    · rcases h'.commands d hd with hd | ⟨hdiscovered,-⟩
      · exact .inr ⟨hstate,d,hd,hid,hsession,hsequence,hmove⟩
      · rw [hdiscovered] at hmove
        simp [CommandState.transitions] at hmove
  opened y hy hopen := h.opened y (h'.opened y hy hopen) hopen
  started d hd hworking := h.started d (h'.started d hd hworking) hworking
  manifests m hm := h'.manifests m (h.manifests m hm)
  around := h'.around.trans h.around
  placed hs := h'.placed (h.placed hs)

theorem Intake.of_same (hsessions : t.sessions = s.sessions) (hcommands : t.commands = s.commands)
    (hmanifests : ∀ m ∈ s.manifests.rows, m ∈ t.manifests.rows) (haround : t.around = s.around) : s.Intake t where
  sessions _ hx := .inl (hsessions ▸ hx)
  commands _ hc := .inl (hcommands ▸ hc)
  opened _ hy _ := hsessions ▸ hy
  started _ hd _ := hcommands ▸ hd
  manifests := hmanifests
  around := haround
  placed h := ⟨hcommands ▸ h.positive,hcommands ▸ h.unique⟩

theorem Intake.of_change (hsessions : t.sessions = s.sessions)
    (hrows : t.commands.rows = s.commands.rows.map f) (hmanifests : t.manifests = s.manifests)
    (haround : t.around = s.around) (hplace : SamePlace f)
    (hf : ∀ c ∈ s.commands.rows, f c = c ∨ c.state = .discovered ∧ (f c).state ∈ CommandState.discovered.transitions) :
    s.Intake t where
  sessions _ hx := .inl (hsessions ▸ hx)
  commands c hc := by
    have hmem : f c ∈ t.commands.rows := hrows ▸ mem_map_of_mem hc
    rcases hf c hc with hsame | ⟨hstate,hmove⟩
    · exact .inl (hsame ▸ hmem)
    · exact .inr ⟨hstate,f c,hmem,(hplace c).1,(hplace c).2.1,(hplace c).2.2,hmove⟩
  opened _ hy _ := hsessions ▸ hy
  started d hd hworking := by
    rw [hrows] at hd
    obtain ⟨c,hc,rfl⟩ := mem_map.mp hd
    rcases hf c hc with hsame | ⟨-,hmove⟩
    · exact hsame.symm ▸ hc
    · simp only [CommandState.transitions,mem_cons,not_mem_nil,or_false] at hmove
      rcases hmove with hmove | hmove | hmove <;> rw [hmove] at hworking <;> cases hworking
  manifests _ hm := hmanifests ▸ hm
  around := haround
  placed h := h.map hplace hrows

theorem Intake.insertCommand (h : s.insertCommand c = .ok t) (hstate : c.state = .discovered) : s.Intake t := by
  obtain ⟨hpositive,hfree,commands,hinsert,rfl⟩ := insertCommand_ok h
  have hrows := (insert_some hinsert).2
  refine ⟨fun x hx => .inl hx,?_,fun y hy _ => hy,?_,fun m hm => hm,rfl,?_⟩
  · intro d hd
    exact .inl ((mem_insert hinsert).mpr (.inl hd))
  · intro d hd hworking
    rcases (mem_insert hinsert).mp hd with hd | rfl
    · exact hd
    · rw [hstate] at hworking
      cases hworking
  · intro hs
    constructor
    · intro d hd
      rcases (mem_insert hinsert).mp hd with hd | rfl
      · exact hs.positive d hd
      · exact hpositive
    · intro d hd e he hsession hsequence
      rcases (mem_insert hinsert).mp hd with hd | rfl <;> rcases (mem_insert hinsert).mp he with he | rfl
      · exact hs.unique d hd e he hsession hsequence
      · exact absurd hsequence (hfree d hd hsession)
      · exact absurd hsequence.symm (hfree e he hsession.symm)
      · rfl

theorem Intake.recordIngestionIssue {i : IngestionIssue} (h : s.recordIngestionIssue rt i = .ok t) : s.Intake t := by
  unfold Journal.recordIngestionIssue at h
  obtain ⟨_,_,_,h⟩ := rest₃ h
  obtain ⟨_,_,h⟩ := rest₂ h
  split at h <;> cases h
  · exact .refl _
  · exact .of_same rfl rfl (fun _ hm => hm) rfl

theorem Intake.insertCommandIngestion (h : s.insertCommandIngestion i = .ok t) : s.Intake t := by
  unfold Journal.insertCommandIngestion at h
  split at h
  · cases h
  · cases h
    exact .of_same rfl rfl (fun _ hm => hm) rfl

theorem Intake.promoteCommand {d : PendingDocument} (h : s.promoteCommand rt d = .ok t) : s.Intake t := by
  unfold Journal.promoteCommand at h
  dsimp only at h
  split at h
  · exact .recordIngestionIssue h
  · split at h
    · exact .recordIngestionIssue h
    · obtain ⟨t₁,hcommand,h⟩ := bind_ok.mp h
      obtain ⟨t₂,hingestion,h⟩ := bind_ok.mp h
      cases h
      have hlast : t₂.Intake { t₂ with pending := t₂.pending.remove fun e => e.sessionId = d.sessionId && e.sequence = d.sequence } :=
        .of_same rfl rfl (fun _ hm => hm) rfl
      exact (Intake.insertCommand hcommand rfl).trans ((Intake.insertCommandIngestion hingestion).trans hlast)

theorem Intake.promote {ds : List PendingDocument} (h : ds.foldlM (Journal.promoteCommand rt) s = .ok t) : s.Intake t := by
  induction ds generalizing s with
  | nil =>
    cases h
    exact .refl _
  | cons d ds ih =>
    rw [foldlM_cons] at h
    obtain ⟨s₁,hfirst,h⟩ := bind_ok.mp h
    exact (Intake.promoteCommand hfirst).trans (ih h)

theorem Intake.insertSession {sessions : Table Session (·.sessionId)} (h : s.sessions.insert x = some sessions)
    (hstate : x.state = .created) : s.Intake { s with sessions := sessions } where
  sessions y hy := .inl ((mem_insert h).mpr (.inl hy))
  commands _ hc := .inl hc
  opened y hy hopen := by
    rcases (mem_insert h).mp hy with hy | rfl
    · exact hy
    · simp [isOpen,hstate] at hopen
  started _ hd _ := hd
  manifests _ hm := hm
  around := rfl
  placed hs := ⟨hs.positive,hs.unique⟩

theorem Intake.insertManifest {manifests : Table SessionIngestion (·.sessionId)}
    (h : s.manifests.insert m = some manifests) : s.Intake { s with manifests := manifests } :=
  .of_same rfl rfl (fun _ hm => (mem_insert h).mpr (.inl hm)) rfl

theorem Intake.recordSessionManifest {d : ManifestDocument} {now : String} (h : s.recordSessionManifest rt d now = .ok t) :
    s.Intake t := by
  unfold Journal.recordSessionManifest at h
  dsimp only at h
  obtain ⟨_,_,h⟩ := rest₂ h
  obtain ⟨_,_,h⟩ := rest₂ h
  split at h
  · split at h
    · exact .promote h
    · exact .recordIngestionIssue h
  · split at h
    · split at h
      · exact .recordIngestionIssue h
      · split at h
        · cases h
        · rename_i hmanifest
          exact (Intake.insertManifest hmanifest).trans (.promote h)
    · split at h
      · rename_i hsession hmanifest
        have hfirst : s.Intake { s with sessions := _, manifests := _ } :=
          (Intake.insertSession hsession rfl).trans (Intake.insertManifest (s := { s with sessions := _ }) hmanifest)
        exact hfirst.trans (.promote h)
      · cases h

theorem Intake.recordIngestedCommand {d : PendingDocument} (h : s.recordIngestedCommand rt d = .ok t) : s.Intake t := by
  unfold Journal.recordIngestedCommand recordDecodedCommand at h
  obtain ⟨_,_,_,h⟩ := rest₃ h
  split at h
  · unfold stageDocument at h
    split at h
    · split at h
      · cases h
        exact .refl _
      · exact .recordIngestionIssue h
    · split at h
      · cases h
      · cases h
        exact .of_same rfl rfl (fun _ hm => hm) rfl
  · unfold ingestDocument at h
    dsimp only at h
    split at h
    · split at h
      · cases h
        exact .refl _
      · exact .recordIngestionIssue h
    · split at h
      · split at h
        · exact .insertCommandIngestion h
        · exact .recordIngestionIssue h
      · split at h
        · exact .recordIngestionIssue h
        · split at h
          · exact .recordIngestionIssue h
          · obtain ⟨t₁,hcommand,h⟩ := bind_ok.mp h
            exact (Intake.insertCommand hcommand rfl).trans (.insertCommandIngestion h)

/-! ## Validation and expiry -/

theorem Intake.expireDiscovered (s : Journal) (sessionId : String) : s.Intake (s.expireDiscovered sessionId) := by
  refine .of_change rfl rfl rfl rfl ?_ ?_
  · intro c
    dsimp only
    split <;> exact ⟨rfl,rfl,rfl⟩
  · intro c _
    split
    · rename_i hc
      exact .inr ⟨hc.2,by simp [CommandState.transitions]⟩
    · exact .inl rfl

theorem Intake.abortSession (hx : s.sessions.get x.sessionId = some x) (hstate : x.state = .created) :
    s.Intake (s.withSessionState x.sessionId .aborted) where
  sessions y hy := by
    by_cases hid : y.sessionId = x.sessionId
    · have hyx : y = x := eq_of_key hy (mem_of_find hx) hid
      subst hyx
      exact .inr ⟨hstate,mem_map.mpr ⟨y,hy,if_pos rfl⟩⟩
    · exact .inl (mem_map.mpr ⟨y,hy,if_neg hid⟩)
  commands _ hc := .inl hc
  opened y hy hopen := by
    obtain ⟨z,hz,rfl⟩ := mem_map.mp hy
    split at hopen
    · cases hopen
    · rename_i hid
      exact (if_neg hid).symm ▸ hz
  started _ hd _ := hd
  manifests _ hm := hm
  around := rfl
  placed hs := ⟨hs.positive,hs.unique⟩

theorem Intake.expireSession (h : s.expireSessionAndPendingCommands sessionId = .ok t) : s.Intake t := by
  unfold expireSessionAndPendingCommands at h
  obtain ⟨x,hx,h⟩ := bind_ok.mp h
  rw [need_ok] at hx
  obtain rfl := key_of_get hx
  split at h
  · rename_i hcreated
    obtain ⟨_,h⟩ := rest_ok h
    cases h
    exact (Intake.abortSession hx hcreated).trans (.expireDiscovered _ _)
  · split at h
    · cases h
      exact .expireDiscovered _ _
    · cases h
      exact .refl _

theorem discoveredCommand_ok (h : s.discoveredCommand commandId = .ok c) :
    s.commands.get commandId = some c ∧ c.state = .discovered := by
  unfold discoveredCommand at h
  obtain ⟨c',hc',h⟩ := of_need h
  obtain ⟨hstate,h⟩ := of_require h
  cases h
  exact ⟨hc',hstate⟩

theorem Intake.setDiscovered {new : CommandState}
    (hc : s.discoveredCommand commandId = .ok c) (hnew : new ∈ CommandState.discovered.transitions) :
    s.Intake (s.withCommandState commandId new) := by
  obtain ⟨hget,hstate⟩ := discoveredCommand_ok hc
  obtain rfl := key_of_get hget
  refine .of_change rfl rfl rfl rfl ?_ ?_
  · intro d
    dsimp only
    split <;> exact ⟨rfl,rfl,rfl⟩
  · intro d hd
    split
    · rename_i hid
      obtain rfl : d = c := eq_of_key hd (mem_of_find hget) hid
      exact .inr ⟨hstate,hnew⟩
    · exact .inl rfl

theorem Intake.validateAndUpdateCommand {v : ValidatedDocument}
    (h : s.validateAndUpdateCommand rt commandId v = .ok t) : s.Intake t := by
  unfold Journal.validateAndUpdateCommand at h
  obtain ⟨_,h⟩ := rest_ok h
  obtain ⟨c,hc,h⟩ := bind_ok.mp h
  obtain ⟨_,h⟩ := rest_ok h
  cases h
  obtain ⟨hget,hstate⟩ := discoveredCommand_ok hc
  obtain rfl := key_of_get hget
  refine .of_change rfl rfl rfl rfl ?_ ?_
  · intro d
    dsimp only
    split <;> exact ⟨rfl,rfl,rfl⟩
  · intro d hd
    split
    · rename_i hid
      obtain rfl : d = c := eq_of_key hd (mem_of_find hget) hid
      exact .inr ⟨hstate,by simp [CommandState.transitions]⟩
    · exact .inl rfl

theorem Intake.rejectCommand {errorCode : String}
    (h : s.rejectCommandDuringValidation rt commandId errorCode i = .ok t) : s.Intake t := by
  unfold rejectCommandDuringValidation at h
  obtain ⟨c,hc,h⟩ := bind_ok.mp h
  exact (Intake.setDiscovered hc (by simp [CommandState.transitions])).trans (.recordIngestionIssue h)

theorem Intake.expireCommand (h : s.expireCommandDuringValidation commandId = .ok t) : s.Intake t := by
  unfold expireCommandDuringValidation at h
  obtain ⟨c,hc,h⟩ := bind_ok.mp h
  cases h
  exact .setDiscovered hc (by simp [CommandState.transitions])

theorem Intake.createSession {repositoryId baseSha now : String}
    (h : s.createSession sessionId repositoryId baseSha now = .ok t) : s.Intake t := by
  unfold Journal.createSession at h
  obtain ⟨_,_,_,h⟩ := rest₃ h
  split at h
  · cases h
  · rename_i hinsert
    cases h
    exact .insertSession hinsert rfl

theorem Intake.recordCommand (h : s.recordCommand c = .ok t) : s.Intake t := by
  unfold Journal.recordCommand at h
  obtain ⟨_,_,_,h⟩ := rest₃ h
  split at h
  · obtain ⟨_,h⟩ := rest_ok h
    cases h
    exact .refl _
  · obtain ⟨_,h⟩ := rest_ok h
    exact .insertCommand h rfl

/-! ## Polls -/

variable {sourceId : String}

theorem Intake.refuseDocument {sessionId commandId : Option String} {e : Failure}
    (h : s.refuseDocument rt sourceId snapshotSha d sessionId commandId e = .ok t) : s.Intake t := .recordIngestionIssue h

theorem Intake.ingestManifest {now : String}
    (h : ingestManifest rt sourceId snapshotSha now s d = .ok t) : s.Intake t := by
  unfold Journal.ingestManifest at h
  split at h
  · rename_i htake
    cases h
    unfold takeManifest at htake
    obtain ⟨_,_,_,htake⟩ := rest₃ htake
    obtain ⟨_,_,_,htake⟩ := rest₃ htake
    obtain ⟨_,_,htake⟩ := rest₂ htake
    exact .recordSessionManifest htake
  · exact .refuseDocument h

theorem Intake.ingestCommand (h : ingestCommand rt sourceId snapshotSha s d = .ok t) : s.Intake t := by
  unfold Journal.ingestCommand at h
  split at h
  · rename_i htake
    cases h
    unfold takeCommand at htake
    obtain ⟨⟨_,_⟩,-,htake⟩ := bind_ok.mp htake
    exact .recordIngestedCommand htake
  · split at h
    all_goals exact .refuseDocument h

variable {now : DateTime}

theorem Intake.expireStaleSession (h : expireStaleSession rt now s m = .ok t) :
    s.Intake t := by
  unfold Journal.expireStaleSession at h
  obtain ⟨_,h⟩ := rest_ok h
  split at h
  · split at h
    · split at h
      · exact .expireSession h
      · cases h
        exact .refl _
    · cases h
      exact .refl _
  · cases h
    exact .refl _

theorem Intake.validateDocument (h : validateDocument rt now s c i = .ok t) : s.Intake t := by
  unfold Journal.validateDocument at h
  split at h
  · split at h
    · exact .rejectCommand h
    · cases h
  · obtain ⟨_,_,h⟩ := rest₂ h
    split at h
    · exact .expireCommand h
    · split at h
      · cases h
        exact .refl _
      · obtain ⟨_,h⟩ := rest_ok h
        exact .validateAndUpdateCommand h

theorem Intake.validateCommand (h : validateCommand rt sourceId now s c = .ok t) : s.Intake t := by
  unfold Journal.validateCommand at h
  split at h
  · cases h
    exact .refl _
  · split at h
    · cases h
      exact .refl _
    · split at h
      · cases h
        exact .refl _
      · obtain ⟨_,h⟩ := rest_ok h
        split at h
        · cases h
          exact .refl _
        · obtain ⟨_,h⟩ := rest_ok h
          split at h
          · exact .expireSession h
          · exact .validateDocument h

theorem Intake.walk {step : Journal → α → Outcome Journal} (hstep : ∀ s a t, step s a = .ok t → s.Intake t)
    (as : List α) (s : Journal) : s.Intake (walk step as s).1 :=
  walk_keeps Intake.refl (fun _ _ _ => Intake.trans) hstep as s

theorem Intake.walks {β : Type} {first : Journal → α → Outcome Journal} {second : Journal → β → Outcome Journal}
    (hfirst : ∀ s a t, first s a = .ok t → s.Intake t) (hsecond : ∀ s b t, second s b = .ok t → s.Intake t)
    (as : List α) (bs : Journal → List β) (s : Journal) :
    s.Intake (match Bdb.walk first as s with
      | (j, .error e) => (j,(.error e : Outcome Unit))
      | (j, .ok ()) => Bdb.walk second (bs j) j).1 := by
  have hone := Intake.walk hfirst as s
  cases hwalk : Bdb.walk first as s with
  | mk j o =>
    rw [hwalk] at hone
    cases o with
    | error e => exact hone
    | ok => exact hone.trans (.walk hsecond (bs j) j)

theorem Intake.validateAt (now : DateTime) (s : Journal) : s.Intake (s.validateAt rt sourceId now).1 :=
  .walks (fun _ _ _ => .expireStaleSession) (fun _ _ _ => .validateCommand) _ listDiscoveredCommands s

variable (rt sourceId) in
theorem Intake.ingestSnapshot (snapshot : CommandSnapshot) (now : String) (s : Journal) :
    s.Intake (s.ingestSnapshot rt sourceId snapshot now).1 :=
  .walks (fun _ _ _ => .ingestManifest) (fun _ _ _ => .ingestCommand) _ (fun _ => byPath snapshot.commands) s

variable (rt sourceId) in
theorem Intake.pollOnce (fetched : Option CommandSnapshot) (now : String) (s : Journal) :
    s.Intake (s.pollOnce rt sourceId fetched now).1 := by
  unfold Journal.pollOnce
  cases fetched with
  | none => exact .refl s
  | some snapshot =>
    have hfirst := Intake.ingestSnapshot rt sourceId snapshot now s
    dsimp only
    cases hingest : s.ingestSnapshot rt sourceId snapshot now with
    | mk j o =>
      rw [hingest] at hfirst
      cases o with
      | error e => exact hfirst
      | ok =>
        refine hfirst.trans ?_
        dsimp only
        unfold Journal.validatePending
        split
        · exact .refl j
        · exact .validateAt _ j

end Journal

end Bdb.Bridge
