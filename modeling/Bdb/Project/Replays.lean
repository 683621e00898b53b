import Bdb.Project.BindingInvariant
import Bdb.Project.StaleResults

/-! # Replays

A result that was recorded once is found again after any other operations: its binding
keeps the fields that identify its results, and attempts are only appended. Finding it
changes nothing. What is found was recorded for the same identity.
-/
namespace Bdb.Project
open Program List

/-! ## What a document remembers -/

/-- Later documents keep every attempt and the identity of every binding. -/
structure Remembers (d e : ExecutionDocument) : Prop where
  attempts : d.attempts <+: e.attempts
  bindings : ∀ bindingId b, d.binding? bindingId = some b →
    ∃ c, e.binding? bindingId = some c ∧ (resultSubject c).map strip = (resultSubject b).map strip

theorem remembers_refl (d : ExecutionDocument) : Remembers d d :=
  ⟨prefix_rfl,fun _ b hb => ⟨b,hb,rfl⟩⟩

variable {d e : ExecutionDocument} {plan : ProjectPlan} {rt : Runtime} {project : ProjectRecord}
    {bindingId projectId : String} {result : Fields} {s : ProjectMemoryState} {amb : Ambient} {site : Site}
    {m : Memory} {calls : List Call} {stored : AttemptDocument}

theorem Remembers.trans {f : ExecutionDocument} (hde : Remembers d e) (hef : Remembers e f) :
    Remembers d f := by
  refine ⟨hde.attempts.trans hef.attempts,fun bindingId b hb => ?_⟩
  obtain ⟨c,hc,hbc⟩ := hde.bindings bindingId b hb
  obtain ⟨c',hc',hcc⟩ := hef.bindings bindingId c hc
  exact ⟨c',hc',hcc.trans hbc⟩

/-- The bindings of a launch list are the same launches. -/
def SameSubject (a b : ProjectExecutionBinding) : Prop := resultSubject b = resultSubject a

theorem bindings_of_forall₂ {kept new : List ProjectExecutionBinding}
    (he : e.bindings = kept ++ new) (h : List.Forall₂ SameSubject d.bindings kept) (bindingId : String)
    (b : ProjectExecutionBinding) (hb : d.binding? bindingId = some b) :
    ∃ c, e.binding? bindingId = some c ∧ (resultSubject c).map strip = (resultSubject b).map strip := by
  have hid : ∀ x y, SameSubject x y →
      (x.executionBindingId == bindingId) = (y.executionBindingId == bindingId) := by
    intro x y hxy
    have hhead := (List.cons.inj hxy).1
    rw [hhead]
  obtain ⟨c,hc,hbc⟩ := find?_of_forall₂ h hid hb
  refine ⟨c,?_,congrArg (List.map strip) hbc⟩
  simp only [ExecutionDocument.binding?,he,List.find?_append,hc,Option.some_or]

theorem bindings_of_conversation {raw bound : ProjectExecutionBinding}
    (hstored : d.binding? raw.executionBindingId = some raw) (hsame : SameLaunch raw bound)
    (bindingId : String) (b : ProjectExecutionBinding) (hb : d.binding? bindingId = some b) :
    ∃ c, ({ d with bindings := d.bindings.map (fun b =>
        if b.executionBindingId == raw.executionBindingId then bound else b) } :
          ExecutionDocument).binding? bindingId = some c ∧ (resultSubject c).map strip = (resultSubject b).map strip := by
  have hkeep : ((fun b : ProjectExecutionBinding => b.executionBindingId == bindingId) ∘
      fun b : ProjectExecutionBinding => if b.executionBindingId == raw.executionBindingId then bound else b) =
      fun b => b.executionBindingId == bindingId := by
    funext a
    simp only [Function.comp_apply]
    split
    · rename_i h
      rw [hsame.id,beq_iff_eq.mp h]
    · rfl
  simp only [ExecutionDocument.binding?,List.find?_map,hkeep]
  refine ⟨if b.executionBindingId == raw.executionBindingId then bound else b,?_,?_⟩
  · rw [show d.bindings.find? (fun b => b.executionBindingId == bindingId) = some b from hb]
    rfl
  · split
    · rename_i h
      have hbid := (binding?_some hb).2
      rw [← hbid,beq_iff_eq.mp h] at hb
      obtain rfl : b = raw := some_unique hb hstored
      rw [hsame.subject,map_map]
      exact map_congr_left fun s _ => strip_strip s
    · rfl

variable {l : Label} {b : ProjectExecutionBinding} {project' : ProjectRecord} {plan' : ProjectPlan}
    {t : ProjectMemoryState} {x y : Examined} {digestV2 : String} {a attempt : AttemptDocument}

theorem Change.attempts (h : Change plan l d e) :
    e.attempts = d.attempts ∨ ∃ a, e.attempts = d.attempts ++ [a] ∧
      (l = .stale a ∨ ∃ task status, l = .settle task a status) := by
  cases h with
  | stale attempt => exact .inr ⟨attempt,rfl,.inl rfl⟩
  | settle now raw task attempt acceptance status hs =>
    refine .inr ⟨attempt,?_,.inr ⟨task,status,rfl⟩⟩
    exact advanced_attempts _ _ _ _ _
  | approve => exact .inl (approved_attempts _ _ _ _)
  | reopen => exact .inl (changesRequested_attempts _ _ _)
  | _ => exact .inl rfl

theorem Change.remembers (h : Change plan l d e) : Remembers d e := by
  refine ⟨?_,?_⟩
  · rcases h.attempts with heq | ⟨a,heq,-⟩
    · exact ⟨[],(append_nil _).trans heq.symm⟩
    · exact ⟨[a],heq.symm⟩
  · have hkept : ∀ {e : ExecutionDocument}, e.bindings = d.bindings → ∀ bindingId b,
        d.binding? bindingId = some b → ∃ c, e.binding? bindingId = some c ∧
          (resultSubject c).map strip = (resultSubject b).map strip := by
      intro e he bindingId b hb
      exact ⟨b,by rw [ExecutionDocument.binding?,he]; exact hb,rfl⟩
    cases h with
    | launch now binding task =>
      refine bindings_of_forall₂ rfl (forall₂_map_right fun b _ => ?_)
      split <;> rfl
    | conversation raw bound hstored hsame => exact bindings_of_conversation hstored hsame
    | settle now raw task attempt acceptance status hs =>
      have hall : List.Forall₂ SameSubject d.bindings
          (settled now raw.executionBindingId attempt acceptance task.taskId status d).bindings :=
        forall₂_updateFirst (fun _ _ => rfl) fun _ _ => rfl
      exact bindings_of_forall₂ ((advanced_bindings _ _ _ _ _).trans (append_nil _).symm) hall
    | approve => exact hkept (approved_bindings _ _ _ _)
    | reopen => exact hkept (changesRequested_bindings _ _ _)
    | _ => exact hkept rfl

theorem runCalls_remembers (calls : List Call) (m : Memory) :
    Remembers (documentOf m) (documentOf (runCalls calls m)) :=
  runCalls_related (I := fun _ => True) remembers_refl (fun _ _ _ => Remembers.trans)
    (fun _ _ _ _ _ _ _ => trivial) (fun _ _ _ _ _ h _ => h.remembers) calls trivial

/-! ## A recorded result is found again -/

theorem executionResultDigest_congr {c : ProjectExecutionBinding}
    (h : resultSubject b = resultSubject c) (rt : Runtime) (result : Fields) :
    executionResultDigestV1 rt b result = executionResultDigestV1 rt c result ∧
      executionResultDigestV2 rt b result = executionResultDigestV2 rt c result := by
  obtain ⟨h1,h2⟩ := resultIdentity_congr h rt result
  simp only [executionResultDigestV1,executionResultDigestV2,h1,h2,and_self]

theorem digests_of_remembers
      {d₁ e₁ : String}
    (hx : Examines rt project plan bindingId result s x d₁)
    (hy : Examines rt project' plan' bindingId result t y e₁)
    (hr : Remembers x.document y.document) : y.digest = x.digest ∧ e₁ = d₁ := by
  obtain ⟨c,hc,hsubject⟩ := hr.bindings bindingId x.raw (need_ok.mp hx.raw)
  obtain rfl : c = y.raw := some_unique hc (need_ok.mp hy.raw)
  have hsame : resultSubject y.binding = resultSubject x.binding := by
    rw [bindingFromDict_subject hy.binding,bindingFromDict_subject hx.binding]
    exact hsubject
  obtain ⟨h1,h2⟩ := executionResultDigest_congr hsame rt result
  exact ⟨Except.ok.inj (hy.digestV2.symm.trans (h2.trans hx.digestV2)),
    Except.ok.inj (hy.digestV1.symm.trans (h1.trans hx.digestV1))⟩

theorem classify_replay {binding : ProjectExecutionBinding} {digestV1 : String} {kind : ResultKind}
    (h : classify project plan d bindingId binding result digestV2 digestV1 = some kind)
    (stored : AttemptDocument) :
    kind = .replay stored ↔ d.attempts.find? (isReplay bindingId digestV2 digestV1) = some stored := by
  unfold classify at h
  cases hf : d.attempts.find? (isReplay bindingId digestV2 digestV1) with
  | some a =>
    simp only [hf,Option.some.injEq] at h
    subst h
    simp
  | none =>
    simp only [hf] at h
    constructor
    · rintro rfl
      split at h <;> cases h
    · exact nofun

theorem isReplay_of_carries (h : Carries bindingId digestV2 a) (digestV1 : String) :
    isReplay bindingId digestV2 digestV1 a = true := by
  simp [isReplay,h.binding,h.digest]

theorem replay_of_remembers (hx : examine rt project plan bindingId result s = .ok x)
    (hnew : ∀ stored, x.kind ≠ .replay stored) (hcarries : Carries bindingId x.digest attempt)
    (hy : examine rt project' plan' bindingId result t = .ok y)
    (hr : Remembers x.document y.document)
    (ha : x.document.attempts ++ [attempt] <+: y.document.attempts) : y.kind = .replay attempt := by
  obtain ⟨d₁,hx⟩ := examine_ok hx
  obtain ⟨e₁,hy⟩ := examine_ok hy
  obtain ⟨hdigest,rfl⟩ := digests_of_remembers hx hy hr
  have hnone : x.document.attempts.find? (isReplay bindingId x.digest e₁) = none := by
    cases hf : x.document.attempts.find? (isReplay bindingId x.digest e₁) with
    | none => rfl
    | some a => exact absurd ((classify_replay hx.kind a).mpr hf) (hnew a)
  obtain ⟨rest,hrest⟩ := ha
  rw [classify_replay hy.kind,hdigest,← hrest,List.find?_append,List.find?_append,hnone]
  simp [isReplay_of_carries hcarries]

theorem Call.attempts (c : Call) (m : Memory) :
    (documentOf (c.run m)).attempts = (documentOf m).attempts ∨
      ∃ a, (documentOf (c.run m)).attempts = (documentOf m).attempts ++ [a] ∧ c.Records m a := by
  have hminor : ∀ {plan : ProjectPlan} {d e : ExecutionDocument}, Minor plan d e →
      e.attempts = d.attempts := by
    rintro plan d e (h | h)
    all_goals cases h; rfl
  have hrest : ∀ {plan : ProjectPlan} {d e : ExecutionDocument},
      Relation.ReflTransGen (Minor plan) d e → e.attempts = d.attempts := by
    intro plan d e h
    exact invariant_of_steps (I := fun e => e.attempts = d.attempts)
      (fun _ _ hm hs => (hminor hm).trans hs) h rfl
  rcases c.moves m with heq | ⟨plan,-,heffect⟩
  · exact .inl (congrArg _ heq)
  · cases heffect with
    | quiet rest => exact .inl (hrest rest)
    | main hl hc rest =>
      rw [hrest rest]
      rcases hc.attempts with heq | ⟨a,heq,rfl | ⟨task,status,rfl⟩⟩
      · exact .inl heq
      · exact .inr ⟨a,heq,hl⟩
      · exact .inr ⟨a,heq,hl.2⟩

theorem run_recordResult (amb : Ambient) (site : Site) (projectId : String) (result : Fields) (m : Memory) :
    Call.run ⟨amb,site,.recordResult projectId result⟩ m =
      ((recordResult amb site projectId result).exec m).2 :=
  exec_map _ _ _

theorem resubmission_replays {amb' : Ambient} {site' : Site} {projectId' : String}
     {s s' : Submission}
    (hs : submission amb site projectId result m = .ok s) (hnew : ∀ stored, s.found.kind ≠ .replay stored)
    (ha : (documentOf ((recordResult amb site projectId result).exec m).2).attempts =
      (documentOf m).attempts ++ [attempt]) (hrt : amb'.runtime = amb.runtime)
    (hs' : submission amb' site' projectId' result
      (runCalls calls ((recordResult amb site projectId result).exec m).2) = .ok s') :
    s'.found.kind = .replay attempt := by
  obtain ⟨-,hid,hread,hx⟩ := submission_ok hs
  obtain ⟨-,hid',hread',hy⟩ := submission_ok hs'
  obtain hbinding : s'.bindingId = s.bindingId := Except.ok.inj (hid'.symm.trans hid)
  rw [hrt,hbinding] at hy
  rw [← run_recordResult] at ha hread'
  have hx' := (examine_ok hx).choose_spec.document
  have hy' := (examine_ok hy).choose_spec.document
  have hdoc : s.found.document = documentOf m :=
    (executionDocument_eq hx').trans (document_of_readState hread)
  have hdoc' : s'.found.document = documentOf (runCalls calls
      (Call.run ⟨amb,site,.recordResult projectId result⟩ m)) :=
    (executionDocument_eq hy').trans (document_of_readState hread')
  have hlater := runCalls_remembers calls (Call.run ⟨amb,site,.recordResult projectId result⟩ m)
  have hfirst : Remembers (documentOf m) (documentOf (Call.run ⟨amb,site,.recordResult projectId result⟩ m)) :=
    runCalls_remembers [⟨amb,site,.recordResult projectId result⟩] m
  have hcarries : Carries s.bindingId s.found.digest attempt := by
    rcases Call.attempts ⟨amb,site,.recordResult projectId result⟩ m with heq | ⟨a,heq,p,r,t,hop,ht,hc⟩
    · rw [ha] at heq
      simp at heq
    · obtain rfl : attempt = a := by
        have happ := ha.symm.trans heq
        simpa using happ
      cases hop
      obtain rfl : s = t := Except.ok.inj (hs.symm.trans ht)
      exact hc
  refine replay_of_remembers hx hnew hcarries hy ?_ ?_
  · rw [hdoc,hdoc']
    exact hfirst.trans hlater
  · rw [hdoc,hdoc',← ha]
    exact hlater.attempts

/-! ## A replay changes nothing -/

def eventsOf (m : Memory) : List ProjectEvent := (m.map (·.events)).getD []

/-- The memory after a replay: only the revision and the task cursor may differ. -/
structure Untouched (m n : Memory) : Prop where
  document : ∃ current, documentOf n = { documentOf m with currentTaskId := current }
  events : eventsOf n = eventsOf m

theorem untouched_refl (m : Memory) : Untouched m m := ⟨⟨(documentOf m).currentTaskId,rfl⟩,rfl⟩

theorem Untouched.trans {n o : Memory} (hmn : Untouched m n) (hno : Untouched n o) : Untouched m o := by
  obtain ⟨c,hc⟩ := hmn.document
  obtain ⟨c',hc'⟩ := hno.document
  refine ⟨⟨c',?_⟩,hno.events.trans hmn.events⟩
  rw [hc',hc]

theorem eventsOf_of_readState (h : readState projectId m = .ok s) : eventsOf m = s.events := by
  obtain ⟨rfl,-⟩ := readState_eq h
  cases m <;> rfl

/-- The state a transition left alone, under the next revision. -/
def bumped (s : ProjectMemoryState) : ProjectMemoryState := { s with revision := s.revision + 1 }

theorem readState_bumped (h : readState projectId m = .ok s) (hsize : (bumped s).bytes ≤ maxMemoryBytes) :
    readState projectId (some (bumped s)) = .ok (bumped s) := by
  obtain ⟨-,hid,h1,h2,h3,h4,h5,h6,h7,h8,h9,-⟩ := readState_eq h
  exact readState_some.mpr ⟨rfl,hsize,hid,h1,h2,h3,h4,h5,h6,h7,h8,h9,Nat.le_add_left 1 _⟩

theorem untouched_bumped (h : readState projectId m = .ok s) : Untouched m (some (bumped s)) := by
  refine ⟨⟨s.document.currentTaskId,?_⟩,(eventsOf_of_readState h).symm⟩
  rw [← document_of_readState h]
  rfl

theorem exec_reconcile
    (hauth : site.authority projectId = .ok (project,plan)) (hread : readState projectId m = .ok s)
    (hd : executionDocument s = .ok d) :
    Untouched m ((reconcile site projectId).exec m).2 ∧
      (((reconcile site projectId).exec m).1 = .error tooLarge ∨
        ∃ record, ((reconcile site projectId).exec m).1 = .ok record) := by
  simp only [reconcile,lift,exec_bind,exec_observe,hauth,hread,hd]
  split
  · exact ⟨untouched_refl m,.inr ⟨_,rfl⟩⟩
  · have hop : setPointerTransition (reconciledTask plan d) s =
        .ok (s.withDocument { d with currentTaskId := some (reconciledTask plan d) },()) :=
      bind_ok.mpr ⟨d,hd,rfl⟩
    have hid : s.projectId = projectId := (readState_eq hread).2.1
    simp only [exec_bind,transact,exec_commit]
    rcases executionTransaction_run hread hop hid with ht | ⟨-,ht⟩
    · rw [ht]
      exact ⟨untouched_refl m,.inl rfl⟩
    · rw [ht]
      refine ⟨⟨⟨some (reconciledTask plan d),?_⟩,(eventsOf_of_readState hread).symm⟩,.inr ⟨_,rfl⟩⟩
      rw [← document_of_readState hread,← executionDocument_eq hd]
      exact ProjectMemoryState.document_withDocument s _

/-- What a caller may see of a replay of a readable attempt. -/
def ReplayAnswer (a : ProjectExecutionAttempt) (out : Except Failure ProjectExecutionAttempt) : Prop :=
  out = .error tooLarge ∨ (a.resultStatus ≠ .staleResult ∧ out = .ok a) ∨
    (a.resultStatus = .staleResult ∧ ∃ details, out = .error ⟨"STALE_RESULT",
      "execution result is stale and requires reconciliation",details⟩)

theorem exec_answer
    (hauth : site.authority projectId = .ok (project,plan)) (hread : readState projectId m = .ok s)
    (hd : executionDocument s = .ok d) (a : ProjectExecutionAttempt) :
    Untouched m ((answer site projectId (replayed a)).exec m).2 ∧
      ReplayAnswer a ((answer site projectId (replayed a)).exec m).1 := by
  by_cases hstale : a.resultStatus = .staleResult
  · simp only [replayed,if_pos hstale,answer]
    exact ⟨untouched_refl m,.inr (.inr ⟨hstale,_,rfl⟩)⟩
  · simp only [replayed,if_neg hstale,answer,exec_bind]
    obtain ⟨hunt,hout⟩ := exec_reconcile hauth hread hd
    rcases hr : (reconcile site projectId).exec m with ⟨r,n⟩
    rw [hr] at hunt hout
    rcases hout with hout | ⟨record,hout⟩
    · obtain rfl : r = .error tooLarge := hout
      exact ⟨hunt,.inl rfl⟩
    · obtain rfl : r = .ok record := hout
      exact ⟨hunt,.inr (.inl ⟨hstale,rfl⟩)⟩

theorem recordResult_replay {s : Submission} {a : ProjectExecutionAttempt}
    (hs : submission amb site projectId result m = .ok s) (hk : s.found.kind = .replay stored)
    (ha : attemptFromDict amb.runtime stored.attempt = .ok a) :
    Untouched m ((recordResult amb site projectId result).exec m).2 ∧
      ReplayAnswer a ((recordResult amb site projectId result).exec m).1 := by
  obtain ⟨hauth,-,hread,hx⟩ := submission_ok hs
  obtain ⟨digestV1,hex⟩ := examine_ok hx
  have hop : recordResultTransition amb s.project s.plan s.bindingId result s.state =
      .ok (s.state,replayed a) := by
    simp only [recordResultTransition,hx,ok_bind,hk,ha]
    rfl
  have hid : s.state.projectId = projectId := (readState_eq hread).2.1
  rw [exec_recordResult hs]
  rcases executionTransaction_run hread hop hid with ht | ⟨hsize,ht⟩
  · rw [ht]
    exact ⟨untouched_refl m,.inl rfl⟩
  · rw [ht]
    have hd : executionDocument (bumped s.state) = .ok s.found.document := hex.document
    obtain ⟨hunt,hout⟩ := exec_answer hauth (readState_bumped hread hsize) hd a
    exact ⟨(untouched_bumped hread).trans hunt,hout⟩

theorem recordResult_unreadable {s : Submission} {e : Failure}
    (hs : submission amb site projectId result m = .ok s) (hk : s.found.kind = .replay stored)
    (he : attemptFromDict amb.runtime stored.attempt = .error e) :
    (recordResult amb site projectId result).exec m = (.error e,m) := by
  obtain ⟨-,-,hread,hx⟩ := submission_ok hs
  have hnone : ∀ r ∈ (none : Option ℕ), s.state.revision = r := nofun
  have hop : executionTransaction projectId
      (recordResultTransition amb s.project s.plan s.bindingId result) m = .error e := by
    simp only [executionTransaction,writeTransaction,hread,ok_bind,require,if_pos hnone,
      recordResultTransition,hx,hk,he,error_bind]
  rw [exec_recordResult hs,hop]

/-! ## A replay was recorded for the same identity -/

theorem runCalls_recorded (calls : List Call) (ha : a ∈ (documentOf (runCalls calls m)).attempts) :
    a ∈ (documentOf m).attempts ∨
      ∃ before c after, calls = before ++ c :: after ∧ c.Records (runCalls before m) a := by
  induction calls generalizing m with
  | nil => exact .inl ha
  | cons c rest ih =>
    rcases ih ha with hfirst | ⟨before,c',after,rfl,hrec⟩
    · rcases c.attempts m with heq | ⟨b,heq,hrec⟩
      · exact .inl (heq ▸ hfirst)
      · rw [heq] at hfirst
        rcases mem_append.mp hfirst with hold | hnew
        · exact .inl hold
        · obtain rfl := mem_singleton.mp hnew
          exact .inr ⟨[],c,rest,rfl,hrec⟩
    · exact .inr ⟨c :: before,c',after,rfl,hrec⟩

def RecordedIn (calls : List Call) (m : Memory) (bindingId : String) (identity : Fields) : Prop :=
  ∃ before c after p result s attempt, calls = before ++ c :: after ∧
    c.operation = .recordResult p result ∧
    submission c.ambient c.site p result (runCalls before m) = .ok s ∧ s.bindingId = bindingId ∧
    resultIdentityV2 c.ambient.runtime s.found.binding result = .ok identity ∧
    attempt ∈ (documentOf (runCalls calls m)).attempts ∧ Carries s.bindingId s.found.digest attempt

theorem digestV2_ok {digest : String} (h : executionResultDigestV2 rt b result = .ok digest) :
    ∃ identity, resultIdentityV2 rt b result = .ok identity ∧
      digest = Evidence.semanticDigest rt identity := by
  unfold executionResultDigestV2 at h
  cases hi : resultIdentityV2 rt b result with
  | error e => simp [hi] at h
  | ok identity =>
    simp only [hi,Except.map_ok,Except.ok.injEq] at h
    exact ⟨identity,rfl,h.symm⟩

/-- The text a digest hashes. -/
def identityText (identity : Fields) : List Char :=
  Json.canonicalText (Evidence.semanticPayload (.obj identity))

/-- The identity of a result up to field order and volatile fields. -/
def identityForm (identity : Fields) : Json := Evidence.semanticForm (.obj identity)

theorem replay_was_recorded
     {s : Submission}
    (hstart : (documentOf m).attempts = [])
    (hs : submission amb site projectId result (runCalls calls m) = .ok s)
    (hk : s.found.kind = .replay stored) :
    ∃ before c after p earlier t, calls = before ++ c :: after ∧ c.operation = .recordResult p earlier ∧
      submission c.ambient c.site p earlier (runCalls before m) = .ok t ∧ t.bindingId = s.bindingId ∧
      t.found.digest = s.found.digest ∧ stored ∈ (documentOf (runCalls calls m)).attempts ∧
      Carries t.bindingId t.found.digest stored := by
  obtain ⟨-,-,hread,hx⟩ := submission_ok hs
  obtain ⟨digestV1,hex⟩ := examine_ok hx
  have hdoc : s.found.document = documentOf (runCalls calls m) :=
    (executionDocument_eq hex.document).trans (document_of_readState hread)
  have hfound := (classify_replay hex.kind stored).mp hk
  have hmem := mem_of_find?_eq_some hfound
  have hreplay := List.find?_some hfound
  rw [hdoc] at hmem
  rcases runCalls_recorded calls hmem with hold | ⟨before,c,after,hsplit,p,earlier,t,hop,ht,hcarries⟩
  · rw [hstart] at hold
    exact absurd hold not_mem_nil
  · -- an attempt recorded by a call carries the current version, so the legacy digest is out
    simp only [isReplay,hcarries.binding,hcarries.digest,hcarries.version,Bool.and_eq_true,
      Bool.or_eq_true,beq_iff_eq,decide_eq_true_eq] at hreplay
    obtain ⟨hid,hdigest | ⟨-,hnone | hlegacy⟩⟩ := hreplay
    · exact ⟨before,c,after,p,earlier,t,hsplit,hop,ht,hid,hdigest,hmem,hcarries⟩
    · cases hnone
    · exact absurd hlegacy (by decide)

theorem not_replay_of_new_identity
     {s : Submission} {identity : Fields}
    (hstart : (documentOf m).attempts = []) (hrt : ∀ c ∈ calls, c.ambient.runtime = amb.runtime)
    (hs : submission amb site projectId result (runCalls calls m) = .ok s)
    (hid : resultIdentityV2 amb.runtime s.found.binding result = .ok identity)
    (hnew : ∀ earlier, RecordedIn calls m s.bindingId earlier → identityForm earlier ≠ identityForm identity)
    (hsha : ∀ earlier, RecordedIn calls m s.bindingId earlier →
      amb.runtime.sha256 (identityText earlier) = amb.runtime.sha256 (identityText identity) →
        identityText earlier = identityText identity) (stored : AttemptDocument) :
    s.found.kind ≠ .replay stored := by
  intro hk
  obtain ⟨before,c,after,p,earlier,t,hsplit,hop,ht,hbind,hdigest,hmem,hcarries⟩ :=
    replay_was_recorded hstart hs hk
  obtain ⟨-,-,-,hx⟩ := submission_ok hs
  obtain ⟨-,-,-,hy⟩ := submission_ok ht
  obtain ⟨d₁,hex⟩ := examine_ok hx
  obtain ⟨e₁,hey⟩ := examine_ok hy
  have hruntime : c.ambient.runtime = amb.runtime := hrt c (by simp [hsplit])
  obtain ⟨i,hi,hdi⟩ := digestV2_ok hex.digestV2
  obtain rfl : identity = i := Except.ok.inj (hid.symm.trans hi)
  obtain ⟨j,hj,hdj⟩ := digestV2_ok hey.digestV2
  have hrec : RecordedIn calls m s.bindingId j :=
    ⟨before,c,after,p,earlier,t,stored,hsplit,hop,ht,hbind,hj,hmem,hcarries⟩
  have heq : Evidence.semanticDigest amb.runtime j = Evidence.semanticDigest amb.runtime identity := by
    rw [← hdi,← hdigest,hdj,hruntime]
  exact hnew j hrec (Evidence.semanticForm_eq_of_digest (hsha j hrec) heq)

/-! ## The three together -/

def boundMemory : Memory :=
  runCalls [⟨sampleAmbient,launchedSite,.persistBinding (sampleBinding "b1" "t1")⟩] none

def stray (m : Memory) : Except Failure ProjectExecutionAttempt × Memory :=
  (recordResult sampleAmbient launchedSite "p1" strayResult).exec m

theorem stray_run :
    (documentOf boundMemory).attempts = [] ∧ (documentOf (stray boundMemory).2).attempts.length = 1 ∧
      (submission sampleAmbient launchedSite "p1" strayResult boundMemory).toOption.map (·.found.kind) =
        some (.stale .identityMismatch) ∧
      (submission sampleAmbient launchedSite "p1" strayResult (stray boundMemory).2).toOption.isSome = true ∧
      (stray (stray boundMemory).2).1.toOption.isNone = true := by
  decide +kernel

end Bdb.Project
